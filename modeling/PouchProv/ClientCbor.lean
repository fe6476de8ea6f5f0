import PouchProv.Clients

/-!
# The CBOR writers of the Kotlin and the Swift client

`Cbor.kt` and `Cbor.swift` write the same values by the same cases over
different machine integers. Both write the canonical encoding of a value
(`Kotlin.encode_eq`, `Swift.encode_eq`), as long as no length leaves the range of
a signed number of 64 bits.
-/

namespace ClientCbor

open Bytes Cbor Clients

namespace Kotlin

/-- A byte of the argument, `(arg ushr shift).toInt() and 0xFF`. -/
def byte (arg : Int64) (shift : UInt64) : UInt8 := (arg.toUInt64 >>> shift).toUInt8

def writeHead (major : Nat) (arg : Int64) : Bytes :=
  let m := major <<< 5
  if arg < 24 then [UInt8.ofNat (m ||| (byte arg 0).toNat)]
  else if arg ≤ 0xff then [UInt8.ofNat (m ||| 24), byte arg 0]
  else if arg ≤ 0xffff then [UInt8.ofNat (m ||| 25), byte arg 8, byte arg 0]
  else if arg ≤ 0xffffffff then UInt8.ofNat (m ||| 26) :: [24, 16, 8, 0].map (byte arg)
  else UInt8.ofNat (m ||| 27) :: [56, 48, 40, 32, 24, 16, 8, 0].map (byte arg)

end Kotlin

namespace Swift

def byte (arg : UInt64) (shift : UInt64) : UInt8 := ((arg >>> shift) &&& 0xff).toUInt8

def writeHead (major : UInt8) (arg : UInt64) : Bytes :=
  let m := major <<< 5
  if arg < 24 then [m ||| arg.toUInt8]
  else if arg ≤ 0xff then [m ||| 24, arg.toUInt8]
  else if arg ≤ 0xffff then [m ||| 25, byte arg 8, byte arg 0]
  else if arg ≤ 0xffffffff then (m ||| 26) :: [24, 16, 8, 0].map (byte arg)
  else (m ||| 27) :: [56, 48, 40, 32, 24, 16, 8, 0].map (byte arg)

end Swift

lemma initial_byte (major : Nat) {x : Nat} (hx : x < 32) :
    major <<< 5 ||| x = 32 * major + x := by
  rw [← Nat.shiftLeft_add_eq_or_of_lt hx, Nat.shiftLeft_eq]
  omega

lemma ofNat_mod (n : Nat) : UInt8.ofNat (n % 256) = UInt8.ofNat n := by
  apply UInt8.toNat_inj.mp
  simp

/-- What the shifts of the two writers pick out are the bytes of the number, from its highest. -/
lemma shifts_eq {n : Nat} {byte : UInt64 → UInt8}
    (hbyte : ∀ s : UInt64, s.toNat < 64 → byte s = UInt8.ofNat (n / 2 ^ s.toNat)) :
    [byte 0] = be 1 n ∧ [byte 8, byte 0] = be 2 n ∧ [24, 16, 8, 0].map byte = be 4 n ∧
      [56, 48, 40, 32, 24, 16, 8, 0].map byte = be 8 n := by
  refine ⟨?_, ?_, ?_, ?_⟩ <;>
    simp [hbyte, be, ofNat_mod, Nat.div_div_eq_div_mul]

/-- The low byte of a shifted word. -/
lemma shifted_byte {n : Nat} (fits : n < 2 ^ 64) {s : UInt64} (hs : s.toNat < 64) :
    (UInt64.ofNat n >>> s).toUInt8 = UInt8.ofNat (n / 2 ^ s.toNat) := by
  apply UInt8.toNat_inj.mp
  rw [UInt64.toNat_toUInt8, UInt64.toNat_shiftRight, UInt64.toNat_ofNat_of_lt' fits,
    Nat.mod_eq_of_lt hs, Nat.shiftRight_eq_div_pow, UInt8.toNat_ofNat']

/-- The five lengths of the shortest header. -/
lemma head_eq (major n : Nat) : head major n =
    if n < 24 then [UInt8.ofNat (32 * major + n)]
    else if n ≤ 0xff then UInt8.ofNat (32 * major + 24) :: be 1 n
    else if n ≤ 0xffff then UInt8.ofNat (32 * major + 25) :: be 2 n
    else if n ≤ 0xffffffff then UInt8.ofNat (32 * major + 26) :: be 4 n
    else UInt8.ofNat (32 * major + 27) :: be 8 n := by
  have h8 : n < 2 ^ 8 ↔ n ≤ 0xff := by omega
  have h16 : n < 2 ^ 16 ↔ n ≤ 0xffff := by omega
  have h32 : n < 2 ^ 32 ↔ n ≤ 0xffffffff := by omega
  rw [head, header, info]
  simp only [h8, h16, h32]
  split
  · rfl
  · split
    · rfl
    · split
      · rfl
      · split <;> rfl

namespace Kotlin

lemma byte_eq {n : Nat} (fits : n < 2 ^ 63) {s : UInt64} (hs : s.toNat < 64) :
    byte (Int64.ofNat n) s = UInt8.ofNat (n / 2 ^ s.toNat) :=
  shifted_byte (Nat.lt_trans fits (by decide)) hs

/-- For an argument that is not negative the writer makes the shortest header. -/
theorem writeHead_eq {major n : Nat} (fits : n < 2 ^ 63) :
    writeHead major (Int64.ofNat n) = head major n := by
  have hlt : ∀ bound : Nat, bound < 2 ^ 63 → (Int64.ofNat n < Int64.ofNat bound ↔ n < bound) := by
    intro bound hbound
    rw [Int64.lt_iff_toInt_lt, Int64.toInt_ofNat_of_lt fits, Int64.toInt_ofNat_of_lt hbound]
    omega
  have hle : ∀ bound : Nat, bound < 2 ^ 63 → (Int64.ofNat n ≤ Int64.ofNat bound ↔ n ≤ bound) := by
    intro bound hbound
    rw [Int64.le_iff_toInt_le, Int64.toInt_ofNat_of_lt fits, Int64.toInt_ofNat_of_lt hbound]
    omega
  have h24 : Int64.ofNat n < 24 ↔ n < 24 := hlt 24 (by decide)
  have h8 : Int64.ofNat n ≤ 0xff ↔ n ≤ 0xff := hle 0xff (by decide)
  have h16 : Int64.ofNat n ≤ 0xffff ↔ n ≤ 0xffff := hle 0xffff (by decide)
  have h32 : Int64.ofNat n ≤ 0xffffffff ↔ n ≤ 0xffffffff := hle 0xffffffff (by decide)
  obtain ⟨hone, htwo, hfour, height⟩ := shifts_eq fun s hs => byte_eq fits hs
  rw [head_eq, writeHead, ← hone, ← htwo, ← hfour, ← height]
  simp only [h24, h8, h16, h32, initial_byte major (by decide : 24 < 32),
    initial_byte major (by decide : 25 < 32), initial_byte major (by decide : 26 < 32),
    initial_byte major (by decide : 27 < 32)]
  split
  · rename_i hsmall
    have hbyte : (byte (Int64.ofNat n) 0).toNat = n := by
      rw [byte_eq fits (by decide), UInt8.toNat_ofNat']
      simp
      omega
    rw [hbyte, initial_byte major (by omega)]
  · rfl

end Kotlin

namespace Swift

lemma byte_eq {n : Nat} (fits : n < 2 ^ 64) {s : UInt64} (hs : s.toNat < 64) :
    byte (UInt64.ofNat n) s = UInt8.ofNat (n / 2 ^ s.toNat) := by
  rw [← shifted_byte fits hs, byte]
  apply UInt8.toNat_inj.mp
  rw [UInt64.toNat_toUInt8, UInt64.toNat_toUInt8, UInt64.toNat_and]
  have hmask := Nat.and_two_pow_sub_one_eq_mod (UInt64.ofNat n >>> s).toNat 8
  exact (congrArg (· % 2 ^ 8) hmask).trans (Nat.mod_mod _ _)

lemma initial_eq {major : Nat} (hmajor : major < 8) {x : UInt8} (hx : x.toNat < 32) :
    UInt8.ofNat major <<< 5 ||| x = UInt8.ofNat (32 * major + x.toNat) := by
  apply UInt8.toNat_inj.mp
  have hshift : (UInt8.ofNat major <<< 5).toNat = major <<< 5 := by
    have hfive : (5 : UInt8).toNat % 8 = 5 := by decide
    rw [UInt8.toNat_shiftLeft, UInt8.toNat_ofNat', hfive, Nat.shiftLeft_eq, Nat.shiftLeft_eq]
    omega
  rw [UInt8.toNat_or, hshift, initial_byte major hx, UInt8.toNat_ofNat']
  omega

theorem writeHead_eq {major n : Nat} (hmajor : major < 8) (fits : n < 2 ^ 64) :
    writeHead (UInt8.ofNat major) (UInt64.ofNat n) = head major n := by
  have hlt : ∀ bound : Nat, bound < 2 ^ 64 →
      (UInt64.ofNat n < UInt64.ofNat bound ↔ n < bound) := by
    intro bound hbound
    rw [UInt64.lt_iff_toNat_lt, UInt64.toNat_ofNat_of_lt' fits, UInt64.toNat_ofNat_of_lt' hbound]
  have hle : ∀ bound : Nat, bound < 2 ^ 64 →
      (UInt64.ofNat n ≤ UInt64.ofNat bound ↔ n ≤ bound) := by
    intro bound hbound
    rw [UInt64.le_iff_toNat_le, UInt64.toNat_ofNat_of_lt' fits, UInt64.toNat_ofNat_of_lt' hbound]
  have h24 : UInt64.ofNat n < 24 ↔ n < 24 := hlt 24 (by decide)
  have h8 : UInt64.ofNat n ≤ 0xff ↔ n ≤ 0xff := hle 0xff (by decide)
  have h16 : UInt64.ofNat n ≤ 0xffff ↔ n ≤ 0xffff := hle 0xffff (by decide)
  have h32 : UInt64.ofNat n ≤ 0xffffffff ↔ n ≤ 0xffffffff := hle 0xffffffff (by decide)
  have hlow : (UInt64.ofNat n).toUInt8 = byte (UInt64.ofNat n) 0 :=
    (shifted_byte (s := 0) fits (by decide)).trans (byte_eq fits (by decide)).symm
  obtain ⟨hone, htwo, hfour, height⟩ := shifts_eq fun s hs => byte_eq fits hs
  rw [head_eq, writeHead, ← hone, ← htwo, ← hfour, ← height]
  simp only [h24, h8, h16, h32, initial_eq hmajor (by decide : (24 : UInt8).toNat < 32),
    initial_eq hmajor (by decide : (25 : UInt8).toNat < 32),
    initial_eq hmajor (by decide : (26 : UInt8).toNat < 32),
    initial_eq hmajor (by decide : (27 : UInt8).toNat < 32), hlow]
  split
  · rename_i hsmall
    have hbyte : (byte (UInt64.ofNat n) 0).toNat = n := by
      rw [byte_eq fits (by decide), UInt8.toNat_ofNat']
      simp
      omega
    rw [initial_eq hmajor (by omega), hbyte]
  · rfl

end Swift

mutual

/-- The cases of both writers, over their way to write a header. -/
def write (writeHead : Nat → Nat → Bytes) : CborValue → Bytes
  | .null => [0xf6]
  | .bool b => [if b then 0xf5 else 0xf4]
  | .int v => if v ≥ 0 then writeHead 0 v.toInt.toNat else writeHead 1 (-1 - v).toInt.toNat
  | .bytes b => writeHead 2 b.length ++ b
  | .text s => writeHead 3 (utf8 s).length ++ utf8 s
  | .array xs => writeHead 4 xs.length ++ writeAll writeHead xs
  | .map kvs => writeHead 5 kvs.length ++ writePairs writeHead kvs

def writeAll (writeHead : Nat → Nat → Bytes) : List CborValue → Bytes
  | [] => []
  | x :: xs => write writeHead x ++ writeAll writeHead xs

def writePairs (writeHead : Nat → Nat → Bytes) : List (CborValue × CborValue) → Bytes
  | [] => []
  | (k, v) :: kvs => write writeHead k ++ write writeHead v ++ writePairs writeHead kvs

end

def Kotlin.encode : CborValue → Bytes :=
  write fun major n => Kotlin.writeHead major (Int64.ofNat n)

def Swift.encode : CborValue → Bytes :=
  write fun major n => Swift.writeHead (UInt8.ofNat major) (UInt64.ofNat n)

mutual

/-- The data item of a value. -/
def item : CborValue → Item
  | .null => .prim 22 22
  | .bool b => .bool b
  | .int v => if 0 ≤ v.toInt then .uint v.toInt.toNat else .nint (-1 - v.toInt).toNat
  | .bytes b => .bstr b
  | .text s => .tstr (utf8 s)
  | .array xs => .array (items xs)
  | .map kvs => .map (pairItems kvs)

def items : List CborValue → List Item
  | [] => []
  | x :: xs => item x :: items xs

def pairItems : List (CborValue × CborValue) → List Item
  | [] => []
  | (k, v) :: kvs => item k :: item v :: pairItems kvs

end

mutual

/-- The lengths are those of strings and lists that a client can hold. -/
def Sized : CborValue → Prop
  | .bytes b => b.length < 2 ^ 63
  | .text s => (utf8 s).length < 2 ^ 63
  | .array xs => xs.length < 2 ^ 63 ∧ AllSized xs
  | .map kvs => kvs.length < 2 ^ 63 ∧ PairsSized kvs
  | _ => True

def AllSized : List CborValue → Prop
  | [] => True
  | x :: xs => Sized x ∧ AllSized xs

def PairsSized : List (CborValue × CborValue) → Prop
  | [] => True
  | (k, v) :: kvs => Sized k ∧ Sized v ∧ PairsSized kvs

end

lemma items_length (xs : List CborValue) : (items xs).length = xs.length := by
  induction xs with
  | nil => rfl
  | cons x xs ih => simp [items, ih]

lemma pairItems_length (kvs : List (CborValue × CborValue)) :
    (pairItems kvs).length = 2 * kvs.length := by
  induction kvs with
  | nil => rfl
  | cons kv kvs ih =>
    simp only [pairItems, List.length_cons, ih]
    omega

lemma pairsSized_append {kvs kvs' : List (CborValue × CborValue)} (h : PairsSized kvs)
    (h' : PairsSized kvs') : PairsSized (kvs ++ kvs') := by
  induction kvs with
  | nil => exact h'
  | cons kv kvs ih => exact ⟨h.1, h.2.1, ih h.2.2⟩

lemma item_int {n : Nat} (fits : n < 2 ^ 63) : item (.int (Int64.ofNat n)) = .uint n := by
  rw [item, Int64.toInt_ofNat_of_lt fits, if_pos (Int.natCast_nonneg n), Int.toNat_natCast]

/-- The writer makes the shortest header for every argument that it can be given. -/
def WritesHeads (writeHead : Nat → Nat → Bytes) : Prop :=
  ∀ major n, major < 8 → n < 2 ^ 63 → writeHead major n = head major n

section Writer

variable {writeHead : Nat → Nat → Bytes}

lemma write_int (agrees : WritesHeads writeHead) (v : Int64) :
    write writeHead (.int v) = encode (item (.int v)) := by
  have hge : v ≥ 0 ↔ 0 ≤ v.toInt := Int64.le_iff_toInt_le
  have hlow := v.le_toInt
  have hhigh := v.toInt_lt
  rw [write, item]
  by_cases hpos : 0 ≤ v.toInt
  · rw [if_pos (hge.mpr hpos), if_pos hpos, encode]
    exact agrees 0 _ (by decide) (by omega)
  · have hsub : (-1 - v).toInt = -1 - v.toInt := by
      have hone : (-1 : Int64).toInt = -1 := by decide
      rw [Int64.toInt_sub, hone]
      exact Int.bmod_eq_of_le (by omega) (by omega)
    rw [if_neg (fun h => hpos (hge.mp h)), if_neg hpos, encode, hsub]
    exact agrees 1 _ (by decide) (by omega)

mutual

/-- A writer with the shortest headers writes the canonical encoding of the value. -/
theorem write_eq (agrees : WritesHeads writeHead) : (v : CborValue) → Sized v →
    write writeHead v = encode (item v)
  | .null, _ => rfl
  | .bool b, _ => by cases b <;> rfl
  | .int v, _ => write_int agrees v
  | .bytes b, sized => by
    rw [write, item, encode, agrees 2 _ (by decide) sized]
  | .text s, sized => by
    rw [write, item, encode, agrees 3 _ (by decide) sized]
  | .array xs, sized => by
    rw [write, item, encode, agrees 4 _ (by decide) sized.1, items_length,
      writeAll_eq agrees xs sized.2]
  | .map kvs, sized => by
    rw [write, item, encode, agrees 5 _ (by decide) sized.1, pairItems_length,
      Nat.mul_div_cancel_left _ (by decide), writePairs_eq agrees kvs sized.2]

theorem writeAll_eq (agrees : WritesHeads writeHead) : (xs : List CborValue) → AllSized xs →
    writeAll writeHead xs = encodeAll (items xs)
  | [], _ => rfl
  | x :: xs, sized => by
    rw [writeAll, items, encodeAll, write_eq agrees x sized.1, writeAll_eq agrees xs sized.2]

theorem writePairs_eq (agrees : WritesHeads writeHead) :
    (kvs : List (CborValue × CborValue)) → PairsSized kvs →
    writePairs writeHead kvs = encodeAll (pairItems kvs)
  | [], _ => rfl
  | (k, v) :: kvs, sized => by
    rw [writePairs, pairItems, encodeAll, encodeAll, write_eq agrees k sized.1,
      write_eq agrees v sized.2.1, writePairs_eq agrees kvs sized.2.2, List.append_assoc]

end

end Writer

theorem Kotlin.encode_eq {v : CborValue} (sized : Sized v) :
    Kotlin.encode v = Cbor.encode (item v) :=
  write_eq (fun _ _ _ fits => Kotlin.writeHead_eq fits) v sized

theorem Swift.encode_eq {v : CborValue} (sized : Sized v) :
    Swift.encode v = Cbor.encode (item v) :=
  write_eq (fun _ _ hmajor fits => Swift.writeHead_eq hmajor (Nat.lt_trans fits (by decide)))
    v sized

end ClientCbor
