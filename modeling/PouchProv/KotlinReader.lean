import PouchProv.ClientReader

/-!
# The Kotlin CBOR reader in its own words

`Reader` of `Cbor.kt`, with a position of 32 bits, arguments of 64, and the exceptions
that Kotlin throws by itself beside `DecodeException`. A run also lists what the numbers
of the input are used for (`Use`): the number that the bytes write beside the word that
the reader has for it.

The memory and the stack are as large as needed.
-/

namespace KotlinReader

open Bytes Cbor Clients ClientReader

/-- A `ByteArray`. -/
structure JvmBytes where
  bytes : Bytes
  short : bytes.length < 2 ^ 31

def JvmBytes.size (data : JvmBytes) : Int32 := Int32.ofNat data.bytes.length

inductive Failure where
  | decode (msg : String)
  | illegalArgument (msg : String)
  | indexOutOfBounds
  deriving DecidableEq, Repr

/-- What a number of the input is used for: as a value, as the end of a slice, as the capacity of
a collection, or as the count of a loop. -/
inductive Use where
  | number (exact : Int) (used : Int64)
  | slice (exact : Int) (used : Int32)
  | capacity (exact : Int) (used : Int32)
  | count (exact : Int) (used : Int32)
  deriving DecidableEq, Repr

/-- A reader from a position on, with the position behind what it read and its uses. -/
def Reading (α : Type) : Type := Int32 → Except Failure (α × Int32) × List Use

instance : Monad Reading where
  pure a := fun pos => (.ok (a, pos), [])
  bind x f := fun pos =>
    match x pos with
    | (.error e, uses) => (.error e, uses)
    | (.ok (a, pos), uses) => ((f a pos).1, uses ++ (f a pos).2)

def fail {α : Type} (e : Failure) : Reading α := fun _ => (.error e, [])

def use (u : Use) : Reading Unit := fun pos => (.ok ((), pos), [u])

/-- The argument of a header: the number that its bytes write, and the `Long`. -/
structure Argument where
  exact : Nat
  long : Int64

section Reader

variable (data : JvmBytes)

def u8 : Reading UInt8 := fun pos =>
  if pos ≥ data.size then (.error (.decode "truncated CBOR"), [])
  else if pos < 0 then (.error .indexOutOfBounds, [])
  else (.ok (data.bytes.getD pos.toNatClampNeg 0, pos + 1), [])

def readBE : Nat → Argument → Reading Argument
  | 0, a => pure a
  | n + 1, a => do
    let b ← u8 data
    readBE n ⟨256 * a.exact + b.toNat, a.long <<< 8 ||| Int64.ofNat b.toNat⟩

def argument (ai : Nat) : Reading Argument :=
  if ai < 24 then pure ⟨ai, Int64.ofNat ai⟩
  else if ai = 24 then do
    let b ← u8 data
    return ⟨b.toNat, Int64.ofNat b.toNat⟩
  else if ai = 25 then readBE data 2 ⟨0, 0⟩
  else if ai = 26 then readBE data 4 ⟨0, 0⟩
  else if ai = 27 then readBE data 8 ⟨0, 0⟩
  else fail (.decode ("bad additional info " ++ toString ai))

/-- `copyOfRange`, which checks the end of the range before its order. -/
def copyOfRange (start stop : Int32) : Except Failure Bytes :=
  if stop > data.size then .error .indexOutOfBounds
  else if start > stop then
    .error (.illegalArgument (toString start ++ " > " ++ toString stop))
  else if start < 0 then .error .indexOutOfBounds
  else .ok ((data.bytes.drop start.toNatClampNeg).take (stop - start).toNatClampNeg)

def bytes (a : Argument) : Reading Bytes := fun pos =>
  let n := a.long.toInt32
  if n < 0 ∨ pos + n > data.size then (.error (.decode "truncated CBOR string"), [])
  else
    ((copyOfRange data pos (pos + n)).map (·, pos + n),
      [.slice (pos.toInt + a.exact) (pos + n)])

variable (t : Texts)

mutual

/-- `Reader.read`. The fuel bounds the depth and the number of items. -/
def read : Nat → Reading CborValue
  | 0 => fail (.decode "out of fuel")
  | fuel + 1 => do
    let initial ← u8 data
    let major := initial.toNat / 32
    let ai := initial.toNat % 32
    match major with
    | 0 => do
      let a ← argument data ai
      use (.number a.exact a.long)
      return .int a.long
    | 1 => do
      let a ← argument data ai
      use (.number (-1 - a.exact) (-1 - a.long))
      return .int (-1 - a.long)
    | 2 => do
      let a ← argument data ai
      let b ← bytes data a
      return .bytes b
    | 3 => do
      let a ← argument data ai
      let b ← bytes data a
      return .text (t.kotlin b)
    | 4 => do
      let a ← argument data ai
      let n := a.long.toInt32
      use (.capacity a.exact n)
      if n < 0 then fail (.illegalArgument ("Illegal Capacity: " ++ toString n))
      else do
        use (.count a.exact n)
        let xs ← readAll fuel n.toNatClampNeg
        return .array xs
    | 5 => do
      let a ← argument data ai
      let n := a.long.toInt32
      use (.capacity (2 * a.exact) (n * 2))
      if n * 2 < 0 then fail (.illegalArgument ("Illegal initial capacity: " ++ toString (n * 2)))
      else do
        -- `repeat` does nothing for a negative number.
        use (.count a.exact n)
        let xs ← readAll fuel (2 * n.toNatClampNeg)
        return .map (Kotlin.linked (pairUp xs))
    | 7 =>
      match simpleValue ai with
      | some v => pure v
      | none => fail (.decode ("unsupported simple value " ++ toString ai))
    | _ => fail (.decode ("unsupported major type " ++ toString major))

def readAll : Nat → Nat → Reading (List CborValue)
  | _, 0 => pure []
  | 0, _ + 1 => fail (.decode "out of fuel")
  | fuel + 1, n + 1 => do
    let x ← read fuel
    let xs ← readAll fuel n
    return x :: xs

end

/-- `Cbor.decodeWithLength`, with the uses. -/
def decodeWithLength : Except Failure (CborValue × Int32) × List Use :=
  read data t (2 * data.bytes.length + 1) 0

/-- `Cbor.decode`, with the uses. -/
def decode : Except Failure CborValue × List Use :=
  ((decodeWithLength data t).1.map Prod.fst, (decodeWithLength data t).2)

end Reader

namespace Use

/-- The number in the input. -/
def exact : Use → Int
  | number n _ | slice n _ | capacity n _ | count n _ => n

/-- The number that the reader has for it. -/
def used : Use → Int
  | number _ w => w.toInt
  | slice _ w | capacity _ w | count _ w => w.toInt

def IsLength : Use → Prop
  | number _ _ => False
  | _ => True

instance : (u : Use) → Decidable u.IsLength
  | number _ _ => .isFalse id
  | slice _ _ | capacity _ _ | count _ _ => .isTrue trivial

/-- Neither negative nor wrapped. -/
def Exact (u : Use) : Prop := u.used = u.exact

/-- The number fits the word. -/
def InRange : Use → Prop
  | number n _ => -2 ^ 63 ≤ n ∧ n < 2 ^ 63
  | slice n _ | capacity n _ | count n _ => n < 2 ^ 31

/-- The word is the number, up to its width. -/
def Wraps : Use → Prop
  | number n w => w = Int64.ofInt n
  | slice n w | capacity n w | count n w => 0 ≤ n ∧ w = Int32.ofInt n

lemma exact_iff_inRange {u : Use} (wraps : u.Wraps) : u.Exact ↔ u.InRange := by
  have hlength : ∀ {n : Int} {w : Int32}, 0 ≤ n ∧ w = Int32.ofInt n →
      (w.toInt = n ↔ n < 2 ^ 31) := by
    rintro n w ⟨hpos, rfl⟩
    constructor
    · intro h
      have hlt := (Int32.ofInt n).toInt_lt
      omega
    · intro h
      exact Int32.toInt_ofInt_of_le (by omega) (by omega)
  cases u with
  | number n w =>
    obtain rfl : w = Int64.ofInt n := wraps
    constructor
    · intro h
      have hlow := (Int64.ofInt n).le_toInt
      have hhigh := (Int64.ofInt n).toInt_lt
      rw [show (Int64.ofInt n).toInt = n from h] at hlow hhigh
      exact ⟨hlow, hhigh⟩
    · rintro ⟨hlow, hhigh⟩
      exact Int64.toInt_ofInt_of_le hlow hhigh
  | slice n w => exact hlength wraps
  | capacity n w => exact hlength wraps
  | count n w => exact hlength wraps

end Use

section Runs

variable {data : JvmBytes} {α β : Type}

lemma bind_run (x : Reading α) (f : α → Reading β) (pos : Int32) :
    (x >>= f) pos =
      match x pos with
      | (.error e, uses) => (.error e, uses)
      | (.ok (a, pos), uses) => ((f a pos).1, uses ++ (f a pos).2) := rfl

lemma bind_error {x : Reading α} {pos : Int32} {e : Failure} (h : (x pos).1 = .error e)
    (f : α → Reading β) : (x >>= f) pos = (.error e, (x pos).2) := by
  rw [bind_run, show x pos = (.error e, (x pos).2) from Prod.ext h rfl]

lemma bind_ok {x : Reading α} {pos pos' : Int32} {a : α} (h : (x pos).1 = .ok (a, pos'))
    (f : α → Reading β) : (x >>= f) pos = ((f a pos').1, (x pos).2 ++ (f a pos').2) := by
  rw [bind_run, show x pos = (.ok (a, pos'), (x pos).2) from Prod.ext h rfl]

lemma toInt_ofNat {i : Nat} (h : i < 2 ^ 31) : (Int32.ofNat i).toInt = i :=
  Int32.toInt_ofNat_of_lt h

lemma toNatClampNeg_ofNat {i : Nat} (h : i < 2 ^ 31) : (Int32.ofNat i).toNatClampNeg = i := by
  rw [← Int32.toNat_toInt, toInt_ofNat h, Int.toNat_natCast]

lemma not_neg {i : Nat} (h : i < 2 ^ 31) : ¬ Int32.ofNat i < 0 := by
  rw [Int32.lt_iff_toInt_lt, toInt_ofNat h]
  exact Int.not_lt.mpr (Int.natCast_nonneg i)

lemma ge_size_iff {i : Nat} (h : i ≤ data.bytes.length) :
    Int32.ofNat i ≥ data.size ↔ i = data.bytes.length := by
  have hshort := data.short
  rw [ge_iff_le, Int32.le_iff_toInt_le, JvmBytes.size, toInt_ofNat hshort,
    toInt_ofNat (show i < 2 ^ 31 by omega)]
  omega

/-- A byte shifted in behind a word. -/
lemma shift_in (n : Nat) (b : UInt8) :
    Int64.ofNat n <<< 8 ||| Int64.ofNat b.toNat = Int64.ofNat (256 * n + b.toNat) := by
  have hb : b.toNat < 2 ^ 8 := b.toNat_lt
  have height : (8 : Int64).toBitVec.smod 64 = 8#64 := by decide
  apply Int64.toBitVec_inj.mp
  apply BitVec.eq_of_toNat_eq
  rw [Int64.toBitVec_or, Int64.toBitVec_shiftLeft, height, BitVec.shiftLeft_eq']
  simp only [Int64.toBitVec_ofNat', BitVec.toNat_or, BitVec.toNat_shiftLeft, BitVec.toNat_ofNat]
  -- The shift drops the eight highest bits, so that no carry meets the byte.
  have hshift : (n % 2 ^ 64) <<< (8 % 2 ^ 64) % 2 ^ 64 = (n % 2 ^ 56) <<< 8 := by
    rw [show 8 % 2 ^ 64 = 8 from rfl, Nat.shiftLeft_eq, Nat.shiftLeft_eq]
    omega
  rw [hshift, Nat.mod_eq_of_lt (show b.toNat < 2 ^ 64 by omega),
    ← Nat.shiftLeft_add_eq_or_of_lt hb, Nat.shiftLeft_eq]
  omega

lemma toInt32_ofNat (n : Nat) : (Int64.ofNat n).toInt32 = Int32.ofNat n := by
  rw [← Int64.ofInt_eq_ofNat, Int64.toInt32_ofInt, Int32.ofInt_eq_ofNat]

/-- From every position in the data, what is returned stands at least so many bytes further on. -/
def Advances (data : JvmBytes) (n : Nat) (x : Reading α) : Prop :=
  ∀ i ≤ data.bytes.length, ∀ a pos, (x (Int32.ofNat i)).1 = .ok (a, pos) →
    ∃ j, i + n ≤ j ∧ j ≤ data.bytes.length ∧ pos = Int32.ofNat j

lemma advances_pure (a : α) : Advances data 0 (pure a) := by
  intro i hi a' pos heq
  obtain ⟨-, rfl⟩ := Prod.mk.inj (Except.ok.inj heq)
  exact ⟨i, Nat.le_refl i, hi, rfl⟩

lemma advances_fail {n : Nat} (e : Failure) : Advances data n (fail e : Reading α) := by
  intro i hi a pos h
  cases h

lemma advances_bind {n : Nat} {x : Reading α} {f : α → Reading β} (hx : Advances data n x)
    (hf : ∀ a, Advances data 0 (f a)) : Advances data n (x >>= f) := by
  intro i hi b pos h
  cases hres : (x (Int32.ofNat i)).1 with
  | error e =>
    rw [bind_error hres] at h
    cases h
  | ok p =>
    obtain ⟨j, hij, hj, hpos⟩ := hx i hi p.1 p.2 hres
    rw [bind_ok hres, hpos] at h
    obtain ⟨k, hjk, hk, rfl⟩ := hf p.1 j hj b pos h
    exact ⟨k, by omega, hk, rfl⟩

lemma advances_use {u : Use} {f : Unit → Reading β} (hf : Advances data 0 (f ())) :
    Advances data 0 (use u >>= f) :=
  hf

lemma Advances.weaken {n : Nat} {x : Reading α} (h : Advances data n x) : Advances data 0 x := by
  intro i hi a pos hx
  obtain ⟨j, hij, hj, rfl⟩ := h i hi a pos hx
  exact ⟨j, by omega, hj, rfl⟩

lemma u8_end : u8 data (Int32.ofNat data.bytes.length) = (.error (.decode "truncated CBOR"), []) :=
  if_pos ((ge_size_iff (Nat.le_refl _)).mpr rfl)

lemma u8_inside {i : Nat} (h : i < data.bytes.length) :
    u8 data (Int32.ofNat i) = (.ok (data.bytes.getD i 0, Int32.ofNat (i + 1)), []) := by
  have hshort := data.short
  have hmore : ¬ Int32.ofNat i ≥ data.size := by
    rw [ge_size_iff (by omega)]
    omega
  rw [u8, if_neg hmore, if_neg (not_neg (by omega)), toNatClampNeg_ofNat (by omega),
    Int32.ofNat_add]
  rfl

lemma u8_advances : Advances data 1 (u8 data) := by
  intro i hi a pos h
  rcases Nat.lt_or_eq_of_le hi with hlt | rfl
  · rw [u8_inside hlt] at h
    obtain ⟨-, rfl⟩ := Prod.mk.inj (Except.ok.inj h)
    exact ⟨i + 1, Nat.le_refl _, hlt, rfl⟩
  · rw [u8_end] at h
    cases h

/-- The `Long` is the number up to its width. -/
def Argument.Wraps (a : Argument) : Prop := a.long = Int64.ofNat a.exact

lemma readBE_advances (n : Nat) (a : Argument) : Advances data 0 (readBE data n a) := by
  induction n generalizing a with
  | zero => exact advances_pure a
  | succ n ih => exact (advances_bind u8_advances fun b => ih _).weaken

lemma argument_advances (ai : Nat) : Advances data 0 (argument data ai) := by
  rw [argument]
  split
  · exact advances_pure _
  · split
    · exact (advances_bind u8_advances fun b => advances_pure _).weaken
    · split
      · exact readBE_advances 2 _
      · split
        · exact readBE_advances 4 _
        · split
          · exact readBE_advances 8 _
          · exact advances_fail _

/-- A slice that is returned ends inside the data. -/
lemma copyOfRange_ok {i : Nat} (hi : i ≤ data.bytes.length) {stop : Int32} {b : Bytes}
    (h : copyOfRange data (Int32.ofNat i) stop = .ok b) :
    ∃ j, i ≤ j ∧ j ≤ data.bytes.length ∧ stop = Int32.ofNat j := by
  have hshort := data.short
  rw [copyOfRange] at h
  split at h
  · cases h
  · rename_i hend
    split at h
    · cases h
    · rename_i horder
      rw [gt_iff_lt, Int32.lt_iff_toInt_lt, JvmBytes.size, toInt_ofNat hshort] at hend
      rw [gt_iff_lt, Int32.lt_iff_toInt_lt, toInt_ofNat (show i < 2 ^ 31 by omega)] at horder
      refine ⟨stop.toInt.toNat, by omega, by omega, ?_⟩
      rw [← Int32.toInt_inj, toInt_ofNat (show stop.toInt.toNat < 2 ^ 31 by omega)]
      omega

lemma bytes_advances (a : Argument) : Advances data 0 (bytes data a) := by
  intro i hi b pos h
  simp only [bytes] at h
  split at h
  · cases h
  · cases hcopy : copyOfRange data (Int32.ofNat i) (Int32.ofNat i + a.long.toInt32) with
    | error e =>
      rw [hcopy] at h
      cases h
    | ok c =>
      rw [hcopy] at h
      obtain ⟨-, rfl⟩ := Prod.mk.inj (Except.ok.inj h)
      exact copyOfRange_ok hi hcopy

variable {t : Texts}

lemma capacity_wraps {a : Argument} (wraps : a.Wraps) :
    (Use.capacity a.exact a.long.toInt32).Wraps ∧ (Use.count a.exact a.long.toInt32).Wraps ∧
      (Use.capacity (2 * a.exact) (a.long.toInt32 * 2)).Wraps := by
  have hword : a.long.toInt32 = Int32.ofInt a.exact := by
    rw [show a.long = Int64.ofNat a.exact from wraps, toInt32_ofNat, Int32.ofInt_eq_ofNat]
  refine ⟨⟨by omega, hword⟩, ⟨by omega, hword⟩, by omega, ?_⟩
  rw [hword, Int.mul_comm, Int32.ofInt_mul]
  rfl

lemma number_wraps {a : Argument} (wraps : a.Wraps) :
    (Use.number a.exact a.long).Wraps ∧ (Use.number (-1 - a.exact) (-1 - a.long)).Wraps := by
  have hword : a.long = Int64.ofInt a.exact := by
    rw [show a.long = Int64.ofNat a.exact from wraps, Int64.ofInt_eq_ofNat]
  refine ⟨hword, ?_⟩
  rw [Use.Wraps, hword, Int64.ofInt_sub]
  rfl

theorem read_advances (fuel : Nat) :
    Advances data 1 (read data t fuel) ∧ ∀ n, Advances data 0 (readAll data t fuel n) := by
  induction fuel with
  | zero =>
    refine ⟨advances_fail _, fun n => ?_⟩
    cases n with
    | zero => exact advances_pure []
    | succ n => exact advances_fail _
  | succ fuel ih =>
    obtain ⟨ihItem, ihAll⟩ := ih
    constructor
    · rw [read]
      refine advances_bind u8_advances fun initial => ?_
      simp only []
      split
      case h_1 | h_2 => exact advances_bind (argument_advances _) fun a => advances_pure _
      case h_3 | h_4 =>
        refine advances_bind (argument_advances _) fun a => ?_
        exact advances_bind (bytes_advances a) fun b => advances_pure _
      case h_5 | h_6 =>
        refine advances_bind (argument_advances _) fun a => advances_use ?_
        split
        · exact advances_fail _
        · exact advances_use (advances_bind (ihAll _) fun xs => advances_pure _)
      case h_7 =>
        split
        · exact advances_pure _
        · exact advances_fail _
      case h_8 => exact advances_fail _
    · intro n
      cases n with
      | zero => exact advances_pure []
      | succ n =>
        rw [readAll]
        refine advances_bind ihItem.weaken fun x => ?_
        exact advances_bind (ihAll n) fun xs => advances_pure _

/-- Two readers that do the same from a position on. -/
def SameAt (pos : Int32) (x y : Reading α) : Prop := x pos = y pos

lemma sameAt_bind {x : Reading α} {f g : α → Reading β} {pos : Int32}
    (h : ∀ a pos', (x pos).1 = .ok (a, pos') → SameAt pos' (f a) (g a)) :
    SameAt pos (x >>= f) (x >>= g) := by
  rw [SameAt]
  cases hres : (x pos).1 with
  | error e => rw [bind_error hres, bind_error hres]
  | ok p => rw [bind_ok hres, bind_ok hres, h p.1 p.2 hres]

lemma sameAt_first {x y : Reading α} {pos : Int32} (h : SameAt pos x y) (f : α → Reading β) :
    SameAt pos (x >>= f) (y >>= f) := by
  rw [SameAt, bind_run, bind_run, show x pos = y pos from h]

lemma sameAt_use {u : Use} {f g : Unit → Reading β} {pos : Int32}
    (h : SameAt pos (f ()) (g ())) : SameAt pos (use u >>= f) (use u >>= g) := by
  refine sameAt_bind fun _ pos' hu => ?_
  obtain ⟨-, rfl⟩ := Prod.mk.inj (Except.ok.inj hu)
  exact h

/-- Fuel for twice the bytes that are left lasts: one unit for each header and one for each place
in a list of items, neither of which is more than there are bytes. -/
theorem read_succ_fuel (fuel : Nat) :
    (∀ i ≤ data.bytes.length, 2 * (data.bytes.length - i) < fuel →
      SameAt (Int32.ofNat i) (read data t (fuel + 1)) (read data t fuel)) ∧
    (∀ n, ∀ i ≤ data.bytes.length, 2 * (data.bytes.length - i) + 1 < fuel →
      SameAt (Int32.ofNat i) (readAll data t (fuel + 1) n) (readAll data t fuel n)) := by
  induction fuel with
  | zero => exact ⟨fun i _ h => absurd h (by omega), fun n i _ h => absurd h (by omega)⟩
  | succ fuel ih =>
    obtain ⟨ihItem, ihAll⟩ := ih
    constructor
    · intro i hi enough
      rw [read, read]
      refine sameAt_bind fun initial pos hinitial => ?_
      obtain ⟨j, hij, hj, rfl⟩ := u8_advances i hi _ _ hinitial
      have hall : ∀ k n, j ≤ k → k ≤ data.bytes.length →
          SameAt (Int32.ofNat k) (readAll data t (fuel + 1) n) (readAll data t fuel n) :=
        fun k n hjk hk => ihAll n k hk (by omega)
      simp only []
      split
      case h_5 | h_6 =>
        refine sameAt_bind fun a pos ha => ?_
        obtain ⟨k, hjk, hk, rfl⟩ := argument_advances _ j hj _ _ ha
        refine sameAt_use ?_
        split
        · rfl
        · exact sameAt_use (sameAt_first (hall k _ hjk hk) _)
      all_goals rfl
    · intro n i hi enough
      cases n with
      | zero => rw [readAll, readAll]; rfl
      | succ n =>
        rw [readAll, readAll, SameAt, bind_run, bind_run, ihItem i hi (by omega)]
        refine sameAt_bind fun x pos hx => ?_
        obtain ⟨j, hij, hj, rfl⟩ := (read_advances fuel).1 i hi _ _ hx
        exact sameAt_first (ihAll n j hj (by omega)) _

theorem read_fuel {fuel : Nat} (enough : 2 * data.bytes.length < fuel) :
    read data t fuel 0 = decodeWithLength data t := by
  induction fuel, enough using Nat.le_induction with
  | base => rfl
  | succ fuel enough ih =>
    rw [← ih]
    exact (read_succ_fuel fuel).1 0 (Nat.zero_le _) (by omega)

end Runs

end KotlinReader
