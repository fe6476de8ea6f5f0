import PouchProv.KotlinRange
import PouchProv.ClientResponses

/-!
# CBOR round trips of the Kotlin and the Swift client

What either client writes for a value, the same client reads back, whatever
follows it, and says how long it was. The values are those of `Cbor.kt` and
`Cbor.swift`, nested to any depth, with texts as the keys of maps and no key
twice. The reader of `ClientReader` does so under all rules that take the arguments
of a short encoding (`Takes`), and what it reads under the exact rules the Kotlin
reader returns too (`KotlinReader.decodeWithLength_of_reads`).
-/

namespace CborRoundTrip

open Bytes Cbor Clients ClientCbor ClientReader KotlinReader

mutual

/-- Every map has distinct texts as keys. -/
def Keyed : CborValue → Prop
  | .array xs => AllKeyed xs
  | .map kvs => DistinctKeys kvs ∧ PairsKeyed kvs
  | _ => True

def AllKeyed : List CborValue → Prop
  | [] => True
  | x :: xs => Keyed x ∧ AllKeyed xs

def PairsKeyed : List (CborValue × CborValue) → Prop
  | [] => True
  | (k, v) :: kvs => (∃ s, k = .text s) ∧ Keyed v ∧ PairsKeyed kvs

end

/-- The platforms decode every text that was encoded. -/
def Decodes (t : Texts) : Prop := ∀ s, t.kotlin (utf8 s) = s ∧ t.swift (utf8 s) = some s

section Sizes

variable {writeHead : Nat → Nat → Bytes}

lemma write_pos (nonempty : ∀ major n, 0 < (writeHead major n).length) (v : CborValue) :
    0 < (write writeHead v).length := by
  cases v <;> simp only [write, List.length_append, List.length_singleton]
  case int v =>
    split
    · exact nonempty _ _
    · exact nonempty _ _
  case bool => exact Nat.one_pos
  case null => exact Nat.one_pos
  all_goals exact Nat.add_pos_left (nonempty _ _) _

lemma length_le_writeAll (nonempty : ∀ major n, 0 < (writeHead major n).length)
    (xs : List CborValue) : xs.length ≤ (writeAll writeHead xs).length := by
  induction xs with
  | nil => exact Nat.le_refl 0
  | cons x xs ih =>
    have hx := write_pos nonempty x
    simp only [List.length_cons, writeAll, List.length_append]
    omega

lemma length_le_writePairs (nonempty : ∀ major n, 0 < (writeHead major n).length)
    (kvs : List (CborValue × CborValue)) : kvs.length ≤ (writePairs writeHead kvs).length := by
  induction kvs with
  | nil => exact Nat.le_refl 0
  | cons kv kvs ih =>
    have hk := write_pos nonempty kv.1
    simp only [List.length_cons, writePairs, List.length_append]
    omega

mutual

/-- What has a short encoding is short. -/
theorem sized_of_short (nonempty : ∀ major n, 0 < (writeHead major n).length) :
    (v : CborValue) → (write writeHead v).length < 2 ^ 63 → Sized v
  | .null, _ => trivial
  | .bool _, _ => trivial
  | .int _, _ => trivial
  | .bytes b, short => by
    simp only [write, List.length_append] at short
    exact show b.length < 2 ^ 63 by omega
  | .text s, short => by
    simp only [write, List.length_append] at short
    exact show (utf8 s).length < 2 ^ 63 by omega
  | .array xs, short => by
    have hcount := length_le_writeAll nonempty xs
    simp only [write, List.length_append] at short
    exact ⟨by omega, allSized_of_short nonempty xs (by omega)⟩
  | .map kvs, short => by
    have hcount := length_le_writePairs nonempty kvs
    simp only [write, List.length_append] at short
    exact ⟨by omega, pairsSized_of_short nonempty kvs (by omega)⟩

theorem allSized_of_short (nonempty : ∀ major n, 0 < (writeHead major n).length) :
    (xs : List CborValue) → (writeAll writeHead xs).length < 2 ^ 63 → AllSized xs
  | [], _ => trivial
  | x :: xs, short => by
    simp only [writeAll, List.length_append] at short
    exact ⟨sized_of_short nonempty x (by omega), allSized_of_short nonempty xs (by omega)⟩

theorem pairsSized_of_short (nonempty : ∀ major n, 0 < (writeHead major n).length) :
    (kvs : List (CborValue × CborValue)) → (writePairs writeHead kvs).length < 2 ^ 63 →
    PairsSized kvs
  | [], _ => trivial
  | (k, v) :: kvs, short => by
    simp only [writePairs, List.length_append] at short
    exact ⟨sized_of_short nonempty k (by omega), sized_of_short nonempty v (by omega),
      pairsSized_of_short nonempty kvs (by omega)⟩

end

end Sizes

lemma kotlin_writeHead_pos (major n : Nat) :
    0 < (ClientCbor.Kotlin.writeHead major (Int64.ofNat n)).length := by
  simp only [ClientCbor.Kotlin.writeHead]
  repeat' split
  all_goals simp

/-- The rules take every argument of a short encoding as it is, and give back texts and
entries. -/
structure Takes {ε : Type} (r : Rules ε) : Prop where
  uint : ∀ n < 2 ^ 63, r.uint n = .ok (Int64.ofNat n)
  nint : ∀ n < 2 ^ 63, r.nint n = .ok (-1 - Int64.ofNat n)
  size : ∀ n < 2 ^ 31, r.size n = .ok n
  count : ∀ n < 2 ^ 31, r.count n = .ok n
  pairs : ∀ n < 2 ^ 30, r.pairs n = .ok n
  text : ∀ s, r.text (utf8 s) = .ok s
  entries : ∀ kvs, DistinctKeys kvs → r.entries kvs = .ok kvs

lemma int64_small {n : Nat} (h : n < 2 ^ 63) : Swift.int64 n = .ok (Int64.ofNat n) := if_pos h

theorem swift_takes {t : Texts} (decodes : Decodes t) : Takes (ClientReader.Swift.rules t) where
  uint _ h := int64_small h
  nint _ h := by
    simp only [ClientReader.Swift.rules, int64_small h]
    rfl
  size n h := if_pos (show n < 2 ^ 63 by omega)
  count n h := if_pos (show n < 2 ^ 63 by omega)
  pairs n h := if_pos (show n < 2 ^ 63 by omega)
  text s := by simp only [ClientReader.Swift.rules, (decodes s).2]
  entries _ _ := rfl

theorem kotlin_takes {t : Texts} (decodes : Decodes t) : Takes (ClientReader.Kotlin.rules t) where
  uint _ _ := rfl
  nint _ _ := rfl
  size _ h := by
    simp only [ClientReader.Kotlin.rules, if_neg (ClientReader.Kotlin.toInt_not_neg h),
      ClientReader.Kotlin.toNatClampNeg_toInt h]
  count _ h := by
    simp only [ClientReader.Kotlin.rules, if_neg (ClientReader.Kotlin.toInt_not_neg h),
      ClientReader.Kotlin.toNatClampNeg_toInt h]
  pairs n h := by
    have hsmall : n < 2 ^ 31 := by omega
    simp only [ClientReader.Kotlin.rules, if_neg (ClientReader.Kotlin.doubled_not_neg h),
      ClientReader.Kotlin.toNatClampNeg_toInt hsmall]
  text s := congrArg Except.ok (decodes s).1
  entries _ h := congrArg Except.ok (ClientReader.Kotlin.linked_eq h)

theorem exact_takes {t : Texts} (decodes : Decodes t) : Takes (exact t) where
  uint _ h := int64_small h
  nint _ h := by
    simp only [exact, int64_small h]
    rfl
  size _ _ := rfl
  count _ _ := rfl
  pairs _ _ := rfl
  text s := congrArg Except.ok (decodes s).1
  entries _ h := congrArg Except.ok (ClientReader.Kotlin.linked_eq h)

/-- The items of a map in turn. -/
def inTurn {α : Type} : List (α × α) → List α
  | [] => []
  | (k, v) :: kvs => k :: v :: inTurn kvs

lemma pairUp_inTurn {α : Type} (kvs : List (α × α)) : pairUp (inTurn kvs) = kvs := by
  induction kvs with
  | nil => rfl
  | cons kv kvs ih => rw [inTurn, pairUp, ih]

/-- Down to the least number, whose complement is the greatest. -/
lemma complement_toInt {v : Int64} (neg : v.toInt < 0) :
    (-1 - v.toInt).toNat < 2 ^ 63 ∧ -1 - Int64.ofNat (-1 - v.toInt).toNat = v := by
  have hlow := v.le_toInt
  have hsmall : (-1 - v.toInt).toNat < 2 ^ 63 := by omega
  refine ⟨hsmall, Int64.toInt_inj.mp ?_⟩
  rw [toInt_negative (Int64.toInt_ofNat_of_lt hsmall) hsmall]
  omega

section RoundTrip

variable {ε : Type} {r : Rules ε}

lemma reads_int (takes : Takes r) (v : Int64) (rest : Bytes) :
    Reads r (encode (item (.int v)) ++ rest) (.int v) rest := by
  rw [item]
  split
  · rename_i hpos
    have hhigh := v.toInt_lt
    have hsmall : v.toInt.toNat < 2 ^ 63 := by omega
    have hback : Int64.ofNat v.toInt.toNat = v := by
      apply Int64.toInt_inj.mp
      rw [Int64.toInt_ofNat_of_lt hsmall]
      omega
    exact .uint (readHead_head (by decide) (by omega) rest) rfl
      (by rw [takes.uint _ hsmall, hback])
  · rename_i hneg
    obtain ⟨hsmall, hback⟩ := complement_toInt (Int.not_le.mp hneg)
    exact .nint (readHead_head (by decide) (by omega) rest) rfl
      (by rw [takes.nint _ hsmall, hback])

lemma reads_simple {info : Nat} {v : CborValue} (value : simpleValue info = some v)
    (rest : Bytes) : Reads r (header 7 info info ++ rest) v rest :=
  .simple (readHead_header (by decide) (.inl ⟨simpleValue_small value, rfl⟩) rest) rfl value

mutual

/-- What is written for a value is read as that value, and what follows is left. -/
theorem reads_encode (takes : Takes r) (rest : Bytes) : (v : CborValue) → Keyed v →
    (encode (item v)).length < 2 ^ 31 → Reads r (encode (item v) ++ rest) v rest
  | .null, _, _ => reads_simple rfl rest
  | .bool b, _, _ => by
    cases b with
    | false => exact reads_simple rfl rest
    | true => exact reads_simple rfl rest
  | .int v, _, _ => reads_int takes v rest
  | .bytes b, _, short => by
    rw [item, encode, List.length_append] at short
    have hread : Reads r (head 2 b.length ++ (b ++ rest)) (.bytes ((b ++ rest).take b.length))
        ((b ++ rest).drop b.length) :=
      .bytes (readHead_head (by decide) (by omega) (b ++ rest)) rfl
        (takes.size b.length (by omega)) (by simp)
    rw [List.take_left, List.drop_left] at hread
    rwa [item, encode, List.append_assoc]
  | .text s, _, short => by
    rw [item, encode, List.length_append] at short
    have htake : (utf8 s ++ rest).take (utf8 s).length = utf8 s := List.take_left
    have hread : Reads r (head 3 (utf8 s).length ++ (utf8 s ++ rest)) (.text s)
        ((utf8 s ++ rest).drop (utf8 s).length) :=
      .text (readHead_head (by decide) (by omega) (utf8 s ++ rest)) rfl
        (takes.size (utf8 s).length (by omega)) (by simp) (by rw [htake, takes.text])
    rw [List.drop_left] at hread
    rwa [item, encode, List.append_assoc]
  | .array xs, keyed, short => by
    have hcount := length_le_encodeAll (items xs)
    rw [item, encode, List.length_append] at short
    rw [items_length] at hcount short
    rw [item, encode, List.append_assoc, items_length]
    exact .array (readHead_head (by decide) (by omega) _) rfl
      (takes.count xs.length (by omega)) (readsN_items takes rest xs keyed (by omega))
  | .map kvs, keyed, short => by
    have hcount := length_le_encodeAll (pairItems kvs)
    have hhalf : (pairItems kvs).length / 2 = kvs.length := by
      rw [pairItems_length, Nat.mul_div_cancel_left _ (by decide)]
    rw [pairItems_length] at hcount
    rw [item, encode, List.length_append] at short
    rw [item, encode, List.append_assoc, hhalf]
    exact .map (readHead_head (by decide) (by omega) _) rfl
      (takes.pairs kvs.length (by omega)) (readsN_pairItems takes rest kvs keyed.2 (by omega))
      (by rw [pairUp_inTurn, takes.entries kvs keyed.1])

theorem readsN_items (takes : Takes r) (rest : Bytes) : (xs : List CborValue) → AllKeyed xs →
    (encodeAll (items xs)).length < 2 ^ 31 →
    ReadsN r xs.length (encodeAll (items xs) ++ rest) xs rest
  | [], _, _ => .nil rest
  | x :: xs, keyed, short => by
    rw [items, encodeAll, List.length_append] at short
    rw [items, encodeAll, List.append_assoc]
    exact .cons (reads_encode takes _ x keyed.1 (by omega))
      (readsN_items takes rest xs keyed.2 (by omega))

theorem readsN_pairItems (takes : Takes r) (rest : Bytes) :
    (kvs : List (CborValue × CborValue)) → PairsKeyed kvs →
    (encodeAll (pairItems kvs)).length < 2 ^ 31 →
    ReadsN r (2 * kvs.length) (encodeAll (pairItems kvs) ++ rest) (inTurn kvs) rest
  | [], _, _ => .nil rest
  | (k, v) :: kvs, keyed, short => by
    have hkey : Keyed k := by
      obtain ⟨s, rfl⟩ := keyed.1
      trivial
    rw [pairItems, encodeAll, encodeAll, List.length_append, List.length_append] at short
    rw [pairItems, encodeAll, encodeAll, List.append_assoc, List.append_assoc]
    exact .cons (reads_encode takes _ k hkey (by omega))
      (.cons (reads_encode takes _ v keyed.2.1 (by omega))
        (readsN_pairItems takes rest kvs keyed.2.2 (by omega)))

end

/-- The reader takes exactly the encoding. -/
theorem decodeWithLength_encode (takes : Takes r) {v : CborValue} (keyed : Keyed v)
    (short : (encode (item v)).length < 2 ^ 31) (rest : Bytes) :
    ClientReader.decodeWithLength r (encode (item v) ++ rest) =
      .ok (v, (encode (item v)).length) := by
  have hreads := reads_encode takes rest v keyed short
  rw [ClientReader.decodeWithLength, read_of_reads hreads _ (Nat.le_succ _)]
  simp [Except.map]

theorem decode_encode (takes : Takes r) {v : CborValue} (keyed : Keyed v)
    (short : (encode (item v)).length < 2 ^ 31) :
    ClientReader.decode r (encode (item v)) = .ok v := by
  have hreads := reads_encode takes [] v keyed short
  rw [List.append_nil] at hreads
  rw [ClientReader.decode, read_of_reads hreads _ (Nat.le_succ _)]
  rfl

end RoundTrip

/-- Both clients write a value in the same way, and each reads back its own encoding, whatever
follows, with its length. -/
theorem cbor_round_trip (t : Texts) (decodes : Decodes t) (v : CborValue) (keyed : Keyed v)
    (short : (ClientCbor.Kotlin.encode v).length < 2 ^ 31) (rest : Bytes) :
    ClientCbor.Swift.encode v = ClientCbor.Kotlin.encode v ∧
    (∀ data : JvmBytes, data.bytes = ClientCbor.Kotlin.encode v ++ rest →
      (KotlinReader.decodeWithLength data t).1 =
        .ok (v, Int32.ofNat (ClientCbor.Kotlin.encode v).length)) ∧
    ClientReader.decodeWithLength (ClientReader.Swift.rules t)
      (ClientCbor.Swift.encode v ++ rest) = .ok (v, (ClientCbor.Swift.encode v).length) := by
  have hsized : Sized v := sized_of_short kotlin_writeHead_pos v (Nat.lt_trans short (by decide))
  rw [ClientCbor.Kotlin.encode_eq hsized] at short ⊢
  rw [ClientCbor.Swift.encode_eq hsized]
  refine ⟨rfl, fun data hdata => ?_, ?_⟩
  · have hreads := reads_encode (exact_takes decodes) rest v keyed short
    rw [← hdata] at hreads
    rw [decodeWithLength_of_reads hreads, hdata, List.length_append, Nat.add_sub_cancel]
  · exact decodeWithLength_encode (swift_takes decodes) keyed short rest

lemma referenceTexts_decodes : Decodes ClientResponses.referenceTexts := fun s =>
  ⟨by simp only [ClientResponses.referenceTexts, utf8Decode_utf8, Option.getD_some],
    utf8Decode_utf8 s⟩

/-- A map with the least number, and with a list that holds a text, bytes and a map. -/
def nested : CborValue :=
  .map [(.text "a", .int Int64.minValue),
    (.text "b", .array [.text "\u00e9", .bytes [1, 2], .map [(.text "a", .null)], .bool true])]

theorem cbor_round_trip_nested :
    Keyed nested ∧ (ClientCbor.Kotlin.encode nested).length = 26 ∧
    (KotlinReader.decodeWithLength ⟨ClientCbor.Kotlin.encode nested ++ [0xff], by decide +kernel⟩
      ClientResponses.referenceTexts).1 = .ok (nested, 26) := by
  have hkeyed : Keyed nested := by
    have hinner : Keyed (.map [(.text "a", .null)]) := ⟨by decide, ⟨_, rfl⟩, trivial, trivial⟩
    exact ⟨by decide, ⟨_, rfl⟩, trivial, ⟨_, rfl⟩, ⟨trivial, trivial, hinner, trivial, trivial⟩,
      trivial⟩
  have hlength : (ClientCbor.Kotlin.encode nested).length = 26 := by decide +kernel
  have htrip := cbor_round_trip ClientResponses.referenceTexts referenceTexts_decodes nested hkeyed
    (by rw [hlength]; decide) [0xff]
  refine ⟨hkeyed, hlength, ?_⟩
  rw [htrip.2.1 _ rfl, hlength]
  rfl

end CborRoundTrip
