import PouchProv.ClientCbor

/-!
# The CBOR readers of the Kotlin and the Swift client

The readers of `Cbor.kt` and `Cbor.swift` go through a byte string by the same
cases. They differ in what they make of the numbers, the lengths, the texts and
the map entries that they meet: these are the `Rules` of the one reader below.
`Reads` says what a reader returns, without its fuel (`decode_ok_iff`).
-/

namespace ClientReader

open Bytes Cbor Clients

/-- How a reader takes the argument of a number, the lengths of strings, arrays and maps, the
bytes of a text and the entries of a map. `fail` makes an error of a message. -/
structure Rules (ε : Type) where
  fail : String → ε
  uint : Nat → Except ε Int64
  nint : Nat → Except ε Int64
  size : Nat → Except ε Nat
  count : Nat → Except ε Nat
  pairs : Nat → Except ε Nat
  text : Bytes → Except ε String
  entries : List (CborValue × CborValue) → Except ε (List (CborValue × CborValue))

section Reader

variable {ε : Type} (r : Rules ε)

def argument (ai : Nat) (b : Bytes) : Except ε (Nat × Bytes) :=
  if ai < 24 then .ok (ai, b)
  else if ai ≤ 27 then
    if width ai ≤ b.length then .ok (ofBe (b.take (width ai)), b.drop (width ai))
    else .error (r.fail "truncated CBOR")
  else .error (r.fail ("bad additional info " ++ toString ai))

def bytes (n : Nat) (b : Bytes) : Except ε (Bytes × Bytes) :=
  if n ≤ b.length then .ok (b.take n, b.drop n) else .error (r.fail "truncated CBOR string")

def simpleValue : Nat → Option CborValue
  | 20 => some (.bool false)
  | 21 => some (.bool true)
  | 22 => some .null
  | _ => none

/-- The items of a map as its entries. -/
def pairUp {α : Type} : List α → List (α × α)
  | k :: v :: xs => (k, v) :: pairUp xs
  | _ => []

mutual

/-- `Reader.read`, with the bytes that it leaves. The fuel bounds the depth and the number of
items. -/
def read : Nat → Bytes → Except ε (CborValue × Bytes)
  | 0, _ => .error (r.fail "out of fuel")
  | _ + 1, [] => .error (r.fail "truncated CBOR")
  | fuel + 1, initial :: b =>
    let major := initial.toNat / 32
    let ai := initial.toNat % 32
    match major with
    | 0 => do
      let (n, b) ← argument r ai b
      let v ← r.uint n
      return (.int v, b)
    | 1 => do
      let (n, b) ← argument r ai b
      let v ← r.nint n
      return (.int v, b)
    | 2 => do
      let (n, b) ← argument r ai b
      let n ← r.size n
      let (s, b) ← bytes r n b
      return (.bytes s, b)
    | 3 => do
      let (n, b) ← argument r ai b
      let n ← r.size n
      let (s, b) ← bytes r n b
      let s ← r.text s
      return (.text s, b)
    | 4 => do
      let (n, b) ← argument r ai b
      let n ← r.count n
      let (xs, b) ← readAll fuel n b
      return (.array xs, b)
    | 5 => do
      let (n, b) ← argument r ai b
      let n ← r.pairs n
      let (xs, b) ← readAll fuel (2 * n) b
      let kvs ← r.entries (pairUp xs)
      return (.map kvs, b)
    | 7 =>
      match simpleValue ai with
      | some v => .ok (v, b)
      | none => .error (r.fail ("unsupported simple value " ++ toString ai))
    | _ => .error (r.fail ("unsupported major type " ++ toString major))

/-- So many calls of `read`. -/
def readAll : Nat → Nat → Bytes → Except ε (List CborValue × Bytes)
  | _, 0, b => .ok ([], b)
  | 0, _ + 1, _ => .error (r.fail "out of fuel")
  | fuel + 1, n + 1, b => do
    let (x, b) ← read fuel b
    let (xs, b) ← readAll fuel n b
    return (x :: xs, b)

end

/-- `Cbor.decode`: bytes behind the item are ignored. -/
def decode (data : Bytes) : Except ε CborValue :=
  (read r (2 * data.length + 1) data).map Prod.fst

/-- `Cbor.decodeWithLength`: the item and how many bytes it took. -/
def decodeWithLength (data : Bytes) : Except ε (CborValue × Nat) :=
  (read r (2 * data.length + 1) data).map fun p => (p.1, data.length - p.2.length)

end Reader

/-- What the platforms of the clients make of texts: UTF-8, where the Kotlin client gets a
replacement for what is malformed, and `Character.digit`, which knows the digits of all
scripts. -/
structure Texts where
  kotlin : Bytes → String
  swift : Bytes → Option String
  digit : Char → Option Nat

/-- The same text as a key. -/
def sameKey : CborValue → CborValue → Bool
  | .text s, .text t => s == t
  | _, _ => false

namespace Kotlin

/-- `argument(ai).toInt()` -/
def toInt (n : Nat) : Int32 := (Int64.ofNat n).toInt32

/-- `map[k] = v` on a `LinkedHashMap`, for which only texts are looked up or listed. -/
def put : List (CborValue × CborValue) → CborValue × CborValue → List (CborValue × CborValue)
  | [], kv => [kv]
  | old :: kvs, kv =>
    if sameKey old.1 kv.1 then (old.1, kv.2) :: kvs else old :: put kvs kv

def linked (kvs : List (CborValue × CborValue)) : List (CborValue × CborValue) :=
  kvs.foldl put []

def rules (t : Texts) : Rules String where
  fail := id
  uint n := .ok (Int64.ofNat n)
  nint n := .ok (-1 - Int64.ofNat n)
  size n :=
    if toInt n < 0 then .error "truncated CBOR string" else .ok (toInt n).toNatClampNeg
  count n :=
    if toInt n < 0 then .error ("Illegal Capacity: " ++ toString (toInt n))
    else .ok (toInt n).toNatClampNeg
  -- `repeat` does nothing for a negative number, which the doubled capacity need not be.
  pairs n :=
    if toInt n * 2 < 0 then .error ("Illegal initial capacity: " ++ toString (toInt n * 2))
    else .ok (toInt n).toNatClampNeg
  text b := .ok (t.kotlin b)
  entries kvs := .ok (linked kvs)

end Kotlin

namespace Swift

/-- `Int64(exactly:)` -/
def int64 (n : Nat) : Except String Int64 :=
  if n < 2 ^ 63 then .ok (Int64.ofNat n) else .error "integer overflow"

def length (n : Nat) : Except String Nat :=
  if n < 2 ^ 63 then .ok n else .error "length overflow"

def rules (t : Texts) : Rules String where
  fail := id
  uint := int64
  nint n := (int64 n).map (-1 - ·)
  size := length
  count := length
  pairs := length
  text b :=
    match t.swift b with
    | some s => .ok s
    | none => .error "invalid UTF-8 in text string"
  entries := .ok

end Swift

section Reads

variable {ε : Type} (r : Rules ε)

mutual

/-- `Reads r b v rest`: a reader that follows the rules takes the start of `b` for `v`, and
`rest` follows. -/
inductive Reads : Bytes → CborValue → Bytes → Prop where
  | uint {b : Bytes} {h : Head} {v : Int64} (head : readHead b = some h) (kind : h.major = 0)
      (number : r.uint h.arg = .ok v) : Reads b (.int v) h.rest
  | nint {b : Bytes} {h : Head} {v : Int64} (head : readHead b = some h) (kind : h.major = 1)
      (number : r.nint h.arg = .ok v) : Reads b (.int v) h.rest
  | bytes {b : Bytes} {h : Head} {n : Nat} (head : readHead b = some h) (kind : h.major = 2)
      (size : r.size h.arg = .ok n) (fits : n ≤ h.rest.length) :
      Reads b (.bytes (h.rest.take n)) (h.rest.drop n)
  | text {b : Bytes} {h : Head} {n : Nat} {s : String} (head : readHead b = some h)
      (kind : h.major = 3) (size : r.size h.arg = .ok n) (fits : n ≤ h.rest.length)
      (decoded : r.text (h.rest.take n) = .ok s) : Reads b (.text s) (h.rest.drop n)
  | array {b rest : Bytes} {h : Head} {n : Nat} {xs : List CborValue}
      (head : readHead b = some h) (kind : h.major = 4) (count : r.count h.arg = .ok n)
      (items : ReadsN n h.rest xs rest) : Reads b (.array xs) rest
  | map {b rest : Bytes} {h : Head} {n : Nat} {xs : List CborValue}
      {kvs : List (CborValue × CborValue)} (head : readHead b = some h) (kind : h.major = 5)
      (pairs : r.pairs h.arg = .ok n) (items : ReadsN (2 * n) h.rest xs rest)
      (entries : r.entries (pairUp xs) = .ok kvs) : Reads b (.map kvs) rest
  | simple {b : Bytes} {h : Head} {v : CborValue} (head : readHead b = some h)
      (kind : h.major = 7) (value : simpleValue h.info = some v) : Reads b v h.rest

inductive ReadsN : Nat → Bytes → List CborValue → Bytes → Prop where
  | nil (b : Bytes) : ReadsN 0 b [] b
  | cons {n : Nat} {b mid rest : Bytes} {x : CborValue} {xs : List CborValue}
      (item : Reads b x mid) (items : ReadsN n mid xs rest) : ReadsN (n + 1) b (x :: xs) rest

end

variable {r}

lemma ok_bind {ε α β : Type} (a : α) (f : α → Except ε β) : (Except.ok a >>= f) = f a := rfl

lemma bind_ok {ε α β : Type} {x : Except ε α} {f : α → Except ε β} {b : β}
    (h : (x >>= f) = .ok b) : ∃ a, x = .ok a ∧ f a = .ok b := by
  cases x with
  | error e => cases h
  | ok a => exact ⟨a, rfl, h⟩

lemma readHead_of_argument {initial : UInt8} {b rest : Bytes} {n : Nat}
    (h : argument r (initial.toNat % 32) b = .ok (n, rest)) :
    readHead (initial :: b) = some ⟨initial.toNat / 32, initial.toNat % 32, n, rest⟩ := by
  rw [argument] at h
  rw [readHead]
  split at h
  · rename_i hsmall
    obtain ⟨rfl, rfl⟩ := Prod.mk.inj (Except.ok.inj h)
    simp only [if_pos hsmall]
  · rename_i hlarge
    split at h
    · rename_i hinfo
      split at h
      · rename_i hfits
        obtain ⟨rfl, rfl⟩ := Prod.mk.inj (Except.ok.inj h)
        simp only [if_neg hlarge, if_pos (And.intro hinfo hfits)]
      · exact absurd h (by simp)
    · exact absurd h (by simp)

lemma bytes_ok {n : Nat} {b s rest : Bytes} (h : bytes r n b = .ok (s, rest)) :
    n ≤ b.length ∧ s = b.take n ∧ rest = b.drop n := by
  rw [bytes] at h
  split at h
  · obtain ⟨rfl, rfl⟩ := Prod.mk.inj (Except.ok.inj h)
    exact ⟨by assumption, rfl, rfl⟩
  · exact absurd h (by simp)

lemma simpleValue_cases {ai : Nat} {v : CborValue} (h : simpleValue ai = some v) :
    (∃ b, v = .bool b) ∨ v = .null := by
  unfold simpleValue at h
  split at h
  · exact .inl ⟨false, (Option.some.inj h).symm⟩
  · exact .inl ⟨true, (Option.some.inj h).symm⟩
  · exact .inr (Option.some.inj h).symm
  · exact absurd h (by simp)

lemma simpleValue_small {ai : Nat} {v : CborValue} (h : simpleValue ai = some v) : ai < 24 := by
  by_contra hlarge
  rw [simpleValue] at h
  · exact absurd h (by simp)
  all_goals omega

/-- The reader returns what its rules say. -/
theorem reads_of_read (fuel : Nat) :
    (∀ b v rest, read r fuel b = .ok (v, rest) → Reads r b v rest) ∧
    (∀ n b xs rest, readAll r fuel n b = .ok (xs, rest) → ReadsN r n b xs rest) := by
  induction fuel with
  | zero =>
    refine ⟨fun b v rest h => by simp [read] at h, fun n b xs rest h => ?_⟩
    cases n with
    | zero =>
      obtain ⟨rfl, rfl⟩ := Prod.mk.inj (Except.ok.inj h)
      exact .nil _
    | succ n => simp [readAll] at h
  | succ fuel ih =>
    obtain ⟨ihItem, ihAll⟩ := ih
    constructor
    · intro b v rest h
      cases b with
      | nil => simp [read] at h
      | cons initial b =>
        rw [read] at h
        simp only [] at h
        split at h
        case h_1 kind =>
          obtain ⟨⟨n, b'⟩, harg, h⟩ := bind_ok h
          obtain ⟨i, hint, h⟩ := bind_ok h
          obtain ⟨rfl, rfl⟩ := Prod.mk.inj (Except.ok.inj h)
          exact .uint (readHead_of_argument harg) kind hint
        case h_2 kind =>
          obtain ⟨⟨n, b'⟩, harg, h⟩ := bind_ok h
          obtain ⟨i, hint, h⟩ := bind_ok h
          obtain ⟨rfl, rfl⟩ := Prod.mk.inj (Except.ok.inj h)
          exact .nint (readHead_of_argument harg) kind hint
        case h_3 kind =>
          obtain ⟨⟨n, b'⟩, harg, h⟩ := bind_ok h
          obtain ⟨size, hsize, h⟩ := bind_ok h
          obtain ⟨⟨s, b''⟩, hbytes, h⟩ := bind_ok h
          obtain ⟨rfl, rfl⟩ := Prod.mk.inj (Except.ok.inj h)
          obtain ⟨hfits, rfl, rfl⟩ := bytes_ok hbytes
          exact .bytes (readHead_of_argument harg) kind hsize hfits
        case h_4 kind =>
          obtain ⟨⟨n, b'⟩, harg, h⟩ := bind_ok h
          obtain ⟨size, hsize, h⟩ := bind_ok h
          obtain ⟨⟨s, b''⟩, hbytes, h⟩ := bind_ok h
          obtain ⟨text, htext, h⟩ := bind_ok h
          obtain ⟨rfl, rfl⟩ := Prod.mk.inj (Except.ok.inj h)
          obtain ⟨hfits, rfl, rfl⟩ := bytes_ok hbytes
          exact .text (readHead_of_argument harg) kind hsize hfits htext
        case h_5 kind =>
          obtain ⟨⟨n, b'⟩, harg, h⟩ := bind_ok h
          obtain ⟨count, hcount, h⟩ := bind_ok h
          obtain ⟨⟨xs, b''⟩, hall, h⟩ := bind_ok h
          obtain ⟨rfl, rfl⟩ := Prod.mk.inj (Except.ok.inj h)
          exact .array (readHead_of_argument harg) kind hcount (ihAll _ _ _ _ hall)
        case h_6 kind =>
          obtain ⟨⟨n, b'⟩, harg, h⟩ := bind_ok h
          obtain ⟨pairs, hpairs, h⟩ := bind_ok h
          obtain ⟨⟨xs, b''⟩, hall, h⟩ := bind_ok h
          obtain ⟨kvs, hentries, h⟩ := bind_ok h
          obtain ⟨rfl, rfl⟩ := Prod.mk.inj (Except.ok.inj h)
          exact .map (readHead_of_argument harg) kind hpairs (ihAll _ _ _ _ hall) hentries
        case h_7 kind =>
          split at h
          · rename_i w hvalue
            obtain ⟨rfl, rfl⟩ := Prod.mk.inj (Except.ok.inj h)
            have hsmall := simpleValue_small hvalue
            have hhead : readHead (initial :: b) =
                some ⟨initial.toNat / 32, initial.toNat % 32, initial.toNat % 32, b⟩ := by
              simp [readHead, hsmall]
            exact .simple hhead kind hvalue
          · exact absurd h (by simp)
        case h_8 => exact absurd h (by simp)
    · intro n b xs rest h
      cases n with
      | zero =>
        obtain ⟨rfl, rfl⟩ := Prod.mk.inj (Except.ok.inj h)
        exact .nil _
      | succ n =>
        rw [readAll] at h
        obtain ⟨⟨x, mid⟩, hitem, h⟩ := bind_ok h
        obtain ⟨⟨ys, rest'⟩, hall, h⟩ := bind_ok h
        obtain ⟨rfl, rfl⟩ := Prod.mk.inj (Except.ok.inj h)
        exact .cons (ihItem _ _ _ hitem) (ihAll _ _ _ _ hall)

theorem reads_of_decode {data : Bytes} {v : CborValue} (h : decode r data = .ok v) :
    ∃ rest, Reads r data v rest := by
  rw [decode] at h
  cases hread : read r (2 * data.length + 1) data with
  | error e => exact absurd h (by simp [hread, Except.map])
  | ok p =>
    rw [hread] at h
    obtain rfl : p.1 = v := Except.ok.inj h
    exact ⟨p.2, (reads_of_read _).1 _ _ _ hread⟩

mutual

theorem Reads.shorter {b rest : Bytes} {v : CborValue} : Reads r b v rest →
    rest.length < b.length
  | .uint head _ _ => readHead_shorter head
  | .nint head _ _ => readHead_shorter head
  | .bytes head _ _ _ => by
    have := readHead_shorter head
    rw [List.length_drop]
    omega
  | .text head _ _ _ _ => by
    have := readHead_shorter head
    rw [List.length_drop]
    omega
  | .array head _ _ items => Nat.lt_of_le_of_lt items.not_longer (readHead_shorter head)
  | .map head _ _ items _ => Nat.lt_of_le_of_lt items.not_longer (readHead_shorter head)
  | .simple head _ _ => readHead_shorter head

theorem ReadsN.not_longer {n : Nat} {b rest : Bytes} {xs : List CborValue} :
    ReadsN r n b xs rest → rest.length ≤ b.length
  | .nil _ => Nat.le_refl _
  | .cons item items => Nat.le_trans items.not_longer (Nat.le_of_lt item.shorter)

end

/-- Every item takes a byte. -/
theorem ReadsN.count_le {n : Nat} {b rest : Bytes} {xs : List CborValue}
    (h : ReadsN r n b xs rest) : n + rest.length ≤ b.length := by
  induction n generalizing b xs with
  | zero =>
    cases h with
    | nil => exact Nat.le_of_eq (Nat.zero_add _)
  | succ n ih =>
    cases h with
    | cons item items =>
      have hitem := item.shorter
      have hitems := ih items
      omega

lemma argument_of_readHead {initial : UInt8} {b : Bytes} {h : Head}
    (head : readHead (initial :: b) = some h) :
    initial.toNat / 32 = h.major ∧ initial.toNat % 32 = h.info ∧
      argument r h.info b = .ok (h.arg, h.rest) := by
  rw [readHead] at head
  split at head
  · rename_i hsmall
    obtain rfl := Option.some.inj head
    exact ⟨rfl, rfl, if_pos hsmall⟩
  · rename_i hlarge
    split at head
    · rename_i hfits
      obtain rfl := Option.some.inj head
      exact ⟨rfl, rfl, by rw [argument, if_neg hlarge, if_pos hfits.1, if_pos hfits.2]⟩
    · exact absurd head (by simp)

/-- A header stands in front, and there is fuel for it. -/
lemma front_of_readHead {b : Bytes} {h : Head} {fuel : Nat} (head : readHead b = some h)
    (enough : 2 * b.length ≤ fuel) :
    ∃ k initial tail, fuel = k + 1 ∧ b = initial :: tail ∧ initial.toNat / 32 = h.major ∧
      initial.toNat % 32 = h.info ∧ argument r h.info tail = .ok (h.arg, h.rest) := by
  cases b with
  | nil => simp [readHead] at head
  | cons initial tail =>
    cases fuel with
    | zero => simp at enough
    | succ k => exact ⟨k, initial, tail, rfl, rfl, argument_of_readHead head⟩

mutual

/-- With a unit of fuel for each byte and one for each place in a list of items, the reader
returns what the rules say. -/
theorem read_of_reads {b rest : Bytes} {v : CborValue} :
    Reads r b v rest → ∀ fuel, 2 * b.length ≤ fuel → read r fuel b = .ok (v, rest)
  | .uint head kind number, fuel, enough => by
    obtain ⟨k, initial, tail, rfl, rfl, hmajor, hinfo, harg⟩ :=
      front_of_readHead (r := r) head enough
    simp only [read, hmajor, kind, hinfo, harg, ok_bind, number]
    rfl
  | .nint head kind number, fuel, enough => by
    obtain ⟨k, initial, tail, rfl, rfl, hmajor, hinfo, harg⟩ :=
      front_of_readHead (r := r) head enough
    simp only [read, hmajor, kind, hinfo, harg, ok_bind, number]
    rfl
  | .bytes head kind size fits, fuel, enough => by
    obtain ⟨k, initial, tail, rfl, rfl, hmajor, hinfo, harg⟩ :=
      front_of_readHead (r := r) head enough
    simp only [read, hmajor, kind, hinfo, harg, ok_bind, size, bytes, if_pos fits]
    rfl
  | .text head kind size fits decoded, fuel, enough => by
    obtain ⟨k, initial, tail, rfl, rfl, hmajor, hinfo, harg⟩ :=
      front_of_readHead (r := r) head enough
    simp only [read, hmajor, kind, hinfo, harg, ok_bind, size, bytes, if_pos fits, decoded]
    rfl
  | .array head kind count items, fuel, enough => by
    have hshorter := readHead_shorter head
    obtain ⟨k, initial, tail, rfl, rfl, hmajor, hinfo, harg⟩ :=
      front_of_readHead (r := r) head enough
    have hitems := readAll_of_readsN items k (by omega)
    simp only [read, hmajor, kind, hinfo, harg, ok_bind, count, hitems]
    rfl
  | .map head kind pairs items entries, fuel, enough => by
    have hshorter := readHead_shorter head
    obtain ⟨k, initial, tail, rfl, rfl, hmajor, hinfo, harg⟩ :=
      front_of_readHead (r := r) head enough
    have hitems := readAll_of_readsN items k (by omega)
    simp only [read, hmajor, kind, hinfo, harg, ok_bind, pairs, hitems, entries]
    rfl
  | .simple head kind value, fuel, enough => by
    obtain ⟨k, initial, tail, rfl, rfl, hmajor, hinfo, harg⟩ :=
      front_of_readHead (r := r) head enough
    rw [argument, if_pos (simpleValue_small value)] at harg
    obtain ⟨_, hrest⟩ := Prod.mk.inj (Except.ok.inj harg)
    simp only [read, hmajor, kind, hinfo, value, hrest]

theorem readAll_of_readsN {n : Nat} {b rest : Bytes} {xs : List CborValue} :
    ReadsN r n b xs rest → ∀ fuel, 2 * b.length < fuel → readAll r fuel n b = .ok (xs, rest)
  | .nil b, fuel, _ => by rw [readAll]
  | .cons item items, fuel, enough => by
    cases fuel with
    | zero => exact absurd enough (Nat.not_lt_zero _)
    | succ fuel =>
      have hshorter := item.shorter
      have hitem := read_of_reads item fuel (by omega)
      have hitems := readAll_of_readsN items fuel (by omega)
      simp only [readAll, hitem, ok_bind, hitems]
      rfl

end

theorem decode_ok_iff {data : Bytes} {v : CborValue} :
    decode r data = .ok v ↔ ∃ rest, Reads r data v rest := by
  constructor
  · exact reads_of_decode
  · rintro ⟨rest, hreads⟩
    rw [decode, read_of_reads hreads _ (Nat.le_succ _)]
    rfl

end Reads

def asciiDigit (c : Char) : Option Nat :=
  if '0' ≤ c ∧ c ≤ '9' then some (c.toNat - '0'.toNat) else none

/-- No text stands twice as a key. -/
def DistinctKeys (kvs : List (CborValue × CborValue)) : Prop :=
  kvs.Pairwise fun a b => sameKey a.1 b.1 = false

instance (kvs : List (CborValue × CborValue)) : Decidable (DistinctKeys kvs) :=
  inferInstanceAs (Decidable (List.Pairwise _ _))

namespace Kotlin

lemma toInt_small {n : Nat} (h : n < 2 ^ 31) : (toInt n).toInt = n := by
  rw [toInt, Int64.toInt_toInt32, Int64.toInt_ofNat_of_lt (by omega)]
  exact Int.bmod_eq_of_le (by omega) (by omega)

lemma toInt_not_neg {n : Nat} (h : n < 2 ^ 31) : ¬ toInt n < 0 := by
  rw [Int32.lt_iff_toInt_lt, toInt_small h]
  exact Int.not_lt.mpr (Int.natCast_nonneg n)

lemma toNatClampNeg_toInt {n : Nat} (h : n < 2 ^ 31) : (toInt n).toNatClampNeg = n := by
  rw [← Int32.toNat_toInt, toInt_small h, Int.toNat_natCast]

lemma doubled_not_neg {n : Nat} (h : n < 2 ^ 30) : ¬ toInt n * 2 < 0 := by
  have htwo : (2 : Int32).toInt = 2 := by decide
  have hzero : (0 : Int32).toInt = 0 := by decide
  have hbmod : ((n : Int) * 2).bmod (2 ^ 32) = n * 2 := Int.bmod_eq_of_le (by omega) (by omega)
  rw [Int32.lt_iff_toInt_lt, Int32.toInt_mul, toInt_small (by omega), htwo, hzero, hbmod]
  omega

lemma put_new {kvs : List (CborValue × CborValue)} {kv : CborValue × CborValue}
    (new : ∀ old ∈ kvs, sameKey old.1 kv.1 = false) : put kvs kv = kvs ++ [kv] := by
  induction kvs with
  | nil => rfl
  | cons old kvs ih =>
    have hold := new old List.mem_cons_self
    have hrest := ih fun old h => new old (List.mem_cons_of_mem _ h)
    rw [put, hold, hrest]
    rfl

lemma foldl_put {acc kvs : List (CborValue × CborValue)} (distinct : DistinctKeys (acc ++ kvs)) :
    kvs.foldl put acc = acc ++ kvs := by
  induction kvs generalizing acc with
  | nil => simp
  | cons kv kvs ih =>
    have hnew : ∀ old ∈ acc, sameKey old.1 kv.1 = false := fun old h =>
      (List.pairwise_append.mp distinct).2.2 old h kv List.mem_cons_self
    rw [List.foldl_cons, put_new hnew, ih (by simpa using distinct)]
    simp

lemma linked_eq {kvs : List (CborValue × CborValue)} (distinct : DistinctKeys kvs) :
    linked kvs = kvs :=
  foldl_put (show DistinctKeys ([] ++ kvs) from distinct)

end Kotlin

/-- `toInt()` of the Kotlin client, as an integer. -/
def narrow (v : Int64) : Int := v.toInt32.toInt

lemma narrow_eq {v : Int64} (low : -2 ^ 31 ≤ v.toInt) (high : v.toInt < 2 ^ 31) :
    narrow v = v.toInt := by
  rw [narrow, Int64.toInt_toInt32]
  exact Int.bmod_eq_of_le (by omega) (by omega)

lemma narrow_ofNat {n : Nat} (h : n < 2 ^ 31) :
    narrow (Int64.ofNat n) = (Int64.ofNat n).toInt := by
  have hint := Int64.toInt_ofNat_of_lt (show n < 2 ^ 63 by omega)
  exact narrow_eq (by omega) (by omega)

lemma toInt_negative {w : Int64} {n : Nat} (hw : w.toInt = n) (h : n < 2 ^ 63) :
    (-1 - w).toInt = -1 - (n : Int) := by
  have hone : (-1 : Int64).toInt = -1 := by decide
  rw [Int64.toInt_sub, hone, hw]
  exact Int.bmod_eq_of_le (by omega) (by omega)

lemma forall₂_pairUp {α β : Type} {R : α → β → Prop} : {xs : List α} → {ys : List β} →
    List.Forall₂ R xs ys →
    List.Forall₂ (fun p q => R p.1 q.1 ∧ R p.2 q.2) (pairUp xs) (pairUp ys)
  | _, _, .nil => .nil
  | _, _, .cons _ .nil => .nil
  | _, _, .cons hk (.cons hv h) => .cons ⟨hk, hv⟩ (forall₂_pairUp h)

section Wire

variable {ε : Type} (r : Rules ε)

mutual

/-- What a reader makes of a data item. -/
def value : Item → Option CborValue
  | .uint n => (r.uint n).toOption.map .int
  | .nint n => (r.nint n).toOption.map .int
  | .bstr b => some (.bytes b)
  | .tstr b => (r.text b).toOption.map .text
  | .array xs => (values xs).map .array
  | .map kvs => (values kvs).bind fun vs => (r.entries (pairUp vs)).toOption.map .map
  | .tag _ _ => none
  | .prim info _ => simpleValue info

def values : List Item → Option (List CborValue)
  | [] => some []
  | x :: xs => (value x).bind fun v => (values xs).map (v :: ·)

end

variable {r} in
lemma forall₂_of_values {xs : List Item} {vs : List CborValue} (h : values r xs = some vs) :
    List.Forall₂ (fun x v => value r x = some v) xs vs := by
  induction xs generalizing vs with
  | nil =>
    obtain rfl := Option.some.inj h
    exact .nil
  | cons x xs ih =>
    rw [values] at h
    obtain ⟨v, hv, h⟩ := Option.bind_eq_some_iff.mp h
    obtain ⟨vs, hvs, rfl⟩ := Option.map_eq_some_iff.mp h
    exact .cons hv (ih hvs)

variable {r} in
/-- Only arrays are read as arrays, element by element. -/
lemma array_of_value {x : Item} {vs : List CborValue} (h : value r x = some (.array vs)) :
    ∃ xs, x = .array xs ∧ List.Forall₂ (fun x v => value r x = some v) xs vs := by
  cases x with
  | array xs =>
    rw [value] at h
    obtain ⟨vs', hvs, heq⟩ := Option.map_eq_some_iff.mp h
    obtain rfl := CborValue.array.inj heq
    exact ⟨xs, rfl, forall₂_of_values hvs⟩
  | map kvs =>
    rw [value] at h
    obtain ⟨vs', -, h⟩ := Option.bind_eq_some_iff.mp h
    simp at h
  | prim info arg =>
    rw [value] at h
    have hcases := simpleValue_cases h
    simp at hcases
  | _ => simp [value] at h

/-- Lengths below the bound are taken as they are written, or refused. -/
structure Exact (bound : Nat) : Prop where
  size : ∀ {n m}, n < bound → r.size n = .ok m → m = n
  count : ∀ {n m}, n < bound → r.count n = .ok m → m = n
  pairs : ∀ {n m}, 2 * n < bound → r.pairs n = .ok m → m = n

variable {r}

mutual

/-- A reader that takes all lengths as they are written reads well-formed data only. -/
theorem Reads.parses (exact : ∀ bound, Exact r bound) {b rest : Bytes} {v : CborValue} :
    Reads r b v rest → ∃ x, Parses b x rest ∧ value r x = some v
  | .uint head kind number => ⟨_, .uint head kind, by rw [value, number]; rfl⟩
  | .nint head kind number => ⟨_, .nint head kind, by rw [value, number]; rfl⟩
  | .bytes head kind size fits => by
    obtain rfl := (exact _).size (Nat.lt_succ_self _) size
    exact ⟨_, .bstr head kind fits, by rw [value]⟩
  | .text head kind size fits decoded => by
    obtain rfl := (exact _).size (Nat.lt_succ_self _) size
    exact ⟨_, .tstr head kind fits, by rw [value, decoded]; rfl⟩
  | .array head kind count items => by
    obtain ⟨xs, hparses, hvalues⟩ := items.parses exact
    obtain rfl := (exact _).count (Nat.lt_succ_self _) count
    exact ⟨_, .array head kind hparses, by rw [value, hvalues]; rfl⟩
  | .map head kind pairs items entries => by
    obtain ⟨xs, hparses, hvalues⟩ := items.parses exact
    obtain rfl := (exact _).pairs (Nat.lt_succ_self _) pairs
    exact ⟨_, .map head kind hparses, by rw [value, hvalues, Option.bind_some, entries]; rfl⟩
  | .simple head kind found => by
    have hsmall := simpleValue_small found
    exact ⟨_, .prim head kind (by omega), by rw [value, found]⟩

theorem ReadsN.parses (exact : ∀ bound, Exact r bound) {n : Nat} {b rest : Bytes}
    {vs : List CborValue} :
    ReadsN r n b vs rest → ∃ xs, ParsesN n b xs rest ∧ values r xs = some vs
  | .nil _ => ⟨_, .nil _, by rw [values]⟩
  | .cons item items => by
    obtain ⟨x, hparses, hvalue⟩ := item.parses exact
    obtain ⟨xs, hparsesN, hvalues⟩ := items.parses exact
    exact ⟨_, .cons hparses hparsesN, by rw [values, hvalue, hvalues]; rfl⟩

end

/-- What a reader can make of an item behind its header. -/
def Takes (h : Head) (v : CborValue) (rest : Bytes) : Prop :=
  match h.major with
  | 0 => ∃ i, r.uint h.arg = .ok i ∧ v = .int i ∧ rest = h.rest
  | 1 => ∃ i, r.nint h.arg = .ok i ∧ v = .int i ∧ rest = h.rest
  | 2 => ∃ n, r.size h.arg = .ok n ∧ v = .bytes (h.rest.take n) ∧ rest = h.rest.drop n
  | 3 => ∃ n s, r.size h.arg = .ok n ∧ r.text (h.rest.take n) = .ok s ∧ v = .text s ∧
      rest = h.rest.drop n
  | 4 => ∃ n vs, r.count h.arg = .ok n ∧ ReadsN r n h.rest vs rest ∧ v = .array vs
  | 5 => ∃ n vs kvs, r.pairs h.arg = .ok n ∧ ReadsN r (2 * n) h.rest vs rest ∧
      r.entries (pairUp vs) = .ok kvs ∧ v = .map kvs
  | 7 => simpleValue h.info = some v ∧ rest = h.rest
  | _ => False

lemma Reads.takes {b rest : Bytes} {v : CborValue} {h : Head} (hreads : Reads r b v rest)
    (hhead : readHead b = some h) : Takes (r := r) h v rest := by
  cases hreads with
  | uint head kind number | nint head kind number =>
    obtain rfl := Option.some.inj (head.symm.trans hhead)
    rw [Takes, kind]
    exact ⟨_, number, rfl, rfl⟩
  | bytes head kind size fits =>
    obtain rfl := Option.some.inj (head.symm.trans hhead)
    rw [Takes, kind]
    exact ⟨_, size, rfl, rfl⟩
  | text head kind size fits decoded =>
    obtain rfl := Option.some.inj (head.symm.trans hhead)
    rw [Takes, kind]
    exact ⟨_, _, size, decoded, rfl, rfl⟩
  | array head kind count items =>
    obtain rfl := Option.some.inj (head.symm.trans hhead)
    rw [Takes, kind]
    exact ⟨_, _, count, items, rfl⟩
  | map head kind pairs items entries =>
    obtain rfl := Option.some.inj (head.symm.trans hhead)
    rw [Takes, kind]
    exact ⟨_, _, _, pairs, items, entries, rfl⟩
  | simple head kind found =>
    obtain rfl := Option.some.inj (head.symm.trans hhead)
    rw [Takes, kind]
    exact ⟨found, rfl⟩

lemma Reads.exists_head {b rest : Bytes} {v : CborValue} (h : Reads r b v rest) :
    ∃ hd, readHead b = some hd := by
  cases h <;> exact ⟨_, by assumption⟩

/-- No client reads an item of indefinite length. -/
lemma not_reads_indefinite {initial : UInt8} {b rest : Bytes} {v : CborValue}
    (indefinite : initial.toNat % 32 = 31) : ¬ Reads r (initial :: b) v rest := by
  intro h
  obtain ⟨hd, hhead⟩ := h.exists_head
  simp [readHead, indefinite] at hhead

mutual

/-- If a reader returns something for well-formed data, then what its rules make of the item. -/
theorem value_of_reads {bound : Nat} (exact : Exact r bound) {b rest rest' : Bytes} {x : Item}
    {v : CborValue} : Parses b x rest → b.length ≤ bound → Reads r b v rest' →
    rest' = rest ∧ value r x = some v
  | .uint head kind, _, hreads => by
    have htakes := hreads.takes head
    rw [Takes, kind] at htakes
    obtain ⟨i, hint, rfl, rfl⟩ := htakes
    exact ⟨rfl, by rw [value, hint]; rfl⟩
  | .nint head kind, _, hreads => by
    have htakes := hreads.takes head
    rw [Takes, kind] at htakes
    obtain ⟨i, hint, rfl, rfl⟩ := htakes
    exact ⟨rfl, by rw [value, hint]; rfl⟩
  | .bstr head kind fits, short, hreads => by
    have htakes := hreads.takes head
    rw [Takes, kind] at htakes
    obtain ⟨n, hsize, rfl, rfl⟩ := htakes
    have hshorter := readHead_shorter head
    obtain rfl := exact.size (by omega) hsize
    exact ⟨rfl, by rw [value]⟩
  | .tstr head kind fits, short, hreads => by
    have htakes := hreads.takes head
    rw [Takes, kind] at htakes
    obtain ⟨n, s, hsize, htext, rfl, rfl⟩ := htakes
    have hshorter := readHead_shorter head
    obtain rfl := exact.size (by omega) hsize
    exact ⟨rfl, by rw [value, htext]; rfl⟩
  | .bstrChunks _, _, hreads => absurd hreads (not_reads_indefinite (by decide))
  | .tstrChunks _, _, hreads => absurd hreads (not_reads_indefinite (by decide))
  | .array head kind items, short, hreads => by
    have htakes := hreads.takes head
    rw [Takes, kind] at htakes
    obtain ⟨n, vs, hcount, hreadsN, rfl⟩ := htakes
    have hshorter := readHead_shorter head
    have hlength := items.length_le
    obtain rfl := exact.count (by omega) hcount
    obtain ⟨hrest, hvalues⟩ := values_of_readsN exact items (by omega) hreadsN
    exact ⟨hrest, by rw [value, hvalues]; rfl⟩
  | .arrayBreak _, _, hreads => absurd hreads (not_reads_indefinite (by decide))
  | .map head kind items, short, hreads => by
    have htakes := hreads.takes head
    rw [Takes, kind] at htakes
    obtain ⟨n, vs, kvs, hpairs, hreadsN, hentries, rfl⟩ := htakes
    have hshorter := readHead_shorter head
    have hlength := items.length_le
    obtain rfl := exact.pairs (by omega) hpairs
    obtain ⟨hrest, hvalues⟩ := values_of_readsN exact items (by omega) hreadsN
    exact ⟨hrest, by rw [value, hvalues, Option.bind_some, hentries]; rfl⟩
  | .mapBreak _ _, _, hreads => absurd hreads (not_reads_indefinite (by decide))
  | .tag head kind _, _, hreads => by
    have htakes := hreads.takes head
    rw [Takes, kind] at htakes
    exact htakes.elim
  | .prim head kind _, _, hreads => by
    have htakes := hreads.takes head
    rw [Takes, kind] at htakes
    exact ⟨htakes.2, by rw [value, htakes.1]⟩

theorem values_of_readsN {bound : Nat} (exact : Exact r bound) {n : Nat} {b rest rest' : Bytes}
    {xs : List Item} {vs : List CborValue} : ParsesN n b xs rest → b.length ≤ bound →
    ReadsN r n b vs rest' → rest' = rest ∧ values r xs = some vs
  | .nil _, _, .nil _ => ⟨rfl, by rw [values]⟩
  | .cons item items, short, .cons read reads => by
    obtain ⟨rfl, hvalue⟩ := value_of_reads exact item short read
    have hshorter := read.shorter
    obtain ⟨hrest, hvalues⟩ := values_of_readsN exact items (by omega) reads
    exact ⟨hrest, by rw [values, hvalue, hvalues]; rfl⟩

end

/-- A well-formed byte string that the reader takes is taken for what its rules make of it. -/
theorem value_of_decode {bound : Nat} (exact : Exact r bound) {data rest : Bytes} {x : Item}
    {v : CborValue} (parses : Parses data x rest) (short : data.length ≤ bound)
    (h : decode r data = .ok v) : value r x = some v := by
  obtain ⟨rest', hreads⟩ := reads_of_decode h
  exact (value_of_reads exact parses short hreads).2

end Wire

/-- The Kotlin client takes the lengths in an array of bytes as they are. -/
lemma Kotlin.exact (t : Texts) : Exact (Kotlin.rules t) (2 ^ 31) where
  size := by
    intro n m hn h
    simp only [rules, if_neg (toInt_not_neg hn), toNatClampNeg_toInt hn] at h
    exact (Except.ok.inj h).symm
  count := by
    intro n m hn h
    simp only [rules, if_neg (toInt_not_neg hn), toNatClampNeg_toInt hn] at h
    exact (Except.ok.inj h).symm
  pairs := by
    intro n m hn h
    have hsmall : n < 2 ^ 31 := by omega
    have hdouble : n < 2 ^ 30 := by omega
    simp only [rules, if_neg (doubled_not_neg hdouble), toNatClampNeg_toInt hsmall] at h
    exact (Except.ok.inj h).symm

lemma Swift.length_eq {n m : Nat} (h : Swift.length n = .ok m) : m = n := by
  rw [length] at h
  split at h
  · exact (Except.ok.inj h).symm
  · exact absurd h (by simp)

lemma Swift.exact (t : Texts) (bound : Nat) : Exact (Swift.rules t) bound :=
  ⟨fun _ h => length_eq h, fun _ h => length_eq h, fun _ h => length_eq h⟩

end ClientReader
