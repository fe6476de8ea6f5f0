import PouchProv.Bytes

/-!
# CBOR data items

`encode` writes an item in the canonical form with definite lengths. `Parses`
says which byte strings are well-formed encodings of an item, with every form of
header and with definite and indefinite lengths, so that a reader can be stated
to be sound without being written down. `read` is one such reader.
-/

namespace Cbor

open Bytes

/-- A data item. A map is the list of its keys and values in turn; `prim` is an item of
major type 7, with its additional information and its argument. -/
inductive Item where
  | uint (n : Nat)
  | nint (n : Nat)
  | bstr (b : Bytes)
  | tstr (b : Bytes)
  | array (xs : List Item)
  | map (kvs : List Item)
  | tag (n : Nat) (x : Item)
  | prim (info arg : Nat)

def Item.bool (b : Bool) : Item := if b then .prim 21 21 else .prim 20 20

/-- The bytes of an argument by the additional information that announces it. -/
def width (info : Nat) : Nat := 2 ^ (info - 24)

/-- The additional information of the shortest header for an argument. -/
def info (n : Nat) : Nat :=
  if n < 24 then n
  else if n < 2 ^ 8 then 24
  else if n < 2 ^ 16 then 25
  else if n < 2 ^ 32 then 26
  else 27

def header (major info arg : Nat) : Bytes :=
  UInt8.ofNat (32 * major + info) :: if info < 24 then [] else be (width info) arg

/-- The shortest header. -/
def head (major n : Nat) : Bytes := header major (info n) n

structure Head where
  major : Nat
  info : Nat
  arg : Nat
  rest : Bytes
  deriving DecidableEq, Repr

/-- A definite header; it need not be the shortest one for its argument. -/
def readHead : Bytes → Option Head
  | [] => none
  | b :: r =>
    let info := b.toNat % 32
    if info < 24 then some ⟨b.toNat / 32, info, info, r⟩
    else if info ≤ 27 ∧ width info ≤ r.length then
      some ⟨b.toNat / 32, info, ofBe (r.take (width info)), r.drop (width info)⟩
    else none

/-- The argument can be written behind the additional information. -/
def Announces (info arg : Nat) : Prop :=
  info < 24 ∧ arg = info ∨ 24 ≤ info ∧ info ≤ 27 ∧ arg < 256 ^ width info

theorem readHead_header {major info arg : Nat} (hmajor : major < 8)
    (h : Announces info arg) (rest : Bytes) :
    readHead (header major info arg ++ rest) = some ⟨major, info, arg, rest⟩ := by
  have hbyte : (UInt8.ofNat (32 * major + info)).toNat = 32 * major + info := by
    rw [UInt8.toNat_ofNat']
    rcases h with h | h <;> omega
  rcases h with ⟨hinfo, rfl⟩ | ⟨hlow, hhigh, harg⟩
  · have hmod : (32 * major + arg) % 32 = arg := by omega
    have hdiv : (32 * major + arg) / 32 = major := by omega
    simp only [header, if_pos hinfo, readHead, List.cons_append, List.nil_append, hbyte, hmod,
      hdiv]
  · have hmod : (32 * major + info) % 32 = info := by omega
    have hdiv : (32 * major + info) / 32 = major := by omega
    have hinfo : ¬ info < 24 := by omega
    have htake : (be (width info) arg ++ rest).take (width info) = be (width info) arg :=
      List.take_left' (be_length _ _)
    have hdrop : (be (width info) arg ++ rest).drop (width info) = rest :=
      List.drop_left' (be_length _ _)
    have hfit : width info ≤ (be (width info) arg ++ rest).length := by simp
    simp only [header, if_neg hinfo, readHead, List.cons_append, hbyte, hmod, hdiv]
    rw [if_pos ⟨hhigh, hfit⟩, htake, hdrop, ofBe_be harg]

lemma announces_info {n : Nat} (h : n < 2 ^ 64) : Announces (info n) n := by
  simp only [info]
  split
  · exact Or.inl ⟨by assumption, rfl⟩
  · split
    · exact Or.inr ⟨by omega, by omega, by simpa [width] using by assumption⟩
    · split
      · exact Or.inr ⟨by omega, by omega, by simpa [width] using by assumption⟩
      · split
        · exact Or.inr ⟨by omega, by omega, by simpa [width] using by assumption⟩
        · exact Or.inr ⟨by omega, by omega, by simpa [width] using h⟩

theorem readHead_head {major n : Nat} (hmajor : major < 8) (h : n < 2 ^ 64) (rest : Bytes) :
    readHead (head major n ++ rest) = some ⟨major, info n, n, rest⟩ :=
  readHead_header hmajor (announces_info h) rest

mutual

/-- The canonical encoding. -/
def encode : Item → Bytes
  | .uint n => head 0 n
  | .nint n => head 1 n
  | .bstr b => head 2 b.length ++ b
  | .tstr b => head 3 b.length ++ b
  | .array xs => head 4 xs.length ++ encodeAll xs
  | .map kvs => head 5 (kvs.length / 2) ++ encodeAll kvs
  | .tag n x => head 6 n ++ encode x
  | .prim info arg => header 7 info arg

def encodeAll : List Item → Bytes
  | [] => []
  | x :: xs => encode x ++ encodeAll xs

end

/-- The chunks of a string of indefinite length. -/
inductive Chunks (major : Nat) : Bytes → Bytes → Bytes → Prop where
  | done (rest : Bytes) : Chunks major (0xff :: rest) [] rest
  | more {b s rest : Bytes} {h : Head} (head : readHead b = some h) (kind : h.major = major)
      (fits : h.arg ≤ h.rest.length) (tail : Chunks major (h.rest.drop h.arg) s rest) :
      Chunks major b (h.rest.take h.arg ++ s) rest

mutual

/-- `Parses b x rest`: the byte string starts with a well-formed encoding of `x`, which
`rest` follows. -/
inductive Parses : Bytes → Item → Bytes → Prop where
  | uint {b : Bytes} {h : Head} (head : readHead b = some h) (kind : h.major = 0) :
      Parses b (.uint h.arg) h.rest
  | nint {b : Bytes} {h : Head} (head : readHead b = some h) (kind : h.major = 1) :
      Parses b (.nint h.arg) h.rest
  | bstr {b : Bytes} {h : Head} (head : readHead b = some h) (kind : h.major = 2)
      (fits : h.arg ≤ h.rest.length) : Parses b (.bstr (h.rest.take h.arg)) (h.rest.drop h.arg)
  | tstr {b : Bytes} {h : Head} (head : readHead b = some h) (kind : h.major = 3)
      (fits : h.arg ≤ h.rest.length) : Parses b (.tstr (h.rest.take h.arg)) (h.rest.drop h.arg)
  | bstrChunks {b s rest : Bytes} (chunks : Chunks 2 b s rest) :
      Parses (0x5f :: b) (.bstr s) rest
  | tstrChunks {b s rest : Bytes} (chunks : Chunks 3 b s rest) :
      Parses (0x7f :: b) (.tstr s) rest
  | array {b rest : Bytes} {h : Head} {xs : List Item} (head : readHead b = some h)
      (kind : h.major = 4) (items : ParsesN h.arg h.rest xs rest) : Parses b (.array xs) rest
  | arrayBreak {b rest : Bytes} {xs : List Item} (items : ParsesBreak b xs rest) :
      Parses (0x9f :: b) (.array xs) rest
  | map {b rest : Bytes} {h : Head} {kvs : List Item} (head : readHead b = some h)
      (kind : h.major = 5) (items : ParsesN (2 * h.arg) h.rest kvs rest) : Parses b (.map kvs) rest
  | mapBreak {b rest : Bytes} {kvs : List Item} (items : ParsesBreak b kvs rest)
      (pairs : kvs.length % 2 = 0) : Parses (0xbf :: b) (.map kvs) rest
  | tag {b rest : Bytes} {h : Head} {x : Item} (head : readHead b = some h)
      (kind : h.major = 6) (item : Parses h.rest x rest) : Parses b (.tag h.arg x) rest
  | prim {b : Bytes} {h : Head} (head : readHead b = some h) (kind : h.major = 7)
      (simple : h.info = 24 → 32 ≤ h.arg) : Parses b (.prim h.info h.arg) h.rest

/-- A given number of items. -/
inductive ParsesN : Nat → Bytes → List Item → Bytes → Prop where
  | nil (b : Bytes) : ParsesN 0 b [] b
  | cons {n : Nat} {b mid rest : Bytes} {x : Item} {xs : List Item} (item : Parses b x mid)
      (items : ParsesN n mid xs rest) : ParsesN (n + 1) b (x :: xs) rest

/-- Items up to a break. -/
inductive ParsesBreak : Bytes → List Item → Bytes → Prop where
  | done (rest : Bytes) : ParsesBreak (0xff :: rest) [] rest
  | more {b mid rest : Bytes} {x : Item} {xs : List Item} (item : Parses b x mid)
      (items : ParsesBreak mid xs rest) : ParsesBreak b (x :: xs) rest

end

lemma readHead_shorter {b : Bytes} {h : Head} (head : readHead b = some h) :
    h.rest.length < b.length := by
  cases b with
  | nil => simp [readHead] at head
  | cons initial b =>
    rw [readHead] at head
    split at head
    · obtain rfl := Option.some.inj head
      simp
    · split at head
      · obtain rfl := Option.some.inj head
        simp only [List.length_drop, List.length_cons]
        omega
      · exact absurd head (by simp)

lemma Chunks.shorter {major : Nat} {b s rest : Bytes} (h : Chunks major b s rest) :
    rest.length < b.length := by
  induction h with
  | done rest => simp
  | more head _ _ _ ih =>
    have := readHead_shorter head
    rw [List.length_drop] at ih
    omega

mutual

theorem Parses.shorter {b rest : Bytes} {x : Item} : Parses b x rest → rest.length < b.length
  | .uint head _ => readHead_shorter head
  | .nint head _ => readHead_shorter head
  | .bstr head _ _ => by
    have := readHead_shorter head
    rw [List.length_drop]
    omega
  | .tstr head _ _ => by
    have := readHead_shorter head
    rw [List.length_drop]
    omega
  | .bstrChunks chunks => Nat.lt_succ_of_lt chunks.shorter
  | .tstrChunks chunks => Nat.lt_succ_of_lt chunks.shorter
  | .array head _ items => by
    have := readHead_shorter head
    have := items.length_le
    omega
  | .arrayBreak items => Nat.lt_succ_of_lt items.shorter
  | .map head _ items => by
    have := readHead_shorter head
    have := items.length_le
    omega
  | .mapBreak items _ => Nat.lt_succ_of_lt items.shorter
  | .tag head _ item => Nat.lt_trans item.shorter (readHead_shorter head)
  | .prim head _ _ => readHead_shorter head

/-- There is a byte for each item. -/
theorem ParsesN.length_le {n : Nat} {b rest : Bytes} {xs : List Item} :
    ParsesN n b xs rest → n + rest.length ≤ b.length
  | .nil _ => by omega
  | .cons item items => by
    have := item.shorter
    have := items.length_le
    omega

theorem ParsesBreak.shorter {b rest : Bytes} {xs : List Item} :
    ParsesBreak b xs rest → rest.length < b.length
  | .done _ => Nat.lt_succ_self _
  | .more item items => Nat.lt_trans items.shorter item.shorter

end

mutual

/-- The numbers of an item fit their headers, and its maps have a value for each key. -/
def Item.Ok : Item → Prop
  | .uint n => n < 2 ^ 64
  | .nint n => n < 2 ^ 64
  | .bstr _ => True
  | .tstr _ => True
  | .array xs => AllOk xs
  | .map kvs => kvs.length % 2 = 0 ∧ AllOk kvs
  | .tag n x => n < 2 ^ 64 ∧ x.Ok
  | .prim info arg => Announces info arg ∧ (info = 24 → 32 ≤ arg)

def AllOk : List Item → Prop
  | [] => True
  | x :: xs => x.Ok ∧ AllOk xs

end

lemma allOk_iff (xs : List Item) : AllOk xs ↔ ∀ x ∈ xs, x.Ok := by
  induction xs with
  | nil => simp [AllOk]
  | cons x xs ih => simp [AllOk, ih]

lemma bool_ok (b : Bool) : (Item.bool b).Ok := by
  cases b <;> exact ⟨Or.inl ⟨by omega, rfl⟩, by simp⟩

lemma header_length_pos (major info arg : Nat) : 0 < (header major info arg).length := by
  simp [header]

lemma head_length_small {n : Nat} (major : Nat) (h : n < 24) : (head major n).length = 1 := by
  simp [head, header, info, h]

lemma head_length_le {n : Nat} (major : Nat) (h : n < 2 ^ 32) : (head major n).length ≤ 5 := by
  simp only [head, header, info, List.length_cons]
  split
  · simp [*]
  · split
    · simp [width]
    · split
      · simp [width]
      · simp [width]

/-- The length of the shortest header with the given argument. -/
def headLength (n : Nat) : Nat :=
  if n < 24 then 1 else if n < 2 ^ 8 then 2 else if n < 2 ^ 16 then 3
  else if n < 2 ^ 32 then 5 else 9

lemma head_length (major n : Nat) : (head major n).length = headLength n := by
  simp only [head, header, info, headLength, List.length_cons]
  split
  · simp [*]
  · split
    · simp [width]
    · split
      · simp [width]
      · split <;> simp [width]

lemma encode_length_pos (x : Item) : 0 < (encode x).length := by
  cases x <;> simp only [encode, head, List.length_append]
  all_goals
    first
    | exact header_length_pos _ _ _
    | exact Nat.add_pos_left (header_length_pos _ _ _) _

lemma length_le_encodeAll (xs : List Item) : xs.length ≤ (encodeAll xs).length := by
  induction xs with
  | nil => exact Nat.le_refl 0
  | cons x xs ih =>
    have hx := encode_length_pos x
    simp only [List.length_cons, encodeAll, List.length_append]
    omega

mutual

/-- A canonical encoding below the largest length parses back to its item. -/
theorem parses_encode : (x : Item) → x.Ok → (encode x).length < 2 ^ 64 → (rest : Bytes) →
    Parses (encode x ++ rest) x rest
  | .uint n, ok, _, rest => .uint (readHead_head (by omega) ok rest) rfl
  | .nint n, ok, _, rest => .nint (readHead_head (by omega) ok rest) rfl
  | .bstr b, _, short, rest => by
    have hlen : b.length < 2 ^ 64 := by
      simp only [encode, List.length_append] at short
      omega
    have hstr := Parses.bstr (readHead_head (by omega) hlen (b ++ rest)) rfl (by simp)
    simpa [encode] using hstr
  | .tstr b, _, short, rest => by
    have hlen : b.length < 2 ^ 64 := by
      simp only [encode, List.length_append] at short
      omega
    have hstr := Parses.tstr (readHead_head (by omega) hlen (b ++ rest)) rfl (by simp)
    simpa [encode] using hstr
  | .array xs, ok, short, rest => by
    simp only [encode, List.length_append] at short
    have hcount := length_le_encodeAll xs
    have hitems := parsesN_encodeAll xs ok (by omega) rest
    rw [encode, List.append_assoc]
    exact .array (readHead_head (by omega) (by omega) _) rfl hitems
  | .map kvs, ok, short, rest => by
    simp only [encode, List.length_append] at short
    have hcount := length_le_encodeAll kvs
    have hitems := parsesN_encodeAll kvs ok.2 (by omega) rest
    have hpairs : 2 * (kvs.length / 2) = kvs.length := by have := ok.1; omega
    rw [encode, List.append_assoc]
    exact .map (readHead_head (by omega) (by omega) _) rfl (by rwa [hpairs])
  | .tag n x, ok, short, rest => by
    simp only [encode, List.length_append] at short
    have hitem := parses_encode x ok.2 (by omega) rest
    rw [encode, List.append_assoc]
    exact .tag (readHead_head (by omega) ok.1 _) rfl hitem
  | .prim _ _, ok, _, rest => .prim (readHead_header (by omega) ok.1 rest) rfl ok.2

theorem parsesN_encodeAll : (xs : List Item) → AllOk xs → (encodeAll xs).length < 2 ^ 64 →
    (rest : Bytes) → ParsesN xs.length (encodeAll xs ++ rest) xs rest
  | [], _, _, rest => .nil rest
  | x :: xs, ok, short, rest => by
    simp only [encodeAll, List.length_append] at short
    have hfirst := parses_encode x ok.1 (by omega) (encodeAll xs ++ rest)
    have hothers := parsesN_encodeAll xs ok.2 (by omega) rest
    rw [encodeAll, List.append_assoc]
    exact .cons hfirst hothers

end

/-- The byte string is an array whose first element is the unsigned number `op`. -/
def ArrayOp (b : Bytes) (op : Nat) : Prop := ∃ xs, Parses b (.array (.uint op :: xs)) []

/-- What follows the header of an array. -/
def arrayBody (b : Bytes) : Option Bytes :=
  match readHead b with
  | some h => if h.major = 4 then some h.rest else none
  | none => if b.head? = some 0x9f then some b.tail else none

/-- The first element of an array, if it is an unsigned number. -/
def firstOp (b : Bytes) : Option Nat :=
  match (arrayBody b).bind readHead with
  | some h => if h.major = 0 then some h.arg else none
  | none => none

lemma parsesN_cons {n : Nat} {b rest : Bytes} {x : Item} {xs : List Item}
    (h : ParsesN n b (x :: xs) rest) : ∃ mid, Parses b x mid := by
  cases h with
  | cons item _ => exact ⟨_, item⟩

lemma parses_array_cons {b rest : Bytes} {x : Item} {xs : List Item}
    (h : Parses b (.array (x :: xs)) rest) :
    ∃ body mid, arrayBody b = some body ∧ Parses body x mid := by
  cases h with
  | array head kind items =>
    obtain ⟨mid, item⟩ := parsesN_cons items
    exact ⟨_, mid, by simp [arrayBody, head, kind], item⟩
  | arrayBreak items =>
    cases items with
    | more item _ => exact ⟨_, _, by simp [arrayBody, readHead], item⟩

theorem firstOp_of_parses {b rest : Bytes} {op : Nat} {xs : List Item}
    (h : Parses b (.array (.uint op :: xs)) rest) : firstOp b = some op := by
  obtain ⟨body, mid, hbody, hop⟩ := parses_array_cons h
  cases hop with
  | uint head kind => simp [firstOp, hbody, head, kind]

lemma firstOp_of_arrayOp {b : Bytes} {op : Nat} (h : ArrayOp b op) : firstOp b = some op :=
  h.elim fun _ hp => firstOp_of_parses hp

lemma arrayOp_encode {op : Nat} {xs : List Item} (ok : (Item.array (.uint op :: xs)).Ok)
    (short : (encode (.array (.uint op :: xs))).length < 2 ^ 64) :
    ArrayOp (encode (.array (.uint op :: xs))) op :=
  ⟨xs, by simpa using parses_encode _ ok short []⟩

mutual

/-- Read one item of definite lengths. The fuel bounds the depth and the number of items. -/
def read : Nat → Bytes → Option (Item × Bytes)
  | 0, _ => none
  | fuel + 1, b =>
    match readHead b with
    | none => none
    | some h =>
      match h.major with
      | 0 => some (.uint h.arg, h.rest)
      | 1 => some (.nint h.arg, h.rest)
      | 2 => if h.arg ≤ h.rest.length then some (.bstr (h.rest.take h.arg), h.rest.drop h.arg)
        else none
      | 3 => if h.arg ≤ h.rest.length then some (.tstr (h.rest.take h.arg), h.rest.drop h.arg)
        else none
      | 4 => (readAll fuel h.arg h.rest).map fun r => (.array r.1, r.2)
      | 5 => (readAll fuel (2 * h.arg) h.rest).map fun r => (.map r.1, r.2)
      | 6 => (read fuel h.rest).map fun r => (.tag h.arg r.1, r.2)
      | 7 => if h.info = 24 ∧ h.arg < 32 then none else some (.prim h.info h.arg, h.rest)
      | _ => none

def readAll : Nat → Nat → Bytes → Option (List Item × Bytes)
  | _, 0, b => some ([], b)
  | 0, _ + 1, _ => none
  | fuel + 1, n + 1, b =>
    match read fuel b with
    | none => none
    | some (x, mid) => (readAll fuel n mid).map fun r => (x :: r.1, r.2)

end

/-- What the reader returns stands at the start of its input. -/
theorem read_sound (fuel : Nat) :
    (∀ b x rest, read fuel b = some (x, rest) → Parses b x rest) ∧
    (∀ n b xs rest, readAll fuel n b = some (xs, rest) → ParsesN n b xs rest) := by
  induction fuel with
  | zero =>
    refine ⟨fun b x rest h => by simp [read] at h, fun n b xs rest h => ?_⟩
    cases n with
    | zero =>
      obtain ⟨rfl, rfl⟩ := Prod.mk.inj (Option.some.inj h)
      exact .nil _
    | succ n => simp [readAll] at h
  | succ fuel ih =>
    obtain ⟨ihItem, ihAll⟩ := ih
    constructor
    · intro b x rest h
      rw [read] at h
      split at h
      · exact absurd h (by simp)
      · rename_i hd hhead
        split at h
        case h_1 kind =>
          obtain ⟨rfl, rfl⟩ := Prod.mk.inj (Option.some.inj h)
          exact .uint hhead kind
        case h_2 kind =>
          obtain ⟨rfl, rfl⟩ := Prod.mk.inj (Option.some.inj h)
          exact .nint hhead kind
        case h_3 kind =>
          split at h
          · obtain ⟨rfl, rfl⟩ := Prod.mk.inj (Option.some.inj h)
            exact .bstr hhead kind (by assumption)
          · exact absurd h (by simp)
        case h_4 kind =>
          split at h
          · obtain ⟨rfl, rfl⟩ := Prod.mk.inj (Option.some.inj h)
            exact .tstr hhead kind (by assumption)
          · exact absurd h (by simp)
        case h_5 kind =>
          obtain ⟨⟨xs, rest'⟩, hall, heq⟩ := Option.map_eq_some_iff.mp h
          obtain ⟨rfl, rfl⟩ := Prod.mk.inj heq
          exact .array hhead kind (ihAll _ _ _ _ hall)
        case h_6 kind =>
          obtain ⟨⟨xs, rest'⟩, hall, heq⟩ := Option.map_eq_some_iff.mp h
          obtain ⟨rfl, rfl⟩ := Prod.mk.inj heq
          exact .map hhead kind (ihAll _ _ _ _ hall)
        case h_7 kind =>
          obtain ⟨⟨y, rest'⟩, hitem, heq⟩ := Option.map_eq_some_iff.mp h
          obtain ⟨rfl, rfl⟩ := Prod.mk.inj heq
          exact .tag hhead kind (ihItem _ _ _ hitem)
        case h_8 kind =>
          split at h
          · exact absurd h (by simp)
          · rename_i hsimple
            obtain ⟨rfl, rfl⟩ := Prod.mk.inj (Option.some.inj h)
            exact .prim hhead kind (by omega)
        case h_9 => exact absurd h (by simp)
    · intro n b xs rest h
      cases n with
      | zero =>
        obtain ⟨rfl, rfl⟩ := Prod.mk.inj (Option.some.inj h)
        exact .nil _
      | succ n =>
        rw [readAll] at h
        split at h
        · exact absurd h (by simp)
        · rename_i x mid hitem
          obtain ⟨⟨ys, rest'⟩, hall, heq⟩ := Option.map_eq_some_iff.mp h
          obtain ⟨rfl, rfl⟩ := Prod.mk.inj heq
          exact .cons (ihItem _ _ _ hitem) (ihAll _ _ _ _ hall)

mutual

/-- The reader reads a canonical encoding, with fuel for twice its bytes: one unit for each
header, and one for each place in a list of items. -/
theorem read_encode : (x : Item) → x.Ok → (encode x).length < 2 ^ 64 → (rest : Bytes) →
    (fuel : Nat) → 2 * (encode x).length ≤ fuel → read fuel (encode x ++ rest) = some (x, rest)
  | x, _, _, _, 0, enough => by
    have := encode_length_pos x
    omega
  | .uint n, ok, _, rest, fuel + 1, _ => by
    have hread : readHead (encode (.uint n) ++ rest) = _ := readHead_head (by omega) ok rest
    simp only [read, hread]
  | .nint n, ok, _, rest, fuel + 1, _ => by
    have hread : readHead (encode (.nint n) ++ rest) = _ := readHead_head (by omega) ok rest
    simp only [read, hread]
  | .bstr b, _, short, rest, fuel + 1, _ => by
    have hlen : b.length < 2 ^ 64 := by
      simp only [encode, List.length_append] at short
      omega
    rw [encode, List.append_assoc]
    simp [read, readHead_head (show 2 < 8 by omega) hlen]
  | .tstr b, _, short, rest, fuel + 1, _ => by
    have hlen : b.length < 2 ^ 64 := by
      simp only [encode, List.length_append] at short
      omega
    rw [encode, List.append_assoc]
    simp [read, readHead_head (show 3 < 8 by omega) hlen]
  | .array xs, ok, short, rest, fuel + 1, enough => by
    have hhead := header_length_pos 4 (info xs.length) xs.length
    simp only [encode, head, List.length_append] at short enough
    have hcount := length_le_encodeAll xs
    have hitems := readAll_encodeAll xs ok (by omega) rest fuel (by omega)
    rw [encode, List.append_assoc]
    simp only [read, readHead_head (show 4 < 8 by omega) (show xs.length < 2 ^ 64 by omega),
      hitems, Option.map_some]
  | .map kvs, ok, short, rest, fuel + 1, enough => by
    have hhead := header_length_pos 5 (info (kvs.length / 2)) (kvs.length / 2)
    simp only [encode, head, List.length_append] at short enough
    have hcount := length_le_encodeAll kvs
    have hitems := readAll_encodeAll kvs ok.2 (by omega) rest fuel (by omega)
    have hpairs : 2 * (kvs.length / 2) = kvs.length := by have := ok.1; omega
    rw [encode, List.append_assoc]
    simp only [read, readHead_head (show 5 < 8 by omega) (show kvs.length / 2 < 2 ^ 64 by omega),
      hpairs, hitems, Option.map_some]
  | .tag n x, ok, short, rest, fuel + 1, enough => by
    have hhead := header_length_pos 6 (info n) n
    simp only [encode, head, List.length_append] at short enough
    have hitem := read_encode x ok.2 (by omega) rest fuel (by omega)
    rw [encode, List.append_assoc]
    simp only [read, readHead_head (show 6 < 8 by omega) ok.1, hitem, Option.map_some]
  | .prim info arg, ok, _, rest, fuel + 1, _ => by
    have hsimple : ¬ (info = 24 ∧ arg < 32) := by
      rintro ⟨hinfo, harg⟩
      have := ok.2 hinfo
      omega
    rw [encode]
    simp only [read, readHead_header (show 7 < 8 by omega) ok.1, if_neg hsimple]

theorem readAll_encodeAll : (xs : List Item) → AllOk xs → (encodeAll xs).length < 2 ^ 64 →
    (rest : Bytes) → (fuel : Nat) → 2 * (encodeAll xs).length + 1 ≤ fuel →
    readAll fuel xs.length (encodeAll xs ++ rest) = some (xs, rest)
  | [], _, _, rest, fuel, _ => by cases fuel <;> rfl
  | x :: xs, ok, short, rest, fuel + 1, enough => by
    have hpos := encode_length_pos x
    simp only [encodeAll, List.length_append] at short enough
    have hfirst := read_encode x ok.1 (by omega) (encodeAll xs ++ rest) fuel (by omega)
    have hothers := readAll_encodeAll xs ok.2 (by omega) rest fuel (by omega)
    rw [encodeAll, List.append_assoc, List.length_cons]
    simp only [readAll, hfirst, hothers, Option.map_some]

end

/-- Two items of one encoding are equal. -/
theorem encode_inj {x y : Item} (hx : x.Ok) (hy : y.Ok) (short : (encode x).length < 2 ^ 64)
    (same : encode x = encode y) : x = y := by
  have hreadx := read_encode x hx short [] _ (Nat.le_refl _)
  have hready := read_encode y hy (same ▸ short) [] (2 * (encode x).length)
    (Nat.le_of_eq (by rw [same]))
  rw [← same, hreadx] at hready
  exact (Prod.mk.inj (Option.some.inj hready)).1

end Cbor
