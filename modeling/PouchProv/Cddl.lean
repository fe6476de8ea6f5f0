import PouchProv.Cbor

/-!
# Types of CBOR data

The part of CDDL that closed message schemas use: literals, ranges, choices,
arrays with a type for each element and maps whose members are named by text
keys and may be optional. `Matches` says which data items are instances of a type.
-/

namespace Cddl

open Bytes Cbor

inductive Ty where
  | uint
  | literal (n : Nat)
  | bstr
  | sized (min max : Nat)
  | bool
  | choice (types : List Ty)
  | array (types : List Ty)
  | map (members : List (String × Bool × Ty))

/-- A type for a byte string of one size. -/
def Ty.size (n : Nat) : Ty := .sized n n

/-- An entry of a map: its key, its value and the type that the value is taken for. -/
structure Entry where
  key : String
  type : Ty
  value : Item

/-- The entries of a map, in the order in which they are written. -/
def written (entries : List Entry) : List Item :=
  entries.flatMap fun e => [.tstr (utf8 e.key), e.value]

/-- Instances. The members of a map may stand in any order, none of them twice; the flag of a
member says whether it may be left out. -/
inductive Matches : Ty → Item → Prop where
  | uint (n : Nat) : Matches .uint (.uint n)
  | literal (n : Nat) : Matches (.literal n) (.uint n)
  | bstr (b : Bytes) : Matches .bstr (.bstr b)
  | sized {min max : Nat} {b : Bytes} (low : min ≤ b.length) (high : b.length ≤ max) :
      Matches (.sized min max) (.bstr b)
  | bool (b : Bool) : Matches .bool (.bool b)
  | choice {types : List Ty} {t : Ty} {x : Item} (listed : t ∈ types) (chosen : Matches t x) :
      Matches (.choice types) x
  | array {types : List Ty} {xs : List Item} (elements : List.Forall₂ Matches types xs) :
      Matches (.array types) (.array xs)
  | map {members : List (String × Bool × Ty)} {entries : List Entry}
      (once : (entries.map Entry.key).Nodup)
      (known : ∀ e ∈ entries, ∃ flag, (e.key, flag, e.type) ∈ members)
      (values : ∀ e ∈ entries, Matches e.type e.value)
      (required : ∀ m ∈ members, m.2.1 = false → m.1 ∈ entries.map Entry.key) :
      Matches (.map members) (.map (written entries))

/-- A member of a map with the value that is given for it. -/
structure Field where
  key : String
  optional : Bool
  type : Ty
  value : Option Item

def Field.member (f : Field) : String × Bool × Ty := (f.key, f.optional, f.type)

/-- The values that are given, under their keys. -/
def given (fields : List Field) : List Entry :=
  fields.filterMap fun f => f.value.map (⟨f.key, f.type, ·⟩)

/-- A given value is an instance of its type, and one that is not given is optional. -/
def Field.Ok (f : Field) : Prop :=
  match f.value with
  | some x => Matches f.type x
  | none => f.optional = true

lemma given_keys (fields : List Field) :
    (given fields).map Entry.key = (fields.filter (·.value.isSome)).map Field.key := by
  induction fields with
  | nil => rfl
  | cons f fields ih =>
    rw [given] at ih ⊢
    cases hvalue : f.value with
    | none => simpa [hvalue] using ih
    | some x => simp [hvalue, ih]

/-- What holds of every value that is given holds of the entries. -/
lemma given_forall {fields : List Field} {P : String → Item → Prop}
    (each : ∀ f ∈ fields, ∀ x, f.value = some x → P f.key x) :
    ∀ e ∈ given fields, P e.key e.value := by
  intro e he
  obtain ⟨f, hf, hgiven⟩ := List.mem_filterMap.mp he
  obtain ⟨x, hvalue, rfl⟩ := Option.map_eq_some_iff.mp hgiven
  exact each f hf x hvalue

lemma given_length_le (fields : List Field) : (given fields).length ≤ fields.length :=
  List.length_filterMap_le _ _

/-- A map of given values is an instance of the type with their members. -/
theorem matches_given (fields : List Field) (distinct : (fields.map Field.key).Nodup)
    (ok : ∀ f ∈ fields, f.Ok) :
    Matches (.map (fields.map Field.member)) (.map (written (given fields))) := by
  have horigin : ∀ e ∈ given fields, ∃ f ∈ fields, f.value = some e.value ∧
      f.key = e.key ∧ f.type = e.type := by
    intro e he
    obtain ⟨f, hf, hgiven⟩ := List.mem_filterMap.mp he
    obtain ⟨x, hvalue, rfl⟩ := Option.map_eq_some_iff.mp hgiven
    exact ⟨f, hf, hvalue, rfl, rfl⟩
  refine .map ?_ ?_ ?_ ?_
  · rw [given_keys]
    exact distinct.sublist (List.filter_sublist.map _)
  · intro e he
    obtain ⟨f, hf, -, hkey, htype⟩ := horigin e he
    refine ⟨f.optional, ?_⟩
    rw [← hkey, ← htype]
    exact List.mem_map_of_mem hf
  · intro e he
    obtain ⟨f, hf, hvalue, -, htype⟩ := horigin e he
    have hok := ok f hf
    rw [Field.Ok, hvalue] at hok
    exact htype ▸ hok
  · intro m hm hrequired
    obtain ⟨f, hf, rfl⟩ := List.mem_map.mp hm
    have hok := ok f hf
    rw [given_keys]
    refine List.mem_map_of_mem (List.mem_filter.mpr ⟨hf, ?_⟩)
    cases hvalue : f.value with
    | some x => rfl
    | none =>
      rw [Field.Ok, hvalue] at hok
      exact absurd (hok.symm.trans hrequired) Bool.noConfusion

lemma written_ok {entries : List Entry} (ok : ∀ e ∈ entries, e.value.Ok) :
    (Item.map (written entries)).Ok := by
  induction entries with
  | nil => exact ⟨rfl, trivial⟩
  | cons e entries ih =>
    obtain ⟨heven, hall⟩ := ih fun e he => ok e (List.mem_cons_of_mem _ he)
    have hcons : written (e :: entries) = .tstr (utf8 e.key) :: e.value :: written entries := rfl
    rw [hcons]
    refine ⟨?_, trivial, ok e List.mem_cons_self, hall⟩
    simp only [List.length_cons]
    omega

lemma head_length_le_nine (major n : Nat) : (head major n).length ≤ 9 := by
  have hinfo : info n < 24 ∨ info n ≤ 27 := by
    rw [info]
    split
    · omega
    · split
      · omega
      · split
        · omega
        · split <;> omega
  rw [head, header, List.length_cons]
  split
  · simp
  · rw [be_length]
    have hpow : width (info n) ≤ 2 ^ 3 := Nat.pow_le_pow_right (by decide) (by omega)
    omega

lemma encode_written_length_le (entries : List Entry) (bound : Nat)
    (small : ∀ e ∈ entries, (utf8 e.key).length + (encode e.value).length ≤ bound) :
    (encodeAll (written entries)).length ≤ entries.length * (9 + bound) := by
  induction entries with
  | nil => exact Nat.zero_le _
  | cons e entries ih =>
    have htail := ih fun e he => small e (List.mem_cons_of_mem _ he)
    have hhead := small e List.mem_cons_self
    have hkey := head_length_le_nine 3 (utf8 e.key).length
    have hcons : written (e :: entries) = .tstr (utf8 e.key) :: e.value :: written entries := rfl
    rw [hcons, encodeAll, encodeAll, encode, List.length_cons, Nat.add_mul, Nat.one_mul]
    simp only [List.length_append]
    omega

end Cddl
