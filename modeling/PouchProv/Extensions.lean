import PouchProv.ClientMeaning
import Mathlib.Data.List.Forall2

/-!
# Extensions of a response

The protocol lets later revisions add entries under new keys to the maps of a
response and elements behind those of its array. An extension is a relation
between two values that show their arrays, maps and texts: the items on the wire,
the values of the Kotlin and the Swift client, or the objects of the Python
client. What is extended on the wire is extended for a client that reads it
(`extends_value`).
-/

namespace ForwardCompat

open Bytes Cbor ClientReader ClientResponses Status
open Clients (CborValue)

/-- How values show that they are an array, a map or a text, and the text of a name. -/
structure Shape (V K : Type) where
  list : V → Option (List V)
  dict : V → Option (List (V × V))
  text : V → Option K
  key : String → K

/-- The keys that the protocol names in the map of a response. -/
def keys : Decoder → List String
  | .ver => ["proto", "caps", "blk", "lib", "pop"]
  | .configStatus => ["ip4", "ssid", "rssi"]
  | .scanResults => ["ssid", "bssid", "ch", "rssi", "auth"]
  | .credStatus => ["0", "1", "2"]
  | _ => []

/-- The number of elements that a response can have. -/
def elements : Decoder → Nat
  | .authChallenge | .configStatus | .scanStatus => 4
  | .ver | .scanResults | .credWrite | .credStatus => 3
  | .authProof | .configSet | .configApply | .scanStart | .credFinalize | .ctrl _ => 2

/-- What an extension can change in an element of a response: nothing, a map, or the maps of
an array. -/
inductive Part where
  | fixed
  | map
  | maps

def part : Decoder → Nat → Part
  | .ver, 2 => .map
  | .configStatus, 3 => .map
  | .credStatus, 2 => .map
  | .scanResults, 2 => .maps
  | _, _ => .fixed

section Extends

variable {V K : Type} [DecidableEq K] (s : Shape V K)

/-- The entry must stay in a map with these names. -/
def Shape.kept (names : List String) (kv : V × V) : Bool :=
  match s.text kv.1 with
  | some k => k ∈ names.map s.key
  | none => true

/-- Two maps with the same entries, apart from those under texts that are not names. -/
def Shape.SameMap (names : List String) (x x' : V) : Prop :=
  match s.dict x, s.dict x' with
  | some kvs, some kvs' => kvs.filter (s.kept names) = kvs'.filter (s.kept names)
  | _, _ => x = x'

def Shape.SameMaps (names : List String) (x x' : V) : Prop :=
  match s.list x, s.list x' with
  | some es, some es' => List.Forall₂ (s.SameMap names) es es'
  | _, _ => x = x'

def Shape.SameElement (names : List String) : Part → V → V → Prop
  | .fixed => Eq
  | .map => s.SameMap names
  | .maps => s.SameMaps names

/-- Elements are appended only where the array has all that it can have. -/
structure Shape.SameMessage (d : Decoder) (xs xs' : List V) : Prop where
  longer : xs.length ≤ xs'.length
  full : xs.length < elements d → xs'.length = xs.length
  same : ∀ i < elements d, ∀ y y', xs[i]? = some y → xs'[i]? = some y' →
    s.SameElement (keys d) (part d i) y y'

/-- `x'` extends the response `x`. -/
def Shape.Extends (d : Decoder) (x x' : V) : Prop :=
  ∃ xs xs', s.list x = some xs ∧ s.list x' = some xs' ∧ s.SameMessage d xs xs'

variable {s}

lemma sameMap_refl (names : List String) (x : V) : s.SameMap names x x := by
  rw [Shape.SameMap]
  split <;> simp_all

lemma sameMap_cases {names : List String} {x x' : V} (h : s.SameMap names x x') :
    x = x' ∨ ∃ kvs kvs', s.dict x = some kvs ∧ s.dict x' = some kvs' ∧
      kvs.filter (s.kept names) = kvs'.filter (s.kept names) := by
  rw [Shape.SameMap] at h
  split at h
  · exact .inr ⟨_, _, by assumption, by assumption, h⟩
  · exact .inl h

lemma sameMaps_cases {names : List String} {x x' : V} (h : s.SameMaps names x x') :
    x = x' ∨ ∃ es es', s.list x = some es ∧ s.list x' = some es' ∧
      List.Forall₂ (s.SameMap names) es es' := by
  rw [Shape.SameMaps] at h
  split at h
  · exact .inr ⟨_, _, by assumption, by assumption, h⟩
  · exact .inl h

lemma sameMaps_refl (names : List String) (x : V) : s.SameMaps names x x := by
  rw [Shape.SameMaps]
  split
  · rename_i es es' hes hes'
    obtain rfl : es = es' := Option.some.inj (hes.symm.trans hes')
    exact List.forall₂_same.mpr fun e _ => sameMap_refl names e
  · rfl

/-- What need not stay can be added. -/
lemma filter_kept_append {names : List String} {kv : V × V}
    (dropped : s.kept names kv = false) (kvs : List (V × V)) :
    kvs.filter (s.kept names) = (kvs ++ [kv]).filter (s.kept names) := by
  simp [List.filter_append, dropped]

lemma find?_kept {names : List String} {name : String} (hname : name ∈ names)
    {kvs kvs' : List (V × V)}
    (h : kvs.filter (s.kept names) = kvs'.filter (s.kept names)) :
    kvs.find? (fun kv => s.text kv.1 = some (s.key name)) =
      kvs'.find? (fun kv => s.text kv.1 = some (s.key name)) := by
  have hkept : ∀ kvs : List (V × V), (kvs.filter (s.kept names)).find?
      (fun kv => s.text kv.1 = some (s.key name)) =
      kvs.find? (fun kv => s.text kv.1 = some (s.key name)) := by
    intro kvs
    rw [List.find?_filter]
    congr 1
    funext kv
    by_cases htext : s.text kv.1 = some (s.key name)
    · simp [Shape.kept, htext, List.mem_map_of_mem hname]
    · simp [htext]
  rw [← hkept kvs, h, hkept kvs']

/-- An element that is there in one of the messages is there in the other. -/
lemma sameMessage_get {d : Decoder} {xs xs' : List V}
    (h : s.SameMessage d xs xs') {i : Nat} (hi : i < elements d) :
    xs[i]? = none ∧ xs'[i]? = none ∨
      ∃ y y', xs[i]? = some y ∧ xs'[i]? = some y' ∧ s.SameElement (keys d) (part d i) y y' := by
  by_cases hlen : i < xs.length
  · have hlen' : i < xs'.length := Nat.lt_of_lt_of_le hlen h.longer
    have hy := List.getElem?_eq_getElem hlen
    have hy' := List.getElem?_eq_getElem hlen'
    exact .inr ⟨_, _, hy, hy', h.same i hi _ _ hy hy'⟩
  · have hfull := h.full (by omega)
    exact .inl ⟨List.getElem?_eq_none (by omega), List.getElem?_eq_none (by omega)⟩

lemma sameMessage_eq {d : Decoder} {xs xs' : List V}
    (h : s.SameMessage d xs xs') {i : Nat} (hi : i < elements d)
    (fixed : part d i = .fixed) : xs[i]? = xs'[i]? := by
  obtain ⟨hnone, hnone'⟩ | ⟨y, y', hy, hy', hsame⟩ := sameMessage_get h hi
  · rw [hnone, hnone']
  · rw [fixed] at hsame
    rw [hy, hy', show y = y' from hsame]

/-- The op and the status are never changed. -/
lemma part_head (d : Decoder) {i : Nat} (hi : i < 2) : part d i = .fixed := by
  obtain rfl | rfl : i = 0 ∨ i = 1 := by omega
  all_goals cases d <;> rfl

lemma two_le_elements (d : Decoder) : 2 ≤ elements d := by
  cases d <;> simp [elements]

lemma short_cases {xs : List V} (short : xs.length < 2) : xs = [] ∨ ∃ x, xs = [x] := by
  obtain hzero | hone : xs.length = 0 ∨ xs.length = 1 := by omega
  · exact .inl (List.length_eq_zero_iff.mp hzero)
  · exact .inr (List.length_eq_one_iff.mp hone)

/-- What the head of a message decides is the same for an extended message. -/
lemma sameMessage_cases {d : Decoder} {xs xs' : List V}
    (h : s.SameMessage d xs xs') :
    (xs.length < 2 ∧ xs'.length < 2) ∨
      ∃ op status rest rest', xs = op :: status :: rest ∧ xs' = op :: status :: rest' := by
  have htwo := two_le_elements d
  have hop := sameMessage_eq h (by omega) (part_head d (show 0 < 2 by decide))
  have hstatus := sameMessage_eq h (by omega) (part_head d (show 1 < 2 by decide))
  match xs, xs' with
  | op :: status :: rest, op' :: status' :: rest' =>
    obtain rfl : op = op' := by simpa using hop
    obtain rfl : status = status' := by simpa using hstatus
    exact .inr ⟨op, status, rest, rest', rfl, rfl⟩
  | [], [] => exact .inl ⟨by simp, by simp⟩
  | [_], [_] => exact .inl ⟨by simp, by simp⟩
  | [], _ :: _ => simp at hop
  | _ :: _, [] => simp at hop
  | [_], _ :: _ :: _ => simp at hstatus
  | _ :: _ :: _, [_] => simp at hstatus

end Extends

def valueShape : Shape CborValue String where
  list := arrayValue
  dict := mapValue
  text := textValue
  key := id

section Values

variable {d : Decoder}

lemma map_of_dict {v : CborValue} {kvs : List (CborValue × CborValue)}
    (h : valueShape.dict v = some kvs) : v = .map kvs := by
  cases v with
  | map kvs' => rw [Option.some.inj h]
  | _ => exact absurd h (by simp [valueShape, mapValue])

lemma array_of_list {v : CborValue} {xs : List CborValue} (h : valueShape.list v = some xs) :
    v = .array xs := by
  cases v with
  | array ys => rw [Option.some.inj h]
  | _ => exact absurd h (by simp [valueShape, arrayValue])

lemma extends_arrays {v v' : CborValue} (h : valueShape.Extends d v v') :
    ∃ xs xs', v = .array xs ∧ v' = .array xs' ∧ valueShape.SameMessage d xs xs' := by
  obtain ⟨xs, xs', hxs, hxs', hsame⟩ := h
  exact ⟨xs, xs', array_of_list hxs, array_of_list hxs', hsame⟩

lemma lookup_kept {names : List String} {name : String} (hname : name ∈ names)
    {kvs kvs' : List (CborValue × CborValue)}
    (h : kvs.filter (valueShape.kept names) = kvs'.filter (valueShape.kept names)) :
    lookup name kvs = lookup name kvs' := by
  have hsame : ∀ kv : CborValue × CborValue, sameKey kv.1 (.text name) =
      decide (valueShape.text kv.1 = some (valueShape.key name)) := by
    intro kv
    cases hkey : kv.1 with
    | text k => simp [sameKey, valueShape, textValue, beq_eq_decide]
    | _ => simp [sameKey, valueShape, textValue]
  simp only [lookup, hsame, find?_kept hname h]

/-- Two maps of the clients with the same entries under the names. -/
lemma sameMap_lookup {names : List String} {y y' : CborValue}
    (h : valueShape.SameMap names y y') :
    y = y' ∨ ∃ kvs kvs', y = .map kvs ∧ y' = .map kvs' ∧
      ∀ name ∈ names, lookup name kvs = lookup name kvs' := by
  rcases sameMap_cases h with rfl | ⟨kvs, kvs', hy, hy', hkept⟩
  · exact .inl rfl
  · exact .inr ⟨kvs, kvs', map_of_dict hy, map_of_dict hy', fun name hname =>
      lookup_kept hname hkept⟩

/-- The map at an element is the same for the decoders, or the messages agree on the element. -/
lemma map_element {msg msg' : List CborValue}
    (h : valueShape.SameMessage d msg msg') {i : Nat} (hi : i < elements d)
    (map : part d i = .map) :
    msg[i]? = msg'[i]? ∨ ∃ kvs kvs', msg[i]? = some (.map kvs) ∧ msg'[i]? = some (.map kvs') ∧
      ∀ name ∈ keys d, lookup name kvs = lookup name kvs' := by
  obtain ⟨hnone, hnone'⟩ | ⟨y, y', hy, hy', hsame⟩ := sameMessage_get h hi
  · exact .inl (hnone.trans hnone'.symm)
  · rw [map] at hsame
    rcases sameMap_lookup hsame with rfl | ⟨kvs, kvs', rfl, rfl, hlookup⟩
    · exact .inl (hy.trans hy'.symm)
    · exact .inr ⟨kvs, kvs', hy, hy', hlookup⟩

end Values

def itemShape : Shape Item Bytes where
  list := fun
    | .array xs => some xs
    | _ => none
  dict := fun
    | .map kvs => some (pairUp kvs)
    | _ => none
  text := fun
    | .tstr b => some b
    | _ => none
  key := utf8

section Wire

variable {ε : Type} {r : Rules ε}

/-- A text is read as a name of the protocol exactly if its bytes are the name. -/
def ReadsNames (r : Rules ε) : Prop :=
  ∀ d, ∀ name ∈ keys d, ∀ b s, r.text b = .ok s → (s = name ↔ b = utf8 name)

/-- A change of entries that need not stay is one of entries that need not stay in what is made
of them. -/
def KeepsEntries (r : Rules ε) : Prop :=
  ∀ names kvs kvs' ws ws', r.entries kvs = .ok ws → r.entries kvs' = .ok ws' →
    kvs.filter (valueShape.kept names) = kvs'.filter (valueShape.kept names) →
    ws.filter (valueShape.kept names) = ws'.filter (valueShape.kept names)

lemma text_of_value {x : Item} {v : CborValue} (h : value r x = some v) :
    itemShape.text x = none ∧ valueShape.text v = none ∨
      ∃ b s, itemShape.text x = some b ∧ valueShape.text v = some s ∧ r.text b = .ok s := by
  cases x with
  | tstr b =>
    rw [value] at h
    obtain ⟨s, hs, rfl⟩ := Option.map_eq_some_iff.mp h
    cases htext : r.text b with
    | error e => simp [htext] at hs
    | ok s' =>
      obtain rfl : s' = s := by simpa [htext] using hs
      exact .inr ⟨b, s', rfl, rfl, htext⟩
  | map kvs =>
    rw [value] at h
    obtain ⟨vs, -, h⟩ := Option.bind_eq_some_iff.mp h
    obtain ⟨ws, -, rfl⟩ := Option.map_eq_some_iff.mp h
    exact .inl ⟨rfl, rfl⟩
  | prim info arg =>
    rw [value] at h
    obtain ⟨b, rfl⟩ | rfl := simpleValue_cases h
    all_goals exact .inl ⟨rfl, rfl⟩
  | tag n x => simp [value] at h
  | bstr b =>
    obtain rfl : CborValue.bytes b = v := by simpa [value] using h
    exact .inl ⟨rfl, rfl⟩
  | uint n | nint n | array xs =>
    rw [value] at h
    obtain ⟨i, -, rfl⟩ := Option.map_eq_some_iff.mp h
    exact .inl ⟨rfl, rfl⟩

/-- An entry stays on the wire exactly if it stays among the values. -/
lemma kept_value (reads : ReadsNames r) (d : Decoder) {p : Item × Item}
    {q : CborValue × CborValue} (h : value r p.1 = some q.1) :
    itemShape.kept (keys d) p = valueShape.kept (keys d) q := by
  rcases text_of_value h with ⟨hp, hq⟩ | ⟨b, s, hp, hq, htext⟩
  · simp only [Shape.kept, hp, hq]
  · have hmem : b ∈ (keys d).map itemShape.key ↔ s ∈ (keys d).map valueShape.key := by
      simp only [List.mem_map]
      constructor
      · rintro ⟨name, hname, rfl⟩
        exact ⟨name, hname, ((reads d name hname _ s htext).mpr rfl).symm⟩
      · rintro ⟨name, hname, rfl⟩
        exact ⟨name, hname, ((reads d name hname b _ htext).mp rfl).symm⟩
    simp only [Shape.kept, hp, hq, hmem]

lemma forall₂_filter {α β : Type} {R : α → β → Prop} {f : α → Bool} {g : β → Bool} {xs : List α}
    {ys : List β} (hfg : ∀ x y, R x y → f x = g y) (h : List.Forall₂ R xs ys) :
    List.Forall₂ R (xs.filter f) (ys.filter g) := by
  induction h with
  | nil => exact .nil
  | cons hx _ ih =>
    rename_i x y _ _ _
    have heq := hfg x y hx
    cases hg : g y with
    | true =>
      rw [List.filter_cons_of_pos (heq.trans hg), List.filter_cons_of_pos hg]
      exact .cons hx ih
    | false =>
      rw [List.filter_cons_of_neg (by simp [heq, hg]), List.filter_cons_of_neg (by simp [hg])]
      exact ih

/-- The entries of a map on the wire are the ones that a reader makes a map of. -/
lemma map_of_value {x : Item} {kvs : List (Item × Item)} {v : CborValue}
    (hx : itemShape.dict x = some kvs) (h : value r x = some v) :
    ∃ vs ws, v = .map ws ∧
      List.Forall₂ (fun p q => value r p.1 = some q.1 ∧ value r p.2 = some q.2) kvs vs ∧
      r.entries vs = .ok ws := by
  cases x with
  | map xs =>
    obtain rfl := Option.some.inj hx
    rw [value] at h
    obtain ⟨vs, hvs, h⟩ := Option.bind_eq_some_iff.mp h
    obtain ⟨ws, hws, rfl⟩ := Option.map_eq_some_iff.mp h
    cases hentries : r.entries (pairUp vs) with
    | error e => simp [hentries] at hws
    | ok ws' =>
      obtain rfl : ws' = ws := by simpa [hentries] using hws
      exact ⟨_, ws', rfl, forall₂_pairUp (forall₂_of_values hvs), hentries⟩
  | _ => exact absurd hx (by simp [itemShape])

/-- The elements of an array on the wire are read one by one. -/
lemma array_of_item {x : Item} {xs : List Item} {v : CborValue} (hx : itemShape.list x = some xs)
    (h : value r x = some v) :
    ∃ vs, v = .array vs ∧ List.Forall₂ (fun x v => value r x = some v) xs vs := by
  cases x with
  | array ys =>
    obtain rfl := Option.some.inj hx
    rw [value] at h
    obtain ⟨vs, hvs, rfl⟩ := Option.map_eq_some_iff.mp h
    exact ⟨vs, rfl, forall₂_of_values hvs⟩
  | _ => exact absurd hx (by simp [itemShape])

lemma sameMap_value (reads : ReadsNames r) (keeps : KeepsEntries r) {d : Decoder}
    {x x' : Item} {v v' : CborValue}
    (hv : value r x = some v) (hv' : value r x' = some v') (h : itemShape.SameMap (keys d) x x') :
    valueShape.SameMap (keys d) v v' := by
  rcases sameMap_cases h with rfl | ⟨kvs, kvs', hx, hx', hkept⟩
  · obtain rfl : v = v' := Option.some.inj (hv.symm.trans hv')
    exact sameMap_refl (keys d) v
  · obtain ⟨vs, ws, rfl, hvs, hws⟩ := map_of_value hx hv
    obtain ⟨vs', ws', rfl, hvs', hws'⟩ := map_of_value hx' hv'
    have hfilter := forall₂_filter (fun p q hpq => kept_value reads d hpq.1)
      hvs
    have hfilter' := forall₂_filter (fun p q hpq => kept_value reads d hpq.1)
      hvs'
    rw [hkept] at hfilter
    have hunique : Relator.RightUnique fun (p : Item × Item) (q : CborValue × CborValue) =>
        value r p.1 = some q.1 ∧ value r p.2 = some q.2 := by
      rintro p ⟨q, w⟩ ⟨q', w'⟩ ⟨hq, hw⟩ ⟨hq', hw'⟩
      exact Prod.ext (Option.some.inj (hq.symm.trans hq')) (Option.some.inj (hw.symm.trans hw'))
    exact keeps (keys d) _ _ ws ws' hws hws' (List.right_unique_forall₂' hunique hfilter hfilter')

lemma sameMaps_value (reads : ReadsNames r) (keeps : KeepsEntries r) {d : Decoder}
    {xs xs' : List Item}
    {vs vs' : List CborValue} (hvs : List.Forall₂ (fun x v => value r x = some v) xs vs)
    (hvs' : List.Forall₂ (fun x v => value r x = some v) xs' vs')
    (h : List.Forall₂ (itemShape.SameMap (keys d)) xs xs') :
    List.Forall₂ (valueShape.SameMap (keys d)) vs vs' := by
  induction h generalizing vs vs' with
  | nil =>
    cases hvs
    cases hvs'
    exact .nil
  | cons hx _ ih =>
    cases hvs with
    | cons hv hvs =>
      cases hvs' with
      | cons hv' hvs' => exact .cons (sameMap_value reads keeps hv hv' hx) (ih hvs hvs')

lemma sameElement_value (reads : ReadsNames r) (keeps : KeepsEntries r) {d : Decoder}
    {p : Part} {x x' : Item} {v v' : CborValue}
    (hv : value r x = some v) (hv' : value r x' = some v')
    (h : itemShape.SameElement (keys d) p x x') : valueShape.SameElement (keys d) p v v' := by
  cases p with
  | fixed =>
    obtain rfl : x = x' := h
    exact Option.some.inj (hv.symm.trans hv')
  | map => exact sameMap_value reads keeps hv hv' h
  | maps =>
    rcases sameMaps_cases h with rfl | ⟨es, es', hx, hx', heach⟩
    · obtain rfl : v = v' := Option.some.inj (hv.symm.trans hv')
      exact sameMaps_refl (keys d) v
    · obtain ⟨vs, rfl, hvs⟩ := array_of_item hx hv
      obtain ⟨vs', rfl, hvs'⟩ := array_of_item hx' hv'
      exact sameMaps_value reads keeps hvs hvs' heach

lemma forall₂_getElem? {α β : Type} {R : α → β → Prop} {xs : List α} {ys : List β}
    (h : List.Forall₂ R xs ys) {i : Nat} {y : β} (hy : ys[i]? = some y) :
    ∃ x, xs[i]? = some x ∧ R x y := by
  induction h generalizing i with
  | nil => simp at hy
  | cons hx _ ih =>
    cases i with
    | zero =>
      obtain rfl := Option.some.inj hy
      exact ⟨_, rfl, hx⟩
    | succ i => exact ih hy

/-- A response that is extended on the wire is extended for a client that reads it. -/
theorem extends_value (reads : ReadsNames r) (keeps : KeepsEntries r) {d : Decoder}
    {x x' : Item} {v v' : CborValue}
    (hv : value r x = some v) (hv' : value r x' = some v') (h : itemShape.Extends d x x') :
    valueShape.Extends d v v' := by
  obtain ⟨xs, xs', hxs, hxs', hsame⟩ := h
  obtain ⟨vs, rfl, hvs⟩ := array_of_item hxs hv
  obtain ⟨vs', rfl, hvs'⟩ := array_of_item hxs' hv'
  refine ⟨vs, vs', rfl, rfl, ?_, ?_, ?_⟩
  · rw [← hvs.length_eq, ← hvs'.length_eq]
    exact hsame.longer
  · rw [← hvs.length_eq, ← hvs'.length_eq]
    exact hsame.full
  · intro i hi y y' hy hy'
    obtain ⟨a, ha, hvalue⟩ := forall₂_getElem? hvs hy
    obtain ⟨a', ha', hvalue'⟩ := forall₂_getElem? hvs' hy'
    exact sameElement_value reads keeps hvalue hvalue' (hsame.same i hi a a' ha ha')

end Wire

lemma kept_key {names : List String} {p q : CborValue × CborValue}
    (h : valueShape.text p.1 = valueShape.text q.1) :
    valueShape.kept names p = valueShape.kept names q := by
  simp only [Shape.kept, h]

lemma text_of_sameKey {k k' : CborValue} (h : sameKey k k' = true) :
    valueShape.text k = valueShape.text k' := by
  unfold sameKey at h
  split at h
  · rename_i s s'
    rw [eq_of_beq h]
  · exact absurd h (by simp)

/-- Entries that need not stay do not touch those that must. -/
lemma filter_put (names : List String) (kvs : List (CborValue × CborValue))
    (kv : CborValue × CborValue) :
    (ClientReader.Kotlin.put kvs kv).filter (valueShape.kept names) =
      if valueShape.kept names kv then
        ClientReader.Kotlin.put (kvs.filter (valueShape.kept names)) kv
      else kvs.filter (valueShape.kept names) := by
  induction kvs with
  | nil =>
    by_cases hkept : valueShape.kept names kv = true <;>
      simp [ClientReader.Kotlin.put, hkept]
  | cons old kvs ih =>
    rw [ClientReader.Kotlin.put]
    by_cases hsame : sameKey old.1 kv.1 = true
    · have htext := text_of_sameKey hsame
      have hold : valueShape.kept names old = valueShape.kept names kv := kept_key htext
      have hnew : valueShape.kept names (old.1, kv.2) = valueShape.kept names kv := kept_key htext
      rw [if_pos hsame]
      by_cases hkept : valueShape.kept names kv = true
      · simp [hold, hnew, hkept, ClientReader.Kotlin.put, hsame]
      · simp [hold, hnew, hkept]
    · rw [if_neg hsame]
      by_cases hold : valueShape.kept names old = true
      · simp only [List.filter_cons_of_pos hold, ih]
        split
        · rw [ClientReader.Kotlin.put, if_neg hsame]
        · rfl
      · simp only [List.filter_cons_of_neg hold, ih]

lemma filter_foldl_put (names : List String) (kvs acc : List (CborValue × CborValue)) :
    (kvs.foldl ClientReader.Kotlin.put acc).filter (valueShape.kept names) =
      (kvs.filter (valueShape.kept names)).foldl ClientReader.Kotlin.put
        (acc.filter (valueShape.kept names)) := by
  induction kvs generalizing acc with
  | nil => rfl
  | cons kv kvs ih =>
    rw [List.foldl_cons, ih, filter_put]
    by_cases hkept : valueShape.kept names kv = true
    · rw [if_pos hkept, List.filter_cons_of_pos hkept, List.foldl_cons]
    · rw [if_neg hkept, List.filter_cons_of_neg hkept]

lemma kotlin_keepsEntries (t : Texts) : KeepsEntries (ClientReader.Kotlin.rules t) := by
  intro names kvs kvs' ws ws' hws hws' hkept
  rw [← Except.ok.inj hws, ← Except.ok.inj hws', ClientReader.Kotlin.linked,
    ClientReader.Kotlin.linked, filter_foldl_put, filter_foldl_put, hkept]

lemma swift_keepsEntries (t : Texts) : KeepsEntries (ClientReader.Swift.rules t) := by
  intro names kvs kvs' ws ws' hws hws' hkept
  rw [← Except.ok.inj hws, ← Except.ok.inj hws']
  exact hkept

end ForwardCompat
