import PouchProv.ClientMeaning
import Mathlib.Data.List.Forall2

/-!
# Where the two apps decode alike

A response that the Swift app reads is read by the Kotlin app too, with the last of the entries
under a key in the place of the first (`reads_linked`). What the decoders make of it is the same
exactly when each number that they use fits 32 bits and the first and the last entry under each
key hold the same (`responses_agree_iff`).
-/

namespace ClientResponses

open Bytes Cbor Clients ClientReader Status
open CredStore (CredKind)
open ProvTypes (StaState)

mutual

/-- The second value is the first with the maps as a `LinkedHashMap` keeps them. -/
inductive Linked : CborValue → CborValue → Prop where
  | int (w : Int64) : Linked (.int w) (.int w)
  | bytes (b : Bytes) : Linked (.bytes b) (.bytes b)
  | text (s : String) : Linked (.text s) (.text s)
  | bool (b : Bool) : Linked (.bool b) (.bool b)
  | null : Linked .null .null
  | array {xs ys : List CborValue} (items : List.Forall₂ Linked xs ys) :
      Linked (.array xs) (.array ys)
  | map {kvs kvs' : List (CborValue × CborValue)} (entries : List.Forall₂ LinkedEntry kvs kvs') :
      Linked (.map kvs) (.map (ClientReader.Kotlin.linked kvs'))

inductive LinkedEntry : CborValue × CborValue → CborValue × CborValue → Prop where
  | mk {p q : CborValue × CborValue} (key : Linked p.1 q.1) (value : Linked p.2 q.2) :
      LinkedEntry p q

end

/-- Well-formed UTF-8 is the same text on both platforms. -/
def SameTexts (t : Texts) : Prop := ∀ b s, t.swift b = some s → t.kotlin b = s

section Reading

variable {t : Texts}

lemma kotlin_size {n : Nat} (h : n < 2 ^ 31) : (ClientReader.Kotlin.rules t).size n = .ok n ∧
    (ClientReader.Kotlin.rules t).count n = .ok n := by
  simp only [ClientReader.Kotlin.rules, if_neg (ClientReader.Kotlin.toInt_not_neg h),
    ClientReader.Kotlin.toNatClampNeg_toInt h, and_self]

lemma kotlin_pairs {n : Nat} (h : n < 2 ^ 30) :
    (ClientReader.Kotlin.rules t).pairs n = .ok n := by
  have hsmall : n < 2 ^ 31 := by omega
  simp only [ClientReader.Kotlin.rules, if_neg (ClientReader.Kotlin.doubled_not_neg h),
    ClientReader.Kotlin.toNatClampNeg_toInt hsmall]

lemma swift_text {b : Bytes} {s : String} (h : (ClientReader.Swift.rules t).text b = .ok s) :
    t.swift b = some s := by
  simp only [ClientReader.Swift.rules] at h
  cases hs : t.swift b with
  | none => simp [hs] at h
  | some s' => simpa [hs] using h

lemma swift_int64 {n : Nat} {w : Int64} (h : ClientReader.Swift.int64 n = .ok w) :
    w = Int64.ofNat n := by
  rw [ClientReader.Swift.int64] at h
  split at h
  · exact (Except.ok.inj h).symm
  · cases h

lemma swift_nint {n : Nat} {w : Int64} (h : (ClientReader.Swift.rules t).nint n = .ok w) :
    w = -1 - Int64.ofNat n := by
  simp only [ClientReader.Swift.rules] at h
  cases hint : ClientReader.Swift.int64 n with
  | error e =>
    rw [hint] at h
    cases h
  | ok i =>
    rw [hint] at h
    rw [← swift_int64 hint]
    exact (Except.ok.inj h).symm

mutual

/-- What the Swift app reads in an array of bytes, the Kotlin app reads too. -/
theorem reads_linked (same : SameTexts t) {b rest : Bytes} {v : CborValue} :
    Reads (ClientReader.Swift.rules t) b v rest → b.length < 2 ^ 31 →
    ∃ k, Reads (ClientReader.Kotlin.rules t) b k rest ∧ Linked v k
  | .uint head kind number, _ => by
    obtain rfl := swift_int64 number
    exact ⟨_, .uint head kind rfl, .int _⟩
  | .nint head kind number, _ => by
    obtain rfl := swift_nint number
    exact ⟨_, .nint head kind rfl, .int _⟩
  | .bytes head kind size fits, short => by
    obtain rfl := ClientReader.Swift.length_eq size
    have hshorter := readHead_shorter head
    exact ⟨_, .bytes head kind (kotlin_size (by omega)).1 fits, .bytes _⟩
  | .text head kind size fits decoded, short => by
    obtain rfl := ClientReader.Swift.length_eq size
    have hshorter := readHead_shorter head
    have htext := same _ _ (swift_text decoded)
    exact ⟨_, .text head kind (kotlin_size (by omega)).1 fits (congrArg Except.ok htext), .text _⟩
  | .array head kind count items, short => by
    have hshorter := readHead_shorter head
    have hcount := items.count_le
    obtain ⟨ks, hreads, hlinked⟩ := readsN_linked same items (by omega)
    obtain rfl := ClientReader.Swift.length_eq count
    exact ⟨_, .array head kind (kotlin_size (by omega)).2 hreads, .array hlinked⟩
  | .map head kind pairs items entries, short => by
    have hshorter := readHead_shorter head
    have hcount := items.count_le
    obtain ⟨ks, hreads, hlinked⟩ := readsN_linked same items (by omega)
    obtain rfl := ClientReader.Swift.length_eq pairs
    obtain rfl := Except.ok.inj entries
    exact ⟨_, .map head kind (kotlin_pairs (by omega)) hreads rfl,
      .map ((forall₂_pairUp hlinked).imp fun _ _ h => .mk h.1 h.2)⟩
  | .simple head kind value, _ => by
    refine ⟨_, .simple head kind value, ?_⟩
    obtain ⟨b, rfl⟩ | rfl := simpleValue_cases value
    · exact .bool b
    · exact .null

theorem readsN_linked (same : SameTexts t) {n : Nat} {b rest : Bytes} {vs : List CborValue} :
    ReadsN (ClientReader.Swift.rules t) n b vs rest → b.length < 2 ^ 31 →
    ∃ ks, ReadsN (ClientReader.Kotlin.rules t) n b ks rest ∧ List.Forall₂ Linked vs ks
  | .nil _, _ => ⟨_, .nil _, .nil⟩
  | .cons item items, short => by
    obtain ⟨k, hitem, hlinked⟩ := reads_linked same item short
    have hshorter := item.shorter
    obtain ⟨ks, hitems, hrest⟩ := readsN_linked same items (by omega)
    exact ⟨_, .cons hitem hitems, .cons hlinked hrest⟩

end

theorem decode_linked (same : SameTexts t) {data : Bytes} (short : data.length < 2 ^ 31)
    {v : CborValue} (h : ClientReader.decode (ClientReader.Swift.rules t) data = .ok v) :
    ∃ k, ClientReader.decode (ClientReader.Kotlin.rules t) data = .ok k ∧ Linked v k := by
  obtain ⟨rest, hreads⟩ := decode_ok_iff.mp h
  obtain ⟨k, hkotlin, hlinked⟩ := reads_linked same hreads short
  exact ⟨k, decode_ok_iff.mpr ⟨rest, hkotlin⟩, hlinked⟩

end Reading

section Entries

lemma LinkedEntry.key {p q : CborValue × CborValue} : LinkedEntry p q → Linked p.1 q.1
  | .mk key _ => key

lemma LinkedEntry.value {p q : CborValue × CborValue} : LinkedEntry p q → Linked p.2 q.2
  | .mk _ value => value

/-- A view of values that does not look into maps. -/
def Plain {α : Type} (view : CborValue → Option α) : Prop := ∀ v k, Linked v k → view k = view v

lemma plain_int64Value : Plain CborValue.int64Value := by
  rintro _ _ ⟨⟩ <;> rfl

lemma plain_intOf (c : Taking) : Plain c.intOf := fun v k h => by
  rw [Taking.intOf, Taking.intOf, plain_int64Value v k h]

lemma plain_bytesValue : Plain bytesValue := by
  rintro _ _ ⟨⟩ <;> rfl

lemma plain_textValue : Plain textValue := by
  rintro _ _ ⟨⟩ <;> rfl

lemma plain_boolValue : Plain boolValue := by
  rintro _ _ ⟨⟩ <;> rfl

lemma mapM_linked {α β γ : Type} {R : α → β → Prop} {f : α → Option γ} {g : β → Option γ}
    (hfg : ∀ x y, R x y → g y = f x) {xs : List α} {ys : List β} (h : List.Forall₂ R xs ys) :
    ys.mapM g = xs.mapM f := by
  induction h with
  | nil => rfl
  | cons hx _ ih => rw [List.mapM_cons, List.mapM_cons, hfg _ _ hx, ih]

lemma plain_textsValue : Plain textsValue := by
  rintro _ _ ⟨⟩
  case array items => exact mapM_linked plain_textValue items
  all_goals rfl

lemma texts_of_sameKey {v w : CborValue} (h : sameKey v w = true) :
    ∃ s, v = .text s ∧ w = .text s := by
  unfold sameKey at h
  split at h
  · exact ⟨_, rfl, by rw [eq_of_beq h]⟩
  · cases h

lemma linked_sameKey {v k : CborValue} (h : Linked v k) (key : String) :
    sameKey k (.text key) = sameKey v (.text key) := by
  cases h <;> rfl

lemma linked_sameKey₂ {v k v' k' : CborValue} (h : Linked v k) (h' : Linked v' k') :
    sameKey k k' = sameKey v v' := by
  cases h <;> cases h' <;> rfl

lemma put_linked {acc acc' : List (CborValue × CborValue)} {kv kv' : CborValue × CborValue}
    (hacc : List.Forall₂ LinkedEntry acc acc') (hkv : LinkedEntry kv kv') :
    List.Forall₂ LinkedEntry (ClientReader.Kotlin.put acc kv)
      (ClientReader.Kotlin.put acc' kv') := by
  induction hacc with
  | nil => exact .cons hkv .nil
  | cons hold hrest ih =>
    rw [ClientReader.Kotlin.put, ClientReader.Kotlin.put, linked_sameKey₂ hold.key hkv.key]
    split
    · exact .cons (.mk hold.key hkv.value) hrest
    · exact .cons hold ih

lemma foldl_put_linked {acc acc' kvs kvs' : List (CborValue × CborValue)}
    (hacc : List.Forall₂ LinkedEntry acc acc') (h : List.Forall₂ LinkedEntry kvs kvs') :
    List.Forall₂ LinkedEntry (kvs.foldl ClientReader.Kotlin.put acc)
      (kvs'.foldl ClientReader.Kotlin.put acc') := by
  induction h generalizing acc acc' with
  | nil => exact hacc
  | cons hkv _ ih => exact ih (put_linked hacc hkv)

lemma lookup_cons (key : String) (kv : CborValue × CborValue)
    (kvs : List (CborValue × CborValue)) :
    lookup key (kv :: kvs) =
      if sameKey kv.1 (.text key) then some kv.2 else lookup key kvs := by
  rw [lookup, List.find?_cons]
  cases sameKey kv.1 (.text key) <;> rfl

lemma lookup_put (key : String) (kvs : List (CborValue × CborValue)) (kv : CborValue × CborValue) :
    lookup key (ClientReader.Kotlin.put kvs kv) =
      if sameKey kv.1 (.text key) then some kv.2 else lookup key kvs := by
  induction kvs with
  | nil => rw [ClientReader.Kotlin.put, lookup_cons]
  | cons old kvs ih =>
    rw [ClientReader.Kotlin.put]
    split
    · rename_i hsame
      obtain ⟨s, hold, hkv⟩ := texts_of_sameKey hsame
      rw [lookup_cons, lookup_cons, hold, hkv]
      split <;> rfl
    · rename_i hother
      rw [lookup_cons, ih, lookup_cons]
      by_cases hkv : sameKey kv.1 (.text key)
      · have hold : ¬ sameKey old.1 (.text key) := by
          intro hold
          obtain ⟨s, hs, hkey⟩ := texts_of_sameKey hkv
          rw [hs, ← hkey] at hother
          exact hother hold
        rw [if_neg hold, if_pos hkv, if_pos hkv]
      · rw [if_neg hkv, if_neg hkv]

/-- The entry that a `LinkedHashMap` has under a key is the last one. -/
lemma lookup_linked (key : String) (kvs : List (CborValue × CborValue)) :
    lookup key (ClientReader.Kotlin.linked kvs) = lookup key kvs.reverse := by
  induction kvs using List.reverseRecOn with
  | nil => rfl
  | append_singleton kvs kv ih =>
    rw [ClientReader.Kotlin.linked, List.foldl_append, List.foldl_cons, List.foldl_nil, lookup_put,
      List.reverse_append, List.reverse_singleton, List.singleton_append, lookup_cons, ← ih]
    rfl

lemma lookup_forall₂ {kvs kvs' : List (CborValue × CborValue)}
    (h : List.Forall₂ LinkedEntry kvs kvs') (key : String) :
    Option.Rel Linked (lookup key kvs) (lookup key kvs') := by
  induction h with
  | nil => exact .none
  | cons hkv _ ih =>
    rw [lookup_cons, lookup_cons, linked_sameKey hkv.key]
    split
    · exact .some hkv.value
    · exact ih

lemma field_linked {α : Type} {view : CborValue → Option α} (plain : Plain view)
    {kvs kvs' : List (CborValue × CborValue)} (h : List.Forall₂ LinkedEntry kvs kvs')
    (key : String) :
    field view (ClientReader.Kotlin.linked kvs') key = field view kvs.reverse key := by
  have hlast := lookup_forall₂ (List.forall₂_reverse_iff.mpr h) key
  rw [field, field, lookup_linked]
  generalize lookup key kvs.reverse = first at hlast ⊢
  generalize lookup key kvs'.reverse = last at hlast ⊢
  cases hlast with
  | none => rfl
  | some hlinked => exact plain _ _ hlinked

end Entries

section Settled

/-- The first and the last entry under a key hold the same. -/
def SameEntry {α : Type} (view : CborValue → Option α) (kvs : List (CborValue × CborValue))
    (key : String) : Prop :=
  ∃ a, field view kvs key = some a ∧ field view kvs.reverse key = some a

/-- The low 32 bits of the last number under a key are the first one. -/
def SameNumber (kvs : List (CborValue × CborValue)) (key : String) : Prop :=
  ∃ first last, lookup key kvs = some (.int first) ∧ lookup key kvs.reverse = some (.int last) ∧
    narrow last = first.toInt

structure InfoSettled (kvs : List (CborValue × CborValue)) : Prop where
  proto : SameNumber kvs "proto"
  caps : SameEntry textsValue kvs "caps"
  blockSize : SameNumber kvs "blk"
  lib : SameEntry textValue kvs "lib"
  popRequired : (field boolValue kvs.reverse "pop").getD false =
    (field boolValue kvs "pop").getD false

def DetailSettled : Option CborValue → Prop
  | none => True
  | some (.int code) => (failReasonFrom code.toInt).isSome
  | some (.map kvs) => SameEntry bytesValue kvs "ip4" ∧ SameEntry bytesValue kvs "ssid" ∧
      (field CborValue.int64Value kvs.reverse "rssi").map narrow =
        (field CborValue.int64Value kvs "rssi").map Int64.toInt
  | some _ => False

structure EntrySettled (kvs : List (CborValue × CborValue)) : Prop where
  ssid : SameEntry bytesValue kvs "ssid"
  bssid : SameEntry bytesValue kvs "bssid"
  channel : SameNumber kvs "ch"
  rssi : SameNumber kvs "rssi"
  auth : SameNumber kvs "auth"

/-- Each key names a kind, and the same length counts for it in both apps. -/
structure StatusSettled (t : Texts) (kvs : List (CborValue × CborValue)) : Prop where
  swift : ∀ kv ∈ kvs, (Swift.taking.statusEntry kv).isSome
  kotlin : ∀ kv ∈ ClientReader.Kotlin.linked kvs, ((Kotlin.taking t).statusEntry kv).isSome
  last : ∀ kind n, LastIs (Kotlin.taking t).statusEntry (ClientReader.Kotlin.linked kvs) kind n ↔
    LastIs Swift.taking.statusEntry kvs kind n

def SettledBehind (t : Texts) : Decoder → List CborValue → Prop
  | .ver, rest => ∃ kvs, rest[0]? = some (.map kvs) ∧ InfoSettled kvs
  | .authChallenge, rest => ∃ nonce proof, rest[0]? = some (.bytes nonce) ∧
      rest[1]? = some (.bytes proof) ∧ nonce.length = 16 ∧ proof.length = 32
  | .configStatus, rest => ∃ code, rest[0]? = some (.int code) ∧
      (staStateFrom code.toInt).isSome ∧ DetailSettled rest[1]?
  | .scanStatus, rest => ∃ finished total, rest[0]? = some (.bool finished) ∧
      rest[1]? = some (.int total) ∧ narrow total = total.toInt
  | .scanResults, rest => ∃ es, rest[0]? = some (.array es) ∧
      ∀ e ∈ es, ∃ kvs, e = .map kvs ∧ EntrySettled kvs
  | .credWrite, rest => ∃ received, rest[0]? = some (.int received) ∧
      narrow received = received.toInt
  | .credStatus, rest => ∃ kvs, rest[0]? = some (.map kvs) ∧ StatusSettled t kvs
  | .authProof, _ | .configSet, _ | .configApply, _ | .scanStart, _ | .credFinalize, _ |
    .ctrl _, _ => True

/-- The op and the status stand on the wire, and what the decoder takes from behind them does not
depend on the width of numbers or on which entry under a key counts. -/
def Settled (t : Texts) (d : Decoder) (v : CborValue) : Prop :=
  Responds Swift.taking d.op (SettledBehind t d) v

variable {t : Texts}

lemma same_entry_iff {α : Type} {view : CborValue → Option α} (plain : Plain view)
    {kvs kvs' : List (CborValue × CborValue)} (h : List.Forall₂ LinkedEntry kvs kvs')
    (key : String) :
    (∃ a, field view (ClientReader.Kotlin.linked kvs') key = some a ∧ field view kvs key = some a) ↔
      SameEntry view kvs key := by
  simp only [field_linked plain h, SameEntry, and_comm]

lemma field_intOf (c : Taking) (kvs : List (CborValue × CborValue)) (key : String) :
    field c.intOf kvs key = (field CborValue.int64Value kvs key).map c.number := by
  rw [field, field]
  cases lookup key kvs <;> rfl

lemma field_int_eq_some_iff {c : Taking} {kvs : List (CborValue × CborValue)} {key : String}
    {n : Int} :
    field c.intOf kvs key = some n ↔ ∃ w, lookup key kvs = some (.int w) ∧ c.number w = n := by
  simp only [field, Option.bind_eq_some_iff, intOf_eq_some_iff]
  constructor
  · rintro ⟨_, hlookup, w, rfl, hw⟩
    exact ⟨w, hlookup, hw⟩
  · rintro ⟨w, hlookup, hw⟩
    exact ⟨_, hlookup, w, rfl, hw⟩

lemma same_number_iff {kvs kvs' : List (CborValue × CborValue)}
    (h : List.Forall₂ LinkedEntry kvs kvs') (key : String) :
    (∃ n, field (Kotlin.taking t).intOf (ClientReader.Kotlin.linked kvs') key = some n ∧
      field Swift.taking.intOf kvs key = some n) ↔ SameNumber kvs key := by
  simp only [field_linked (plain_intOf _) h, field_int_eq_some_iff]
  constructor
  · rintro ⟨n, ⟨last, hlast, hnarrow⟩, first, hfirst, hint⟩
    exact ⟨first, last, hfirst, hlast, hnarrow.trans hint.symm⟩
  · rintro ⟨first, last, hfirst, hlast, hsame⟩
    exact ⟨first.toInt, ⟨last, hlast, hsame⟩, first, hfirst, rfl⟩

lemma narrow_of_toInt {w : Int64} {n : Int} (h : w.toInt = n) (low : -2 ^ 31 ≤ n)
    (high : n < 2 ^ 31) : narrow w = n := by
  rw [narrow_eq (by omega) (by omega), h]

lemma info_settled_iff {kvs kvs' : List (CborValue × CborValue)}
    (h : List.Forall₂ LinkedEntry kvs kvs') :
    (∃ y, InfoYields (Kotlin.taking t) (ClientReader.Kotlin.linked kvs') y ∧
      InfoYields Swift.taking kvs y) ↔ InfoSettled kvs := by
  have hpop := field_linked plain_boolValue h "pop"
  constructor
  · rintro ⟨y, hkotlin, hswift⟩
    exact ⟨(same_number_iff h _).mp ⟨_, hkotlin.proto, hswift.proto⟩,
      (same_entry_iff plain_textsValue h _).mp ⟨_, hkotlin.caps, hswift.caps⟩,
      (same_number_iff h _).mp ⟨_, hkotlin.blockSize, hswift.blockSize⟩,
      (same_entry_iff plain_textValue h _).mp ⟨_, hkotlin.lib, hswift.lib⟩,
      by rw [← hpop, hkotlin.popRequired, hswift.popRequired]⟩
  · intro hsettled
    obtain ⟨proto, hproto, hproto'⟩ := (same_number_iff (t := t) h _).mpr hsettled.proto
    obtain ⟨caps, hcaps, hcaps'⟩ := (same_entry_iff plain_textsValue h _).mpr hsettled.caps
    obtain ⟨blk, hblk, hblk'⟩ := (same_number_iff (t := t) h _).mpr hsettled.blockSize
    obtain ⟨lib, hlib, hlib'⟩ := (same_entry_iff plain_textValue h _).mpr hsettled.lib
    have hpop' := hsettled.popRequired
    rw [← hpop] at hpop'
    exact ⟨⟨proto, caps, blk, lib, _⟩, ⟨hproto, hcaps, hblk, hlib, hpop'⟩,
      hproto', hcaps', hblk', hlib', rfl⟩

lemma entry_settled_iff {kvs kvs' : List (CborValue × CborValue)}
    (h : List.Forall₂ LinkedEntry kvs kvs') :
    (∃ y, EntryYields (Kotlin.taking t) (ClientReader.Kotlin.linked kvs') y ∧
      EntryYields Swift.taking kvs y) ↔ EntrySettled kvs := by
  constructor
  · rintro ⟨y, hkotlin, hswift⟩
    exact ⟨(same_entry_iff plain_bytesValue h _).mp ⟨_, hkotlin.ssid, hswift.ssid⟩,
      (same_entry_iff plain_bytesValue h _).mp ⟨_, hkotlin.bssid, hswift.bssid⟩,
      (same_number_iff h _).mp ⟨_, hkotlin.channel, hswift.channel⟩,
      (same_number_iff h _).mp ⟨_, hkotlin.rssi, hswift.rssi⟩,
      (same_number_iff h _).mp ⟨_, hkotlin.auth, hswift.auth⟩⟩
  · intro hsettled
    obtain ⟨ssid, hssid, hssid'⟩ := (same_entry_iff plain_bytesValue h _).mpr hsettled.ssid
    obtain ⟨bssid, hbssid, hbssid'⟩ := (same_entry_iff plain_bytesValue h _).mpr hsettled.bssid
    obtain ⟨ch, hch, hch'⟩ := (same_number_iff (t := t) h _).mpr hsettled.channel
    obtain ⟨rssi, hrssi, hrssi'⟩ := (same_number_iff (t := t) h _).mpr hsettled.rssi
    obtain ⟨auth, hauth, hauth'⟩ := (same_number_iff (t := t) h _).mpr hsettled.auth
    exact ⟨⟨ssid, bssid, ch, rssi, auth⟩, ⟨hssid, hbssid, hch, hrssi, hauth⟩,
      hssid', hbssid', hch', hrssi', hauth'⟩

lemma failReasonFrom_small {n : Int} (h : (failReasonFrom n).isSome) : 0 ≤ n ∧ n < 2 ^ 31 := by
  unfold failReasonFrom at h
  split at h
  all_goals first | omega | cases h

lemma staStateFrom_small {n : Int} (h : (staStateFrom n).isSome) : 0 ≤ n ∧ n < 2 ^ 31 := by
  unfold staStateFrom at h
  split at h
  all_goals first | omega | cases h

lemma kotlin_staState {code : Int64} (h : (staStateFrom code.toInt).isSome) :
    staStateFrom ((Kotlin.taking t).number code) = staStateFrom (Swift.taking.number code) := by
  obtain ⟨hlow, hhigh⟩ := staStateFrom_small h
  exact congrArg staStateFrom (narrow_eq (by omega) hhigh)

lemma detail_settled_iff {state : StaState} {v k : Option CborValue} (h : Option.Rel Linked v k) :
    (∃ y, DetailYields (Kotlin.taking t) state k y ∧ DetailYields Swift.taking state v y) ↔
      DetailSettled v := by
  cases h with
  | none => exact ⟨fun _ => trivial, fun _ => ⟨_, rfl, rfl⟩⟩
  | some h =>
    cases h with
    | int code =>
      constructor
      · rintro ⟨y, -, reason, hreason, -⟩
        exact Option.isSome_iff_exists.mpr ⟨reason, hreason⟩
      · intro hknown
        obtain ⟨reason, hreason⟩ := Option.isSome_iff_exists.mp hknown
        obtain ⟨hlow, hhigh⟩ := failReasonFrom_small hknown
        have hnarrow : narrow code = code.toInt := narrow_eq (by omega) hhigh
        exact ⟨_, ⟨reason, by rw [← hreason, ← hnarrow]; rfl, rfl⟩, reason, hreason, rfl⟩
    | map entries =>
      have hlast : field (Kotlin.taking t).intOf _ "rssi" = _ :=
        (field_linked (plain_intOf _) entries _).trans (field_intOf _ _ _)
      have hfirst := field_intOf Swift.taking
      constructor
      · rintro ⟨y, ⟨ip4, hip4, ssid, hssid, rfl⟩, ip4', hip4', ssid', hssid', heq⟩
        obtain ⟨-, -, rfl, rfl, hrssi⟩ : _ ∧ _ ∧ ip4' = ip4 ∧ ssid' = ssid ∧ _ := by
          simpa only [WifiStatus.mk.injEq, Option.some.injEq] using heq
        refine ⟨(same_entry_iff plain_bytesValue entries _).mp ⟨_, hip4, hip4'⟩,
          (same_entry_iff plain_bytesValue entries _).mp ⟨_, hssid, hssid'⟩, ?_⟩
        exact (hlast.symm.trans hrssi.symm).trans (hfirst _ _)
      · rintro ⟨hip4, hssid, hsame⟩
        obtain ⟨ip4, hip4, hip4'⟩ := (same_entry_iff plain_bytesValue entries _).mpr hip4
        obtain ⟨ssid, hssid, hssid'⟩ := (same_entry_iff plain_bytesValue entries _).mpr hssid
        have hrssi := (hfirst _ "rssi").trans (hsame.symm.trans hlast.symm)
        exact ⟨_, ⟨ip4, hip4, ssid, hssid, rfl⟩, ip4, hip4', ssid, hssid', by rw [hrssi]⟩
    | _ => exact ⟨fun ⟨_, h, _⟩ => h.elim, False.elim⟩

lemma statusEntry_linked (c : Taking) (p q : CborValue × CborValue) (h : LinkedEntry p q) :
    c.statusEntry q = c.statusEntry p := by
  rw [Taking.statusEntry, Taking.statusEntry, plain_textValue _ _ h.key, plain_intOf c _ _ h.value]

lemma status_settled_iff {kvs kvs' : List (CborValue × CborValue)}
    (h : List.Forall₂ LinkedEntry kvs kvs') :
    (∃ entries entries', (ClientReader.Kotlin.linked kvs').mapM (Kotlin.taking t).statusEntry =
      some entries ∧ kvs.mapM Swift.taking.statusEntry = some entries' ∧
      associate entries = associate entries') ↔ StatusSettled t kvs := by
  have hlinked : (ClientReader.Kotlin.linked kvs').mapM (Kotlin.taking t).statusEntry =
      (ClientReader.Kotlin.linked kvs).mapM (Kotlin.taking t).statusEntry :=
    mapM_linked (statusEntry_linked (Kotlin.taking t)) (foldl_put_linked .nil h)
  rw [hlinked]
  constructor
  · rintro ⟨entries, entries', hkotlin, hswift, heq⟩
    refine ⟨exists_mapM_iff.mp ⟨_, hswift⟩, exists_mapM_iff.mp ⟨_, hkotlin⟩, fun kind n => ?_⟩
    rw [← associate_eq_some_iff hkotlin, ← associate_eq_some_iff hswift, heq]
  · intro hsettled
    obtain ⟨entries, hkotlin⟩ := exists_mapM_iff.mpr hsettled.kotlin
    obtain ⟨entries', hswift⟩ := exists_mapM_iff.mpr hsettled.swift
    refine ⟨entries, entries', hkotlin, hswift, funext fun kind => Option.ext fun n => ?_⟩
    rw [associate_eq_some_iff hkotlin, associate_eq_some_iff hswift]
    exact hsettled.last kind n

lemma getElem?_linked {xs ys : List CborValue} (h : List.Forall₂ Linked xs ys) (i : Nat) :
    Option.Rel Linked xs[i]? ys[i]? := by
  induction h generalizing i with
  | nil => exact .none
  | cons hx _ ih =>
    cases i with
    | zero => exact .some hx
    | succ i => exact ih i

lemma element_linked {xs ys : List CborValue} (h : List.Forall₂ Linked xs ys) {i : Nat}
    {v : CborValue} (hv : xs[i]? = some v) : ∃ k, ys[i]? = some k ∧ Linked v k := by
  have hrel := getElem?_linked h i
  rw [hv] at hrel
  generalize ys[i]? = o at hrel ⊢
  cases hrel with
  | some hlinked => exact ⟨_, rfl, hlinked⟩

lemma forall₂_settled_iff {es ks : List CborValue} (h : List.Forall₂ Linked es ks) :
    (∃ ys,
      List.Forall₂ (fun e y => ∃ kvs, e = .map kvs ∧ EntryYields (Kotlin.taking t) kvs y) ks ys ∧
      List.Forall₂ (fun e y => ∃ kvs, e = .map kvs ∧ EntryYields Swift.taking kvs y) es ys) ↔
    ∀ e ∈ es, ∃ kvs, e = .map kvs ∧ EntrySettled kvs := by
  induction h with
  | nil => exact ⟨fun _ _ h => absurd h List.not_mem_nil, fun _ => ⟨[], .nil, .nil⟩⟩
  | cons hlinked _ ih =>
    rw [List.forall_mem_cons, ← ih]
    constructor
    · rintro ⟨ys, hks, hes⟩
      obtain ⟨y, ys', ⟨ks, rfl, hkotlin⟩, hks', rfl⟩ := List.forall₂_cons_left_iff.mp hks
      obtain ⟨⟨kvs, rfl, hswift⟩, hes'⟩ := List.forall₂_cons.mp hes
      cases hlinked with
      | map entries =>
        exact ⟨⟨kvs, rfl, (entry_settled_iff entries).mp ⟨_, hkotlin, hswift⟩⟩, _, hks', hes'⟩
    · rintro ⟨⟨kvs, rfl, hsettled⟩, ys, hks, hes⟩
      cases hlinked with
      | map entries =>
        obtain ⟨y, hkotlin, hswift⟩ := (entry_settled_iff (t := t) entries).mpr hsettled
        exact ⟨y :: ys, .cons ⟨_, rfl, hkotlin⟩ hks, .cons ⟨_, rfl, hswift⟩ hes⟩

/-- One element, which both clients take from values of one shape. -/
lemma element_settled_iff {α γ : Type} {shape : α → CborValue} (injective : shape.Injective)
    {P Q : α → γ → Prop} {S : α → Prop} (settled : ∀ a k, Linked (shape a) k →
      ∃ b, k = shape b ∧ ((∃ y, P b y ∧ Q a y) ↔ S a))
    {xs ys : List CborValue} (h : List.Forall₂ Linked xs ys) (i : Nat) :
    (∃ y, (∃ b, ys[i]? = some (shape b) ∧ P b y) ∧ ∃ a, xs[i]? = some (shape a) ∧ Q a y) ↔
      ∃ a, xs[i]? = some (shape a) ∧ S a := by
  constructor
  · rintro ⟨y, ⟨b, hb, hkotlin⟩, a, ha, hswift⟩
    obtain ⟨k, hk, hlinked⟩ := element_linked h ha
    obtain ⟨b', rfl, hsettled⟩ := settled a k hlinked
    obtain rfl := injective (Option.some.inj (hb.symm.trans hk))
    exact ⟨a, ha, hsettled.mp ⟨y, hkotlin, hswift⟩⟩
  · rintro ⟨a, ha, hS⟩
    obtain ⟨k, hk, hlinked⟩ := element_linked h ha
    obtain ⟨b, rfl, hsettled⟩ := settled a k hlinked
    obtain ⟨y, hkotlin, hswift⟩ := hsettled.mpr hS
    exact ⟨y, ⟨b, hk, hkotlin⟩, a, ha, hswift⟩

lemma behind_settled_iff (d : Decoder) {rest rest' : List CborValue}
    (h : List.Forall₂ Linked rest rest') :
    (∃ y, Yields (Kotlin.taking t) d rest' y ∧ Yields Swift.taking d rest y) ↔
      SettledBehind t d rest := by
  cases d with
  | ver =>
    refine element_settled_iff (fun _ _ => CborValue.map.inj) (fun kvs k hlinked => ?_) h 0
    cases hlinked with
    | map entries => exact ⟨_, rfl, info_settled_iff entries⟩
  | authChallenge =>
    constructor
    · rintro ⟨⟨nonce, proof⟩, -, hnonce, hproof, hsizes⟩
      exact ⟨nonce, proof, hnonce, hproof, hsizes⟩
    · rintro ⟨nonce, proof, hnonce, hproof, hsizes⟩
      obtain ⟨_, hnonce', ⟨⟩⟩ := element_linked h hnonce
      obtain ⟨_, hproof', ⟨⟩⟩ := element_linked h hproof
      exact ⟨(nonce, proof), ⟨hnonce', hproof', hsizes⟩, hnonce, hproof, hsizes⟩
  | configStatus =>
    simp only [Yields, ConfigYields, exists_and_left]
    refine element_settled_iff (fun _ _ => CborValue.int.inj) (fun code k hlinked => ?_) h 0
    cases hlinked with
    | int =>
      refine ⟨code, rfl, ?_, ?_⟩
      · rintro ⟨y, ⟨state', hstate', hkotlin⟩, state, hstate, hswift⟩
        have hknown := Option.isSome_iff_exists.mpr ⟨state, hstate⟩
        rw [kotlin_staState hknown] at hstate'
        obtain rfl := Option.some.inj (hstate.symm.trans hstate')
        exact ⟨hknown, (detail_settled_iff (getElem?_linked h 1)).mp ⟨y, hkotlin, hswift⟩⟩
      · rintro ⟨hknown, hdetail⟩
        obtain ⟨state, hstate⟩ := Option.isSome_iff_exists.mp hknown
        obtain ⟨y, hkotlin, hswift⟩ : ∃ y, DetailYields (Kotlin.taking t) state rest'[1]? y ∧
            DetailYields Swift.taking state rest[1]? y :=
          (detail_settled_iff (getElem?_linked h 1)).mpr hdetail
        exact ⟨y, ⟨state, (kotlin_staState hknown).trans hstate, hkotlin⟩, state, hstate, hswift⟩
  | scanStatus =>
    constructor
    · rintro ⟨⟨finished, n⟩, ⟨total', -, htotal', hn'⟩, total, hfinished, htotal, hn⟩
      obtain ⟨_, hk, ⟨⟩⟩ := element_linked h htotal
      obtain rfl := CborValue.int.inj (Option.some.inj (hk.symm.trans htotal'))
      exact ⟨finished, total, hfinished, htotal, hn'.trans hn.symm⟩
    · rintro ⟨finished, total, hfinished, htotal, hnarrow⟩
      obtain ⟨_, hfinished', ⟨⟩⟩ := element_linked h hfinished
      obtain ⟨_, htotal', ⟨⟩⟩ := element_linked h htotal
      exact ⟨(finished, total.toInt), ⟨total, hfinished', htotal', hnarrow⟩,
        total, hfinished, htotal, rfl⟩
  | scanResults =>
    refine element_settled_iff (fun _ _ => CborValue.array.inj) (fun es k hlinked => ?_) h 0
    cases hlinked with
    | array items => exact ⟨_, rfl, forall₂_settled_iff items⟩
  | credWrite =>
    refine element_settled_iff (fun _ _ => CborValue.int.inj) (fun received k hlinked => ?_) h 0
    cases hlinked with
    | int =>
      refine ⟨received, rfl, ?_, fun hnarrow => ⟨received.toInt, hnarrow, rfl⟩⟩
      rintro ⟨n, hkotlin, hswift⟩
      exact hkotlin.trans hswift.symm
  | credStatus =>
    simp only [Yields, CredStatusYields, exists_and_left]
    refine element_settled_iff (fun _ _ => CborValue.map.inj) (fun kvs k hlinked => ?_) h 0
    cases hlinked with
    | map entries =>
      refine ⟨_, rfl, ?_⟩
      rw [← status_settled_iff entries]
      constructor
      · rintro ⟨y, ⟨es, hkotlin, rfl⟩, es', hswift, heq⟩
        exact ⟨es, es', hkotlin, hswift, heq.symm⟩
      · rintro ⟨es, es', hkotlin, hswift, heq⟩
        exact ⟨_, ⟨es, hkotlin, rfl⟩, es', hswift, heq.symm⟩
  | authProof | configSet | configApply | scanStart | credFinalize | ctrl =>
    exact ⟨fun _ => trivial, fun _ => ⟨(), trivial, trivial⟩⟩

lemma Decoder.op_lt (d : Decoder) : d.op < 2 ^ 31 := by
  cases d with
  | ctrl op => cases op <;> decide
  | _ => decide

/-- The apps make the same of a response that both read exactly when it is settled. -/
lemma means_both_iff (d : Decoder) {v k : CborValue} (h : Linked v k) :
    (∃ y, Means (Kotlin.taking t) d k y ∧ Means Swift.taking d v y) ↔ Settled t d v := by
  constructor
  · rintro ⟨y, ⟨o', s', rest', rfl, -, -, hkotlin⟩, o, s, rest, rfl, ho, hs, hswift⟩
    cases h with
    | array items =>
      obtain ⟨_, items⟩ := List.forall₂_cons.mp items
      obtain ⟨_, items⟩ := List.forall₂_cons.mp items
      exact ⟨o, s, rest, rfl, ho, hs, (behind_settled_iff d items).mp ⟨y, hkotlin, hswift⟩⟩
  · rintro ⟨o, s, rest, rfl, ho, hs, hsettled⟩
    cases h with
    | array items =>
      cases items with
      | cons hop items =>
        cases items with
        | cons hstatus items =>
          cases hop
          cases hstatus
          obtain ⟨y, hkotlin, hswift⟩ := (behind_settled_iff d items).mpr hsettled
          have hsmall := d.op_lt
          exact ⟨y, ⟨o, s, _, rfl, narrow_of_toInt ho (by omega) (by omega),
            narrow_of_toInt hs (by omega) (by omega), hkotlin⟩, o, s, rest, rfl, ho, hs, hswift⟩

end Settled

/-- By the rules of an app's reader, the bytes are a response that its decoder makes something
of. -/
def Legible (r : Rules String) (c : Taking) (d : Decoder) (data : Bytes) : Prop :=
  ∃ v rest y, Reads r data v rest ∧ Means c d v y

lemma Kotlin.legible_iff {t : Texts} {d : Decoder} {data : Bytes} :
    Legible (ClientReader.Kotlin.rules t) (taking t) d data ↔ ∃ y, decodeRsp t data d = .ok y := by
  simp only [Legible, decodeRsp_ok_iff, decode_ok_iff]
  grind

lemma Swift.legible_iff {t : Texts} {d : Decoder} {data : Bytes} :
    Legible (ClientReader.Swift.rules t) taking d data ↔ ∃ y, decodeRsp t data d = .ok y := by
  simp only [Legible, decodeRsp_ok_iff, decode_ok_iff]
  grind

/-- Both apps return the same exactly for what the Swift app reads as a settled response. -/
lemma both_ok_iff {t : Texts} (same : SameTexts t) {d : Decoder} {data : Bytes}
    (short : data.length < 2 ^ 31) :
    (∃ y, Kotlin.decodeRsp t data d = .ok y ∧ Swift.decodeRsp t data d = .ok y) ↔
      ∃ v rest, Reads (ClientReader.Swift.rules t) data v rest ∧ Settled t d v := by
  simp only [Kotlin.decodeRsp_ok_iff, Swift.decodeRsp_ok_iff]
  constructor
  · rintro ⟨y, ⟨k, hk, hkotlin⟩, v, hv, hswift⟩
    obtain ⟨k', hk', hlinked⟩ := decode_linked same short hv
    obtain rfl := Except.ok.inj (hk.symm.trans hk')
    obtain ⟨rest, hreads⟩ := reads_of_decode hv
    exact ⟨v, rest, hreads, (means_both_iff d hlinked).mp ⟨y, hkotlin, hswift⟩⟩
  · rintro ⟨v, rest, hreads, hsettled⟩
    have hv := decode_ok_iff.mpr ⟨rest, hreads⟩
    obtain ⟨k, hk, hlinked⟩ := decode_linked same short hv
    obtain ⟨y, hkotlin, hswift⟩ := (means_both_iff d hlinked).mpr hsettled
    exact ⟨y, ⟨k, hk, hkotlin⟩, v, hv, hswift⟩

lemma toOption_eq_iff {ε ε' α : Type} {x : Except ε α} {y : Except ε' α} :
    x.toOption = y.toOption ↔
      ((∃ a, x = .ok a) ∨ (∃ a, y = .ok a) → ∃ a, x = .ok a ∧ y = .ok a) := by
  cases x <;> cases y <;> simp [eq_comm]

theorem responses_agree_iff (t : Texts) (same : SameTexts t) (d : Decoder) (data : Bytes)
    (short : data.length < 2 ^ 31) :
    ((Kotlin.decodeRsp t data d).toOption = (Swift.decodeRsp t data d).toOption ∧
      ∀ y, Kotlin.decodeRsp t data d = .ok y → Succeeds data d.op) ↔
    (Legible (ClientReader.Kotlin.rules t) (Kotlin.taking t) d data ∨
        Legible (ClientReader.Swift.rules t) Swift.taking d data →
      ∃ v rest, Reads (ClientReader.Swift.rules t) data v rest ∧ Settled t d v) := by
  rw [Kotlin.legible_iff, Swift.legible_iff, ← both_ok_iff same short, ← toOption_eq_iff,
    and_iff_left_iff_imp]
  intro heq y hkotlin
  have hswift : Swift.decodeRsp t data d = .ok y := by
    rw [eq_ok_iff, ← heq, hkotlin]
    rfl
  obtain ⟨context, msg, hmsg⟩ := Swift.responded hswift
  exact decodeResponse_succeeds hmsg

/-- An auth proof response with a number of `2 ^ 31` behind the status. -/
def wideElement : Bytes := [0x83, 0x01, 0x00, 0x1a, 0x80, 0, 0, 0]

lemma sameTexts_referenceTexts : SameTexts referenceTexts := fun b s h => by
  have hdecoded : utf8Decode b = some s := h
  simp only [referenceTexts, hdecoded, Option.getD_some]

/-- The number is not used, and its width does not matter. -/
theorem responses_agree_wideElement :
    SameTexts referenceTexts ∧ wideElement.length < 2 ^ 31 ∧
    (Kotlin.decodeRsp referenceTexts wideElement .authProof).toOption =
      (Swift.decodeRsp referenceTexts wideElement .authProof).toOption ∧
    Settled referenceTexts .authProof (.array [.int 1, .int 0, .int (2 ^ 31)]) := by
  have hsettled : Settled referenceTexts .authProof (.array [.int 1, .int 0, .int (2 ^ 31)]) :=
    ⟨1, 0, [.int (2 ^ 31)], rfl, rfl, rfl, trivial⟩
  have hdecode : ClientReader.decode (ClientReader.Swift.rules referenceTexts) wideElement =
      .ok (.array [.int 1, .int 0, .int (2 ^ 31)]) := rfl
  obtain ⟨rest, hreads⟩ := decode_ok_iff.mp hdecode
  have hiff := responses_agree_iff referenceTexts sameTexts_referenceTexts .authProof wideElement
    (by decide)
  exact ⟨sameTexts_referenceTexts, by decide, (hiff.mpr fun _ => ⟨_, rest, hreads, hsettled⟩).1,
    hsettled⟩

/-- An auth proof response with a status of `2 ^ 32`. -/
def wideStatus : Bytes := [0x82, 0x01, 0x1b, 0, 0, 0, 1, 0, 0, 0, 0]

/-- The status is zero once the Kotlin client has narrowed it. -/
theorem wide_status_divides :
    Parses wideStatus (.array [.uint 1, .uint (2 ^ 32)]) [] ∧
    ∀ t, Kotlin.decodeRsp t wideStatus .authProof = .ok () ∧
      Swift.decodeRsp t wideStatus .authProof =
        .error (.decode "unknown status 4294967296") :=
  ⟨(read_sound 4).1 _ _ _ rfl, fun _ => ⟨rfl, rfl⟩⟩

end ClientResponses
