import PouchProv.ResponseValues

/-!
# Responses from the device to the clients

What the decoders of the three clients make of the responses that the handlers of
the device encode. A response with the status ok is read as what it is
(`device_responses_read`); with any other status it is refused with the status
that the device sent.

Numbers of the device are unsigned or signed integers of 32 bits. The Kotlin
client narrows what it reads to 32 bits with a sign, so that numbers are compared
through `Holds` of the scan flow.
-/

namespace DeviceResponses

open Bytes Cbor Codec Status ProvTypes Handlers ClientReader
open Clients (CborValue Python utf8Decode_utf8)
open CborRoundTrip (Decodes Keyed PairsKeyed inTurn decode_encode kotlin_takes swift_takes)
open ClientCbor (item items pairItems)
open ClientRequests (kindCode)
open ClientResponses (Decoder Dicts Refusal Taking VersionInfo WifiStatus Yields InfoYields
  DetailYields CredStatusYields checkResponse parseInt lookup staStateFrom failReasonFrom
  credKindFrom associate)
open CredStore (CredKind)
open ForwardCompat (Client)
open ScanFlow (Number Holds Means AllMean allMean_cons allMean_entry means_text entries_items
  narrow_bmod appEntry results_yield kotlin_reads swift_reads kotlinEntry_shows swiftEntry_shows
  map_shows python_entries)

/-- The texts of a client. -/
def Words : Client → Type
  | .python py _ => py.Obj
  | .kotlin _ => String
  | .swift _ => String

/-- The text is the given one. -/
def Says (s : String) : (c : Client) → Words c → Prop
  | .python _ dicts, x => dicts.text x = some s
  | .kotlin _, x => x = s
  | .swift _, x => x = s

/-- The decoder of the client for the response. -/
def read (data : Bytes) (d : Decoder) : (c : Client) → Option (d.Value (Number c) (Words c))
  | .python py dicts => (ClientResponses.Python.decodeRsp py dicts data d).toOption
  | .kotlin t => (ClientResponses.Kotlin.decodeRsp t data d).toOption
  | .swift t => (ClientResponses.Swift.decodeRsp t data d).toOption

/-- The status of a station, as the device reports it. -/
def ShowsDetail (c : Client) (sta : StaState) (detail : Option ConfigDetail)
    (v : WifiStatus (Number c)) : Prop :=
  v.state = sta ∧
  match detail with
  | none => v.failReason = none ∧ v.ip4 = none ∧ v.ssid = none ∧ v.rssi = none
  | some (.failReason reason) =>
    v.failReason = some reason ∧ v.ip4 = none ∧ v.ssid = none ∧ v.rssi = none
  | some (.connectedInfo ip4 ssid rssi) =>
    v.failReason = none ∧ v.ip4 = some ip4 ∧ v.ssid = some ssid ∧
      match rssi, v.rssi with
      | some rssi, some n => Holds rssi c n
      | none, none => True
      | _, _ => False

/-- The number is the given one, and compares as such. -/
def Counts (n : Nat) : (c : Client) → Number c → Prop
  | .python py _, x => (∀ i, py.equalsInt x i = decide (i = (n : Int))) ∧ py.int x = some (n : Int)
  | .kotlin _, x => x = (n : Int)
  | .swift _, x => x = (n : Int)

/-- The value is the response. -/
def Shows (c : Client) : (r : Response) → r.decoder.Value (Number c) (Words c) → Prop
  | .ver r, (v : VersionInfo _ _) =>
    Counts r.info.proto c v.proto ∧ List.Forall₂ (fun s w => Says s c w) r.info.caps v.caps ∧
      Counts r.info.blk c v.blockSize ∧ Says r.info.lib c v.lib ∧
      v.popRequired = r.info.pop.getD false
  | .auth (.challengeRsp _ devNonce devProof), (v : Bytes × Bytes) => v = (devNonce, devProof)
  | .auth (.proofRsp _), _ => True
  | .config (.statusRsp _ sta detail), v => ShowsDetail c sta detail v
  | .config (.setRsp _), _ => True
  | .config (.applyRsp _), _ => True
  | .scan (.startRsp _), _ => True
  | .scan (.statusRsp _ finished total), (v : Bool × Int) => v = (finished, (total : Int))
  | .scan (.resultsRsp _ entries), v => List.Forall₂ (ScanFlow.Shows c) entries v
  | .cred (.writeRsp _ received), (v : Int) => v = received
  | .cred (.finalizeRsp _), _ => True
  | .cred (.statusRsp _ stored), (v : CredKind → Option Int) =>
    ∀ kind, v kind = (stored.lookup (keyName kind)).map fun n : Nat => (n : Int)
  | .ctrl _ _, _ => True
  | .bare _ _, _ => False

/-- `cbor2` reads the responses as what they are: the reason of a failure is an `int`, and the
keys of a status map are texts that `int` takes. -/
structure PythonReads {py : Python} (dicts : Dicts py) : Prop where
  reads : ∀ (r : Response) (x : Item), InRange r → r.encoded = some x →
    (encode x).length ≤ msgMax → ∃ o n, py.loads (encode x) = some (o, n) ∧ Means dicts x o
  reason : ∀ status sta reason x o n os d,
    encodeConfigRsp (.statusRsp status sta (some (.failReason reason))) = some x →
    py.loads (encode x) = some (o, n) → py.list o = some os → os[3]? = some d →
    dicts.isInt d = true
  kind : ∀ kind o, dicts.text o = some (keyName kind) → py.int o = some (kindCode kind : Int)

/-- The CBOR reader of the client reads what it should, and Kotlin knows the digits. -/
def ReadsResponses : Client → Prop
  | .python _ dicts => PythonReads dicts
  | .kotlin t => Decodes t ∧ ∀ kind, parseInt t.digit (keyName kind) = some (kindCode kind : Int)
  | .swift t => Decodes t

section Apps

variable {t : Texts} {c : Taking}

lemma kind_code (kind : CredKind) : credKindFrom (kindCode kind) = some kind := by
  cases kind <;> rfl

lemma sta_code (sta : StaState) : staStateFrom (staCode sta) = some sta := by
  cases sta <;> rfl

lemma reason_code (reason : FailReason) : failReasonFrom (reasonCode reason) = some reason := by
  cases reason <;> rfl

lemma texts_yield (caps : List String) :
    ClientResponses.textsValue (.array (caps.map .text)) = some caps := by
  refine ClientResponses.mapM_eq_some_iff.mpr ?_
  rw [List.forall₂_map_left_iff, List.forall₂_same]
  exact fun _ _ => rfl

lemma info_yields (keeps : c.KeepsSmall) {v : VerInfo} (proto : v.proto < 2 ^ 31)
    (blk : v.blk < 2 ^ 31) :
    InfoYields c (infoEntries v) ⟨v.proto, v.caps, v.blk, v.lib, v.pop.getD false⟩ := by
  obtain ⟨hproto, hcaps, hblk, hlib, hpop⟩ := info_lookup v
  constructor
  · rw [ClientResponses.field, hproto]
    exact congrArg some (keeps _ proto)
  · rw [ClientResponses.field, hcaps]
    exact texts_yield v.caps
  · rw [ClientResponses.field, hblk]
    exact congrArg some (keeps _ blk)
  · rw [ClientResponses.field, hlib]
    rfl
  · rw [ClientResponses.field, hpop]
    cases v.pop <;> rfl

lemma reason_yields (keeps : c.KeepsSmall) (sta : StaState) (reason : FailReason) :
    DetailYields c sta (some (detailValue (.failReason reason)))
      ⟨sta, some reason, none, none, none⟩ := by
  refine ⟨reason, ?_, rfl⟩
  rw [keeps _ (reason_small reason), reason_code]

lemma connected_yields (sta : StaState) (ip4 ssid : Bytes) (rssi : Option Int) :
    DetailYields c sta (some (detailValue (.connectedInfo ip4 ssid rssi)))
      ⟨sta, none, some ip4, some ssid, rssi.map fun i => c.number (Int64.ofInt i)⟩ := by
  obtain ⟨hip4, hssid, hrssi⟩ := connected_lookup ip4 ssid rssi
  rw [detailValue, DetailYields]
  simp only [ClientResponses.field, hip4, hssid, hrssi]
  refine ⟨ip4, rfl, ssid, rfl, ?_⟩
  cases rssi <;> rfl

lemma kinds_yield (keeps : c.KeepsSmall) (names : ∀ kind, c.kind (keyName kind) = some kind)
    {kinds : List (CredKind × Nat)} (small : ∀ k ∈ kinds, k.2 < 2 ^ 31) :
    CredStatusYields c [.map (kinds.map fun k => (.text (keyName k.1), num k.2))]
      (associate (kinds.map fun k => (k.1, (k.2 : Int)))) := by
  refine ⟨_, _, rfl, ClientResponses.mapM_eq_some_iff.mpr ?_, rfl⟩
  rw [List.forall₂_map_left_iff, List.forall₂_map_right_iff, List.forall₂_same]
  intro k hk
  have hnumber : c.intOf (num k.2) = some (k.2 : Int) := congrArg some (keeps _ (small k hk))
  simp only [Taking.statusEntry, ClientResponses.textValue, Option.bind_some, names, hnumber,
    Option.map_some]

lemma kotlin_kind (digits : ∀ kind, parseInt t.digit (keyName kind) = some (kindCode kind : Int))
    (kind : CredKind) : (ClientResponses.Kotlin.taking t).kind (keyName kind) = some kind := by
  have hcode : ClientResponses.Kotlin.stringToInt t (keyName kind) = .ok (kindCode kind : Int) := by
    rw [ClientResponses.Kotlin.stringToInt, digits kind]
    cases kind <;> rfl
  simp only [ClientResponses.Kotlin.taking, hcode]
  exact kind_code kind

lemma swift_kind (kind : CredKind) :
    ClientResponses.Swift.taking.kind (keyName kind) = some kind := by
  cases kind <;> decide +kernel

/-- No kind is there twice, so that it does not matter which entry for it counts. -/
lemma associate_kinds {kinds : List (CredKind × Nat)} (nodup : (kinds.map Prod.fst).Nodup)
    {stored : List (String × Nat)} (hstored : stored = kinds.map fun k => (keyName k.1, k.2))
    (kind : CredKind) :
    associate (kinds.map fun k => (k.1, (k.2 : Int))) kind =
      (stored.lookup (keyName kind)).map fun n : Nat => (n : Int) := by
  rw [associate]
  induction kinds generalizing stored with
  | nil =>
    subst hstored
    rfl
  | cons k kinds ih =>
    obtain ⟨hnew, hrest⟩ := List.nodup_cons.mp nodup
    rw [List.map_cons] at hstored
    rw [List.map_cons, List.reverse_cons, List.lookup_append, ih hrest rfl, hstored]
    by_cases hkind : kind = k.1
    · subst hkind
      have hnone : (kinds.map fun k => (keyName k.1, k.2)).lookup (keyName k.1) = none := by
        rw [List.lookup_eq_none_iff]
        intro kv hkv
        obtain ⟨k', hk', rfl⟩ := List.mem_map.mp hkv
        have hne : keyName k.1 ≠ keyName k'.1 := fun h =>
          hnew (keyName_inj h ▸ List.mem_map_of_mem hk')
        simpa using hne
      rw [hnone, List.lookup_cons_self, List.lookup_cons_self]
      rfl
    · have hkey : keyName kind ≠ keyName k.1 := fun h => hkind (keyName_inj h)
      have hfirst : ∀ n : Int, [(k.1, n)].lookup kind = none := by
        intro n
        rw [List.lookup_cons, beq_false_of_ne hkind]
        rfl
      rw [hfirst, Option.or_none, List.lookup_cons, beq_false_of_ne hkey]

lemma value_means (keeps : c.KeepsSmall) {r : Response} (ok : r.status = .ok)
    {y : r.decoder.Value Int String} (h : Yields c r.decoder r.body y) :
    ClientResponses.Means c r.decoder r.value y := by
  refine ⟨_, _, r.body, rfl, keeps _ (small_op r), ?_, h⟩
  rw [ok]
  exact keeps _ (show 0 < 2 ^ 31 by decide)

/-- Behind the head of a response with the status ok both apps find what the device meant. -/
theorem body_yields {r : Response} (inRange : InRange r) (hx : r.encoded = some (item r.value))
    (ok : r.status = .ok) :
    ((∀ kind, parseInt t.digit (keyName kind) = some (kindCode kind : Int)) →
      ∃ y, Yields (ClientResponses.Kotlin.taking t) r.decoder r.body y ∧ Shows (.kotlin t) r y) ∧
    ∃ y, Yields ClientResponses.Swift.taking r.decoder r.body y ∧ Shows (.swift t) r y := by
  have hkotlin := ClientResponses.Kotlin.keepsSmall t
  have hswift := ClientResponses.Swift.keepsSmall
  cases r with
  | ver r =>
    have hcaps : List.Forall₂ (fun s w => w = s) r.info.caps r.info.caps :=
      List.forall₂_same.mpr fun _ _ => rfl
    exact ⟨fun _ =>
      ⟨_, ⟨_, rfl, info_yields hkotlin inRange.1 inRange.2⟩, rfl, hcaps, rfl, rfl, rfl⟩,
      _, ⟨_, rfl, info_yields hswift inRange.1 inRange.2⟩, rfl, hcaps, rfl, rfl, rfl⟩
  | auth r =>
    cases r with
    | challengeRsp status devNonce devProof =>
      obtain ⟨hlengths, -⟩ := Option.ite_none_right_eq_some.mp hx
      exact ⟨fun _ => ⟨(devNonce, devProof), ⟨rfl, rfl, hlengths⟩, rfl⟩,
        (devNonce, devProof), ⟨rfl, rfl, hlengths⟩, rfl⟩
    | proofRsp status => exact ⟨fun _ => ⟨(), trivial, trivial⟩, (), trivial, trivial⟩
  | config r =>
    cases r with
    | statusRsp status sta detail =>
      have hsta : ∀ {c : Taking}, c.KeepsSmall →
          staStateFrom (c.number (Int64.ofNat (staCode sta))) = some sta := fun keeps => by
        rw [keeps _ (sta_small sta), sta_code]
      cases detail with
      | none =>
        exact ⟨fun _ => ⟨_, ⟨_, sta, rfl, hsta hkotlin, rfl⟩, rfl, rfl, rfl, rfl, rfl⟩,
          _, ⟨_, sta, rfl, hsta hswift, rfl⟩, rfl, rfl, rfl, rfl, rfl⟩
      | some detail =>
        cases detail with
        | failReason reason =>
          exact ⟨fun _ => ⟨_, ⟨_, sta, rfl, hsta hkotlin, reason_yields hkotlin sta reason⟩,
            rfl, rfl, rfl, rfl, rfl⟩,
            _, ⟨_, sta, rfl, hsta hswift, reason_yields hswift sta reason⟩, rfl, rfl, rfl, rfl, rfl⟩
        | connectedInfo ip4 ssid rssi =>
          refine ⟨fun _ => ⟨_, ⟨_, sta, rfl, hsta hkotlin, connected_yields sta ip4 ssid rssi⟩,
            rfl, rfl, rfl, rfl, ?_⟩,
            _, ⟨_, sta, rfl, hsta hswift, connected_yields sta ip4 ssid rssi⟩,
            rfl, rfl, rfl, rfl, ?_⟩
          · cases rssi with
            | none => trivial
            | some rssi =>
              exact (narrow_bmod _).trans (congrArg (Int.bmod · (2 ^ 32))
                (i32_item inRange.1 inRange.2).1)
          · cases rssi with
            | none => trivial
            | some rssi => exact (i32_item inRange.1 inRange.2).1
    | setRsp | applyRsp => exact ⟨fun _ => ⟨(), trivial, trivial⟩, (), trivial, trivial⟩
  | scan r =>
    cases r with
    | startRsp status => exact ⟨fun _ => ⟨(), trivial, trivial⟩, (), trivial, trivial⟩
    | statusRsp status finished total =>
      exact ⟨fun _ => ⟨(finished, (total : Int)), ⟨_, rfl, rfl, hkotlin _ inRange⟩, rfl⟩,
        (finished, (total : Int)), ⟨_, rfl, rfl, hswift _ inRange⟩, rfl⟩
    | resultsRsp status entries =>
      exact ⟨fun _ =>
        ⟨_, results_yield _ entries, map_shows (c := .kotlin t) kotlinEntry_shows inRange⟩,
        _, results_yield _ entries, map_shows (c := .swift t) swiftEntry_shows inRange⟩
  | cred r =>
    cases r with
    | writeRsp status received =>
      exact ⟨fun _ => ⟨(received : Int), ⟨_, rfl, hkotlin _ inRange⟩, rfl⟩,
        (received : Int), ⟨_, rfl, hswift _ inRange⟩, rfl⟩
    | finalizeRsp status => exact ⟨fun _ => ⟨(), trivial, trivial⟩, (), trivial, trivial⟩
    | statusRsp status stored =>
      obtain ⟨kinds, rfl, hnodup, hsmall⟩ := inRange
      have hshows := associate_kinds hnodup rfl
      rw [Response.body, List.map_map]
      exact ⟨fun digits => ⟨_, kinds_yield hkotlin (kotlin_kind digits) hsmall, hshows⟩,
        _, kinds_yield hswift swift_kind hsmall, hshows⟩
  | ctrl op status => exact ⟨fun _ => ⟨(), trivial, trivial⟩, (), trivial, trivial⟩
  | bare d status => exact absurd ok inRange

/-- The check of the head stops every status but ok. -/
lemma checkResponse_refused {opValue : CborValue → Option Int}
    {statusValue : CborValue → Except Refusal Int} {r : Response} (failed : r.status ≠ .ok)
    (context : String) (op : opValue (num r.decoder.op) = some (r.decoder.op : Int))
    (code : statusValue (num r.status.code) = .ok (r.status.code : Int)) :
    checkResponse opValue statusValue r.decoder.op context r.value =
      .error (.prov r.status context) := by
  simp only [Response.value, checkResponse, op, code, ClientResponses.known, ne_eq, not_true,
    if_false]
  cases hstatus : r.status <;> first | rfl | exact absurd hstatus failed

theorem kotlin_refuses (decodes : Decodes t) {r : Response} (inRange : InRange r)
    (failed : r.status ≠ .ok) (short : (encode (item r.value)).length < 2 ^ 31) :
    ClientResponses.Kotlin.decodeRsp t (encode (item r.value)) r.decoder =
      .error (.prov r.status r.decoder.context) := by
  apply ClientResponses.Kotlin.decodeRsp_error
  rw [ClientResponses.Kotlin.decode,
    decode_encode (kotlin_takes decodes) (value_keyed inRange) short]
  exact checkResponse_refused failed _
    (congrArg some (ClientResponses.Kotlin.keepsSmall t _ (small_op r)))
    (congrArg Except.ok (ClientResponses.Kotlin.keepsSmall t _ (small_status r)))

theorem swift_refuses (decodes : Decodes t) {r : Response} (inRange : InRange r)
    (failed : r.status ≠ .ok) (short : (encode (item r.value)).length < 2 ^ 31) :
    ClientResponses.Swift.decodeRsp t (encode (item r.value)) r.decoder =
      .error (.prov r.status r.decoder.context) := by
  apply ClientResponses.Swift.decodeRsp_error
  rw [ClientResponses.Swift.decodeResponse,
    decode_encode (swift_takes decodes) (value_keyed inRange) short]
  exact checkResponse_refused failed _
    (congrArg some (ClientResponses.Swift.keepsSmall _ (small_op r)))
    (congrArg (ClientResponses.Swift.demand _ ∘ some)
      (ClientResponses.Swift.keepsSmall _ (small_status r)))

end Apps

section Python

open ClientResponses (read_bind)
open ClientResponses.Python (attempt attempt_some attempt_bind enumValue enumValue_eq getItem
  configDetail statusEntry)

variable {py : Python} {dicts : Dicts py}

lemma means_num {n : Nat} (fits : n < 2 ^ 31) {o : py.Obj} (means : Means dicts (item (num n)) o) :
    (∀ i, py.equalsInt o i = decide (i = (n : Int))) ∧ py.int o = some (n : Int) := by
  rw [item_num fits] at means
  exact means

lemma means_rssi {i : Int} (low : -2 ^ 31 ≤ i) (high : i < 2 ^ 31) {o : py.Obj}
    (means : Means dicts (item (.int (Int64.ofInt i))) o) : py.int o = some i := by
  rw [item, (i32_item low high).1] at means
  split at means
  · rename_i hpos
    rw [means.2, Int.toNat_of_nonneg hpos]
  · rename_i hneg
    have hint : py.int o = _ := means
    rw [hint]
    congr 1
    omega

lemma means_bool {b : Bool} {o : py.Obj} (means : Means dicts (item (.bool b)) o) :
    py.truthy o = b := by
  cases b with
  | false => exact means.1 rfl
  | true => exact means.2 rfl

lemma any_truthy {flag : Option Bool} {found : Option py.Obj}
    (means : Option.Rel (fun v o => Means dicts (item v) o) (flag.map .bool) found) :
    found.any py.truthy = flag.getD false := by
  cases flag with
  | none =>
    cases means with
    | none => rfl
  | some b =>
    cases means with
    | some htruth => exact means_bool htruth

lemma find_means {kvs : List (CborValue × CborValue)} (keyed : PairsKeyed kvs) (key : String)
    {es : List (py.Obj × py.Obj)} (means : AllMean dicts (pairItems kvs) (inTurn es)) :
    Option.Rel (fun v o => Means dicts (item v) o) (lookup key kvs)
      ((es.find? fun kv => dicts.text kv.1 = some key).map Prod.snd) := by
  induction kvs generalizing es with
  | nil =>
    cases es with
    | nil => exact .none
    | cons e es => exact means.elim
  | cons kv kvs ih =>
    obtain ⟨⟨s, hs⟩, -, hkeyed⟩ := keyed
    obtain ⟨k', v', es, rfl, hk, hv, hall⟩ := allMean_entry means
    rw [hs] at hk
    have htext : dicts.text k' = some s := means_text hk
    by_cases hkey : s = key
    · simp only [lookup, List.find?_cons, hs, htext, hkey, sameKey, beq_self_eq_true, decide_true,
        Option.map_some]
      exact .some hv
    · have hsame : sameKey kv.1 (.text key) = false := by simp [hs, sameKey, hkey]
      simp only [lookup, List.find?_cons, hsame, htext, Option.some.injEq, hkey, decide_false]
      exact ih hkeyed hall

/-- A map of the device is a `dict` with the same entries. -/
lemma get_means {kvs : List (CborValue × CborValue)} (keyed : PairsKeyed kvs) {o : py.Obj}
    (means : Means dicts (item (.map kvs)) o) (key : String) :
    ∃ found, ClientResponses.Python.get py dicts o key = some found ∧
      Option.Rel (fun v o => Means dicts (item v) o) (lookup key kvs) found := by
  obtain ⟨es, hes, hall⟩ := means
  exact ⟨_, congrArg (Option.map _) hes, find_means keyed key hall⟩

lemma getItem_means {kvs : List (CborValue × CborValue)} (keyed : PairsKeyed kvs) {o : py.Obj}
    (means : Means dicts (item (.map kvs)) o) {key : String} {v : CborValue}
    (found : lookup key kvs = some v) :
    ∃ o', getItem py dicts o key = some o' ∧ Means dicts (item v) o' := by
  obtain ⟨o', hget, hrel⟩ := get_means keyed means key
  rw [found] at hrel
  cases hrel with
  | some hmeans => exact ⟨_, congrArg (Option.bind · id) hget, hmeans⟩

lemma caps_mean {caps : List String} {os : List py.Obj}
    (means : AllMean dicts (items (caps.map .text)) os) :
    List.Forall₂ (fun s o => dicts.text o = some s) caps os := by
  induction caps generalizing os with
  | nil =>
    cases os with
    | nil => exact .nil
    | cons o os => exact means.elim
  | cons s caps ih =>
    obtain ⟨o, os, rfl, hfirst, hrest⟩ := allMean_cons means
    exact .cons (means_text hfirst) (ih hrest)

lemma enumValue_sta {sta : StaState} {o : py.Obj}
    (means : Means dicts (item (num (staCode sta))) o) :
    enumValue py staStateFrom 4 o = some sta := by
  rw [enumValue_eq (means_num (sta_small sta) means).1
    (by cases sta <;> decide), sta_code]

lemma enumValue_reason {reason : FailReason} {o : py.Obj}
    (means : Means dicts (item (num (reasonCode reason))) o) :
    enumValue py failReasonFrom 2 o = some reason := by
  rw [enumValue_eq (means_num (reason_small reason) means).1
    (by cases reason <;> decide), reason_code]

lemma python_kinds (kind : ∀ kind o, dicts.text o = some (keyName kind) →
      py.int o = some (kindCode kind : Int)) {kinds : List (CredKind × Nat)}
    (small : ∀ k ∈ kinds, k.2 < 2 ^ 31) {es : List (py.Obj × py.Obj)}
    (means : AllMean dicts (pairItems (kinds.map fun k => (.text (keyName k.1), num k.2)))
      (inTurn es)) :
    es.mapM (statusEntry py) =
      some (kinds.map fun k => (k.1, (k.2 : Int))) := by
  induction kinds generalizing es with
  | nil =>
    cases es with
    | nil => rfl
    | cons e es => exact means.elim
  | cons k kinds ih =>
    obtain ⟨k', v', es, rfl, hk, hv, hall⟩ := allMean_entry means
    have hkind : py.int k' = some (kindCode k.1 : Int) := kind k.1 k' (means_text hk)
    have hlen := (means_num (small k List.mem_cons_self) hv).2
    have hrest := ih (fun k hk => small k (List.mem_cons_of_mem _ hk)) hall
    simp [List.mapM_cons, statusEntry, hkind, hlen, kind_code, hrest]

lemma python_message {r : Response} {data : Bytes} {o : py.Obj} {n : Nat}
    (loads : py.loads data = some (o, n)) (means : Means dicts (item r.value) o) :
    ∃ op status os, py.list o = some (op :: status :: os) ∧ AllMean dicts (items r.body) os ∧
      ∀ context, ClientResponses.Python.decode py data r.decoder.op context =
        if r.status = .ok then .ok (op :: status :: os)
        else .error (.prov r.status context) := by
  obtain ⟨objs, hlist, hall⟩ := means
  obtain ⟨op, objs, rfl, hop, hall⟩ := allMean_cons hall
  obtain ⟨status, os, rfl, hstatus, hall⟩ := allMean_cons hall
  have hop := (means_num (small_op r) hop).1
  have hstatus := (means_num (small_status r) hstatus).1
  exact ⟨op, status, os, hlist, hall,
    ClientResponses.Python.decode_head loads hlist (by simp [hop]) hstatus⟩

lemma python_detail {sta : StaState} {status : ProvStatus} {detail : ConfigDetail}
    (inRange : InRange (.config (.statusRsp status sta (some detail)))) {o : py.Obj}
    (means : Means dicts (item (detailValue detail)) o)
    (isInt : ∀ reason, detail = .failReason reason → dicts.isInt o = true) :
    ∃ v, configDetail py dicts sta (some o) = .ok v ∧
      ShowsDetail (.python py dicts) sta (some detail) v := by
  cases detail with
  | failReason reason =>
    refine ⟨⟨sta, some reason, none, none, none⟩, ?_, rfl, rfl, rfl, rfl, rfl⟩
    simp only [configDetail, isInt reason rfl, if_true,
      attempt_some (enumValue_reason means), ok_bind]
    rfl
  | connectedInfo ip4 ssid rssi =>
    obtain ⟨hip, hssid, hrssi⟩ := connected_lookup ip4 ssid rssi
    have hkeyed := (detail_keyed (.connectedInfo ip4 ssid rssi)).2
    obtain ⟨es, hes, -⟩ := id means
    obtain ⟨o₁, hget₁, hmeans₁⟩ := getItem_means hkeyed means hip
    obtain ⟨o₂, hget₂, hmeans₂⟩ := getItem_means hkeyed means hssid
    obtain ⟨found, hget₃, hrel⟩ := get_means hkeyed means "rssi"
    have hip4 : py.bytes o₁ = some ip4 := hmeans₁
    have hssid : py.bytes o₂ = some ssid := hmeans₂
    refine ⟨⟨sta, none, some ip4, some ssid, found⟩, ?_, rfl, rfl, rfl, rfl, ?_⟩
    · simp only [configDetail, dicts.isInt_dict hes, hes, hget₁, hget₂,
        hget₃, Option.bind_some, hip4, hssid]
      rfl
    · rw [hrssi] at hrel
      cases rssi with
      | none =>
        cases hrel with
        | none => trivial
      | some rssi =>
        cases hrel with
        | some hmeans => exact means_rssi inRange.1 inRange.2 hmeans

lemma python_ver {status : ProvStatus} {v : VerInfo} (inRange : InRange (.ver ⟨status, v⟩))
    {data : Bytes} {op code o : py.Obj} {os : List py.Obj}
    (msg : ClientResponses.Python.decode py data 0 "ver" = .ok (op :: code :: o :: os))
    (means : Means dicts (item (.map (infoEntries v))) o) :
    ∃ info, ClientResponses.Python.decodeVerRsp py dicts data = .ok info ∧
      Shows (.python py dicts) (.ver ⟨status, v⟩) info := by
  obtain ⟨hproto, hcaps, hblk, hlib, hpop⟩ := info_lookup v
  have hkeyed := (info_keyed v).2
  obtain ⟨proto, hget₁, hproto⟩ := getItem_means hkeyed means hproto
  obtain ⟨caps, hget₂, ⟨texts, htexts, hcaps⟩⟩ := getItem_means hkeyed means hcaps
  obtain ⟨blk, hget₃, hblk⟩ := getItem_means hkeyed means hblk
  obtain ⟨lib, hget₄, hlib⟩ := getItem_means hkeyed means hlib
  obtain ⟨pop, hget₅, hrel⟩ := get_means hkeyed means "pop"
  refine ⟨⟨proto, texts, blk, lib, pop.any py.truthy⟩, ?_, means_num inRange.1 hproto,
    caps_mean hcaps, means_num inRange.2 hblk, means_text hlib, ?_⟩
  · refine (read_bind msg _).trans ?_
    simp only [List.getElem?_cons_succ, List.getElem?_cons_zero, attempt, ok_bind, hget₁, hget₂,
      hget₃, hget₄, hget₅, Option.bind_some, dicts.iter_list htexts]
    rfl
  · rw [hpop] at hrel
    exact any_truthy hrel

theorem python_read (reads : PythonReads dicts) {r : Response} (inRange : InRange r)
    (hx : r.encoded = some (item r.value)) (ok : r.status = .ok)
    (short : (encode (item r.value)).length ≤ msgMax) :
    ∃ v, ClientResponses.Python.decodeRsp py dicts (encode (item r.value)) r.decoder = .ok v ∧
      Shows (.python py dicts) r v := by
  obtain ⟨o, n, hloads, hmeans⟩ := reads.reads r _ inRange hx short
  obtain ⟨op, code, os, hlist, hall, hmsg⟩ := python_message hloads hmeans
  simp only [if_pos ok] at hmsg
  cases r with
  | ver r =>
    obtain ⟨info, os, rfl, hinfo, -⟩ := allMean_cons hall
    exact python_ver inRange (hmsg "ver") hinfo
  | auth r =>
    cases r with
    | challengeRsp status devNonce devProof =>
      obtain ⟨hlengths, -⟩ := Option.ite_none_right_eq_some.mp hx
      obtain ⟨nonce, os, rfl, hnonce, hall⟩ := allMean_cons hall
      obtain ⟨proof, os, rfl, hproof, -⟩ := allMean_cons hall
      have hnonce : py.bytes nonce = some devNonce := hnonce
      have hproof : py.bytes proof = some devProof := hproof
      refine ⟨(devNonce, devProof), (read_bind (hmsg "auth") _).trans ?_, rfl⟩
      refine (attempt_bind hnonce _).trans ((attempt_bind hproof _).trans ?_)
      exact if_neg (by simp [hlengths])
    | proofRsp status => exact ⟨(), read_bind (hmsg "auth") _, trivial⟩
  | config r =>
    cases r with
    | statusRsp status sta detail =>
      cases detail with
      | none =>
        obtain ⟨state, os, rfl, hstate, hall⟩ := allMean_cons hall
        cases os with
        | cons o os => exact hall.elim
        | nil =>
          refine ⟨⟨sta, none, none, none, none⟩, ?_, rfl, rfl, rfl, rfl, rfl⟩
          exact (read_bind (hmsg "config") _).trans (attempt_bind (enumValue_sta hstate) _)
      | some detail =>
        obtain ⟨state, os, rfl, hstate, hall⟩ := allMean_cons hall
        obtain ⟨more, os, rfl, hmore, -⟩ := allMean_cons hall
        obtain ⟨v, hv, hshows⟩ := python_detail inRange hmore (by
          rintro reason rfl
          exact reads.reason status sta reason _ o n _ more hx hloads hlist rfl)
        refine ⟨v, (read_bind (hmsg "config") _).trans ?_, hshows⟩
        exact (attempt_bind (enumValue_sta hstate) _).trans hv
    | setRsp | applyRsp => exact ⟨(), read_bind (hmsg "config") _, trivial⟩
  | scan r =>
    cases r with
    | startRsp status => exact ⟨(), read_bind (hmsg "scan") _, trivial⟩
    | statusRsp status finished total =>
      obtain ⟨flag, os, rfl, hflag, hall⟩ := allMean_cons hall
      obtain ⟨count, os, rfl, hcount, -⟩ := allMean_cons hall
      have hcount := (means_num inRange hcount).2
      refine ⟨(finished, total), (read_bind (hmsg "scan") _).trans ?_, rfl⟩
      rw [← means_bool hflag]
      exact (attempt_bind rfl _).trans (attempt_bind hcount _)
    | resultsRsp status entries =>
      obtain ⟨list, os, rfl, ⟨objs, hobjs, hall⟩, -⟩ := allMean_cons hall
      rw [entries_items inRange] at hall
      obtain ⟨rs, hrs, hshows⟩ := python_entries inRange hall
      refine ⟨rs, (read_bind (hmsg "scan") _).trans ?_, hshows⟩
      exact (attempt_bind (dicts.iter_list hobjs) _).trans hrs
  | cred r =>
    cases r with
    | writeRsp status received =>
      obtain ⟨count, os, rfl, hcount, -⟩ := allMean_cons hall
      refine ⟨(received : Int), (read_bind (hmsg "cred") _).trans ?_, rfl⟩
      exact attempt_some (means_num inRange hcount).2
    | finalizeRsp status => exact ⟨(), read_bind (hmsg "cred") _, trivial⟩
    | statusRsp status stored =>
      obtain ⟨kinds, hstored, hnodup, hsmall⟩ := inRange
      obtain ⟨map, os, rfl, ⟨es, hes, hall⟩, -⟩ := allMean_cons hall
      rw [hstored, List.map_map] at hall
      refine ⟨associate _, (read_bind (hmsg "cred") _).trans ?_, associate_kinds hnodup hstored⟩
      exact (attempt_bind hes _).trans (attempt_bind (python_kinds reads.kind hsmall hall) _)
  | ctrl op status => exact ⟨(), read_bind (hmsg "ctrl") _, trivial⟩
  | bare d status => exact absurd ok inRange

theorem python_refuses (reads : PythonReads dicts) {r : Response} (inRange : InRange r)
    (hx : r.encoded = some (item r.value)) (failed : r.status ≠ .ok)
    (short : (encode (item r.value)).length ≤ msgMax) :
    ClientResponses.Python.decodeRsp py dicts (encode (item r.value)) r.decoder =
      .error (.prov r.status r.decoder.context) := by
  obtain ⟨o, n, hloads, hmeans⟩ := reads.reads r _ inRange hx short
  obtain ⟨op, code, os, -, -, hmsg⟩ := python_message hloads hmeans
  apply ClientResponses.Python.decodeRsp_error
  rw [hmsg, if_neg failed]

end Python

/-- The client refuses the data with the status. -/
def Refuses (status : ProvStatus) (data : Bytes) (d : Decoder) : Client → Prop
  | .python py dicts => ClientResponses.Python.decodeRsp py dicts data d =
      .error (.prov status d.context)
  | .kotlin t => ClientResponses.Kotlin.decodeRsp t data d = .error (.prov status d.context)
  | .swift t => ClientResponses.Swift.decodeRsp t data d = .error (.prov status d.context)

/-- The client gets the response from the data. -/
def Gets (c : Client) (r : Response) (data : Bytes) : Prop :=
  if r.status = .ok then ∃ v, read data r.decoder c = some v ∧ Shows c r v
  else Refuses r.status data r.decoder c

section Clients

variable {c : Client} {r : Response} {x : Item}

theorem response_read (reads : ReadsResponses c) (inRange : InRange r) (hx : r.encoded = some x)
    (short : (encode x).length ≤ msgMax) (ok : r.status = .ok) :
    ∃ v, read (encode x) r.decoder c = some v ∧ Shows c r v := by
  obtain rfl := encoded_value inRange hx
  have hsmall : (encode (item r.value)).length < 2 ^ 31 := Nat.lt_of_le_of_lt short (by decide)
  cases c with
  | python py dicts =>
    obtain ⟨v, hv, hshows⟩ := python_read reads inRange hx ok short
    exact ⟨v, congrArg Except.toOption hv, hshows⟩
  | kotlin t =>
    obtain ⟨v, hyields, hshows⟩ := (body_yields inRange hx ok).1 reads.2
    have hmeans := value_means (ClientResponses.Kotlin.keepsSmall t) ok hyields
    exact ⟨v, congrArg Except.toOption
      (kotlin_reads reads.1 (value_keyed inRange) hsmall hmeans), hshows⟩
  | swift t =>
    obtain ⟨v, hyields, hshows⟩ := (body_yields inRange hx ok).2
    have hmeans := value_means ClientResponses.Swift.keepsSmall ok hyields
    exact ⟨v, congrArg Except.toOption (swift_reads reads (value_keyed inRange) hsmall hmeans),
      hshows⟩

theorem response_refused (reads : ReadsResponses c) (inRange : InRange r)
    (hx : r.encoded = some x) (short : (encode x).length ≤ msgMax) (failed : r.status ≠ .ok) :
    Refuses r.status (encode x) r.decoder c := by
  obtain rfl := encoded_value inRange hx
  have hsmall : (encode (item r.value)).length < 2 ^ 31 := Nat.lt_of_le_of_lt short (by decide)
  cases c with
  | python py dicts => exact python_refuses reads inRange hx failed short
  | kotlin t => exact kotlin_refuses reads.1 inRange failed hsmall
  | swift t => exact swift_refuses reads inRange failed hsmall

theorem response_gets (reads : ReadsResponses c) (inRange : InRange r) (hx : r.encoded = some x)
    (short : (encode x).length ≤ msgMax) : Gets c r (encode x) := by
  rw [Gets]
  split
  · rename_i hok
    exact response_read reads inRange hx short hok
  · rename_i hfailed
    exact response_refused reads inRange hx short hfailed

end Clients

/-- Data items as the objects of `cbor2`, where `int` takes texts too. -/
abbrev responseCodec : Python :=
  Clients.itemPython Clients.samplePrimitives ForwardCompat.itemInt fun x => x matches .prim 21 _

abbrev responseDicts : Dicts responseCodec := ForwardCompat.itemDicts _ _ _

mutual

/-- Every value is what its item says. -/
theorem item_means : (v : CborValue) → Means responseDicts (item v) (item v)
  | .null => ⟨fun h => absurd h (by decide), fun h => absurd h (by decide)⟩
  | .bool false => ⟨fun _ => rfl, fun h => absurd h (by decide)⟩
  | .bool true => ⟨fun h => absurd h (by decide), fun _ => rfl⟩
  | .int v => by
    rw [item]
    split
    · refine ⟨fun i => ?_, rfl⟩
      simp only [responseCodec, Clients.itemPython, Clients.intOf,
        Option.some.injEq]
      exact decide_eq_decide.mpr eq_comm
    · rfl
  | .bytes b => rfl
  | .text s => ⟨s, utf8Decode_utf8 s, rfl⟩
  | .array xs => ⟨items xs, rfl, items_mean xs⟩
  | .map kvs => ⟨pairUp (pairItems kvs), rfl, pairItems_mean kvs⟩

theorem items_mean : (xs : List CborValue) → AllMean responseDicts (items xs) (items xs)
  | [] => trivial
  | x :: xs => ⟨item_means x, items_mean xs⟩

theorem pairItems_mean : (kvs : List (CborValue × CborValue)) →
    AllMean responseDicts (pairItems kvs) (inTurn (pairUp (pairItems kvs)))
  | [] => trivial
  | (k, v) :: kvs => ⟨item_means k, item_means v, pairItems_mean kvs⟩

end

lemma encoded_ok {r : Response} {x : Item} (hx : r.encoded = some x) : x.Ok := by
  cases r with
  | ver r => exact (encodeVerRsp_response hx).2
  | auth r => exact (encodeAuthRsp_response hx).2
  | config r => exact (encodeConfigRsp_response hx).2
  | scan r => exact (encodeScanRsp_response hx).2
  | cred r => exact (encodeCredRsp_response hx).2
  | ctrl | bare => exact (encodeCtrlRsp_response hx).1.2

lemma responseCodec_loads {r : Response} {x : Item} (hx : r.encoded = some x)
    (short : (encode x).length < 2 ^ 64) :
    responseCodec.loads (encode x) = some (x, (encode x).length) := by
  have hloads := Clients.referencePython_loads Clients.samplePrimitives (encoded_ok hx) short []
  rwa [List.append_nil] at hloads

lemma responseDicts_reads : PythonReads responseDicts where
  reads r x inRange hx short := by
    refine ⟨x, _, responseCodec_loads hx (Nat.lt_of_le_of_lt short (by decide)), ?_⟩
    rw [encoded_value inRange hx]
    exact item_means r.value
  reason status sta reason x o n os d hx loads list at_three := by
    have hshort : (encode x).length < 2 ^ 64 := by
      cases hx
      cases status <;> cases sta <;> cases reason <;> decide
    have hloads := responseCodec_loads
      (r := .config (.statusRsp status sta (some (.failReason reason)))) hx hshort
    obtain ⟨rfl, -⟩ := Prod.mk.inj (Option.some.inj (loads.symm.trans hloads))
    cases hx
    cases list
    cases at_three
    rfl
  kind kind o htext := by
    cases o with
    | tstr b =>
      have hint : responseCodec.int (.tstr b) = (some (keyName kind)).bind (parseInt asciiDigit) :=
        congrArg (Option.bind · (parseInt asciiDigit)) htext
      rw [hint]
      cases kind <;> decide +kernel
    | _ => exact absurd htext (by simp [ForwardCompat.itemDicts, ForwardCompat.itemShape])

lemma referenceTexts_reads : ReadsResponses (.kotlin ClientResponses.referenceTexts) :=
  ⟨CborRoundTrip.referenceTexts_decodes, fun kind => by cases kind <;> decide +kernel⟩

/-- A station that is connected, with a signal of -61 dBm. -/
def connectedRsp : Response :=
  .config (.statusRsp .ok .connected
    (some (.connectedInfo [192, 168, 1, 7] (utf8 "lab") (some (-61)))))

end DeviceResponses
