import PouchProv.ScanFlow

/-!
# The responses of the device as values

Every response that a handler of the device encodes, with the decoder that a
client has for it, and the value that a reader of CBOR makes of it
(`encoded_value`). The keys of its maps are distinct texts (`value_keyed`).
-/

namespace DeviceResponses

open Bytes Cbor Codec Status ProvTypes Handlers ClientReader
open Clients (CborValue)
open CborRoundTrip (Keyed AllKeyed)
open ClientCbor (item items pairItems item_int)
open ClientRequests (CtrlOp)
open ClientResponses (Decoder lookup)
open CredStore (CredKind)
open ScanFlow (entryValue entryValue_keyed entries_items)
open ScanRuns (Typed mapM_typed)

inductive Response where
  | ver (r : VerRsp)
  | auth (r : AuthRsp)
  | config (r : ConfigRsp)
  | scan (r : ScanRsp)
  | cred (r : CredRsp)
  | ctrl (op : CtrlOp) (status : ProvStatus)
  /-- The reply of the dispatcher in place of the response that the decoder is for. -/
  | bare (d : Decoder) (status : ProvStatus)

namespace Response

/-- The encoder of the device. -/
def encoded : Response → Option Item
  | .ver r => encodeVerRsp r
  | .auth r => encodeAuthRsp r
  | .config r => encodeConfigRsp r
  | .scan r => encodeScanRsp r
  | .cred r => encodeCredRsp r
  | .ctrl op status => encodeCtrlRsp ⟨op.code, status⟩
  | .bare d status => encodeCtrlRsp ⟨d.op, status⟩

/-- The decoder that a client uses after the request. -/
def decoder : Response → Decoder
  | .ver _ => .ver
  | .auth (.challengeRsp _ _ _) => .authChallenge
  | .auth (.proofRsp _) => .authProof
  | .config (.statusRsp _ _ _) => .configStatus
  | .config (.setRsp _) => .configSet
  | .config (.applyRsp _) => .configApply
  | .scan (.startRsp _) => .scanStart
  | .scan (.statusRsp _ _ _) => .scanStatus
  | .scan (.resultsRsp _ _) => .scanResults
  | .cred (.writeRsp _ _) => .credWrite
  | .cred (.finalizeRsp _) => .credFinalize
  | .cred (.statusRsp _ _) => .credStatus
  | .ctrl op _ => .ctrl op
  | .bare d _ => d

def status : Response → ProvStatus
  | .ver r => r.status
  | .auth (.challengeRsp s _ _) | .auth (.proofRsp s) => s
  | .config (.statusRsp s _ _) | .config (.setRsp s) | .config (.applyRsp s) => s
  | .scan (.startRsp s) | .scan (.statusRsp s _ _) | .scan (.resultsRsp s _) => s
  | .cred (.writeRsp s _) | .cred (.finalizeRsp s) | .cred (.statusRsp s _) => s
  | .ctrl _ s => s
  | .bare _ s => s

end Response

/-- The fields are in the range of their C types, as far as the clients keep it: block sizes,
counts and lengths below `2 ^ 31`, and a status map has each kind at most once. The dispatcher
replies only with failures. -/
def InRange : Response → Prop
  | .ver r => r.info.proto < 2 ^ 31 ∧ r.info.blk < 2 ^ 31
  | .config (.statusRsp _ _ (some (.connectedInfo _ _ (some rssi)))) =>
    -2 ^ 31 ≤ rssi ∧ rssi < 2 ^ 31
  | .scan (.statusRsp _ _ total) => total < 2 ^ 31
  | .scan (.resultsRsp _ entries) => ∀ e ∈ entries, Typed e
  | .cred (.writeRsp _ received) => received < 2 ^ 31
  | .cred (.statusRsp _ stored) => ∃ kinds : List (CredKind × Nat),
      stored = kinds.map (fun k => (keyName k.1, k.2)) ∧ (kinds.map Prod.fst).Nodup ∧
        ∀ k ∈ kinds, k.2 < 2 ^ 31
  | .bare _ status => status ≠ .ok
  | _ => True

def num (n : Nat) : CborValue := .int (Int64.ofNat n)

lemma item_num {n : Nat} (fits : n < 2 ^ 31) : item (num n) = .uint n := item_int (by omega)

lemma item_u32 {n : Nat} (fits : n < 2 ^ 31) : item (num n) = u32 n := by
  rw [item_num fits, u32, Nat.mod_eq_of_lt (by omega)]

def infoEntries (v : VerInfo) : List (CborValue × CborValue) :=
  [(.text "proto", num v.proto), (.text "caps", .array (v.caps.map .text)),
    (.text "blk", num v.blk), (.text "lib", .text v.lib)] ++
    match v.pop with
    | some pop => [(.text "pop", .bool pop)]
    | none => []

def connectedEntries (ip4 ssid : Bytes) (rssi : Option Int) : List (CborValue × CborValue) :=
  [(.text "ip4", .bytes ip4), (.text "ssid", .bytes ssid)] ++
    match rssi with
    | some rssi => [(.text "rssi", .int (Int64.ofInt rssi))]
    | none => []

def detailValue : ConfigDetail → CborValue
  | .failReason reason => num (reasonCode reason)
  | .connectedInfo ip4 ssid rssi => .map (connectedEntries ip4 ssid rssi)

/-- The elements that follow the op and the status. -/
def Response.body : Response → List CborValue
  | .ver r => [.map (infoEntries r.info)]
  | .auth (.challengeRsp _ devNonce devProof) => [.bytes devNonce, .bytes devProof]
  | .config (.statusRsp _ sta none) => [num (staCode sta)]
  | .config (.statusRsp _ sta (some detail)) => [num (staCode sta), detailValue detail]
  | .scan (.statusRsp _ finished total) => [.bool finished, num total]
  | .scan (.resultsRsp _ entries) => [.array (entries.map entryValue)]
  | .cred (.writeRsp _ received) => [num received]
  | .cred (.statusRsp _ stored) => [.map (stored.map fun kv => (.text kv.1, num kv.2))]
  | _ => []

def Response.value (r : Response) : CborValue :=
  .array (num r.decoder.op :: num r.status.code :: r.body)

lemma op_small (d : Decoder) : d.op < 3 := by
  cases d with
  | ctrl op => cases op <;> decide
  | _ => decide

lemma code_small (s : ProvStatus) : s.code < 7 := by
  cases s <;> decide

lemma items_texts (caps : List String) : items (caps.map .text) = caps.map text := by
  induction caps with
  | nil => rfl
  | cons s caps ih => rw [List.map_cons, items, ih]; rfl

lemma info_item {v : VerInfo} (proto : v.proto < 2 ^ 31) (blk : v.blk < 2 ^ 31) {x : Item}
    (h : encodeVerInfo v = some x) : x = item (.map (infoEntries v)) := by
  rw [encodeVerInfo] at h
  split at h
  · obtain rfl := Option.some.inj h
    rw [infoEntries, ← item_u32 proto, ← item_u32 blk, ← items_texts]
    cases v.pop <;> rfl
  · cases h

lemma i32_item {i : Int} (low : -2 ^ 31 ≤ i) (high : i < 2 ^ 31) :
    (Int64.ofInt i).toInt = i ∧ item (.int (Int64.ofInt i)) = i32 i := by
  have hint : (Int64.ofInt i).toInt = i := Int64.toInt_ofInt_of_le (by omega) (by omega)
  refine ⟨hint, ?_⟩
  rw [item, hint, i32]
  split
  · rw [Nat.mod_eq_of_lt (by omega)]
  · rw [Nat.mod_eq_of_lt (by omega)]

lemma reason_small (reason : FailReason) : reasonCode reason < 2 ^ 31 := by
  cases reason <;> decide

lemma sta_small (sta : StaState) : staCode sta < 2 ^ 31 := by
  cases sta <;> decide

lemma stored_items {stored : List (String × Nat)} (small : ∀ kv ∈ stored, kv.2 < 2 ^ 31) :
    pairItems (stored.map fun kv => (.text kv.1, num kv.2)) =
      stored.flatMap fun kv => [text kv.1, u32 kv.2] := by
  induction stored with
  | nil => rfl
  | cons kv stored ih =>
    rw [List.map_cons, pairItems, ih fun kv h => small kv (List.mem_cons_of_mem _ h),
      item_u32 (small kv List.mem_cons_self)]
    rfl

lemma stored_small {status : ProvStatus} {stored : List (String × Nat)}
    (inRange : InRange (.cred (.statusRsp status stored))) : ∀ kv ∈ stored, kv.2 < 2 ^ 31 := by
  obtain ⟨kinds, rfl, -, hsmall⟩ := inRange
  intro kv hkv
  obtain ⟨k, hk, rfl⟩ := List.mem_map.mp hkv
  exact hsmall k hk

lemma detail_item {status : ProvStatus} {sta : StaState} {detail : ConfigDetail}
    (inRange : InRange (.config (.statusRsp status sta (some detail)))) {x : Item}
    (h : encodeConfigDetail detail = some x) : x = item (detailValue detail) := by
  cases detail with
  | failReason reason => rw [detailValue, item_num (reason_small reason), ← Option.some.inj h]
  | connectedInfo ip4 ssid rssi =>
    obtain ⟨-, hx⟩ := Option.ite_none_right_eq_some.mp h
    rw [← Option.some.inj hx]
    cases rssi with
    | none => rfl
    | some rssi =>
      simp only [List.cons_append, List.nil_append]
      rw [← (i32_item inRange.1 inRange.2).2]
      rfl

/-- The device encodes the value. -/
lemma encoded_value {r : Response} (inRange : InRange r) {x : Item} (hx : r.encoded = some x) :
    x = item r.value := by
  have hstatus : item (num r.status.code) = encodeProvStatus r.status :=
    item_num (Nat.lt_trans (code_small _) (by decide))
  have hop : item (num r.decoder.op) = .uint r.decoder.op :=
    item_num (Nat.lt_trans (op_small _) (by decide))
  rw [Response.value, item, items, items, hstatus, hop]
  cases r with
  | ver r =>
    obtain ⟨info, hinfo, rfl⟩ := Option.map_eq_some_iff.mp hx
    rw [info_item inRange.1 inRange.2 hinfo]
    rfl
  | auth r =>
    cases r with
    | challengeRsp status devNonce devProof =>
      rw [Response.encoded, encodeAuthRsp] at hx
      split at hx
      · exact (Option.some.inj hx).symm
      · cases hx
    | proofRsp status => exact (Option.some.inj hx).symm
  | config r =>
    cases r with
    | statusRsp status sta detail =>
      cases detail with
      | none =>
        rw [← Option.some.inj hx, Response.body, items, item_num (sta_small sta)]
        rfl
      | some detail =>
        obtain ⟨d, hd, rfl⟩ := Option.map_eq_some_iff.mp hx
        rw [detail_item inRange hd, Response.body, items, items, item_num (sta_small sta)]
        rfl
    | setRsp status => exact (Option.some.inj hx).symm
    | applyRsp status => exact (Option.some.inj hx).symm
  | scan r =>
    cases r with
    | startRsp status => exact (Option.some.inj hx).symm
    | statusRsp status finished total =>
      rw [← Option.some.inj hx, Response.body, items, items, item_u32 inRange]
      rfl
    | resultsRsp status entries =>
      rw [Response.encoded, encodeScanRsp, mapM_typed inRange] at hx
      split at hx
      · rw [← Option.some.inj hx, Response.body, items, item, entries_items inRange]
        rfl
      · cases hx
  | cred r =>
    cases r with
    | writeRsp status received =>
      rw [← Option.some.inj hx, Response.body, items, item_u32 inRange]
      rfl
    | finalizeRsp status => exact (Option.some.inj hx).symm
    | statusRsp status stored =>
      rw [Response.encoded, encodeCredRsp] at hx
      split at hx
      · rw [← Option.some.inj hx, Response.body, items, item, stored_items (stored_small inRange)]
        rfl
      · cases hx
  | ctrl op status =>
    rw [Response.encoded, encodeCtrlRsp] at hx
    split at hx
    · rw [← Option.some.inj hx]
      cases op <;> rfl
    · cases hx
  | bare d status =>
    rw [Response.encoded, encodeCtrlRsp] at hx
    split at hx
    · rw [← Option.some.inj hx, u32, Nat.mod_eq_of_lt (Nat.lt_trans (op_small d) (by decide))]
      rfl
    · cases hx

lemma texts_keyed (caps : List String) : AllKeyed (caps.map .text) := by
  induction caps with
  | nil => trivial
  | cons s caps ih => exact ⟨trivial, ih⟩

lemma info_keyed (v : VerInfo) : Keyed (.map (infoEntries v)) := by
  have hcaps := texts_keyed v.caps
  rw [infoEntries]
  cases v.pop with
  | none =>
    exact ⟨by simp [DistinctKeys, sameKey], ⟨_, rfl⟩, trivial, ⟨_, rfl⟩, hcaps, ⟨_, rfl⟩, trivial,
      ⟨_, rfl⟩, trivial, trivial⟩
  | some pop =>
    exact ⟨by simp [DistinctKeys, sameKey], ⟨_, rfl⟩, trivial, ⟨_, rfl⟩, hcaps, ⟨_, rfl⟩, trivial,
      ⟨_, rfl⟩, trivial, ⟨_, rfl⟩, trivial, trivial⟩

lemma detail_keyed (detail : ConfigDetail) : Keyed (detailValue detail) := by
  cases detail with
  | failReason reason => trivial
  | connectedInfo ip4 ssid rssi =>
    cases rssi with
    | none =>
      exact ⟨by simp [connectedEntries, DistinctKeys, sameKey], ⟨_, rfl⟩, trivial, ⟨_, rfl⟩,
        trivial, trivial⟩
    | some rssi =>
      exact ⟨by simp [connectedEntries, DistinctKeys, sameKey], ⟨_, rfl⟩, trivial, ⟨_, rfl⟩,
        trivial, ⟨_, rfl⟩, trivial, trivial⟩

lemma entries_keyed (es : List ProvTypes.ScanEntry) : AllKeyed (es.map entryValue) := by
  induction es with
  | nil => trivial
  | cons e es ih => exact ⟨entryValue_keyed e, ih⟩

lemma keyName_inj {k k' : CredKind} (h : keyName k = keyName k') : k = k' := by
  cases k <;> cases k' <;> first | rfl | exact absurd h (by decide)

lemma kinds_keyed {kinds : List (CredKind × Nat)} (nodup : (kinds.map Prod.fst).Nodup) :
    Keyed (.map (kinds.map fun k => (.text (keyName k.1), num k.2))) := by
  induction kinds with
  | nil => exact ⟨List.Pairwise.nil, trivial⟩
  | cons k kinds ih =>
    obtain ⟨hnew, hrest⟩ := List.nodup_cons.mp nodup
    obtain ⟨hdistinct, hpairs⟩ := ih hrest
    refine ⟨List.pairwise_cons.mpr ⟨fun kv hkv => ?_, hdistinct⟩, ⟨_, rfl⟩, trivial, hpairs⟩
    obtain ⟨k', hk', rfl⟩ := List.mem_map.mp hkv
    have hne : keyName k.1 ≠ keyName k'.1 := fun h =>
      hnew (keyName_inj h ▸ List.mem_map_of_mem hk')
    simpa [sameKey] using hne

lemma body_keyed {r : Response} (inRange : InRange r) : AllKeyed r.body := by
  cases r with
  | ver r => exact ⟨info_keyed r.info, trivial⟩
  | auth r => cases r <;> simp [Response.body, AllKeyed, Keyed]
  | config r =>
    cases r with
    | statusRsp status sta detail =>
      cases detail with
      | none => exact ⟨trivial, trivial⟩
      | some detail => exact ⟨trivial, detail_keyed detail, trivial⟩
    | setRsp status => trivial
    | applyRsp status => trivial
  | scan r =>
    cases r with
    | startRsp status => trivial
    | statusRsp status finished total => exact ⟨trivial, trivial, trivial⟩
    | resultsRsp status entries => exact ⟨entries_keyed entries, trivial⟩
  | cred r =>
    cases r with
    | writeRsp status received => exact ⟨trivial, trivial⟩
    | finalizeRsp status => trivial
    | statusRsp status stored =>
      obtain ⟨kinds, rfl, hnodup, -⟩ := inRange
      refine ⟨?_, trivial⟩
      rw [List.map_map]
      exact kinds_keyed hnodup
  | ctrl op status => trivial
  | bare d status => trivial

/-- The entries of the version info. -/
lemma info_lookup (v : VerInfo) :
    lookup "proto" (infoEntries v) = some (num v.proto) ∧
      lookup "caps" (infoEntries v) = some (.array (v.caps.map .text)) ∧
      lookup "blk" (infoEntries v) = some (num v.blk) ∧
      lookup "lib" (infoEntries v) = some (.text v.lib) ∧
      lookup "pop" (infoEntries v) = v.pop.map .bool := by
  rw [infoEntries]
  cases v.pop <;> exact ⟨rfl, rfl, rfl, rfl, rfl⟩

lemma connected_lookup (ip4 ssid : Bytes) (rssi : Option Int) :
    lookup "ip4" (connectedEntries ip4 ssid rssi) = some (.bytes ip4) ∧
      lookup "ssid" (connectedEntries ip4 ssid rssi) = some (.bytes ssid) ∧
      lookup "rssi" (connectedEntries ip4 ssid rssi) =
        rssi.map fun i => .int (Int64.ofInt i) := by
  cases rssi <;> exact ⟨rfl, rfl, rfl⟩

lemma small_status (r : Response) : r.status.code < 2 ^ 31 :=
  Nat.lt_trans (code_small _) (by decide)

lemma small_op (r : Response) : r.decoder.op < 2 ^ 31 :=
  Nat.lt_trans (op_small _) (by decide)

lemma value_keyed {r : Response} (inRange : InRange r) : Keyed r.value :=
  ⟨trivial, trivial, body_keyed inRange⟩

end DeviceResponses
