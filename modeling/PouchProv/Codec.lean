import PouchProv.Cbor
import PouchProv.ProvTypes

/-!
# The message codec

The encoders and decoders that the schema compiler generated (`prov_encode.c`,
`prov_decode.c`), over data items. A decoder pattern-matches the item that the
CBOR library reads at the start of a request; bytes behind that item are not
looked at. An encoder builds an item, or fails where a size constraint of the
schema is violated, and the library writes it in canonical form if it fits the
buffer.

The CBOR library itself is outside the repository: `Zcbor` is what is assumed of
its reader, that an item it returns stands at the start of the input.
-/

namespace Codec

open Bytes Cbor ProvTypes Status

structure Zcbor where
  read : Bytes → Option Item
  sound : ∀ b x, read b = some x → ∃ rest, Parses b x rest

/-- The reader of definite lengths, as deep as the largest message is long. -/
def Zcbor.definite (fuel : Nat) : Zcbor where
  read b := (Cbor.read fuel b).map Prod.fst
  sound b x h := by
    obtain ⟨⟨y, rest⟩, hread, rfl⟩ := Option.map_eq_some_iff.mp h
    exact ⟨rest, (read_sound fuel).1 _ _ _ hread⟩

def keyIs (key : String) : Item → Bool
  | .tstr b => b = utf8 key
  | _ => false

def uint32 : Item → Option Nat
  | .uint n => if n < 2 ^ 32 then some n else none
  | _ => none

def bstrOf (fits : Nat → Bool) : Item → Option Bytes
  | .bstr b => if fits b.length then some b else none
  | _ => none

def boolOf : Item → Option Bool
  | .prim 20 _ => some false
  | .prim 21 _ => some true
  | _ => none

/-- A mandatory entry of a map at its place. -/
def field {α : Type} (key : String) (value : Item → Option α) :
    List Item → Option (α × List Item)
  | k :: v :: rest => if keyIs key k then (value v).map (·, rest) else none
  | _ => none

/-- `zcbor_present_decode`: an entry that does not decode is absent, and stays in place. -/
def optField {α : Type} (key : String) (value : Item → Option α) (kvs : List Item) :
    Option α × List Item :=
  match field key value kvs with
  | some (a, rest) => (some a, rest)
  | none => (none, kvs)

def decodeVerReq : Item → Option Unit
  | .array [.uint 0] => some ()
  | _ => none

def decodeAuthReq : Item → Option AuthReq
  | .array [.uint 0, nonce] => (bstrOf (· = 16) nonce).map .challenge
  | .array [.uint 1, proof] => (bstrOf (· = 32) proof).map .proof
  | _ => none

def decodeWifiConfig : Item → Option WifiCfg
  | .map kvs => do
    let (ssid, kvs) ← field "ssid" (bstrOf fun n => 1 ≤ n ∧ n ≤ 32) kvs
    let (pass, kvs) := optField "pass" (bstrOf (· ≤ 64)) kvs
    let (bssid, kvs) := optField "bssid" (bstrOf (· = 6)) kvs
    let (ch, kvs) := optField "ch" uint32 kvs
    if kvs.isEmpty then some ⟨ssid, pass, bssid, ch⟩ else none
  | _ => none

def decodeConfigReq : Item → Option ConfigReq
  | .array [.uint 0] => some .getStatus
  | .array [.uint 1, cfg] => (decodeWifiConfig cfg).map .set
  | .array [.uint 2] => some .apply
  | _ => none

def decodeScanParams : Item → Option ScanParams
  | .map kvs =>
    let (passive, kvs) := optField "passive" boolOf kvs
    let (periodMs, kvs) := optField "period-ms" uint32 kvs
    if kvs.isEmpty then some ⟨passive, periodMs⟩ else none
  | _ => none

def decodeScanReq : Item → Option ScanReq
  | .array [.uint 0, params] => (decodeScanParams params).map .start
  | .array [.uint 1] => some .getStatus
  | .array [.uint 2, start, count] => do
    let start ← uint32 start
    let count ← uint32 count
    some (.getResults start count)
  | _ => none

def credKind : Item → Option Nat
  | .uint n => if n ≤ 2 then some n else none
  | _ => none

def decodeCredChunk : Item → Option CredChunk
  | .map kvs => do
    let (kind, kvs) ← field "kind" credKind kvs
    let (off, kvs) ← field "off" uint32 kvs
    let (total, kvs) ← field "total" uint32 kvs
    let (data, kvs) ← field "data" (bstrOf fun _ => true) kvs
    if kvs.isEmpty then some ⟨kind, off, total, data⟩ else none
  | _ => none

def decodeCredReq : Item → Option CredReq
  | .array [.uint 0, chunk] => (decodeCredChunk chunk).map .write
  | .array [.uint 1] => some .finalize
  | .array [.uint 2] => some .getStatus
  | _ => none

def decodeCtrlReq : Item → Option CtrlReq
  | .array [.uint 0] => some .ctrlReset
  | .array [.uint 1] => some .ctrlReprovision
  | .array [.uint 2] => some .ctrlEnd
  | _ => none

def text (s : String) : Item := .tstr (utf8 s)

/-- A `uint32_t` field. -/
def u32 (n : Nat) : Item := .uint (n % 2 ^ 32)

/-- An `int32_t` field. -/
def i32 (i : Int) : Item :=
  if 0 ≤ i then .uint (i.toNat % 2 ^ 32) else .nint ((-1 - i).toNat % 2 ^ 32)

def encodeProvStatus (s : ProvStatus) : Item := .uint s.code

def staCode : StaState → Nat
  | .connected => 0
  | .connecting => 1
  | .disconnected => 2
  | .failed => 3

def reasonCode : FailReason → Nat
  | .authError => 0
  | .networkNotFound => 1

def encodeVerInfo (v : VerInfo) : Option Item :=
  if v.caps.length ≤ 8 then
    some (.map ([text "proto", u32 v.proto, text "caps", .array (v.caps.map text),
      text "blk", u32 v.blk, text "lib", text v.lib] ++
      match v.pop with
      | some pop => [text "pop", .bool pop]
      | none => []))
  else none

def encodeVerRsp (r : VerRsp) : Option Item :=
  (encodeVerInfo r.info).map fun info => .array [.uint 0, encodeProvStatus r.status, info]

def encodeAuthRsp : AuthRsp → Option Item
  | .challengeRsp status devNonce devProof =>
    if devNonce.length = 16 ∧ devProof.length = 32 then
      some (.array [.uint 0, encodeProvStatus status, .bstr devNonce, .bstr devProof])
    else none
  | .proofRsp status => some (.array [.uint 1, encodeProvStatus status])

def encodeConfigDetail : ConfigDetail → Option Item
  | .failReason reason => some (.uint (reasonCode reason))
  | .connectedInfo ip4 ssid rssi =>
    if ip4.length = 4 ∧ 1 ≤ ssid.length ∧ ssid.length ≤ 32 then
      some (.map ([text "ip4", .bstr ip4, text "ssid", .bstr ssid] ++
        match rssi with
        | some rssi => [text "rssi", i32 rssi]
        | none => []))
    else none

def encodeConfigRsp : ConfigRsp → Option Item
  | .statusRsp status sta none =>
    some (.array [.uint 0, encodeProvStatus status, .uint (staCode sta)])
  | .statusRsp status sta (some detail) =>
    (encodeConfigDetail detail).map fun detail =>
      .array [.uint 0, encodeProvStatus status, .uint (staCode sta), detail]
  | .setRsp status => some (.array [.uint 1, encodeProvStatus status])
  | .applyRsp status => some (.array [.uint 2, encodeProvStatus status])

def encodeScanEntry (e : ScanEntry) : Option Item :=
  if e.ssid.length ≤ 32 ∧ e.bssid.length = 6 then
    some (.map [text "ssid", .bstr e.ssid, text "bssid", .bstr e.bssid, text "ch", u32 e.ch,
      text "rssi", i32 e.rssi, text "auth", u32 e.auth])
  else none

def encodeScanRsp : ScanRsp → Option Item
  | .startRsp status => some (.array [.uint 0, encodeProvStatus status])
  | .statusRsp status finished total =>
    some (.array [.uint 1, encodeProvStatus status, .bool finished, u32 total])
  | .resultsRsp status entries =>
    if entries.length ≤ 8 then
      (entries.mapM encodeScanEntry).map fun entries =>
        .array [.uint 2, encodeProvStatus status, .array entries]
    else none

def encodeCredRsp : CredRsp → Option Item
  | .writeRsp status received => some (.array [.uint 0, encodeProvStatus status, u32 received])
  | .finalizeRsp status => some (.array [.uint 1, encodeProvStatus status])
  | .statusRsp status stored =>
    if stored.length ≤ 8 then
      some (.array [.uint 2, encodeProvStatus status,
        .map (stored.flatMap fun kv => [text kv.1, u32 kv.2])])
    else none

def encodeCtrlRsp (r : CtrlRsp) : Option Item :=
  if r.op ≤ 2 then some (.array [u32 r.op, encodeProvStatus r.status]) else none

/-- `cbor_encode_*`: the encoding, if the schema admits the value and it fits the buffer. -/
def cborEncode (size : Nat) (item : Option Item) : Option Bytes :=
  item.bind fun x => if (encode x).length ≤ size then some (encode x) else none

def authReqOp : AuthReq → Nat
  | .challenge _ => 0
  | .proof _ => 1

def configReqOp : ConfigReq → Nat
  | .getStatus => 0
  | .set _ => 1
  | .apply => 2

def scanReqOp : ScanReq → Nat
  | .start _ => 0
  | .getStatus => 1
  | .getResults _ _ => 2

def credReqOp : CredReq → Nat
  | .write _ => 0
  | .finalize => 1
  | .getStatus => 2

def ctrlReqOp : CtrlReq → Nat
  | .ctrlReset => 0
  | .ctrlReprovision => 1
  | .ctrlEnd => 2

/-- The item is an array whose first element is the op code. -/
def HasOp (x : Item) (op : Nat) : Prop := ∃ xs, x = .array (.uint op :: xs)

lemma decodeVerReq_op {x : Item} (h : decodeVerReq x = some ()) : HasOp x 0 := by
  unfold decodeVerReq at h
  split at h
  · exact ⟨_, rfl⟩
  · simp at h

lemma decodeAuthReq_op {x : Item} {r : AuthReq} (h : decodeAuthReq x = some r) :
    HasOp x (authReqOp r) := by
  unfold decodeAuthReq at h
  split at h
  · obtain ⟨_, -, rfl⟩ := Option.map_eq_some_iff.mp h
    exact ⟨_, rfl⟩
  · obtain ⟨_, -, rfl⟩ := Option.map_eq_some_iff.mp h
    exact ⟨_, rfl⟩
  · simp at h

lemma bstrOf_fits {fits : Nat → Bool} {x : Item} {b : Bytes} (h : bstrOf fits x = some b) :
    fits b.length := by
  unfold bstrOf at h
  split at h
  · split at h
    · rename_i hfits
      obtain rfl := Option.some.inj h
      exact hfits
    · simp at h
  · simp at h

lemma decodeAuthReq_proof_length {x : Item} {p : Bytes}
    (h : decodeAuthReq x = some (.proof p)) : p.length = 32 := by
  unfold decodeAuthReq at h
  split at h
  · simp at h
  · obtain ⟨b, hb, heq⟩ := Option.map_eq_some_iff.mp h
    obtain rfl := AuthReq.proof.inj heq
    simpa using bstrOf_fits hb
  · simp at h

lemma decodeAuthReq_challenge_length {x : Item} {nonce : Bytes}
    (h : decodeAuthReq x = some (.challenge nonce)) : nonce.length = 16 := by
  unfold decodeAuthReq at h
  split at h
  · obtain ⟨b, hb, heq⟩ := Option.map_eq_some_iff.mp h
    obtain rfl := AuthReq.challenge.inj heq
    simpa using bstrOf_fits hb
  · simp at h
  · simp at h

lemma decodeConfigReq_op {x : Item} {r : ConfigReq} (h : decodeConfigReq x = some r) :
    HasOp x (configReqOp r) := by
  unfold decodeConfigReq at h
  split at h
  · obtain rfl := Option.some.inj h
    exact ⟨_, rfl⟩
  · obtain ⟨_, -, rfl⟩ := Option.map_eq_some_iff.mp h
    exact ⟨_, rfl⟩
  · obtain rfl := Option.some.inj h
    exact ⟨_, rfl⟩
  · simp at h

lemma decodeScanReq_op {x : Item} {r : ScanReq} (h : decodeScanReq x = some r) :
    HasOp x (scanReqOp r) := by
  unfold decodeScanReq at h
  split at h
  · obtain ⟨_, -, rfl⟩ := Option.map_eq_some_iff.mp h
    exact ⟨_, rfl⟩
  · obtain rfl := Option.some.inj h
    exact ⟨_, rfl⟩
  · simp only [Option.bind_eq_bind, Option.bind_eq_some_iff, Option.some.injEq] at h
    obtain ⟨_, -, _, -, rfl⟩ := h
    exact ⟨_, rfl⟩
  · simp at h

lemma decodeCredReq_op {x : Item} {r : CredReq} (h : decodeCredReq x = some r) :
    HasOp x (credReqOp r) := by
  unfold decodeCredReq at h
  split at h
  · obtain ⟨_, -, rfl⟩ := Option.map_eq_some_iff.mp h
    exact ⟨_, rfl⟩
  · obtain rfl := Option.some.inj h
    exact ⟨_, rfl⟩
  · obtain rfl := Option.some.inj h
    exact ⟨_, rfl⟩
  · simp at h

lemma decodeCtrlReq_op {x : Item} {r : CtrlReq} (h : decodeCtrlReq x = some r) :
    HasOp x (ctrlReqOp r) := by
  unfold decodeCtrlReq at h
  split at h
  all_goals first | (obtain rfl := Option.some.inj h; exact ⟨_, rfl⟩) | simp at h

@[simp] lemma text_ok (s : String) : (text s).Ok := trivial

@[simp] lemma bstr_ok (b : Bytes) : (Item.bstr b).Ok := trivial

@[simp] lemma u32_ok (n : Nat) : (u32 n).Ok := by
  have := Nat.mod_lt n (show 2 ^ 32 > 0 by decide)
  exact Nat.lt_of_lt_of_le this (by decide)

@[simp] lemma i32_ok (i : Int) : (i32 i).Ok := by
  rw [i32]
  split
  · exact Nat.lt_of_lt_of_le (Nat.mod_lt _ (by decide)) (by decide)
  · exact Nat.lt_of_lt_of_le (Nat.mod_lt _ (by decide)) (by decide)

@[simp] lemma encodeProvStatus_ok (s : ProvStatus) : (encodeProvStatus s).Ok := by
  cases s <;> simp [encodeProvStatus, ProvStatus.code, Item.Ok]

@[simp] lemma staCode_ok (s : StaState) : (Item.uint (staCode s)).Ok := by
  cases s <;> simp [staCode, Item.Ok]

@[simp] lemma reasonCode_ok (r : FailReason) : (Item.uint (reasonCode r)).Ok := by
  cases r <;> simp [reasonCode, Item.Ok]

/-- A response of the given op code and status: an array that starts with them, with numbers in
range. -/
def Response (op : Nat) (status : ProvStatus) (x : Item) : Prop :=
  (∃ xs, x = .array (.uint op :: encodeProvStatus status :: xs)) ∧ x.Ok

lemma response_of_all {op : Nat} {status : ProvStatus} {xs : List Item} (h : ∀ x ∈ xs, x.Ok)
    (hop : op < 3) : Response op status (.array (.uint op :: encodeProvStatus status :: xs)) :=
  ⟨⟨xs, rfl⟩, Nat.lt_trans hop (by decide), encodeProvStatus_ok status, (allOk_iff xs).mpr h⟩

lemma encodeVerInfo_ok {v : VerInfo} {x : Item} (h : encodeVerInfo v = some x) : x.Ok := by
  unfold encodeVerInfo at h
  split at h
  · obtain rfl := Option.some.inj h
    have hcaps : AllOk (v.caps.map text) := by
      rw [allOk_iff]
      intro x hx
      obtain ⟨s, -, rfl⟩ := List.mem_map.mp hx
      exact text_ok s
    cases hpop : v.pop with
    | none => simp [Item.Ok, AllOk, hcaps]
    | some pop => simp [Item.Ok, AllOk, hcaps, bool_ok]
  · simp at h

lemma encodeVerRsp_response {r : VerRsp} {x : Item} (h : encodeVerRsp r = some x) :
    Response 0 r.status x := by
  obtain ⟨info, hinfo, rfl⟩ := Option.map_eq_some_iff.mp h
  exact response_of_all (by simp [encodeVerInfo_ok hinfo]) (by omega)

def authRspOp : AuthRsp → Nat
  | .challengeRsp _ _ _ => 0
  | .proofRsp _ => 1

def authRspStatus : AuthRsp → ProvStatus
  | .challengeRsp status _ _ => status
  | .proofRsp status => status

lemma encodeAuthRsp_response {r : AuthRsp} {x : Item} (h : encodeAuthRsp r = some x) :
    Response (authRspOp r) (authRspStatus r) x := by
  cases r with
  | challengeRsp status devNonce devProof =>
    rw [encodeAuthRsp] at h
    split at h
    · obtain rfl := Option.some.inj h
      exact response_of_all (by simp) (by simp [authRspOp])
    · simp at h
  | proofRsp status =>
    obtain rfl := Option.some.inj h
    exact response_of_all (by simp) (by simp [authRspOp])

def configRspOp : ConfigRsp → Nat
  | .statusRsp _ _ _ => 0
  | .setRsp _ => 1
  | .applyRsp _ => 2

def configRspStatus : ConfigRsp → ProvStatus
  | .statusRsp status _ _ => status
  | .setRsp status => status
  | .applyRsp status => status

lemma encodeConfigDetail_ok {d : ConfigDetail} {x : Item} (h : encodeConfigDetail d = some x) :
    x.Ok := by
  cases d with
  | failReason reason =>
    obtain rfl := Option.some.inj h
    exact reasonCode_ok reason
  | connectedInfo ip4 ssid rssi =>
    simp only [encodeConfigDetail] at h
    split at h
    · obtain rfl := Option.some.inj h
      cases rssi <;> simp [Item.Ok, AllOk]
    · simp at h

lemma encodeConfigRsp_response {r : ConfigRsp} {x : Item} (h : encodeConfigRsp r = some x) :
    Response (configRspOp r) (configRspStatus r) x := by
  cases r with
  | statusRsp status sta detail =>
    cases detail with
    | none =>
      obtain rfl := Option.some.inj h
      exact response_of_all (by simp) (by simp [configRspOp])
    | some detail =>
      obtain ⟨d, hd, rfl⟩ := Option.map_eq_some_iff.mp h
      exact response_of_all (by simp [encodeConfigDetail_ok hd]) (Nat.zero_lt_succ 2)
  | setRsp | applyRsp =>
    obtain rfl := Option.some.inj h
    exact response_of_all (by simp) (by simp [configRspOp])

def scanRspOp : ScanRsp → Nat
  | .startRsp _ => 0
  | .statusRsp _ _ _ => 1
  | .resultsRsp _ _ => 2

def scanRspStatus : ScanRsp → ProvStatus
  | .startRsp status => status
  | .statusRsp status _ _ => status
  | .resultsRsp status _ => status

lemma encodeScanEntry_ok {e : ScanEntry} {x : Item} (h : encodeScanEntry e = some x) :
    x.Ok := by
  simp only [encodeScanEntry] at h
  split at h
  · obtain rfl := Option.some.inj h
    simp [Item.Ok, AllOk]
  · simp at h

lemma mapM_encodeScanEntry_ok {es : List ScanEntry} {xs : List Item}
    (h : es.mapM encodeScanEntry = some xs) : ∀ x ∈ xs, x.Ok := by
  induction es generalizing xs with
  | nil =>
    obtain rfl := Option.some.inj h
    simp
  | cons e es ih =>
    simp only [List.mapM_cons, Option.bind_eq_bind, Option.bind_eq_some_iff] at h
    obtain ⟨y, hy, ys, hys, heq⟩ := h
    obtain rfl := Option.some.inj heq
    intro x hx
    rcases List.mem_cons.mp hx with rfl | hx
    · exact encodeScanEntry_ok hy
    · exact ih hys x hx

lemma encodeScanRsp_response {r : ScanRsp} {x : Item} (h : encodeScanRsp r = some x) :
    Response (scanRspOp r) (scanRspStatus r) x := by
  cases r with
  | startRsp status =>
    obtain rfl := Option.some.inj h
    exact response_of_all (by simp) (by simp [scanRspOp])
  | statusRsp status finished total =>
    obtain rfl := Option.some.inj h
    exact response_of_all (by simp [bool_ok]) (by simp [scanRspOp])
  | resultsRsp status entries =>
    simp only [encodeScanRsp] at h
    split at h
    · obtain ⟨items, hitems, rfl⟩ := Option.map_eq_some_iff.mp h
      have hall : (Item.array items).Ok := (allOk_iff items).mpr (mapM_encodeScanEntry_ok hitems)
      exact response_of_all (by simp [hall]) (by simp [scanRspOp])
    · simp at h

def credRspOp : CredRsp → Nat
  | .writeRsp _ _ => 0
  | .finalizeRsp _ => 1
  | .statusRsp _ _ => 2

def credRspStatus : CredRsp → ProvStatus
  | .writeRsp status _ => status
  | .finalizeRsp status => status
  | .statusRsp status _ => status

lemma storedMap_ok (stored : List (String × Nat)) :
    (Item.map (stored.flatMap fun kv => [text kv.1, u32 kv.2])).Ok := by
  constructor
  · induction stored with
    | nil => rfl
    | cons kv stored ih =>
      rw [List.flatMap_cons, List.length_append]
      simp only [List.length_cons, List.length_nil]
      omega
  · rw [allOk_iff]
    intro x hx
    obtain ⟨kv, -, hx⟩ := List.mem_flatMap.mp hx
    simp only [List.mem_cons, List.not_mem_nil, or_false] at hx
    rcases hx with rfl | rfl
    · exact text_ok _
    · exact u32_ok _

lemma encodeCredRsp_response {r : CredRsp} {x : Item} (h : encodeCredRsp r = some x) :
    Response (credRspOp r) (credRspStatus r) x := by
  cases r with
  | writeRsp | finalizeRsp =>
    obtain rfl := Option.some.inj h
    exact response_of_all (by simp) (by simp [credRspOp])
  | statusRsp status stored =>
    simp only [encodeCredRsp] at h
    split at h
    · obtain rfl := Option.some.inj h
      exact response_of_all (by simp [storedMap_ok]) (by simp [credRspOp])
    · simp at h

lemma encodeCtrlRsp_response {r : CtrlRsp} {x : Item} (h : encodeCtrlRsp r = some x) :
    Response r.op r.status x ∧ r.op ≤ 2 := by
  simp only [encodeCtrlRsp] at h
  split at h
  · rename_i hop
    obtain rfl := Option.some.inj h
    have hmod : u32 r.op = .uint r.op := congrArg Item.uint (Nat.mod_eq_of_lt (by omega))
    rw [hmod]
    exact ⟨response_of_all (by simp) (by omega), hop⟩
  · simp at h

/-- What an encoder puts into a buffer starts with the op code of the response. -/
theorem cborEncode_arrayOp {size op : Nat} {status : ProvStatus} {item : Option Item} {b : Bytes}
    (small : size < 2 ^ 64) (resp : ∀ x, item = some x → Response op status x)
    (h : cborEncode size item = some b) : ArrayOp b op ∧ 0 < b.length ∧ b.length ≤ size := by
  obtain ⟨x, hitem, hfit⟩ := Option.bind_eq_some_iff.mp h
  split at hfit
  · rename_i hlen
    obtain rfl := Option.some.inj hfit
    obtain ⟨⟨xs, rfl⟩, hok⟩ := resp x hitem
    exact ⟨arrayOp_encode hok (by omega), encode_length_pos _, hlen⟩
  · simp at hfit

lemma cborEncode_some {size : Nat} {x : Item} (fits : (encode x).length ≤ size) :
    cborEncode size (some x) = some (encode x) := by
  simp [cborEncode, fits]

/-- A pair of an op code and a status takes three bytes. -/
lemma statusPair_length {op : Nat} (hop : op ≤ 2) (s : ProvStatus) :
    (encode (.array [.uint op, encodeProvStatus s])).length = 3 := by
  have hcode : s.code < 24 := by cases s <;> decide
  have hop' : op < 24 := by omega
  simp [encode, encodeAll, encodeProvStatus, head_length_small, hcode, hop']

end Codec
