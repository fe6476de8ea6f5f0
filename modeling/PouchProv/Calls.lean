import PouchProv.DeviceResponses
import PouchProv.EndpointRuns
import PouchProv.Exchange

/-!
# Calls of a client

One request of a client and its response, through the request encoder of the
client, the dispatcher and the handler of the device, the response queue and the
response decoder of the client. Above it stands a device that takes requests and
gives responses without encoding them (`respond`): it has the handlers' effects on
the state, and says which response is sent in place of one that does not fit.

In every run of calls and of other events at the device, each call brings the
client the response that this device gives (`calls_answered`).
-/

namespace Calls

open Bytes Cbor Codec Handlers Auth Device ProvTypes Status Runs Requests Replies
open ClientRequests (Request CtrlOp kindCode)
open ClientResponses (Decoder)
open CredPush (ReadsRequests)
open CredStore (CredKind credStage credFinalize credDeleteAll)
open DeviceResponses (Response InRange ReadsResponses Refuses Shows)
open ForwardCompat (Client)
open WifiConfig (doSet doApply wifiResetState wifiReprovision)

/-- The path of a request. -/
def endpoint : Request → Endpoint
  | .ver => .ver
  | .authChallenge _ | .authProof _ => .auth
  | .configGetStatus | .configSet _ _ _ _ | .configApply => .config
  | .scanStart _ _ | .scanGetStatus | .scanGetResults _ _ => .scan
  | .credWrite _ _ _ _ | .credFinalize | .credGetStatus => .cred
  | .ctrl _ => .ctrl

/-- The decoder that the client uses for the response. -/
def decoder : Request → Decoder
  | .ver => .ver
  | .authChallenge _ => .authChallenge
  | .authProof _ => .authProof
  | .configGetStatus => .configStatus
  | .configSet _ _ _ _ => .configSet
  | .configApply => .configApply
  | .scanStart _ _ => .scanStart
  | .scanGetStatus => .scanStatus
  | .scanGetResults _ _ => .scanResults
  | .credWrite _ _ _ _ => .credWrite
  | .credFinalize => .credFinalize
  | .credGetStatus => .credStatus
  | .ctrl op => .ctrl op

/-- A challenge: the response, or a failure of the crypto library. -/
def challenge (c : Crypto) (pop : Option Bytes) (rand : Nonce) (nonce : Bytes) (s : Session) :
    Response × Session :=
  let auth := { s.auth with cliNonce := nonce, devNonce := rand.val, challenged := true }
  let s := (Session.log { s with auth := auth } (.challenge nonce rand.val)).log (.hmac pop)
  match hmacProof c pop "dev" nonce rand.val with
  | none => (.bare .authChallenge .internalError, s)
  | some proof => (.auth (.challengeRsp .ok rand.val proof), s)

def prove (c : Crypto) (pop : Option Bytes) (proof : Bytes) (s : Session) : Response × Session :=
  if s.auth.challenged = false then
    (.auth (.proofRsp .invalidState), s.log (.proof proof false (some .invalidState) false))
  else
    let s := { s with auth := { s.auth with attempts := s.auth.attempts + 1 } }
    if s.auth.attempts > maxAttempts then
      (.auth (.proofRsp .unauthorized), s.log (.proof proof false (some .unauthorized) false))
    else
      let s := s.log (.hmac pop)
      match hmacProof c pop "cli" s.auth.devNonce s.auth.cliNonce with
      | none => (.bare .authProof .internalError, s.log (.proof proof false none false))
      | some expected =>
        if proof = expected then
          (.auth (.proofRsp .ok),
            Session.log { s with authorized := true } (.proof proof true (some .ok) true))
        else
          (.auth (.proofRsp .unauthorized), s.log (.proof proof true (some .unauthorized) false))

/-- The status of the station, and the address buffer afterwards. -/
def stationStatus (env : StatusEnv) (w : Wifi) : Response × Wifi :=
  if w.wc.staState = .connected then
    let (detail, ip4) := fillConnected env w.wc w.ip4
    (.config (.statusRsp .ok w.wc.staState (some detail)), { w with ip4 := ip4 })
  else if w.wc.staState = .failed then
    (.config (.statusRsp .ok w.wc.staState (some (.failReason w.wc.failReason))), w)
  else (.config (.statusRsp .ok w.wc.staState none), w)

/-- What the handlers do with a request that they have decoded. -/
def serve (b : Board) (w : World) (d : Dev) : Request → Response × Dev
  | .ver => (.ver ⟨.ok, verInfo b.build b.pop⟩, d)
  | .authChallenge nonce =>
    let (r, session) := challenge ⟨b.hmac, w.crypto⟩ b.pop w.rand nonce d.session
    (r, { d with session := session })
  | .authProof proof =>
    let (r, session) := prove ⟨b.hmac, w.crypto⟩ b.pop proof d.session
    (r, { d with session := session })
  | .configGetStatus =>
    let (r, wifi) := stationStatus w.status d.wifi
    (r, { d with wifi := wifi })
  | .configSet ssid pass bssid ch =>
    let (status, wc) := doSet ⟨ssid, pass, bssid, ch⟩ d.wifi.wc
    (.config (.setRsp status), { d with wifi := { d.wifi with wc := wc } })
  | .configApply =>
    let (status, wc, outs) := doApply w.wifi d.wifi.wc
    (.config (.applyRsp status), emitAll b.build outs { d with wifi := { d.wifi with wc := wc } })
  | .scanStart _ _ =>
    let (status, scan) := doStart w.scan d.scan
    (.scan (.startRsp status), { d with scan := scan })
  | .scanGetStatus => (.scan (.statusRsp .ok d.scan.finished d.scan.entries.length), d)
  | .scanGetResults start count => (.scan (.resultsRsp .ok (page start count d.scan)), d)
  | .credWrite kind off total data =>
    let (rc, cred) := credStage (kindCode kind) off total data d.cred
    let rsp := match rc with
      | .ok n => CredRsp.writeRsp .ok n
      | .error e => CredRsp.writeRsp (statusMap (.error e)) 0
    (.cred rsp, { d with cred := cred })
  | .credFinalize =>
    let (rc, cred) := credFinalize w.save d.cred
    let d := { d with cred := cred }
    (.cred (.finalizeRsp (statusMap rc)), if rc.isOk then emit b.build .cloudCredStored d else d)
  | .credGetStatus => (.cred (.statusRsp .ok (credStatusMap d.cred)), d)
  | .ctrl .reset =>
    (.ctrl .reset .ok, { d with
      wifi := if b.build.wifi then { d.wifi with wc := wifiResetState d.wifi.wc } else d.wifi })
  | .ctrl .reprovision =>
    (.ctrl .reprovision .ok, { d with
      wifi := if b.build.wifi then { d.wifi with wc := wifiReprovision w.wipe.wifi d.wifi.wc }
        else d.wifi
      cred := if b.build.cred then credDeleteAll w.wipe.cred d.cred else d.cred })
  | .ctrl .end_ => (.ctrl .end_ .ok, (mgrStop b.build d).2)

/-- The message of a response, if it has one. -/
def message (r : Response) : Option Bytes := cborEncode msgMax r.encoded

/-- A response without a message is replaced by a bare status. -/
def settle (r : Response) : Response :=
  if (message r).isSome then r else .bare r.decoder .internalError

/-- The response of the dispatcher to a request, and the device afterwards. -/
def respond (b : Board) (w : World) (q : Request) (d : Dev) : Response × Dev :=
  if requireAuth (endpoint q) ∧ ¬ sessionAuthorized b.pop d.session then
    (.bare (decoder q) .unauthorized, d)
  else
    let d := { d with session := d.session.log (.handler (endpoint q)) }
    let (r, d) := serve b w d q
    (settle r, d)

/-- `session.request` at a device: the entry is delivered, in whatever pieces, and the uplink is
flushed and searched for the path. -/
def ask (b : Board) (d : Dev) (e : Entry) : Option Bytes × Dev :=
  let d := deliver b d e
  let (rsps, rpc) := rpcUplinkFlush d.rpc
  ((rsps.find? (·.path = path e.ep)).map Rsp.msg, { d with rpc := rpc })

/-- The device apart from the entry in progress and the queue. -/
def quiet (d : Dev) : Dev := { d with active := ⟨none, [], false⟩, rpc := ⟨[], false, []⟩ }

/-- What a handler returns for a response. -/
inductive Sends : Response → Except Errno Bytes → Prop where
  | answered (r : Response) : Sends r (answer r.encoded)
  | failed (d : Decoder) : Sends (.bare d .internalError) (.error .eio)

section Handlers

variable {z : Zcbor} {q : Request}

lemma decodeWith_item (reads : ReadsRequests z) (bounds : q.InBounds)
    (fits : (encode q.item).length ≤ msgMax) {α : Type} (dec : Item → Option α) :
    decodeWith z dec (encode q.item) = dec q.item := by
  rw [decodeWith, reads q bounds fits]
  rfl

lemma uint32_small {n : Nat} (h : n < 2 ^ 31) : uint32 (.uint n) = some n :=
  if_pos (Nat.lt_trans h (by decide))

lemma boolOf_bool (v : Bool) : boolOf (.bool v) = some v := by
  cases v <;> rfl

/-- The entry of an optional field in a map that is written. -/
def entryOf {α : Type} (key : String) (make : α → Item) (a : Option α) : List Item :=
  match a with
  | some a => [text key, make a]
  | none => []

/-- The next entry of a map has another key. -/
def Elsewhere (key : String) (kvs : List Item) : Prop := ∀ k ∈ kvs.head?, keyIs key k = false

lemma keyIs_text (key other : String) : keyIs key (text other) = decide (other = key) := by
  have hinj : utf8 other = utf8 key ↔ other = key :=
    ⟨fun h => Option.some.inj (by rw [← Clients.utf8Decode_utf8, h, Clients.utf8Decode_utf8]),
      congrArg utf8⟩
  exact decide_eq_decide.mpr hinj

lemma elsewhere_nil {key : String} : Elsewhere key [] := by
  rintro k ⟨⟩

lemma elsewhere_entryOf {α : Type} {key other : String} (differs : other ≠ key) (make : α → Item)
    (a : Option α) {kvs : List Item} (rest : Elsewhere key kvs) :
    Elsewhere key (entryOf other make a ++ kvs) := by
  cases a with
  | none => exact rest
  | some a =>
    rintro k ⟨⟩
    rw [keyIs_text]
    exact decide_eq_false differs

/-- An optional entry is read where it is, and skipped where it is not. -/
lemma optField_entryOf {α : Type} {key : String} {value : Item → Option α} {make : α → Item}
    {a : Option α} (kept : ∀ v ∈ a, value (make v) = some v) {kvs : List Item}
    (rest : Elsewhere key kvs) : optField key value (entryOf key make a ++ kvs) = (a, kvs) := by
  cases a with
  | some v =>
    simp only [optField, entryOf, List.cons_append, List.nil_append, field, keyIs_text,
      decide_true, if_true, kept v rfl, Option.map_some]
  | none =>
    have hnone : field key value kvs = none := by
      rcases kvs with _ | ⟨k, _ | ⟨v, kvs⟩⟩
      · rfl
      · rfl
      · simp only [field, rest k rfl, Bool.false_eq_true, if_false]
    simp only [optField, entryOf, List.nil_append, hnone]

lemma field_text {α : Type} {key : String} {value : Item → Option α} {x : Item} {a : α}
    (kept : value x = some a) (kvs : List Item) :
    field key value (text key :: x :: kvs) = some (a, kvs) := by
  simp only [field, keyIs_text, decide_true, if_true, kept, Option.map_some]

lemma bstrOf_of {fits : Nat → Bool} {b : Bytes} (h : fits b.length = true) :
    bstrOf fits (.bstr b) = some b := if_pos h

lemma decodeConfigReq_set {ssid : Bytes} {pass bssid : Option Bytes} {ch : Option Nat}
    (bounds : (Request.configSet ssid pass bssid ch).InBounds) :
    decodeConfigReq (Request.configSet ssid pass bssid ch).item =
      some (.set ⟨ssid, pass, bssid, ch⟩) := by
  obtain ⟨hlow, hhigh, hpass, hbssid, hch⟩ := bounds
  have hitem : (Request.configSet ssid pass bssid ch).item = .array [.uint 1, .map
      (text "ssid" :: .bstr ssid :: (entryOf "pass" .bstr pass ++
        (entryOf "bssid" .bstr bssid ++ (entryOf "ch" .uint ch ++ []))))] := by
    cases pass <;> cases bssid <;> cases ch <;> rfl
  have hssid : bstrOf (fun n => 1 ≤ n ∧ n ≤ 32) (.bstr ssid) = some ssid :=
    bstrOf_of (by simp [hlow, hhigh])
  have hfirst : ∀ kvs, field "ssid" (bstrOf fun n => 1 ≤ n ∧ n ≤ 32)
      (text "ssid" :: .bstr ssid :: kvs) = some (ssid, kvs) := field_text hssid
  have hsecond : optField "pass" (bstrOf (· ≤ 64)) (entryOf "pass" .bstr pass ++
      (entryOf "bssid" .bstr bssid ++ (entryOf "ch" .uint ch ++ []))) = _ :=
    optField_entryOf (fun v hv => bstrOf_of (by simp [hpass v hv]))
      (elsewhere_entryOf (by decide) _ _ (elsewhere_entryOf (by decide) _ _ elsewhere_nil))
  have hthird : optField "bssid" (bstrOf (· = 6)) (entryOf "bssid" .bstr bssid ++
      (entryOf "ch" .uint ch ++ [])) = _ :=
    optField_entryOf (fun v hv => bstrOf_of (by simp [hbssid v hv]))
      (elsewhere_entryOf (by decide) _ _ elsewhere_nil)
  have hfourth : optField "ch" uint32 (entryOf "ch" .uint ch ++ []) = _ :=
    optField_entryOf (fun n hn => uint32_small (hch n hn)) elsewhere_nil
  simp only [hitem, decodeConfigReq, decodeWifiConfig, hfirst, hsecond, hthird, hfourth,
    Option.bind_eq_bind, Option.bind_some, List.isEmpty_nil, if_true, Option.map_some]

lemma decodeScanReq_start {passive : Option Bool} {periodMs : Option Nat}
    (bounds : (Request.scanStart passive periodMs).InBounds) :
    decodeScanReq (Request.scanStart passive periodMs).item =
      some (.start ⟨passive, periodMs⟩) := by
  have hitem : (Request.scanStart passive periodMs).item = .array [.uint 0, .map
      (entryOf "passive" .bool passive ++ (entryOf "period-ms" .uint periodMs ++ []))] := by
    cases passive <;> cases periodMs <;> rfl
  have hfirst : optField "passive" boolOf (entryOf "passive" .bool passive ++
      (entryOf "period-ms" .uint periodMs ++ [])) = _ :=
    optField_entryOf (fun v _ => boolOf_bool v) (elsewhere_entryOf (by decide) _ _ elsewhere_nil)
  have hsecond : optField "period-ms" uint32 (entryOf "period-ms" .uint periodMs ++ []) = _ :=
    optField_entryOf (fun n hn => uint32_small (bounds n hn)) elsewhere_nil
  simp only [hitem, decodeScanReq, decodeScanParams, hfirst, hsecond, List.isEmpty_nil, if_true,
    Option.map_some]

lemma handleChallenge_sends (c : Crypto) (pop : Option Bytes) (rand : Nonce) (s : Session)
    {nonce : Bytes} (size : nonce.length = nonceLen) :
    ∃ rsp, handleChallenge c pop rand s nonce = (rsp, (challenge c pop rand nonce s).2) ∧
      Sends (challenge c pop rand nonce s).1 rsp := by
  rw [handleChallenge, if_neg (not_not.mpr size), challenge]
  cases hproof : hmacProof c pop "dev" nonce rand.val with
  | none => exact ⟨_, rfl, .failed _⟩
  | some proof => exact ⟨_, rfl, .answered (.auth (.challengeRsp .ok rand.val proof))⟩

lemma handleProof_sends (c : Crypto) (pop : Option Bytes) (s : Session) {proof : Bytes}
    (size : proof.length = proofLen) :
    ∃ rsp, handleProof c pop s proof = (rsp, (prove c pop proof s).2) ∧
      Sends (prove c pop proof s).1 rsp := by
  rw [handleProof, prove]
  by_cases hchallenged : s.auth.challenged = false
  · rw [if_pos (.inl hchallenged), if_pos hchallenged]
    exact ⟨_, rfl, .answered (.auth (.proofRsp .invalidState))⟩
  · rw [if_neg (not_or.mpr ⟨hchallenged, not_not.mpr size⟩), if_neg hchallenged]
    dsimp only
    split
    · exact ⟨_, rfl, .answered (.auth (.proofRsp .unauthorized))⟩
    · cases hproof : hmacProof c pop "cli" s.auth.devNonce s.auth.cliNonce with
      | none =>
        simp only [Session.log, hproof]
        exact ⟨_, rfl, .failed _⟩
      | some expected =>
        have hlen : expected.length = proof.length := by
          obtain ⟨⟨-, hlen⟩, hout⟩ := Option.ite_none_right_eq_some.mp hproof
          rw [← Option.some.inj hout, hlen, size]
        have hdiff := proofDiff_eq_zero_iff hlen
        simp only [Session.log, hproof]
        by_cases hequal : proof = expected
        · rw [if_neg (not_not.mpr (hdiff.mpr hequal)), if_pos hequal]
          exact ⟨_, rfl, .answered (.auth (.proofRsp .ok))⟩
        · rw [if_pos (mt hdiff.mp hequal), if_neg hequal]
          exact ⟨_, rfl, .answered (.auth (.proofRsp .unauthorized))⟩

lemma encodeStatus_sends (env : StatusEnv) (w : Wifi) :
    ∃ rsp, encodeStatus env w = (rsp, (stationStatus env w).2) ∧
      Sends (stationStatus env w).1 rsp := by
  rw [encodeStatus, stationStatus]
  split
  · exact ⟨_, rfl, .answered (.config (.statusRsp _ _ _))⟩
  · split
    · exact ⟨_, rfl, .answered (.config (.statusRsp _ _ _))⟩
    · exact ⟨_, rfl, .answered (.config (.statusRsp _ _ _))⟩

/-- The handler of the endpoint serves the request that the client has encoded. -/
theorem runHandler_serves {b : Board} (w : World) (reads : ReadsRequests b.zcbor)
    (bounds : q.InBounds) (fits : (encode q.item).length ≤ msgMax) (d : Dev) :
    ∃ rsp, runHandler b w (endpoint q) (encode q.item) d = (rsp, (serve b w d q).2) ∧
      Sends (serve b w d q).1 rsp := by
  have hdecode {α : Type} (dec : Item → Option α) := decodeWith_item reads bounds fits dec
  cases q with
  | ver =>
    have hreq : decodeVerReq Request.ver.item = some () := rfl
    simp only [endpoint, runHandler, handleVer, hdecode, hreq]
    exact ⟨_, rfl, .answered (.ver _)⟩
  | authChallenge nonce =>
    have hsize : nonce.length = 16 := bounds
    have hreq : decodeAuthReq (Request.authChallenge nonce).item = some (.challenge nonce) :=
      congrArg (Option.map _) (bstrOf_of (decide_eq_true hsize))
    obtain ⟨rsp, hrsp, hsends⟩ :=
      handleChallenge_sends ⟨b.hmac, w.crypto⟩ b.pop w.rand d.session bounds
    simp only [endpoint, runHandler, handleAuth, hdecode, hreq, hrsp]
    exact ⟨rsp, rfl, hsends⟩
  | authProof proof =>
    have hsize : proof.length = 32 := bounds
    have hreq : decodeAuthReq (Request.authProof proof).item = some (.proof proof) :=
      congrArg (Option.map _) (bstrOf_of (decide_eq_true hsize))
    obtain ⟨rsp, hrsp, hsends⟩ := handleProof_sends ⟨b.hmac, w.crypto⟩ b.pop d.session bounds
    simp only [endpoint, runHandler, handleAuth, hdecode, hreq, hrsp]
    exact ⟨rsp, rfl, hsends⟩
  | configGetStatus =>
    have hreq : decodeConfigReq Request.configGetStatus.item = some .getStatus := rfl
    obtain ⟨rsp, hrsp, hsends⟩ := encodeStatus_sends w.status d.wifi
    simp only [endpoint, runHandler, handleConfig, hdecode, hreq, hrsp]
    exact ⟨rsp, rfl, hsends⟩
  | configSet ssid pass bssid ch =>
    simp only [endpoint, runHandler, handleConfig, hdecode, decodeConfigReq_set bounds]
    exact ⟨_, rfl, .answered (.config (.setRsp _))⟩
  | configApply =>
    have hreq : decodeConfigReq Request.configApply.item = some .apply := rfl
    simp only [endpoint, runHandler, handleConfig, hdecode, hreq]
    exact ⟨_, rfl, .answered (.config (.applyRsp _))⟩
  | scanStart passive periodMs =>
    simp only [endpoint, runHandler, handleScan, hdecode, decodeScanReq_start bounds]
    exact ⟨_, rfl, .answered (.scan (.startRsp _))⟩
  | scanGetStatus =>
    have hreq : decodeScanReq Request.scanGetStatus.item = some .getStatus := rfl
    simp only [endpoint, runHandler, handleScan, hdecode, hreq]
    exact ⟨_, rfl, .answered (.scan (.statusRsp _ _ _))⟩
  | scanGetResults start count =>
    have hreq : decodeScanReq (Request.scanGetResults start count).item =
        some (.getResults start count) := by
      simp [Request.item, decodeScanReq, uint32_small bounds.1, uint32_small bounds.2]
    simp only [endpoint, runHandler, handleScan, hdecode, hreq]
    exact ⟨_, rfl, .answered (.scan (.resultsRsp _ _))⟩
  | credWrite kind off total data =>
    obtain ⟨hoff, htotal, -⟩ := bounds
    have hreq := CredPush.decodeCredReq_write kind (show off < 2 ^ 32 by omega)
      (show total < 2 ^ 32 by omega) data
    simp only [endpoint, runHandler, handleCred, hdecode, hreq]
    exact ⟨_, rfl, .answered (.cred _)⟩
  | credFinalize =>
    have hreq : decodeCredReq Request.credFinalize.item = some .finalize := rfl
    simp only [endpoint, runHandler, handleCred, hdecode, hreq]
    exact ⟨_, rfl, .answered (.cred (.finalizeRsp _))⟩
  | credGetStatus =>
    have hreq : decodeCredReq Request.credGetStatus.item = some .getStatus := rfl
    simp only [endpoint, runHandler, handleCred, hdecode, hreq]
    exact ⟨_, rfl, .answered (.cred (.statusRsp _ _))⟩
  | ctrl op =>
    cases op with
    | reset =>
      have hreq : decodeCtrlReq (Request.ctrl .reset).item = some .ctrlReset := rfl
      simp only [endpoint, runHandler, handleCtrl, hdecode, hreq]
      exact ⟨_, rfl, .answered (.ctrl .reset .ok)⟩
    | reprovision =>
      have hreq : decodeCtrlReq (Request.ctrl .reprovision).item = some .ctrlReprovision := rfl
      simp only [endpoint, runHandler, handleCtrl, hdecode, hreq]
      exact ⟨_, rfl, .answered (.ctrl .reprovision .ok)⟩
    | end_ =>
      have hreq : decodeCtrlReq (Request.ctrl .end_).item = some .ctrlEnd := rfl
      simp only [endpoint, runHandler, handleCtrl, hdecode, hreq]
      exact ⟨_, rfl, .answered (.ctrl .end_ .ok)⟩

lemma peekOp_item (q : Request) : peekOp (encode q.item) = (decoder q).op := by
  cases q with
  | ctrl op => cases op <;> rfl
  | _ => rfl

lemma op_le_two (d : Decoder) : d.op ≤ 2 := Nat.le_of_lt_succ (DeviceResponses.op_small d)

lemma message_cases (r : Response) :
    message r = none ∨ ∃ x, r.encoded = some x ∧ (encode x).length ≤ msgMax ∧
      message r = some (encode x) := by
  rw [message]
  cases hx : r.encoded with
  | none => exact .inl rfl
  | some x =>
    by_cases hfits : (encode x).length ≤ msgMax
    · exact .inr ⟨x, rfl, hfits, cborEncode_some hfits⟩
    · exact .inl (by simp [cborEncode, hfits])

/-- A bare status is always sent. -/
lemma bare_encoded (d : Decoder) (status : ProvStatus) :
    (Response.bare d status).encoded = some (.array [.uint d.op, encodeProvStatus status]) := by
  rw [Response.encoded, encodeCtrlRsp, if_pos (op_le_two d), u32,
    Nat.mod_eq_of_lt (Nat.lt_of_le_of_lt (op_le_two d) (by decide))]

lemma bare_encode {size : Nat} (room : 3 ≤ size) (d : Decoder) (status : ProvStatus) :
    cborEncode size (Response.bare d status).encoded =
      some (encode (.array [.uint d.op, encodeProvStatus status])) := by
  rw [bare_encoded]
  exact cborEncode_some (Nat.le_trans (Nat.le_of_eq (statusPair_length (op_le_two d) status)) room)

lemma respondStatus_bare (q : Request) (status : ProvStatus) (d : Dev) :
    respondStatus true (endpoint q) (peekOp (encode q.item)) status d =
      { d with rpc := push ⟨path (endpoint q),
        encode (.array [.uint (decoder q).op, encodeProvStatus status])⟩ d.rpc } := by
  have hlen := statusPair_length (op_le_two (decoder q)) status
  have hencode : cborEncode 16 (encodeCtrlRsp ⟨(decoder q).op, status⟩) = _ :=
    bare_encode (by decide) (decoder q) status
  simp only [respondStatus, peekOp_item, hencode]
  rw [rpcEnqueue_fits (Nat.le_trans (Nat.le_of_eq hlen) (by decide))]

/-- The reply to what a handler returned is the message of the response. -/
lemma reply_sends {r : Response} {rsp : Except Errno Bytes} (sends : Sends r rsp)
    (same : r.decoder = decoder q) (d : Dev) :
    ∃ x, (settle r).encoded = some x ∧ (encode x).length ≤ msgMax ∧
      reply true (endpoint q) (encode q.item) rsp d =
        { d with rpc := push ⟨path (endpoint q), encode x⟩ d.rpc } := by
  cases sends with
  | answered =>
    rcases message_cases r with hnone | ⟨x, hx, hfits, hsome⟩
    · have hanswer : answer r.encoded = .error .enomem := by
        rw [answer, show cborEncode msgMax r.encoded = none from hnone]
      have hsettle : settle r = .bare (decoder q) .internalError := by simp [settle, hnone, same]
      have hlen := statusPair_length (op_le_two (decoder q)) .internalError
      rw [hsettle, hanswer]
      exact ⟨_, bare_encoded _ _, Nat.le_trans (Nat.le_of_eq hlen) (by decide),
        respondStatus_bare q .internalError d⟩
    · have hanswer : answer r.encoded = .ok (encode x) := by
        rw [answer, show cborEncode msgMax r.encoded = some (encode x) from hsome]
      have hsettle : settle r = r := by simp [settle, hsome]
      have hpos : 0 < (encode x).length := encode_length_pos x
      rw [hsettle, hanswer]
      refine ⟨x, hx, hfits, ?_⟩
      simp only [reply, gt_iff_lt, hpos, if_true]
      rw [rpcEnqueue_fits hfits]
  | failed decoded =>
    obtain rfl : decoded = decoder q := same
    have hlen := statusPair_length (op_le_two (decoder q)) .internalError
    have hencode : message (.bare (decoder q) .internalError) = _ := bare_encode (by decide) _ _
    have hsettle : settle (.bare (decoder q) .internalError) =
        .bare (decoder q) .internalError := by simp [settle, hencode]
    rw [hsettle]
    exact ⟨_, bare_encoded _ _, Nat.le_trans (Nat.le_of_eq hlen) (by decide),
      respondStatus_bare q .internalError d⟩

lemma serve_decoder (b : Board) (w : World) (d : Dev) (q : Request) :
    (serve b w d q).1.decoder = decoder q := by
  cases q with
  | authChallenge nonce =>
    simp only [serve, challenge]
    split <;> rfl
  | authProof proof =>
    simp only [serve, prove]
    split
    · rfl
    · split
      · rfl
      · split
        · rfl
        · split <;> rfl
  | configGetStatus =>
    simp only [serve, stationStatus]
    split
    · rfl
    · split <;> rfl
  | credWrite kind off total data =>
    simp only [serve]
    split <;> rfl
  | ctrl op => cases op <;> rfl
  | _ => rfl

/-- A request that the client has encoded is answered with the response. -/
theorem handleRequest_responds {b : Board} {w : World} (reads : ReadsRequests b.zcbor)
    (bounds : q.InBounds) (fits : (encode q.item).length ≤ msgMax) (memory : w.memory = true)
    (d : Dev) :
    ∃ x, (respond b w q d).1.encoded = some x ∧ (encode x).length ≤ msgMax ∧
      handleRequest b w (endpoint q) (encode q.item) d =
        { (respond b w q d).2 with
          rpc := push ⟨path (endpoint q), encode x⟩ (respond b w q d).2.rpc } := by
  rw [handleRequest, respond, memory]
  split
  · have hlen := statusPair_length (op_le_two (decoder q)) .unauthorized
    exact ⟨_, bare_encoded _ _, Nat.le_trans (Nat.le_of_eq hlen) (by decide),
      respondStatus_bare q .unauthorized d⟩
  · obtain ⟨rsp, hrun, hsends⟩ := runHandler_serves w reads bounds fits
      { d with session := d.session.log (.handler (endpoint q)) }
    obtain ⟨x, hx, hshort, hreply⟩ := reply_sends hsends (serve_decoder _ _ _ _)
      (serve b w { d with session := d.session.log (.handler (endpoint q)) } q).2
    refine ⟨x, hx, hshort, ?_⟩
    simp only [hrun]
    exact hreply

lemma emit_quiet (build : Build) (e : Event) (d : Dev) :
    quiet (emit build e d) = emit build e (quiet d) := by
  rw [emit, apply_ite quiet]
  rfl

lemma emitAll_quiet (build : Build) (outs : List WifiConfig.Out) (d : Dev) :
    quiet (emitAll build outs d) = emitAll build outs (quiet d) := by
  simp only [emitAll]
  induction outs generalizing d with
  | nil => rfl
  | cons o outs ih =>
    cases o with
    | event e =>
      simp only [List.foldl_cons]
      rw [ih, emit_quiet]
    | connect req accepted => exact ih d

lemma mgrStop_quiet (build : Build) (d : Dev) :
    quiet (mgrStop build d).2 = quiet (mgrStop build (quiet d)).2 := by
  cases hruns : d.running <;> simp [mgrStop, quiet, hruns, endSession, dispatchReset]

/-- The entry in progress and the queue have no part in what is served. -/
lemma serve_quiet (b : Board) (w : World) (d : Dev) (q : Request) :
    (serve b w d q).1 = (serve b w (quiet d) q).1 ∧
      quiet (serve b w d q).2 = quiet (serve b w (quiet d) q).2 := by
  cases q with
  | configApply =>
    refine ⟨rfl, ?_⟩
    simp only [serve]
    rw [emitAll_quiet, emitAll_quiet]
    rfl
  | credFinalize =>
    refine ⟨rfl, ?_⟩
    simp only [serve]
    rw [apply_ite quiet, apply_ite quiet, emit_quiet, emit_quiet]
    rfl
  | ctrl op =>
    cases op with
    | end_ => exact ⟨rfl, mgrStop_quiet b.build d⟩
    | _ => exact ⟨rfl, rfl⟩
  | _ => exact ⟨rfl, rfl⟩

theorem respond_quiet (b : Board) (w : World) (q : Request) (d : Dev) :
    (respond b w q d).1 = (respond b w q (quiet d)).1 ∧
      quiet (respond b w q d).2 = quiet (respond b w q (quiet d)).2 := by
  obtain ⟨hsame, hquiet⟩ :=
    serve_quiet b w { d with session := d.session.log (.handler (endpoint q)) } q
  have hgate : sessionAuthorized b.pop (quiet d).session = sessionAuthorized b.pop d.session := rfl
  simp only [respond, hgate]
  split
  · exact ⟨rfl, rfl⟩
  · exact ⟨congrArg settle hsame, hquiet⟩

/-- Nothing is put into the queue before the reply. -/
lemma serve_queue (b : Board) (w : World) (d : Dev) (q : Request) (empty : d.rpc.fifo = []) :
    (serve b w d q).2.rpc.fifo = [] := by
  cases q with
  | configApply =>
    simp only [serve]
    rw [emitAll_rpc]
    exact empty
  | credFinalize =>
    simp only [serve]
    split
    · obtain ⟨armed, hemit⟩ := emit_frame b.build .cloudCredStored
        { d with cred := (credFinalize w.save d.cred).2 }
      rw [hemit]
      exact empty
    · exact empty
  | ctrl op =>
    cases op with
    | end_ =>
      simp only [serve, mgrStop_rpc]
      split
      · rfl
      · exact empty
    | _ => exact empty
  | _ => exact empty

lemma respond_queue (b : Board) (w : World) (q : Request) (d : Dev) (empty : d.rpc.fifo = []) :
    (respond b w q d).2.rpc.fifo = [] := by
  rw [respond]
  split
  · exact empty
  · exact serve_queue _ _ _ _ empty

/-- A call at a device without responses in its queue: the client finds the message of the
response, and the device is as after the request. -/
theorem ask_responds {b : Board} {e : Entry} (reads : ReadsRequests b.zcbor)
    (registered : endpoint q ∈ endpoints b.build) (memory : e.world.memory = true)
    (bounds : q.InBounds) (fits : (encode q.item).length ≤ msgMax) (path : e.ep = endpoint q)
    (msg : e.msg = encode q.item) {d : Dev} (empty : d.rpc.fifo = []) :
    ∃ x, (respond b e.world q d).1.encoded = some x ∧ (encode x).length ≤ msgMax ∧
      (ask b d e).1 = some (encode x) ∧ (ask b d e).2.rpc.fifo = [] ∧
      quiet (ask b d e).2 = quiet (respond b e.world q d).2 := by
  obtain ⟨a, hdeliver⟩ := deliver_eq (e := e) (path ▸ registered) d
  rw [msg, if_neg (Nat.not_lt.mpr fits), path] at hdeliver
  obtain ⟨x, hx, hshort, hhandle⟩ :=
    handleRequest_responds reads bounds fits memory { d with active := a }
  obtain ⟨hsame, hquiet⟩ := respond_quiet b e.world q d
  obtain ⟨hsame', hquiet'⟩ := respond_quiet b e.world q { d with active := a }
  have hqueue := respond_queue b e.world q { d with active := a } empty
  rw [hhandle] at hdeliver
  refine ⟨x, ?_, hshort, ?_, ?_, ?_⟩
  · rw [hsame, ← hx, hsame']
    rfl
  · simp only [ask, hdeliver, rpcUplinkFlush, push, hqueue, path, List.nil_append]
    simp
  · rfl
  · simp only [ask, hdeliver]
    exact hquiet'.trans hquiet.symm

end Handlers

/-- The cache holds results of the driver, no more than it has room for, and the counters of the
credentials stay within the buffers. -/
structure Ranged (build : Build) (d : Dev) : Prop where
  typed : ∀ e ∈ d.scan.entries, ScanRuns.Typed e
  size : d.scan.entries.length ≤ build.scanCache
  cred : CredRuns.Wf d.cred

lemma doStart_entries (env : ScanEnv) (sc : Scan) :
    (doStart env sc).2.entries = sc.entries ∨ (doStart env sc).2.entries = [] := by
  rw [doStart]
  split
  · exact .inl rfl
  · split <;> exact .inr rfl

lemma handleScan_entries (z : Zcbor) (env : ScanEnv) (sc : Scan) (req : Bytes) :
    (handleScan z env sc req).2.entries = sc.entries ∨
      (handleScan z env sc req).2.entries = [] := by
  rw [handleScan]
  split
  · exact .inl rfl
  · exact doStart_entries env sc
  · exact .inl rfl
  · exact .inl rfl

/-- What an event can do to the entries of the scan cache. -/
lemma step_entries (b : Board) (d : Dev) (e : Ev) :
    (step b d e).scan.entries = d.scan.entries ∨ (step b d e).scan.entries = [] ∨
      ∃ r, (step b d e).scan = onResult b.build r d.scan := by
  cases e with
  | downlinkStart streamId p contentType =>
    refine .inl ?_
    simp only [step, downlinkStart]
    split
    · rfl
    · split <;> rfl
  | downlinkData streamId data isLast w =>
    cases harrives : AuthGate.arrives d (.downlinkData streamId data isLast w) with
    | none =>
      rw [EndpointRuns.downlinkData_scan b harrives]
      exact .inl rfl
    | some r =>
      obtain ⟨a, hstep⟩ := AuthGate.downlinkData_arrives b harrives
      rw [hstep, EndpointRuns.handleRequest_scan]
      split
      · rcases handleScan_entries b.zcbor w.scan d.scan r.2 with h | h
        · exact .inl h
        · exact .inr (.inl h)
      · exact .inl rfl
  | scanResult r =>
    simp only [step]
    split
    · exact .inr (.inr ⟨r, rfl⟩)
    · exact .inl rfl
  | scanDone =>
    simp only [step]
    split <;> exact .inl rfl
  | mgrStart w => simp [step]
  | mgrStop => simp [step]
  | autostop | connectResult | retryWork =>
    simp only [step]
    split <;> simp
  | _ => exact .inl rfl

theorem step_ranged {b : Board} {d : Dev} (h : Ranged b.build d) (e : Ev) :
    Ranged b.build (step b d e) := by
  have hcred : CredRuns.Wf (step b d e).cred := by
    obtain ⟨ops, hops⟩ := EndpointRuns.step_cred b d e
    rw [hops]
    exact foldl_invariant (I := CredRuns.Wf) (fun s op wf => CredRuns.step_wf wf op) h.cred ops
  rcases step_entries b d e with hsame | hnone | ⟨r, hresult⟩
  · exact ⟨hsame ▸ h.typed, hsame ▸ h.size, hcred⟩
  · exact ⟨by simp [hnone], by simp [hnone], hcred⟩
  · rw [onResult] at hresult
    split at hresult
    · exact ⟨hresult ▸ h.typed, hresult ▸ h.size, hcred⟩
    · rename_i hroom
      refine ⟨?_, ?_, hcred⟩
      · rw [hresult]
        intro e he
        rcases List.mem_append.mp he with hold | hnew
        · exact h.typed e hold
        · rw [List.mem_singleton.mp hnew]
          exact ScanRuns.entryOf_typed r
      · rw [hresult, List.length_append, List.length_singleton]
        omega

/-- The sizes of the build are those of an `int`. -/
structure Sized (build : Build) : Prop where
  block : build.blockSize < 2 ^ 31
  cache : build.scanCache < 2 ^ 31

/-- The signal strength of an interface is an `int`. -/
def Measured (w : World) : Prop := ∀ s ∈ w.status.status, -2 ^ 31 ≤ s.rssi ∧ s.rssi < 2 ^ 31

lemma cap_small (k : CredKind) : CredStore.cap k < 2 ^ 31 := by
  cases k <;> decide

lemma stationStatus_inRange {env : StatusEnv} {w : Wifi}
    (measured : ∀ s ∈ env.status, -2 ^ 31 ≤ s.rssi ∧ s.rssi < 2 ^ 31) :
    InRange (stationStatus env w).1 := by
  rw [stationStatus]
  split
  · simp only [fillConnected]
    cases hstatus : env.status with
    | none => trivial
    | some status =>
      cases env.iface with
      | false => trivial
      | true => exact measured status hstatus
  · split <;> trivial

lemma credWrite_inRange {s : CredStore.Store} (wf : CredRuns.Wf s) (kind : Int)
    (off total : Nat) (data : Bytes) :
    InRange (.cred (match (credStage kind off total data s).1 with
      | .ok n => CredRsp.writeRsp .ok n
      | .error e => CredRsp.writeRsp (statusMap (.error e)) 0)) := by
  have hzero : (0 : Nat) < 2 ^ 31 := by decide
  rcases CredStore.credStage_cases kind off total data s with
    ⟨-, h⟩ | ⟨k, -, ⟨-, h⟩ | ⟨-, -, h⟩ | ⟨haccepts, h⟩⟩
  · simp only [h]
    exact hzero
  · simp only [h]
    exact hzero
  · simp only [h]
    exact hzero
  · have hinside := (CredRuns.accepts_inside wf haccepts).2
    rw [(wf k).size] at hinside
    simp only [h]
    exact Nat.lt_of_le_of_lt hinside (cap_small k)

/-- The kinds in a status map. -/
def storedKinds (s : CredStore.Store) : List (CredKind × Nat) :=
  (CredStore.kinds.map fun k => (k, (s.blob k).staged)).filter fun kv => kv.2 ≠ 0

lemma credStatusMap_storedKinds (s : CredStore.Store) :
    credStatusMap s = (storedKinds s).map fun k => (keyName k.1, k.2) := by
  have hmap : (CredStore.kinds.map fun k => (keyName k, (s.blob k).staged)) =
      (CredStore.kinds.map fun k => (k, (s.blob k).staged)).map
        fun k => (keyName k.1, k.2) := rfl
  rw [credStatusMap_eq, hmap, List.filter_map, storedKinds]
  rfl

lemma credStatus_inRange {s : CredStore.Store} (wf : CredRuns.Wf s) (status : ProvStatus) :
    InRange (.cred (.statusRsp status (credStatusMap s))) := by
  refine ⟨storedKinds s, credStatusMap_storedKinds s, ?_, ?_⟩
  · have hall : ((CredStore.kinds.map fun k => (k, (s.blob k).staged)).map Prod.fst).Nodup := by
      rw [List.map_map]
      exact show CredStore.kinds.Nodup by decide
    exact hall.sublist (List.filter_sublist.map Prod.fst)
  · intro kv hkv
    obtain ⟨k, -, rfl⟩ := List.mem_map.mp (List.mem_filter.mp hkv).1
    have hstaged := (wf k).staged_le
    have hexpected := (wf k).expected_le
    exact Nat.lt_of_le_of_lt (Nat.le_trans hstaged hexpected) (cap_small k)

lemma serve_inRange {b : Board} {w : World} {d : Dev} (sized : Sized b.build)
    (measured : Measured w) (ranged : Ranged b.build d) (q : Request) :
    InRange (serve b w d q).1 := by
  have hfailure : ProvStatus.internalError ≠ .ok := by decide
  cases q with
  | ver => exact ⟨show 1 < 2 ^ 31 by decide, sized.block⟩
  | authChallenge nonce =>
    simp only [serve, challenge]
    split
    · exact hfailure
    · trivial
  | authProof proof =>
    simp only [serve, prove]
    split
    · trivial
    · split
      · trivial
      · split
        · exact hfailure
        · split <;> trivial
  | configGetStatus => exact stationStatus_inRange measured
  | scanGetStatus => exact Nat.lt_of_le_of_lt ranged.size sized.cache
  | scanGetResults start count =>
    exact fun e he => ranged.typed e (List.mem_of_mem_drop (List.mem_of_mem_take he))
  | credWrite kind off total data => exact credWrite_inRange ranged.cred _ _ _ _
  | credGetStatus => exact credStatus_inRange ranged.cred .ok
  | ctrl op => cases op <;> trivial
  | _ => trivial

lemma respond_inRange {b : Board} {w : World} {d : Dev} (sized : Sized b.build)
    (measured : Measured w) (ranged : Ranged b.build d) (q : Request) :
    InRange (respond b w q d).1 := by
  rw [respond]
  split
  · exact show ProvStatus.unauthorized ≠ .ok by decide
  · have hserve := serve_inRange sized measured
      (d := { d with session := d.session.log (.handler (endpoint q)) })
      ⟨ranged.typed, ranged.size, ranged.cred⟩ q
    simp only [settle]
    split
    · exact hserve
    · exact show ProvStatus.internalError ≠ .ok by decide

/-- A client calls, or something else happens at the device. -/
inductive Act where
  | call (c : Client) (q : Request) (e : Entry)
  | event (e : Ev)

def next (b : Board) (d : Dev) : Act → Dev
  | .call _ _ e => (ask b d e).2
  | .event e => step b d e

/-- The CBOR library of the client serves it in both directions. -/
structure Speaks (c : Client) : Prop where
  writes : ScanFlow.WritesRequests c
  reads : ReadsResponses c

/-- The client writes and reads messages, and what it has encoded is delivered to an endpoint of
the build that can answer. Nothing but calls touches the transport. -/
def Admitted (b : Board) : Act → Prop
  | .call c q e => Speaks c ∧ q.InBounds ∧ (encode q.item).length ≤ msgMax ∧
      endpoint q ∈ endpoints b.build ∧ e.ep = endpoint q ∧
      ScanFlow.requestBytes q c = some e.msg ∧ e.world.memory = true ∧ Measured e.world
  | .event e => Exchange.inside e = true

/-- The client gets the response of the device without encodings, which moves on alike. -/
def Answered (b : Board) (d : Dev) : Act → Prop
  | .call c q e => ∃ data, (ask b d e).1 = some data ∧
      DeviceResponses.Gets c (respond b e.world q d).1 data ∧
      (respond b e.world q d).1.decoder = decoder q ∧
      quiet (ask b d e).2 = quiet (respond b e.world q d).2
  | .event _ => True

section Runs

variable {b : Board}

lemma respond_decoder (w : World) (q : Request) (d : Dev) :
    (respond b w q d).1.decoder = decoder q := by
  rw [respond]
  split
  · rfl
  · have hserve := serve_decoder b w
      { d with session := d.session.log (.handler (endpoint q)) } q
    simp only [settle]
    split
    · exact hserve
    · exact hserve

lemma inside_queue {e : Ev} (inside : Exchange.inside e = true) {d : Dev}
    (empty : d.rpc.fifo = []) : (step b d e).rpc.fifo = [] := by
  have hsuffix := (Exchange.inside_keeps b inside d).2
  rw [empty] at hsuffix
  exact List.suffix_nil.mp hsuffix

lemma ask_ranged {d : Dev} (ranged : Ranged b.build d) (e : Entry) :
    Ranged b.build (ask b d e).2 := by
  have hdeliver : Ranged b.build (deliver b d e) :=
    foldl_invariant (I := Ranged b.build) (fun d e h => step_ranged h e) ranged e.events
  exact step_ranged hdeliver .uplinkFlush

/-- Between calls the queue is empty. -/
def Ready (b : Board) (d : Dev) : Prop := d.rpc.fifo = [] ∧ Ranged b.build d

lemma call_answered (reads : ReadsRequests b.zcbor) (sized : Sized b.build) {d : Dev}
    (ready : Ready b d) {a : Act} (admitted : Admitted b a) :
    Answered b d a ∧ Ready b (next b d a) := by
  obtain ⟨hempty, hranged⟩ := ready
  cases a with
  | event e => exact ⟨trivial, inside_queue admitted hempty, step_ranged hranged e⟩
  | call c q e =>
    obtain ⟨hspeaks, hbounds, hfits, hregistered, hpath, hbytes, hmemory, hmeasured⟩ := admitted
    have hmsg : e.msg = encode q.item :=
      (Option.some.inj ((ScanFlow.requestBytes_eq hspeaks.writes hbounds).symm.trans hbytes)).symm
    obtain ⟨x, hx, hshort, hask, hqueue, hquiet⟩ :=
      ask_responds reads hregistered hmemory hbounds hfits hpath hmsg hempty
    have hinRange := respond_inRange sized hmeasured hranged q
    exact ⟨⟨encode x, hask, DeviceResponses.response_gets hspeaks.reads hinRange hx hshort,
      respond_decoder e.world q d, hquiet⟩, hqueue, ask_ranged hranged e⟩

end Runs

lemma init_ready (b : Board) (connAttempts : UInt32) (settings : CredKind → Option Bytes)
    (read : CredKind → Settings.Read) (creds : List WifiConfig.Credential) :
    Ready b (init b.build connAttempts settings read creds) := by
  have hboot := CredRuns.boot_wf settings
  refine ⟨rfl, ?_, Nat.zero_le _, ?_⟩
  · rintro e ⟨⟩
  · simp only [init]
    split
    · exact CredRuns.step_wf hboot (.reload read)
    · exact hboot

def sampleBoard : Board := { AuthGate.sampleBoard with zcbor := .definite 768 }

def single (q : Request) : Entry := Replies.single (endpoint q) (encode q.item)

/-- The command line asks for the version, and the phone for networks without authorization. -/
def sampleActs : List Act :=
  [.event (.mgrStart {}),
    .call (.python DeviceResponses.responseCodec DeviceResponses.responseDicts) .ver (single .ver),
    .event .scanDone,
    .call (.kotlin ClientResponses.referenceTexts) .scanGetStatus (single .scanGetStatus)]

lemma single_admitted {b : Board} {c : Client} (speaks : Speaks c) {q : Request}
    (bounds : q.InBounds) (fits : (encode q.item).length ≤ msgMax)
    (registered : endpoint q ∈ endpoints b.build) : Admitted b (.call c q (single q)) := by
  refine ⟨speaks, bounds, fits, registered, rfl, ScanFlow.requestBytes_eq speaks.writes bounds,
    rfl, ?_⟩
  rintro s ⟨⟩

lemma python_speaks :
    Speaks (.python DeviceResponses.responseCodec DeviceResponses.responseDicts) :=
  ⟨ClientRequests.item_writes _ _ _, DeviceResponses.responseDicts_reads⟩

lemma kotlin_speaks : Speaks (.kotlin ClientResponses.referenceTexts) :=
  ⟨trivial, DeviceResponses.referenceTexts_reads⟩

end Calls
