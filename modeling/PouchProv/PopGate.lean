import PouchProv.CredPush
import PouchProv.Exchange

/-!
# The advertised proof of possession

The version response says whether a proof of possession is needed. The version
handler decides this from the build and the secret, the dispatcher opens its gate
from the secret alone, and whether there is an endpoint to prove the secret to is
up to the build alone.

What can put a refusal into the response queue is said once, in `step_clears`:
the gate, or a proof request in a session that has a challenge.
-/

namespace PopGate

open Bytes Cbor Codec Handlers Auth Device ProvTypes Status Runs AuthGate Requests
open ClientRequests (Request)
open CredPush (ReadsRequests)

/-- The number behind the op code. -/
def statusOf (m : Bytes) : Option Nat :=
  (arrayBody m).bind fun body => (readHead body).bind fun op => (readHead op.rest).map Head.arg

/-- The message says that the session is not authorized. -/
def Refusal (m : Bytes) : Prop := statusOf m = some ProvStatus.unauthorized.code

instance (m : Bytes) : Decidable (Refusal m) := inferInstanceAs (Decidable (_ = _))

lemma arrayBody_encode {xs : List Item} (h : xs.length < 2 ^ 64) :
    arrayBody (encode (.array xs)) = some (encodeAll xs) := by
  simp only [arrayBody, encode, readHead_head (show 4 < 8 by decide) h, if_true]

lemma statusOf_encode {x : Item} {op : Nat} {s : ProvStatus} (h : Response op s x)
    (short : (encode x).length < 2 ^ 64) : statusOf (encode x) = some s.code := by
  obtain ⟨⟨xs, rfl⟩, hop, hstatus, -⟩ := h
  have hop : op < 2 ^ 64 := hop
  have hstatus : s.code < 2 ^ 64 := hstatus
  have hcount := length_le_encodeAll (.uint op :: encodeProvStatus s :: xs)
  have hlength : (.uint op :: encodeProvStatus s :: xs : List Item).length < 2 ^ 64 := by
    simp only [encode, List.length_append] at short
    omega
  rw [statusOf, arrayBody_encode hlength]
  simp only [Option.bind_some, encodeAll, encode, encodeProvStatus,
    readHead_head (show 0 < 8 by decide) hop, readHead_head (show 0 < 8 by decide) hstatus,
    Option.map_some]

/-- What a handler answers with an encoder of the status has the status. -/
lemma statusOf_answer {item : Option Item} {op : Nat} {s : ProvStatus} {m : Bytes}
    (response : ∀ x, item = some x → Response op s x) (answered : answer item = .ok m) :
    statusOf m = some s.code := by
  obtain ⟨x, hx, hfits, rfl⟩ := answer_ok_iff.mp answered
  exact statusOf_encode (response x hx) (Nat.lt_of_le_of_lt hfits (by decide))

lemma code_inj {s s' : ProvStatus} (h : s.code = s'.code) : s = s' := by
  revert h
  cases s <;> cases s' <;> decide

/-- The result of a handler is no response that says unauthorized. -/
def Clears (rsp : Except Errno Bytes) : Prop :=
  ∀ m, rsp = .ok m → ¬ Refusal m

lemma clears_answer {item : Option Item} {op : Nat} {s : ProvStatus} (other : s ≠ .unauthorized)
    (response : ∀ x, item = some x → Response op s x) : Clears (answer item) := by
  rintro m hanswer hrefusal
  have hcode := statusOf_answer response hanswer
  exact other (code_inj (Option.some.inj (hcode.symm.trans hrefusal)))

lemma clears_error (err : Errno) : Clears (.error err) := by
  rintro m ⟨⟩

lemma handleVer_clears (z : Zcbor) (build : Build) (pop : Option Bytes) (req : Bytes) :
    Clears (handleVer z build pop req) := by
  simp only [handleVer]
  cases decodeWith z decodeVerReq req with
  | none => exact clears_error _
  | some r => exact clears_answer (s := .ok) (by decide) fun _ => encodeVerRsp_response

/-- Before a challenge the auth endpoint answers no proof with unauthorized. -/
lemma handleAuth_clears (z : Zcbor) (c : Crypto) (pop : Option Bytes) (rand : Nonce) {s : Session}
    (idle : s.auth.challenged = false) (req : Bytes) :
    Clears (handleAuth z c pop rand s req).1 := by
  have hauth {r : AuthRsp} (h : authRspStatus r ≠ .unauthorized) :
      Clears (answer (encodeAuthRsp r)) := clears_answer h fun _ => encodeAuthRsp_response
  simp only [handleAuth]
  cases decodeWith z decodeAuthReq req with
  | none => exact clears_error _
  | some r =>
    cases r with
    | challenge nonce =>
      simp only [handleChallenge]
      split
      · exact clears_error _
      · split
        · exact clears_error _
        · exact hauth ProvStatus.noConfusion
    | proof p =>
      simp only [handleProof, idle, true_or, if_true]
      exact hauth (r := .proofRsp .invalidState) ProvStatus.noConfusion

lemma handleCtrl_clears (z : Zcbor) (build : Build) (env : WipeEnv) (w : Wifi)
    (s : CredStore.Store) (req : Bytes) : Clears (handleCtrl z build env w s req).1 := by
  have hctrl (op : Nat) : Clears (answer (encodeCtrlRsp ⟨op, .ok⟩)) :=
    clears_answer (s := .ok) (by decide) fun _ h => (encodeCtrlRsp_response h).1
  simp only [handleCtrl]
  cases decodeWith z decodeCtrlReq req with
  | none => exact clears_error _
  | some r =>
    cases r with
    | ctrlReset => exact hctrl 0
    | ctrlReprovision => exact hctrl 1
    | ctrlEnd => exact hctrl 2

lemma doSet_status (cfg : WifiCfg) (wc : WifiConfig.State) :
    (WifiConfig.doSet cfg wc).1 ≠ .unauthorized := by
  rw [WifiConfig.doSet]
  split
  · exact ProvStatus.noConfusion
  · split <;> exact ProvStatus.noConfusion

lemma doApply_status (env : WifiConfig.Env) (wc : WifiConfig.State) :
    (WifiConfig.doApply env wc).1 ≠ .unauthorized := by
  rw [WifiConfig.doApply]
  split
  · exact ProvStatus.noConfusion
  · simp only
    split
    · exact ProvStatus.noConfusion
    · split <;> exact ProvStatus.noConfusion

lemma clears_config {r : ConfigRsp} (h : configRspStatus r ≠ .unauthorized) :
    Clears (answer (encodeConfigRsp r)) :=
  clears_answer h fun _ => encodeConfigRsp_response

lemma encodeStatus_clears (env : StatusEnv) (w : Wifi) : Clears (encodeStatus env w).1 := by
  rw [encodeStatus]
  split
  · exact clears_config ProvStatus.noConfusion
  · split
    · exact clears_config ProvStatus.noConfusion
    · exact clears_config ProvStatus.noConfusion

lemma handleConfig_clears (z : Zcbor) (status : StatusEnv) (env : WifiConfig.Env) (w : Wifi)
    (req : Bytes) : Clears (handleConfig z status env w req).1 := by
  simp only [handleConfig]
  cases decodeWith z decodeConfigReq req with
  | none => exact clears_error _
  | some r =>
    cases r with
    | getStatus => exact encodeStatus_clears status w
    | set cfg =>
      simp only
      exact clears_config (doSet_status cfg w.wc)
    | apply =>
      simp only
      exact clears_config (doApply_status env w.wc)

lemma doStart_status (env : ScanEnv) (sc : Scan) : (doStart env sc).1 ≠ .unauthorized := by
  rw [doStart]
  split
  · exact ProvStatus.noConfusion
  · split <;> exact ProvStatus.noConfusion

lemma handleScan_clears (z : Zcbor) (env : ScanEnv) (sc : Scan) (req : Bytes) :
    Clears (handleScan z env sc req).1 := by
  have hscan {r : ScanRsp} (h : scanRspStatus r ≠ .unauthorized) :
      Clears (answer (encodeScanRsp r)) := clears_answer h fun _ => encodeScanRsp_response
  simp only [handleScan]
  cases decodeWith z decodeScanReq req with
  | none => exact clears_error _
  | some r =>
    cases r with
    | start params =>
      simp only
      exact hscan (doStart_status env sc)
    | getStatus => exact hscan ProvStatus.noConfusion
    | getResults start count => exact hscan ProvStatus.noConfusion

lemma statusMap_other (rc : Except Errno Unit) : statusMap rc ≠ .unauthorized := by
  unfold statusMap
  split <;> decide

lemma handleCred_clears (z : Zcbor) (save : CredStore.CredKind → Bool) (s : CredStore.Store)
    (req : Bytes) : Clears (handleCred z save s req).1 := by
  have hcred {r : CredRsp} (h : credRspStatus r ≠ .unauthorized) :
      Clears (answer (encodeCredRsp r)) := clears_answer h fun _ => encodeCredRsp_response
  simp only [handleCred]
  cases decodeWith z decodeCredReq req with
  | none => exact clears_error _
  | some r =>
    cases r with
    | write c =>
      simp only
      split
      · exact hcred ProvStatus.noConfusion
      · exact hcred (statusMap_other _)
    | finalize =>
      simp only
      exact hcred (statusMap_other _)
    | getStatus => exact hcred ProvStatus.noConfusion

lemma runHandler_clears (b : Board) (w : World) (ep : Endpoint) (req : Bytes) {d : Dev}
    (idle : ep = .auth → d.session.auth.challenged = false) :
    Clears (runHandler b w ep req d).1 := by
  cases ep with
  | ver => exact handleVer_clears _ _ _ _
  | auth => exact handleAuth_clears _ _ _ _ (idle rfl) _
  | ctrl => exact handleCtrl_clears _ _ _ _ _ _
  | config => exact handleConfig_clears _ _ _ _ _
  | scan => exact handleScan_clears _ _ _ _
  | cred => exact handleCred_clears _ _ _ _

/-- Every response that is new in the queue is one of these. -/
def Adds (P : Bytes → Prop) (q q' : Rpc) : Prop :=
  ∀ r ∈ q'.enqueued, r ∈ q.enqueued ∨ P r.msg

lemma Adds.of_same {P : Bytes → Prop} {q q' : Rpc} (same : q'.enqueued = q.enqueued) :
    Adds P q q' := by
  rintro r hr
  rw [same] at hr
  exact .inl hr

lemma rpcEnqueue_adds {P : Bytes → Prop} (memory : Bool) {r : Rsp} (h : P r.msg) (q : Rpc) :
    Adds P q (rpcEnqueue memory r q).2 := by
  rw [rpcEnqueue]
  split
  · exact .of_same rfl
  · split
    · exact .of_same rfl
    · rintro r' hr'
      rcases List.mem_append.mp hr' with hold | hnew
      · exact .inl hold
      · rw [List.mem_singleton.mp hnew]
        exact .inr h

lemma respondStatus_adds (memory : Bool) (ep : Endpoint) (op : Nat) (status : ProvStatus)
    (d : Dev) :
    Adds (fun m => statusOf m = some status.code) d.rpc
      (respondStatus memory ep op status d).rpc := by
  unfold respondStatus
  split
  · next m hencode =>
    refine rpcEnqueue_adds memory ?_ d.rpc
    obtain ⟨x, hx, hfits⟩ := Option.bind_eq_some_iff.mp hencode
    obtain ⟨hsize, hm⟩ := Option.ite_none_right_eq_some.mp hfits
    obtain rfl := Option.some.inj hm
    exact statusOf_encode (encodeCtrlRsp_response hx).1 (Nat.lt_of_le_of_lt hsize (by decide))
  · exact .of_same rfl

lemma respondStatus_clears (memory : Bool) (ep : Endpoint) (op : Nat) {status : ProvStatus}
    (other : status ≠ .unauthorized) (d : Dev) :
    Adds (fun m => ¬ Refusal m) d.rpc (respondStatus memory ep op status d).rpc := by
  rintro r hr
  rcases respondStatus_adds memory ep op status d r hr with hold | hnew
  · exact .inl hold
  · refine .inr fun hrefusal => other (code_inj ?_)
    exact Option.some.inj (hnew.symm.trans hrefusal)

lemma reply_clears (memory : Bool) (ep : Endpoint) (req : Bytes) {rsp : Except Errno Bytes}
    (clears : Clears rsp) (d : Dev) :
    Adds (fun m => ¬ Refusal m) d.rpc (reply memory ep req rsp d).rpc := by
  unfold reply
  split
  · exact respondStatus_clears memory ep _ (by decide) d
  · exact respondStatus_clears memory ep _ (by decide) d
  · split
    · exact rpcEnqueue_adds memory (r := ⟨path ep, _⟩) (clears _ rfl) d.rpc
    · exact .of_same rfl

/-- A request that passes the gate is answered with a refusal only by the auth endpoint, in a
session that has a challenge. -/
lemma handleRequest_clears {b : Board} {d : Dev} {ep : Endpoint}
    (admitted : requireAuth ep → sessionAuthorized b.pop d.session)
    (idle : ep = .auth → d.session.auth.challenged = false) (w : World) (req : Bytes) :
    Adds (fun m => ¬ Refusal m) d.rpc (handleRequest b w ep req d).rpc := by
  rw [handleRequest, if_neg (by simpa using admitted)]
  let d1 : Dev := { d with session := d.session.log (.handler ep) }
  have hclears : Clears (runHandler b w ep req d1).1 := runHandler_clears b w ep req idle
  have hqueue : (runHandler b w ep req d1).2.rpc.enqueued = d.rpc.enqueued := by
    rw [Replies.runHandler_rpc]
    split <;> rfl
  rintro r hr
  rcases reply_clears w.memory ep req hclears (runHandler b w ep req d1).2 r hr with hold | hnew
  · exact .inl (hqueue ▸ hold)
  · exact .inr hnew

/-- An event that completes no request refuses nothing. -/
lemma step_idle_clears (b : Board) {d : Dev} {e : Ev} (none_arrives : arrives d e = none) :
    Adds (fun m => ¬ Refusal m) d.rpc (step b d e).rpc := by
  cases e with
  | downlinkStart streamId p contentType =>
    refine .of_same ?_
    simp only [step, downlinkStart]
    split
    · rfl
    · split <;> rfl
  | downlinkData streamId data isLast w =>
    rcases downlinkData_idle b none_arrives with ⟨a, h⟩ | ⟨ep, a, h⟩
    · rw [h]
      exact .of_same rfl
    · rw [h]
      exact respondStatus_clears _ _ _ (by decide) _
  | uplinkFlush => exact .of_same rfl
  | _ => exact .of_same (Exchange.inside_keeps b rfl d).1

/-- What can refuse: the gate, or the auth endpoint in a session that has a challenge. -/
theorem step_clears {b : Board} {d : Dev} {e : Ev}
    (admitted : ∀ ep req, arrives d e = some (ep, req) → requireAuth ep →
      sessionAuthorized b.pop d.session)
    (idle : ∀ req, arrives d e = some (.auth, req) → d.session.auth.challenged = false) :
    Adds (fun m => ¬ Refusal m) d.rpc (step b d e).rpc := by
  cases harrives : arrives d e with
  | none => exact step_idle_clears b harrives
  | some request =>
    obtain ⟨ep, req⟩ := request
    obtain ⟨w, a, hstep⟩ := step_arrives b harrives
    rw [hstep]
    refine handleRequest_clears (d := { d with active := a }) (admitted ep req harrives) ?_ w req
    rintro rfl
    exact idle req harrives

/-- Entries are received only for endpoints of the table. -/
def Registered (b : Board) (d : Dev) : Prop :=
  ∀ ep, d.active.endpoint = some ep → ep ∈ endpoints b.build

lemma mgrStop_endpoint (build : Build) (d : Dev) :
    (mgrStop build d).2.active.endpoint = d.active.endpoint ∨
      (mgrStop build d).2.active.endpoint = none := by
  rw [mgrStop]
  split
  · exact .inl rfl
  · exact .inr rfl

lemma emit_active (build : Build) (e : Event) (d : Dev) : (emit build e d).active = d.active := by
  obtain ⟨armed, h⟩ := emit_frame build e d
  rw [h]

lemma emitAll_active (build : Build) (outs : List WifiConfig.Out) (d : Dev) :
    (emitAll build outs d).active = d.active := by
  obtain ⟨armed, h⟩ := emitAll_frame build outs d
  rw [h]

lemma runHandler_endpoint (b : Board) (w : World) (ep : Endpoint) (req : Bytes) {d : Dev}
    (closed : d.active.endpoint = none) : (runHandler b w ep req d).2.active.endpoint = none := by
  cases ep with
  | ctrl =>
    simp only [runHandler]
    split
    · exact (mgrStop_endpoint b.build _).elim (·.trans closed) id
    · exact closed
  | config =>
    simp only [runHandler, emitAll_active]
    exact closed
  | cred =>
    simp only [runHandler]
    split
    · rw [emit_active]
      exact closed
    · exact closed
  | _ => exact closed

lemma handleRequest_endpoint (b : Board) (w : World) (ep : Endpoint) (req : Bytes) {d : Dev}
    (closed : d.active.endpoint = none) : (handleRequest b w ep req d).active.endpoint = none := by
  rw [handleRequest]
  split
  · obtain ⟨q, h⟩ := respondStatus_frame w.memory ep (peekOp req) .unauthorized d
    rw [h]
    exact closed
  · simp only
    obtain ⟨q, h⟩ := reply_frame w.memory ep req
      (runHandler b w ep req { d with session := d.session.log (.handler ep) }).1
      (runHandler b w ep req { d with session := d.session.log (.handler ep) }).2
    rw [h]
    exact runHandler_endpoint b w ep req closed

lemma step_registered (b : Board) {d : Dev} (h : Registered b d) (e : Ev) :
    Registered b (step b d e) := by
  have hclosed {d' : Dev} (closed : d'.active.endpoint = none) : Registered b d' := by
    rintro ep hep
    rw [closed] at hep
    cases hep
  have hstop (d' : Dev) (same : d'.active = d.active) : Registered b (mgrStop b.build d').2 := by
    rcases mgrStop_endpoint b.build d' with hkept | hclear
    · rintro ep hep
      exact h ep (by rw [← hep, hkept, same])
    · exact hclosed hclear
  cases e with
  | downlinkStart streamId p contentType =>
    simp only [step, downlinkStart]
    split
    · exact hclosed rfl
    · split
      · exact hclosed rfl
      · rintro ep hep
        have hfound : (endpoints b.build).find? (path · = p) = some ep := hep
        exact List.mem_of_find?_eq_some hfound
  | downlinkData streamId data isLast w =>
    cases hep : d.active.endpoint with
    | none =>
      simp only [step, downlinkData, hep]
      exact h
    | some ep =>
      simp only [step, downlinkData, hep]
      split
      · exact h
      · split
        · rintro ep' hep'
          exact h ep' (by rw [← hep', Exchange.receive_endpoint])
        · split
          · obtain ⟨q, hframe⟩ := respondStatus_frame w.memory ep 0 .invalidArgument
              { d with active := { receive data d.active with endpoint := none } }
            rw [hframe]
            exact hclosed rfl
          · exact hclosed (handleRequest_endpoint b w ep _ rfl)
  | uplinkFlush => exact h
  | sessionEnded => exact hclosed rfl
  | mgrStart w =>
    simp only [step, mgrStart]
    split
    · exact h
    · split
      · exact h
      · split <;> exact hclosed rfl
  | mgrStop => exact hstop d rfl
  | mgrReset w => exact hclosed rfl
  | autostop =>
    simp only [step]
    split
    · exact hstop _ rfl
    · exact h
  | connectResult | retryWork =>
    simp only [step]
    split
    · rintro ep hep
      rw [emitAll_active] at hep
      exact h ep hep
    · exact h
  | scanResult | scanDone =>
    simp only [step]
    split <;> exact h

lemma arrives_endpoint {d : Dev} {e : Ev} {ep : Endpoint} {req : Bytes}
    (arrival : arrives d e = some (ep, req)) : d.active.endpoint = some ep := by
  cases e with
  | downlinkData streamId data isLast w =>
    cases hep : d.active.endpoint with
    | none => simp [arrives, hep] at arrival
    | some ep' =>
      simp only [arrives, hep] at arrival
      obtain ⟨-, hsome⟩ := Option.ite_none_right_eq_some.mp arrival
      rw [(Prod.mk.inj (Option.some.inj hsome)).1]
  | _ => simp [arrives] at arrival

lemma auth_registered_iff (build : Build) : .auth ∈ endpoints build ↔ build.auth := by
  cases hauth : build.auth <;> cases hwifi : build.wifi <;> cases hcred : build.cred <;>
    simp [endpoints, hauth, hwifi, hcred]

/-- A build with the auth endpoint is sent no challenge. -/
def Spared (b : Board) (d : Dev) (e : Ev) : Prop := b.build.auth → NoChallenge b d e

lemma Spared.noChallenge {b : Board} {d : Dev} {e : Ev} (h : Spared b d e)
    (registered : Registered b d) : NoChallenge b d e := by
  rintro req nonce harrives
  have hauth := (auth_registered_iff b.build).mp (registered .auth (arrives_endpoint harrives))
  exact h hauth req nonce harrives

lemma step_unchallenged {b : Board} {d : Dev} {e : Ev} (idle : d.session.auth.challenged = false)
    (h : NoChallenge b d e) : (step b d e).session.auth.challenged = false := by
  have hmove := step_moves b d e
  generalize (step b d e).session = s' at hmove ⊢
  cases hmove with
  | stays => exact idle
  | resets => exact sessionReset_unchallenged _ idle
  | handles ep _ _ => exact idle
  | stops _ => exact sessionReset_unchallenged _ (s := d.session.log (.handler .ctrl)) idle
  | auths req arrival w =>
    exact (handleAuth_unchallenged (fun nonce => h req nonce arrival) _ _ _
      (s := d.session.log (.handler .auth)) idle).1

/-- A device without a secret and without a challenge that has refused nothing. -/
structure Open (b : Board) (d : Dev) : Prop where
  registered : Registered b d
  idle : d.session.auth.challenged = false
  admits : ∀ r ∈ d.rpc.enqueued, ¬ Refusal r.msg

lemma step_open {b : Board} (nosecret : b.pop = none) {d : Dev} {e : Ev} (h : Open b d)
    (spared : Spared b d e) : Open b (step b d e) where
  registered := step_registered b h.registered e
  idle := step_unchallenged h.idle (spared.noChallenge h.registered)
  admits := by
    have hgate : sessionAuthorized b.pop d.session := by simp [sessionAuthorized, nosecret]
    rintro r hr
    rcases step_clears (fun _ _ _ _ => hgate) (fun _ _ => h.idle) r hr with hold | hnew
    · exact h.admits r hold
    · exact hnew

/-- The value of a text key in the items of a map. -/
def valueOf (key : String) : List Item → Option Item
  | k :: v :: rest => if keyIs key k then some v else valueOf key rest
  | _ => none

/-- What a version response says about the proof of possession. -/
def popOf (m : Bytes) : Option Bool :=
  match read (2 * m.length) m with
  | some (.array [_, _, .map info], _) => (valueOf "pop" info).bind boolOf
  | _ => none

/-- The version handler says so of the board. -/
def Says (b : Board) (pop : Bool) : Prop :=
  ∃ req m, handleVer b.zcbor b.build b.pop req = .ok m ∧ popOf m = some pop

lemma popOf_verRsp (build : Build) (pop : Option Bytes) {m : Bytes}
    (answered : answer (encodeVerRsp ⟨.ok, verInfo build pop⟩) = .ok m) :
    popOf m = some (build.auth && pop.isSome) := by
  obtain ⟨x, hx, hfits, rfl⟩ := answer_ok_iff.mp answered
  have hok := (encodeVerRsp_response hx).2
  have hread := read_encode x hok (Nat.lt_of_le_of_lt hfits (by decide)) [] _ (Nat.le_refl _)
  rw [List.append_nil] at hread
  obtain ⟨info, hinfo, rfl⟩ := Option.map_eq_some_iff.mp hx
  simp only [popOf, hread]
  obtain ⟨-, hmap⟩ := Option.ite_none_right_eq_some.mp hinfo
  obtain rfl := Option.some.inj hmap
  have hproto : keyIs "pop" (text "proto") = false := by decide +kernel
  have hcaps : keyIs "pop" (text "caps") = false := by decide +kernel
  have hblk : keyIs "pop" (text "blk") = false := by decide +kernel
  have hlib : keyIs "pop" (text "lib") = false := by decide +kernel
  have hpop : keyIs "pop" (text "pop") = true := by decide +kernel
  simp only [verInfo, List.cons_append, List.nil_append, valueOf, hproto, hcaps, hblk, hlib, hpop,
    Bool.false_eq_true, if_false, if_true, Option.bind_some]
  cases build.auth && pop.isSome <;> rfl

lemma verInfo_caps (build : Build) (pop : Option Bytes) :
    (verInfo build pop).caps.length ≤ 8 ∧
      (encode (.array ((verInfo build pop).caps.map text))).length ≤ 24 := by
  have hall : ∀ wifi cred gated : Bool,
      let caps := (if wifi then ["wifi", "scan"] else []) ++ (if cred then ["cred"] else []) ++
        (if gated then ["auth"] else [])
      caps.length ≤ 8 ∧ (encode (.array (caps.map text))).length ≤ 24 := by decide +kernel
  exact hall build.wifi build.cred (build.auth && pop.isSome)

/-- The version response always fits. -/
lemma verRsp_fits (build : Build) (pop : Option Bytes) :
    ∃ m, answer (encodeVerRsp ⟨.ok, verInfo build pop⟩) = .ok m := by
  obtain ⟨hcount, hcaps⟩ := verInfo_caps build pop
  simp only [answer_ok_iff, encodeVerRsp, encodeVerInfo, if_pos hcount, Option.map_some]
  refine ⟨_, _, rfl, ?_, rfl⟩
  have htext : ∀ s ∈ [("proto", 6), ("caps", 5), ("blk", 4), ("lib", 4), ("0.1.0", 6), ("pop", 4)],
      (encode (text s.1)).length = s.2 := by decide +kernel
  simp only [List.forall_mem_cons] at htext
  obtain ⟨hproto, hcapsKey, hblkKey, hlibKey, hlib, hpopKey, -⟩ := htext
  have hversion : (encode (u32 1)).length = 1 := by decide +kernel
  have hbool : ∀ gated, (encode (Item.bool gated)).length = 1 := by decide +kernel
  have hop : (head 0 0).length = 1 := by decide
  have harray : (head 4 3).length = 1 := by decide
  have hmap : (head 5 5).length = 1 := by decide
  have hblk := u32_length_le build.blockSize
  change (encode (.array [.uint 0, encodeProvStatus .ok, .map [text "proto", u32 1, text "caps",
    .array ((verInfo build pop).caps.map text), text "blk", u32 build.blockSize, text "lib",
    text "0.1.0", text "pop", .bool (build.auth && pop.isSome)]])).length ≤ msgMax
  generalize Item.array ((verInfo build pop).caps.map text) = caps at hcaps ⊢
  generalize u32 build.blockSize = blk at hblk ⊢
  simp only [encode, encodeAll, List.length_append, List.length_cons, List.length_nil,
    Nat.reduceAdd, Nat.reduceDiv, encodeProvStatus_length, hbool, hop, harray, hmap, hproto,
    hcapsKey, hblkKey, hlibKey, hlib, hpopKey, hversion, msgMax]
  omega

lemma says_iff {b : Board} (reads : ReadsRequests b.zcbor) (pop : Bool) :
    Says b pop ↔ pop = (b.build.auth && b.pop.isSome) := by
  constructor
  · rintro ⟨req, m, hver, hpop⟩
    simp only [handleVer] at hver
    cases hdec : decodeWith b.zcbor decodeVerReq req with
    | none => simp [hdec] at hver
    | some r =>
      simp only [hdec] at hver
      rw [popOf_verRsp b.build b.pop hver] at hpop
      exact (Option.some.inj hpop).symm
  · rintro rfl
    obtain ⟨m, hm⟩ := verRsp_fits b.build b.pop
    refine ⟨encode Request.ver.item, m, ?_, popOf_verRsp b.build b.pop hm⟩
    have hread := reads .ver trivial (by decide +kernel)
    have hdec : decodeWith b.zcbor decodeVerReq (encode Request.ver.item) = some () := by
      rw [decodeWith, hread]
      rfl
    simp only [handleVer, hdec, hm]

/-- The entry carries the request of a client. -/
def Carries (e : Entry) (ep : Endpoint) (r : Request) : Prop := e.ep = ep ∧ e.msg = encode r.item

/-- The crypto library rejects a key of length zero and no other. -/
def Accepts (b : Board) (w : World) : Prop := w.crypto = true ↔ b.pop ≠ some []

/-- No gated request of the session is refused. -/
def Passes (b : Board) (s : Session) : Prop :=
  ∀ (d : Dev) (e : Entry), d.session = s → e.ep ∈ endpoints b.build → requireAuth e.ep →
    Adds (fun m => ¬ Refusal m) d.rpc (deliver b d e).rpc

/-- A challenge and the proof that answers it authorize the session, whatever happens to the rest
of the device in between. -/
def Authorizes (b : Board) (pop : Bytes) (s : Session) : Prop :=
  ∀ (nonce : Nonce) (c p : Entry) (d d' : Dev),
    Carries c .auth (.authChallenge nonce.val) →
    Carries p .auth (.authProof (expectedProof b.hmac (some pop) nonce.val c.world.rand.val)) →
    Accepts b c.world → Accepts b p.world → d.session = s → d'.session = (deliver b d c).session →
    (deliver b d' p).session.authorized ∧ Passes b (deliver b d' p).session

lemma deliver_clears {b : Board} {d : Dev} {e : Entry} (registered : e.ep ∈ endpoints b.build)
    (admitted : requireAuth e.ep → sessionAuthorized b.pop d.session)
    (idle : e.ep = .auth → d.session.auth.challenged = false) :
    Adds (fun m => ¬ Refusal m) d.rpc (deliver b d e).rpc := by
  obtain ⟨a, hdeliver⟩ := deliver_eq registered d
  rw [hdeliver]
  split
  · exact respondStatus_clears _ _ _ (by decide) _
  · exact handleRequest_clears (d := { d with active := a }) admitted idle _ _

lemma passes_of_authorized (b : Board) {s : Session} (authorized : s.authorized) : Passes b s := by
  rintro d e rfl hregistered hgated
  refine deliver_clears hregistered (fun _ => by simp [sessionAuthorized, authorized]) ?_
  rintro hauth
  simp [hauth, requireAuth] at hgated

/-- What a request to the auth endpoint makes of the session. -/
lemma deliver_auth {b : Board} {e : Entry} (registered : .auth ∈ endpoints b.build)
    (auth : e.ep = .auth) (fits : e.msg.length ≤ msgMax) (d : Dev) :
    (deliver b d e).session = (handleAuth b.zcbor ⟨b.hmac, e.world.crypto⟩ b.pop e.world.rand
      (d.session.log (.handler .auth)) e.msg).2 := by
  obtain ⟨a, hdeliver⟩ := deliver_eq (auth ▸ registered) d
  rw [hdeliver, if_neg (Nat.not_lt.mpr fits), handleRequest_session, auth]
  simp [requireAuth, runHandler]

/-- A request of two elements, the second a short byte string, is read by the device. -/
lemma decode_auth {b : Board} (reads : ReadsRequests b.zcbor) {e : Entry} {r : Request}
    (carries : Carries e .auth r) (bounds : r.InBounds) {op : Nat} (hop : op < 24) {data : Bytes}
    (item : r.item = .array [.uint op, .bstr data]) (short : data.length ≤ 32) :
    e.msg.length ≤ msgMax ∧
      decodeWith b.zcbor decodeAuthReq e.msg = decodeAuthReq (.array [.uint op, .bstr data]) := by
  have hfits : (encode r.item).length ≤ msgMax := by
    have hhead := Cddl.head_length_le_nine 2 data.length
    have harray : (head 4 2).length = 1 := by decide
    simp only [item, encode, encodeAll, List.length_append, List.length_cons, List.length_nil,
      Nat.reduceAdd, head_length_small _ hop, harray, msgMax]
    omega
  have hread := reads r bounds hfits
  rw [carries.2]
  refine ⟨hfits, ?_⟩
  rw [decodeWith, hread, item]
  rfl

section Auth

variable {b : Board} (reads : ReadsRequests b.zcbor) (auth : b.build.auth)

include reads auth

lemma deliver_challenge {nonce : Nonce} {c : Entry}
    (carries : Carries c .auth (.authChallenge nonce.val)) (d : Dev) :
    (deliver b d c).session.authorized = d.session.authorized ∧
      (deliver b d c).session.auth = { d.session.auth with
        cliNonce := nonce.val, devNonce := c.world.rand.val, challenged := true } := by
  have hlen : nonce.val.length = 16 := nonce.property
  obtain ⟨hfits, hdec⟩ := decode_auth reads carries hlen (by decide) rfl (by omega)
  have hchallenge : decodeWith b.zcbor decodeAuthReq c.msg = some (.challenge nonce.val) := by
    simp [hdec, decodeAuthReq, bstrOf, hlen]
  rw [deliver_auth ((auth_registered_iff b.build).mpr auth) carries.1 hfits]
  simp only [handleAuth, hchallenge, handleChallenge, nonceLen, hlen, ne_eq, not_true_eq_false,
    if_false]
  split <;> exact ⟨rfl, rfl⟩

/-- The first proof after a challenge authorizes if it is the one that the device computes. -/
lemma deliver_proof {proof : Bytes} {p : Entry} (carries : Carries p .auth (.authProof proof))
    (len : proof.length = proofLen) {d : Dev} (challenged : d.session.auth.challenged = true)
    (first : d.session.auth.attempts = 0) :
    (deliver b d p).session.authorized = (d.session.authorized ||
      decide (hmacProof ⟨b.hmac, p.world.crypto⟩ b.pop "cli" d.session.auth.devNonce
        d.session.auth.cliNonce = some proof)) := by
  obtain ⟨hfits, hdec⟩ := decode_auth reads carries len (by decide) rfl (Nat.le_of_eq len)
  have hproof : decodeWith b.zcbor decodeAuthReq p.msg = some (.proof proof) := by
    simp [hdec, decodeAuthReq, bstrOf, show proof.length = 32 from len]
  have hattempt : ¬ (0 : UInt8) + 1 > maxAttempts := by decide
  rw [deliver_auth ((auth_registered_iff b.build).mpr auth) carries.1 hfits]
  simp only [handleAuth, hproof, handleProof, Session.log, challenged, len, first, hattempt,
    Bool.true_eq_false, ne_eq, not_true_eq_false, or_self, if_false]
  cases hmac : hmacProof ⟨b.hmac, p.world.crypto⟩ b.pop "cli" d.session.auth.devNonce
      d.session.auth.cliNonce with
  | none => simp
  | some expected =>
    have hdiff := proofDiff_eq_zero_iff ((hmacProof_some hmac).2.trans len.symm)
    by_cases heq : proof = expected
    · subst heq
      simp [hdiff.mpr rfl]
    · simp [mt hdiff.mp heq, Ne.symm heq]

end Auth

/-- A session in which nothing was proved or tried. -/
def Fresh (s : Session) : Prop := s.authorized = false ∧ s.auth = .zero

lemma authorizes_of_key {b : Board} {pop : Bytes} (reads : ReadsRequests b.zcbor)
    (sized : ∀ key m, (b.hmac key m).length = proofLen) (auth : b.build.auth)
    (secret : b.pop = some pop) (key : pop ≠ []) {s : Session} (fresh : Fresh s) :
    Authorizes b pop s := by
  rintro nonce c p d d' hc hp - hcrypto rfl hsession
  obtain ⟨-, hauth⟩ := deliver_challenge reads auth hc d
  rw [← hsession, fresh.2] at hauth
  have hworks : p.world.crypto = true := hcrypto.mpr (by simpa [secret] using key)
  have hauthorized : (deliver b d' p).session.authorized = true := by
    rw [deliver_proof reads auth hp (sized _ _) (by rw [hauth]) (by rw [hauth]; rfl)]
    simp [hauth, hmacProof, hworks, secret, sized, expectedProof]
  exact ⟨hauthorized, passes_of_authorized b hauthorized⟩

/-- With the empty secret the device can compute no proof. -/
lemma not_authorizes_of_empty {b : Board} (reads : ReadsRequests b.zcbor)
    (sized : ∀ key m, (b.hmac key m).length = proofLen) (auth : b.build.auth)
    (secret : b.pop = some []) {d : Dev} (fresh : Fresh d.session) :
    ¬ Authorizes b [] d.session := by
  intro h
  let w : World := { crypto := false }
  let c : Entry := ⟨.auth, [], encode (Request.authChallenge zeroNonce.val).item, w⟩
  let p : Entry := ⟨.auth, [], encode (Request.authProof
    (expectedProof b.hmac (some []) zeroNonce.val w.rand.val)).item, w⟩
  have hc : Carries c .auth (.authChallenge zeroNonce.val) := ⟨rfl, rfl⟩
  have hp : Carries p .auth (.authProof
      (expectedProof b.hmac (some []) zeroNonce.val w.rand.val)) := ⟨rfl, rfl⟩
  have hw : Accepts b w := by simp [Accepts, secret, w]
  obtain ⟨hkept, hauth⟩ := deliver_challenge reads auth hc d
  have hauthorized := (h zeroNonce c p d _ hc hp hw hw rfl rfl).1
  rw [deliver_proof reads auth hp (sized _ _) (by rw [hauth]) (by rw [hauth, fresh.2]; rfl)]
    at hauthorized
  simp [hkept, fresh.1, hmacProof, p, w] at hauthorized

/-- What the version response says of the board is what the gate does. -/
structure Honoured (b : Board) : Prop where
  ungated : Says b false → ∀ (connAttempts : UInt32) (settings : CredStore.CredKind → Option Bytes)
    (read : CredStore.CredKind → Settings.Read) (creds : List WifiConfig.Credential) (es : List Ev),
    Each (step b) (Spared b) (init b.build connAttempts settings read creds) es →
      ∀ r ∈ (es.foldl (step b) (init b.build connAttempts settings read creds)).rpc.enqueued,
        ¬ Refusal r.msg
  gated : Says b true → ∀ pop s, b.pop = some pop → Fresh s → Authorizes b pop s

/-- The control endpoint is in every build. -/
def ctrlEntry : Entry := ⟨.ctrl, [], ctrlResetReq, {}⟩

/-- Where a secret is configured, a gated request is refused before the authorization. -/
lemma ctrl_refused {b : Board} {pop : Bytes} (secret : b.pop = some pop) {d : Dev}
    (unauthorized : d.session.authorized = false) :
    ∃ r ∈ (deliver b d ctrlEntry).rpc.enqueued, Refusal r.msg := by
  have hregistered : ctrlEntry.ep ∈ endpoints b.build := by simp [endpoints, ctrlEntry]
  have hfits : ¬ ctrlEntry.msg.length > msgMax := by decide +kernel
  have hgate : requireAuth ctrlEntry.ep ∧ ¬ sessionAuthorized b.pop d.session := by
    simp [requireAuth, ctrlEntry, sessionAuthorized, secret, unauthorized]
  have hencode : cborEncode 16 (encodeCtrlRsp ⟨peekOp ctrlEntry.msg, .unauthorized⟩) =
      some [0x82, 0x00, 0x04] := by decide +kernel
  obtain ⟨a, hdeliver⟩ := deliver_eq hregistered d
  rw [hdeliver, if_neg hfits, handleRequest, if_pos hgate]
  refine ⟨⟨path .ctrl, [0x82, 0x00, 0x04]⟩, ?_, by decide +kernel⟩
  simp only [respondStatus, hencode]
  simp [rpcEnqueue, ctrlEntry, msgMax]

/-- What the version response says is what the gate does exactly where a secret is configured
only in builds with authorization and is not empty. -/
theorem advertised_pop_honoured_iff (b : Board) (reads : ReadsRequests b.zcbor)
    (sized : ∀ key m, (b.hmac key m).length = proofLen) :
    Honoured b ↔ (b.pop.isSome → b.build.auth ∧ b.pop ≠ some []) := by
  let d : Dev := init b.build 0 (fun _ => none) (fun _ => .whole) []
  have hfresh : Fresh d.session := ⟨rfl, rfl⟩
  constructor
  · rintro h hsecret
    obtain ⟨pop, hpop⟩ := Option.isSome_iff_exists.mp hsecret
    cases hauth : b.build.auth with
    | false =>
      have hsaid : Says b false := (says_iff reads false).mpr (by simp [hauth])
      have hspared (d : Dev) (e : Ev) : Spared b d e := fun h => absurd h (by simp [hauth])
      obtain ⟨r, hr, hrefusal⟩ := ctrl_refused hpop hfresh.1
      exact absurd hrefusal (h.ungated hsaid 0 _ _ [] ctrlEntry.events
        (each_of_forall hspared _ _) r hr)
    | true =>
      refine ⟨rfl, fun hempty => ?_⟩
      have hsaid : Says b true := (says_iff reads true).mpr (by simp [hauth, hpop])
      exact not_authorizes_of_empty reads sized hauth hempty hfresh
        (h.gated hsaid [] d.session hempty hfresh)
  · rintro hconfig
    constructor
    · rintro hsaid connAttempts settings read creds es hspared
      have hpop : b.pop = none := by
        by_contra hsome
        have hsecret := Option.isSome_iff_ne_none.mpr hsome
        have hfalse := (says_iff reads false).mp hsaid
        simp [hsecret, (hconfig hsecret).1] at hfalse
      have hstart : Open b (init b.build connAttempts settings read creds) := by
        refine ⟨?_, rfl, by simp [init]⟩
        rintro ep ⟨⟩
      have hrun := always_of_each (fun _ _ h hspared => step_open hpop h hspared) hstart hspared
      exact hrun.final.admits
    · rintro hsaid pop s hpop hfresh
      obtain ⟨hauth, hkey⟩ := hconfig (by simp [hpop])
      refine authorizes_of_key reads sized hauth hpop ?_ hfresh
      rintro rfl
      exact hkey hpop

/-- Every endpoint but perhaps the one for authorization, over the constant HMAC. -/
def sample (auth : Bool) (pop : Option Bytes) : Board :=
  { sampleBoard with
    build := { sampleBoard.build with auth := auth }, pop := pop, zcbor := .definite 768 }

def sampleStart (auth : Bool) : Dev :=
  init (sample auth none).build 1 (fun _ => none) (fun _ => .whole) []

theorem advertised_pop_honoured_secret :
    Says (sample true (some (utf8 "pop"))) true ∧ Honoured (sample true (some (utf8 "pop"))) := by
  have hreads : ReadsRequests (sample true (some (utf8 "pop"))).zcbor :=
    CredPush.definite_readsRequests
  refine ⟨(says_iff hreads true).mpr rfl, ?_⟩
  refine (advertised_pop_honoured_iff _ hreads fun _ _ => rfl).mpr fun _ => ⟨rfl, ?_⟩
  decide

/-- A request to the auth endpoint whose crypto calls succeed or not. -/
def authEvents (crypto : Bool) (req : Bytes) : List Ev :=
  Entry.events ⟨.auth, [], req, { crypto := crypto }⟩

/-- A secret in a build without authorization: the version response asks for no proof, and the
control endpoint refuses. The empty secret: a proof is asked for, and the right one does not
authorize, as the library rejects the key. No secret: no proof is asked for, and a client that
proves something all the same is refused. -/
theorem advertised_pop_not_honoured :
    (Says (sample false (some (utf8 "pop"))) false ∧
      ∃ r ∈ (ctrlEntry.events.foldl (step (sample false (some (utf8 "pop"))))
        (sampleStart false)).rpc.enqueued, Refusal r.msg) ∧
    (Says (sample true (some [])) true ∧
      ((authEvents false challengeReq ++ authEvents false (proofReq 7)).foldl
        (step (sample true (some []))) (sampleStart true)).session.authorized = false) ∧
    (Says (sample true none) false ∧
      ∃ r ∈ ((authEvents true challengeReq ++ authEvents true (proofReq 0)).foldl
        (step (sample true none)) (sampleStart true)).rpc.enqueued, Refusal r.msg) := by
  have hsaid (auth : Bool) (pop : Option Bytes) :
      Says (sample auth pop) (auth && pop.isSome) :=
    (says_iff CredPush.definite_readsRequests _).mpr rfl
  refine ⟨⟨hsaid false _, ?_⟩, ⟨hsaid true _, ?_⟩, hsaid true none, ?_⟩
  · decide +kernel
  · decide +kernel
  · decide +kernel

end PopGate
