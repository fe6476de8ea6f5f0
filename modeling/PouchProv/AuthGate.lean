import PouchProv.Device

/-!
# The authorization gate

What one event can do to the session is said once, in `step_moves`, and what a
request to the auth endpoint can do, in `handleAuth_effect`. From these two the
gate and the bound on proof guessing follow by invariants over all runs.
-/

namespace AuthGate

open Bytes Codec Handlers Auth Device ProvTypes Status Runs CredStore

@[simp] lemma emit_session (build : Build) (e : Event) (d : Dev) :
    (emit build e d).session = d.session := by
  obtain ⟨armed, h⟩ := emit_frame build e d
  rw [h]

@[simp] lemma emitAll_session (build : Build) (outs : List WifiConfig.Out) (d : Dev) :
    (emitAll build outs d).session = d.session := by
  obtain ⟨armed, h⟩ := emitAll_frame build outs d
  rw [h]

@[simp] lemma respondStatus_session (memory : Bool) (ep : Endpoint) (op : Nat)
    (status : ProvStatus) (d : Dev) :
    (respondStatus memory ep op status d).session = d.session := by
  obtain ⟨q, h⟩ := respondStatus_frame memory ep op status d
  rw [h]

lemma mgrStop_session (build : Build) (d : Dev) :
    (mgrStop build d).2.session = d.session ∨
      (mgrStop build d).2.session = sessionReset build d.session := by
  rw [mgrStop]
  split
  · exact Or.inl rfl
  · exact Or.inr rfl

/-- The request that an event completes, if it fits the buffer. -/
def arrives (d : Dev) : Ev → Option (Endpoint × Bytes)
  | .downlinkData streamId data isLast _ =>
    match d.active.endpoint with
    | some ep =>
      if streamId = 0 ∧ isLast ∧ ¬ (receive data d.active).overflow then
        some (ep, (receive data d.active).buf)
      else none
    | none => none
  | _ => none

/-- What an event can make of the session. -/
inductive Moves (b : Board) (d : Dev) (e : Ev) : Session → Prop where
  | stays : Moves b d e d.session
  | resets : Moves b d e (sessionReset b.build d.session)
  | handles (ep : Endpoint) (other : ep ≠ .auth)
      (admitted : requireAuth ep → sessionAuthorized b.pop d.session) :
      Moves b d e (d.session.log (.handler ep))
  | stops (admitted : sessionAuthorized b.pop d.session) :
      Moves b d e (sessionReset b.build (d.session.log (.handler .ctrl)))
  | auths (req : Bytes) (arrival : arrives d e = some (.auth, req)) (w : World) :
      Moves b d e (handleAuth b.zcbor ⟨b.hmac, w.crypto⟩ b.pop w.rand
        (d.session.log (.handler .auth)) req).2

@[simp] lemma reply_session (memory : Bool) (ep : Endpoint) (req : Bytes)
    (rsp : Except Errno Bytes) (d : Dev) : (reply memory ep req rsp d).session = d.session := by
  obtain ⟨q, h⟩ := reply_frame memory ep req rsp d
  rw [h]

lemma handleRequest_session (b : Board) (w : World) (ep : Endpoint) (req : Bytes) (d : Dev) :
    (handleRequest b w ep req d).session =
      if requireAuth ep ∧ ¬ sessionAuthorized b.pop d.session then d.session
      else (runHandler b w ep req { d with session := d.session.log (.handler ep) }).2.session := by
  rw [handleRequest]
  split
  · simp
  · simp

lemma runHandler_session (b : Board) (w : World) (ep : Endpoint) (req : Bytes) (d : Dev) :
    (runHandler b w ep req d).2.session = d.session ∧ ep ≠ .auth ∨
    (runHandler b w ep req d).2.session = sessionReset b.build d.session ∧ ep = .ctrl ∨
    (runHandler b w ep req d).2.session =
      (handleAuth b.zcbor ⟨b.hmac, w.crypto⟩ b.pop w.rand d.session req).2 ∧ ep = .auth := by
  cases ep with
  | ver => exact Or.inl ⟨rfl, Endpoint.noConfusion⟩
  | auth => exact Or.inr (Or.inr ⟨rfl, rfl⟩)
  | ctrl =>
    simp only [runHandler]
    split
    · rcases mgrStop_session b.build { d with
        wifi := (handleCtrl b.zcbor b.build w.wipe d.wifi d.cred req).2.1
        cred := (handleCtrl b.zcbor b.build w.wipe d.wifi d.cred req).2.2.1 } with h | h
      · exact Or.inl ⟨h, Endpoint.noConfusion⟩
      · exact Or.inr (Or.inl ⟨h, trivial⟩)
    · exact Or.inl ⟨rfl, Endpoint.noConfusion⟩
  | config => exact Or.inl ⟨by simp [runHandler], Endpoint.noConfusion⟩
  | scan => exact Or.inl ⟨rfl, Endpoint.noConfusion⟩
  | cred =>
    refine Or.inl ⟨?_, Endpoint.noConfusion⟩
    simp only [runHandler]
    split
    · simp
    · rfl

/-- The dispatcher is handed the request that an event completes. -/
lemma downlinkData_arrives (b : Board) {d : Dev} {streamId : Nat} {data : Bytes} {isLast : Bool}
    {w : World} {ep : Endpoint} {req : Bytes}
    (arrival : arrives d (.downlinkData streamId data isLast w) = some (ep, req)) :
    ∃ a, step b d (.downlinkData streamId data isLast w) =
      handleRequest b w ep req { d with active := a } := by
  cases hep : d.active.endpoint with
  | none => simp [arrives, hep] at arrival
  | some ep' =>
    simp only [arrives, hep] at arrival
    split at arrival
    · rename_i hcomplete
      obtain ⟨hstream, hlast, hfits⟩ := hcomplete
      obtain ⟨rfl, rfl⟩ := Prod.mk.inj (Option.some.inj arrival)
      refine ⟨{ receive data d.active with endpoint := none }, ?_⟩
      simp [step, downlinkData, hep, hstream, hlast, hfits]
    · simp at arrival

/-- A piece that completes no request is taken in or ignored, or ends a request that is too
long. -/
lemma downlinkData_idle (b : Board) {d : Dev} {streamId : Nat} {data : Bytes} {isLast : Bool}
    {w : World} (idle : arrives d (.downlinkData streamId data isLast w) = none) :
    (∃ a, step b d (.downlinkData streamId data isLast w) = { d with active := a }) ∨
      ∃ ep a, step b d (.downlinkData streamId data isLast w) =
        respondStatus w.memory ep 0 .invalidArgument { d with active := a } := by
  cases hep : d.active.endpoint with
  | none => exact Or.inl ⟨d.active, by simp only [step, downlinkData, hep]⟩
  | some ep =>
    simp only [step, downlinkData, hep]
    split
    · exact Or.inl ⟨d.active, rfl⟩
    · rename_i hstream
      split
      · exact Or.inl ⟨_, rfl⟩
      · rename_i hlast
        split
        · exact Or.inr ⟨ep, _, rfl⟩
        · rename_i hfits
          simp [arrives, hep, not_not.mp hstream, not_not.mp hlast, hfits] at idle

lemma step_arrives (b : Board) {d : Dev} {e : Ev} {ep : Endpoint} {req : Bytes}
    (arrival : arrives d e = some (ep, req)) :
    ∃ w a, step b d e = handleRequest b w ep req { d with active := a } := by
  cases e with
  | downlinkData streamId data isLast w => exact ⟨w, downlinkData_arrives b arrival⟩
  | _ => simp [arrives] at arrival

lemma handleRequest_moves {b : Board} {d : Dev} {e : Ev} {ep : Endpoint} {req : Bytes}
    (arrival : arrives d e = some (ep, req)) (w : World) (a : Active) :
    Moves b d e (handleRequest b w ep req { d with active := a }).session := by
  rw [handleRequest_session]
  split
  · exact .stays
  · rename_i hgate
    have hallowed : requireAuth ep → sessionAuthorized b.pop d.session := fun h => by
      by_contra hno
      exact hgate ⟨h, hno⟩
    rcases runHandler_session b w ep req
      { d with active := a, session := d.session.log (.handler ep) } with
      ⟨h, hne⟩ | ⟨h, rfl⟩ | ⟨h, rfl⟩
    · rw [h]
      exact .handles ep hne hallowed
    · rw [h]
      exact .stops (hallowed rfl)
    · rw [h]
      exact .auths req arrival w

/-- An event that completes no request keeps the session or resets it. -/
lemma step_idle (b : Board) {d : Dev} {e : Ev} (idle : arrives d e = none) :
    (step b d e).session = d.session ∨ (step b d e).session = sessionReset b.build d.session := by
  cases e with
  | downlinkStart streamId p contentType =>
    simp only [step, downlinkStart]
    split
    · exact Or.inl rfl
    · split <;> exact Or.inl rfl
  | downlinkData streamId data isLast w =>
    rcases downlinkData_idle b idle with ⟨a, h⟩ | ⟨ep, a, h⟩
    · exact Or.inl (by rw [h])
    · exact Or.inl (by rw [h, respondStatus_session])
  | uplinkFlush => exact Or.inl rfl
  | sessionEnded => exact Or.inr rfl
  | mgrStart w =>
    simp only [step, mgrStart]
    split
    · exact Or.inl rfl
    · split
      · exact Or.inl rfl
      · split <;> exact Or.inr rfl
  | mgrStop => exact mgrStop_session b.build d
  | mgrReset w => exact Or.inr rfl
  | autostop =>
    simp only [step]
    split
    · exact mgrStop_session b.build { d with autostop := false }
    · exact Or.inl rfl
  | connectResult | retryWork =>
    simp only [step]
    split
    · exact Or.inl (emitAll_session _ _ _)
    · exact Or.inl rfl
  | scanResult | scanDone =>
    simp only [step]
    split <;> exact Or.inl rfl

/-- Every event makes one of these moves. -/
theorem step_moves (b : Board) (d : Dev) (e : Ev) : Moves b d e (step b d e).session := by
  cases harrives : arrives d e with
  | none =>
    rcases step_idle b harrives with h | h
    · rw [h]
      exact .stays
    · rw [h]
      exact .resets
  | some r =>
    obtain ⟨w, a, hstep⟩ := step_arrives b harrives
    rw [hstep]
    exact handleRequest_moves harrives w a

/-- The session after one more counted attempt. -/
def counted (s : Session) : Session :=
  { s with auth := { s.auth with attempts := s.auth.attempts + 1 } }

/-- The proof that a challenge asks for. -/
def expectedProof (hmac : Option Bytes → Bytes → Bytes) (pop : Option Bytes)
    (cliNonce devNonce : Bytes) : Bytes :=
  hmac pop (utf8 "cli" ++ devNonce ++ cliNonce)

/-- What a request to the auth endpoint can make of the session. -/
inductive Effect (z : Zcbor) (c : Crypto) (pop : Option Bytes) (s : Session) (req : Bytes) :
    Session → Prop where
  | ignored : Effect z c pop s req s
  | challenged (nonce rand : Bytes) :
      Effect z c pop s req
        { s with auth := { s.auth with cliNonce := nonce, devNonce := rand, challenged := true }
                 history := .hmac pop :: .challenge nonce rand :: s.history }
  | refused (p : Bytes) (unchallenged : s.auth.challenged = false) :
      Effect z c pop s req (s.log (.proof p false (some .invalidState) false))
  | exhausted (p : Bytes) (is_proof : decodeWith z decodeAuthReq req = some (.proof p))
      (challenged : s.auth.challenged = true) (exceeded : s.auth.attempts + 1 > maxAttempts) :
      Effect z c pop s req ((counted s).log (.proof p false (some .unauthorized) false))
  | failed (p : Bytes) (is_proof : decodeWith z decodeAuthReq req = some (.proof p))
      (challenged : s.auth.challenged = true) (within : ¬ s.auth.attempts + 1 > maxAttempts) :
      Effect z c pop s req (((counted s).log (.hmac pop)).log (.proof p false none false))
  | mismatch (p : Bytes) (is_proof : decodeWith z decodeAuthReq req = some (.proof p))
      (challenged : s.auth.challenged = true) (within : ¬ s.auth.attempts + 1 > maxAttempts) :
      Effect z c pop s req
        (((counted s).log (.hmac pop)).log (.proof p true (some .unauthorized) false))
  | accepted (p : Bytes) (is_proof : decodeWith z decodeAuthReq req = some (.proof p))
      (challenged : s.auth.challenged = true) (within : ¬ s.auth.attempts + 1 > maxAttempts)
      (matching : p = expectedProof c.hmac pop s.auth.cliNonce s.auth.devNonce) :
      Effect z c pop s req
        (Session.log { (counted s).log (.hmac pop) with authorized := true }
          (.proof p true (some .ok) true))

lemma hmacProof_some {c : Crypto} {pop : Option Bytes} {tag : String} {first second out : Bytes}
    (h : hmacProof c pop tag first second = some out) :
    out = c.hmac pop (utf8 tag ++ first ++ second) ∧ out.length = proofLen := by
  simp only [hmacProof] at h
  split at h
  · obtain rfl := Option.some.inj h
    exact ⟨rfl, by tauto⟩
  · simp at h

theorem handleAuth_effect (z : Zcbor) (c : Crypto) (pop : Option Bytes) (rand : Nonce)
    (s : Session) (req : Bytes) : Effect z c pop s req (handleAuth z c pop rand s req).2 := by
  cases hdec : decodeWith z decodeAuthReq req with
  | none =>
    simp only [handleAuth, hdec]
    exact .ignored
  | some r =>
    cases r with
    | challenge nonce =>
      simp only [handleAuth, hdec, handleChallenge]
      split
      · exact .ignored
      · split <;> exact .challenged nonce rand.val
    | proof p =>
      simp only [handleAuth, hdec, handleProof]
      split
      · rename_i hstate
        -- A decoded proof always has the length of a proof.
        have hlen : p.length = proofLen := by
          obtain ⟨x, -, hx⟩ := Option.bind_eq_some_iff.mp hdec
          exact decodeAuthReq_proof_length hx
        exact .refused p (by tauto)
      · rename_i hstate
        obtain ⟨hch, hlen⟩ := not_or.mp hstate
        have hch : s.auth.challenged = true := by simpa using hch
        have hlen : p.length = proofLen := not_not.mp hlen
        split
        · rename_i hover
          exact .exhausted p hdec hch hover
        · rename_i hwithin
          split
          · exact .failed p hdec hch hwithin
          · rename_i expected hmac
            obtain ⟨heq, hexp⟩ := hmacProof_some hmac
            split
            · exact .mismatch p hdec hch hwithin
            · rename_i hdiff
              have hp := (proofDiff_eq_zero_iff (hexp.trans hlen.symm)).mp (not_not.mp hdiff)
              exact .accepted p hdec hch hwithin (hp.trans heq)

def isReset : Obs → Bool
  | .reset => true
  | _ => false

/-- The nonces of the last challenge of a history. -/
def lastChallenge (h : List Obs) : Option (Bytes × Bytes) :=
  h.findSome? fun o => match o with
    | .challenge cliNonce devNonce => some (cliNonce, devNonce)
    | _ => none

/-- Since the last reset some proof request carried exactly the HMAC of the nonces of the
last challenge before it, and that challenge is of the same period. -/
def Proved (b : Board) (pop : Bytes) (h : List Obs) : Prop :=
  ∃ newer p compared status authorizes older cliNonce devNonce,
    since isReset h = newer ++ .proof p compared status authorizes :: older ∧
    lastChallenge older = some (cliNonce, devNonce) ∧
    p = b.hmac (some pop) (utf8 "cli" ++ devNonce ++ cliNonce)

/-- Every execution of a gated handler came after such a proof. -/
def Gated (b : Board) (pop : Bytes) (h : List Obs) : Prop :=
  ∀ newer ep older, h = newer ++ .handler ep :: older → requireAuth ep → Proved b pop older

section

variable {b : Board} {pop : Bytes}

lemma Proved.cons {h : List Obs} (hp : Proved b pop h) {o : Obs} (ho : isReset o = false) :
    Proved b pop (o :: h) := by
  obtain ⟨newer, p, compared, status, authorizes, older, cli, dev, hsince, hrest⟩ := hp
  refine ⟨o :: newer, p, compared, status, authorizes, older, cli, dev, ?_, hrest⟩
  rw [since_cons ho, hsince, List.cons_append]

lemma Gated.cons {h : List Obs} (hg : Gated b pop h) {o : Obs}
    (ho : ∀ ep, o = .handler ep → requireAuth ep → Proved b pop h) : Gated b pop (o :: h) := by
  intro newer ep older heq hreq
  cases newer with
  | nil =>
    obtain ⟨rfl, rfl⟩ := List.cons.inj heq
    exact ho ep rfl hreq
  | cons o' newer => exact hg newer ep older (List.cons.inj heq).2 hreq

lemma Gated.cons_other {h : List Obs} (hg : Gated b pop h) {o : Obs}
    (ho : ∀ ep, o ≠ .handler ep) : Gated b pop (o :: h) :=
  hg.cons fun ep heq => absurd heq (ho ep)

/-- The invariant of the gate. -/
structure GateInv (b : Board) (pop : Bytes) (s : Session) : Prop where
  authorized : s.authorized → Proved b pop s.history
  challenged : s.auth.challenged →
    lastChallenge (since isReset s.history) = some (s.auth.cliNonce, s.auth.devNonce)
  gated : Gated b pop s.history

lemma fresh_gateInv : GateInv b pop fresh := by
  refine ⟨Bool.noConfusion, Bool.noConfusion, fun newer ep older heq => ?_⟩
  simp [fresh] at heq

/-- An observation that is neither a challenge nor a reset, of a session whose gate state it
leaves alone. -/
lemma GateInv.log {s s' : Session} (h : GateInv b pop s) {o : Obs}
    (history : s'.history = o :: s.history) (authorized : s'.authorized = s.authorized)
    (challenged : s'.auth.challenged = s.auth.challenged)
    (cliNonce : s'.auth.cliNonce = s.auth.cliNonce)
    (devNonce : s'.auth.devNonce = s.auth.devNonce)
    (quiet : isReset o = false) (nonces : ∀ cli dev, o ≠ .challenge cli dev)
    (gate : ∀ ep, o = .handler ep → requireAuth ep → Proved b pop s.history) :
    GateInv b pop s' := by
  refine ⟨fun hauth => ?_, fun hch => ?_, ?_⟩
  · rw [history]
    exact (h.authorized (authorized ▸ hauth)).cons quiet
  · rw [history, since_cons quiet, cliNonce, devNonce, lastChallenge, List.findSome?_cons]
    have hlast := h.challenged (challenged ▸ hch)
    cases o with
    | challenge cli dev => exact absurd rfl (nonces cli dev)
    | _ => exact hlast
  · rw [history]
    exact h.gated.cons gate

lemma sessionReset_gateInv {s : Session} (h : GateInv b pop s) (hauth : b.build.auth) :
    GateInv b pop (sessionReset b.build s) := by
  refine ⟨Bool.noConfusion, fun hch => ?_, h.gated.cons_other fun _ => Obs.noConfusion⟩
  simp [sessionReset, Session.log, hauth, AuthState.zero] at hch

lemma effect_gateInv {z : Zcbor} {c : Crypto} {s s' : Session} {req : Bytes}
    (h : GateInv b pop s) (hc : c.hmac = b.hmac) (eff : Effect z c (some pop) s req s') :
    GateInv b pop s' := by
  have hcounted : GateInv b pop ((counted s).log (.hmac (some pop))) :=
    h.log rfl rfl rfl rfl rfl rfl (fun _ _ => Obs.noConfusion) fun _ => Obs.noConfusion
  cases eff with
  | ignored => exact h
  | challenged nonce rand =>
    refine ⟨fun hauth => ?_, fun _ => ?_, ?_⟩
    · exact ((h.authorized hauth).cons rfl).cons rfl
    · rw [since_cons rfl, since_cons rfl]
      rfl
    · exact (h.gated.cons_other fun _ => Obs.noConfusion).cons_other fun _ => Obs.noConfusion
  | refused | exhausted =>
    exact h.log rfl rfl rfl rfl rfl rfl (fun _ _ => Obs.noConfusion) fun _ => Obs.noConfusion
  | failed | mismatch =>
    exact hcounted.log rfl rfl rfl rfl rfl rfl (fun _ _ => Obs.noConfusion)
      fun _ => Obs.noConfusion
  | accepted p _ hch _ hmatch =>
    refine ⟨fun _ => ?_, fun hch' => ?_, hcounted.gated.cons_other fun _ => Obs.noConfusion⟩
    · -- The accepted proof itself is the one that the gate asks for.
      have hlast := hcounted.challenged hch
      refine ⟨[], p, true, some .ok, true, _, s.auth.cliNonce, s.auth.devNonce, ?_, hlast, ?_⟩
      · exact since_cons rfl _
      · rw [hmatch, hc]
        rfl
    · rw [Session.log, since_cons rfl]
      exact hcounted.challenged hch'

end

/-- One event keeps the invariant of the gate. -/
theorem step_gateInv {b : Board} {pop : Bytes} (hauth : b.build.auth) (hpop : b.pop = some pop)
    {d : Dev} (h : GateInv b pop d.session) (e : Ev) : GateInv b pop (step b d e).session := by
  have hallowed : sessionAuthorized b.pop d.session → Proved b pop d.session.history := by
    intro hs
    refine h.authorized ?_
    simpa [sessionAuthorized, hpop] using hs
  have hlog : ∀ ep, (requireAuth ep → sessionAuthorized b.pop d.session) →
      GateInv b pop (d.session.log (.handler ep)) := by
    intro ep hadm
    refine h.log rfl rfl rfl rfl rfl rfl (fun _ _ => Obs.noConfusion) fun ep' heq hreq => ?_
    obtain rfl := Obs.handler.inj heq
    exact hallowed (hadm hreq)
  have hmove := step_moves b d e
  generalize (step b d e).session = s' at hmove ⊢
  cases hmove with
  | stays => exact h
  | resets => exact sessionReset_gateInv h hauth
  | handles ep _ admitted => exact hlog ep admitted
  | stops admitted => exact sessionReset_gateInv (hlog .ctrl fun _ => admitted) hauth
  | auths req _ w =>
    have heff := handleAuth_effect b.zcbor ⟨b.hmac, w.crypto⟩ b.pop w.rand
      (d.session.log (.handler .auth)) req
    rw [hpop] at heff ⊢
    exact effect_gateInv (hlog .auth Bool.noConfusion) rfl heff

/-- In a build with authorization and a configured secret, whatever the run: the handler of a
gated endpoint is executed only if, since the last reset of the session, a proof request
carried the HMAC of the last challenge before it in that period. -/
theorem gated_handlers_proved (b : Board) (pop : Bytes) (hauth : b.build.auth)
    (hpop : b.pop = some pop) (connAttempts : UInt32) (settings : CredKind → Option Bytes)
    (read : CredKind → Settings.Read) (creds : List WifiConfig.Credential) (es : List Ev) :
    Gated b pop
      (es.foldl (step b) (init b.build connAttempts settings read creds)).session.history :=
  (foldl_invariant (I := fun d : Dev => GateInv b pop d.session)
    (fun _ e h => step_gateInv hauth hpop h e) fresh_gateInv es).gated

/-- A board with every endpoint, the secret `pop` and a constant HMAC. -/
def sampleBoard : Board where
  build := ⟨true, true, true, false, 512, 16, false⟩
  pop := some (utf8 "pop")
  zcbor := .definite 64
  hmac _ _ := List.replicate proofLen 7

def sampleDevice : Dev := init sampleBoard.build 1 (fun _ => none) (fun _ => .whole) []

/-- One request, delivered in one piece. -/
def request (ep : Endpoint) (req : Bytes) : List Ev :=
  [.downlinkStart 0 (path ep) contentTypeCbor, .downlinkData 0 req true {}]

def challengeReq : Bytes := Cbor.encode (.array [.uint 0, .bstr (List.replicate nonceLen 1)])

def proofReq (x : UInt8) : Bytes :=
  Cbor.encode (.array [.uint 1, .bstr (List.replicate proofLen x)])

def ctrlResetReq : Bytes := Cbor.encode (.array [.uint 0])

/-- A client that proves the secret reaches the control endpoint. -/
def provingRun : List Ev :=
  request .auth challengeReq ++ request .auth (proofReq 7) ++ request .ctrl ctrlResetReq

theorem gated_handlers_proved_sample :
    Obs.handler .ctrl ∈ (provingRun.foldl (step sampleBoard) sampleDevice).session.history ∧
    Gated sampleBoard (utf8 "pop")
      (provingRun.foldl (step sampleBoard) sampleDevice).session.history :=
  ⟨by decide +kernel, gated_handlers_proved sampleBoard (utf8 "pop") rfl rfl 1 (fun _ => none)
    (fun _ => .whole) [] provingRun⟩

def isCompared : Obs → Bool
  | .proof _ compared _ _ => compared
  | _ => false

/-- The client proofs that were compared with the expected one since the last reset. -/
def guesses (h : List Obs) : Nat := (since isReset h).countP isCompared

/-- A proof that comes when the guesses of its session are used up is answered unauthorized,
without a comparison, and does not authorize. -/
def FurtherRejected (h : List Obs) : Prop :=
  ∀ newer p compared status authorizes older,
    h = newer ++ .proof p compared status authorizes :: older →
    maxAttempts.toNat ≤ guesses older →
    compared = false ∧ status = some .unauthorized ∧ authorizes = false

def GuessesBounded (h : List Obs) : Prop :=
  guesses h ≤ maxAttempts.toNat ∧ FurtherRejected h

/-- No proof of a challenged session arrives when the attempt counter is at its maximum. -/
def BelowWrap (b : Board) (d : Dev) (e : Ev) : Prop :=
  ∀ req p, arrives d e = some (.auth, req) →
    decodeWith b.zcbor decodeAuthReq req = some (.proof p) →
    d.session.auth.challenged = true → d.session.auth.attempts ≠ 255

/-- The comparisons of a session are counted by its attempts. -/
structure GuessInv (s : Session) : Prop where
  attempts : guesses s.history ≤ s.auth.attempts.toNat
  bound : guesses s.history ≤ maxAttempts.toNat
  challenged : 0 < guesses s.history → s.auth.challenged = true
  further : FurtherRejected s.history

lemma guesses_cons {h : List Obs} {o : Obs} (quiet : isReset o = false) :
    guesses (o :: h) = guesses h + if isCompared o then 1 else 0 := by
  rw [guesses, since_cons quiet, List.countP_cons, guesses]

lemma FurtherRejected.cons {h : List Obs} (hf : FurtherRejected h) {o : Obs}
    (ho : ∀ p compared status authorizes, o = .proof p compared status authorizes →
      maxAttempts.toNat ≤ guesses h →
      compared = false ∧ status = some .unauthorized ∧ authorizes = false) :
    FurtherRejected (o :: h) := by
  intro newer p compared status authorizes older heq hused
  cases newer with
  | nil =>
    obtain ⟨rfl, rfl⟩ := List.cons.inj heq
    exact ho p compared status authorizes rfl hused
  | cons o' newer =>
    exact hf newer p compared status authorizes older (List.cons.inj heq).2 hused

lemma FurtherRejected.cons_other {h : List Obs} (hf : FurtherRejected h) {o : Obs}
    (ho : ∀ p compared status authorizes, o ≠ .proof p compared status authorizes) :
    FurtherRejected (o :: h) :=
  hf.cons fun p compared status authorizes heq => absurd heq (ho p compared status authorizes)

lemma toNat_succ_of_ne {a : UInt8} (h : a ≠ 255) : (a + 1).toNat = a.toNat + 1 := by
  have hlt := a.toNat_lt
  have hne : a.toNat ≠ 255 := fun heq => h (UInt8.toNat_inj.mp heq)
  rw [UInt8.toNat_add]
  exact Nat.mod_eq_of_lt (by simp; omega)

/-- An observation that is no comparison and no reset, of a session whose counter does not
fall. -/
lemma GuessInv.log {s s' : Session} (h : GuessInv s) {o : Obs}
    (history : s'.history = o :: s.history)
    (attempts : s.auth.attempts.toNat ≤ s'.auth.attempts.toNat)
    (challenged : s.auth.challenged = true → s'.auth.challenged = true)
    (quiet : isReset o = false) (silent : isCompared o = false)
    (further : FurtherRejected (o :: s.history)) : GuessInv s' := by
  have hsame : guesses s'.history = guesses s.history := by
    rw [history, guesses_cons quiet, silent]
    rfl
  refine ⟨?_, ?_, ?_, ?_⟩
  · rw [hsame]
    exact Nat.le_trans h.attempts attempts
  · rw [hsame]
    exact h.bound
  · rw [hsame]
    exact fun hpos => challenged (h.challenged hpos)
  · rwa [history]

/-- A comparison within the limit of attempts. -/
lemma GuessInv.compare {s s' : Session} (h : GuessInv s) {o : Obs}
    (history : s'.history = o :: s.history)
    (room : guesses s.history < maxAttempts.toNat)
    (attempts : guesses s.history + 1 ≤ s'.auth.attempts.toNat)
    (challenged : s'.auth.challenged = true) (quiet : isReset o = false) : GuessInv s' := by
  have hone : guesses s'.history ≤ guesses s.history + 1 := by
    rw [history, guesses_cons quiet]
    split <;> omega
  refine ⟨by omega, by omega, fun _ => challenged, ?_⟩
  rw [history]
  exact h.further.cons fun _ _ _ _ _ hused => absurd hused (by omega)

lemma sessionReset_guessInv {s : Session} (h : GuessInv s) (build : Build) :
    GuessInv (sessionReset build s) := by
  refine ⟨?_, ?_, fun hpos => absurd hpos (Nat.lt_irrefl 0), ?_⟩
  · exact Nat.zero_le _
  · exact Nat.zero_le _
  · exact h.further.cons_other fun _ _ _ _ => Obs.noConfusion

/-- A counted attempt within the limit: the counter goes up, and a guess is left. -/
lemma counted_guessInv {s : Session} (h : GuessInv s) (pop : Option Bytes)
    (below : s.auth.attempts ≠ 255) (within : ¬ s.auth.attempts + 1 > maxAttempts) :
    GuessInv ((counted s).log (.hmac pop)) ∧
    guesses ((counted s).log (.hmac pop)).history < maxAttempts.toNat ∧
    guesses ((counted s).log (.hmac pop)).history + 1 ≤
      ((counted s).log (.hmac pop)).auth.attempts.toNat := by
  have hsucc : (counted s).auth.attempts.toNat = s.auth.attempts.toNat + 1 :=
    toNat_succ_of_ne below
  have hle : (counted s).auth.attempts.toNat ≤ maxAttempts.toNat :=
    UInt8.le_iff_toNat_le.mp (UInt8.not_lt.mp within)
  have hattempts := h.attempts
  have hsame : guesses ((counted s).log (.hmac pop)).history = guesses s.history := by
    rw [Session.log, guesses_cons rfl]
    rfl
  refine ⟨h.log rfl ?_ id rfl rfl (h.further.cons_other fun _ _ _ _ => Obs.noConfusion), ?_, ?_⟩
  · change s.auth.attempts.toNat ≤ (counted s).auth.attempts.toNat
    omega
  · rw [hsame]
    omega
  · rw [hsame]
    change guesses s.history + 1 ≤ (counted s).auth.attempts.toNat
    omega

lemma effect_guessInv {z : Zcbor} {c : Crypto} {pop : Option Bytes} {s s' : Session}
    {req : Bytes} (h : GuessInv s) (eff : Effect z c pop s req s')
    (below : ∀ p, decodeWith z decodeAuthReq req = some (.proof p) →
      s.auth.challenged = true → s.auth.attempts ≠ 255) : GuessInv s' := by
  cases eff with
  | ignored => exact h
  | challenged nonce rand =>
    have hch : GuessInv { s with history := .challenge nonce rand :: s.history } :=
      h.log rfl (Nat.le_refl _) id rfl rfl
        (h.further.cons_other fun _ _ _ _ => Obs.noConfusion)
    exact hch.log rfl (Nat.le_refl _) (fun _ => rfl) rfl rfl
      (hch.further.cons_other fun _ _ _ _ => Obs.noConfusion)
  | refused p hno =>
    refine h.log rfl (Nat.le_refl _) id rfl rfl (h.further.cons fun _ _ _ _ _ hused => ?_)
    have hpos : 0 < guesses s.history := Nat.lt_of_lt_of_le (by decide) hused
    exact absurd (h.challenged hpos) (by simp [hno])
  | exhausted p hproof hch hover =>
    have hsucc := toNat_succ_of_ne (below p hproof hch)
    refine h.log rfl ?_ id rfl rfl (h.further.cons fun _ _ _ _ heq _ => ?_)
    · change s.auth.attempts.toNat ≤ (s.auth.attempts + 1).toNat
      omega
    · obtain ⟨-, rfl, rfl, rfl⟩ := Obs.proof.inj heq
      exact ⟨rfl, rfl, rfl⟩
  | failed p hproof hch hwithin =>
    obtain ⟨hinv, hroom, -⟩ := counted_guessInv h pop (below p hproof hch) hwithin
    exact hinv.log rfl (Nat.le_refl _) id rfl rfl
      (hinv.further.cons fun _ _ _ _ _ hused => absurd hused (Nat.not_le.mpr hroom))
  | mismatch p hproof hch hwithin | accepted p hproof hch hwithin =>
    obtain ⟨hinv, hroom, hnext⟩ := counted_guessInv h pop (below p hproof hch) hwithin
    exact hinv.compare rfl hroom hnext hch rfl

/-- One event keeps the count, unless a proof arrives at the maximum of the counter. -/
theorem step_guessInv {b : Board} {d : Dev} (h : GuessInv d.session) (e : Ev)
    (below : BelowWrap b d e) : GuessInv (step b d e).session := by
  have hlog : ∀ ep, GuessInv (d.session.log (.handler ep)) := fun ep =>
    h.log rfl (Nat.le_refl _) id rfl rfl (h.further.cons_other fun _ _ _ _ => Obs.noConfusion)
  have hmove := step_moves b d e
  generalize (step b d e).session = s' at hmove ⊢
  cases hmove with
  | stays => exact h
  | resets => exact sessionReset_guessInv h b.build
  | handles ep _ _ => exact hlog ep
  | stops _ => exact sessionReset_guessInv (hlog .ctrl) b.build
  | auths req arrival w =>
    exact effect_guessInv (hlog .auth) (handleAuth_effect _ _ _ _ _ _)
      fun p hproof => below req p arrival hproof

/-- In every run in which no proof arrives while the eight-bit attempt counter is at its
maximum, at most three proofs of a session are compared with the expected one, and all later
proofs of the session are answered unauthorized without a comparison. -/
theorem proof_guesses_bounded (b : Board) (connAttempts : UInt32)
    (settings : CredKind → Option Bytes) (read : CredKind → Settings.Read)
    (creds : List WifiConfig.Credential) (es : List Ev)
    (below : Each (step b) (BelowWrap b) (init b.build connAttempts settings read creds) es) :
    Always (step b) (fun d => GuessesBounded d.session.history)
      (init b.build connAttempts settings read creds) es := by
  have hstart : GuessInv fresh := by
    refine ⟨Nat.zero_le _, Nat.zero_le _, fun hpos => absurd hpos (Nat.lt_irrefl 0), ?_⟩
    intro newer p compared status authorizes older heq
    simp [fresh] at heq
  have hrun := always_of_each (I := fun d : Dev => GuessInv d.session)
    (fun _ e h hbelow => step_guessInv h e hbelow) hstart below
  exact hrun.mono fun _ h => ⟨h.bound, h.further⟩

/-- A challenge and one wrong proof. -/
def guessingRun : List Ev := request .auth challengeReq ++ request .auth (proofReq 0)

theorem proof_guesses_bounded_sample :
    Each (step sampleBoard) (BelowWrap sampleBoard) sampleDevice guessingRun ∧
    Always (step sampleBoard) (fun d => GuessesBounded d.session.history) sampleDevice
      guessingRun := by
  have hbelow : Each (step sampleBoard) (BelowWrap sampleBoard) sampleDevice guessingRun :=
    ⟨fun _ _ _ _ _ => by decide +kernel, fun _ _ _ _ _ => by decide +kernel,
      fun _ _ _ _ _ => by decide +kernel, fun _ _ _ _ _ => by decide +kernel, trivial⟩
  exact ⟨hbelow, proof_guesses_bounded sampleBoard 1 (fun _ => none) (fun _ => .whole) [] _ hbelow⟩

/-- A challenge and 256 wrong proofs in one session. -/
def wrappingRun : List Ev :=
  request .auth challengeReq ++ (List.replicate 256 (request .auth (proofReq 0))).flatten

/-- The last of them takes the counter from 255 back to 0 and is compared, as the fourth. -/
theorem wrapped_counter_compares_again :
    ¬ Always (step sampleBoard) (fun d => GuessesBounded d.session.history) sampleDevice
      wrappingRun := by
  intro h
  have hfour : guesses (wrappingRun.foldl (step sampleBoard) sampleDevice).session.history = 4 := by
    decide +kernel
  have hbound := h.final.1
  rw [hfour] at hbound
  exact absurd hbound (by decide)

lemma effect_history {z : Zcbor} {c : Crypto} {pop : Option Bytes} {s s' : Session} {req : Bytes}
    (eff : Effect z c pop s req s') : s.history <:+ s'.history := by
  cases eff with
  | ignored => exact List.suffix_refl _
  | challenged nonce rand => exact ⟨[.hmac pop, .challenge nonce rand], rfl⟩
  | refused p _ => exact List.suffix_cons _ _
  | exhausted p _ _ _ => exact List.suffix_cons _ _
  | failed p _ _ _ => exact ⟨[.proof p false none false, .hmac pop], rfl⟩
  | mismatch p _ _ _ => exact ⟨[.proof p true (some .unauthorized) false, .hmac pop], rfl⟩
  | accepted p _ _ _ _ => exact ⟨[.proof p true (some .ok) true, .hmac pop], rfl⟩

/-- Nothing is taken back from the history. -/
theorem step_history (b : Board) (d : Dev) (e : Ev) :
    d.session.history <:+ (step b d e).session.history := by
  have hmove := step_moves b d e
  generalize (step b d e).session = s' at hmove ⊢
  cases hmove with
  | stays => exact List.suffix_refl _
  | resets => exact List.suffix_cons _ _
  | handles ep _ _ => exact List.suffix_cons _ _
  | stops _ => exact ⟨[.reset, .handler .ctrl], rfl⟩
  | auths req _ w =>
    have heff := handleAuth_effect b.zcbor ⟨b.hmac, w.crypto⟩ b.pop w.rand
      (d.session.log (.handler .auth)) req
    have hlog : d.session.history <:+ (d.session.log (.handler .auth)).history :=
      List.suffix_cons _ _
    exact hlog.trans (effect_history heff)

/-- The event completes no request that decodes as a challenge. -/
def NoChallenge (b : Board) (d : Dev) (e : Ev) : Prop :=
  ∀ req nonce, arrives d e = some (.auth, req) →
    decodeWith b.zcbor decodeAuthReq req ≠ some (.challenge nonce)

lemma handleAuth_challenge {z : Zcbor} {req nonce : Bytes}
    (is_challenge : decodeWith z decodeAuthReq req = some (.challenge nonce)) (c : Crypto)
    (pop : Option Bytes) (rand : Nonce) (s : Session) :
    .hmac pop ∈ (handleAuth z c pop rand s req).2.history := by
  have hlen : nonce.length = nonceLen := by
    obtain ⟨x, -, hx⟩ := Option.bind_eq_some_iff.mp is_challenge
    exact decodeAuthReq_challenge_length hx
  simp only [handleAuth, is_challenge, handleChallenge, hlen, ne_eq, not_true_eq_false, if_false]
  split
  · exact List.mem_cons_self
  · exact List.mem_cons_self

/-- Before the first challenge of a session no other request asks for an HMAC. -/
lemma handleAuth_unchallenged {z : Zcbor} {req : Bytes}
    (other : ∀ nonce, decodeWith z decodeAuthReq req ≠ some (.challenge nonce)) (c : Crypto)
    (pop : Option Bytes) (rand : Nonce) {s : Session} (idle : s.auth.challenged = false) :
    (handleAuth z c pop rand s req).2.auth.challenged = false ∧
      ∀ key, .hmac key ∈ (handleAuth z c pop rand s req).2.history → .hmac key ∈ s.history := by
  cases hdec : decodeWith z decodeAuthReq req with
  | none =>
    simp only [handleAuth, hdec]
    exact ⟨idle, fun _ => id⟩
  | some r =>
    cases r with
    | challenge nonce => exact absurd hdec (other nonce)
    | proof p =>
      simp only [handleAuth, hdec, handleProof, idle, true_or, if_true]
      refine ⟨idle, fun key hmem => ?_⟩
      exact (List.mem_cons.mp hmem).resolve_left Obs.noConfusion

/-- No HMAC was ever asked for without a secret. -/
def SecretUsed (d : Dev) : Prop := .hmac none ∉ d.session.history

section NoSecret

variable {b : Board} {d : Dev}

lemma secretUsed_of_step {e : Ev} (h : SecretUsed (step b d e)) : SecretUsed d :=
  fun hmem => h ((step_history b d e).mem hmem)

/-- A step asks for an HMAC only through the auth handler. -/
lemma hmac_of_step {e : Ev} {key : Option Bytes}
    (asked : .hmac key ∈ (step b d e).session.history) :
    .hmac key ∈ d.session.history ∨ ∃ (req : Bytes) (w : World), arrives d e = some (.auth, req) ∧
      .hmac key ∈ (handleAuth b.zcbor ⟨b.hmac, w.crypto⟩ b.pop w.rand
        (d.session.log (.handler .auth)) req).2.history := by
  have hmove := step_moves b d e
  generalize (step b d e).session = s' at hmove asked
  cases hmove with
  | stays => exact Or.inl asked
  | resets => exact Or.inl (by simpa [sessionReset, Session.log] using asked)
  | handles ep _ _ => exact Or.inl (by simpa [Session.log] using asked)
  | stops _ => exact Or.inl (by simpa [sessionReset, Session.log] using asked)
  | auths req harrives w => exact Or.inr ⟨req, w, harrives, asked⟩

/-- With a secret every HMAC is asked for with it. -/
lemma step_secretUsed (secret : b.pop.isSome) (h : SecretUsed d) (e : Ev) :
    SecretUsed (step b d e) := by
  obtain ⟨pop, hpop⟩ := Option.isSome_iff_exists.mp secret
  intro hasked
  rcases hmac_of_step hasked with hbefore | ⟨req, w, -, hauth⟩
  · exact h hbefore
  · have heff := handleAuth_effect b.zcbor ⟨b.hmac, w.crypto⟩ b.pop w.rand
      (d.session.log (.handler .auth)) req
    rw [hpop] at heff hauth
    rw [SecretUsed] at h
    generalize (handleAuth _ _ _ _ _ req).2 = s' at heff hauth
    cases heff <;> simp [Session.log, counted, h] at hauth

lemma sessionReset_unchallenged (build : Build) {s : Session} (idle : s.auth.challenged = false) :
    (sessionReset build s).auth.challenged = false := by
  simp only [sessionReset, Session.log]
  split
  · rfl
  · exact idle

/-- Without a secret, a session has no challenge before the first HMAC is asked for. -/
def Unasked (d : Dev) : Prop := SecretUsed d → d.session.auth.challenged = false

lemma step_unasked (nosecret : b.pop = none) (h : Unasked d) (e : Ev) :
    Unasked (step b d e) := by
  intro hused
  have hidle := h (secretUsed_of_step hused)
  have hmove := step_moves b d e
  rw [SecretUsed] at hused
  generalize (step b d e).session = s' at hmove hused ⊢
  cases hmove with
  | stays => exact hidle
  | resets => exact sessionReset_unchallenged _ hidle
  | handles ep _ _ => exact hidle
  | stops _ => exact sessionReset_unchallenged _ (s := d.session.log (.handler .ctrl)) hidle
  | auths req _ w =>
    have hother : ∀ nonce, decodeWith b.zcbor decodeAuthReq req ≠ some (.challenge nonce) := by
      intro nonce hchallenge
      rw [nosecret] at hused
      exact hused (handleAuth_challenge hchallenge _ none _ _)
    exact (handleAuth_unchallenged hother _ _ _ (s := d.session.log (.handler .auth)) hidle).1

lemma step_secretUsed_iff (nosecret : b.pop = none) (hidle : Unasked d) (h : SecretUsed d)
    (e : Ev) : SecretUsed (step b d e) ↔ NoChallenge b d e := by
  constructor
  · intro hused req nonce harrives hchallenge
    obtain ⟨w, a, hstep⟩ := step_arrives b harrives
    refine hused ?_
    rw [hstep, handleRequest_session, if_neg (by simp [requireAuth])]
    simp only [runHandler, nosecret]
    exact handleAuth_challenge hchallenge _ none _ _
  · intro hother hasked
    rcases hmac_of_step hasked with hbefore | ⟨req, w, harrives, hauth⟩
    · exact h hbefore
    · have hbefore := (handleAuth_unchallenged (fun nonce => hother req nonce harrives) _ _ _
        (s := d.session.log (.handler .auth)) (hidle h)).2 none hauth
      exact h ((List.mem_cons.mp hbefore).resolve_left Obs.noConfusion)

end NoSecret

/-- Whatever the configuration, no HMAC is ever asked for without a secret exactly when a
secret is configured or no event of the run completes a challenge request. -/
theorem null_secret_unused_iff (b : Board) (connAttempts : UInt32)
    (settings : CredKind → Option Bytes) (read : CredKind → Settings.Read)
    (creds : List WifiConfig.Credential) (es : List Ev) :
    Always (step b) SecretUsed (init b.build connAttempts settings read creds) es ↔
      b.pop.isSome ∨
        Each (step b) (NoChallenge b) (init b.build connAttempts settings read creds) es := by
  have hstart : SecretUsed (init b.build connAttempts settings read creds) := by
    simp [SecretUsed, init, fresh]
  cases hpop : b.pop with
  | some pop =>
    have hsecret : b.pop.isSome := by simp [hpop]
    refine iff_of_true ?_ (Or.inl rfl)
    exact always_of_steps (I := SecretUsed) (fun _ e h => step_secretUsed hsecret h e) hstart es
  | none =>
    have hrun := always_iff_each (I := Unasked) (P := SecretUsed)
      (fun _ e h => step_unasked hpop h e)
      (fun _ e hidle h => step_secretUsed_iff hpop hidle h e) (fun _ => rfl) hstart es
    rw [hrun]
    simp

/-- One challenge to a device that was configured without a secret. -/
theorem challenge_without_secret :
    ¬ Always (step { sampleBoard with pop := none }) SecretUsed sampleDevice
      (request .auth challengeReq) := by
  intro h
  have hasked : .hmac none ∈ ((request .auth challengeReq).foldl
      (step { sampleBoard with pop := none }) sampleDevice).session.history := by decide +kernel
  exact h.final hasked

end AuthGate
