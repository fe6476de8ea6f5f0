import PouchProv.AuthGate
import PouchProv.Replies

/-!
# The stopped manager

Stopping the manager resets the session and the queue and stops advertising, but
an open link stays open and the handlers stay registered. `Watched` adds to the
device whether the manager was stopped and has not been started since. A request
that arrives in that time is let through by the same test as any other.
-/

namespace Stopped

open Bytes Codec Handlers Auth Device AuthGate ProvTypes Status Runs CredStore

structure Watched where
  dev : Dev
  stopped : Bool

/-- `running` is cleared only by a stop that returns zero and set only by a start that
returns zero. -/
def watch (b : Board) (s : Watched) (e : Ev) : Watched where
  dev := step b s.dev e
  stopped := !(step b s.dev e).running && (s.dev.running || s.stopped)

/-- What a client could change through a gated endpoint: the Wi-Fi state machine with its
credential store, the scan cache, and the staged and persisted cloud credentials. -/
def stores (d : Dev) : Wifi × Scan × Store := (d.wifi, d.scan, d.cred)

def isDownlink : Ev → Bool
  | .downlinkStart _ _ _ => true
  | .downlinkData _ _ _ _ => true
  | _ => false

/-- The event executes no gated handler. -/
def RunsNoGated (b : Board) (d : Dev) (e : Ev) : Prop :=
  ∀ ep, requireAuth ep →
    (step b d e).session.history.count (.handler ep) = d.session.history.count (.handler ep)

/-- While the manager is stopped no gated handler is executed, and nothing that a client
sends changes a store. -/
def Shut (b : Board) (s : Watched) (e : Ev) : Prop :=
  s.stopped → RunsNoGated b s.dev e ∧
    (isDownlink e → stores (step b s.dev e) = stores s.dev)

/-- No request to a gated endpoint is completed by the event in an authorized session. -/
def Refused (b : Board) (d : Dev) (e : Ev) : Prop :=
  ∀ ep req, arrives d e = some (ep, req) → requireAuth ep → ¬ sessionAuthorized b.pop d.session

def RefusedWhenStopped (b : Board) (s : Watched) (e : Ev) : Prop :=
  s.stopped → Refused b s.dev e

section Event

variable {b : Board} {d : Dev} {e : Ev}

lemma count_handler_le {h h' : List Obs} (ext : h <:+ h') (ep : Endpoint) :
    h.count (.handler ep) ≤ h'.count (.handler ep) :=
  ext.sublist.count_le _

/-- A gated handler that is let through is executed. -/
lemma count_lt_of_admitted {ep : Endpoint} {req : Bytes} (arrival : arrives d e = some (ep, req))
    (gated : requireAuth ep) (allowed : sessionAuthorized b.pop d.session) :
    d.session.history.count (.handler ep) < (step b d e).session.history.count (.handler ep) := by
  obtain ⟨w, a, hstep⟩ := step_arrives b arrival
  have hlogged : (.handler ep :: d.session.history) <:+ (step b d e).session.history := by
    rw [hstep, handleRequest_session, if_neg fun h => h.2 allowed]
    rcases runHandler_session b w ep req
      { d with active := a, session := d.session.log (.handler ep) } with
      ⟨h, -⟩ | ⟨h, -⟩ | ⟨-, rfl⟩
    · rw [h]
      exact List.suffix_refl _
    · rw [h]
      exact List.suffix_cons _ _
    · exact absurd gated Bool.noConfusion
  have hle := count_handler_le hlogged ep
  rw [List.count_cons_self] at hle
  omega

lemma effect_count {z : Zcbor} {c : Crypto} {pop : Option Bytes} {s s' : Session} {req : Bytes}
    (eff : Effect z c pop s req s') (ep : Endpoint) :
    s'.history.count (.handler ep) = s.history.count (.handler ep) := by
  cases eff <;> simp [Session.log, counted]

/-- An event that lets no gated request through logs no gated handler. -/
lemma runsNoGated_of_refused (refused : Refused b d e) : RunsNoGated b d e := by
  intro ep hgated
  cases harrives : arrives d e with
  | none =>
    rcases step_idle b harrives with h | h
    · rw [h]
    · rw [h]
      simp [sessionReset, Session.log]
  | some r =>
    obtain ⟨ep', req⟩ := r
    obtain ⟨w, a, hstep⟩ := step_arrives b harrives
    rw [hstep, handleRequest_session]
    split
    · rfl
    · rename_i hgate
      have hopen : requireAuth ep' = false := by
        rw [← Bool.not_eq_true]
        exact fun h => hgate ⟨h, refused ep' req harrives h⟩
      have hne : ep' ≠ ep := by
        rintro rfl
        rw [hopen] at hgated
        exact Bool.noConfusion hgated
      have hlog : ((d.session.log (.handler ep')).history).count (.handler ep) =
          d.session.history.count (.handler ep) := by
        simp [Session.log, hne]
      cases ep' with
      | ver => exact hlog
      | auth => exact (effect_count (handleAuth_effect _ _ _ _ _ _) ep).trans hlog
      | _ => exact Bool.noConfusion hopen

/-- A request that no gated handler sees changes no store. -/
lemma handleRequest_stores (w : World) {ep : Endpoint} (req : Bytes)
    (refused : requireAuth ep → ¬ sessionAuthorized b.pop d.session) :
    stores (handleRequest b w ep req d) = stores d := by
  rw [handleRequest]
  split
  · obtain ⟨q, h⟩ := respondStatus_frame w.memory ep (peekOp req) .unauthorized d
    rw [h]
    rfl
  · rename_i hgate
    have hopen : requireAuth ep = false := by
      rw [← Bool.not_eq_true]
      exact fun h => hgate ⟨h, refused h⟩
    have hreply (r : Except Errno Bytes × Dev) :
        stores (reply w.memory ep req r.1 r.2) = stores r.2 := by
      obtain ⟨q, h⟩ := reply_frame w.memory ep req r.1 r.2
      rw [h]
      rfl
    refine (hreply (runHandler b w ep req
      { d with session := d.session.log (.handler ep) })).trans ?_
    cases ep with
    | ver => rfl
    | auth => rfl
    | _ => exact Bool.noConfusion hopen

lemma downlink_stores (refused : Refused b d e) (down : isDownlink e) :
    stores (step b d e) = stores d := by
  cases e with
  | downlinkStart streamId p contentType =>
    simp only [step, downlinkStart]
    split
    · rfl
    · split <;> rfl
  | downlinkData streamId data isLast w =>
    cases harrives : arrives d (.downlinkData streamId data isLast w) with
    | none =>
      rcases downlinkData_idle b harrives with ⟨a, h⟩ | ⟨ep, a, h⟩
      · rw [h]
        rfl
      · obtain ⟨q, hframe⟩ := respondStatus_frame w.memory ep 0 .invalidArgument
          { d with active := a }
        rw [h, hframe]
        rfl
    | some r =>
      obtain ⟨a, hstep⟩ := downlinkData_arrives b harrives
      rw [hstep]
      exact handleRequest_stores w _ (refused r.1 r.2 harrives)
  | _ => exact absurd down Bool.noConfusion

/-- An event runs no gated handler exactly when it completes no gated request in an
authorized session. -/
theorem runsNoGated_iff : RunsNoGated b d e ↔ Refused b d e := by
  constructor
  · intro hnone ep req harrives hgated hallowed
    have hlt := count_lt_of_admitted harrives hgated hallowed
    have heq := hnone ep hgated
    omega
  · exact runsNoGated_of_refused

end Event

/-- In every run, and whatever the configured secret: from a stop to the next start no gated
handler is executed and no client changes a store, exactly when no request to a gated endpoint
is completed in an authorized session during that time. -/
theorem stopped_means_stopped_iff (b : Board) (connAttempts : UInt32)
    (settings : CredKind → Option Bytes) (read : CredKind → Settings.Read)
    (creds : List WifiConfig.Credential) (es : List Ev) :
    Each (watch b) (Shut b) ⟨init b.build connAttempts settings read creds, false⟩ es ↔
      Each (watch b) (RefusedWhenStopped b)
        ⟨init b.build connAttempts settings read creds, false⟩ es := by
  refine each_iff_each (I := fun _ => True) (fun _ _ _ _ => trivial) ?_ trivial es
  intro s e _
  constructor
  · intro h hstopped
    exact runsNoGated_iff.mp (h hstopped).1
  · intro h hstopped
    have hrefused := h hstopped
    exact ⟨runsNoGated_iff.mpr hrefused, downlink_stores hrefused⟩

/-- A stop by the application, and then a control request on the link that stayed open. -/
def stoppedRun : List Ev := [.mgrStart {}, .mgrStop] ++ request .ctrl ctrlResetReq

/-- The same with a secret: the client first proves it, in the session that the stop opened. -/
def stoppedProvingRun : List Ev := [.mgrStart {}, .mgrStop] ++ provingRun

lemma ctrl_of_shut {b : Board} {s : Watched} {e : Ev} (h : Shut b s e) (stopped : s.stopped) :
    (step b s.dev e).session.history.count (.handler .ctrl) =
      s.dev.session.history.count (.handler .ctrl) :=
  (h stopped).1 .ctrl rfl

/-- Both runs execute the control handler while the manager is stopped. -/
theorem stopped_manager_serves :
    ¬ Each (watch Replies.openBoard) (Shut Replies.openBoard) ⟨sampleDevice, false⟩ stoppedRun ∧
    ¬ Each (watch sampleBoard) (Shut sampleBoard) ⟨sampleDevice, false⟩ stoppedProvingRun := by
  constructor
  · rintro ⟨-, -, -, h, -⟩
    exact absurd (ctrl_of_shut h (by decide +kernel)) (by decide +kernel)
  · rintro ⟨-, -, -, -, -, -, -, h, -⟩
    exact absurd (ctrl_of_shut h (by decide +kernel)) (by decide +kernel)

end Stopped
