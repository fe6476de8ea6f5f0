import PouchProv.Stopped
import PouchProv.CredSessions
import PouchProv.WifiRuns

/-!
# Whether the device is provisioned

The auto-stop timer is armed by the last provisioning step and relies on the
credentials that the step left behind; a reprovision takes them away again. What
one event can do to the two stores and to the timer is said once, in
`step_touches`.
-/

namespace Provisioned

open Bytes Codec Handlers Auth Device AuthGate ProvTypes Status Runs CredStore
open CredRuns (Wf)
open WifiConfig (Credential wifiReprovision)
open WifiRuns (InFlight)

/-- The part of the device that decides whether it is provisioned, and the timer. -/
structure Held where
  wc : WifiConfig.State
  cred : Store
  timer : Bool

def held (d : Dev) : Held := ⟨d.wifi.wc, d.cred, d.autostop⟩

/-- What a reprovision makes of them, by request or by `pouch_prov_mgr_reset`. -/
def wiped (build : Build) (env : WipeEnv) (h : Held) : Held :=
  { h with wc := if build.wifi then wifiReprovision env.wifi h.wc else h.wc
           cred := if build.cred then credDeleteAll env.cred h.cred else h.cred }

/-- What an event can make of them. -/
inductive Touches (build : Build) (h : Held) : Held → Prop where
  | keeps {timer : Bool} (kept : timer → h.timer) : Touches build h { h with timer := timer }
  | reloads (read : CredKind → Settings.Read) (enabled : build.cred) :
      Touches build h { h with cred := settingsLoad read h.cred, timer := false }
  | configures (ev : WifiConfig.Ev) {timer : Bool}
      (armed : timer → h.timer ∨
        ∃ e, .event e ∈ (WifiConfig.step h.wc ev).2 ∧ isLastStep build e) :
      Touches build h { h with wc := (WifiConfig.step h.wc ev).1, timer := timer }
  | stages (kind : Int) (offset total : Nat) (data : Bytes) :
      Touches build h { h with cred := (credStage kind offset total data h.cred).2 }
  | finalizes (save : CredKind → Bool) {timer : Bool}
      (armed : timer → h.timer ∨
        (credFinalize save h.cred).1 = .ok () ∧ isLastStep build .cloudCredStored) :
      Touches build h { h with cred := (credFinalize save h.cred).2, timer := timer }
  | wipes (env : WipeEnv) : Touches build h (wiped build env h)

section Event

variable {b : Board} {d : Dev}

lemma Touches.same (build : Build) (h : Held) : Touches build h h := .keeps id

lemma emit_armed {build : Build} {e : Event} (armed : (emit build e d).autostop) :
    d.autostop ∨ isLastStep build e := by
  rw [emit] at armed
  split at armed
  · rename_i h
    exact Or.inr h.2.1
  · exact Or.inl armed

lemma emitAll_armed {build : Build} {outs : List WifiConfig.Out}
    (armed : (emitAll build outs d).autostop) :
    d.autostop ∨ ∃ e, .event e ∈ outs ∧ isLastStep build e := by
  rw [emitAll] at armed
  induction outs generalizing d with
  | nil => exact Or.inl armed
  | cons o outs ih =>
    rw [List.foldl_cons] at armed
    rcases ih armed with h | ⟨e, he, hlast⟩
    · cases o with
      | connect req accepted => exact Or.inl h
      | event e =>
        rcases emit_armed h with h | h
        · exact Or.inl h
        · exact Or.inr ⟨e, List.mem_cons_self, h⟩
    · exact Or.inr ⟨e, List.mem_cons_of_mem _ he, hlast⟩

lemma held_emit (build : Build) (e : Event) (d : Dev) :
    held (emit build e d) = { held d with timer := (emit build e d).autostop } := by
  obtain ⟨armed, h⟩ := emit_frame build e d
  rw [h]
  rfl

lemma held_emitAll (build : Build) (outs : List WifiConfig.Out) (d : Dev) :
    held (emitAll build outs d) = { held d with timer := (emitAll build outs d).autostop } := by
  obtain ⟨armed, h⟩ := emitAll_frame build outs d
  rw [h]
  rfl

/-- Reporting what the Wi-Fi state machine put out. -/
lemma emitAll_touches (build : Build) (ev : WifiConfig.Ev) (wifi : Wifi)
    (wc : wifi.wc = (WifiConfig.step d.wifi.wc ev).1) :
    Touches build (held d)
      (held (emitAll build (WifiConfig.step d.wifi.wc ev).2 { d with wifi := wifi })) := by
  rw [held_emitAll]
  have h := @Touches.configures build (held d) ev _
    (emitAll_armed (d := { d with wifi := wifi }))
  simpa only [held, wc] using h

lemma held_mgrStop (build : Build) (d : Dev) :
    held (mgrStop build d).2 = { held d with timer := !d.running && d.autostop } := by
  rw [mgrStop]
  cases hruns : d.running <;> rfl

lemma mgrStop_touches (build : Build) (d : Dev) :
    Touches build (held d) (held (mgrStop build d).2) := by
  rw [held_mgrStop]
  exact .keeps fun h => (Bool.and_eq_true_iff.mp h).2

lemma held_mgrReset (build : Build) (w : World) (d : Dev) :
    held (mgrReset build w d) = wiped build w.wipe (held d) := by
  simp only [mgrReset, endSession, dispatchReset, held, wiped]
  cases build.wifi <;> rfl

lemma encodeStatus_wc (env : StatusEnv) (w : Wifi) : (encodeStatus env w).2.wc = w.wc := by
  rw [encodeStatus]
  split
  · rfl
  · split <;> rfl

lemma handleConfig_touches (b : Board) (w : World) (req : Bytes) (d : Dev) :
    Touches b.build (held d) (held (runHandler b w .config req d).2) := by
  cases hreq : decodeWith b.zcbor decodeConfigReq req with
  | none =>
    simp only [runHandler, handleConfig, hreq]
    exact .same _ _
  | some r =>
    simp only [runHandler, handleConfig, hreq]
    cases r with
    | getStatus =>
      have hsame : held { d with wifi := (encodeStatus w.status d.wifi).2 } = held d := by
        simp only [held, encodeStatus_wc]
      exact hsame ▸ Touches.same b.build _
    | set cfg => exact emitAll_touches b.build (.set cfg) _ rfl
    | apply => exact emitAll_touches b.build (.apply w.wifi) _ rfl

lemma held_reprovision (w : World) {req : Bytes}
    (decoded : decodeWith b.zcbor decodeCtrlReq req = some .ctrlReprovision) :
    held (runHandler b w .ctrl req d).2 = wiped b.build w.wipe (held d) := by
  simp only [runHandler, handleCtrl, decoded, held, wiped]
  cases b.build.wifi <;> rfl

lemma handleCtrl_touches (b : Board) (w : World) (req : Bytes) (d : Dev) :
    Touches b.build (held d) (held (runHandler b w .ctrl req d).2) := by
  cases hreq : decodeWith b.zcbor decodeCtrlReq req with
  | none =>
    simp only [runHandler, handleCtrl, hreq]
    exact .same _ _
  | some r =>
    cases r with
    | ctrlReset =>
      simp only [runHandler, handleCtrl, hreq]
      cases hwifi : b.build.wifi with
      | false => exact .same _ _
      | true => exact .configures .reset Or.inl
    | ctrlReprovision =>
      rw [held_reprovision w hreq]
      exact .wipes w.wipe
    | ctrlEnd =>
      simp only [runHandler, handleCtrl, hreq]
      split
      · exact mgrStop_touches b.build d
      · exact .same _ _

lemma isOk_iff {r : Except Errno Unit} : r.isOk ↔ r = .ok () := by
  cases r with
  | error e => exact iff_of_false Bool.noConfusion (by simp)
  | ok u => exact iff_of_true rfl rfl

lemma handleCred_touches (b : Board) (w : World) (req : Bytes) (d : Dev) :
    Touches b.build (held d) (held (runHandler b w .cred req d).2) := by
  cases hreq : decodeWith b.zcbor decodeCredReq req with
  | none =>
    simp only [runHandler, handleCred, hreq]
    exact .same _ _
  | some r =>
    cases r with
    | write c =>
      simp only [runHandler, handleCred, hreq]
      exact .stages c.kind c.off c.total c.data
    | getStatus =>
      simp only [runHandler, handleCred, hreq]
      exact .same _ _
    | finalize =>
      simp only [runHandler, handleCred, hreq]
      split
      · rename_i hok
        rw [held_emit]
        exact .finalizes w.save fun harmed =>
          (emit_armed harmed).imp id fun hlast => ⟨isOk_iff.mp hok, hlast⟩
      · exact .finalizes w.save Or.inl

lemma held_respondStatus (memory : Bool) (ep : Endpoint) (op : Nat) (status : ProvStatus)
    (d : Dev) : held (respondStatus memory ep op status d) = held d := by
  obtain ⟨q, h⟩ := respondStatus_frame memory ep op status d
  rw [h]
  rfl

lemma held_reply (memory : Bool) (ep : Endpoint) (req : Bytes) (rsp : Except Errno Bytes)
    (d : Dev) : held (reply memory ep req rsp d) = held d := by
  obtain ⟨q, h⟩ := reply_frame memory ep req rsp d
  rw [h]
  rfl

lemma runHandler_touches (b : Board) (w : World) (ep : Endpoint) (req : Bytes) (d : Dev) :
    Touches b.build (held d) (held (runHandler b w ep req d).2) := by
  cases ep with
  | ver => exact .same _ _
  | auth => exact .same _ _
  | scan => exact .same _ _
  | ctrl => exact handleCtrl_touches b w req d
  | config => exact handleConfig_touches b w req d
  | cred => exact handleCred_touches b w req d

lemma handleRequest_touches (b : Board) (w : World) (ep : Endpoint) (req : Bytes) (d : Dev) :
    Touches b.build (held d) (held (handleRequest b w ep req d)) := by
  rw [handleRequest]
  split
  · rw [held_respondStatus]
    exact .same _ _
  · simp only [held_reply]
    exact runHandler_touches b w ep req { d with session := d.session.log (.handler ep) }

lemma downlinkData_touches (streamId : Nat) (data : Bytes) (isLast : Bool) (w : World) :
    Touches b.build (held d) (held (downlinkData b w streamId data isLast d)) := by
  rw [downlinkData]
  split
  · exact .same _ _
  · split
    · exact .same _ _
    · dsimp only
      split
      · exact .same _ _
      · split
        · rw [held_respondStatus]
          exact .same _ _
        · exact handleRequest_touches b w _ _
            { d with active := { receive data d.active with endpoint := none } }

lemma mgrStart_touches (w : World) :
    Touches b.build (held d) (held (mgrStart b.build w d).2) := by
  rw [mgrStart]
  split
  · exact .same _ _
  · split
    · exact .same _ _
    · cases hcred : b.build.cred with
      | false =>
        have h := @Touches.keeps b.build (held d) false fun h => Bool.noConfusion h
        dsimp only
        split <;> exact h
      | true =>
        have h := @Touches.reloads b.build (held d) w.read hcred
        dsimp only
        split <;> exact h

/-- Every event touches the stores and the timer in one of these ways. -/
theorem step_touches (b : Board) (d : Dev) (e : Ev) :
    Touches b.build (held d) (held (step b d e)) := by
  cases e with
  | downlinkStart streamId p contentType =>
    simp only [step, downlinkStart]
    split
    · exact .same _ _
    · split <;> exact .same _ _
  | downlinkData streamId data isLast w => exact downlinkData_touches streamId data isLast w
  | uplinkFlush => exact .same _ _
  | sessionEnded => exact .same _ _
  | mgrStart w => exact mgrStart_touches w
  | mgrStop => exact mgrStop_touches b.build d
  | mgrReset w =>
    rw [step, held_mgrReset]
    exact .wipes w.wipe
  | autostop =>
    simp only [step]
    split
    · rw [held_mgrStop]
      exact .keeps fun h => absurd (Bool.and_eq_true_iff.mp h).2 Bool.noConfusion
    · exact .same _ _
  | connectResult env status =>
    simp only [step]
    split
    · exact emitAll_touches b.build (.result env status) _ rfl
    · exact .same _ _
  | retryWork env =>
    simp only [step]
    split
    · rename_i hdue
      have hstep : WifiConfig.step d.wifi.wc (.retry env) =
          WifiConfig.retryWorkHandler env d.wifi.wc := by
        simp only [WifiConfig.step, hdue.2, if_true]
      have h := emitAll_touches b.build (.retry env)
        { d.wifi with wc := (WifiConfig.step d.wifi.wc (.retry env)).1 } rfl
      rwa [hstep] at h
    · exact .same _ _
  | scanResult | scanDone =>
    simp only [step]
    split <;> exact .same _ _

end Event

def isProvisioned (build : Build) (h : Held) : Bool :=
  if build.wifi then WifiConfig.wifiIsProvisioned h.wc
  else build.cred && credPresent h.cred .deviceCert

lemma isProvisioned_held (build : Build) (d : Dev) :
    isProvisioned build (held d) = mgrIsProvisioned build d := rfl

/-- The timer is pending, or an attempt is in flight whose success will arm it. -/
def Pending (build : Build) (h : Held) : Prop := h.timer ∨ build.wifi ∧ InFlight h.wc

instance (build : Build) (h : Held) : Decidable (Pending build h) :=
  inferInstanceAs (Decidable (_ ∨ _ ∧ _))

/-- When the timer stops a running manager, the device is provisioned. -/
def StopsProvisioned (b : Board) (d : Dev) : Ev → Prop
  | .autostop => d.autostop → d.running → mgrIsProvisioned b.build d
  | _ => True

/-- The event takes the last credential away and leaves the timer pending, or an attempt in
flight. -/
def Strands (b : Board) (d : Dev) (e : Ev) : Prop :=
  mgrIsProvisioned b.build d ∧ ¬ mgrIsProvisioned b.build (step b d e) ∧
    Pending b.build (held (step b d e))

instance (b : Board) (d : Dev) (e : Ev) : Decidable (Strands b d e) :=
  inferInstanceAs (Decidable (_ ∧ _ ∧ _))

section Timer

variable {build : Build} {wc : WifiConfig.State}

lemma connectFromInflight_silent (env : WifiConfig.Env) (e : Event) :
    .event e ∉ (WifiConfig.connectFromInflight env wc).2 := by
  rw [WifiConfig.connectFromInflight]
  split <;> simp

lemma finalFailure_event {env : WifiConfig.Env} {e : Event}
    (out : .event e ∈ (WifiConfig.finalFailure env wc).2) : ∃ reason, e = .wifiFail reason :=
  ⟨_, WifiConfig.Out.event.inj (List.mem_singleton.mp out)⟩

/-- The events that the Wi-Fi state machine reports, and when a connection is one of them. -/
lemma event_of_step {ev : WifiConfig.Ev} {e : Event}
    (out : .event e ∈ (WifiConfig.step wc ev).2) :
    e = .wifiCredRecv ∨ (∃ reason, e = .wifiFail reason) ∨ e = .wifiConnected ∧ InFlight wc := by
  cases ev with
  | set cfg => exact absurd out List.not_mem_nil
  | reset => exact absurd out List.not_mem_nil
  | reprovision deleted => exact absurd out List.not_mem_nil
  | apply env =>
    simp only [WifiConfig.step, WifiConfig.doApply] at out
    split at out
    · exact absurd out List.not_mem_nil
    · split at out
      · exact absurd out List.not_mem_nil
      · split at out
        · rcases List.mem_cons.mp out with h | h
          · exact Or.inl (WifiConfig.Out.event.inj h)
          · exact absurd h (connectFromInflight_silent env e)
        · rcases List.mem_append.mp out with h | h
          · rcases List.mem_cons.mp h with h | h
            · exact Or.inl (WifiConfig.Out.event.inj h)
            · exact absurd h (connectFromInflight_silent env e)
          · exact Or.inr (Or.inl (finalFailure_event h))
  | result env status =>
    by_cases hfly : InFlight wc
    · simp only [WifiConfig.step, WifiConfig.onConnectResult] at out
      split at out
      · exact absurd out List.not_mem_nil
      · split at out
        · exact Or.inr (Or.inr ⟨WifiConfig.Out.event.inj (List.mem_singleton.mp out), hfly⟩)
        · split at out
          · split at out
            · exact absurd out List.not_mem_nil
            · exact Or.inr (Or.inl (finalFailure_event out))
          · exact Or.inr (Or.inl (finalFailure_event out))
    · have hnone : wc.inflight.ssid.length = 0 := by simpa [InFlight] using hfly
      simp [WifiConfig.step, WifiConfig.onConnectResult, hnone] at out
  | retry env =>
    simp only [WifiConfig.step, WifiConfig.retryWorkHandler] at out
    split at out
    · split at out
      · exact absurd out List.not_mem_nil
      · split at out
        · exact absurd out (connectFromInflight_silent env e)
        · rcases List.mem_append.mp out with h | h
          · exact absurd h (connectFromInflight_silent env e)
          · exact Or.inr (Or.inl (finalFailure_event h))
    · exact absurd out List.not_mem_nil

/-- Of the events that the Wi-Fi state machine reports only a connection arms the timer. -/
lemma inFlight_of_lastStep {ev : WifiConfig.Ev} {e : Event}
    (out : .event e ∈ (WifiConfig.step wc ev).2) (last : isLastStep build e) :
    build.wifi ∧ InFlight wc := by
  rw [isLastStep] at last
  rcases event_of_step out with rfl | ⟨reason, rfl⟩ | ⟨rfl, hfly⟩
  · cases hwifi : build.wifi <;> simp [hwifi] at last
  · cases hwifi : build.wifi <;> simp [hwifi] at last
  · cases hwifi : build.wifi with
    | false => simp [hwifi] at last
    | true => exact ⟨rfl, hfly⟩

/-- An attempt is in flight after a step only if it was before, or an apply has stored the
network it is for. -/
lemma stored_of_inFlight {ev : WifiConfig.Ev} (fly : InFlight (WifiConfig.step wc ev).1) :
    InFlight wc ∨ WifiConfig.wifiIsProvisioned (WifiConfig.step wc ev).1 := by
  cases ev with
  | set cfg =>
    obtain ⟨staged, h⟩ := WifiRuns.doSet_frame cfg wc
    rw [WifiConfig.step, h] at fly
    exact Or.inl fly
  | reset => exact absurd fly (Nat.lt_irrefl 0)
  | reprovision deleted => exact absurd fly (Nat.lt_irrefl 0)
  | apply env =>
    simp only [WifiConfig.step] at fly ⊢
    rcases WifiRuns.doApply_cases env wc with
      ⟨_, _, creds, h, _⟩ | ⟨_, _, _, _, h⟩ | ⟨_, _, _, _, h⟩
    · rw [h] at fly
      exact Or.inl fly
    · rw [h]
      exact Or.inr rfl
    · rw [InFlight, h.ssid] at fly
      exact absurd fly (Nat.lt_irrefl 0)
  | result env status =>
    by_contra hnone
    obtain ⟨hidle, -⟩ := not_or.mp hnone
    have hstays : WifiConfig.onConnectResult env status wc = (wc, []) := by
      have hz : wc.inflight.ssid.length = 0 := by simpa [InFlight] using hidle
      simp [WifiConfig.onConnectResult, hz]
    rw [WifiConfig.step, hstays] at fly
    exact hidle fly
  | retry env =>
    rcases WifiRuns.step_retry wc env with ⟨_, h⟩ | ⟨_, h⟩
    · rw [h] at fly
      exact Or.inl fly
    · rw [h] at fly
      rcases WifiRuns.retryWorkHandler_cases env wc with ⟨_, h⟩ | ⟨hfly, _⟩ | ⟨hfly, _⟩
      · rw [h] at fly
        exact Or.inl fly
      · exact Or.inl hfly
      · exact Or.inl hfly

/-- A finalize that succeeds has stored a device certificate. -/
lemma present_of_finalize {save : CredKind → Bool} {s : Store}
    (ok : (credFinalize save s).1 = .ok ()) :
    credPresent (credFinalize save s).2 .deviceCert := by
  by_cases ready : CredRuns.Ready s
  · have hlen := (CredRuns.credFinalize_ok ok ready.1).2
    have hstaged : (s.blob .deviceCert).staged ≠ 0 := by
      have hfull := ready.1
      simp only [fullyStaged, decide_eq_true_eq] at hfull
      exact hfull.1
    simp only [credPresent, hlen, gt_iff_lt, decide_eq_true_eq]
    omega
  · obtain ⟨e, he⟩ := CredRuns.credFinalize_refused ready save
    rw [he] at ok
    cases ok

/-- The timer becomes pending, and an attempt gets into flight, only on a provisioned device. -/
theorem Touches.pending {h h' : Held} (touches : Touches build h h') (pending : Pending build h') :
    Pending build h ∨ isProvisioned build h' := by
  cases touches with
  | keeps kept => exact Or.inl (pending.imp kept id)
  | reloads read enabled => exact Or.inl (pending.imp (fun h => Bool.noConfusion h) id)
  | configures ev armed =>
    rcases pending with htimer | ⟨hwifi, hfly⟩
    · rcases armed htimer with h | ⟨e, hout, hlast⟩
      · exact Or.inl (Or.inl h)
      · exact Or.inl (Or.inr (inFlight_of_lastStep hout hlast))
    · rcases stored_of_inFlight hfly with h | h
      · exact Or.inl (Or.inr ⟨hwifi, h⟩)
      · exact Or.inr (by simpa only [isProvisioned, hwifi, if_true] using h)
  | stages kind offset total data => exact Or.inl pending
  | finalizes save armed =>
    rcases pending with htimer | hfly
    · rcases armed htimer with h | ⟨hok, hlast⟩
      · exact Or.inl (Or.inl h)
      · cases hwifi : build.wifi with
        | true => simp [isLastStep, hwifi] at hlast
        | false =>
          have hcred : build.cred := by simpa [isLastStep, hwifi] using hlast
          exact Or.inr (by simp [isProvisioned, hwifi, hcred, present_of_finalize hok])
    · exact Or.inl (Or.inr hfly)
  | wipes env =>
    rcases pending with htimer | ⟨hwifi, hfly⟩
    · exact Or.inl (Or.inl htimer)
    · simp only [wiped, hwifi, if_true] at hfly
      exact absurd hfly (Nat.lt_irrefl 0)

end Timer

lemma init_not_pending (build : Build) (connAttempts : UInt32)
    (settings : CredKind → Option Bytes) (read : CredKind → Settings.Read)
    (creds : List Credential) :
    ¬ Pending build (held (init build connAttempts settings read creds)) := by
  rintro (h | ⟨-, h⟩)
  · exact Bool.noConfusion h
  · exact absurd h (Nat.lt_irrefl 0)

/-- In every run in which no event takes the last credential away and leaves the timer pending
or an attempt in flight, the timer stops the manager only on a provisioned device. -/
theorem autostop_on_provisioned (b : Board) (connAttempts : UInt32)
    (settings : CredKind → Option Bytes) (read : CredKind → Settings.Read) (creds : List Credential)
    (es : List Ev)
    (kept : Each (step b) (fun d e => ¬ Strands b d e)
      (init b.build connAttempts settings read creds) es) :
    Each (step b) (StopsProvisioned b) (init b.build connAttempts settings read creds) es := by
  refine each_of_each (I := fun d => Pending b.build (held d) → mgrIsProvisioned b.build d)
    ?_ ?_ ?_ kept
  · intro d e backed unstranded pending
    by_contra hbare
    rcases (step_touches b d e).pending pending with h | h
    · exact unstranded ⟨backed h, hbare, pending⟩
    · exact hbare h
  · intro d e backed _
    cases e with
    | autostop => exact fun harmed _ => backed (Or.inl harmed)
    | _ => trivial
  · intro h
    exact absurd h (init_not_pending _ _ _ _ _)

def autostopBoard : Board :=
  { Replies.openBoard with build := { Replies.openBoard.build with autostop := true } }

def autostopDevice : Dev := init autostopBoard.build 1 (fun _ => none) (fun _ => .whole) []

/-- A network is set, applied and connected to, which arms the timer. -/
def connectedRun : List Ev :=
  [.mgrStart {}] ++
    request .config (Cbor.encode (.array [.uint 1, .map [.tstr (utf8 "ssid"), .bstr [0x61]]])) ++
    request .config (Cbor.encode (.array [.uint 2])) ++ [.connectResult {} ⟨0, .success⟩]

theorem autostop_on_provisioned_connected :
    (connectedRun.foldl (step autostopBoard) autostopDevice).autostop ∧
    Each (step autostopBoard) (fun d e => ¬ Strands autostopBoard d e) autostopDevice
      (connectedRun ++ [.autostop]) ∧
    Each (step autostopBoard) (StopsProvisioned autostopBoard) autostopDevice
      (connectedRun ++ [.autostop]) := by
  have hkept : Each (step autostopBoard) (fun d e => ¬ Strands autostopBoard d e) autostopDevice
      (connectedRun ++ [.autostop]) := by decide +kernel
  exact ⟨by decide +kernel, hkept,
    autostop_on_provisioned autostopBoard 1 (fun _ => none) (fun _ => .whole) [] _ hkept⟩

def ctrlReprovisionReq : Bytes := Cbor.encode (.array [.uint 1])

/-- Between the connection and the expiry of the timer the client reprovisions the device. -/
def reprovisionedRun : List Ev :=
  connectedRun ++ request .ctrl ctrlReprovisionReq ++ [.autostop]

/-- The timer that the connection armed stops the manager of a device without credentials. -/
theorem autostop_after_reprovision :
    ¬ Each (step autostopBoard) (StopsProvisioned autostopBoard) autostopDevice
      reprovisionedRun := by
  rintro ⟨-, -, -, -, -, -, -, -, h, -⟩
  exact absurd (h (by decide +kernel) (by decide +kernel)) (by decide +kernel)

/-- An event, or a reboot: the statics are lost, what the two stores hold is not. -/
inductive Life where
  | event (e : Ev)
  | reboot (connAttempts : UInt32) (read : CredKind → Settings.Read)

def live (b : Board) (d : Dev) : Life → Dev
  | .event e => step b d e
  | .reboot connAttempts read =>
    init b.build connAttempts d.cred.settings read d.wifi.wc.creds

/-- The answer to a reprovision request with status ok. -/
def reprovisionedRsp : Rsp := ⟨path .ctrl, Cbor.encode (.array [.uint 1, .uint 0])⟩

/-- The event is a call of `pouch_prov_mgr_reset`, which returns zero, or it completes a
reprovision request that is answered with status ok. -/
inductive Reprovisions (b : Board) (d : Dev) : Ev → WipeEnv → Prop where
  | reset (w : World) : Reprovisions b d (.mgrReset w) w.wipe
  | answered (streamId : Nat) (data : Bytes) (isLast : Bool) (w : World) (req : Bytes)
      (arrival : arrives d (.downlinkData streamId data isLast w) = some (.ctrl, req))
      (decoded : decodeWith b.zcbor decodeCtrlReq req = some .ctrlReprovision)
      (ok : (step b d (.downlinkData streamId data isLast w)).rpc.enqueued =
        d.rpc.enqueued ++ [reprovisionedRsp]) :
      Reprovisions b d (.downlinkData streamId data isLast w) w.wipe

/-- Neither store gets anything that it did not hold before. -/
def NothingNew (b : Board) (d : Dev) (l : Life) : Prop :=
  (∀ c ∈ (live b d l).wifi.wc.creds, c ∈ d.wifi.wc.creds) ∧
    ∀ k value, (live b d l).cred.settings k = some value → d.cred.settings k = some value

/-- The device is not provisioned, and a build with a credential store finds nothing in it. -/
def Gone (b : Board) (d : Dev) : Prop :=
  mgrIsProvisioned b.build d = false ∧ (b.build.cred → ∀ k, credGet d.cred k = none)

/-- A stored value that a reload takes for a credential. -/
def Loadable (k : CredKind) (stored : Option Bytes) : Prop :=
  ∃ value, stored = some value ∧ 0 < value.length ∧ value.length ≤ cap k

/-- Every deletion of something that a reload would bring back succeeds. -/
def Deletes (build : Build) (env : WipeEnv) (d : Dev) : Prop :=
  (build.wifi → env.wifi ∨ d.wifi.wc.creds = []) ∧
    (build.cred → ∀ k, env.cred k ∨ ¬ Loadable k (d.cred.settings k))

section Wipe

variable {b : Board} {d : Dev}

lemma unauthorized_not_ok (memory : Bool) (op : Nat) (d : Dev) :
    (respondStatus memory .ctrl op .unauthorized d).rpc.enqueued ≠
      d.rpc.enqueued ++ [reprovisionedRsp] := by
  intro h
  have hself : d.rpc.enqueued ≠ d.rpc.enqueued ++ [reprovisionedRsp] := by simp
  rw [respondStatus] at h
  split at h
  · rename_i m hm
    simp only [rpcEnqueue] at h
    split at h
    · exact hself h
    · split at h
      · exact hself h
      · have hmsg := Rsp.mk.inj (List.singleton_inj.mp (List.append_cancel_left h))
        rw [hmsg.2] at hm
        by_cases hop : op ≤ 2
        · have hcases : op = 0 ∨ op = 1 ∨ op = 2 := by omega
          rcases hcases with rfl | rfl | rfl <;> exact absurd hm (by decide)
        · simp [encodeCtrlRsp, cborEncode, hop] at hm
  · exact hself h

/-- An answered reprovision has wiped what `pouch_prov_mgr_reset` wipes. -/
lemma Reprovisions.held_eq {e : Ev} {env : WipeEnv} (h : Reprovisions b d e env) :
    held (step b d e) = wiped b.build env (held d) := by
  cases h with
  | reset w => exact held_mgrReset b.build w d
  | answered streamId data isLast w req arrival decoded ok =>
    obtain ⟨a, hstep⟩ := downlinkData_arrives b arrival
    rw [hstep, handleRequest] at ok ⊢
    split at ok
    · exact absurd ok (unauthorized_not_ok w.memory _ { d with active := a })
    · rename_i hgate
      simp only [if_neg hgate, held_reply]
      exact held_reprovision w decoded

/-- Nothing is left that a reload or a reboot could bring back. -/
structure Cleared (build : Build) (h : Held) : Prop where
  wf : Wf h.cred
  creds : build.wifi → h.wc.creds = []
  len : build.cred → ∀ k, (h.cred.blob k).len = 0
  settings : build.cred → ∀ k, ¬ Loadable k (h.cred.settings k)

lemma Cleared.gone (h : Cleared b.build (held d)) : Gone b d := by
  have hget : b.build.cred → ∀ k, credPresent d.cred k = false := by
    intro hcred k
    have hlen : (d.cred.blob k).len = 0 := h.len hcred k
    simp [credPresent, hlen]
  constructor
  · cases hwifi : b.build.wifi with
    | true =>
      have hcreds : d.wifi.wc.creds = [] := h.creds hwifi
      simp [mgrIsProvisioned, hwifi, WifiConfig.wifiIsProvisioned, hcreds]
    | false =>
      cases hcred : b.build.cred with
      | true => simp [mgrIsProvisioned, hwifi, hget hcred]
      | false => simp [mgrIsProvisioned, hwifi, hcred]
  · intro hcred k
    simp [credGet, hget hcred]

lemma loaded_len {k : CredKind} {stored : Option Bytes} (unloadable : ¬ Loadable k stored)
    (read : Settings.Read) {blob : Blob} (len : blob.len = 0) :
    (loaded k stored read blob).len = 0 := by
  cases stored with
  | none => exact len
  | some value =>
    rw [loaded]
    split
    · rename_i hfit
      dsimp only
      split
      · by_contra hpos
        exact unloadable ⟨value, rfl, Nat.pos_of_ne_zero hpos, hfit⟩
      · exact len
    · exact len

lemma settingsLoad_len {s : Store} {k : CredKind} (unloadable : ¬ Loadable k (s.settings k))
    (len : (s.blob k).len = 0) (read : CredKind → Settings.Read) :
    ((settingsLoad read s).blob k).len = 0 := by
  rw [settingsLoad_eq]
  exact loaded_len unloadable _ len

lemma credStage_keeps (kind : Int) (offset total : Nat) (data : Bytes) (s : Store) :
    (credStage kind offset total data s).2.settings = s.settings ∧
      ∀ k, ((credStage kind offset total data s).2.blob k).len = (s.blob k).len := by
  have hopen : ∀ k, (opened s k offset total).len = (s.blob k).len := by
    intro k
    rw [opened]
    split <;> rfl
  have hset : ∀ j (blob : Blob), blob.len = (s.blob j).len →
      ∀ k, ((s.setBlob j blob).blob k).len = (s.blob k).len := by
    intro j blob hlen k
    by_cases hk : k = j
    · subst hk
      rw [setBlob_self, hlen]
    · rw [setBlob_other s blob hk]
  obtain ⟨_, h⟩ | ⟨j, _, ⟨_, h⟩ | ⟨_, _, h⟩ | ⟨_, h⟩⟩ :=
    credStage_cases kind offset total data s
  · rw [h]
    exact ⟨rfl, fun _ => rfl⟩
  · rw [h]
    exact ⟨rfl, fun _ => rfl⟩
  · rw [h]
    exact ⟨rfl, hset j _ (hopen j)⟩
  · rw [h]
    exact ⟨rfl, hset j _ (hopen j)⟩

/-- A finalize stores a loadable value under a key, or leaves the key and the length alone. -/
lemma credFinalize_kind (save : CredKind → Bool) {s : Store} (wf : Wf s) (k : CredKind) :
    Loadable k ((credFinalize save s).2.settings k) ∨
      (credFinalize save s).2.settings k = s.settings k ∧
        ((credFinalize save s).2.blob k).len = (s.blob k).len := by
  by_cases ready : CredRuns.Ready s
  · rw [CredRuns.credFinalize_ready ready, CredRuns.persist_store]
    obtain ⟨hset, hlen⟩ := CredRuns.foldl_saveOne s (CredRuns.saved save s kinds) k
    by_cases hmem : k ∈ CredRuns.saved save s kinds
    · rw [if_pos hmem] at hset
      have hfull := (List.mem_filter.mp (List.takeWhile_subset _ hmem)).2
      simp only [fullyStaged, decide_eq_true_eq] at hfull
      have hin := wf k
      have hfits : (s.blob k).staged ≤ cap k := Nat.le_trans hin.staged_le hin.expected_le
      have hsize : ((s.blob k).buf.take (s.blob k).staged).length = (s.blob k).staged := by
        rw [List.length_take, hin.size]
        omega
      exact Or.inl ⟨_, hset, by omega, by omega⟩
    · rw [if_neg hmem] at hset hlen
      exact Or.inr ⟨hset, hlen⟩
  · obtain ⟨e, he⟩ := CredRuns.credFinalize_refused ready save
    rw [he]
    exact Or.inr ⟨rfl, rfl⟩

lemma wiped_wf {build : Build} {h : Held} (wf : Wf h.cred) (env : WipeEnv) :
    Wf (wiped build env h).cred := by
  simp only [wiped]
  split
  · exact CredRuns.step_wf wf (.deleteAll env.cred)
  · exact wf

lemma Touches.wf {build : Build} {h h' : Held} (touches : Touches build h h') (wf : Wf h.cred) :
    Wf h'.cred := by
  cases touches with
  | keeps _ => exact wf
  | reloads read _ => exact CredRuns.step_wf wf (.reload read)
  | configures _ _ => exact wf
  | stages kind offset total data => exact CredRuns.step_wf wf (.stage kind offset total data)
  | finalizes save _ => exact CredRuns.step_wf wf (.finalize save)
  | wipes env => exact wiped_wf wf env

lemma Touches.cleared {build : Build} {h h' : Held} (touches : Touches build h h')
    (cleared : Cleared build h) (networks : ∀ c ∈ h'.wc.creds, c ∈ h.wc.creds)
    (values : ∀ k value, h'.cred.settings k = some value → h.cred.settings k = some value) :
    Cleared build h' := by
  have hwf := touches.wf cleared.wf
  have hcreds : build.wifi → h'.wc.creds = [] := by
    intro hwifi
    refine List.eq_nil_iff_forall_not_mem.mpr fun c hc => ?_
    have hold := networks c hc
    rw [cleared.creds hwifi] at hold
    exact absurd hold List.not_mem_nil
  have hold : build.cred → ∀ k, ¬ Loadable k (h'.cred.settings k) := by
    rintro hcred k ⟨value, hvalue, hsize⟩
    exact cleared.settings hcred k ⟨value, values k value hvalue, hsize⟩
  refine ⟨hwf, hcreds, fun hcred k => ?_, hold⟩
  cases touches with
  | keeps _ => exact cleared.len hcred k
  | reloads read _ => exact settingsLoad_len (cleared.settings hcred k) (cleared.len hcred k) read
  | configures _ _ => exact cleared.len hcred k
  | stages kind offset total data =>
    exact ((credStage_keeps kind offset total data h.cred).2 k).trans (cleared.len hcred k)
  | finalizes save _ =>
    rcases credFinalize_kind save cleared.wf k with hnew | ⟨-, hlen⟩
    · exact absurd hnew (hold hcred k)
    · exact hlen.trans (cleared.len hcred k)
  | wipes env => simp only [wiped, hcred, if_true, credDeleteAll]

lemma init_settings (build : Build) (connAttempts : UInt32) (settings : CredKind → Option Bytes)
    (read : CredKind → Settings.Read) (creds : List Credential) :
    (init build connAttempts settings read creds).cred.settings = settings := by
  simp only [init]
  split
  · rw [settingsLoad_eq]
    rfl
  · rfl

lemma live_wf (wf : Wf d.cred) (l : Life) : Wf (live b d l).cred := by
  cases l with
  | event e => exact (step_touches b d e).wf wf
  | reboot connAttempts read => exact (CredSessions.init_cred_wf _ _ _ _ _).1

lemma reboot_cleared (cleared : Cleared b.build (held d)) (connAttempts : UInt32)
    (read : CredKind → Settings.Read) :
    Cleared b.build (held (live b d (.reboot connAttempts read))) := by
  refine ⟨live_wf cleared.wf _, cleared.creds, fun hcred k => ?_, fun hcred k => ?_⟩
  · simp only [live, held, init]
    split
    · exact settingsLoad_len (s := boot d.cred.settings) (cleared.settings hcred k) rfl read
    · rfl
  · simp only [live, held, init_settings]
    exact cleared.settings hcred k

lemma live_cleared (cleared : Cleared b.build (held d)) {l : Life} (nothing : NothingNew b d l) :
    Cleared b.build (held (live b d l)) := by
  cases l with
  | event e => exact (step_touches b d e).cleared cleared nothing.1 nothing.2
  | reboot connAttempts read => exact reboot_cleared cleared connAttempts read

lemma wiped_cleared {env : WipeEnv} (wf : Wf d.cred) (deletes : Deletes b.build env d) :
    Cleared b.build (wiped b.build env (held d)) := by
  refine ⟨wiped_wf wf env, fun hwifi => ?_, fun hcred k => ?_, fun hcred k => ?_⟩
  · simp only [wiped, hwifi, if_true, wifiReprovision, WifiConfig.wifiConfigReset]
    rcases deletes.1 hwifi with h | h
    · simp [WifiConfig.clearInflight, h]
    · simp [WifiConfig.clearInflight, held, h]
  · simp only [wiped, hcred, if_true, credDeleteAll]
  · simp only [wiped, hcred, if_true, credDeleteAll]
    rcases deletes.2 hcred k with h | h
    · rw [if_pos h]
      rintro ⟨value, hvalue, -⟩
      cases hvalue
    · split
      · rintro ⟨value, hvalue, -⟩
        cases hvalue
      · exact h

lemma reboot_nothingNew (connAttempts : UInt32) (read : CredKind → Settings.Read) :
    NothingNew b d (.reboot connAttempts read) := by
  refine ⟨fun c hc => hc, fun k value hvalue => ?_⟩
  rwa [live, init_settings] at hvalue

lemma mgrStart_wifi (build : Build) (w : World) (d : Dev) :
    (mgrStart build w d).2.wifi = d.wifi := by
  rw [mgrStart]
  split
  · rfl
  · split
    · rfl
    · dsimp only
      split <;> rfl

lemma start_nothingNew (w : World) : NothingNew b d (.event (.mgrStart w)) := by
  constructor
  · intro c hc
    rwa [live, step, mgrStart_wifi] at hc
  · intro k value hvalue
    simp only [live, step, mgrStart_cred] at hvalue
    split at hvalue
    · rwa [settingsLoad_eq] at hvalue
    · exact hvalue

/-- The statics are lost, and the next start reads everything that is stored. -/
def restarts : List Life := [.reboot 0 fun _ => .whole, .event (.mgrStart {})]

lemma restarts_nothingNew (b : Board) (d : Dev) : Each (live b) (NothingNew b) d restarts :=
  ⟨reboot_nothingNew 0 _, start_nothingNew {}, trivial⟩

/-- What a restart finds in the settings store it hands to the application. -/
lemma restarts_loads (hcred : b.build.cred) {k : CredKind}
    (stored : Loadable k (d.cred.settings k)) :
    credGet (restarts.foldl (live b) d).cred k ≠ none := by
  obtain ⟨value, hvalue, hpos, hfits⟩ := stored
  have hcreds : (restarts.foldl (live b) d).cred = settingsLoad (fun _ => .whole)
      (init b.build 0 d.cred.settings (fun _ => .whole) d.wifi.wc.creds).cred := by
    simp only [restarts, List.foldl_cons, List.foldl_nil, live, step, mgrStart_cred, hcred]
    rfl
  have hlen : ((restarts.foldl (live b) d).cred.blob k).len = value.length := by
    simp only [hcreds, settingsLoad_eq, init_settings, hvalue, loaded]
    simp [hfits]
  simp [credGet, credPresent, hlen, hpos]

/-- If a device stays without credentials after a reprovision, its deletions succeeded. -/
lemma deletes_of_gone {e : Ev} {env : WipeEnv} (reprovisioned : Reprovisions b d e env)
    (gone : ∀ later, Each (live b) (NothingNew b) (step b d e) later →
      Always (live b) (Gone b) (step b d e) later) : Deletes b.build env d := by
  have hheld := reprovisioned.held_eq
  constructor
  · intro hwifi
    have hbare : mgrIsProvisioned b.build (step b d e) = false := (gone [] trivial).1
    rw [← isProvisioned_held, hheld] at hbare
    cases henv : env.wifi with
    | true => exact Or.inl rfl
    | false =>
      right
      simpa [isProvisioned, hwifi, wiped, wifiReprovision, henv, WifiConfig.wifiConfigReset,
        WifiConfig.clearInflight, WifiConfig.wifiIsProvisioned, held] using hbare
  · intro hcred k
    by_contra hkept
    obtain ⟨hfails, hload⟩ := not_or.mp hkept
    have hstored : (step b d e).cred.settings k = d.cred.settings k := by
      have h := congrArg Held.cred hheld
      simp only [held, wiped, hcred, if_true] at h
      rw [h]
      simp [credDeleteAll, hfails]
    have hfinal := (gone restarts (restarts_nothingNew b _)).final.2 hcred k
    exact restarts_loads hcred (hstored ▸ not_not.mp hload) hfinal

end Wipe

/-- The states of a device over any number of boots. -/
def Reachable (b : Board) (d : Dev) : Prop :=
  ∃ connAttempts settings read creds, ∃ past : List Life,
    past.foldl (live b) (init b.build connAttempts settings read creds) = d

lemma Reachable.wf {b : Board} {d : Dev} (reachable : Reachable b d) : Wf d.cred := by
  obtain ⟨connAttempts, settings, read, creds, past, rfl⟩ := reachable
  exact foldl_invariant (I := fun d : Dev => Wf d.cred) (fun _ l wf => live_wf wf l)
    (CredSessions.init_cred_wf _ _ _ _ _).1 past

/-- After a reprovision that is answered with ok, or a reset, and as long as nothing new is
stored, the device stays unprovisioned and without credentials through every reload and reboot
exactly when each deletion succeeded whose data a reload would bring back. -/
theorem reprovision_wipes_iff (b : Board) {d : Dev} (reachable : Reachable b d) {e : Ev}
    {env : WipeEnv} (reprovisioned : Reprovisions b d e env) :
    (∀ later, Each (live b) (NothingNew b) (step b d e) later →
      Always (live b) (Gone b) (step b d e) later) ↔ Deletes b.build env d := by
  constructor
  · exact deletes_of_gone reprovisioned
  · intro deletes later nothing
    have hstart : Cleared b.build (held (step b d e)) := by
      rw [reprovisioned.held_eq]
      exact wiped_cleared reachable.wf deletes
    have hcleared := always_of_each (I := fun d => Cleared b.build (held d))
      (fun _ _ cleared nothing => live_cleared cleared nothing) hstart nothing
    exact hcleared.mono fun _ cleared => cleared.gone

/-- A device that holds a certificate and a network. -/
def storedDevice : Dev :=
  init Replies.openBoard.build 1
    (fun k => if k = .deviceCert then some [0x30, 0x02, 0xaa, 0xbb] else none) (fun _ => .whole)
    [⟨[0x61], .none, none, [], 0⟩]

theorem reprovision_wipes_iff_reset :
    Reprovisions Replies.openBoard storedDevice (.mgrReset {}) {} ∧
    ((∀ later, Each (live Replies.openBoard) (NothingNew Replies.openBoard)
        (step Replies.openBoard storedDevice (.mgrReset {})) later →
      Always (live Replies.openBoard) (Gone Replies.openBoard)
        (step Replies.openBoard storedDevice (.mgrReset {})) later) ↔
      Deletes Replies.openBoard.build {} storedDevice) :=
  ⟨.reset {}, reprovision_wipes_iff Replies.openBoard ⟨_, _, _, _, [], rfl⟩ (.reset {})⟩

/-- The reprovision request arrives; the settings store refuses every deletion. -/
def refusedWipe : WipeEnv := ⟨true, fun _ => false⟩

def askedDevice : Dev :=
  step Replies.openBoard storedDevice (.downlinkStart 0 (path .ctrl) contentTypeCbor)

def refusedReprovision : Ev := .downlinkData 0 ctrlReprovisionReq true { wipe := refusedWipe }

/-- The request is answered with ok, and after a reboot and a start the certificate is back. -/
theorem refused_deletion_comes_back :
    Reprovisions Replies.openBoard askedDevice refusedReprovision refusedWipe ∧
    ¬ ∀ later, Each (live Replies.openBoard) (NothingNew Replies.openBoard)
        (step Replies.openBoard askedDevice refusedReprovision) later →
      Always (live Replies.openBoard) (Gone Replies.openBoard)
        (step Replies.openBoard askedDevice refusedReprovision) later := by
  constructor
  · exact .answered 0 ctrlReprovisionReq true _ ctrlReprovisionReq (by decide +kernel)
      (by decide +kernel) (by decide +kernel)
  · intro h
    have hgone := (h restarts (restarts_nothingNew _ _)).final.2 rfl .deviceCert
    revert hgone
    decide +kernel

end Provisioned
