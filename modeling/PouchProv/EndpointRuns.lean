import PouchProv.Provisioned
import PouchProv.ScanRuns
import PouchProv.WifiRequests

/-!
# Runs of the device and of its endpoints

The config endpoint, the scan endpoint and the credential store have machines of
their own, which leave out the rest of the device. Every event of the device is a
step of such a machine, or no step, so that what holds in every run of a machine
holds of its part of the device in every run of the device.
-/

namespace EndpointRuns

open Bytes Codec Handlers Auth Device AuthGate Status Runs
open WifiRequests (drive)

@[simp] lemma emit_endpoints (build : Build) (e : Event) (d : Dev) :
    (emit build e d).wifi = d.wifi ∧ (emit build e d).scan = d.scan := by
  obtain ⟨armed, h⟩ := emit_frame build e d
  rw [h]
  exact ⟨rfl, rfl⟩

@[simp] lemma emitAll_endpoints (build : Build) (outs : List WifiConfig.Out) (d : Dev) :
    (emitAll build outs d).wifi = d.wifi ∧ (emitAll build outs d).scan = d.scan := by
  obtain ⟨armed, h⟩ := emitAll_frame build outs d
  rw [h]
  exact ⟨rfl, rfl⟩

@[simp] lemma reply_endpoints (memory : Bool) (ep : Endpoint) (req : Bytes)
    (rsp : Except Errno Bytes) (d : Dev) :
    (reply memory ep req rsp d).wifi = d.wifi ∧ (reply memory ep req rsp d).scan = d.scan := by
  obtain ⟨q, h⟩ := reply_frame memory ep req rsp d
  rw [h]
  exact ⟨rfl, rfl⟩

@[simp] lemma respondStatus_endpoints (memory : Bool) (ep : Endpoint) (op : Nat)
    (status : ProvStatus) (d : Dev) :
    (respondStatus memory ep op status d).wifi = d.wifi ∧
      (respondStatus memory ep op status d).scan = d.scan := by
  obtain ⟨q, h⟩ := respondStatus_frame memory ep op status d
  rw [h]
  exact ⟨rfl, rfl⟩

@[simp] lemma mgrStop_endpoints (build : Build) (d : Dev) :
    (mgrStop build d).2.wifi = d.wifi ∧ (mgrStop build d).2.scan = d.scan := by
  rw [mgrStop]
  split <;> exact ⟨rfl, rfl⟩

@[simp] lemma mgrStart_endpoints (build : Build) (w : World) (d : Dev) :
    (mgrStart build w d).2.wifi = d.wifi ∧ (mgrStart build w d).2.scan = d.scan := by
  rw [mgrStart]
  split
  · exact ⟨rfl, rfl⟩
  · split
    · exact ⟨rfl, rfl⟩
    · simp only
      split <;> exact ⟨rfl, rfl⟩

/-- The state is reached by a run of the machine of the endpoint. -/
def WifiRun (z : Zcbor) (w w' : Wifi) : Prop :=
  ∃ es : List WifiRequests.Ev, w' = es.foldl (WifiRequests.next z) w

lemma WifiRun.refl (z : Zcbor) (w : Wifi) : WifiRun z w w := ⟨[], rfl⟩

lemma WifiRun.one (z : Zcbor) (w : Wifi) (e : WifiRequests.Ev) :
    WifiRun z w (WifiRequests.next z w e) := ⟨[e], rfl⟩

/-- An address that the interface reports has four bytes. -/
def Addressed : Ev → Prop
  | .downlinkData _ _ _ w => ∀ addr ∈ w.status.addr, addr.length = 4
  | _ => True

lemma handleConfig_run {z : Zcbor} {status : StatusEnv}
    (addressed : ∀ addr ∈ status.addr, addr.length = 4) (env : WifiConfig.Env) (w : Wifi)
    (req : Bytes) : WifiRun z w (handleConfig z status env w req).2.1 := by
  obtain ⟨iface, answer, addr⟩ := status
  let q : WifiRequests.Query := ⟨iface, answer, addr.attach.map fun a => ⟨a.1, addressed a.1 a.2⟩⟩
  have hq : q.env = ⟨iface, answer, addr⟩ := by
    cases addr <;> rfl
  have h := WifiRun.one z w (.request req q env)
  rwa [WifiRequests.next, WifiRequests.step, hq] at h

lemma handleCtrl_run (z z' : Zcbor) (build : Build) (env : WipeEnv) (w : Wifi)
    (s : CredStore.Store) (req : Bytes) : WifiRun z w (handleCtrl z' build env w s req).2.1 := by
  simp only [handleCtrl]
  split
  · exact .refl z w
  · split
    · exact .one z w .reset
    · exact .refl z w
  · split
    · exact .one z w (.reprovision env.wifi)
    · exact .refl z w
  · exact .refl z w

lemma runHandler_run {b : Board} {w : World} (addressed : ∀ addr ∈ w.status.addr, addr.length = 4)
    (ep : Endpoint) (req : Bytes) (d : Dev) :
    WifiRun b.zcbor d.wifi (runHandler b w ep req d).2.wifi := by
  cases ep with
  | ver => exact .refl _ _
  | auth => exact .refl _ _
  | scan => exact .refl _ _
  | config =>
    simp only [runHandler, emitAll_endpoints]
    exact handleConfig_run addressed w.wifi d.wifi req
  | ctrl =>
    have hrun := handleCtrl_run b.zcbor b.zcbor b.build w.wipe d.wifi d.cred req
    simp only [runHandler]
    split
    · rw [(mgrStop_endpoints _ _).1]
      exact hrun
    · exact hrun
  | cred =>
    simp only [runHandler]
    split
    · rw [(emit_endpoints _ _ _).1]
      exact .refl _ _
    · exact .refl _ _

/-- What an event of the device does to the config endpoint is a run of its machine. -/
theorem step_wifi (b : Board) (d : Dev) {e : Ev} (addressed : Addressed e) :
    WifiRun b.zcbor d.wifi (step b d e).wifi := by
  have hsame : WifiRun b.zcbor d.wifi d.wifi := .refl _ _
  cases e with
  | downlinkStart streamId p contentType =>
    simp only [step, downlinkStart]
    split
    · exact hsame
    · split <;> exact hsame
  | downlinkData streamId data isLast w =>
    cases harrives : arrives d (.downlinkData streamId data isLast w) with
    | none =>
      rcases downlinkData_idle b harrives with ⟨a, h⟩ | ⟨ep, a, h⟩
      · rw [h]
        exact hsame
      · rw [h, (respondStatus_endpoints _ _ _ _ _).1]
        exact hsame
    | some r =>
      obtain ⟨a, hstep⟩ := downlinkData_arrives b harrives
      rw [hstep, handleRequest]
      split
      · rw [(respondStatus_endpoints _ _ _ _ _).1]
        exact hsame
      · rw [(reply_endpoints _ _ _ _ _).1]
        exact runHandler_run addressed _ _ _
  | uplinkFlush => exact hsame
  | sessionEnded => exact hsame
  | mgrStart w =>
    rw [step, (mgrStart_endpoints _ _ _).1]
    exact hsame
  | mgrStop =>
    rw [step, (mgrStop_endpoints _ _).1]
    exact hsame
  | mgrReset w =>
    simp only [step, mgrReset, endSession, dispatchReset]
    split
    · exact .one _ _ (.reprovision w.wipe.wifi)
    · exact hsame
  | autostop =>
    simp only [step]
    split
    · rw [(mgrStop_endpoints _ _).1]
      exact hsame
    · exact hsame
  | connectResult env status =>
    simp only [step]
    split
    · rw [(emitAll_endpoints _ _ _).1]
      exact .one _ _ (.result env status)
    · exact hsame
  | retryWork env =>
    simp only [step]
    split
    · rename_i hdue
      rw [(emitAll_endpoints _ _ _).1]
      have h := WifiRun.one b.zcbor d.wifi (.retry env)
      simpa [WifiRequests.next, WifiRequests.step, drive, WifiConfig.step, hdue.2] using h
    · exact hsame
  | scanResult | scanDone =>
    simp only [step]
    split <;> exact hsame

/-- The config endpoint of a device has been through a run of its machine. -/
theorem run_wifi (b : Board) {d : Dev} {es : List Ev}
    (addressed : Each (step b) (fun _ => Addressed) d es) :
    WifiRun b.zcbor d.wifi (es.foldl (step b) d).wifi :=
  foldl_simulated (p := Dev.wifi) (fun d _ h => step_wifi b d h) addressed

/-- What an event of the device does to the credential store is a run of the store. -/
theorem step_cred (b : Board) (d : Dev) (e : Ev) :
    ∃ ops : List CredRuns.Op, (step b d e).cred = ops.foldl CredRuns.step d.cred := by
  have htouches := Provisioned.step_touches b d e
  rw [show (step b d e).cred = (Provisioned.held (step b d e)).cred from rfl]
  generalize Provisioned.held (step b d e) = h at htouches
  cases htouches with
  | keeps _ => exact ⟨[], rfl⟩
  | reloads read _ => exact ⟨[.reload read], rfl⟩
  | configures ev _ => exact ⟨[], rfl⟩
  | stages kind offset total data => exact ⟨[.stage kind offset total data], rfl⟩
  | finalizes save _ => exact ⟨[.finalize save], rfl⟩
  | wipes env =>
    simp only [Provisioned.wiped]
    split
    · exact ⟨[.deleteAll env.cred], rfl⟩
    · exact ⟨[], rfl⟩

/-- The credential store of a device has been through a run of the store. -/
theorem run_cred (b : Board) (d : Dev) (es : List Ev) :
    ∃ ops : List CredRuns.Op, (es.foldl (step b) d).cred = ops.foldl CredRuns.step d.cred :=
  foldl_simulated (p := Dev.cred) (fun d e _ => step_cred b d e)
    (each_of_forall (C := fun _ _ => True) (fun _ _ => trivial) d es)

/-- A device with the scans that its driver has taken. -/
structure Watched where
  dev : Dev
  scans : List ScanRuns.Accepted

def Watched.scanning (s : Watched) : ScanRuns.Scanning := ⟨s.dev.scan, s.scans⟩

/-- The scan that the driver is working on. -/
def Watched.ongoing (s : Watched) : Option Nat := s.scans.findIdx? fun a => !a.ended

/-- What the event is for the scan endpoint. -/
def Watched.scanEvent (b : Board) (s : Watched) : Ev → Option ScanRuns.Ev
  | .downlinkData streamId data isLast w =>
    match arrives s.dev (.downlinkData streamId data isLast w) with
    | some (.scan, req) =>
      if sessionAuthorized b.pop s.dev.session then some (.request req w.scan) else none
    | _ => none
  | .scanResult r => if b.build.wifi then s.ongoing.map (.result · r) else none
  | .scanDone => if b.build.wifi then s.ongoing.map .done else none
  | _ => none

def Watched.next (b : Board) (s : Watched) (e : Ev) : Watched where
  dev := step b s.dev e
  scans := match s.scanEvent b e with
    | some f => (ScanRuns.step b.zcbor b.build s.scanning f).scans
    | none => s.scans

/-- The driver reports only on a scan that it has taken. -/
def Driven (b : Board) (s : Watched) : Ev → Prop
  | .scanResult _ => b.build.wifi → s.ongoing.isSome
  | .scanDone => b.build.wifi → s.ongoing.isSome
  | _ => True

lemma runHandler_scan (b : Board) (w : World) (ep : Endpoint) (req : Bytes) (d : Dev) :
    (runHandler b w ep req d).2.scan =
      if ep = .scan then (handleScan b.zcbor w.scan d.scan req).2 else d.scan := by
  cases ep with
  | ctrl =>
    simp only [runHandler]
    split <;> simp
  | config => simp [runHandler]
  | cred =>
    simp only [runHandler]
    split <;> simp
  | _ => rfl

lemma handleRequest_scan (b : Board) (w : World) (ep : Endpoint) (req : Bytes) (d : Dev) :
    (handleRequest b w ep req d).scan =
      if ep = .scan ∧ sessionAuthorized b.pop d.session then
        (handleScan b.zcbor w.scan d.scan req).2 else d.scan := by
  rw [handleRequest]
  split
  · rename_i hrefused
    rw [if_neg fun h => hrefused.2 h.2]
    simp
  · rename_i hadmitted
    simp only [reply_endpoints, runHandler_scan]
    by_cases hep : ep = .scan
    · have hgate : sessionAuthorized b.pop d.session = true := by
        by_contra hno
        exact hadmitted ⟨by rw [hep]; rfl, hno⟩
      simp [hep, hgate]
    · simp [hep]

/-- An entry that is not complete, or too long, leaves the scan endpoint alone. -/
lemma downlinkData_scan (b : Board) {d : Dev} {streamId : Nat} {data : Bytes} {isLast : Bool}
    {w : World} (incomplete : arrives d (.downlinkData streamId data isLast w) = none) :
    (step b d (.downlinkData streamId data isLast w)).scan = d.scan := by
  rcases downlinkData_idle b incomplete with ⟨a, h⟩ | ⟨ep, a, h⟩
  · rw [h]
  · rw [h, (respondStatus_endpoints _ _ _ _ _).2]

lemma ongoing_some {s : Watched} {i : Nat} (h : s.ongoing = some i) :
    ∃ rs, s.scans[i]? = some ⟨rs, false⟩ := by
  obtain ⟨hlt, hended, -⟩ := List.findIdx?_eq_some_iff_getElem.mp h
  refine ⟨s.scans[i].results, ?_⟩
  rw [List.getElem?_eq_getElem hlt]
  cases hscan : s.scans[i] with
  | mk results ended =>
    rw [hscan] at hended
    simp at hended
    simp [hended]

/-- What an event does to the scan endpoint is a step of its machine, or nothing. -/
lemma step_scan (b : Board) {s : Watched} {e : Ev} (driven : Driven b s e) :
    (step b s.dev e).scan = match s.scanEvent b e with
      | some f => (ScanRuns.step b.zcbor b.build s.scanning f).sc
      | none => s.dev.scan := by
  cases e with
  | downlinkStart streamId p contentType =>
    simp only [step, downlinkStart, Watched.scanEvent]
    split
    · rfl
    · split <;> rfl
  | downlinkData streamId data isLast w =>
    cases harrives : arrives s.dev (.downlinkData streamId data isLast w) with
    | none =>
      rw [downlinkData_scan b harrives]
      simp only [Watched.scanEvent, harrives]
    | some r =>
      obtain ⟨ep, req⟩ := r
      obtain ⟨a, hstep⟩ := downlinkData_arrives b harrives
      rw [hstep, handleRequest_scan]
      by_cases hep : ep = .scan
      · subst hep
        simp only [Watched.scanEvent, harrives, true_and]
        split <;> rfl
      · have hnone : s.scanEvent b (.downlinkData streamId data isLast w) = none := by
          simp only [Watched.scanEvent, harrives]
          split
          · rename_i heq
            simp only [Option.some.injEq, Prod.mk.injEq] at heq
            exact absurd heq.1 hep
          · rfl
        simp [hnone, hep]
  | scanResult | scanDone =>
    cases hwifi : b.build.wifi with
    | false => simp [step, Watched.scanEvent, hwifi]
    | true =>
      obtain ⟨i, hi⟩ := Option.isSome_iff_exists.mp (driven hwifi)
      obtain ⟨rs, hscan⟩ := ongoing_some hi
      simp [step, Watched.scanEvent, hwifi, hi, ScanRuns.step, Watched.scanning, hscan]
  | mgrStart w => simp [step, Watched.scanEvent]
  | mgrStop => simp [step, Watched.scanEvent]
  | autostop | connectResult | retryWork =>
    simp only [step, Watched.scanEvent]
    split <;> simp
  | _ => rfl

lemma next_scanning (b : Board) {s : Watched} {e : Ev} (driven : Driven b s e) :
    (s.next b e).scanning = (s.scanEvent b e).toList.foldl (ScanRuns.step b.zcbor b.build)
      s.scanning := by
  have hscan := step_scan b driven
  cases hevent : s.scanEvent b e with
  | none | some =>
    rw [hevent] at hscan
    simp [Watched.scanning, Watched.next, hevent, hscan]

/-- Where the driver reports only on scans that it has taken, the scan endpoint of a device has
been through a run of its machine. -/
theorem run_scan (b : Board) {s : Watched} {es : List Ev}
    (driven : Each (Watched.next b) (Driven b) s es) :
    ∃ fs : List ScanRuns.Ev, (es.foldl (Watched.next b) s).scanning =
      fs.foldl (ScanRuns.step b.zcbor b.build) s.scanning :=
  foldl_simulated (p := Watched.scanning) (fun _ _ h => ⟨_, next_scanning b h⟩) driven

end EndpointRuns
