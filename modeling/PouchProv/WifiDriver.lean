import PouchProv.WifiRuns
import Mathlib.Data.List.Perm.Basic

/-!
# The Wi-Fi state machine and its driver

Connect results are asynchronous and carry no identity that the device code
reads. Here the outside keeps it: first the network each result is for, then the
connect request each result answers. Over these runs the two promises about
overlapping attempts are settled: what is left in the credential store when no
attempt is in flight, and what a late result may touch.
-/

namespace WifiDriver

open WifiConfig WifiRuns ProvTypes Status Runs

/-- What the outside has seen of a network: an apply answered with success, and a
successful connect result. -/
inductive Mark where
  | applied (ssid : Bytes)
  | success (ssid : Bytes)
  deriving DecidableEq, Repr

/-- The answers of interface and driver to one step. -/
structure Link where
  iface : Bool := true
  connectIface : Bool := true
  connect : Bool := true

/-- Every call of the credential store succeeds. -/
def Link.env (l : Link) : Env :=
  { iface := l.iface, connectIface := l.connectIface, connect := l.connect }

inductive NetEv where
  | set (cfg : WifiCfg)
  | apply (l : Link)
  | result (ssid : Bytes) (status : WifiStatus)
  | retry (l : Link)

def NetEv.ev : NetEv → Ev
  | .set cfg => .set cfg
  | .apply l => .apply l.env
  | .result _ status => .result {} status
  | .retry l => .retry l.env

/-- The device with the history of its networks, newest first. -/
structure Net where
  wc : State
  history : List Mark

def marks (wc : State) : NetEv → List Mark
  | .apply l => if (doApply l.env wc).1 = .ok then [.applied wc.staged.ssid] else []
  | .result ssid status => if status.status = 0 then [.success ssid] else []
  | _ => []

def netStep (s : Net) (e : NetEv) : Net := ⟨next s.wc e.ev, marks s.wc e ++ s.history⟩

/-- The most recent apply of the network was followed by a successful result for it. -/
def Worked (history : List Mark) (ssid : Bytes) : Prop :=
  .applied ssid ∈ history ∧ .success ssid ∈ since (· = .applied ssid) history

/-- No network stays stored, once no attempt is in flight, that did not work; so a device
that calls itself provisioned has a network that did. -/
def OnlyWorking (s : Net) : Prop :=
  s.wc.inflight.ssid.length = 0 →
    (∀ c ∈ s.wc.creds, Worked s.history c.ssid) ∧
    (wifiIsProvisioned s.wc → ∃ c ∈ s.wc.creds, Worked s.history c.ssid)

/-- An apply that finds the interface and a staged network does not overtake the attempt of
another network, and a successful result that comes during an attempt is one for the network
in flight. -/
def OneAtATime (s : Net) : NetEv → Prop
  | .apply l =>
    l.iface → s.wc.staged.ssid.length > 0 → InFlight s.wc →
      s.wc.staged.ssid = s.wc.inflight.ssid
  | .result ssid status => status.status = 0 → InFlight s.wc → ssid = s.wc.inflight.ssid
  | _ => True

lemma worked_cons_success {history : List Mark} {ssid : Bytes} (h : Worked history ssid)
    (other : Bytes) : Worked (.success other :: history) ssid := by
  refine ⟨List.mem_cons_of_mem _ h.1, ?_⟩
  rw [since_cons (by simp)]
  exact List.mem_cons_of_mem _ h.2

lemma worked_success {history : List Mark} {ssid : Bytes} (h : .applied ssid ∈ history) :
    Worked (.success ssid :: history) ssid := by
  refine ⟨List.mem_cons_of_mem _ h, ?_⟩
  rw [since_cons (by simp)]
  exact List.mem_cons_self

lemma worked_cons_applied {history : List Mark} {ssid other : Bytes} (h : Worked history ssid)
    (ne : other ≠ ssid) : Worked (.applied other :: history) ssid := by
  refine ⟨List.mem_cons_of_mem _ h.1, ?_⟩
  rw [since_cons (by simpa using ne)]
  exact List.mem_cons_of_mem _ h.2

/-- Every stored network worked, the one in flight excepted. -/
structure Cleared (s : Net) : Prop where
  others : ∀ c ∈ s.wc.creds,
    Worked s.history c.ssid ∨ InFlight s.wc ∧ c.ssid = s.wc.inflight.ssid
  applied : InFlight s.wc → .applied s.wc.inflight.ssid ∈ s.history

lemma Cleared.onlyWorking {s : Net} (h : Cleared s) : OnlyWorking s := by
  intro hidle
  have hall : ∀ c ∈ s.wc.creds, Worked s.history c.ssid := by
    intro c hc
    rcases h.others c hc with hw | ⟨hfly, -⟩
    · exact hw
    · exact absurd hfly (by simp [InFlight, hidle])
  refine ⟨hall, fun hprov => ?_⟩
  have hne : s.wc.creds ≠ [] := by simpa [wifiIsProvisioned] using hprov
  obtain ⟨c, hc⟩ := List.exists_mem_of_ne_nil s.wc.creds hne
  exact ⟨c, hc, hall c hc⟩

/-- A failed attempt deletes its network; what was clear beside it stays so. -/
lemma Failed.cleared {env : Env} {wc : State} {r : State × List Out} {history : List Mark}
    (h : Failed env wc r) (deletes : env.failDelete)
    (others : ∀ c ∈ wc.creds, c.ssid ≠ wc.inflight.ssid → Worked history c.ssid) :
    Cleared ⟨r.1, history⟩ := by
  have hidle := (not_inFlight_iff r.1).mpr h.ssid
  refine ⟨fun c hc => Or.inl ?_, fun hfly => absurd hfly hidle⟩
  rw [h.creds, deleteBySsid, if_pos deletes, List.mem_filter] at hc
  exact others c hc.1 (by simpa using hc.2)

lemma Cleared.other {s : Net} (h : Cleared s) {c : Credential} (hc : c ∈ s.wc.creds)
    (ne : InFlight s.wc → c.ssid ≠ s.wc.inflight.ssid) : Worked s.history c.ssid := by
  rcases h.others c hc with hw | ⟨hfly, heq⟩
  · exact hw
  · exact absurd heq (ne hfly)

/-- The entries of the store while an apply is under way: the new one, and old ones of
other networks. -/
lemma mem_applying_creds {env : Env} {wc : State} {c : Credential}
    (hc : c ∈ (applying env wc).creds) :
    c.ssid = wc.staged.ssid ∨ c ∈ wc.creds ∧ c.ssid ≠ wc.staged.ssid := by
  simp only [applying, beginAttempt, setPersonal, List.mem_cons, List.mem_filter] at hc
  rcases hc with rfl | ⟨hin, hne⟩
  · exact Or.inl rfl
  · refine Or.inr ⟨?_, by simpa [credentialOf] using hne⟩
    rw [deleteBySsid] at hin
    split at hin
    · exact (List.mem_filter.mp hin).1
    · exact hin

lemma apply_cleared {s : Net} (h : Cleared s) (l : Link) (one : OneAtATime s (.apply l)) :
    Cleared (netStep s (.apply l)) := by
  rcases doApply_cases l.env s.wc with ⟨hno, -, creds, heq, hsame⟩ |
    ⟨hok, hssid, hiface, -, heq⟩ | ⟨hok, hssid, hiface, -, hfail⟩
  · obtain rfl := hsame rfl
    simp only [netStep, NetEv.ev, next, step, heq, marks, if_neg hno, List.nil_append]
    exact h
  · have hclear : ∀ c ∈ s.wc.creds, c.ssid ≠ s.wc.staged.ssid → Worked s.history c.ssid :=
      fun c hc hne => h.other hc fun hfly => one hiface hssid hfly ▸ hne
    simp only [netStep, NetEv.ev, next, step, heq, marks, if_pos hok, List.singleton_append]
    refine ⟨fun c hc => ?_, fun _ => List.mem_cons_self⟩
    rcases mem_applying_creds hc with hnew | ⟨hold, hne⟩
    · exact Or.inr ⟨applying_inFlight hssid, hnew⟩
    · exact Or.inl (worked_cons_applied (hclear c hold hne) hne.symm)
  · have hclear : ∀ c ∈ s.wc.creds, c.ssid ≠ s.wc.staged.ssid → Worked s.history c.ssid :=
      fun c hc hne => h.other hc fun hfly => one hiface hssid hfly ▸ hne
    simp only [netStep, NetEv.ev, marks, if_pos hok, List.singleton_append]
    refine Failed.cleared hfail rfl fun c hc hne => ?_
    rcases mem_applying_creds hc with hnew | ⟨hold, hne'⟩
    · exact absurd hnew hne
    · exact worked_cons_applied (hclear c hold hne') hne'.symm

lemma result_cleared {s : Net} (h : Cleared s) (ssid : Bytes) (status : WifiStatus)
    (one : OneAtATime s (.result ssid status)) : Cleared (netStep s (.result ssid status)) := by
  have hothers : ∀ c ∈ s.wc.creds, c.ssid ≠ s.wc.inflight.ssid → Worked s.history c.ssid :=
    fun c hc hne => h.other hc fun _ => hne
  by_cases hzero : status.status = 0
  · simp only [netStep, NetEv.ev, next, step, marks, if_pos hzero, List.singleton_append]
    rcases onConnectResult_cases {} status s.wc with ⟨hidle, heq⟩ | ⟨hfly, -, heq⟩ |
      ⟨-, hne, -⟩ | ⟨-, hne, -⟩
    · rw [heq]
      refine ⟨fun c hc => Or.inl ?_, fun hfly => absurd hfly hidle⟩
      exact worked_cons_success (h.other hc fun hfly => absurd hfly hidle) ssid
    · rw [heq]
      obtain rfl := one hzero hfly
      refine ⟨fun c hc => Or.inl ?_, fun hfly => absurd hfly (by simp [InFlight])⟩
      by_cases hc' : c.ssid = s.wc.inflight.ssid
      · rw [hc']
        exact worked_success (h.applied hfly)
      · exact worked_cons_success (hothers c hc hc') _
    · exact absurd hzero hne
    · exact absurd hzero hne
  · simp only [netStep, NetEv.ev, next, step, marks, if_neg hzero, List.nil_append]
    rcases onConnectResult_cases {} status s.wc with ⟨-, heq⟩ | ⟨-, hz, -⟩ |
      ⟨-, -, -, -, heq⟩ | ⟨-, -, -, hfail, -⟩
    · rw [heq]
      exact h
    · exact absurd hz hzero
    · rw [heq]
      exact ⟨h.others, h.applied⟩
    · exact Failed.cleared hfail rfl hothers

lemma retry_cleared {s : Net} (h : Cleared s) (l : Link) : Cleared (netStep s (.retry l)) := by
  simp only [netStep, NetEv.ev, next, marks, List.nil_append]
  rcases step_retry s.wc l.env with ⟨-, heq⟩ | ⟨-, heq⟩
  · rw [heq]
    exact h
  · rw [heq]
    rcases retryWorkHandler_cases l.env s.wc with ⟨-, hcase⟩ | ⟨-, hcase⟩ | ⟨-, hfail⟩
    · rw [hcase]
      exact ⟨h.others, h.applied⟩
    · rw [hcase]
      exact ⟨h.others, h.applied⟩
    · exact Failed.cleared hfail rfl fun c hc hne => h.other hc fun _ => hne

theorem netStep_cleared {s : Net} (h : Cleared s) (e : NetEv) (one : OneAtATime s e) :
    Cleared (netStep s e) := by
  cases e with
  | set cfg =>
    obtain ⟨staged, heq⟩ := doSet_frame cfg s.wc
    simp only [netStep, NetEv.ev, next, step, heq, marks, List.nil_append]
    exact ⟨h.others, h.applied⟩
  | apply l => exact apply_cleared h l one
  | result ssid status => exact result_cleared h ssid status one
  | retry l => exact retry_cleared h l

/-- The device after initialisation over an empty credential store. -/
def freshNet (attemptsMax : UInt32) : Net := ⟨start attemptsMax [], []⟩

/-- In every run in which no apply overtakes the attempt of another network, and no success
of another network ends an attempt, only networks that worked stay stored. -/
theorem only_working_networks (attemptsMax : UInt32) (es : List NetEv)
    (one : Each netStep OneAtATime (freshNet attemptsMax) es) :
    Always netStep OnlyWorking (freshNet attemptsMax) es := by
  have hstart : Cleared (freshNet attemptsMax) :=
    ⟨fun c hc => absurd hc List.not_mem_nil,
      fun hfly => absurd hfly ((not_inFlight_iff _).mpr rfl)⟩
  exact (always_of_each (I := Cleared) (fun s e h hone => netStep_cleared h e hone) hstart
    one).mono fun _ h => h.onlyWorking

/-- A set request for a network without a passphrase. -/
def openNetwork (ssid : Bytes) : NetEv := .set ⟨ssid, none, none, none⟩

def connectingRun : List NetEv := [openNetwork [1], .apply {}, .result [1] ⟨0, .success⟩]

/-- One network that connects: it is stored, and it worked. -/
theorem only_working_networks_one :
    Each netStep OneAtATime (freshNet 1) connectingRun ∧
    Always netStep OnlyWorking (freshNet 1) connectingRun := by
  have hone : Each netStep OneAtATime (freshNet 1) connectingRun :=
    ⟨trivial, fun _ _ hfly => absurd hfly (by decide), fun _ _ => rfl, trivial⟩
  exact ⟨hone, only_working_networks 1 _ hone⟩

/-- Network 1 is applied, network 2 overtakes it and connects: network 1 stays stored
although its attempt never had a result. -/
def overtakenRun : List NetEv :=
  [openNetwork [1], .apply {}, openNetwork [2], .apply {}, .result [2] ⟨0, .success⟩]

theorem overtaken_network_stays_stored :
    ¬ Always netStep OnlyWorking (freshNet 1) overtakenRun := by
  intro h
  have hstored := (h.final (by decide)).1 ⟨[1], .none, none, [], 0⟩ (by decide)
  exact absurd hstored.2 (by decide)

/-- The device and its driver. Every apply that is answered with success, every reset and
every reprovision opens a new epoch; the driver owes one result for each request it accepted
and remembers the epoch of the request. -/
structure Sys where
  wc : State
  epoch : Nat
  owed : List Nat

/-- A result names the owed request that it answers. -/
inductive SysEv where
  | set (cfg : WifiCfg)
  | apply (env : Env)
  | result (i : Nat) (env : Env) (status : WifiStatus)
  | retry (env : Env)
  | reset
  | reprovision (deleted : Bool)

def opensEpoch (wc : State) : Ev → Bool
  | .apply env => (doApply env wc).1 = .ok
  | .reset => true
  | .reprovision _ => true
  | _ => false

/-- A step of the device: the requests that the driver accepts belong to the epoch in which
they are issued. -/
def advance (s : Sys) (e : Ev) : Sys :=
  let epoch := if opensEpoch s.wc e then s.epoch + 1 else s.epoch
  { wc := next s.wc e
    epoch := epoch
    owed := s.owed ++ List.replicate ((step s.wc e).2.countP isAccepted) epoch }

def sysStep (s : Sys) : SysEv → Sys
  | .set cfg => advance s (.set cfg)
  | .apply env => advance s (.apply env)
  | .result i env status =>
    if i < s.owed.length then
      { advance s (.result env status) with owed := s.owed.eraseIdx i }
    else s
  | .retry env => advance s (.retry env)
  | .reset => advance s .reset
  | .reprovision deleted => advance s (.reprovision deleted)

/-- The owed request was issued before the latest apply, reset or reprovision. -/
def Stale (s : Sys) (i : Nat) : Prop := ∃ epoch, s.owed[i]? = some epoch ∧ epoch < s.epoch

/-- The owed request belongs to the latest attempt. -/
def Genuine (s : Sys) (i : Nat) : Prop := s.owed[i]? = some s.epoch

/-- Nothing that the outcome of an attempt consists of has changed. -/
structure Untouched (wc wc' : State) : Prop where
  state : wc'.staState = wc.staState
  reason : wc'.failReason = wc.failReason
  completed : wc'.attemptsCompleted = wc.attemptsCompleted
  inflight : wc'.inflight = wc.inflight
  creds : wc'.creds = wc.creds

/-- Stale results come only while nothing is in flight. -/
def StaleWhenIdle (s : Sys) : SysEv → Prop
  | .result i _ _ => Stale s i → ¬ InFlight s.wc
  | _ => True

/-- What a result that counts does: it connects, or schedules the next attempt, or fails and
deletes the network. -/
def Decided (env : Env) (status : WifiStatus) (wc wc' : State) : Prop :=
  if status.status = 0 then wc'.staState = .connected ∧ wc'.creds = wc.creds
  else if wc.attemptsMax > 0 ∧ wc.attemptsCompleted + 1 < wc.attemptsMax then
    wc'.staState = .connecting ∧ wc'.retryWork ∧ wc'.inflight = wc.inflight ∧
      wc'.attemptsCompleted = wc.attemptsCompleted + 1
  else
    wc'.staState = .failed ∧
      wc'.creds = deleteBySsid env.failDelete wc.inflight.ssid wc.creds

/-- A stale result touches nothing, the genuine result decides the attempt, and an attempt
only ever succeeds by a genuine successful result. -/
structure Attributed (s : Sys) (e : SysEv) : Prop where
  stale : ∀ i env status, e = .result i env status → Stale s i →
    Untouched s.wc (sysStep s e).wc
  genuine : ∀ i env status, e = .result i env status → Genuine s i →
    Decided env status s.wc (sysStep s e).wc
  success : s.wc.staState = .connecting → (sysStep s e).wc.staState = .connected →
    ∃ i env status, e = .result i env status ∧ Genuine s i ∧ status.status = 0

/-- The books of the driver: a result that is owed for the latest attempt finds it in
flight, and at most one is owed or about to be. -/
structure Owes (s : Sys) : Prop where
  consistent : Consistent s.wc
  past : ∀ epoch ∈ s.owed, epoch ≤ s.epoch
  current : s.epoch ∈ s.owed → InFlight s.wc
  single : InFlight s.wc → s.owed.count s.epoch + s.wc.retryWork.toNat ≤ 1

lemma owes_of_idle {s : Sys} (consistent : Consistent s.wc) (idle : ¬ InFlight s.wc)
    (past : ∀ epoch ∈ s.owed, epoch ≤ s.epoch) (none : s.epoch ∉ s.owed) : Owes s :=
  ⟨consistent, past, fun h => absurd h none, fun h => absurd h idle⟩

lemma Owes.next_epoch {s : Sys} (h : Owes s) : s.epoch + 1 ∉ s.owed := by
  intro hmem
  have := h.past _ hmem
  omega

lemma Owes.past_succ {s : Sys} (h : Owes s) : ∀ epoch ∈ s.owed, epoch ≤ s.epoch + 1 :=
  fun epoch hmem => Nat.le_succ_of_le (h.past epoch hmem)

lemma advance_apply_owes {s : Sys} (h : Owes s) (env : Env) : Owes (advance s (.apply env)) := by
  have hcons := step_consistent h.consistent (.apply env)
  rcases doApply_cases env s.wc with ⟨hno, houts, creds, heq, -⟩ | ⟨hok, hssid, -, -, heq⟩ |
    ⟨hok, -, -, -, hfail⟩
  · simp only [advance, opensEpoch, hno, step, next, houts, heq]
    simp only [decide_false, Bool.false_eq_true, if_false, List.countP_nil,
      List.replicate_zero, List.append_nil]
    exact ⟨⟨h.consistent.connecting, h.consistent.limited⟩, h.past, h.current, h.single⟩
  · have hadv : advance s (.apply env) =
        ⟨applying env s.wc, s.epoch + 1, s.owed ++ [s.epoch + 1]⟩ := by
      simp [advance, opensEpoch, hok, step, next, heq, isAccepted]
    rw [hadv]
    rw [next, step, heq] at hcons
    refine ⟨hcons, ?_, fun _ => applying_inFlight hssid, fun _ => ?_⟩
    · intro epoch hmem
      rcases List.mem_append.mp hmem with hold | hnew
      · exact h.past_succ epoch hold
      · exact Nat.le_of_eq (List.mem_singleton.mp hnew)
    · have hzero := List.count_eq_zero.mpr h.next_epoch
      simp [List.count_append, hzero, applying, beginAttempt]
  · have hadv : advance s (.apply env) = ⟨(doApply env s.wc).2.1, s.epoch + 1, s.owed⟩ := by
      simp [advance, opensEpoch, hok, step, next, hfail.accepted]
    rw [hadv]
    exact owes_of_idle hcons ((not_inFlight_iff _).mpr hfail.ssid) h.past_succ h.next_epoch

/-- A reset or a reprovision ends the attempt and opens an epoch with nothing owed. -/
lemma advance_reset_owes {s : Sys} (h : Owes s) {e : Ev} (opens : opensEpoch s.wc e)
    (quiet : (step s.wc e).2 = []) (idle : ¬ InFlight (next s.wc e)) : Owes (advance s e) := by
  have hadv : advance s e = ⟨next s.wc e, s.epoch + 1, s.owed⟩ := by
    simp [advance, opens, quiet]
  rw [hadv]
  exact owes_of_idle (step_consistent h.consistent e) idle h.past_succ h.next_epoch

lemma advance_retry_owes {s : Sys} (h : Owes s) (env : Env) : Owes (advance s (.retry env)) := by
  have hcons := step_consistent h.consistent (.retry env)
  rcases step_retry s.wc env with ⟨-, heq⟩ | ⟨hscheduled, heq⟩
  · have hadv : advance s (.retry env) = s := by
      simp [advance, opensEpoch, next, heq]
    rwa [hadv]
  · rw [next, heq] at hcons
    rcases retryWorkHandler_cases env s.wc with ⟨hidle, hcase⟩ | ⟨hfly, hcase⟩ | ⟨hfly, hfail⟩
    · have hadv : advance s (.retry env) = ⟨{ s.wc with retryWork := false }, s.epoch, s.owed⟩ := by
        simp [advance, opensEpoch, next, heq, hcase]
      rw [hadv]
      rw [hcase] at hcons
      exact owes_of_idle hcons hidle h.past fun hmem => hidle (h.current hmem)
    · have hadv : advance s (.retry env) =
          ⟨{ s.wc with retryWork := false }, s.epoch, s.owed ++ [s.epoch]⟩ := by
        simp [advance, opensEpoch, next, heq, hcase, isAccepted]
      rw [hadv]
      rw [hcase] at hcons
      -- The scheduled request was the one about to be owed; now it is.
      have hsingle := h.single hfly
      rw [hscheduled] at hsingle
      refine ⟨hcons, ?_, fun _ => hfly, fun _ => ?_⟩
      · intro epoch hmem
        rcases List.mem_append.mp hmem with hold | hnew
        · exact h.past epoch hold
        · exact Nat.le_of_eq (List.mem_singleton.mp hnew)
      · simpa [List.count_append] using hsingle
    · have hadv : advance s (.retry env) = ⟨(retryWorkHandler env s.wc).1, s.epoch, s.owed⟩ := by
        simp [advance, opensEpoch, next, heq, hfail.accepted]
      rw [hadv]
      have hsingle := h.single hfly
      rw [hscheduled] at hsingle
      have hzero : s.owed.count s.epoch = 0 := Nat.le_zero.mp (Nat.le_of_succ_le_succ hsingle)
      exact owes_of_idle hcons ((not_inFlight_iff _).mpr hfail.ssid) h.past
        (List.count_eq_zero.mp hzero)

/-- The state of the device after a result of an owed request. -/
lemma sysStep_result_wc {s : Sys} {i epoch : Nat} (owed : s.owed[i]? = some epoch) (env : Env)
    (status : WifiStatus) :
    (sysStep s (.result i env status)).wc = (onConnectResult env status s.wc).1 := by
  obtain ⟨hlt, -⟩ := List.getElem?_eq_some_iff.mp owed
  simp [sysStep, hlt, advance, next, step]

/-- Removing the only occurrence leaves none. -/
lemma not_mem_eraseIdx {xs : List Nat} {i a : Nat} (at_i : xs[i]? = some a)
    (single : xs.count a ≤ 1) : a ∉ xs.eraseIdx i := by
  obtain ⟨hlt, hget⟩ := List.getElem?_eq_some_iff.mp at_i
  have hperm := (List.getElem_cons_eraseIdx_perm hlt).count_eq a
  rw [hget, List.count_cons_self] at hperm
  exact List.count_eq_zero.mp (by omega)

lemma result_owes {s : Sys} (h : Owes s) (i : Nat) (env : Env) (status : WifiStatus)
    (idle : StaleWhenIdle s (.result i env status)) :
    Owes (sysStep s (.result i env status)) := by
  by_cases hlt : i < s.owed.length
  · have hstep : sysStep s (.result i env status) =
        ⟨(onConnectResult env status s.wc).1, s.epoch, s.owed.eraseIdx i⟩ := by
      simp [sysStep, hlt, advance, opensEpoch, next, step]
    have hcons := onConnectResult_consistent env status h.consistent
    have hpast : ∀ epoch ∈ s.owed.eraseIdx i, epoch ≤ s.epoch :=
      fun epoch hmem => h.past epoch (List.mem_of_mem_eraseIdx hmem)
    rw [hstep]
    by_cases hgen : s.owed.get ⟨i, hlt⟩ = s.epoch
    · have hat : s.owed[i]? = some s.epoch := by
        rw [List.getElem?_eq_getElem hlt]
        exact congrArg some hgen
      have hfly := h.current (List.mem_of_getElem? hat)
      have hsingle := h.single hfly
      have hnone : s.epoch ∉ s.owed.eraseIdx i := not_mem_eraseIdx hat (by omega)
      rcases onConnectResult_cases env status s.wc with ⟨hidle, -⟩ | ⟨-, -, heq⟩ |
        ⟨-, -, -, -, heq⟩ | ⟨-, -, -, hfail, -⟩
      · exact absurd hfly hidle
      · rw [heq] at hcons ⊢
        exact owes_of_idle hcons (by simp [InFlight]) hpast hnone
      · rw [heq] at hcons ⊢
        refine ⟨hcons, hpast, fun _ => hfly, fun _ => ?_⟩
        rw [List.count_eq_zero.mpr hnone]
        exact Nat.le_refl 1
      · exact owes_of_idle hcons ((not_inFlight_iff _).mpr hfail.ssid) hpast hnone
    · have hstale : Stale s i := by
        refine ⟨_, List.getElem?_eq_getElem hlt, ?_⟩
        exact Nat.lt_of_le_of_ne (h.past _ (List.getElem_mem hlt)) hgen
      have hidle := idle hstale
      rcases onConnectResult_cases env status s.wc with ⟨-, heq⟩ | ⟨hfly, -⟩ | ⟨hfly, -⟩ |
        ⟨hfly, -⟩
      · rw [heq]
        refine owes_of_idle h.consistent hidle hpast fun hmem => ?_
        exact hidle (h.current (List.mem_of_mem_eraseIdx hmem))
      all_goals exact absurd hfly hidle
  · have hstep : sysStep s (.result i env status) = s := by simp [sysStep, hlt]
    rwa [hstep]

theorem sysStep_owes {s : Sys} (h : Owes s) (e : SysEv) (idle : StaleWhenIdle s e) :
    Owes (sysStep s e) := by
  cases e with
  | set cfg =>
    obtain ⟨staged, heq⟩ := doSet_frame cfg s.wc
    have hadv : sysStep s (.set cfg) = ⟨{ s.wc with staged := staged }, s.epoch, s.owed⟩ := by
      simp [sysStep, advance, opensEpoch, step, next, heq]
    rw [hadv]
    exact ⟨⟨h.consistent.connecting, h.consistent.limited⟩, h.past, h.current, h.single⟩
  | apply env => exact advance_apply_owes h env
  | result i env status => exact result_owes h i env status idle
  | retry env => exact advance_retry_owes h env
  | reset | reprovision => exact advance_reset_owes h rfl rfl ((not_inFlight_iff _).mpr rfl)

/-- A result leaves everything as it was exactly when nothing is in flight. -/
theorem untouched_iff (env : Env) (status : WifiStatus) {wc : State} (h : Consistent wc) :
    Untouched wc (onConnectResult env status wc).1 ↔ ¬ InFlight wc := by
  rcases onConnectResult_cases env status wc with ⟨hidle, heq⟩ | ⟨hfly, -, heq⟩ |
    ⟨hfly, -, hmax, -, heq⟩ | ⟨hfly, -, -, hfail, -⟩
  · rw [heq]
    exact ⟨fun _ => hidle, fun _ => ⟨rfl, rfl, rfl, rfl, rfl⟩⟩
  · refine ⟨fun hu => ?_, fun hidle => absurd hfly hidle⟩
    have hstate := hu.state
    rw [heq, h.connecting.mpr hfly] at hstate
    exact StaState.noConfusion hstate
  · refine ⟨fun hu => ?_, fun hidle => absurd hfly hidle⟩
    have hsame := congrArg UInt32.toNat hu.completed
    rw [heq] at hsame
    have hsucc := toNat_succ_of_lt (h.limited hfly hmax)
    exact absurd (hsucc.symm.trans hsame) (Nat.succ_ne_self _)
  · refine ⟨fun hu => ?_, fun hidle => absurd hfly hidle⟩
    have hstate := hu.state
    rw [hfail.state, h.connecting.mpr hfly] at hstate
    exact StaState.noConfusion hstate

/-- A result that finds an attempt in flight decides it. -/
theorem decided_of_inFlight (env : Env) (status : WifiStatus) {wc : State} (fly : InFlight wc) :
    Decided env status wc (onConnectResult env status wc).1 := by
  rcases onConnectResult_cases env status wc with ⟨hidle, -⟩ | ⟨-, hzero, heq⟩ |
    ⟨-, hne, hmax, hmore, heq⟩ | ⟨-, hne, hlast, hfail, -⟩
  · exact absurd fly hidle
  · rw [Decided, if_pos hzero, heq]
    exact ⟨rfl, rfl⟩
  · rw [Decided, if_neg hne, if_pos ⟨hmax, hmore⟩, heq]
    exact ⟨rfl, rfl, rfl, rfl⟩
  · rw [Decided, if_neg hne, if_neg hlast]
    exact ⟨hfail.state, hfail.creds⟩

/-- Among the steps of the device only a result can turn a connecting station connected. -/
lemma connected_of_connecting {wc : State} (e : Ev) (before : wc.staState = .connecting)
    (after : (next wc e).staState = .connected) :
    ∃ env status, e = .result env status ∧ InFlight wc ∧ status.status = 0 := by
  refine (step_connected after).resolve_left ?_
  rw [before]
  exact StaState.noConfusion

lemma stale_or_genuine {s : Sys} (h : Owes s) {i : Nat} (hlt : i < s.owed.length) :
    Stale s i ∨ Genuine s i := by
  have hget := List.getElem?_eq_getElem hlt
  rcases Nat.lt_or_eq_of_le (h.past _ (List.getElem_mem hlt)) with hold | hcur
  · exact Or.inl ⟨_, hget, hold⟩
  · exact Or.inr (hget.trans (congrArg some hcur))

/-- With the driver's books in order a step attributes results correctly exactly when a
stale result finds nothing in flight. -/
theorem attributed_iff {s : Sys} (h : Owes s) (e : SysEv) :
    Attributed s e ↔ StaleWhenIdle s e := by
  constructor
  · intro hatt
    cases e with
    | result i env status =>
      intro hstale
      have ⟨_, howed, _⟩ := hstale
      have hun := hatt.stale i env status rfl hstale
      rw [sysStep_result_wc howed] at hun
      exact (untouched_iff env status h.consistent).mp hun
    | _ => exact trivial
  · intro hidle
    refine ⟨?_, ?_, ?_⟩
    · rintro i env status rfl hstale
      have ⟨_, howed, _⟩ := hstale
      rw [sysStep_result_wc howed]
      exact (untouched_iff env status h.consistent).mpr (hidle hstale)
    · rintro i env status rfl hgen
      rw [sysStep_result_wc hgen]
      exact decided_of_inFlight env status (h.current (List.mem_of_getElem? hgen))
    · intro hbefore hafter
      cases e with
      | result i env status =>
        by_cases hlt : i < s.owed.length
        · rw [sysStep_result_wc (List.getElem?_eq_getElem hlt)] at hafter
          obtain ⟨env', status', hev, hfly, hzero⟩ :=
            connected_of_connecting (.result env status) hbefore hafter
          obtain ⟨rfl, rfl⟩ := Ev.result.inj hev
          refine ⟨i, env, status, rfl, ?_, hzero⟩
          exact (stale_or_genuine h hlt).resolve_left fun hstale => hidle hstale hfly
        · rw [sysStep, if_neg hlt, hbefore] at hafter
          exact StaState.noConfusion hafter
      | set cfg =>
        obtain ⟨_, _, hev, -⟩ := connected_of_connecting (.set cfg) hbefore hafter
        exact Ev.noConfusion hev
      | apply env =>
        obtain ⟨_, _, hev, -⟩ := connected_of_connecting (.apply env) hbefore hafter
        exact Ev.noConfusion hev
      | retry env =>
        obtain ⟨_, _, hev, -⟩ := connected_of_connecting (.retry env) hbefore hafter
        exact Ev.noConfusion hev
      | reset => exact StaState.noConfusion hafter
      | reprovision deleted => exact StaState.noConfusion hafter

def freshSys (attemptsMax : UInt32) (creds : List Credential) : Sys :=
  ⟨start attemptsMax creds, 0, []⟩

/-- A run attributes every result to its attempt exactly when none of its stale results
arrives while a newer attempt is in flight. -/
theorem results_attributed_iff (attemptsMax : UInt32) (creds : List Credential)
    (es : List SysEv) :
    Each sysStep Attributed (freshSys attemptsMax creds) es ↔
      Each sysStep StaleWhenIdle (freshSys attemptsMax creds) es := by
  have hstart : Owes (freshSys attemptsMax creds) :=
    owes_of_idle (run_consistent attemptsMax creds []) ((not_inFlight_iff _).mpr rfl)
      (fun _ hmem => absurd hmem List.not_mem_nil) List.not_mem_nil
  exact each_iff_each (I := Owes) (fun s e h hidle => sysStep_owes h e hidle)
    (fun s e h => attributed_iff h e) hstart es

/-- The network is applied twice. The first request fails late: its result fails the second
attempt and deletes the network, and the success of the second request is then ignored. -/
def lateFailureRun : List SysEv :=
  [.set ⟨[1], none, none, none⟩, .apply {}, .apply {}, .result 0 {} ⟨-1, .fail⟩,
    .result 0 {} ⟨0, .success⟩]

theorem late_failure_decides : ¬ Each sysStep Attributed (freshSys 1 []) lateFailureRun := by
  intro h
  have hstate := (h.2.2.2.1.stale 0 {} ⟨-1, .fail⟩ rfl ⟨1, by decide, by decide⟩).state
  exact absurd hstate (by decide)

end WifiDriver
