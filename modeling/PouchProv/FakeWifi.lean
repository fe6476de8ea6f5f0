import PouchProv.WifiRuns

/-!
# The simulated driver

`fake_wifi.c` under the station of `wifi_config.c`, as the simulator and the tests run
them. The driver is programmed with a list of networks and with the credentials of one
of them. It answers a connect request from a work item, the network stack hands the
result to the station, and the station tries again from a timer. Requests pass the
checks of the network stack, which are outside the repository, before they reach the
driver.
-/

namespace FakeWifi

open Status ProvTypes WifiConfig WifiRuns

/-- `WIFI_PSK_MAX_LEN` -/
def pskMax : Nat := 64

/-- `struct fake_wifi_data`, with the scan list by its SSIDs. -/
structure Driver where
  aps : List Bytes
  nextConn : ConnStatus
  nextSyncErr : Bool
  expected : Option (Bytes × Bytes)
  connSsid : Bytes
  connChannel : UInt8
  connected : Bool
  connectWork : Bool

def fresh : Driver := ⟨[], .success, false, none, [], 0, false, false⟩

def setScanAps (maxAp : Nat) (aps : List Bytes) (d : Driver) : Driver :=
  { d with aps := aps.take maxAp }

def setExpectedCredentials (ssid pass : Bytes) (d : Driver) : Driver :=
  if ssid = [] then { d with expected := none }
  else { d with expected := some (ssid.take ssidMax, pass.take pskMax) }

def credsOutcome (aps : List Bytes) (expected : Bytes × Bytes) (req : ConnectReq) : ConnStatus :=
  if req.ssid ∉ aps then .apNotFound
  else if req.ssid ≠ expected.1 ∨ req.psk.getD [] ≠ expected.2 then .wrongPassword
  else .success

def fakeConnect (req : ConnectReq) (d : Driver) : Bool × Driver :=
  if d.nextSyncErr then (false, { d with nextSyncErr := false })
  else (true, { d with
    nextConn := match d.expected with
      | some expected => credsOutcome d.aps expected req
      | none => d.nextConn
    connSsid := req.ssid.take ssidMax
    connChannel := if req.channel = wifiChannelAny then 1 else req.channel
    connectWork := true })

/-- The values of `enum wifi_conn_status`. -/
def code : ConnStatus → Int
  | .success => 0
  | .fail => 1
  | .wrongPassword => 2
  | .timeout => 3
  | .apNotFound => 4

/-- The fields of a result are one union. -/
def statusOf (c : ConnStatus) : WifiStatus := ⟨code c, c⟩

def connectWorkFn (d : Driver) : WifiStatus × Driver :=
  (statusOf d.nextConn, { d with connected := d.nextConn = .success, connectWork := false })

/-- The network that the driver reports. -/
def fakeIfaceStatus (d : Driver) : Option Bytes := if d.connected then some d.connSsid else none

/-- The station, the driver, and the results that the network stack has not delivered. -/
structure Sys where
  wc : State
  driver : Driver
  raised : List WifiStatus

/-- What runs by itself: the work item of the driver, the event thread of the network stack and the
timer of the station. -/
inductive Work where
  | connect
  | deliver
  | retry
  deriving DecidableEq

section Step

variable (admits : ConnectReq → Bool) (env : Env)

/-- A connect request of the station. -/
def connectCall (req : ConnectReq) (d : Driver) : Bool × Driver :=
  if admits req then fakeConnect req d else (false, d)

def applyRequest (s : Sys) : ProvStatus × Sys :=
  let call := connectCall admits (connectReq (applying env s.wc).inflight) s.driver
  let (status, wc, outs) := doApply { env with connect := call.1 } s.wc
  (status, { s with wc := wc, driver := if outs.any isConnect then call.2 else s.driver })

def retry (s : Sys) : Sys :=
  let call := connectCall admits (connectReq s.wc.inflight) s.driver
  let (wc, outs) := retryWorkHandler { env with connect := call.1 } s.wc
  { s with wc := wc, driver := if outs.any isConnect then call.2 else s.driver }

def work (s : Sys) : Work → Sys
  | .connect =>
    if s.driver.connectWork then
      let (status, driver) := connectWorkFn s.driver
      { s with driver := driver, raised := s.raised ++ [status] }
    else s
  | .deliver =>
    match s.raised with
    | [] => s
    | status :: raised =>
      { s with wc := (onConnectResult env status s.wc).1, raised := raised }
  | .retry => if s.wc.retryWork then retry admits env s else s

end Step

/-- How the driver is programmed, the request of the attempt, and what an apply has stored. -/
structure Goal where
  aps : List Bytes
  expected : Bytes × Bytes
  req : ConnectReq
  cred : Credential

def Goal.outcome (g : Goal) : ConnStatus := credsOutcome g.aps g.expected g.req

/-- The driver has taken the request. -/
def Goal.taken (g : Goal) (d : Driver) : Driver :=
  { d with
    nextConn := g.outcome
    connSsid := g.req.ssid.take ssidMax
    connChannel := if g.req.channel = wifiChannelAny then 1 else g.req.channel
    connectWork := true }

/-- The attempt is over, and nothing is left to do. The station and the driver agree. -/
structure Settled (g : Goal) (env : Env) (s : Sys) : Prop where
  idle : s.wc.inflight.ssid = []
  state : s.wc.staState = if g.outcome = .success then .connected else .failed
  reason : g.outcome ≠ .success → s.wc.failReason = failureReason g.outcome
  stored : g.outcome = .success → g.cred ∈ s.wc.creds
  erased : g.outcome ≠ .success → env.failDelete = true → ∀ c ∈ s.wc.creds, c.ssid ≠ g.req.ssid
  link : fakeIfaceStatus s.driver = if g.outcome = .success then some g.req.ssid else none
  rests : s.driver.connectWork = false ∧ s.raised = [] ∧ s.wc.retryWork = false

/-- The attempts that are left, with the one in flight. -/
def remaining (wc : State) : Nat :=
  if wc.attemptsMax = 0 then 1 else wc.attemptsMax.toNat - wc.attemptsCompleted.toNat

structure Flying (g : Goal) (left : Nat) (s : Sys) : Prop where
  fly : InFlight s.wc
  request : connectReq s.wc.inflight = g.req
  state : s.wc.staState = .connecting
  stored : g.cred ∈ s.wc.creds
  programmed : s.driver.expected = some g.expected ∧ s.driver.aps = g.aps
  accepts : s.driver.nextSyncErr = false
  target : s.driver.connSsid = g.req.ssid
  left : remaining s.wc = left

/-- The work after a result, with so many further attempts. -/
def later (ok : Bool) : Nat → List Work
  | 0 => []
  | left + 1 => if ok then [] else .retry :: .connect :: .deliver :: later ok left

def Goal.later (g : Goal) : Nat → List Work := FakeWifi.later (g.outcome = .success)

/-- The work that is left until the attempt is over. -/
inductive Ahead (g : Goal) (env : Env) (s : Sys) : List Work → Prop where
  | requested (left : Nat) (flying : Flying g (left + 1) s) (busy : s.driver.connectWork = true)
      (next : s.driver.nextConn = g.outcome) (quiet : s.raised = [])
      (timer : s.wc.retryWork = false) : Ahead g env s (.connect :: .deliver :: g.later left)
  | raised (left : Nat) (flying : Flying g (left + 1) s) (done : s.driver.connectWork = false)
      (link : s.driver.connected = decide (g.outcome = .success))
      (due : s.raised = [statusOf g.outcome]) (timer : s.wc.retryWork = false) :
      Ahead g env s (.deliver :: g.later left)
  | retrying (left : Nat) (flying : Flying g (left + 1) s) (done : s.driver.connectWork = false)
      (quiet : s.raised = []) (timer : s.wc.retryWork = true) :
      Ahead g env s (.retry :: .connect :: .deliver :: g.later left)
  | settled (h : Settled g env s) : Ahead g env s []

section Progress

variable {admits : ConnectReq → Bool} {env : Env} {g : Goal} {s : Sys}

lemma code_eq_zero (c : ConnStatus) : code c = 0 ↔ c = .success := by
  cases c <;> simp [code]

lemma Goal.later_success (h : g.outcome = .success) (left : Nat) : g.later left = [] := by
  cases left <;> simp [Goal.later, FakeWifi.later, h]

lemma Goal.later_failure (h : g.outcome ≠ .success) (left : Nat) :
    g.later (left + 1) = .retry :: .connect :: .deliver :: g.later left := by
  simp [Goal.later, FakeWifi.later, h]

/-- The driver takes the request of the attempt, and knows how it will end. -/
lemma fakeConnect_goal {d : Driver} (programmed : d.expected = some g.expected ∧ d.aps = g.aps)
    (accepts : d.nextSyncErr = false) :
    fakeConnect g.req d = (true, g.taken d) := by
  rw [fakeConnect, accepts, Goal.taken]
  simp only [programmed.1, programmed.2, Bool.false_eq_true, if_false]
  rw [accepts]
  rfl

/-- A result that reports success. -/
lemma deliver_success (h : g.outcome = .success) {left : Nat} (flying : Flying g (left + 1) s)
    (done : s.driver.connectWork = false)
    (link : s.driver.connected = decide (g.outcome = .success)) (timer : s.wc.retryWork = false) :
    Settled g env { s with
      wc := (onConnectResult env (statusOf g.outcome) s.wc).1, raised := [] } := by
  have hresult : onConnectResult env (statusOf g.outcome) s.wc =
      (clearInflight { s.wc with staState := .connected }, [.event .wifiConnected]) := by
    have hfly : ¬ s.wc.inflight.ssid.length = 0 := Nat.pos_iff_ne_zero.mp flying.fly
    simp [onConnectResult, hfly, statusOf, h, code]
  rw [hresult]
  refine ⟨rfl, ?_, fun hne => absurd h hne, fun _ => flying.stored, fun hne => absurd h hne, ?_,
    done, rfl, timer⟩
  · rw [if_pos h]
    rfl
  · simp [fakeIfaceStatus, link, h, flying.target]

/-- The last attempt has failed. -/
lemma result_final (env : Env) {wc : State} {c : ConnStatus} (fly : InFlight wc)
    (failed : c ≠ .success) (last : remaining wc = 1) :
    ∃ n, (onConnectResult env (statusOf c) wc).1 =
      (finalFailure env { wc with lastConnStatus := c, attemptsCompleted := n }).1 := by
  have hfly : ¬ wc.inflight.ssid.length = 0 := Nat.pos_iff_ne_zero.mp fly
  have hcode : ¬ code c = 0 := fun h => failed ((code_eq_zero c).mp h)
  by_cases hmax : wc.attemptsMax = 0
  · refine ⟨wc.attemptsCompleted, ?_⟩
    simp [onConnectResult, hfly, statusOf, hcode, hmax]
  · refine ⟨wc.attemptsCompleted + 1, ?_⟩
    rw [remaining, if_neg hmax] at last
    have hpos : wc.attemptsMax > 0 := UInt32.pos_iff_ne_zero.mpr hmax
    have hlt : wc.attemptsCompleted < wc.attemptsMax := UInt32.lt_iff_toNat_lt.mpr (by omega)
    have hnext : ¬ wc.attemptsCompleted + 1 < wc.attemptsMax := by
      rw [UInt32.lt_iff_toNat_lt, toNat_succ_of_lt hlt]
      omega
    simp [onConnectResult, hfly, statusOf, hcode, hpos, hnext]

/-- There is another attempt. -/
lemma result_again (env : Env) {wc : State} {c : ConnStatus} {left : Nat} (fly : InFlight wc)
    (failed : c ≠ .success) (more : remaining wc = left + 2) :
    (onConnectResult env (statusOf c) wc).1 = { wc with
        lastConnStatus := c, attemptsCompleted := wc.attemptsCompleted + 1
        staState := .connecting, retryWork := true } ∧
      remaining { wc with attemptsCompleted := wc.attemptsCompleted + 1 } = left + 1 := by
  have hfly : ¬ wc.inflight.ssid.length = 0 := Nat.pos_iff_ne_zero.mp fly
  have hcode : ¬ code c = 0 := fun h => failed ((code_eq_zero c).mp h)
  have hmax : wc.attemptsMax ≠ 0 := by
    intro hmax
    rw [remaining, if_pos hmax] at more
    omega
  rw [remaining, if_neg hmax] at more
  have hpos : wc.attemptsMax > 0 := UInt32.pos_iff_ne_zero.mpr hmax
  have hlt : wc.attemptsCompleted < wc.attemptsMax := UInt32.lt_iff_toNat_lt.mpr (by omega)
  have hsucc := toNat_succ_of_lt hlt
  have hnext : wc.attemptsCompleted + 1 < wc.attemptsMax := by
    rw [UInt32.lt_iff_toNat_lt, hsucc]
    omega
  constructor
  · simp [onConnectResult, hfly, statusOf, hcode, hpos, hnext]
  · rw [remaining, if_neg hmax]
    dsimp only
    omega

lemma deliver_final (h : g.outcome ≠ .success) (flying : Flying g 1 s)
    (done : s.driver.connectWork = false)
    (link : s.driver.connected = decide (g.outcome = .success)) (timer : s.wc.retryWork = false) :
    Settled g env { s with
      wc := (onConnectResult env (statusOf g.outcome) s.wc).1, raised := [] } := by
  obtain ⟨n, hresult⟩ := result_final env flying.fly h flying.left
  rw [hresult]
  refine ⟨rfl, ?_, fun _ => rfl, fun hsuccess => absurd hsuccess h, ?_, ?_, done, rfl, timer⟩
  · rw [if_neg h]
    rfl
  · intro _ hdelete c hc
    have hssid : s.wc.inflight.ssid = g.req.ssid := congrArg ConnectReq.ssid flying.request
    simp only [finalFailure, clearInflight, deleteBySsid, hdelete, if_true, List.mem_filter,
      decide_eq_true_eq] at hc
    rw [← hssid]
    exact hc.2
  · simp [fakeIfaceStatus, link, h]

lemma deliver_again (h : g.outcome ≠ .success) {left : Nat} (flying : Flying g (left + 2) s)
    (done : s.driver.connectWork = false) :
    Ahead g env { s with wc := (onConnectResult env (statusOf g.outcome) s.wc).1, raised := [] }
      (.retry :: .connect :: .deliver :: g.later left) := by
  obtain ⟨hresult, hleft⟩ := result_again env flying.fly h flying.left
  rw [hresult]
  exact .retrying left ⟨flying.fly, flying.request, rfl, flying.stored, flying.programmed,
    flying.accepts, flying.target, hleft⟩ done rfl rfl

/-- The request goes to the driver again. -/
lemma retry_flying (admitted : admits g.req = true) (iface : env.connectIface = true)
    (short : g.req.ssid.length ≤ ssidMax) {left : Nat} (flying : Flying g (left + 1) s)
    (quiet : s.raised = []) :
    Ahead g env (retry admits env s) (.connect :: .deliver :: g.later left) := by
  have hfly : ¬ s.wc.inflight.ssid.length = 0 := Nat.pos_iff_ne_zero.mp flying.fly
  have hcall : connectCall admits (connectReq s.wc.inflight) s.driver =
      (true, g.taken s.driver) := by
    rw [connectCall, flying.request, if_pos admitted]
    exact fakeConnect_goal flying.programmed flying.accepts
  have hretry : retry admits env s = { s with
      wc := { s.wc with retryWork := false }, driver := g.taken s.driver } := by
    rw [retry, hcall]
    simp [retryWorkHandler, connectFromInflight, hfly, iface, isConnect]
  rw [hretry]
  exact .requested left ⟨flying.fly, flying.request, flying.state, flying.stored,
    flying.programmed, flying.accepts, List.take_of_length_le short, flying.left⟩ rfl rfl quiet rfl

/-- The work that is next takes the attempt further. -/
theorem ahead_advance (admitted : admits g.req = true) (iface : env.connectIface = true)
    (short : g.req.ssid.length ≤ ssidMax) {w : Work} {ws : List Work}
    (h : Ahead g env s (w :: ws)) : Ahead g env (work admits env s w) ws := by
  cases h with
  | requested left flying busy next quiet timer =>
    have hwork : work admits env s .connect = { s with
        driver := { s.driver with
          connected := decide (g.outcome = .success), connectWork := false }
        raised := [statusOf g.outcome] } := by
      simp [work, busy, connectWorkFn, next, quiet]
    rw [hwork]
    exact .raised left ⟨flying.fly, flying.request, flying.state, flying.stored,
      flying.programmed, flying.accepts, flying.target, flying.left⟩ rfl rfl rfl timer
  | raised left flying done link due timer =>
    have hwork : work admits env s .deliver = { s with
        wc := (onConnectResult env (statusOf g.outcome) s.wc).1, raised := [] } := by
      simp [work, due]
    rw [hwork]
    by_cases hsuccess : g.outcome = .success
    · rw [Goal.later_success hsuccess]
      exact .settled (deliver_success hsuccess flying done link timer)
    · cases left with
      | zero => exact .settled (deliver_final hsuccess flying done link timer)
      | succ left =>
        rw [Goal.later_failure hsuccess]
        exact deliver_again hsuccess flying done
  | retrying left flying done quiet timer =>
    rw [work, if_pos timer]
    exact retry_flying admitted iface short flying quiet

/-- Any other work has nothing to do. -/
theorem ahead_wait {ws : List Work} (h : Ahead g env s ws) {w : Work} (other : ws.head? ≠ some w) :
    work admits env s w = s := by
  cases h with
  | requested left flying busy next quiet timer =>
    cases w with
    | connect => exact absurd rfl other
    | deliver => simp [work, quiet]
    | retry => simp [work, timer]
  | raised left flying done link due timer =>
    cases w with
    | connect => simp [work, done]
    | deliver => exact absurd rfl other
    | retry => simp [work, timer]
  | retrying left flying done quiet timer =>
    cases w with
    | connect => simp [work, done]
    | deliver => simp [work, quiet]
    | retry => exact absurd rfl other
  | settled h =>
    obtain ⟨hdone, hquiet, htimer⟩ := h.rests
    cases w <;> simp [work, hdone, hquiet, htimer]

/-- Whatever the schedule is, the attempt goes on or is over, and it is over once the work that is
left has had its turns. -/
theorem ahead_run (admitted : admits g.req = true) (iface : env.connectIface = true)
    (short : g.req.ssid.length ≤ ssidMax) {ws : List Work} (h : Ahead g env s ws)
    (es : List Work) :
    ∃ ws', Ahead g env (es.foldl (work admits env) s) ws' ∧ (ws.Sublist es → ws' = []) := by
  induction es generalizing s ws with
  | nil => exact ⟨ws, h, fun hsub => List.sublist_nil.mp hsub⟩
  | cons e es ih =>
    rw [List.foldl_cons]
    by_cases hnext : ws.head? = some e
    · cases ws with
      | nil => cases hnext
      | cons w ws =>
        obtain rfl := Option.some.inj hnext
        obtain ⟨ws', hahead, hover⟩ := ih (ahead_advance admitted iface short h)
        exact ⟨ws', hahead, fun hsub => hover (List.cons_sublist_cons.mp hsub)⟩
    · rw [ahead_wait h hnext]
      obtain ⟨ws', hahead, hover⟩ := ih h
      refine ⟨ws', hahead, fun hsub => hover ?_⟩
      cases ws with
      | nil => exact List.nil_sublist es
      | cons w ws => exact List.Sublist.of_cons_of_ne (fun hw => hnext (congrArg some hw)) hsub

lemma ahead_goes_on {ws : List Work} (h : Ahead g env s ws) :
    s.wc.staState = .connecting ∨ Settled g env s := by
  cases h with
  | requested left flying busy next quiet timer => exact .inl flying.state
  | raised left flying done link due timer => exact .inl flying.state
  | retrying left flying done quiet timer => exact .inl flying.state
  | settled h => exact .inr h

lemma ahead_over (h : Ahead g env s []) : Settled g env s := by
  cases h with
  | settled h => exact h

end Progress

/-- Each kind of work in turn, so many times. -/
def rounds (n : Nat) : List Work := (List.replicate n [.connect, .deliver, .retry]).flatten

lemma rounds_succ (n : Nat) :
    rounds (n + 1) = .connect :: .deliver :: .retry :: rounds n := by
  simp [rounds, List.replicate_succ]

lemma Goal.later_rounds (g : Goal) (left : Nat) :
    (Work.connect :: .deliver :: g.later left).Sublist (rounds (left + 1)) := by
  induction left with
  | zero =>
    rw [rounds_succ]
    exact ((List.nil_sublist _).cons_cons _).cons_cons _
  | succ left ih =>
    rw [rounds_succ]
    by_cases hsuccess : g.outcome = .success
    · rw [Goal.later_success hsuccess]
      exact ((List.nil_sublist _).cons_cons _).cons_cons _
    · rw [Goal.later_failure hsuccess]
      exact ((ih.cons_cons _).cons_cons _).cons_cons _

/-- In every order of the work the station is connecting or has settled, and it has settled when
each kind of work has had its turn as often as there are attempts. -/
structure Settles (admits : ConnectReq → Bool) (env : Env) (g : Goal) (limit : Nat) (s : Sys) :
    Prop where
  safe : ∀ es : List Work, (es.foldl (work admits env) s).wc.staState = .connecting ∨
    Settled g env (es.foldl (work admits env) s)
  live : ∀ es : List Work, (rounds limit).Sublist es →
    Settled g env (es.foldl (work admits env) s)

/-- The attempt that an apply begins. -/
def goalOf (env : Env) (s : Sys) (expected : Bytes × Bytes) : Goal :=
  ⟨s.driver.aps, expected, connectReq (applying env s.wc).inflight, credentialOf s.wc.staged⟩

/-- The platform and the network stack take the request. -/
structure Admits (admits : ConnectReq → Bool) (env : Env) (s : Sys) : Prop where
  iface : env.iface = true ∧ env.connectIface = true
  store : env.setPersonal = true
  request : admits (connectReq (applying env s.wc).inflight) = true

section Attempt

variable {admits : ConnectReq → Bool} {env : Env} {s : Sys} {expected : Bytes × Bytes}

lemma applyRequest_eq (programmed : s.driver.expected = some expected)
    (accepts : s.driver.nextSyncErr = false) (admitted : Admits admits env s)
    (staged : 0 < s.wc.staged.ssid.length) :
    applyRequest admits env s = (.ok, { s with
      wc := applying env s.wc, driver := (goalOf env s expected).taken s.driver }) := by
  have hcall : connectCall admits (connectReq (applying env s.wc).inflight) s.driver =
      (true, (goalOf env s expected).taken s.driver) := by
    rw [connectCall, if_pos admitted.request]
    exact fakeConnect_goal (g := goalOf env s expected) ⟨programmed, rfl⟩ accepts
  have hssid : s.wc.staged.ssid ≠ [] := List.ne_nil_of_length_pos staged
  have happly : doApply { env with connect := true } s.wc = (.ok, applying env s.wc,
      [.event .wifiCredRecv, .connect (connectReq (applying env s.wc).inflight) true]) := by
    simp [doApply, admitted.iface, hssid, admitted.store, connectFromInflight, applying]
  rw [applyRequest, hcall]
  simp only [happly]
  rfl

lemma remaining_applying (env : Env) (wc : State) :
    remaining (applying env wc) = max 1 wc.attemptsMax.toNat := by
  by_cases hmax : wc.attemptsMax = 0
  · simp [remaining, applying, beginAttempt, hmax]
  · have hpos : 0 < wc.attemptsMax.toNat :=
      UInt32.lt_iff_toNat_lt.mp (UInt32.pos_iff_ne_zero.mpr hmax)
    simp only [remaining, applying, beginAttempt, if_neg hmax, UInt32.toNat_zero]
    omega

lemma apply_ahead (programmed : s.driver.expected = some expected)
    (accepts : s.driver.nextSyncErr = false) (quiet : s.raised = [])
    (admitted : Admits admits env s)
    (staged : 0 < s.wc.staged.ssid.length ∧ s.wc.staged.ssid.length ≤ ssidMax) {left : Nat}
    (attempts : max 1 s.wc.attemptsMax.toNat = left + 1) :
    Ahead (goalOf env s expected) env (applyRequest admits env s).2
      (.connect :: .deliver :: (goalOf env s expected).later left) := by
  rw [applyRequest_eq programmed accepts admitted staged.1]
  refine .requested left ?_ rfl rfl quiet rfl
  exact ⟨staged.1, rfl, rfl, List.mem_cons_self, ⟨programmed, rfl⟩, accepts,
    List.take_of_length_le staged.2, (remaining_applying env s.wc).trans attempts⟩

/-- With the driver programmed for a network, an apply comes to the end that the driver was
programmed for, also if the driver still has an earlier request: it joins exactly with the expected
credentials, and otherwise it fails with the reason, after all attempts, and the network is
forgotten. -/
theorem attempt_settles (programmed : s.driver.expected = some expected)
    (accepts : s.driver.nextSyncErr = false) (quiet : s.raised = [])
    (admitted : Admits admits env s)
    (staged : 0 < s.wc.staged.ssid.length ∧ s.wc.staged.ssid.length ≤ ssidMax) :
    (applyRequest admits env s).1 = .ok ∧
      Settles admits env (goalOf env s expected) (max 1 s.wc.attemptsMax.toNat)
        (applyRequest admits env s).2 := by
  obtain ⟨left, hleft⟩ : ∃ left, max 1 s.wc.attemptsMax.toNat = left + 1 :=
    ⟨max 1 s.wc.attemptsMax.toNat - 1, by omega⟩
  have hahead := apply_ahead programmed accepts quiet admitted staged hleft
  have hrun := ahead_run (g := goalOf env s expected) admitted.request admitted.iface.2
    staged.2 hahead
  refine ⟨by rw [applyRequest_eq programmed accepts admitted staged.1], ?_, ?_⟩
  · intro es
    obtain ⟨ws, h, -⟩ := hrun es
    exact ahead_goes_on h
  · intro es hes
    obtain ⟨ws, h, hover⟩ := hrun es
    rw [hleft] at hes
    obtain rfl := hover (((goalOf env s expected).later_rounds left).trans hes)
    exact ahead_over h

end Attempt

/-- The passphrase that is staged is not the one of the network, and two attempts are made. -/
def sampleSys : Sys where
  wc := (doSet ⟨[104, 111], some [49, 50], none, none⟩ (wifiConfigInit 2 (State.zero []))).2
  driver := setExpectedCredentials [104, 111] [50, 49] (setScanAps 4 [[104, 111]] fresh)
  raised := []

theorem attempt_settles_wrong :
    (applyRequest (fun _ => true) {} sampleSys).1 = .ok ∧
      Settles (fun _ => true) {} (goalOf {} sampleSys ([104, 111], [50, 49]))
        (max 1 sampleSys.wc.attemptsMax.toNat) (applyRequest (fun _ => true) {} sampleSys).2 :=
  attempt_settles rfl rfl rfl ⟨⟨rfl, rfl⟩, rfl, rfl⟩ (by decide)

end FakeWifi
