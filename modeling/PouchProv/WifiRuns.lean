import PouchProv.WifiConfig
import PouchProv.Runs

/-!
# Runs of the Wi-Fi state machine

One lemma says what each function can do; the invariants of all runs, and the
bound on the connect requests of one apply, follow from these cases.
-/

namespace WifiRuns

open WifiConfig Status ProvTypes Runs

/-- A connect attempt is in flight. -/
def InFlight (wc : State) : Prop := 0 < wc.inflight.ssid.length

instance (wc : State) : Decidable (InFlight wc) := inferInstanceAs (Decidable (0 < _))

def isConnect : Out → Bool
  | .connect _ _ => true
  | .event _ => false

/-- A connect request that the driver accepted, so that a result is due for it. -/
def isAccepted : Out → Bool
  | .connect _ accepted => accepted
  | .event _ => false

lemma not_inFlight_iff (wc : State) : ¬ InFlight wc ↔ wc.inflight.ssid = [] := by
  simp [InFlight]

@[simp] lemma clearInflight_ssid (wc : State) : (clearInflight wc).inflight.ssid = [] := rfl

/-- The end of an attempt that failed: what `finalFailure` leaves behind, and that at most
one rejected connect request came before it. -/
structure Failed (env : Env) (wc : State) (r : State × List Out) : Prop where
  ssid : r.1.inflight.ssid = []
  state : r.1.staState = .failed
  max : r.1.attemptsMax = wc.attemptsMax
  creds : r.1.creds = deleteBySsid env.failDelete wc.inflight.ssid wc.creds
  connects : r.2.countP isConnect ≤ 1
  accepted : r.2.countP isAccepted = 0

lemma finalFailure_failed (env : Env) (wc : State) : Failed env wc (finalFailure env wc) :=
  ⟨rfl, rfl, rfl, rfl, Nat.zero_le 1, rfl⟩

/-- A connect result is ignored, or connects, or schedules a retry, or fails for good. -/
theorem onConnectResult_cases (env : Env) (status : WifiStatus) (wc : State) :
    (¬ InFlight wc ∧ onConnectResult env status wc = (wc, [])) ∨
    (InFlight wc ∧ status.status = 0 ∧
      onConnectResult env status wc =
        (clearInflight { wc with staState := .connected }, [.event .wifiConnected])) ∨
    (InFlight wc ∧ status.status ≠ 0 ∧ wc.attemptsMax > 0 ∧
      wc.attemptsCompleted + 1 < wc.attemptsMax ∧
      onConnectResult env status wc =
        ({ wc with lastConnStatus := status.connStatus,
                   attemptsCompleted := wc.attemptsCompleted + 1,
                   staState := .connecting, retryWork := true }, [])) ∨
    (InFlight wc ∧ status.status ≠ 0 ∧
      ¬ (wc.attemptsMax > 0 ∧ wc.attemptsCompleted + 1 < wc.attemptsMax) ∧
      Failed env wc (onConnectResult env status wc) ∧
      (onConnectResult env status wc).2.countP isConnect = 0) := by
  by_cases hfly : InFlight wc
  · have hne : ¬ wc.inflight.ssid.length = 0 := Nat.pos_iff_ne_zero.mp hfly
    by_cases hzero : status.status = 0
    · exact Or.inr (Or.inl ⟨hfly, hzero, by simp [onConnectResult, hne, hzero]⟩)
    · refine Or.inr (Or.inr ?_)
      by_cases hmax : wc.attemptsMax > 0
      · by_cases hmore : wc.attemptsCompleted + 1 < wc.attemptsMax
        · refine Or.inl ⟨hfly, hzero, hmax, hmore, ?_⟩
          simp [onConnectResult, hne, hzero, hmax, hmore]
        · refine Or.inr ⟨hfly, hzero, fun h => hmore h.2, ?_⟩
          have heq : onConnectResult env status wc = finalFailure env
              { wc with lastConnStatus := status.connStatus,
                        attemptsCompleted := wc.attemptsCompleted + 1 } := by
            simp [onConnectResult, hne, hzero, hmax, hmore]
          rw [heq]
          exact ⟨⟨rfl, rfl, rfl, rfl, Nat.zero_le 1, rfl⟩, rfl⟩
      · refine Or.inr ⟨hfly, hzero, fun h => hmax h.1, ?_⟩
        have heq : onConnectResult env status wc =
            finalFailure env { wc with lastConnStatus := status.connStatus } := by
          simp [onConnectResult, hne, hzero, hmax]
        rw [heq]
        exact ⟨⟨rfl, rfl, rfl, rfl, Nat.zero_le 1, rfl⟩, rfl⟩
  · have hz : wc.inflight.ssid.length = 0 := by simpa [InFlight] using hfly
    exact Or.inl ⟨hfly, by simp [onConnectResult, hz]⟩

/-- A retry finds no attempt, or issues an accepted connect request, or fails for good. -/
theorem retryWorkHandler_cases (env : Env) (wc : State) :
    (¬ InFlight wc ∧ retryWorkHandler env wc = ({ wc with retryWork := false }, [])) ∨
    (InFlight wc ∧
      retryWorkHandler env wc =
        ({ wc with retryWork := false }, [.connect (connectReq wc.inflight) true])) ∨
    (InFlight wc ∧ Failed env { wc with retryWork := false } (retryWorkHandler env wc)) := by
  by_cases hfly : InFlight wc
  · have hne : ¬ wc.inflight.ssid.length = 0 := Nat.pos_iff_ne_zero.mp hfly
    cases hiface : env.connectIface with
    | false =>
      refine Or.inr (Or.inr ⟨hfly, ?_⟩)
      have heq : retryWorkHandler env wc = finalFailure env { wc with retryWork := false } := by
        simp [retryWorkHandler, connectFromInflight, hne, hiface]
      rw [heq]
      exact finalFailure_failed env _
    | true =>
      cases hconn : env.connect with
      | true =>
        refine Or.inr (Or.inl ⟨hfly, ?_⟩)
        simp [retryWorkHandler, connectFromInflight, hne, hiface, hconn]
      | false =>
        refine Or.inr (Or.inr ⟨hfly, ?_⟩)
        have heq : retryWorkHandler env wc =
            ((finalFailure env { wc with retryWork := false }).1,
              .connect (connectReq wc.inflight) false ::
                (finalFailure env { wc with retryWork := false }).2) := by
          simp [retryWorkHandler, connectFromInflight, hne, hiface, hconn]
        rw [heq]
        exact ⟨rfl, rfl, rfl, rfl, Nat.le_refl 1, rfl⟩
  · have hz : wc.inflight.ssid.length = 0 := by simpa [InFlight] using hfly
    exact Or.inl ⟨hfly, by simp [retryWorkHandler, hz]⟩

/-- The state in which an admitted apply issues its request. -/
def applying (env : Env) (wc : State) : State :=
  beginAttempt { wc with creds := deleteBySsid env.deleteBySsid wc.staged.ssid wc.creds }

/-- An apply is refused, or its connect request is accepted, or it fails at once. -/
theorem doApply_cases (env : Env) (wc : State) :
    ((doApply env wc).1 ≠ .ok ∧ (doApply env wc).2.2 = [] ∧
      ∃ creds, (doApply env wc).2.1 = { wc with creds := creds } ∧
        (env.setPersonal → creds = wc.creds)) ∨
    ((doApply env wc).1 = .ok ∧ 0 < wc.staged.ssid.length ∧ env.iface ∧ env.setPersonal ∧
      (doApply env wc).2 = (applying env wc,
        [.event .wifiCredRecv, .connect (connectReq (applying env wc).inflight) true])) ∨
    ((doApply env wc).1 = .ok ∧ 0 < wc.staged.ssid.length ∧ env.iface ∧ env.setPersonal ∧
      Failed env (applying env wc) (doApply env wc).2) := by
  by_cases hready : ¬ env.iface ∨ wc.staged.ssid.length = 0
  · refine Or.inl ?_
    have heq : doApply env wc = (.invalidState, wc, []) := by simp only [doApply, if_pos hready]
    rw [heq]
    exact ⟨ProvStatus.noConfusion, rfl, wc.creds, rfl, fun _ => rfl⟩
  · cases hset : env.setPersonal with
    | false =>
      refine Or.inl ?_
      have heq : doApply env wc = (.internalError,
          { wc with creds := deleteBySsid env.deleteBySsid wc.staged.ssid wc.creds }, []) := by
        simp only [doApply, if_neg hready, hset, Bool.false_eq_true, not_false_eq_true, if_true]
      rw [heq]
      exact ⟨ProvStatus.noConfusion, rfl, _, rfl, fun h => Bool.noConfusion h⟩
    | true =>
      obtain ⟨hiface, hlen⟩ := not_or.mp hready
      have hiface : env.iface := not_not.mp hiface
      have hssid : 0 < wc.staged.ssid.length := Nat.pos_of_ne_zero hlen
      have hallowed : ∀ ok outs, connectFromInflight env (applying env wc) = (ok, outs) →
          doApply env wc = (.ok, if ok then (applying env wc, .event .wifiCredRecv :: outs)
            else ((finalFailure env { applying env wc with lastConnStatus := .wrongPassword }).1,
              .event .wifiCredRecv :: outs ++ (finalFailure env
                { applying env wc with lastConnStatus := .wrongPassword }).2)) := by
        intro ok outs h
        rw [applying] at h ⊢
        simp only [doApply, if_neg hready, hset, h, not_true_eq_false, if_false]
        cases ok <;> rfl
      refine Or.inr ?_
      cases hci : env.connectIface with
      | false =>
        have heq := hallowed false [] (by simp [connectFromInflight, hci])
        rw [heq]
        exact Or.inr ⟨rfl, hssid, hiface, rfl, rfl, rfl, rfl, rfl, Nat.zero_le 1, rfl⟩
      | true =>
        have heq := hallowed env.connect
          [.connect (connectReq (applying env wc).inflight) env.connect]
          (by simp [connectFromInflight, hci])
        rw [heq]
        cases hconn : env.connect with
        | true => exact Or.inl ⟨rfl, hssid, hiface, rfl, rfl⟩
        | false =>
          exact Or.inr ⟨rfl, hssid, hiface, rfl, rfl, rfl, rfl, rfl, Nat.le_refl 1, rfl⟩

lemma doSet_frame (cfg : WifiCfg) (wc : State) :
    ∃ staged, (doSet cfg wc).2 = { wc with staged := staged } := by
  rw [doSet]
  split
  · exact ⟨wc.staged, rfl⟩
  · split
    · exact ⟨wc.staged, rfl⟩
    · exact ⟨_, rfl⟩

lemma step_retry (wc : State) (env : Env) :
    (¬ wc.retryWork ∧ step wc (.retry env) = (wc, [])) ∨
    (wc.retryWork ∧ step wc (.retry env) = retryWorkHandler env wc) := by
  cases h : wc.retryWork with
  | false => exact Or.inl ⟨by simp, by simp [step, h]⟩
  | true => exact Or.inr ⟨rfl, by simp [step, h]⟩

/-- Only a result that joins connects the station. -/
lemma step_connected {wc : State} {e : Ev} (h : (next wc e).staState = .connected) :
    wc.staState = .connected ∨
      ∃ env status, e = .result env status ∧ InFlight wc ∧ status.status = 0 := by
  cases e with
  | set cfg =>
    obtain ⟨staged, heq⟩ := doSet_frame cfg wc
    simp only [next, step, heq] at h
    exact Or.inl h
  | apply env =>
    rcases doApply_cases env wc with ⟨-, -, creds, heq, -⟩ | ⟨-, -, -, -, heq⟩ |
      ⟨-, -, -, -, hfail⟩
    · simp only [next, step, heq] at h
      exact Or.inl h
    · simp only [next, step, heq] at h
      exact absurd h StaState.noConfusion
    · exact absurd (hfail.state.symm.trans h) StaState.noConfusion
  | result env status =>
    rcases onConnectResult_cases env status wc with ⟨-, heq⟩ | ⟨hfly, hzero, -⟩ |
      ⟨-, -, -, -, heq⟩ | ⟨-, -, -, hfail, -⟩
    · simp only [next, step, heq] at h
      exact Or.inl h
    · exact Or.inr ⟨env, status, rfl, hfly, hzero⟩
    · simp only [next, step, heq] at h
      exact absurd h StaState.noConfusion
    · exact absurd (hfail.state.symm.trans h) StaState.noConfusion
  | retry env =>
    rcases step_retry wc env with ⟨-, heq⟩ | ⟨-, heq⟩
    · rw [next, heq] at h
      exact Or.inl h
    · rw [next, heq] at h
      rcases retryWorkHandler_cases env wc with ⟨-, heq⟩ | ⟨-, heq⟩ | ⟨-, hfail⟩
      · rw [heq] at h
        exact Or.inl h
      · rw [heq] at h
        exact Or.inl h
      · exact absurd (hfail.state.symm.trans h) StaState.noConfusion
  | reset | reprovision => exact absurd h StaState.noConfusion

/-- The station state, the in-flight snapshot and the attempt counter agree. -/
structure Consistent (wc : State) : Prop where
  connecting : wc.staState = .connecting ↔ InFlight wc
  limited : InFlight wc → wc.attemptsMax > 0 → wc.attemptsCompleted < wc.attemptsMax

lemma consistent_of_idle {wc : State} (ssid : wc.inflight.ssid = [])
    (state : wc.staState ≠ .connecting) : Consistent wc := by
  have hidle := (not_inFlight_iff wc).mpr ssid
  exact ⟨⟨fun h => absurd h state, fun h => absurd h hidle⟩, fun h => absurd h hidle⟩

lemma Failed.consistent {env : Env} {wc : State} {r : State × List Out}
    (h : Failed env wc r) : Consistent r.1 :=
  consistent_of_idle h.ssid (by rw [h.state]; exact StaState.noConfusion)

lemma applying_inFlight {env : Env} {wc : State} (h : 0 < wc.staged.ssid.length) :
    InFlight (applying env wc) := h

theorem doApply_consistent (env : Env) {wc : State} (h : Consistent wc) :
    Consistent (doApply env wc).2.1 := by
  rcases doApply_cases env wc with ⟨-, -, creds, heq, -⟩ | ⟨-, hssid, -, -, heq⟩ |
    ⟨-, -, -, -, hfail⟩
  · rw [heq]
    exact ⟨h.connecting, h.limited⟩
  · rw [heq]
    exact ⟨⟨fun _ => applying_inFlight hssid, fun _ => rfl⟩, fun _ hmax => hmax⟩
  · exact hfail.consistent

theorem onConnectResult_consistent (env : Env) (status : WifiStatus) {wc : State}
    (h : Consistent wc) : Consistent (onConnectResult env status wc).1 := by
  rcases onConnectResult_cases env status wc with ⟨-, heq⟩ | ⟨-, -, heq⟩ |
    ⟨hfly, -, -, hmore, heq⟩ | ⟨-, -, -, hfail, -⟩
  · rwa [heq]
  · rw [heq]
    exact consistent_of_idle rfl StaState.noConfusion
  · rw [heq]
    exact ⟨⟨fun _ => hfly, fun _ => rfl⟩, fun _ _ => hmore⟩
  · exact hfail.consistent

theorem retryWorkHandler_consistent (env : Env) {wc : State} (h : Consistent wc) :
    Consistent (retryWorkHandler env wc).1 := by
  rcases retryWorkHandler_cases env wc with ⟨-, heq⟩ | ⟨-, heq⟩ | ⟨-, hfail⟩
  · rw [heq]
    exact ⟨h.connecting, h.limited⟩
  · rw [heq]
    exact ⟨h.connecting, h.limited⟩
  · exact hfail.consistent

theorem step_consistent {wc : State} (h : Consistent wc) (e : Ev) : Consistent (next wc e) := by
  cases e with
  | set cfg =>
    obtain ⟨staged, heq⟩ := doSet_frame cfg wc
    simp only [next, step, heq]
    exact ⟨h.connecting, h.limited⟩
  | apply env => exact doApply_consistent env h
  | result env status => exact onConnectResult_consistent env status h
  | retry env =>
    rcases step_retry wc env with ⟨-, heq⟩ | ⟨-, heq⟩
    · rwa [next, heq]
    · rw [next, heq]
      exact retryWorkHandler_consistent env h
  | reset | reprovision => exact consistent_of_idle rfl StaState.noConfusion

/-- The state after initialisation over a credential store. -/
def start (attemptsMax : UInt32) (creds : List Credential) : State :=
  wifiConfigInit attemptsMax (State.zero creds)

theorem run_consistent (attemptsMax : UInt32) (creds : List Credential) (es : List Ev) :
    Consistent (es.foldl next (start attemptsMax creds)) :=
  foldl_invariant (I := Consistent) (fun _ e h => step_consistent h e)
    (consistent_of_idle rfl StaState.noConfusion) es

/-- `n` connect requests since the last apply. While an attempt is in flight each of them
but the first, and a scheduled one, is paid for by a completed attempt. -/
structure Budget (limit : UInt32) (n : Nat) (wc : State) : Prop where
  max : wc.attemptsMax = limit
  paid : InFlight wc → n + wc.retryWork.toNat ≤ 1 + wc.attemptsCompleted.toNat
  limited : InFlight wc → wc.attemptsMax > 0 → wc.attemptsCompleted < wc.attemptsMax
  unlimited : InFlight wc → wc.attemptsMax = 0 → wc.attemptsCompleted = 0
  total : n ≤ Nat.max 1 limit.toNat

lemma budget_of_idle {limit : UInt32} {n : Nat} {wc : State} (max : wc.attemptsMax = limit)
    (ssid : wc.inflight.ssid = []) (total : n ≤ Nat.max 1 limit.toNat) : Budget limit n wc := by
  have hidle := (not_inFlight_iff wc).mpr ssid
  exact ⟨max, fun h => absurd h hidle, fun h => absurd h hidle, fun h => absurd h hidle, total⟩

/-- In flight, a completed attempt leaves room for one more request. -/
lemma Budget.room {limit : UInt32} {n : Nat} {wc : State} (h : Budget limit n wc)
    (fly : InFlight wc) : 1 + wc.attemptsCompleted.toNat ≤ Nat.max 1 limit.toNat := by
  by_cases hmax : wc.attemptsMax = 0
  · rw [h.unlimited fly hmax]
    exact Nat.le_max_left 1 _
  · have hpos : wc.attemptsMax > 0 := UInt32.pos_iff_ne_zero.mpr hmax
    have hlt := UInt32.lt_iff_toNat_lt.mp (h.limited fly hpos)
    rw [h.max] at hlt
    exact Nat.le_trans (by omega) (Nat.le_max_right 1 _)

lemma toNat_succ_of_lt {a b : UInt32} (h : a < b) : (a + 1).toNat = a.toNat + 1 := by
  have hlt := UInt32.lt_iff_toNat_lt.mp h
  have hb := b.toNat_lt
  rw [UInt32.toNat_add]
  exact Nat.mod_eq_of_lt (by simp; omega)

theorem doApply_budget (env : Env) {wc : State} (ok : (doApply env wc).1 = .ok) :
    Budget wc.attemptsMax ((doApply env wc).2.2.countP isConnect) (doApply env wc).2.1 := by
  rcases doApply_cases env wc with ⟨hno, -⟩ | ⟨-, -, -, -, heq⟩ | ⟨-, -, -, -, hfail⟩
  · exact absurd ok hno
  · rw [heq]
    exact ⟨rfl, fun _ => Nat.le_refl 1, fun _ hmax => hmax, fun _ _ => rfl, Nat.le_max_left 1 _⟩
  · exact budget_of_idle hfail.max hfail.ssid (Nat.le_trans hfail.connects (Nat.le_max_left 1 _))

theorem onConnectResult_budget (env : Env) (status : WifiStatus) {limit : UInt32} {n : Nat}
    {wc : State} (h : Budget limit n wc) :
    Budget limit (n + (onConnectResult env status wc).2.countP isConnect)
      (onConnectResult env status wc).1 := by
  rcases onConnectResult_cases env status wc with ⟨-, heq⟩ | ⟨-, -, heq⟩ |
    ⟨hfly, -, hmax, hmore, heq⟩ | ⟨-, -, -, hfail, hcount⟩
  · rw [heq]
    exact h
  · rw [heq]
    exact budget_of_idle h.max rfl h.total
  · rw [heq]
    have hsucc := toNat_succ_of_lt (h.limited hfly hmax)
    have hpaid := h.paid hfly
    refine ⟨h.max, fun _ => ?_, fun _ _ => hmore, fun _ hz => ?_, h.total⟩
    · change n + 1 ≤ 1 + (wc.attemptsCompleted + 1).toNat
      omega
    · exact absurd hz (UInt32.pos_iff_ne_zero.mp hmax)
  · rw [hcount]
    exact budget_of_idle (hfail.max.trans h.max) hfail.ssid h.total

theorem retryWorkHandler_budget (env : Env) {limit : UInt32} {n : Nat} {wc : State}
    (h : Budget limit n wc) (scheduled : wc.retryWork) :
    Budget limit (n + (retryWorkHandler env wc).2.countP isConnect)
      (retryWorkHandler env wc).1 := by
  rcases retryWorkHandler_cases env wc with ⟨hidle, heq⟩ | ⟨hfly, heq⟩ | ⟨hfly, hfail⟩
  · rw [heq]
    exact budget_of_idle h.max ((not_inFlight_iff wc).mp hidle) h.total
  · rw [heq]
    -- The scheduled request was counted before it is issued.
    have hpaid := h.paid hfly
    rw [scheduled] at hpaid
    exact ⟨h.max, fun _ => hpaid, h.limited, h.unlimited, Nat.le_trans hpaid (h.room hfly)⟩
  · have hpaid := h.paid hfly
    rw [scheduled] at hpaid
    refine budget_of_idle (hfail.max.trans h.max) hfail.ssid (Nat.le_trans ?_ (h.room hfly))
    exact Nat.le_trans (Nat.add_le_add_left hfail.connects n) hpaid

/-- Every step that is not an apply keeps the budget. -/
theorem step_budget {limit : UInt32} {n : Nat} {wc : State} {e : Ev} (h : Budget limit n wc)
    (other : ∀ env, e ≠ .apply env) :
    Budget limit (n + (step wc e).2.countP isConnect) (step wc e).1 := by
  cases e with
  | set cfg =>
    obtain ⟨staged, heq⟩ := doSet_frame cfg wc
    simp only [step, heq]
    exact ⟨h.max, h.paid, h.limited, h.unlimited, h.total⟩
  | apply env => exact absurd rfl (other env)
  | result env status => exact onConnectResult_budget env status h
  | retry env =>
    rcases step_retry wc env with ⟨-, heq⟩ | ⟨hscheduled, heq⟩
    · rw [heq]
      exact h
    · rw [heq]
      exact retryWorkHandler_budget env h hscheduled
  | reset | reprovision => exact budget_of_idle h.max rfl h.total

lemma next_attemptsMax (wc : State) (e : Ev) : (next wc e).attemptsMax = wc.attemptsMax := by
  cases e with
  | set cfg =>
    obtain ⟨staged, heq⟩ := doSet_frame cfg wc
    simp only [next, step, heq]
  | apply env =>
    rcases doApply_cases env wc with ⟨-, -, creds, heq, -⟩ | ⟨-, -, -, -, heq⟩ |
      ⟨-, -, -, -, hfail⟩
    · simp only [next, step, heq]
    · simp only [next, step, heq, applying, beginAttempt]
    · exact hfail.max
  | result env status =>
    rcases onConnectResult_cases env status wc with ⟨-, heq⟩ | ⟨-, -, heq⟩ |
      ⟨-, -, -, -, heq⟩ | ⟨-, -, -, hfail, -⟩
    · simp only [next, step, heq]
    · simp only [next, step, heq, clearInflight]
    · simp only [next, step, heq]
    · exact hfail.max
  | retry env =>
    rcases step_retry wc env with ⟨-, heq⟩ | ⟨-, heq⟩
    · simp only [next, heq]
    · rcases retryWorkHandler_cases env wc with ⟨-, hcase⟩ | ⟨-, hcase⟩ | ⟨-, hfail⟩
      · simp only [next, heq, hcase]
      · simp only [next, heq, hcase]
      · rw [next, heq]
        exact hfail.max
  | reset => rfl
  | reprovision deleted => rfl

lemma run_attemptsMax (attemptsMax : UInt32) (creds : List Credential) (es : List Ev) :
    (es.foldl next (start attemptsMax creds)).attemptsMax = attemptsMax :=
  foldl_invariant (I := fun wc => wc.attemptsMax = attemptsMax)
    (fun wc e h => (next_attemptsMax wc e).trans h) rfl es

/-- In every run from initialisation the station is connecting exactly while an attempt is
in flight, a connecting station has attempts left, and from one successful apply up to the
next apply at most `max 1 attemptsMax` connect requests are issued. -/
theorem wifi_state_machine (attemptsMax : UInt32) (creds : List Credential) (es : List Ev) :
    let wc := es.foldl next (start attemptsMax creds)
    (wc.staState = .connecting ↔ wc.inflight.ssid.length > 0) ∧
    (wc.staState = .connecting → wc.attemptsMax > 0 →
      wc.attemptsCompleted < wc.attemptsMax) ∧
    ∀ env, (doApply env wc).1 = .ok →
      ∀ rest : List Ev, (∀ e ∈ rest, ∀ env', e ≠ .apply env') →
      (outputs step wc (.apply env :: rest)).countP isConnect ≤
        Nat.max 1 attemptsMax.toNat := by
  intro wc
  have hcons : Consistent wc := run_consistent attemptsMax creds es
  refine ⟨hcons.connecting, fun hconn => hcons.limited (hcons.connecting.mp hconn), ?_⟩
  intro env hok rest hrest
  have hstart := doApply_budget env hok
  rw [run_attemptsMax attemptsMax creds es] at hstart
  have hrun := count_outputs (p := isConnect) (A := fun e => ∀ env', e ≠ .apply env')
    (fun _ _ _ hother h => step_budget h hother) hstart rest hrest
  rw [outputs, List.countP_append]
  exact hrun.total

/-- With two attempts, a failed first connect and the retry use up the bound. -/
theorem wifi_state_machine_two_attempts :
    let home : WifiCfg := ⟨[104], none, none, none⟩
    let wc := next (start 2 []) (.set home)
    (doApply {} wc).1 = .ok ∧
    (outputs step wc [.apply {}, .result {} ⟨-1, .fail⟩, .retry {}]).countP isConnect ≤ 2 ∧
    (outputs step wc [.apply {}, .result {} ⟨-1, .fail⟩, .retry {}]).countP isConnect = 2 := by
  refine ⟨by decide, ?_, by decide⟩
  exact (wifi_state_machine 2 [] [.set ⟨[104], none, none, none⟩]).2.2 {} (by decide)
    [.result {} ⟨-1, .fail⟩, .retry {}] (by simp)

end WifiRuns
