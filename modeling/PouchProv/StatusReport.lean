import PouchProv.WifiRequests

/-!
# The connection that a status response reports

A status response is put together from three places: the driver's answer, the
staged parameters, and an address buffer that is kept between requests. `Seen`
adds to the config endpoint what it should report, the network whose connect
result was the last to succeed.
-/

namespace StatusReport

open Bytes Cbor Codec Handlers ProvTypes Status Runs
open WifiConfig hiding Ev next step
open WifiRequests (Query Ev action step_of_action step_of_none step_staged Flies
  onConnectResult_connectsTo retryWorkHandler_connectsTo zcbor setReq applyReq statusReq)
open Requests (answer_ok_iff encodeProvStatus_length)
open WifiRuns (InFlight doApply_cases onConnectResult_cases retryWorkHandler_cases step_connected
  step_retry)

structure Seen where
  wifi : Wifi
  joined : Bytes

/-- The event is a successful result for the attempt in flight. -/
def joins (w : Wifi) : Ev → Bool
  | .result _ status => decide (InFlight w.wc ∧ status.status = 0)
  | _ => false

def next (z : Zcbor) (s : Seen) (e : Ev) : Seen where
  wifi := WifiRequests.next z s.wifi e
  joined := if joins s.wifi e then s.wifi.wc.inflight.ssid else s.joined

/-- The endpoint after initialisation, over a credential store. -/
def start (attemptsMax : UInt32) (creds : List Credential) : Seen :=
  ⟨⟨WifiRuns.start attemptsMax creds, [0, 0, 0, 0]⟩, []⟩

/-- The lengths of the two network names of the state machine. -/
structure Named (wc : State) : Prop where
  staged : wc.staged.ssid.length ≤ ssidMax
  inflight : wc.inflight.ssid.length ≤ ssidMax

/-- All that a status response is made of has the length that the schema asks for. -/
structure Sized (s : Seen) : Prop where
  named : Named s.wifi.wc
  ip4 : s.wifi.ip4.length = 4
  joined : s.wifi.wc.staState = .connected → 1 ≤ s.joined.length ∧ s.joined.length ≤ ssidMax

lemma doSet_named {wc : State} (h : Named wc) (cfg : WifiCfg) : Named (doSet cfg wc).2 := by
  rw [doSet]
  split
  · exact h
  · rename_i hssid
    split
    · exact h
    · exact ⟨Nat.le_of_not_lt fun hlong => hssid (Or.inr hlong), h.inflight⟩

lemma doApply_staged_eq (env : Env) (wc : State) : (doApply env wc).2.1.staged = wc.staged := by
  simp only [doApply]
  repeat' split
  all_goals rfl

/-- A step that starts no attempt keeps the names or clears them. -/
lemma named_of_flies {wc wc' : State} (h : Named wc)
    (staged : wc'.staged = wc.staged ∨ wc'.staged.ssid = []) (flies : Flies wc.inflight wc') :
    Named wc' := by
  constructor
  · rcases staged with heq | heq
    · rw [heq]
      exact h.staged
    · rw [heq]
      exact Nat.zero_le _
  · rcases flies with heq | heq
    · rw [heq]
      exact h.inflight
    · rw [heq]
      exact Nat.zero_le _

lemma step_named {wc : State} (h : Named wc) (ev : WifiConfig.Ev) :
    Named (WifiConfig.step wc ev).1 := by
  cases ev with
  | set cfg => exact doSet_named h cfg
  | apply env =>
    refine ⟨(doApply_staged_eq env wc).symm ▸ h.staged, ?_⟩
    rcases doApply_cases env wc with ⟨-, -, creds, heq, -⟩ | ⟨-, -, -, -, heq⟩ |
      ⟨-, -, -, -, hfail⟩
    · simp only [WifiConfig.step, heq]
      exact h.inflight
    · simp only [WifiConfig.step, heq]
      exact h.staged
    · simp only [WifiConfig.step, hfail.ssid]
      exact Nat.zero_le _
  | result env status =>
    exact named_of_flies h (step_staged (by simp) (by simp))
      (onConnectResult_connectsTo (Or.inl rfl)).1
  | retry env =>
    refine named_of_flies h (step_staged (by simp) (by simp)) ?_
    rcases step_retry wc env with ⟨-, heq⟩ | ⟨-, heq⟩
    · rw [heq]
      exact Or.inl rfl
    · rw [heq]
      exact (retryWorkHandler_connectsTo (Or.inl rfl)).1
  | reset | reprovision => exact ⟨Nat.zero_le _, Nat.zero_le _⟩

/-- The interface's address, or 0.0.0.0. -/
def current (q : Query) : Bytes :=
  if q.iface then (q.addr.map Subtype.val).getD [0, 0, 0, 0] else [0, 0, 0, 0]

/-- The address buffer after the request. -/
def buffer (q : Query) (w : Wifi) : Bytes :=
  if q.iface then (q.addr.map Subtype.val).getD w.ip4 else w.ip4

/-- The network name that the response shows. -/
def shown (q : Query) (w : Wifi) : Bytes :=
  if q.iface then (q.status.map IfaceStatus.read).getD w.wc.staged.ssid else w.wc.staged.ssid

def signal (q : Query) : Option Int := if q.iface then q.status.map IfaceStatus.rssi else none

lemma buffer_length {q : Query} {w : Wifi} (h : w.ip4.length = 4) : (buffer q w).length = 4 := by
  rw [buffer]
  split
  · cases haddr : q.addr with
    | none => simpa using h
    | some addr => simpa using addr.property
  · exact h

lemma current_length (q : Query) : (current q).length = 4 := by
  rw [current]
  split
  · cases haddr : q.addr with
    | none => rfl
    | some addr => simpa using addr.property
  · rfl

lemma fillConnected_eq (q : Query) (w : Wifi) :
    fillConnected q.env w.wc w.ip4 =
      (.connectedInfo (buffer q w) (shown q w) (signal q), buffer q w) := by
  have htake (addr : { b : Bytes // b.length = 4 }) : addr.val.take 4 = addr.val :=
    List.take_of_length_le (Nat.le_of_eq addr.property)
  rw [fillConnected, Query.env, buffer, shown, signal]
  cases q.iface <;> cases q.status <;> cases q.addr <;> simp [htake]

/-- The buffer holds the current address unless an old one is left over in it. -/
lemma buffer_eq_current_iff (q : Query) (w : Wifi) :
    buffer q w = current q ↔ (q.iface ∧ q.addr.isSome) ∨ w.ip4 = [0, 0, 0, 0] := by
  rw [buffer, current]
  cases q.iface <;> cases q.addr <;> simp

/-- A request leaves the address buffer or fills it. -/
lemma next_ip4_length {z : Zcbor} {w : Wifi} (h : w.ip4.length = 4) (e : Ev) :
    (WifiRequests.next z w e).ip4.length = 4 := by
  cases e with
  | request req q env =>
    simp only [WifiRequests.next, WifiRequests.step, handleConfig]
    cases decodeWith z decodeConfigReq req with
    | none => exact h
    | some r =>
      cases r with
      | getStatus =>
        simp only [encodeStatus]
        split
        · rw [fillConnected_eq]
          exact buffer_length h
        · split <;> exact h
      | set cfg => exact h
      | apply => exact h
  | result env status => exact h
  | retry env => exact h
  | reset => exact h
  | reprovision deleted => exact h

lemma joins_of_result {z : Zcbor} {w : Wifi} {e : Ev} {env : Env} {status : WifiStatus}
    (h : action z e = some (.result env status)) (fly : InFlight w.wc)
    (zero : status.status = 0) : joins w e = true := by
  cases e with
  | request req q env =>
    rw [action] at h
    split at h <;> simp at h
  | result env' status' =>
    obtain ⟨-, rfl⟩ := WifiConfig.Ev.result.inj (Option.some.inj h)
    exact decide_eq_true ⟨fly, zero⟩
  | retry env => simp [action] at h
  | reset => simp [action] at h
  | reprovision deleted => simp [action] at h

/-- A network that was joined was in flight, and has a name. -/
lemma joined_of_joins {z : Zcbor} {s : Seen} {e : Ev} (h : joins s.wifi e = true)
    (named : Named s.wifi.wc) :
    1 ≤ (next z s e).joined.length ∧ (next z s e).joined.length ≤ ssidMax := by
  simp only [next, h, if_true]
  cases e with
  | result env status => exact ⟨(of_decide_eq_true h).1, named.inflight⟩
  | request req q env => exact absurd h Bool.noConfusion
  | retry env => exact absurd h Bool.noConfusion
  | reset => exact absurd h Bool.noConfusion
  | reprovision deleted => exact absurd h Bool.noConfusion

theorem next_sized {z : Zcbor} {s : Seen} (h : Sized s) (e : Ev) : Sized (next z s e) := by
  refine ⟨WifiRequests.next_keeps h.named fun ev _ => step_named h.named ev,
    next_ip4_length h.ip4 e, fun hconn => ?_⟩
  cases hjoins : joins s.wifi e with
  | true => exact joined_of_joins hjoins h.named
  | false =>
    simp only [next, hjoins, Bool.false_eq_true, if_false]
    refine h.joined ?_
    cases hact : action z e with
    | none =>
      rw [← (step_of_none (z := z) (w := s.wifi) hact).1]
      exact hconn
    | some ev =>
      have hstep := (step_of_action (z := z) (w := s.wifi) hact).1
      rcases step_connected (hstep ▸ hconn) with hbefore | ⟨env, status, rfl, hfly, hzero⟩
      · exact hbefore
      · exact absurd (joins_of_result hact hfly hzero) (by simp [hjoins])

theorem run_sized (z : Zcbor) (attemptsMax : UInt32) (creds : List Credential) (es : List Ev) :
    Sized (es.foldl (next z) (start attemptsMax creds)) := by
  have hstart : Sized (start attemptsMax creds) :=
    ⟨⟨Nat.zero_le _, Nat.zero_le _⟩, rfl, fun h => absurd h StaState.noConfusion⟩
  exact foldl_invariant (I := Sized) (fun _ e h => next_sized h e) hstart es

/-- The response has a status of ok and the station state; of a connected station it shows
the network that was joined and the current address. -/
def Truthful (s : Seen) (q : Query) (rsp : Except Errno Bytes) : Prop :=
  ∃ detail item, encodeConfigRsp (.statusRsp .ok s.wifi.wc.staState detail) = some item ∧
    rsp = .ok (encode item) ∧
    (s.wifi.wc.staState = .connected →
      ∃ rssi, detail = some (.connectedInfo (current q) s.joined rssi))

/-- The interface answers with the network that was joined, and its answer has not been
overwritten by another; without an answer that network is still the staged one; and there is
an address, or none has been reported before. -/
structure UpToDate (s : Seen) (q : Query) : Prop where
  answered : ∀ status, q.iface = true → q.status = some status → status.read = s.joined
  unanswered : q.iface = false ∨ q.status = none → s.wifi.wc.staged.ssid = s.joined
  address : (q.iface ∧ q.addr.isSome) ∨ s.wifi.ip4 = [0, 0, 0, 0]

lemma shown_eq_joined_iff (s : Seen) (q : Query) :
    shown q s.wifi = s.joined ↔
      (∀ status, q.iface = true → q.status = some status → status.read = s.joined) ∧
      (q.iface = false ∨ q.status = none → s.wifi.wc.staged.ssid = s.joined) := by
  rw [shown]
  cases q.iface <;> cases q.status <;> simp

lemma upToDate_iff (s : Seen) (q : Query) :
    UpToDate s q ↔ shown q s.wifi = s.joined ∧ buffer q s.wifi = current q := by
  rw [shown_eq_joined_iff, buffer_eq_current_iff]
  exact ⟨fun h => ⟨⟨h.answered, h.unanswered⟩, h.address⟩, fun h => ⟨h.1.1, h.1.2, h.2⟩⟩

/-- What the encoder makes of a connected station. -/
def connectedRsp (ip4 ssid : Bytes) (rssi : Option Int) : Option Item :=
  encodeConfigRsp (.statusRsp .ok .connected (some (.connectedInfo ip4 ssid rssi)))

lemma i32_length_le (i : Int) : (encode (i32 i)).length ≤ 5 := by
  rw [i32]
  split
  · exact head_length_le 0 (Nat.mod_lt _ (by decide))
  · exact head_length_le 1 (Nat.mod_lt _ (by decide))

/-- With lengths that the schema admits the response is encoded and fits. -/
lemma connectedRsp_fits {ip4 ssid : Bytes} (rssi : Option Int) (hip4 : ip4.length = 4)
    (hssid : 1 ≤ ssid.length ∧ ssid.length ≤ ssidMax) :
    ∃ x, connectedRsp ip4 ssid rssi = some x ∧ (encode x).length ≤ msgMax := by
  have hadmitted : ip4.length = 4 ∧ 1 ≤ ssid.length ∧ ssid.length ≤ 32 := ⟨hip4, hssid⟩
  have hname : (head 2 ssid.length).length ≤ 5 :=
    head_length_le 2 (Nat.lt_of_le_of_lt hssid.2 (by decide))
  have hmax : ssid.length ≤ 32 := hssid.2
  simp only [connectedRsp, encodeConfigRsp, encodeConfigDetail, if_pos hadmitted, Option.map_some]
  refine ⟨_, rfl, ?_⟩
  have hkeys : (encode (text "ip4")).length = 4 ∧ (encode (text "ssid")).length = 5 ∧
      (encode (text "rssi")).length = 5 := by decide
  have hzero : (head 0 0).length = 1 ∧ (head 2 4).length = 1 ∧ (head 4 4).length = 1 := by decide
  have hsta : staCode .connected = 0 := rfl
  cases rssi with
  | none =>
    have hmap : (head 5 2).length = 1 := rfl
    simp only [encode, encodeAll, List.append_nil, List.length_append, List.length_cons,
      List.length_nil, encodeProvStatus_length, hsta, hkeys, hzero, hip4, hmap, msgMax]
    omega
  | some i =>
    have hmap : (head 5 3).length = 1 := rfl
    have hrssi := i32_length_le i
    simp only [encode, encodeAll, List.cons_append, List.nil_append, List.append_nil,
      List.length_append, List.length_cons, List.length_nil, encodeProvStatus_length, hsta, hkeys,
      hzero, hip4, hmap, msgMax]
    omega

/-- The response shows its address and its network. -/
lemma connectedRsp_inj {ip4 ip4' ssid ssid' : Bytes} {rssi rssi' : Option Int} {x y : Item}
    (hx : connectedRsp ip4 ssid rssi = some x) (hy : connectedRsp ip4' ssid' rssi' = some y)
    (short : (encode x).length ≤ msgMax) (same : encode x = encode y) :
    ip4 = ip4' ∧ ssid = ssid' := by
  have hxy : x = y := encode_inj (encodeConfigRsp_response hx).2 (encodeConfigRsp_response hy).2
    (Nat.lt_of_le_of_lt short (by decide)) same
  subst hxy
  simp only [connectedRsp, encodeConfigRsp, encodeConfigDetail] at hx hy
  split at hx
  · split at hy
    · simp only [Option.map_some, Option.some.injEq] at hx hy
      have hdetail := hx.trans hy.symm
      simp only [Item.array.injEq, Item.map.injEq, List.cons_append, List.cons.injEq,
        Item.bstr.injEq] at hdetail
      exact ⟨hdetail.2.2.2.1.2.1, hdetail.2.2.2.1.2.2.2.1⟩
    · simp at hy
  · simp at hx

lemma encodeStatus_connected (q : Query) {w : Wifi} (h : w.wc.staState = .connected) :
    (encodeStatus q.env w).1 = answer (connectedRsp (buffer q w) (shown q w) (signal q)) := by
  simp only [encodeStatus, h, if_true, fillConnected_eq, connectedRsp]

/-- Of a station that is not connected the response says so. -/
lemma encodeStatus_other (q : Query) {w : Wifi} (h : w.wc.staState ≠ .connected) :
    ∃ detail item, encodeConfigRsp (.statusRsp .ok w.wc.staState detail) = some item ∧
      (encodeStatus q.env w).1 = .ok (encode item) := by
  simp only [encodeStatus, if_neg h]
  split
  · refine ⟨some (.failReason w.wc.failReason), _, rfl, ?_⟩
    cases w.wc.staState <;> cases w.wc.failReason <;> rfl
  · refine ⟨none, _, rfl, ?_⟩
    cases w.wc.staState <;> rfl

lemma encodeStatus_truthful_iff {s : Seen} (sized : Sized s) (q : Query) :
    Truthful s q (encodeStatus q.env s.wifi).1 ↔
      (s.wifi.wc.staState = .connected → UpToDate s q) := by
  by_cases hconn : s.wifi.wc.staState = .connected
  · rw [encodeStatus_connected q hconn]
    constructor
    · rintro ⟨detail, item, hitem, hanswer, hdetail⟩ -
      obtain ⟨rssi, rfl⟩ := hdetail hconn
      rw [hconn] at hitem
      obtain ⟨x, hx, hfits, hsame⟩ := answer_ok_iff.mp hanswer
      obtain ⟨hip4, hssid⟩ := connectedRsp_inj hx hitem hfits hsame.symm
      exact (upToDate_iff s q).mpr ⟨hssid, hip4⟩
    · intro h
      obtain ⟨hssid, hip4⟩ := (upToDate_iff s q).mp (h hconn)
      obtain ⟨x, hx, hfits⟩ := connectedRsp_fits (signal q) (current_length q) (sized.joined hconn)
      rw [hip4, hssid]
      refine ⟨some (.connectedInfo (current q) s.joined (signal q)), x, hconn.symm ▸ hx, ?_,
        fun _ => ⟨_, rfl⟩⟩
      exact answer_ok_iff.mpr ⟨x, hx, hfits, rfl⟩
  · obtain ⟨detail, item, hitem, hanswer⟩ := encodeStatus_other q hconn
    exact ⟨fun _ h => absurd h hconn,
      fun _ => ⟨detail, item, hitem, hanswer, fun h => absurd h hconn⟩⟩

lemma handleConfig_getStatus {z : Zcbor} {req : Bytes}
    (isStatus : decodeWith z decodeConfigReq req = some .getStatus) (status : StatusEnv)
    (env : Env) (w : Wifi) : (handleConfig z status env w req).1 = (encodeStatus status w).1 := by
  simp only [handleConfig, isStatus]

/-- In every state that can be reached a status request is answered with the station state,
and for a connected station with the network whose connect result succeeded and the
current address, exactly when the interface names that network (or, where it does not answer,
the staged parameters do) and there is a current address or none was reported before. -/
theorem status_truthful_iff (z : Zcbor) (attemptsMax : UInt32) (creds : List Credential)
    (es : List Ev) (q : Query) (env : Env) {req : Bytes}
    (isStatus : decodeWith z decodeConfigReq req = some .getStatus) :
    let s := es.foldl (next z) (start attemptsMax creds)
    Truthful s q (handleConfig z q.env env s.wifi req).1 ↔
      (s.wifi.wc.staState = .connected → UpToDate s q) := by
  intro s
  rw [handleConfig_getStatus isStatus]
  exact encodeStatus_truthful_iff (run_sized z attemptsMax creds es) q

/-- The station joins the network `a`. -/
def joinA : List Ev :=
  [.request (setReq "a" "passphrase" []) {} {}, .request applyReq {} {},
    .result {} ⟨0, .success⟩]

/-- The interface answers with the network `a`, and perhaps with the address 10.0.0.2. -/
def onA (addr : Bool) : Query where
  status := some ⟨[0x61], -40, none⟩
  addr := if addr then some ⟨[10, 0, 0, 2], rfl⟩ else none

lemma decode_statusReq : decodeWith zcbor decodeConfigReq statusReq = some .getStatus := by
  decide +kernel

theorem status_truthful_joined :
    Truthful (joinA.foldl (next zcbor) (start 3 [])) (onA true)
      (handleConfig zcbor (onA true).env {}
        (joinA.foldl (next zcbor) (start 3 [])).wifi statusReq).1 :=
  (status_truthful_iff zcbor 3 [] joinA (onA true) {} decode_statusReq).mpr
    fun _ => ⟨fun status _ h => by cases h; decide +kernel, fun h => by simp [onA] at h,
      Or.inl ⟨rfl, rfl⟩⟩

/-- A network that is only staged is shown as joined when the interface does not answer; an
address that was lost is shown still; and of an interface that is not associated the request
fails. -/
theorem status_not_truthful :
    let staged := (joinA ++ [Ev.request (setReq "b" "passphrase" []) {} {}]).foldl (next zcbor)
      (start 3 [])
    let lost := (joinA ++ [Ev.request statusReq (onA true) {}]).foldl (next zcbor) (start 3 [])
    let free : Query := { status := some ⟨[], 0, none⟩ }
    staged.wifi.wc.staState = .connected ∧ staged.joined = [0x61] ∧
    lost.wifi.wc.staState = .connected ∧
    ((handleConfig zcbor (Query.env {}) {} staged.wifi statusReq).1 =
        .ok (encode (.array [.uint 0, .uint 0, .uint 0, .map [text "ip4", .bstr [0, 0, 0, 0],
          text "ssid", .bstr [0x62]]])) ∧
      ¬ Truthful staged {} (handleConfig zcbor (Query.env {}) {} staged.wifi statusReq).1) ∧
    ((handleConfig zcbor (onA false).env {} lost.wifi statusReq).1 =
        .ok (encode (.array [.uint 0, .uint 0, .uint 0, .map [text "ip4", .bstr [10, 0, 0, 2],
          text "ssid", .bstr [0x61], text "rssi", .nint 39]])) ∧
      ¬ Truthful lost (onA false)
        (handleConfig zcbor (onA false).env {} lost.wifi statusReq).1) ∧
    (handleConfig zcbor free.env {} staged.wifi statusReq).1 = .error .enomem := by
  intro staged lost free
  have hstaged : staged.wifi.wc.staState = .connected := by decide +kernel
  have hlost : lost.wifi.wc.staState = .connected := by decide +kernel
  refine ⟨hstaged, by decide +kernel, hlost, ⟨by decide +kernel, ?_⟩, ⟨by decide +kernel, ?_⟩,
    by decide +kernel⟩
  · rw [handleConfig_getStatus decode_statusReq,
      encodeStatus_truthful_iff (run_sized zcbor 3 [] _) {}]
    intro h
    exact absurd ((h hstaged).unanswered (Or.inr rfl)) (by decide +kernel)
  · rw [handleConfig_getStatus decode_statusReq,
      encodeStatus_truthful_iff (run_sized zcbor 3 [] _) (onA false)]
    intro h
    rcases (h hlost).address with haddr | haddr
    · exact absurd haddr.2 (by decide)
    · exact absurd haddr (by decide +kernel)

end StatusReport
