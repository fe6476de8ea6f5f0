import PouchProv.ClientFlows
import PouchProv.StatusReport

/-!
# The configuration of Wi-Fi by the clients

What `configureWifi` reports against what becomes of the station. Between two polls
the driver and the retry timer may move the station (`Moves`); a status that the
client takes for settled is the state that the station ends in.
-/

namespace ClientFlows

open Cbor Codec Handlers Auth Device ProvTypes Status Calls
open ClientRequests (Request)
open ClientResponses (WifiStatus)
open DeviceResponses (Response ShowsDetail)
open Flow (Ends)
open ForwardCompat (Client)
open ScanFlow (Number)
open WifiConfig (doSet doApply onConnectResult retryWorkHandler)

/-- What a result of the driver or the retry timer can do to the station. -/
inductive Moves (wc : WifiConfig.State) : WifiConfig.State → Prop where
  | waits (last : WifiConfig.ConnStatus) (completed : UInt32) (retry : Bool) (sta : StaState)
      (state : sta = wc.staState ∨ WifiRuns.InFlight wc ∧ sta = .connecting) :
      Moves wc { wc with
        lastConnStatus := last, attemptsCompleted := completed, retryWork := retry,
        staState := sta }
  | joins (fly : WifiRuns.InFlight wc) :
      Moves wc (WifiConfig.clearInflight { wc with staState := .connected })
  | fails (fly : WifiRuns.InFlight wc) (env : WifiConfig.Env) (last : WifiConfig.ConnStatus)
      (completed : UInt32) (retry : Bool) :
      Moves wc (WifiConfig.finalFailure env { wc with
        lastConnStatus := last, attemptsCompleted := completed, retryWork := retry }).1

lemma onConnectResult_moves (env : WifiConfig.Env) (status : WifiConfig.WifiStatus)
    (wc : WifiConfig.State) : Moves wc (onConnectResult env status wc).1 := by
  by_cases hfly : wc.inflight.ssid.length = 0
  · rw [onConnectResult, if_pos hfly]
    exact .waits _ _ _ _ (.inl rfl)
  · have hfly' : WifiRuns.InFlight wc := Nat.pos_of_ne_zero hfly
    rw [onConnectResult, if_neg hfly]
    split
    · exact .joins hfly'
    · dsimp only
      split
      · split
        · exact .waits _ _ _ _ (.inr ⟨hfly', rfl⟩)
        · exact .fails hfly' env _ _ _
      · exact .fails hfly' env _ _ _

lemma retryWorkHandler_moves (env : WifiConfig.Env) (wc : WifiConfig.State) :
    Moves wc (retryWorkHandler env wc).1 := by
  by_cases hfly : wc.inflight.ssid.length = 0
  · simp only [retryWorkHandler, if_pos hfly]
    exact .waits _ _ _ _ (.inl rfl)
  · have hfly' : WifiRuns.InFlight wc := Nat.pos_of_ne_zero hfly
    simp only [retryWorkHandler, if_neg hfly]
    split
    · exact .waits _ _ _ _ (.inl rfl)
    · exact .fails hfly' env _ _ _

lemma stable_of_moves {station : WifiConfig.State → Prop}
    (h : ∀ wc wc', Moves wc wc' → station wc → station wc') : Stable station := by
  intro wc hwc
  exact ⟨fun env status => h _ _ (onConnectResult_moves env status wc) hwc,
    fun env => h _ _ (retryWorkHandler_moves env wc) hwc⟩

/-- The entry of the credential store for a network. -/
def credential (ssid : Bytes) (password : Option Bytes) : WifiConfig.Credential where
  ssid := ssid
  security := if (password.getD []).length > 0 then .psk else .none
  bssid := none
  pass := password.getD []
  channel := 0

/-- The parameters of the network are staged. -/
def Configured (ssid : Bytes) (password : Option Bytes) (wc : WifiConfig.State) : Prop :=
  WifiConfig.credentialOf wc.staged = credential ssid password

lemma configured_stable (ssid : Bytes) (password : Option Bytes) :
    Stable (Configured ssid password) := by
  refine stable_of_moves fun wc wc' moves h => ?_
  cases moves with
  | waits last completed retry sta state => exact h
  | joins fly => exact h
  | fails fly env last completed retry => exact h

/-- An attempt to join the network: it is going on or over, and unless it has failed the network
is stored. -/
structure Attempt (ssid : Bytes) (password : Option Bytes) (wc : WifiConfig.State) : Prop where
  staged : wc.staged.ssid = ssid
  state : wc.staState = .connecting ∧ wc.inflight.ssid = ssid ∨
    (wc.staState = .connected ∨ wc.staState = .failed) ∧ wc.inflight.ssid = []
  stored : wc.staState ≠ .failed → credential ssid password ∈ wc.creds

lemma attempt_stable (ssid : Bytes) (password : Option Bytes) :
    Stable (Attempt ssid password) := by
  refine stable_of_moves fun wc wc' moves h => ?_
  have hconnecting : WifiRuns.InFlight wc → wc.staState = .connecting := by
    intro fly
    rcases h.state with ⟨hstate, -⟩ | ⟨-, hidle⟩
    · exact hstate
    · exact absurd fly ((WifiRuns.not_inFlight_iff wc).mpr hidle)
  cases moves with
  | waits last completed retry sta state =>
    have hsame : sta = wc.staState := by
      rcases state with hsame | ⟨hfly, rfl⟩
      · exact hsame
      · exact (hconnecting hfly).symm
    rw [hsame]
    exact ⟨h.staged, h.state, h.stored⟩
  | joins fly =>
    have hstored := h.stored (by rw [hconnecting fly]; exact StaState.noConfusion)
    exact ⟨h.staged, .inr ⟨.inl rfl, rfl⟩, fun _ => hstored⟩
  | fails fly env last completed retry =>
    exact ⟨h.staged, .inr ⟨.inr rfl, rfl⟩, fun hne => absurd rfl hne⟩

/-- The attempt is over. -/
structure Over (ssid : Bytes) (password : Option Bytes) (sta : StaState) (reason : FailReason)
    (wc : WifiConfig.State) : Prop where
  state : wc.staState = sta
  idle : wc.inflight.ssid = []
  reason : wc.failReason = reason
  stored : sta = .connected → credential ssid password ∈ wc.creds

lemma over_stable (ssid : Bytes) (password : Option Bytes) (sta : StaState)
    (reason : FailReason) : Stable (Over ssid password sta reason) := by
  refine stable_of_moves fun wc wc' moves h => ?_
  have hidle := (WifiRuns.not_inFlight_iff wc).mpr h.idle
  cases moves with
  | waits last completed retry sta' state =>
    rcases state with rfl | ⟨hfly, -⟩
    · exact ⟨h.state, h.idle, h.reason, h.stored⟩
    · exact absurd hfly hidle
  | joins fly => exact absurd fly hidle
  | fails fly env last completed retry => exact absurd fly hidle

/-- The network can be configured. -/
structure Network (ssid : Bytes) (password : Option Bytes) : Prop where
  ssid : 1 ≤ ssid.length ∧ ssid.length ≤ 32
  password : ∀ p ∈ password, p.length ≤ 63

/-- The platform of the device stores what it is given, has an interface, and reports addresses
and names of the right sizes. -/
structure Willing (p : Peer) : Prop where
  saves : ∀ n k, (p.world n).save k
  iface : ∀ n, (p.world n).wifi.iface = true
  stores : ∀ n, (p.world n).wifi.setPersonal = true
  addressed : ∀ n, ∀ addr ∈ (p.world n).status.addr, 4 ≤ addr.length
  named : ∀ n, ∀ status ∈ (p.world n).status.status,
    1 ≤ status.ssid.length ∧ status.ssid.length ≤ 32

lemma set_inBounds {ssid : Bytes} {password : Option Bytes} (h : Network ssid password) :
    (Request.configSet ssid password none none).InBounds := by
  refine ⟨h.ssid.1, h.ssid.2, ?_, fun _ h => absurd h (Option.not_mem_none _),
    fun _ h => absurd h (Option.not_mem_none _)⟩
  intro pass hpass
  have hlength := h.password pass hpass
  omega

lemma set_fits {ssid : Bytes} {password : Option Bytes} (h : Network ssid password) :
    (encode (Request.configSet ssid password none none).item).length ≤ msgMax := by
  have hssid := h.ssid.2
  have hname := head_length_le 2 (show ssid.length < 2 ^ 32 by omega)
  have hkeys : (encode (text "ssid")).length = 5 ∧ (encode (text "pass")).length = 5 := by decide
  have hheads : (head 0 1).length = 1 ∧ (head 4 2).length = 1 ∧ (head 5 1).length = 1 ∧
      (head 5 2).length = 1 := by decide
  cases password with
  | none =>
    change (encode (.array [.uint 1, .map [text "ssid", .bstr ssid]])).length ≤ msgMax
    simp only [encode, encodeAll, List.length_append, List.length_cons, List.length_nil,
      Nat.reduceAdd, Nat.reduceDiv, hkeys, hheads, msgMax]
    omega
  | some pass =>
    have hpass := h.password pass rfl
    have hsecret := head_length_le 2 (show pass.length < 2 ^ 32 by omega)
    change (encode (.array [.uint 1,
      .map [text "ssid", .bstr ssid, text "pass", .bstr pass]])).length ≤ msgMax
    simp only [encode, encodeAll, List.length_append, List.length_cons, List.length_nil,
      Nat.reduceAdd, Nat.reduceDiv, hkeys, hheads, msgMax]
    omega

section Wifi

variable {c : Client} {p : Peer} {v : View} {s : At c} {E : Stop c → At c → Prop}
variable {ssid : Bytes} {password : Option Bytes}

lemma doSet_network (h : Network ssid password) (wc : WifiConfig.State) :
    ∃ staged, doSet ⟨ssid, password, none, none⟩ wc = (.ok, { wc with staged := staged }) ∧
      WifiConfig.credentialOf staged = credential ssid password := by
  have hlow : ¬ (ssid.length = 0 ∨ ssid.length > WifiConfig.ssidMax) := by
    have hssid := h.ssid
    rw [WifiConfig.ssidMax]
    omega
  have hpass : ¬ (password.getD []).length > WifiConfig.passMax := by
    cases password with
    | none => exact Nat.not_lt_zero _
    | some pass => exact Nat.not_lt.mpr (h.password pass rfl)
  rw [doSet, if_neg hlow, if_neg hpass]
  refine ⟨_, rfl, ?_⟩
  simp [WifiConfig.credentialOf, credential]

lemma set_served (h : Network ssid password) (n : Nat) {d : Dev} (hd : v.Of d) :
    Serve p (p.world n) d (.configSet ssid password none none) (fun _ => True)
      fun _ => { v with station := Configured ssid password } := by
  obtain ⟨staged, hset, hcredential⟩ := doSet_network h d.wifi.wc
  have hserve : serve p.board (p.world n) d (.configSet ssid password none none) =
      (.config (.setRsp .ok),
        { d with wifi := { d.wifi with wc := { d.wifi.wc with staged := staged } } }) := by
    simp only [serve, hset]
  exact serve_of hserve trivial rfl (status_sent 1 (by decide) .ok rfl)
    ⟨hd.running, hd.session, hd.cred, hcredential, hd.address⟩

lemma doApply_network (h : Network ssid password) {env : WifiConfig.Env} (iface : env.iface = true)
    (stores : env.setPersonal = true) {wc : WifiConfig.State}
    (configured : Configured ssid password wc) :
    (doApply env wc).1 = .ok ∧ Attempt ssid password (doApply env wc).2.1 := by
  have hssid : wc.staged.ssid = ssid := congrArg WifiConfig.Credential.ssid configured
  have hlow : ¬ (¬ env.iface = true ∨ wc.staged.ssid.length = 0) := by
    have hpos := h.ssid.1
    rw [hssid, iface]
    simp only [not_true_eq_false, false_or]
    omega
  rw [doApply, if_neg hlow]
  simp only [stores, not_true_eq_false, if_false]
  split
  · refine ⟨rfl, hssid, .inl ⟨rfl, hssid⟩, fun _ => ?_⟩
    rw [← configured]
    exact List.mem_cons_self
  · exact ⟨rfl, hssid, .inr ⟨.inr rfl, rfl⟩, fun hne => absurd rfl hne⟩

lemma apply_served (h : Network ssid password) (willing : Willing p) (n : Nat) {d : Dev}
    (hd : View.Of { v with station := Configured ssid password } d) :
    Serve p (p.world n) d .configApply (fun _ => True)
      fun _ => { v with station := Attempt ssid password } := by
  obtain ⟨hok, hattempt⟩ := doApply_network h (willing.iface n) (willing.stores n) hd.station
  obtain ⟨armed, hemit⟩ := emitAll_frame p.board.build (doApply (p.world n).wifi d.wifi.wc).2.2
    { d with wifi := { d.wifi with wc := (doApply (p.world n).wifi d.wifi.wc).2.1 } }
  have hserve : serve p.board (p.world n) d .configApply = (.config (.applyRsp .ok),
      { d with wifi := { d.wifi with wc := (doApply (p.world n).wifi d.wifi.wc).2.1 }
               autostop := armed }) := by
    simp only [serve, hok, hemit]
  exact serve_of hserve trivial rfl (status_sent 2 (by decide) .ok rfl)
    ⟨hd.running, hd.session, hd.cred, hattempt, hd.address⟩

/-- The response is the status of the station. -/
def Reported (wc : WifiConfig.State) (r : Response) : Prop :=
  ∃ detail, r = .config (.statusRsp .ok wc.staState detail) ∧
    (wc.staState = .failed → detail = some (.failReason wc.failReason)) ∧
    (wc.staState = .connected → ∃ ip4 ssid rssi, detail = some (.connectedInfo ip4 ssid rssi))

lemma fillConnected_address {env : StatusEnv} (addressed : ∀ addr ∈ env.addr, 4 ≤ addr.length)
    (wc : WifiConfig.State) {ip4 : Bytes} (address : ip4.length = 4) :
    (fillConnected env wc ip4).2.length = 4 := by
  have hbuffer : ∀ status, (fillConnected { env with status := status } wc ip4).2 =
      (fillConnected { env with status := none } wc ip4).2 := by
    rintro (_ | status)
    · rfl
    · simp only [fillConnected]
      split <;> rfl
  rw [hbuffer env.status]
  cases haddr : env.addr with
  | none =>
    simp only [fillConnected]
    exact address
  | some addr =>
    have hlong := addressed addr haddr
    simp only [fillConnected]
    split
    · rw [List.length_take]
      omega
    · exact address

lemma fillConnected_named {env : StatusEnv} (named : ∀ status ∈ env.status,
      1 ≤ status.ssid.length ∧ status.ssid.length ≤ 32) {wc : WifiConfig.State}
    (staged : 1 ≤ wc.staged.ssid.length ∧ wc.staged.ssid.length ≤ 32) (ip4 : Bytes) :
    ∃ ssid rssi, fillConnected env wc ip4 = (.connectedInfo (fillConnected env wc ip4).2 ssid rssi,
        (fillConnected env wc ip4).2) ∧ 1 ≤ ssid.length ∧ ssid.length ≤ 32 := by
  cases hstatus : env.status with
  | none =>
    simp only [fillConnected, hstatus]
    exact ⟨_, _, rfl, staged⟩
  | some status =>
    have hname := named status hstatus
    rw [← status.read_length] at hname
    simp only [fillConnected, hstatus]
    split
    · exact ⟨_, _, rfl, hname⟩
    · exact ⟨_, _, rfl, staged⟩

lemma status_served (h : Network ssid password) (willing : Willing p) (n : Nat) {d : Dev}
    (hd : View.Of { v with station := Attempt ssid password } d) :
    Serve p (p.world n) d .configGetStatus (fun _ => True) fun r =>
      { v with station := fun wc => Attempt ssid password wc ∧ Reported wc r } := by
  by_cases hconnected : d.wifi.wc.staState = .connected
  · have hnamed : 1 ≤ d.wifi.wc.staged.ssid.length ∧ d.wifi.wc.staged.ssid.length ≤ 32 := by
      rw [hd.station.staged]
      exact h.ssid
    have hip4 := fillConnected_address (willing.addressed n) d.wifi.wc hd.address
    obtain ⟨name, rssi, hfill, hname⟩ := fillConnected_named (willing.named n) hnamed d.wifi.ip4
    generalize (fillConnected (p.world n).status d.wifi.wc d.wifi.ip4).2 = ip4 at hip4 hfill
    have hserve : serve p.board (p.world n) d .configGetStatus =
        (.config (.statusRsp .ok .connected (some (.connectedInfo ip4 name rssi))),
          { d with wifi := { d.wifi with ip4 := ip4 } }) := by
      simp only [serve, stationStatus, hconnected, if_true, hfill]
    obtain ⟨x, hx, hfits⟩ := StatusReport.connectedRsp_fits rssi hip4 hname
    have hsent : (message (.config (.statusRsp .ok .connected
        (some (.connectedInfo ip4 name rssi))))).isSome := by
      have hencoded : (Response.config (.statusRsp .ok .connected
        (some (.connectedInfo ip4 name rssi)))).encoded = some x := hx
      rw [message, hencoded, cborEncode_some hfits]
      rfl
    have hreported : Reported d.wifi.wc (.config (.statusRsp .ok .connected
        (some (.connectedInfo ip4 name rssi)))) := by
      refine ⟨_, by rw [hconnected], ?_, fun _ => ⟨ip4, name, rssi, rfl⟩⟩
      rw [hconnected]
      exact fun hfailed => absurd hfailed StaState.noConfusion
    exact serve_of hserve trivial rfl hsent
      ⟨hd.running, hd.session, hd.cred, ⟨hd.station, hreported⟩, hip4⟩
  · by_cases hfailed : d.wifi.wc.staState = .failed
    · have hserve : serve p.board (p.world n) d .configGetStatus =
          (.config (.statusRsp .ok .failed (some (.failReason d.wifi.wc.failReason))), d) := by
        simp only [serve, stationStatus, hfailed, reduceCtorEq, if_false, if_true]
      have hreported : Reported d.wifi.wc
          (.config (.statusRsp .ok .failed (some (.failReason d.wifi.wc.failReason)))) :=
        ⟨_, by rw [hfailed], fun _ => rfl, fun h => absurd h hconnected⟩
      refine serve_of hserve trivial rfl ?_
        ⟨hd.running, hd.session, hd.cred, ⟨hd.station, hreported⟩, hd.address⟩
      cases d.wifi.wc.failReason <;> rfl
    · have hserve : serve p.board (p.world n) d .configGetStatus =
          (.config (.statusRsp .ok d.wifi.wc.staState none), d) := by
        simp only [serve, stationStatus, if_neg hconnected, if_neg hfailed]
      have hreported : Reported d.wifi.wc (.config (.statusRsp .ok d.wifi.wc.staState none)) :=
        ⟨_, rfl, fun h => absurd h hfailed, fun h => absurd h hconnected⟩
      refine serve_of hserve trivial rfl ?_
        ⟨hd.running, hd.session, hd.cred, ⟨hd.station, hreported⟩, hd.address⟩
      cases d.wifi.wc.staState <;> rfl

/-- What every request for the network needs. -/
structure Configures (p : Peer) (v : View) (ssid : Bytes) (password : Option Bytes) : Prop where
  network : Network ssid password
  willing : Willing p
  registered : p.board.build.wifi = true
  opened : Opens p v.session

lemma registered_config (h : p.board.build.wifi = true) :
    Endpoint.config ∈ endpoints p.board.build := by
  simp [endpoints, h]

/-- The status is the one of a station that has settled. -/
structure Settled (status : WifiStatus (Number c)) (reason : FailReason) : Prop where
  state : status.state = .connected ∨ status.state = .failed
  named : status.state = .connected → status.ssid.isSome
  failed : status.state = .failed → status.failReason = some reason

lemma settled_of_reported {status : WifiStatus (Number c)} {wc : WifiConfig.State} {r : Response}
    (reported : Reported wc r) (reads : Reads c r (d := .configStatus) status) :
    status.state = wc.staState ∧
      (wc.staState = .connected ∨ wc.staState = .failed → Settled status wc.failReason) := by
  obtain ⟨detail, rfl, hfailed, hconnected⟩ := reported
  obtain ⟨_, hshows⟩ := reads
  obtain ⟨hstate, hdetail⟩ : ShowsDetail c wc.staState detail status := hshows
  refine ⟨hstate, fun h => ⟨hstate ▸ h, ?_, ?_⟩⟩
  · intro hc
    obtain ⟨ip4, name, rssi, rfl⟩ := hconnected (hstate.symm.trans hc)
    rw [hdetail.2.2.1]
    rfl
  · intro hf
    obtain rfl := hfailed (hstate.symm.trans hf)
    exact hdetail.1

lemma pollStatus_ends (serves : Serves p) (speaks : Speaks c)
    (h : Configures p v ssid password)
    (meets : Meets p { v with station := Attempt ssid password } s) :
    Ends (pollStatus c p ()) s (fun r s' =>
      match r with
      | .inl _ => Meets p { v with station := Attempt ssid password } s' ∧
          s'.dev.wifi.wc.staState = .connecting
      | .inr status => ∃ reason, Settled status reason ∧
          Meets p { v with station := Over ssid password status.state reason } s') E := by
  have hcall : Ends (call c p .configGetStatus .configStatus) s _ E :=
    call_ends (q := .configGetStatus) serves speaks trivial (by decide)
      (registered_config h.registered) meets (attempt_stable ssid password) (fun _ => h.opened)
      (fun d hd => status_served h.network h.willing s.sent hd) fun _ => rfl
  rw [pollStatus]
  refine hcall.bind ?_
  rintro (status : WifiStatus (Number c)) s' ⟨r, -, hreads, hmeets⟩
  obtain ⟨hattempt, hreported⟩ := hmeets.dev.station
  obtain ⟨hstate, hsettled⟩ := settled_of_reported hreported hreads
  rcases hattempt.state with ⟨hconnecting, -⟩ | ⟨hdone, hidle⟩
  · have hgoes : ¬ (status.state = .connected ∨ status.state = .failed) := by
      rw [hstate, hconnecting]
      simp only [reduceCtorEq, or_self, not_false_eq_true]
    rw [if_neg hgoes]
    exact ⟨⟨hmeets.ready, ⟨hmeets.dev.running, hmeets.dev.session, hmeets.dev.cred, hattempt,
      hmeets.dev.address⟩, hmeets.flag⟩, hconnecting⟩
  · have hends : status.state = .connected ∨ status.state = .failed := hstate ▸ hdone
    rw [if_pos hends]
    refine ⟨s'.dev.wifi.wc.failReason, hsettled hdone, hmeets.ready, ⟨hmeets.dev.running,
      hmeets.dev.session, hmeets.dev.cred, ⟨hstate.symm, hidle, rfl, ?_⟩, hmeets.dev.address⟩,
      hmeets.flag⟩
    intro hconnected
    refine hattempt.stored ?_
    rw [← hstate, hconnected]
    exact StaState.noConfusion

/-- The attempt settles and the client reports how, or the station still connects when the client
gives up. -/
theorem configureWifi_ends (serves : Serves p) (speaks : Speaks c)
    (h : Configures p v ssid password) (stable : Stable v.station) (waits : Nat)
    (meets : Meets p v s)
    (unsettled : ∀ s', Meets p { v with station := Attempt ssid password } s' →
      s'.dev.wifi.wc.staState = .connecting → E .unsettled s') :
    Ends (configureWifi c p ssid password waits) s (fun status s' => ∃ reason,
      Settled status reason ∧
        Meets p { v with station := Over ssid password status.state reason } s') E := by
  have hset : Ends (call c p (.configSet ssid password none none) .configSet) s _ E :=
    call_ends (q := .configSet ssid password none none) serves speaks (set_inBounds h.network)
      (set_fits h.network) (registered_config h.registered) meets stable (fun _ => h.opened)
      (fun d hd => set_served h.network s.sent hd) fun _ => rfl
  rw [configureWifi]
  refine hset.bind ?_
  rintro _ s₁ ⟨_, -, -, hconfigured⟩
  have happly : Ends (call c p .configApply .configApply) s₁ _ E :=
    call_ends (q := .configApply) serves speaks trivial (by decide)
      (registered_config h.registered) hconfigured (configured_stable ssid password)
      (fun _ => h.opened) (fun d hd => apply_served h.network h.willing s₁.sent hd) fun _ => rfl
  refine happly.bind ?_
  rintro _ s₂ ⟨_, -, -, hattempt⟩
  -- a poll that shows no result has seen the station connect
  refine Flow.ends_loop (I := fun rounds _ s' =>
    Meets p { v with station := Attempt ssid password } s' ∧
      (rounds ≤ waits → s'.dev.wifi.wc.staState = .connecting)) ?_ ?_
    ⟨hattempt, fun h => absurd h (Nat.not_succ_le_self waits)⟩
  · rintro rounds a s' ⟨hmeets, -⟩
    refine (pollStatus_ends serves speaks h hmeets).mono ?_ fun _ _ h => h
    rintro (a | status) s'' hr
    · exact ⟨hr.1, fun _ => hr.2⟩
    · exact hr
  · rintro a s' ⟨hmeets, hconnecting⟩
    exact unsettled s' hmeets (hconnecting (Nat.zero_le _))

lemma configureWifi_refused (serves : Serves p) (speaks : Speaks c)
    (registered : p.board.build.wifi = true) {ssid : Bytes} {password : Option Bytes}
    (network : Network ssid password) (closed : Closed p v.session) (stable : Stable v.station)
    (waits : Nat) (meets : Meets p v s) :
    Ends (configureWifi c p ssid password waits) s (fun _ _ => False)
      (fun stop s' => stop = .refused ∧ Meets p v s') := by
  have hcall : Ends (call c p (.configSet ssid password none none) .configSet) s
      (fun _ _ => False) _ :=
    call_refused (q := .configSet ssid password none none) serves speaks (set_inBounds network)
      (set_fits network) (registered_config registered) meets stable rfl closed
  rw [configureWifi]
  exact hcall.stop

end Wifi

end ClientFlows
