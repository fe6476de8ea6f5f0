import PouchProv.Orders

/-!
# Provisioning

An order that fits the device is carried out by every client, or the station does not
settle in time. The parts of the programs are taken one after another, each from what
the one before has left at the device.
-/

namespace ProvisionFlow

open Bytes Auth Device Status Calls ClientFlows
open ClientResponses (VersionInfo WifiStatus)
open CredStore (Store)
open DeviceResponses (Shows Words Says)
open Flow (Ends)
open ForwardCompat (Client)
open ScanFlow (Number)

section Parts

variable {c : Client} {p : Peer} {f : Platform} {r : ProvisionRequest} {order : Order} {v : View}
  {s : At c} {E : Stop c → At c → Prop}

lemma weaken {v v' : View} (h : Meets p v s) (flag : v'.flag = v.flag)
    (running : v'.running = v.running)
    (session : ∀ authorized auth, v.session authorized auth → v'.session authorized auth)
    (cred : ∀ st, v.cred st → v'.cred st) (station : ∀ wc, v.station wc → v'.station wc) :
    Meets p v' s :=
  ⟨h.ready, ⟨h.dev.running.trans running.symm, session _ _ h.dev.session, cred _ h.dev.cred,
    station _ h.dev.station, h.dev.address⟩, h.flag.trans flag.symm⟩

/-- Before the handshake. -/
def start (s : At c) : View where
  flag := s.authorized
  running := true
  session authorized auth := (s.authorized = true → authorized = true) ∧ auth.attempts < maxAttempts
  cred st := st = s.dev.cred
  station _ := True

/-- The session is open. -/
def opened (p : Peer) (flag : Bool) (cred : Store → Prop) (station : WifiConfig.State → Prop) :
    View where
  flag := flag
  running := true
  session authorized _ := (authorized || p.board.pop.isNone) = true
  cred := cred
  station := station

lemma start_meets (h : Connected p s) : Meets p (start s) s :=
  ⟨h.ready, ⟨h.running, ⟨h.authorized, h.attempts⟩, rfl, trivial, h.address⟩, rfl⟩

lemma opened_opens (flag : Bool) (cred : Store → Prop) (station : WifiConfig.State → Prop) :
    Opens p (opened p flag cred station).session :=
  fun _ _ h => h

lemma stable_true : Stable fun _ => True := fun _ _ => ⟨fun _ _ => trivial, fun _ => trivial⟩

lemma popRequired_eq {info : VersionInfo (Number c) (Words c)}
    (shows : Shows c (versionRsp p) info) :
    info.popRequired = (p.board.build.auth && p.board.pop.isSome) :=
  shows.2.2.2.2

lemma given_some {text : String} (h : text ≠ "") : given (some text) = some text := by
  simp [given, h]

lemma hasCap_wifi {info : VersionInfo (Number c) (Words c)} (shows : Shows c (versionRsp p) info)
    (registered : p.board.build.wifi = true) : hasCap c info "wifi" = true := by
  have hcaps : List.Forall₂ (fun text w => Says text c w)
      (Handlers.verInfo p.board.build p.board.pop).caps info.caps := shows.2.1
  simp only [Handlers.verInfo, registered, if_true, List.cons_append] at hcaps
  obtain ⟨proto, caps, blockSize, lib, popRequired⟩ := info
  cases hcaps with
  | cons said _ =>
    cases c with
    | python py dicts => exact Bool.or_eq_true_iff.mpr (.inl (decide_eq_true said))
    | kotlin | swift =>
      exact Bool.or_eq_true_iff.mpr (.inl (decide_eq_true (p := (_ : String) = _) said))

/-- The handshake of the command line. -/
lemma authorizeIfNeeded_ends (possible : Possible c p f r order)
    {info : VersionInfo (Number c) (Words c)} (shows : Shows c (versionRsp p) info) {s₀ : At c}
    (meets : Meets p (start s₀) s) :
    Ends (authorizeIfNeeded c p f info r.pop) s (fun _ s' =>
      Meets p (opened p s₀.authorized (· = s₀.dev.cred) fun _ => True) s') E := by
  rw [authorizeIfNeeded, popRequired_eq shows]
  cases hpop : p.board.pop with
  | none =>
    rw [Option.isSome_none, Bool.and_false]
    refine weaken meets rfl rfl ?_ (fun _ h => h) fun _ h => h
    intro authorized auth h
    simp [opened, hpop]
  | some key =>
    obtain ⟨hauth, pop, hne, hgiven, rfl⟩ := possible.secret key hpop
    rw [hauth, Option.isSome_some, Bool.and_true, if_pos rfl, hgiven, given_some hne]
    refine (authorize_ends possible.serves possible.speaks possible.shares hauth hpop meets
      stable_true fun _ _ h => h.2).mono ?_ fun _ _ h => h
    intro _ s' hmeets
    refine weaken hmeets rfl rfl ?_ (fun _ h => h) fun _ h => h
    rintro authorized auth (h : authorized = true)
    simp [opened, h]

/-- The phones skip the handshake on a connection that has had one. -/
lemma phoneAuthorize_ends (serves : Serves p) (speaks : Speaks c) (shares : Shares f p)
    (registered : p.board.build.auth = true) {pop : String}
    (configured : p.board.pop = some (utf8 pop)) {s₀ : At c} (meets : Meets p (start s₀) s) :
    Ends (PouchProvDevice.authorize c p f pop) s (fun _ s' =>
      Meets p (opened p true (· = s₀.dev.cred) fun _ => True) s') E := by
  rw [PouchProvDevice.authorize]
  refine Flow.ends_bind.mpr (Flow.ends_get.mpr ?_)
  cases hflag : s.authorized with
  | true =>
    simp only [if_true]
    have hstart : s₀.authorized = true := meets.flag.symm.trans hflag
    refine Flow.ends_pure.mpr (weaken meets hstart.symm rfl ?_ (fun _ h => h) fun _ h => h)
    intro authorized auth h
    exact Bool.or_eq_true_iff.mpr (.inl (h.1 hstart))
  | false =>
    simp only [Bool.false_eq_true, if_false]
    refine (authorize_ends serves speaks shares registered configured meets stable_true
      fun _ _ h => h.2).bind ?_
    intro _ s' hmeets
    refine Flow.ends_modify.mpr ⟨hmeets.ready, ⟨hmeets.dev.running, ?_, hmeets.dev.cred,
      trivial, hmeets.dev.address⟩, rfl⟩
    exact Bool.or_eq_true_iff.mpr (.inl hmeets.dev.session)

lemma provisionSecret_ends (possible : Possible c p f r order)
    {info : VersionInfo (Number c) (Words c)} (shows : Shows c (versionRsp p) info) {s₀ : At c}
    (meets : Meets p (start s₀) s) :
    Ends (PouchProvDevice.provisionSecret c p f info r.pop) s (fun _ s' =>
      ∃ flag, (p.board.pop.isSome → flag = true) ∧
        Meets p (opened p flag (· = s₀.dev.cred) fun _ => True) s') E := by
  rw [PouchProvDevice.provisionSecret, popRequired_eq shows]
  cases hpop : p.board.pop with
  | none =>
    rw [Option.isSome_none, Bool.and_false]
    refine ⟨s₀.authorized, fun h => absurd h Bool.false_ne_true,
      weaken meets rfl rfl ?_ (fun _ h => h) fun _ h => h⟩
    intro authorized auth h
    simp [opened, hpop]
  | some key =>
    obtain ⟨hauth, pop, hne, hgiven, rfl⟩ := possible.secret key hpop
    rw [hauth, Option.isSome_some, Bool.and_true, if_pos rfl, hgiven, given_some hne]
    exact (phoneAuthorize_ends possible.serves possible.speaks possible.shares hauth hpop
      meets).mono (fun _ _ h => ⟨true, fun _ => rfl, h⟩) fun _ _ h => h

lemma toDer_eq {input der : Bytes} (h : Pem.toDer f.pem input c = some der) :
    toDer c f input = pure der := by
  rw [toDer, h]

lemma toDerIfGiven_eq {ca der : Option Bytes}
    (h : ca.map (Pem.toDer f.pem · c) = der.map some) : toDerIfGiven c f ca = pure der := by
  cases ca with
  | none =>
    cases der with
    | none => rfl
    | some der => cases h
  | some ca =>
    cases der with
    | none => cases h
    | some der =>
      have hca : Pem.toDer f.pem ca c = some der := Option.some.inj h
      rw [toDerIfGiven, toDer_eq hca, pure_bind]

lemma stores_none (none : order.credentials = none) {flag : Bool} {s₀ : At c}
    (meets : Meets p (opened p flag (· = s₀.dev.cred) fun _ => True) s) :
    Meets p (opened p flag (Stores order s₀.dev.cred) fun _ => True) s := by
  refine weaken meets rfl rfl (fun _ _ h => h) ?_ fun _ h => h
  rintro st (rfl : st = s₀.dev.cred)
  simp only [opened, Stores, none]

lemma stores_some {k : Credentials} (some : order.credentials = some k) {flag : Bool} {s₀ : At c}
    (meets : Meets p (opened p flag (Delivered k s₀.dev.cred) fun _ => True) s) :
    Meets p (opened p flag (Stores order s₀.dev.cred) fun _ => True) s := by
  refine weaken meets rfl rfl (fun _ _ h => h) ?_ fun _ h => h
  intro st h
  simpa only [opened, Stores, some] using h

lemma bootstrap_ends (possible : Possible c p f r order) {k : Credentials}
    (ordered : order.credentials = some k) {flag : Bool} {s₀ : At c}
    (meets : Meets p (opened p flag (· = s₀.dev.cred) fun _ => True) s) :
    Ends (bootstrapCredentials c p k.certificate k.privateKey k.ca) s (fun _ s' =>
      Meets p (opened p flag (Stores order s₀.dev.cred) fun _ => True) s') E := by
  obtain ⟨hfit, hregistered⟩ := possible.fit k ordered
  have hcred : s.dev.cred = s₀.dev.cred := meets.dev.cred
  refine (bootstrapCredentials_ends possible.serves possible.speaks possible.willing.saves
    hregistered hfit (opened_opens _ _ _) stable_true meets).mono ?_ fun _ _ h => h
  intro _ s' hmeets
  rw [hcred] at hmeets
  exact stores_some ordered hmeets

lemma phoneFiles_ends (possible : Possible c p f r order) {flag : Bool} {s₀ : At c}
    (meets : Meets p (opened p flag (· = s₀.dev.cred) fun _ => True) s) :
    Ends (PouchProvDevice.provisionFiles c p f r) s (fun stored s' =>
      stored = order.credentials.isSome ∧
        Meets p (opened p flag (Stores order s₀.dev.cred) fun _ => True) s') E := by
  rw [PouchProvDevice.provisionFiles]
  have hfiles := possible.files
  generalize hcredentials : order.credentials = credentials at hfiles
  cases hfiles with
  | absent missing paired =>
    split
    · simp_all
    · exact ⟨rfl, stores_none hcredentials meets⟩
  | @present k cert key certificate privateKey certDer keyDer caDer =>
    rw [certificate, privateKey]
    dsimp only
    rw [PouchProvDevice.provisionCredentials, toDer_eq certDer, toDer_eq keyDer,
      toDerIfGiven_eq caDer]
    simp only [pure_bind]
    exact (bootstrap_ends possible hcredentials meets).bind fun _ s' h => ⟨rfl, h⟩

lemma commandFiles_ends (possible : Possible c p f r order) {flag : Bool} {s₀ : At c}
    (meets : Meets p (opened p flag (· = s₀.dev.cred) fun _ => True) s) :
    Ends (Command.provisionFiles c p f r) s (fun stored s' =>
      stored = order.credentials.isSome ∧
        Meets p (opened p flag (Stores order s₀.dev.cred) fun _ => True) s') E := by
  rw [Command.provisionFiles]
  have hfiles := possible.files
  generalize hcredentials : order.credentials = credentials at hfiles
  cases hfiles with
  | absent missing paired =>
    split
    · simp_all
    · exact ⟨rfl, stores_none hcredentials meets⟩
  | @present k cert key certificate privateKey certDer keyDer caDer =>
    obtain ⟨hfit, hregistered⟩ := possible.fit k hcredentials
    have hnonempty : k.certificate ≠ [] := List.ne_nil_of_length_pos hfit.certificate.1
    rw [certificate, privateKey]
    dsimp only
    rw [toDer_eq certDer, toDer_eq keyDer, toDerIfGiven_eq caDer]
    simp only [pure_bind, if_neg hnonempty]
    refine (bootstrap_ends possible hcredentials meets).bind ?_
    intro _ s₁ hdelivered
    exact (credStatus_ends possible.serves possible.speaks hregistered (opened_opens _ _ _)
      stable_true hdelivered).bind fun _ s₂ h => ⟨rfl, h⟩

section Network

variable {n : Bytes × Option Bytes} {flag : Bool} {s₀ : At c} {waits : Nat}

/-- The client gives up while the station still connects. -/
lemma interrupted_unsettled (ordered : order.network = some n)
    (meets : Meets p (opened p flag (Stores order s₀.dev.cred) (Attempt n.1 n.2)) s)
    (connecting : s.dev.wifi.wc.staState = .connecting) : Interrupted order s₀ .unsettled s :=
  ⟨meets.dev.cred, meets.dev.running, n, ordered, .inl ⟨rfl, connecting⟩⟩

lemma configure_ends (possible : Possible c p f r order) (ordered : order.network = some n)
    (meets : Meets p (opened p flag (Stores order s₀.dev.cred) fun _ => True) s) :
    Ends (configureWifi c p n.1 n.2 waits) s (fun status s' => ∃ reason, Settled status reason ∧
      Meets p (opened p flag (Stores order s₀.dev.cred) (Over n.1 n.2 status.state reason)) s')
      (Interrupted order s₀) := by
  obtain ⟨hnetwork, hregistered⟩ := possible.configurable n ordered
  exact configureWifi_ends possible.serves possible.speaks
    ⟨hnetwork, possible.willing, hregistered, opened_opens _ _ _⟩ stable_true waits meets
    fun s' h hconnecting => interrupted_unsettled ordered h hconnecting

lemma joined_some (ordered : order.network = some n) {status : WifiStatus (Number c)}
    {reason : FailReason} (settled : Settled status reason)
    (line : commandLine c = true → status.state = .connected) {wc : WifiConfig.State}
    (ends : Over n.1 n.2 status.state reason wc) : Joined c order (some status) wc := by
  rw [Joined, ordered]
  exact ⟨status, reason, rfl, settled, line, ends⟩

lemma joined_none (none : order.network = none) {cred : Store → Prop}
    (meets : Meets p (opened p flag cred fun _ => True) s) :
    Meets p (opened p flag cred (Joined c order Option.none)) s := by
  refine weaken meets rfl rfl (fun _ _ h => h) (fun _ h => h) ?_
  intro wc h
  simp only [opened, Joined, none]

/-- The command line stops at a station that has failed. -/
lemma commandNetwork_ends (possible : Possible c p f r order) (line : commandLine c = true)
    {info : VersionInfo (Number c) (Words c)} (shows : Shows c (versionRsp p) info)
    (meets : Meets p (opened p flag (Stores order s₀.dev.cred) fun _ => True) s) :
    Ends (Command.provisionNetwork c p info r waits) s (fun wifi s' =>
      Meets p (opened p flag (Stores order s₀.dev.cred) (Joined c order wifi)) s')
      (Interrupted order s₀) := by
  have hnetwork := possible.network
  rw [networkOf, if_pos line] at hnetwork
  rw [Command.provisionNetwork]
  cases hssid : given r.ssid with
  | none =>
    rw [hssid] at hnetwork
    exact joined_none hnetwork.symm meets
  | some ssid =>
    rw [hssid] at hnetwork
    have hcap := hasCap_wifi shows (possible.configurable _ hnetwork.symm).2
    simp only [hcap, not_true_eq_false, if_false]
    refine (configure_ends possible hnetwork.symm meets).bind ?_
    rintro status s' ⟨reason, hsettled, hmeets⟩
    by_cases hconnected : status.state = .connected
    · obtain ⟨name, hname⟩ := Option.isSome_iff_exists.mp (hsettled.named hconnected)
      simp only [hconnected, hname, ne_eq, not_true_eq_false, if_false, reduceCtorEq]
      exact weaken hmeets rfl rfl (fun _ _ h => h) (fun _ h => h) fun wc hover =>
        joined_some hnetwork.symm hsettled (fun _ => hconnected) hover
    · have hfailed : status.state = .failed := hsettled.state.resolve_left hconnected
      simp only [ne_eq, hconnected, not_false_eq_true, if_true]
      rw [hsettled.failed hfailed]
      refine ⟨hmeets.dev.cred, hmeets.dev.running, _, hnetwork.symm,
        .inr ⟨line, reason, rfl, ?_⟩⟩
      rw [← hfailed]
      exact hmeets.dev.station

lemma phoneNetwork_ends (possible : Possible c p f r order) (phone : commandLine c = false)
    {info : VersionInfo (Number c) (Words c)} (shows : Shows c (versionRsp p) info)
    (meets : Meets p (opened p flag (Stores order s₀.dev.cred) fun _ => True) s) :
    Ends (PouchProvDevice.provisionNetwork c p info r waits) s (fun wifi s' =>
      Meets p (opened p flag (Stores order s₀.dev.cred) (Joined c order wifi)) s')
      (Interrupted order s₀) := by
  have hphone : ¬ commandLine c = true := by
    rw [phone]
    exact Bool.false_ne_true
  have hnetwork := possible.network
  rw [networkOf, if_neg hphone] at hnetwork
  rw [PouchProvDevice.provisionNetwork]
  cases hssid : r.ssid with
  | none =>
    rw [hssid] at hnetwork
    exact joined_none hnetwork.symm meets
  | some ssid =>
    rw [hssid] at hnetwork
    have hcap := hasCap_wifi shows (possible.configurable _ hnetwork.symm).2
    simp only [hcap, not_true_eq_false, if_false]
    refine (configure_ends possible hnetwork.symm meets).bind ?_
    rintro status s' ⟨reason, hsettled, hmeets⟩
    exact weaken hmeets rfl rfl (fun _ _ h => h) (fun _ h => h) fun wc hover =>
      joined_some hnetwork.symm hsettled (fun h => absurd h hphone) hover

end Network

lemma joined_stable (c : Client) (order : Order) (wifi : Option (WifiStatus (Number c))) :
    Stable (Joined c order wifi) := by
  intro wc h
  cases hnetwork : order.network with
  | none =>
    simp only [Joined, hnetwork] at h ⊢
    exact ⟨fun _ _ => h, fun _ => h⟩
  | some n =>
    simp only [Joined, hnetwork] at h ⊢
    obtain ⟨status, reason, hwifi, hsettled, hline, hover⟩ := h
    obtain ⟨hresult, hretry⟩ := over_stable n.1 n.2 status.state reason wc hover
    exact ⟨fun env result => ⟨status, reason, hwifi, hsettled, hline, hresult env result⟩,
      fun env => ⟨status, reason, hwifi, hsettled, hline, hretry env⟩⟩

/-- The last request, and the result. -/
lemma end_ends (possible : Possible c p f r order) {info : VersionInfo (Number c) (Words c)}
    (shows : Shows c (versionRsp p) info) {flag : Bool} {s₀ : At c}
    {wifi : Option (WifiStatus (Number c))} {stored : Bool}
    (hstored : stored = order.credentials.isSome)
    (meets : Meets p (opened p flag (Stores order s₀.dev.cred) (Joined c order wifi)) s) :
    Ends (do endSession c p; return (⟨info, wifi, stored⟩ : ProvisionResult c)) s
      (fun result s' => Completed p order s₀ result s' ∧
        Meets p (ended (opened p flag (Stores order s₀.dev.cred) (Joined c order result.wifi))) s')
      E := by
  refine (endSession_ends possible.serves possible.speaks rfl (opened_opens _ _ _)
    (joined_stable c order wifi) meets).bind ?_
  intro _ s' hmeets
  refine ⟨⟨shows, hstored, hmeets.dev.cred, ?_, hmeets.dev.station, hmeets.dev.running,
    hmeets.dev.session⟩, hmeets⟩
  intro k hk
  obtain ⟨hfit, hregistered⟩ := possible.fit k hk
  have hdelivered : Stores order s₀.dev.cred s'.dev.cred := hmeets.dev.cred
  rw [Stores, hk] at hdelivered
  exact restored_of_delivered hfit hregistered hdelivered

/-- What follows the handshake, from rules for its parts. -/
lemma rest_ends (possible : Possible c p f r order) {info : VersionInfo (Number c) (Words c)}
    (shows : Shows c (versionRsp p) info) {flag : Bool} {s₀ : At c} {files : Prog c Bool}
    {network : Prog c (Option (WifiStatus (Number c)))}
    (hfiles : Ends files s (fun stored s' => stored = order.credentials.isSome ∧
      Meets p (opened p flag (Stores order s₀.dev.cred) fun _ => True) s') (Interrupted order s₀))
    (hnetwork : ∀ s', Meets p (opened p flag (Stores order s₀.dev.cred) fun _ => True) s' →
      Ends network s' (fun wifi s'' =>
        Meets p (opened p flag (Stores order s₀.dev.cred) (Joined c order wifi)) s'')
        (Interrupted order s₀)) :
    Ends (do
      let stored ← files
      let wifi ← network
      endSession c p
      return (⟨info, wifi, stored⟩ : ProvisionResult c)) s
      (fun result s' => Completed p order s₀ result s' ∧
        Meets p (ended (opened p flag (Stores order s₀.dev.cred) (Joined c order result.wifi))) s')
      (Interrupted order s₀) := by
  refine hfiles.bind ?_
  rintro stored s₁ ⟨hstored, hdelivered⟩
  refine (hnetwork s₁ hdelivered).bind ?_
  intro wifi s₂ hjoined
  exact end_ends possible shows hstored hjoined

end Parts

section Provision

variable {c : Client} {p : Peer} {f : Platform} {r : ProvisionRequest} {order : Order} {s : At c}

/-- The command line takes the options. -/
lemma usage_of_possible (possible : Possible c p f r order) (line : commandLine c = true) :
    r.certificate.isSome = r.privateKey.isSome ∧
      ¬ (given r.ssid = none ∧ r.certificate = none) := by
  have hnetwork := possible.network
  rw [networkOf, if_pos line] at hnetwork
  have hordered := possible.ordered
  have hfiles := possible.files
  generalize order.credentials = credentials at hfiles hordered
  cases hfiles with
  | absent missing paired =>
    obtain ⟨hcertificate, hprivateKey⟩ := paired line
    rw [hcertificate, hprivateKey]
    refine ⟨rfl, ?_⟩
    rintro ⟨hssid, -⟩
    rw [hssid] at hnetwork
    rw [← hnetwork] at hordered
    simp at hordered
  | present certificate privateKey certDer keyDer caDer =>
    rw [certificate, privateKey]
    exact ⟨rfl, fun h => Option.some_ne_none _ h.2⟩

lemma command_completes (possible : Possible c p f r order) (connected : Connected p s)
    (line : commandLine c = true) (waits : Nat) :
    Ends (Command.provision c p f r waits) s (Completed p order s) (Interrupted order s) := by
  obtain ⟨hpaired, hordered⟩ := usage_of_possible possible line
  rw [Command.provision]
  simp only [hpaired, ne_eq, not_true_eq_false, if_false, if_neg hordered]
  refine (getVersion_ends possible.serves possible.speaks (start_meets connected)
    stable_true).bind ?_
  rintro info s₁ ⟨hshows, hstart⟩
  refine (authorizeIfNeeded_ends possible hshows hstart).bind ?_
  intro _ s₂ hopened
  exact (rest_ends possible hshows (commandFiles_ends possible hopened)
    fun s' h => commandNetwork_ends possible line hshows h).mono (fun _ _ h => h.1) fun _ _ h => h

lemma phone_completes (possible : Possible c p f r order) (connected : Connected p s)
    (phone : commandLine c = false) (waits : Nat) :
    Ends (PouchProvDevice.provision c p f r waits) s (fun result s' =>
      Completed p order s result s' ∧ ∃ flag, (p.board.pop.isSome → flag = true) ∧
        Meets p (ended (opened p flag (Stores order s.dev.cred) (Joined c order result.wifi))) s')
      (Interrupted order s) := by
  rw [PouchProvDevice.provision]
  refine (getVersion_ends possible.serves possible.speaks (start_meets connected)
    stable_true).bind ?_
  rintro info s₁ ⟨hshows, hstart⟩
  refine (provisionSecret_ends possible hshows hstart).bind ?_
  rintro _ s₂ ⟨flag, hflag, hopened⟩
  refine (rest_ends possible hshows (phoneFiles_ends possible hopened)
    fun s' h => phoneNetwork_ends possible phone hshows h).mono ?_ fun _ _ h => h
  rintro result s' ⟨hcompleted, hmeets⟩
  exact ⟨hcompleted, flag, hflag, hmeets⟩

lemma provision_ends (possible : Possible c p f r order) (connected : Connected p s)
    (waits : Nat) :
    Ends (provision c p f r waits) s (Completed p order s) (Interrupted order s) := by
  cases c with
  | python py dicts => exact command_completes possible connected rfl waits
  | kotlin | swift =>
    exact (phone_completes possible connected rfl waits).mono (fun _ _ h => h.1) fun _ _ h => h

end Provision

/-- A board with every endpoint, whose station joins while the client waits for it. -/
def samplePeer : Peer where
  board := Calls.sampleBoard
  between n := if n = 8 then [.connectResult {} ⟨0, .success⟩] else []
  world _ := {}
  pieces _ := [2]

def samplePlatform : Platform :=
  ⟨fun _ _ => List.replicate proofLen 7, zeroNonce, ⟨Base64.decode, fun _ => none, fun _ => none⟩⟩

def sampleRequest : ProvisionRequest where
  pop := some "pop"
  ssid := some "home"
  password := some "secret"
  certificate := some [0x30, 0x02, 0xaa, 0xbb]
  privateKey := some [0x01]
  caCertificate := none

def sampleOrder : Order where
  credentials := some ⟨[0x30, 0x02, 0xaa, 0xbb], [0x01], none⟩
  network := some (utf8 "home", some (utf8 "secret"))

/-- The manager runs. -/
def sampleDevice : Dev :=
  step Calls.sampleBoard (init Calls.sampleBoard.build 1 (fun _ => none) (fun _ => .whole) [])
    (.mgrStart {})

def sampleStart (c : Client) : At c where
  dev := sampleDevice
  sent := 0
  blockSize := none
  authorized := false

lemma sample_serves : Serves samplePeer := by
  refine ⟨CredPush.definite_readsRequests, ⟨by decide, by decide⟩, fun _ => rfl, ?_, ?_⟩
  · rintro n s ⟨⟩
  · intro n e he
    simp only [samplePeer] at he
    split at he
    · obtain rfl := List.mem_singleton.mp he
      rfl
    · cases he

lemma sample_possible {c : Client} (speaks : Speaks c) :
    Possible c samplePeer samplePlatform sampleRequest sampleOrder where
  serves := sample_serves
  speaks := speaks
  willing := by
    refine ⟨fun _ _ => rfl, fun _ => rfl, fun _ => rfl, ?_, ?_⟩
    · rintro n addr ⟨⟩
    · rintro n status ⟨⟩
  shares := ⟨fun _ _ => rfl, fun _ _ => rfl, fun _ => rfl⟩
  files := by
    cases c <;> exact .present rfl rfl rfl rfl rfl
  network := by cases c <;> rfl
  ordered := .inl rfl
  fit := by
    rintro k ⟨⟩
    refine ⟨⟨by decide, by decide, ?_, by decide⟩, rfl⟩
    rintro ca ⟨⟩
  configurable := by
    rintro n ⟨⟩
    refine ⟨⟨by decide, ?_⟩, rfl⟩
    rintro p ⟨⟩
    decide
  secret := by
    rintro key ⟨⟩
    exact ⟨rfl, "pop", by decide, rfl, rfl⟩

lemma sample_connected (c : Client) : Connected samplePeer (sampleStart c) where
  ready := (call_answered CredPush.definite_readsRequests ⟨by decide, by decide⟩
    (init_ready Calls.sampleBoard 1 (fun _ => none) (fun _ => .whole) [])
    (a := .event (.mgrStart {})) rfl).2
  running := rfl
  attempts := UInt8.lt_iff_toNat_lt.mpr (Nat.lt_of_lt_of_eq (Nat.zero_lt_succ 2) rfl)
  authorized := fun h => absurd h Bool.false_ne_true
  address := rfl

section Sample

-- the statements are about runs, which are not evaluated
attribute [local irreducible] Ends

end Sample

end ProvisionFlow
