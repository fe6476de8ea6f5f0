import PouchProv.ProvisionFlow

/-!
# Orders that are refused, and the next owner

Orders of a client without the secret of the device, and second orders of a phone on
one connection, whose session the first has ended, leave the device as it is. After
`reprovision` the next owner finds nothing of the one before.
-/

namespace ProvisionFlow

open Bytes Auth Device Calls ClientFlows
open ClientResponses (VersionInfo)
open CredStore (CredKind Store)
open DeviceResponses (Shows Words)
open Flow (Ends)
open ForwardCompat (Client)
open ScanFlow (Number)

section Secret

variable {c : Client} {p : Peer} {f : Platform} {r : ProvisionRequest} {s : At c}

/-- The device has a secret that the client does not have. -/
structure Unknown (p : Peer) (f : Platform) (r : ProvisionRequest) (key : Bytes) : Prop where
  shares : Shares f p
  registered : p.board.build.auth = true
  configured : p.board.pop = some key
  wrong : ∀ pop, given r.pop = some pop → ∀ rand : Nonce,
    f.hmac key (utf8 "dev" ++ f.nonce.val ++ rand.val) ≠
      deviceProof f.hmac pop f.nonce.val rand.val

/-- Nothing has happened but what the network interface does by itself, and challenges. -/
structure Untouched (d d' : Dev) : Prop where
  authorized : d'.session.authorized = d.session.authorized
  attempts : d'.session.auth.attempts = d.session.auth.attempts
  cred : d'.cred = d.cred
  staged : d'.wifi.wc.staged = d.wifi.wc.staged
  running : d'.running = d.running

/-- The view of a client that has done nothing. -/
def untouched (s : At c) : View where
  flag := s.authorized
  running := s.dev.running
  session authorized auth := authorized = s.dev.session.authorized ∧
    auth.attempts = s.dev.session.auth.attempts
  cred st := st = s.dev.cred
  station wc := wc.staged = s.dev.wifi.wc.staged

lemma untouched_stable (s : At c) : Stable (untouched s).station := by
  refine stable_of_moves fun wc wc' moves h => ?_
  cases moves with
  | waits last completed retry sta state => exact h
  | joins fly => exact h
  | fails fly env last completed retry => exact h

lemma untouched_meets (ready : Ready p.board s.dev) (address : s.dev.wifi.ip4.length = 4) :
    Meets p (untouched s) s :=
  ⟨ready, ⟨rfl, ⟨rfl, rfl⟩, rfl, rfl, address⟩, rfl⟩

lemma untouched_of_meets {s' : At c} (meets : Meets p (untouched s) s') :
    Untouched s.dev s'.dev :=
  ⟨meets.dev.session.1, meets.dev.session.2, meets.dev.cred, meets.dev.station, meets.dev.running⟩

lemma untouched_of_challenged {s' : At c} {rand : Nonce}
    (meets : Meets p (challenged f rand (untouched s)) s') : Untouched s.dev s'.dev := by
  obtain ⟨⟨old, ⟨hauthorized, hold⟩, hattempts⟩, -⟩ := meets.dev.session
  exact ⟨hauthorized, hattempts.trans hold, meets.dev.cred, meets.dev.station, meets.dev.running⟩

/-- The client says what is wrong. -/
def Stuck (r : ProvisionRequest) (stop : Stop c) : Prop :=
  stop = .secret ∧ given r.pop = none ∨ stop = .impostor ∧ (given r.pop).isSome

lemma impostor_stops {key : Bytes} (serves : Serves p) (speaks : Speaks c)
    (unknown : Unknown p f r key) {pop : String} (hpop : given r.pop = some pop) {s₁ : At c}
    (meets : Meets p (untouched s) s₁) :
    Ends (authorize c p f pop) s₁ (fun _ _ => False)
      (fun stop s' => Stuck r stop ∧ Untouched s.dev s'.dev) := by
  refine (authorize_impostor serves speaks unknown.shares unknown.registered unknown.configured
    (unknown.wrong pop hpop) meets (untouched_stable s)).mono (fun _ _ h => h) ?_
  rintro stop s' ⟨rfl, rand, hmeets⟩
  refine ⟨.inr ⟨rfl, ?_⟩, untouched_of_challenged hmeets⟩
  rw [hpop]
  rfl

lemma popRequired_of_unknown {key : Bytes} (unknown : Unknown p f r key)
    {info : VersionInfo (Number c) (Words c)} (shows : Shows c (versionRsp p) info) :
    info.popRequired = true := by
  rw [popRequired_eq shows, unknown.registered, unknown.configured]
  rfl

lemma command_stops {key : Bytes} (serves : Serves p) (speaks : Speaks c)
    (unknown : Unknown p f r key) (ready : Ready p.board s.dev)
    (address : s.dev.wifi.ip4.length = 4) (waits : Nat) :
    Ends (Command.provision c p f r waits) s (fun _ _ => False)
      (fun stop s' => (Stuck r stop ∨ stop = .usage) ∧ Untouched s.dev s'.dev) := by
  have hsame : Untouched s.dev s.dev := ⟨rfl, rfl, rfl, rfl, rfl⟩
  rw [Command.provision]
  split
  · exact Ends.stop (Flow.ends_throw.mpr ⟨.inr rfl, hsame⟩)
  split
  · exact Ends.stop (Flow.ends_throw.mpr ⟨.inr rfl, hsame⟩)
  refine (getVersion_ends serves speaks (untouched_meets ready address)
    (untouched_stable s)).bind ?_
  rintro info s₁ ⟨hshows, hmeets⟩
  refine Ends.stop ?_
  rw [authorizeIfNeeded, popRequired_of_unknown unknown hshows, if_pos rfl]
  cases hpop : given r.pop with
  | none => exact ⟨.inl (.inl ⟨rfl, hpop⟩), untouched_of_meets hmeets⟩
  | some pop =>
    exact (impostor_stops serves speaks unknown hpop hmeets).mono (fun _ _ h => h)
      fun _ _ h => ⟨.inl h.1, h.2⟩

lemma phone_stops {key : Bytes} (serves : Serves p) (speaks : Speaks c)
    (unknown : Unknown p f r key) (unauthorized : s.authorized = false)
    (ready : Ready p.board s.dev) (address : s.dev.wifi.ip4.length = 4) (waits : Nat) :
    Ends (PouchProvDevice.provision c p f r waits) s (fun _ _ => False)
      (fun stop s' => Stuck r stop ∧ Untouched s.dev s'.dev) := by
  rw [PouchProvDevice.provision]
  refine (getVersion_ends serves speaks (untouched_meets ready address)
    (untouched_stable s)).bind ?_
  rintro info s₁ ⟨hshows, hmeets⟩
  refine Ends.stop ?_
  rw [PouchProvDevice.provisionSecret, popRequired_of_unknown unknown hshows, if_pos rfl]
  cases hpop : given r.pop with
  | none => exact ⟨.inl ⟨rfl, hpop⟩, untouched_of_meets hmeets⟩
  | some pop =>
    have hflag : s₁.authorized = false := hmeets.flag.trans unauthorized
    dsimp only
    rw [PouchProvDevice.authorize]
    refine Flow.ends_bind.mpr (Flow.ends_get.mpr ?_)
    simp only [hflag, Bool.false_eq_true, if_false]
    exact (impostor_stops serves speaks unknown hpop hmeets).stop

/-- A client that does not have the secret of the device stops, whatever it is asked to do. It has
used up no attempt, and it has changed nothing at the device. -/
theorem provision_without_secret {key : Bytes} (serves : Serves p) (speaks : Speaks c)
    (unknown : Unknown p f r key) (unauthorized : s.authorized = false)
    (ready : Ready p.board s.dev) (address : s.dev.wifi.ip4.length = 4) (waits : Nat) :
    Ends (provision c p f r waits) s (fun _ _ => False) (fun stop s' =>
      (Stuck r stop ∨ commandLine c = true ∧ stop = .usage) ∧ Untouched s.dev s'.dev) := by
  cases c with
  | python py dicts =>
    refine (command_stops serves speaks unknown ready address waits).mono (fun _ _ h => h) ?_
    rintro stop s' ⟨hstop, huntouched⟩
    exact ⟨hstop.imp_right fun h => ⟨rfl, h⟩, huntouched⟩
  | kotlin | swift =>
    exact (phone_stops serves speaks unknown unauthorized ready address waits).mono
      (fun _ _ h => h) fun _ _ h => ⟨.inl h.1, h.2⟩

end Secret

/-- An HMAC that is the key, filled up with zeros. -/
def paddedKey (key : Bytes) : Bytes := (key ++ List.replicate proofLen 0).take proofLen

def paddedBoard : Board :=
  { Calls.sampleBoard with hmac := fun key _ => paddedKey (key.getD []) }

def paddedPeer : Peer := { samplePeer with board := paddedBoard }

def paddedPlatform : Platform := { samplePlatform with hmac := fun key _ => paddedKey key }

section Sample

attribute [local irreducible] Ends

theorem provision_without_secret_sample :
    Ends (provision (.python DeviceResponses.responseCodec DeviceResponses.responseDicts) paddedPeer
        paddedPlatform { sampleRequest with pop := some "top" } 3) (sampleStart _)
      (fun _ _ => False) (fun stop s' =>
        (Stuck { sampleRequest with pop := some "top" } stop ∨ true = true ∧ stop = .usage) ∧
          Untouched sampleDevice s'.dev) := by
  have hserves : Serves paddedPeer :=
    ⟨sample_serves.reads, sample_serves.sized, sample_serves.memory, sample_serves.measured,
      sample_serves.radio⟩
  have hunknown : Unknown paddedPeer paddedPlatform { sampleRequest with pop := some "top" }
      (utf8 "pop") := by
    refine ⟨⟨fun _ _ => rfl, fun key _ => ?_, fun _ => rfl⟩, rfl, rfl, ?_⟩
    · change ((key ++ List.replicate proofLen 0).take proofLen).length = proofLen
      rw [List.length_take, List.length_append, List.length_replicate]
      omega
    · rintro pop hpop rand
      obtain rfl : "top" = pop := Option.some.inj hpop
      exact show paddedKey (utf8 "pop") ≠ paddedKey (utf8 "top") by decide
  exact provision_without_secret hserves python_speaks hunknown rfl
    (sample_connected _).ready rfl 3

end Sample

section Again

variable {c : Client} {p : Peer} {f : Platform} {r : ProvisionRequest} {order : Order} {v : View}
  {s : At c}

/-- A phone that takes the session for authorized, at a device that does not. -/
structure Stale (p : Peer) (v : View) : Prop where
  secret : p.board.pop.isSome
  flag : v.flag = true
  closed : Closed p v.session
  stable : Stable v.station

/-- The phone skips the handshake. -/
lemma secret_stale (possible : Possible c p f r order) (stale : Stale p v)
    {info : VersionInfo (Number c) (Words c)} (shows : Shows c (versionRsp p) info)
    {E : Stop c → At c → Prop} (meets : Meets p v s) :
    Ends (PouchProvDevice.provisionSecret c p f info r.pop) s (fun _ s' => Meets p v s') E := by
  obtain ⟨key, hkey⟩ := Option.isSome_iff_exists.mp stale.secret
  obtain ⟨hauth, pop, hne, hgiven, rfl⟩ := possible.secret key hkey
  rw [PouchProvDevice.provisionSecret, popRequired_eq shows, hauth, hkey, Option.isSome_some,
    Bool.and_true, if_pos rfl, hgiven, given_some hne]
  dsimp only
  rw [PouchProvDevice.authorize]
  refine Flow.ends_bind.mpr (Flow.ends_get.mpr ?_)
  simp only [meets.flag.trans stale.flag, if_true]
  exact Flow.ends_pure.mpr meets

lemma files_stale (possible : Possible c p f r order) (stale : Stale p v) (meets : Meets p v s) :
    Ends (PouchProvDevice.provisionFiles c p f r) s (fun _ s' => Meets p v s')
      (fun stop s' => stop = .refused ∧ Meets p v s') := by
  rw [PouchProvDevice.provisionFiles]
  have hfiles := possible.files
  generalize hcredentials : order.credentials = credentials at hfiles
  cases hfiles with
  | absent missing paired =>
    split
    · simp_all
    · exact meets
  | @present k cert key certificate privateKey certDer keyDer caDer =>
    obtain ⟨hfit, hregistered⟩ := possible.fit k hcredentials
    rw [certificate, privateKey]
    dsimp only
    rw [PouchProvDevice.provisionCredentials, toDer_eq certDer, toDer_eq keyDer,
      toDerIfGiven_eq caDer]
    simp only [pure_bind]
    exact (bootstrapCredentials_refused possible.serves possible.speaks hregistered hfit
      stale.closed stale.stable meets).stop

lemma network_stale (possible : Possible c p f r order) (phone : commandLine c = false)
    (stale : Stale p v) {info : VersionInfo (Number c) (Words c)}
    (shows : Shows c (versionRsp p) info) (waits : Nat) (meets : Meets p v s) :
    Ends (PouchProvDevice.provisionNetwork c p info r waits) s (fun _ s' => Meets p v s')
      (fun stop s' => stop = .refused ∧ Meets p v s') := by
  have hnetwork := possible.network
  rw [networkOf, if_neg (Bool.eq_false_iff.mp phone)] at hnetwork
  rw [PouchProvDevice.provisionNetwork]
  cases hssid : r.ssid with
  | none => exact meets
  | some ssid =>
    rw [hssid] at hnetwork
    obtain ⟨hconfigurable, hregistered⟩ := possible.configurable _ hnetwork.symm
    simp only [hasCap_wifi shows hregistered, not_true_eq_false, if_false]
    exact (configureWifi_refused possible.serves possible.speaks hregistered hconfigurable
      stale.closed stale.stable waits meets).stop

/-- Whatever comes first is refused. -/
lemma phone_refused (possible : Possible c p f r order) (phone : commandLine c = false)
    (stale : Stale p v) (waits : Nat) (meets : Meets p v s) :
    Ends (PouchProvDevice.provision c p f r waits) s (fun _ _ => False)
      (fun stop s' => stop = .refused ∧ Meets p v s') := by
  rw [PouchProvDevice.provision]
  refine (getVersion_ends possible.serves possible.speaks meets stale.stable).bind ?_
  rintro info s₁ ⟨hshows, hmeets⟩
  refine (secret_stale possible stale hshows hmeets).bind fun _ s₂ hmeets => ?_
  refine (files_stale possible stale hmeets).bind fun stored s₃ hmeets => ?_
  refine (network_stale possible phone stale hshows waits hmeets).bind fun wifi s₄ hmeets => ?_
  exact (endSession_refused possible.serves possible.speaks stale.closed stale.stable hmeets).stop

lemma phone_twice {r' : ProvisionRequest} {order' : Order} (phone : commandLine c = false)
    (first : Possible c p f r order) (second : Possible c p f r' order')
    (secret : p.board.pop.isSome) (connected : Connected p s) (waits waits' : Nat) :
    Ends (do
      let _ ← PouchProvDevice.provision c p f r waits
      PouchProvDevice.provision c p f r' waits') s (fun _ _ => False)
      (fun stop s' => Interrupted order s stop s' ∨ stop = .refused ∧
        Stores order s.dev.cred s'.dev.cred ∧ ∃ wifi, Joined c order wifi s'.dev.wifi.wc) := by
  refine Ends.bind ((phone_completes first connected phone waits).mono (fun _ _ h => h)
    fun _ _ h => .inl h) ?_
  rintro result s₁ ⟨-, flag, hflag, hmeets⟩
  have hstale : Stale p (ended (opened p flag (Stores order s.dev.cred)
      (Joined c order result.wifi))) := by
    refine ⟨secret, hflag secret, ?_, joined_stable c order result.wifi⟩
    rintro authorized auth (rfl : authorized = false)
    obtain ⟨key, hkey⟩ := Option.isSome_iff_exists.mp secret
    rw [hkey]
    rfl
  refine (phone_refused second phone hstale waits' hmeets).mono (fun _ _ h => h) ?_
  rintro stop s₂ ⟨rfl, hmeets⟩
  exact .inr ⟨rfl, hmeets.dev.cred, result.wifi, hmeets.dev.station⟩

/-- A phone orders twice on one connection to a device with a secret. The end of the first session
takes the authorization, which the phone does not notice: it skips the handshake, and the second
order is refused as a whole. -/
theorem second_provision_refused {r' : ProvisionRequest} {order' : Order}
    (phone : commandLine c = false) (first : Possible c p f r order)
    (second : Possible c p f r' order') (secret : p.board.pop.isSome) (connected : Connected p s)
    (waits waits' : Nat) :
    Ends (do
      let _ ← provision c p f r waits
      provision c p f r' waits') s (fun _ _ => False)
      (fun stop s' => Interrupted order s stop s' ∨ stop = .refused ∧
        Stores order s.dev.cred s'.dev.cred ∧ ∃ wifi, Joined c order wifi s'.dev.wifi.wc) := by
  cases c with
  | python py dicts => cases phone
  | kotlin | swift => exact phone_twice phone first second secret connected waits waits'

end Again

section Sample

attribute [local irreducible] Ends

theorem second_provision_refused_sample :
    Ends (do
      let _ ← provision (.kotlin ClientResponses.referenceTexts) samplePeer samplePlatform
        sampleRequest 3
      provision (.kotlin ClientResponses.referenceTexts) samplePeer samplePlatform
        sampleRequest 3) (sampleStart _) (fun _ _ => False)
      (fun stop s' => Interrupted sampleOrder (sampleStart _) stop s' ∨ stop = .refused ∧
        Stores sampleOrder sampleDevice.cred s'.dev.cred ∧
          ∃ wifi, Joined (.kotlin ClientResponses.referenceTexts) sampleOrder wifi
            s'.dev.wifi.wc) := by
  have hpossible := sample_possible kotlin_speaks
  exact second_provision_refused rfl hpossible hpossible rfl (sample_connected _) 3 3

end Sample

section Transfer

variable {c : Client} {p : Peer} {f : Platform} {r : ProvisionRequest} {order : Order} {s : At c}

/-- The client leaves and connects again. -/
def reconnected (p : Peer) (s : At c) : At c :=
  { s with dev := step p.board s.dev .sessionEnded, blockSize := none, authorized := false }

/-- The credentials of an order. -/
def ordered (order : Order) : CredKind → Option Bytes
  | .deviceCert => order.credentials.map Credentials.certificate
  | .privateKey => order.credentials.map Credentials.privateKey
  | .caCert => order.credentials.bind Credentials.ca

/-- Into an empty store goes what is ordered, and nothing else. -/
lemma settings_ordered {old new : Store} (empty : Emptied old) (h : Stores order old new)
    (kind : CredKind) : new.settings kind = ordered order kind := by
  rw [Stores] at h
  cases horder : order.credentials with
  | none =>
    simp only [horder] at h
    have hnone := (empty kind).1
    rw [CredPush.stored] at hnone
    split at hnone
    · cases hnone
    · rw [h, hnone]
      cases kind <;> simp [ordered, horder]
  | some k =>
    simp only [horder] at h
    cases kind with
    | deviceCert => simp [ordered, horder, h.certificate]
    | privateKey => simp [ordered, horder, h.privateKey]
    | caCert => simp [ordered, horder, h.ca, (empty .caCert).1]

lemma Connected.emptied (connected : Connected p s) {s₁ : At c}
    (meets : Meets p (ClientFlows.emptied (untouched s)) s₁) : Connected p s₁ := by
  obtain ⟨hauthorized, hattempts⟩ := meets.dev.session
  refine ⟨meets.ready, meets.dev.running.trans connected.running, ?_, ?_, meets.dev.address⟩
  · rw [hattempts]
    exact connected.attempts
  · rw [hauthorized, meets.flag]
    exact connected.authorized

lemma Connected.reconnected (serves : Serves p) (auth : p.board.build.auth = true)
    (connected : Connected p s) : Connected p (reconnected p s) := by
  refine ⟨?_, connected.running, ?_, fun h => absurd h Bool.false_ne_true, connected.address⟩
  · exact (call_answered serves.reads serves.sized connected.ready (a := .event .sessionEnded)
      rfl).2
  · have hzero : (ProvisionFlow.reconnected p s).dev.session.auth.attempts = 0 := by
      simp [ProvisionFlow.reconnected, step, mgrSessionEnded, Device.endSession, dispatchReset,
        sessionReset, Session.log, auth, AuthState.zero]
    rw [hzero]
    decide

/-- A device changes hands. Once a client has wiped it, it is not provisioned; and provisioning it
again, on the same connection or on a new one, leaves exactly the credentials that are ordered,
whether or not the network is joined. -/
theorem transfer_leaves_nothing (possible : Possible c p f r order) (connected : Connected p s)
    (full : p.board.build.wifi = true ∧ p.board.build.cred = true ∧ p.board.build.auth = true)
    (opens : (s.dev.session.authorized || p.board.pop.isNone) = true) (wipes : Wipes p)
    (waits : Nat) :
    Ends (reprovision c p) s
      (fun _ s₁ => mgrIsProvisioned p.board.build s₁.dev = false ∧
        ∀ s₂, s₂ = s₁ ∨ s₂ = reconnected p s₁ →
          Ends (provision c p f r waits) s₂
            (fun result s' => Completed p order s₂ result s' ∧
              ∀ kind, s'.dev.cred.settings kind = ordered order kind)
            (fun stop s' => Interrupted order s₂ stop s' ∧
              ∀ kind, s'.dev.cred.settings kind = ordered order kind))
      (fun _ _ => False) := by
  have hopens : Opens p (untouched s).session := by
    rintro authorized auth ⟨rfl, -⟩
    exact opens
  refine (reprovision_ends possible.serves possible.speaks wipes ⟨full.1, full.2.1⟩ hopens
    (untouched_stable s) (untouched_meets connected.ready connected.address)).mono ?_
      fun _ _ h => h
  rintro _ s₁ hmeets
  have hforgotten : s₁.dev.wifi.wc.creds = [] := hmeets.dev.station
  have hconnected := connected.emptied hmeets
  refine ⟨?_, ?_⟩
  · simp [mgrIsProvisioned, full.1, WifiConfig.wifiIsProvisioned, hforgotten]
  · intro s₂ hs₂
    have hempty : Emptied s₂.dev.cred := by
      rcases hs₂ with rfl | rfl <;> exact hmeets.dev.cred
    have hready : Connected p s₂ := by
      rcases hs₂ with rfl | rfl
      · exact hconnected
      · exact hconnected.reconnected possible.serves full.2.2
    refine (provision_ends possible hready waits).mono ?_ ?_
    · intro result s' h
      exact ⟨h, settings_ordered hempty h.stores⟩
    · intro stop s' h
      exact ⟨h, settings_ordered hempty h.stores⟩

end Transfer

section Sample

attribute [local irreducible] Ends

/-- A client that has shown the secret. -/
def sampleOpen (c : Client) : At c :=
  { sampleStart c with dev := { sampleDevice with
      session := { sampleDevice.session with authorized := true } } }

lemma open_connected (c : Client) : Connected samplePeer (sampleOpen c) := by
  have hclosed := sample_connected c
  obtain ⟨hfifo, hranged⟩ := hclosed.ready
  exact ⟨⟨hfifo, hranged.typed, hranged.size, hranged.cred⟩, rfl, hclosed.attempts, fun _ => rfl,
    hclosed.address⟩

theorem transfer_leaves_nothing_sample :
    Ends (reprovision (.kotlin ClientResponses.referenceTexts) samplePeer) (sampleOpen _)
      (fun _ s₁ => mgrIsProvisioned samplePeer.board.build s₁.dev = false ∧
        ∀ s₂, s₂ = s₁ ∨ s₂ = reconnected samplePeer s₁ →
          Ends (provision (.kotlin ClientResponses.referenceTexts) samplePeer samplePlatform
              sampleRequest 3) s₂
            (fun result s' => Completed samplePeer sampleOrder s₂ result s' ∧
              ∀ kind, s'.dev.cred.settings kind = ordered sampleOrder kind)
            (fun stop s' => Interrupted sampleOrder s₂ stop s' ∧
              ∀ kind, s'.dev.cred.settings kind = ordered sampleOrder kind))
      (fun _ _ => False) :=
  transfer_leaves_nothing (sample_possible kotlin_speaks) (open_connected _)
    ⟨rfl, rfl, rfl⟩ rfl (fun _ => ⟨rfl, fun _ => rfl⟩) 3

end Sample

end ProvisionFlow
