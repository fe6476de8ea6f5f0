import PouchProv.CredFlows
import PouchProv.Provisioned
import PouchProv.WifiFlows

/-!
# Orders

`provision` of the command line in `main.py`, and `PouchProvDevice.provision` of the
Kotlin and the Swift client: the version, the handshake, the credentials, the network
and the end of the session. They differ in what counts as missing, in the handshake
that the phones do once per connection, and in what follows when the station fails.

An order is what a request comes to. `Completed` and `Interrupted` say what is left
at a device when it has been carried out.
-/

namespace ProvisionFlow

open Bytes Auth Device Calls ClientFlows
open ClientResponses (VersionInfo WifiStatus)
open CredStore (CredKind Store)
open DeviceResponses (Shows Words)
open ForwardCompat (Client)
open ScanFlow (Number)

/-- The options of the command line; the files are given by their contents. -/
structure ProvisionRequest where
  pop : Option String
  ssid : Option String
  password : Option String
  certificate : Option Bytes
  privateKey : Option Bytes
  caCertificate : Option Bytes

/-- What a client reports when it is done. -/
structure ProvisionResult (c : Client) where
  version : VersionInfo (Number c) (Words c)
  wifi : Option (WifiStatus (Number c))
  credentialsStored : Bool

def hasCap : (c : Client) → VersionInfo (Number c) (Words c) → String → Bool
  | .python _ dicts, info, cap => info.caps.any fun x => dicts.text x = some cap
  | .kotlin _, info, cap => info.caps.any fun x : String => x = cap
  | .swift _, info, cap => info.caps.any fun x : String => x = cap

section Clients

variable (c : Client) (p : Peer) (f : Platform)

def toDer (input : Bytes) : Prog c Bytes :=
  match Pem.toDer f.pem input c with
  | none => throw .pem
  | some der => pure der

def toDerIfGiven : Option Bytes → Prog c (Option Bytes)
  | none => pure none
  | some input => do
    let der ← toDer c f input
    return some der

namespace Command

/-- The part of `provision` for files. -/
def provisionFiles (r : ProvisionRequest) : Prog c Bool :=
  match r.certificate, r.privateKey with
  | some cert, some key => do
    let certDer ← toDer c f cert
    let keyDer ← toDer c f key
    let caDer ← toDerIfGiven c f r.caCertificate
    if certDer = [] then return false
    bootstrapCredentials c p certDer keyDer caDer
    let _ ← credStatus c p
    return true
  | _, _ => return false

/-- The part of `provision` for a network. -/
def provisionNetwork (info : VersionInfo (Number c) (Words c)) (r : ProvisionRequest)
    (waits : Nat) : Prog c (Option (WifiStatus (Number c))) :=
  match given r.ssid with
  | some ssid => do
    if ¬ hasCap c info "wifi" then throw .unsupported
    let status ← configureWifi c p (utf8 ssid) ((given r.password).map utf8) waits
    if status.state ≠ .connected then throw (.failed status.failReason)
    -- the message has the name of the network
    if status.ssid = none then throw .nameless
    return some status
  | none => return none

def provision (r : ProvisionRequest) (waits : Nat) : Prog c (ProvisionResult c) := do
  if r.certificate.isSome ≠ r.privateKey.isSome then throw .usage
  if given r.ssid = none ∧ r.certificate = none then throw .usage
  let info ← getVersion c p
  authorizeIfNeeded c p f info r.pop
  let stored ← provisionFiles c p f r
  let wifi ← provisionNetwork c p info r waits
  endSession c p
  return ⟨info, wifi, stored⟩

end Command

namespace PouchProvDevice

def authorize (pop : String) : Prog c Unit := do
  let s ← get
  if s.authorized then return ()
  ClientFlows.authorize c p f pop
  modify fun s => { s with authorized := true }

def provisionWifi (ssid : String) (password : Option String) (waits : Nat) :
    Prog c (WifiStatus (Number c)) :=
  configureWifi c p (utf8 ssid) (password.map utf8) waits

def provisionCredentials (cert key : Bytes) (ca : Option Bytes) : Prog c Unit := do
  let certDer ← toDer c f cert
  let keyDer ← toDer c f key
  let caDer ← toDerIfGiven c f ca
  bootstrapCredentials c p certDer keyDer caDer

/-- The part of `provision` for the secret. -/
def provisionSecret (info : VersionInfo (Number c) (Words c)) (pop : Option String) :
    Prog c Unit :=
  if info.popRequired then
    match given pop with
    | none => throw .secret
    | some pop => authorize c p f pop
  else pure ()

/-- The part of `provision` for files. -/
def provisionFiles (r : ProvisionRequest) : Prog c Bool :=
  match r.certificate, r.privateKey with
  | some cert, some key => do
    provisionCredentials c p f cert key r.caCertificate
    return true
  | _, _ => return false

/-- The part of `provision` for a network. -/
def provisionNetwork (info : VersionInfo (Number c) (Words c)) (r : ProvisionRequest)
    (waits : Nat) : Prog c (Option (WifiStatus (Number c))) :=
  match r.ssid with
  | some ssid => do
    if ¬ hasCap c info "wifi" then throw .unsupported
    let status ← provisionWifi c p ssid r.password waits
    return some status
  | none => return none

def provision (r : ProvisionRequest) (waits : Nat) : Prog c (ProvisionResult c) := do
  let info ← getVersion c p
  provisionSecret c p f info r.pop
  let stored ← provisionFiles c p f r
  let wifi ← provisionNetwork c p info r waits
  endSession c p
  return ⟨info, wifi, stored⟩

end PouchProvDevice

end Clients

def provision : (c : Client) → Peer → Platform → ProvisionRequest → Nat →
    Prog c (ProvisionResult c)
  | .python py dicts => Command.provision (.python py dicts)
  | .kotlin t => PouchProvDevice.provision (.kotlin t)
  | .swift t => PouchProvDevice.provision (.swift t)

/-- What a request comes to: credentials in DER, and a network with its password. -/
structure Order where
  credentials : Option Credentials
  network : Option (Bytes × Option Bytes)

def commandLine : Client → Bool
  | .python _ _ => true
  | .kotlin _ => false
  | .swift _ => false

/-- The command line takes an empty text as a missing one. -/
def networkOf (r : ProvisionRequest) (c : Client) : Option (Bytes × Option Bytes) :=
  if commandLine c then (given r.ssid).map fun ssid => (utf8 ssid, (given r.password).map utf8)
  else r.ssid.map fun ssid => (utf8 ssid, r.password.map utf8)

/-- The credentials that the files of a request hold. The phones ignore one file without the
other. -/
inductive Files (c : Client) (f : Platform) (r : ProvisionRequest) : Option Credentials → Prop where
  | absent (missing : r.certificate = none ∨ r.privateKey = none)
      (paired : commandLine c = true → r.certificate = none ∧ r.privateKey = none) :
      Files c f r none
  | present {k : Credentials} {cert key : Bytes} (certificate : r.certificate = some cert)
      (privateKey : r.privateKey = some key)
      (certDer : Pem.toDer f.pem cert c = some k.certificate)
      (keyDer : Pem.toDer f.pem key c = some k.privateKey)
      (caDer : r.caCertificate.map (Pem.toDer f.pem · c) = k.ca.map some) : Files c f r (some k)

/-- The request can be carried out: its order fits the device, which serves the client and shares
its secret. -/
structure Possible (c : Client) (p : Peer) (f : Platform) (r : ProvisionRequest) (order : Order) :
    Prop where
  serves : Serves p
  speaks : Speaks c
  willing : Willing p
  shares : Shares f p
  files : Files c f r order.credentials
  network : networkOf r c = order.network
  ordered : order.credentials.isSome ∨ order.network.isSome
  fit : ∀ k ∈ order.credentials, k.Fit ∧ p.board.build.cred = true
  configurable : ∀ n ∈ order.network, Network n.1 n.2 ∧ p.board.build.wifi = true
  secret : ∀ key ∈ p.board.pop,
    p.board.build.auth = true ∧ ∃ pop, pop ≠ "" ∧ r.pop = some pop ∧ key = utf8 pop

/-- The client is connected to a device that runs and can still be authorized. -/
structure Connected {c : Client} (p : Peer) (s : At c) : Prop where
  ready : Ready p.board s.dev
  running : s.dev.running = true
  attempts : s.dev.session.auth.attempts < maxAttempts
  authorized : s.authorized = true → s.dev.session.authorized = true
  address : s.dev.wifi.ip4.length = 4

/-- The credentials that are ordered are stored. Without an order the store is as it was. -/
def Stores (order : Order) (old new : Store) : Prop :=
  match order.credentials with
  | none => new = old
  | some k => Delivered k old new

/-- The report about the network is the state of the station. The command line reports a station
that is connected. -/
def Joined (c : Client) (order : Order) (wifi : Option (WifiStatus (Number c)))
    (wc : WifiConfig.State) : Prop :=
  match order.network with
  | none => wifi = none
  | some n => ∃ status reason, wifi = some status ∧ Settled status reason ∧
      (commandLine c = true → status.state = .connected) ∧
      Over n.1 n.2 status.state reason wc

/-- After a reboot, a manager that starts has the credentials. -/
def Restored (build : Handlers.Build) (k : Credentials) (d : Dev) : Prop :=
  ∀ connAttempts w, w.bt = true → (∀ kind, w.read kind = .whole) →
    ∀ d', d' = (mgrStart build w
      (init build connAttempts d.cred.settings w.read d.wifi.wc.creds)).2 →
    CredStore.credGet d'.cred .deviceCert = some k.certificate ∧
      CredStore.credGet d'.cred .privateKey = some k.privateKey ∧
      ∀ ca ∈ k.ca, CredStore.credGet d'.cred .caCert = some ca

structure Completed {c : Client} (p : Peer) (order : Order) (s : At c) (result : ProvisionResult c)
    (s' : At c) : Prop where
  version : Shows c (versionRsp p) result.version
  credentials : result.credentialsStored = order.credentials.isSome
  stores : Stores order s.dev.cred s'.dev.cred
  restored : ∀ k ∈ order.credentials, Restored p.board.build k s'.dev
  wifi : Joined c order result.wifi s'.dev.wifi.wc
  stopped : s'.dev.running = false ∧ s'.dev.session.authorized = false

/-- The station has not settled in time, or the command line has seen it fail. The session goes
on. -/
structure Interrupted {c : Client} (order : Order) (s : At c) (stop : Stop c) (s' : At c) :
    Prop where
  stores : Stores order s.dev.cred s'.dev.cred
  running : s'.dev.running = true
  reason : ∃ n ∈ order.network,
    stop = .unsettled ∧ s'.dev.wifi.wc.staState = .connecting ∨
      commandLine c = true ∧ ∃ reason, stop = .failed (some reason) ∧
        Over n.1 n.2 .failed reason s'.dev.wifi.wc

section Restart

variable {s : Store} {kind : CredKind} {value : Bytes} {read : CredKind → Settings.Read}

lemma credGet_settingsLoad (wf : CredRuns.Wf s) (stored : s.settings kind = some value)
    (fits : 1 ≤ value.length ∧ value.length ≤ CredStore.cap kind) (readable : read kind = .whole) :
    CredStore.credGet (CredStore.settingsLoad read s) kind = some value := by
  have hroom := (wf kind).size
  have hloaded : (CredStore.settingsLoad read s).blob kind = { s.blob kind with
      buf := writeAt (s.blob kind).buf 0 value, len := value.length } := by
    rw [CredStore.settingsLoad_eq]
    simp only [CredStore.loaded, stored, fits.2, readable, if_true, Settings.Read.written,
      List.take_of_length_le fits.2]
  have hpresent : CredStore.credPresent (CredStore.settingsLoad read s) kind = true := by
    rw [CredStore.credPresent, hloaded]
    exact decide_eq_true fits.1
  rw [CredStore.credGet, if_pos hpresent, hloaded]
  simp [writeAt]

lemma restored_of_delivered {k : Credentials} (fit : k.Fit) {build : Handlers.Build}
    (registered : build.cred = true) {old : Store} {d : Dev} (h : Delivered k old d.cred) :
    Restored build k d := by
  rintro connAttempts w hbt hread d' rfl
  have hwf := (CredSessions.init_cred_wf build connAttempts d.cred.settings w.read
    d.wifi.wc.creds).1
  have hcred : (mgrStart build w (init build connAttempts d.cred.settings w.read
      d.wifi.wc.creds)).2.cred = CredStore.settingsLoad w.read
        (init build connAttempts d.cred.settings w.read d.wifi.wc.creds).cred := by
    rw [mgrStart_cred, if_pos ⟨rfl, hbt, registered⟩]
  have hsettings := Provisioned.init_settings build connAttempts d.cred.settings w.read
    d.wifi.wc.creds
  rw [hcred]
  refine ⟨?_, ?_, fun ca hca => ?_⟩
  · exact credGet_settingsLoad hwf (by rw [hsettings, h.certificate]) fit.certificate (hread _)
  · exact credGet_settingsLoad hwf (by rw [hsettings, h.privateKey]) fit.privateKey (hread _)
  · have hstored : d.cred.settings .caCert = some ca := by
      rw [h.ca, Option.mem_def.mp hca]
      rfl
    exact credGet_settingsLoad hwf (by rw [hsettings, hstored]) (fit.ca ca hca) (hread _)

end Restart

end ProvisionFlow
