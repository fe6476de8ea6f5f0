import PouchProv.ProvTypes

/-!
# Wi-Fi station configuration

`wifi_config.c`: a set request stages the parameters of a network, an apply
request stores them in Zephyr's Wi-Fi credential store and starts a connect
attempt from a snapshot, and asynchronous connect results and a delayed retry
drive the attempt to its end.

The network interface, the driver and the credential store are outside the
repository. `Env` holds their answers to the calls of one request or one timer
expiry. A call of the credential store that fails leaves the store as it was.
The delayed work item is a flag: scheduling an already scheduled item changes
nothing, cancelling clears it, and it can only fire while it is set.
-/

namespace WifiConfig

open Status ProvTypes

def ssidMax : Nat := 32
def passMax : Nat := 63
def wifiMacAddrLen : Nat := 6

/-- The connect parameters, staged or of the attempt in flight. A field of the C structure
that has its own length is a byte string of that length. -/
structure Params where
  ssid : Bytes
  pass : Bytes
  bssid : Bytes
  hasBssid : Bool
  channel : UInt8
  deriving DecidableEq, Repr

def Params.zero : Params := ⟨[], [], List.replicate wifiMacAddrLen 0, false, 0⟩

/-- `enum wifi_conn_status`, as far as the code tells its values apart. -/
inductive ConnStatus where
  | success | fail | wrongPassword | timeout | apNotFound
  deriving DecidableEq, Repr

/-- `struct wifi_status` of a connect result. -/
structure WifiStatus where
  status : Int
  connStatus : ConnStatus
  deriving DecidableEq, Repr

inductive Security where
  | none | psk
  deriving DecidableEq, Repr

/-- An entry of the Wi-Fi credential store, as `wifi_credentials_set_personal` makes it. -/
structure Credential where
  ssid : Bytes
  security : Security
  bssid : Option Bytes
  pass : Bytes
  channel : UInt8
  deriving DecidableEq, Repr

/-- `WIFI_CHANNEL_ANY` -/
def wifiChannelAny : UInt8 := 255

/-- `struct wifi_connect_req_params`; without a BSSID its bytes are zero. -/
structure ConnectReq where
  ssid : Bytes
  psk : Option Bytes
  security : Security
  channel : UInt8
  bssid : Bytes
  deriving DecidableEq, Repr

structure State where
  staged : Params
  inflight : Params
  attemptsMax : UInt32
  attemptsCompleted : UInt32
  lastConnStatus : ConnStatus
  retryWork : Bool
  staState : StaState
  failReason : FailReason
  creds : List Credential

/-- The answers of the platform to the calls that one step makes. -/
structure Env where
  iface : Bool := true
  deleteBySsid : Bool := true
  setPersonal : Bool := true
  connectIface : Bool := true
  connect : Bool := true
  failDelete : Bool := true
  deriving DecidableEq, Repr

/-- What a step does besides changing the state: a connect request with the driver's
immediate answer, or an event for the application. -/
inductive Out where
  | connect (req : ConnectReq) (accepted : Bool)
  | event (e : Event)
  deriving DecidableEq, Repr

/-- The statics before initialisation, over what the credential store holds. -/
def State.zero (creds : List Credential) : State where
  staged := Params.zero
  inflight := Params.zero
  attemptsMax := 0
  attemptsCompleted := 0
  lastConnStatus := .success
  retryWork := false
  staState := .connected
  failReason := .authError
  creds := creds

def wifiConfigInit (connAttempts : UInt32) (wc : State) : State :=
  { wc with staState := .disconnected, attemptsMax := connAttempts, attemptsCompleted := 0,
            retryWork := false }

/-- The snapshot's BSSID bytes are not cleared; they are read only under `hasBssid`. -/
def clearInflight (wc : State) : State :=
  { wc with inflight := { Params.zero with bssid := wc.inflight.bssid } }

def connectReq (p : Params) : ConnectReq where
  ssid := p.ssid
  psk := if p.pass.length > 0 then some p.pass else none
  security := if p.pass.length > 0 then .psk else .none
  channel := if p.channel > 0 then p.channel else wifiChannelAny
  bssid := if p.hasBssid then p.bssid else List.replicate wifiMacAddrLen 0

/-- The returned flag is whether the call returned zero. -/
def connectFromInflight (env : Env) (wc : State) : Bool × List Out :=
  if env.connectIface then (env.connect, [.connect (connectReq wc.inflight) env.connect])
  else (false, [])

/-- `wifi_credentials_delete_by_ssid` -/
def deleteBySsid (ok : Bool) (ssid : Bytes) (creds : List Credential) : List Credential :=
  if ok then creds.filter (fun c => c.ssid ≠ ssid) else creds

/-- `wifi_credentials_set_personal` where it succeeds: one entry for each SSID. -/
def setPersonal (c : Credential) (creds : List Credential) : List Credential :=
  c :: creds.filter (fun d => d.ssid ≠ c.ssid)

def failureReason (last : ConnStatus) : FailReason :=
  if last = .apNotFound then .networkNotFound else .authError

def finalFailure (env : Env) (wc : State) : State × List Out :=
  (clearInflight { wc with
      staState := .failed
      failReason := failureReason wc.lastConnStatus
      -- A failed connect must not leave the device "provisioned".
      creds := deleteBySsid env.failDelete wc.inflight.ssid wc.creds },
    [.event (.wifiFail (failureReason wc.lastConnStatus))])

/-- The work item runs: it is no longer scheduled. -/
def retryWorkHandler (env : Env) (wc : State) : State × List Out :=
  let wc := { wc with retryWork := false }
  if wc.inflight.ssid.length = 0 then (wc, [])
  else
    let (ok, outs) := connectFromInflight env wc
    if ok then (wc, outs)
    else
      let (wc, outs') := finalFailure env wc
      (wc, outs ++ outs')

def onConnectResult (env : Env) (status : WifiStatus) (wc : State) : State × List Out :=
  if wc.inflight.ssid.length = 0 then (wc, []) -- stale result after a reset
  else if status.status = 0 then
    (clearInflight { wc with staState := .connected }, [.event .wifiConnected])
  else
    let wc := { wc with lastConnStatus := status.connStatus }
    if wc.attemptsMax > 0 then
      let wc := { wc with attemptsCompleted := wc.attemptsCompleted + 1 }
      if wc.attemptsCompleted < wc.attemptsMax then
        ({ wc with staState := .connecting, retryWork := true }, [])
      else finalFailure env wc
    else finalFailure env wc

def wifiConfigReset (wc : State) : State :=
  { clearInflight wc with
    retryWork := false
    staged := { Params.zero with bssid := wc.staged.bssid }
    attemptsCompleted := 0
    staState := .disconnected
    failReason := .authError }

def wifiIsProvisioned (wc : State) : Bool := !wc.creds.isEmpty

def wifiResetState (wc : State) : State := wifiConfigReset wc

/-- `deleted` is whether `wifi_credentials_delete_all` succeeds. -/
def wifiReprovision (deleted : Bool) (wc : State) : State :=
  wifiConfigReset { wc with creds := if deleted then [] else wc.creds }

def doSet (cfg : WifiCfg) (wc : State) : ProvStatus × State :=
  if cfg.ssid.length = 0 ∨ cfg.ssid.length > ssidMax then (.invalidArgument, wc)
  else if (cfg.pass.getD []).length > passMax then (.invalidArgument, wc)
  else
    let hasBssid := (cfg.bssid.map List.length) = some wifiMacAddrLen
    (.ok, { wc with staged :=
      { ssid := cfg.ssid
        pass := cfg.pass.getD []
        bssid := if hasBssid then cfg.bssid.getD [] else wc.staged.bssid
        hasBssid := hasBssid
        channel := match cfg.ch with
          | some ch => UInt8.ofNat ch
          | none => 0 } })

/-- The credential that an apply stores for the staged parameters. -/
def credentialOf (p : Params) : Credential where
  ssid := p.ssid
  security := if p.pass.length > 0 then .psk else .none
  bssid := if p.hasBssid then some p.bssid else none
  pass := p.pass
  channel := p.channel

/-- The state in which an apply issues its connect request. -/
def beginAttempt (wc : State) : State :=
  { wc with
    creds := setPersonal (credentialOf wc.staged) wc.creds
    staState := .connecting
    retryWork := false
    inflight := { wc.staged with
      bssid := if wc.staged.hasBssid then wc.staged.bssid else wc.inflight.bssid }
    attemptsCompleted := 0 }

def doApply (env : Env) (wc : State) : ProvStatus × State × List Out :=
  if ¬ env.iface ∨ wc.staged.ssid.length = 0 then (.invalidState, wc, [])
  else
    let wc := { wc with creds := deleteBySsid env.deleteBySsid wc.staged.ssid wc.creds }
    if ¬ env.setPersonal then (.internalError, wc, [])
    else
      let wc := beginAttempt wc
      let (ok, outs) := connectFromInflight env wc
      if ok then (.ok, wc, .event .wifiCredRecv :: outs)
      else
        -- Rejected synchronously: surface as an async-style failure.
        let (wc, outs') := finalFailure env { wc with lastConnStatus := .wrongPassword }
        (.ok, wc, .event .wifiCredRecv :: outs ++ outs')

/-- The steps of the Wi-Fi state machine: client requests, driver results, timer expiry. -/
inductive Ev where
  | set (cfg : WifiCfg)
  | apply (env : Env)
  | result (env : Env) (status : WifiStatus)
  | retry (env : Env)
  | reset
  | reprovision (deleted : Bool)

def step (wc : State) : Ev → State × List Out
  | .set cfg => ((doSet cfg wc).2, [])
  | .apply env => (doApply env wc).2
  | .result env status => onConnectResult env status wc
  | .retry env => if wc.retryWork then retryWorkHandler env wc else (wc, [])
  | .reset => (wifiResetState wc, [])
  | .reprovision deleted => (wifiReprovision deleted wc, [])

def next (wc : State) (e : Ev) : State := (step wc e).1

end WifiConfig
