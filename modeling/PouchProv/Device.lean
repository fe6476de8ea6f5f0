import PouchProv.Auth

/-!
# The device

`dispatch.c`, `rpc.c` and `manager.c` around the handlers: entries of a downlink
pouch are collected and dispatched to an endpoint, responses are queued until
the next uplink, and the manager starts, stops and resets the session.

`Board` is what is fixed for a run: the build, the configured secret, the CBOR
reader and the HMAC function. `World` holds the answers of the platform to the
calls of one event. Runs start after a successful initialisation, so that the
configuration is never read before it is set.
-/

namespace Device

open Bytes Codec Handlers Auth ProvTypes Status CredStore WifiConfig

structure Board where
  build : Build
  pop : Option Bytes
  zcbor : Zcbor
  hmac : Option Bytes → Bytes → Bytes

structure World where
  memory : Bool := true
  crypto : Bool := true
  rand : Nonce := zeroNonce
  save : CredKind → Bool := fun _ => true
  read : CredKind → Settings.Read := fun _ => .whole
  wipe : WipeEnv := {}
  wifi : Env := {}
  scan : ScanEnv := {}
  status : StatusEnv := {}
  bt : Bool := true
  adv : Bool := true

structure Rsp where
  path : Bytes
  msg : Bytes
  deriving DecidableEq, Repr

/-- The queue, its semaphore, and the record of everything that was ever queued. -/
structure Rpc where
  fifo : List Rsp
  sem : Bool
  enqueued : List Rsp
  deriving DecidableEq, Repr

def rpcEnqueue (memory : Bool) (r : Rsp) (q : Rpc) : Except Errno Unit × Rpc :=
  if r.msg.length > msgMax then (.error .emsgsize, q)
  else if ¬ memory then (.error .enomem, q)
  else (.ok (), { fifo := q.fifo ++ [r], sem := true, enqueued := q.enqueued ++ [r] })

def rpcReset (q : Rpc) : Rpc := { q with fifo := [], sem := false }

/-- Drain the queue into the uplink, after taking the semaphore if the queue is empty. The
first component is what is written to the uplink, in order. -/
def rpcUplinkFlush (q : Rpc) : List Rsp × Rpc :=
  (q.fifo, { q with fifo := [], sem := if q.fifo.isEmpty then false else q.sem })

/-- The entry being received. -/
structure Active where
  endpoint : Option Endpoint
  buf : Bytes
  overflow : Bool
  deriving DecidableEq, Repr

structure Dev where
  running : Bool
  autostop : Bool
  active : Active
  session : Session
  rpc : Rpc
  cred : Store
  wifi : Wifi
  scan : Scan

/-- The device after `pouch_prov_mgr_init`, over what the stores hold. A build with a device
identity has loaded its settings. -/
def init (build : Build) (connAttempts : UInt32) (settings : CredKind → Option Bytes)
    (read : CredKind → Settings.Read) (creds : List Credential) : Dev where
  running := false
  autostop := false
  active := ⟨none, [], false⟩
  session := fresh
  rpc := ⟨[], false, []⟩
  cred := if build.identity ∧ build.cred then settingsLoad read (boot settings)
    else boot settings
  wifi := ⟨wifiConfigInit connAttempts (State.zero creds), List.replicate 4 0⟩
  scan := Scan.zero

/-- The event of the last provisioning step of the device class. -/
def isLastStep (build : Build) (e : Event) : Bool :=
  if build.wifi then e = .wifiConnected else build.cred && decide (e = .cloudCredStored)

/-- `pouch_prov_emit`: the last step arms the auto-stop timer of a running manager. -/
def emit (build : Build) (e : Event) (d : Dev) : Dev :=
  if build.autostop ∧ isLastStep build e ∧ d.running then { d with autostop := true } else d

def emitAll (build : Build) (outs : List Out) (d : Dev) : Dev :=
  outs.foldl (fun d o => match o with
    | .event e => emit build e d
    | .connect _ _ => d) d

/-- Reporting events changes nothing but the auto-stop timer. -/
lemma emit_frame (build : Build) (e : Event) (d : Dev) :
    ∃ armed, emit build e d = { d with autostop := armed } := by
  rw [emit]
  split
  · exact ⟨true, rfl⟩
  · exact ⟨d.autostop, rfl⟩

lemma emitAll_frame (build : Build) (outs : List Out) (d : Dev) :
    ∃ armed, emitAll build outs d = { d with autostop := armed } := by
  rw [emitAll]
  induction outs generalizing d with
  | nil => exact ⟨d.autostop, rfl⟩
  | cons o outs ih =>
    cases o with
    | connect req accepted => exact ih d
    | event e =>
      obtain ⟨armed, hemit⟩ := emit_frame build e d
      simp only [List.foldl_cons, hemit]
      exact ih { d with autostop := armed }

def dispatchReset (build : Build) (d : Dev) : Dev :=
  { d with active := { d.active with endpoint := none },
           session := sessionReset build d.session }

def endSession (build : Build) (d : Dev) : Dev :=
  let d := dispatchReset build d
  { d with rpc := rpcReset d.rpc }

def mgrSessionEnded (build : Build) (d : Dev) : Dev := endSession build d

def mgrStart (build : Build) (w : World) (d : Dev) : Except Errno Unit × Dev :=
  if d.running then (.error .ealready, d)
  else if ¬ w.bt then (.error .eio, d)
  else
    let d := { d with cred := if build.cred then settingsLoad w.read d.cred else d.cred }
    let d := { endSession build d with autostop := false }
    if ¬ w.adv then (.error .eio, d)
    else (.ok (), { d with running := true })

/-- A start reloads the credentials once Bluetooth is up. -/
lemma mgrStart_cred (build : Build) (w : World) (d : Dev) :
    (mgrStart build w d).2.cred =
      if d.running = false ∧ w.bt ∧ build.cred then settingsLoad w.read d.cred else d.cred := by
  cases hruns : d.running with
  | true => simp [mgrStart, hruns]
  | false =>
    cases hbt : w.bt with
    | false => simp [mgrStart, hruns, hbt]
    | true => cases hadv : w.adv <;> simp [mgrStart, hruns, hbt, hadv, endSession, dispatchReset]

def mgrStop (build : Build) (d : Dev) : Except Errno Unit × Dev :=
  if ¬ d.running then (.error .ealready, d)
  else (.ok (), endSession build { d with running := false, autostop := false })

def mgrReset (build : Build) (w : World) (d : Dev) : Dev :=
  let d := { d with
    wifi := if build.wifi then { d.wifi with wc := wifiReprovision w.wipe.wifi d.wifi.wc }
      else d.wifi
    cred := if build.cred then credDeleteAll w.wipe.cred d.cred else d.cred }
  endSession build d

/-- A Wi-Fi device is provisioned by a stored network, any other by its device certificate. -/
def mgrIsProvisioned (build : Build) (d : Dev) : Bool :=
  if build.wifi then wifiIsProvisioned d.wifi.wc else build.cred && credPresent d.cred .deviceCert

def path : Endpoint → Bytes
  | .ver => utf8 ".prov/ver"
  | .auth => utf8 ".prov/auth"
  | .ctrl => utf8 ".prov/ctrl"
  | .config => utf8 ".prov/config"
  | .scan => utf8 ".prov/scan"
  | .cred => utf8 ".prov/cred"

def requireAuth : Endpoint → Bool
  | .ver => false
  | .auth => false
  | _ => true

/-- The registered endpoints, in the order of the table. -/
def endpoints (build : Build) : List Endpoint :=
  [.ver] ++ (if build.auth then [.auth] else []) ++ [.ctrl] ++
    (if build.wifi then [.config, .scan] else []) ++ (if build.cred then [.cred] else [])

/-- `POUCH_CONTENT_TYPE_CBOR` -/
def contentTypeCbor : Nat := 60

def respondStatus (memory : Bool) (ep : Endpoint) (op : Nat) (status : ProvStatus)
    (d : Dev) : Dev :=
  match cborEncode 16 (encodeCtrlRsp ⟨op, status⟩) with
  | some b => { d with rpc := (rpcEnqueue memory ⟨path ep, b⟩ d.rpc).2 }
  | none => d

/-- The op code of a canonical message, for error replies. -/
def peekOp : Bytes → Nat
  | a :: b :: _ => if 0x81 ≤ a ∧ a ≤ 0x84 ∧ b ≤ 0x17 then b.toNat else 0
  | _ => 0

def downlinkStart (build : Build) (streamId : Nat) (p : Bytes) (contentType : Nat)
    (d : Dev) : Dev :=
  let d := { d with active := ⟨none, [], false⟩ }
  if streamId ≠ 0 ∨ p.take 6 ≠ utf8 ".prov/" then d
  else if contentType ≠ contentTypeCbor then d
  else { d with active := ⟨(endpoints build).find? (path · = p), [], false⟩ }

def runHandler (b : Board) (w : World) (ep : Endpoint) (req : Bytes) (d : Dev) :
    Except Errno Bytes × Dev :=
  match ep with
  | .ver => (handleVer b.zcbor b.build b.pop req, d)
  | .auth =>
    let (rsp, session) := handleAuth b.zcbor ⟨b.hmac, w.crypto⟩ b.pop w.rand d.session req
    (rsp, { d with session := session })
  | .ctrl =>
    let (rsp, wifi, cred, stops) := handleCtrl b.zcbor b.build w.wipe d.wifi d.cred req
    let d := { d with wifi := wifi, cred := cred }
    (rsp, if stops then (mgrStop b.build d).2 else d)
  | .config =>
    let (rsp, wifi, outs) := handleConfig b.zcbor w.status w.wifi d.wifi req
    (rsp, emitAll b.build outs { d with wifi := wifi })
  | .scan =>
    let (rsp, scan) := handleScan b.zcbor w.scan d.scan req
    (rsp, { d with scan := scan })
  | .cred =>
    let (rsp, cred, stored) := handleCred b.zcbor w.save d.cred req
    let d := { d with cred := cred }
    (rsp, if stored then emit b.build .cloudCredStored d else d)

/-- Queue what a handler returned, or a bare status in place of an error. -/
def reply (memory : Bool) (ep : Endpoint) (req : Bytes) (rsp : Except Errno Bytes) (d : Dev) :
    Dev :=
  match rsp with
  | .error .ebadmsg => respondStatus memory ep (peekOp req) .invalidArgument d
  | .error _ => respondStatus memory ep (peekOp req) .internalError d
  | .ok rsp =>
    if rsp.length > 0 then { d with rpc := (rpcEnqueue memory ⟨path ep, rsp⟩ d.rpc).2 } else d

/-- An answer changes nothing but the queue. -/
lemma respondStatus_frame (memory : Bool) (ep : Endpoint) (op : Nat) (status : ProvStatus)
    (d : Dev) : ∃ q, respondStatus memory ep op status d = { d with rpc := q } := by
  rw [respondStatus]
  split
  · exact ⟨_, rfl⟩
  · exact ⟨d.rpc, rfl⟩

lemma reply_frame (memory : Bool) (ep : Endpoint) (req : Bytes) (rsp : Except Errno Bytes)
    (d : Dev) : ∃ q, reply memory ep req rsp d = { d with rpc := q } := by
  unfold reply
  split
  · exact respondStatus_frame _ _ _ _ d
  · exact respondStatus_frame _ _ _ _ d
  · split
    · exact ⟨_, rfl⟩
    · exact ⟨d.rpc, rfl⟩

/-- A request that is complete and fits the buffer. -/
def handleRequest (b : Board) (w : World) (ep : Endpoint) (req : Bytes) (d : Dev) : Dev :=
  if requireAuth ep ∧ ¬ sessionAuthorized b.pop d.session then
    respondStatus w.memory ep (peekOp req) .unauthorized d
  else
    let d := { d with session := d.session.log (.handler ep) }
    let (rsp, d) := runHandler b w ep req d
    reply w.memory ep req rsp d

/-- Append a piece to the entry, or note that it does not fit. -/
def receive (data : Bytes) (a : Active) : Active :=
  if a.buf.length + data.length > msgMax then { a with overflow := true }
  else { a with buf := a.buf ++ data }

def downlinkData (b : Board) (w : World) (streamId : Nat) (data : Bytes) (isLast : Bool)
    (d : Dev) : Dev :=
  match d.active.endpoint with
  | none => d
  | some ep =>
    if streamId ≠ 0 then d
    else
      let a := receive data d.active
      if ¬ isLast then { d with active := a }
      else
        let d := { d with active := { a with endpoint := none } }
        if a.overflow then respondStatus w.memory ep 0 .invalidArgument d
        else handleRequest b w ep a.buf d

inductive Ev where
  | downlinkStart (streamId : Nat) (path : Bytes) (contentType : Nat)
  | downlinkData (streamId : Nat) (data : Bytes) (isLast : Bool) (w : World)
  | uplinkFlush
  | sessionEnded
  | mgrStart (w : World)
  | mgrStop
  | mgrReset (w : World)
  | autostop
  | connectResult (env : Env) (status : WifiStatus)
  | retryWork (env : Env)
  | scanResult (r : ScanResult)
  | scanDone

def step (b : Board) (d : Dev) : Ev → Dev
  | .downlinkStart streamId p contentType => downlinkStart b.build streamId p contentType d
  | .downlinkData streamId data isLast w => downlinkData b w streamId data isLast d
  | .uplinkFlush => { d with rpc := (rpcUplinkFlush d.rpc).2 }
  | .sessionEnded => mgrSessionEnded b.build d
  | .mgrStart w => (mgrStart b.build w d).2
  | .mgrStop => (mgrStop b.build d).2
  | .mgrReset w => mgrReset b.build w d
  | .autostop => if d.autostop then (mgrStop b.build { d with autostop := false }).2 else d
  | .connectResult env status =>
    if b.build.wifi then
      let (wc, outs) := onConnectResult env status d.wifi.wc
      emitAll b.build outs { d with wifi := { d.wifi with wc := wc } }
    else d
  | .retryWork env =>
    if b.build.wifi ∧ d.wifi.wc.retryWork then
      let (wc, outs) := retryWorkHandler env d.wifi.wc
      emitAll b.build outs { d with wifi := { d.wifi with wc := wc } }
    else d
  | .scanResult r => if b.build.wifi then { d with scan := onResult b.build r d.scan } else d
  | .scanDone => if b.build.wifi then { d with scan := Handlers.scanDone d.scan } else d

end Device
