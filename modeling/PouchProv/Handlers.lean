import PouchProv.Codec
import PouchProv.CredStore
import PouchProv.WifiConfig

/-!
# Request handlers

The handlers of `version.c`, `wifi_scan.c`, `wifi_config.c`, `cred.c` and
`ctrl.c`. A handler decodes its request, works on the state of its own module
and encodes a response into a buffer of the size of a message. It returns the
response or an error number, and the new state.

`Build` holds the configuration options that the code tests.
-/

namespace Handlers

open Bytes Codec ProvTypes Status CredStore WifiConfig

/-- `POUCH_PROV_MSG_MAX` -/
def msgMax : Nat := 384

structure Build where
  auth : Bool
  wifi : Bool
  cred : Bool
  identity : Bool
  blockSize : Nat
  scanCache : Nat
  autostop : Bool
  deriving DecidableEq, Repr

def decodeWith {α : Type} (z : Zcbor) (dec : Cbor.Item → Option α) (req : Bytes) : Option α :=
  (z.read req).bind dec

/-- Every handler ends in an encoder whose failure is `-ENOMEM`. -/
def answer (item : Option Cbor.Item) : Except Errno Bytes :=
  match cborEncode msgMax item with
  | some b => .ok b
  | none => .error .enomem

def verInfo (build : Build) (pop : Option Bytes) : VerInfo :=
  let gated := build.auth && pop.isSome
  { proto := 1
    caps := (if build.wifi then ["wifi", "scan"] else []) ++ (if build.cred then ["cred"] else [])
      ++ (if gated then ["auth"] else [])
    blk := build.blockSize
    lib := "0.1.0"
    pop := some gated }

def handleVer (z : Zcbor) (build : Build) (pop : Option Bytes) (req : Bytes) :
    Except Errno Bytes :=
  match decodeWith z decodeVerReq req with
  | none => .error .ebadmsg
  | some () => answer (encodeVerRsp ⟨.ok, verInfo build pop⟩)

/-- The scan cache: its first `count` entries, and the flag of the done event. -/
structure Scan where
  entries : List ScanEntry
  finished : Bool
  deriving DecidableEq, Repr

/-- `struct wifi_scan_result`, as far as it is read. The address is an array of fixed size. -/
structure ScanResult where
  ssid : Bytes
  mac : { b : Bytes // b.length = wifiMacAddrLen }
  channel : UInt8
  rssi : Int8
  security : UInt32
  deriving DecidableEq

def Scan.zero : Scan := ⟨[], false⟩

def wifiSsidMaxLen : Nat := 32

def pageMax : Nat := 6

def onResult (build : Build) (r : ScanResult) (sc : Scan) : Scan :=
  if sc.entries.length ≥ build.scanCache then sc
  else { sc with entries := sc.entries ++
    [⟨r.ssid.take wifiSsidMaxLen, r.mac.val, r.channel.toNat, r.rssi.toInt,
      r.security.toNat⟩] }

def scanDone (sc : Scan) : Scan := { sc with finished := true }

/-- The answers to the scan request of one start. -/
structure ScanEnv where
  iface : Bool := true
  request : Bool := true
  deriving DecidableEq, Repr

def doStart (env : ScanEnv) (sc : Scan) : ProvStatus × Scan :=
  if ¬ env.iface then (.internalError, sc)
  else if ¬ env.request then (.internalError, ⟨[], true⟩)
  else (.ok, ⟨[], false⟩)

/-- The entries of a results page. -/
def page (start want : Nat) (sc : Scan) : List ScanEntry :=
  (sc.entries.drop start).take (min want pageMax)

def handleScan (z : Zcbor) (env : ScanEnv) (sc : Scan) (req : Bytes) :
    Except Errno Bytes × Scan :=
  match decodeWith z decodeScanReq req with
  | none => (.error .ebadmsg, sc)
  | some (.start _) =>
    let (status, sc) := doStart env sc
    (answer (encodeScanRsp (.startRsp status)), sc)
  | some .getStatus =>
    (answer (encodeScanRsp (.statusRsp .ok sc.finished sc.entries.length)), sc)
  | some (.getResults start count) =>
    (answer (encodeScanRsp (.resultsRsp .ok (page start count sc))), sc)

/-- The answer to an interface status query. The status structure is a local variable of
`fill_connected`, and the encoder reads its SSID through a pointer after the function has
returned: by then something else may have been written over it. -/
structure IfaceStatus where
  ssid : Bytes
  rssi : Int
  overwritten : Option { b : Bytes // b.length = ssid.length } := none

/-- The bytes that the encoder finds where the SSID was. -/
def IfaceStatus.read (s : IfaceStatus) : Bytes := s.overwritten.elim s.ssid Subtype.val

lemma IfaceStatus.read_length (s : IfaceStatus) : s.read.length = s.ssid.length := by
  rw [IfaceStatus.read]
  cases s.overwritten with
  | none => rfl
  | some b => exact b.property

structure StatusEnv where
  iface : Bool := true
  status : Option IfaceStatus := none
  addr : Option Bytes := none

/-- The returned bytes are the static address buffer of the function. -/
def fillConnected (env : StatusEnv) (wc : WifiConfig.State) (ip4 : Bytes) :
    ConfigDetail × Bytes :=
  let ip4 := match env.addr with
    | some addr => if env.iface then addr.take 4 else ip4
    | none => ip4
  match env.status with
  | some status =>
    if env.iface then (.connectedInfo ip4 status.read (some status.rssi), ip4)
    else (.connectedInfo ip4 wc.staged.ssid none, ip4)
  | none => (.connectedInfo ip4 wc.staged.ssid none, ip4)

/-- The state of the config endpoint: the Wi-Fi state machine and the address buffer. -/
structure Wifi where
  wc : WifiConfig.State
  ip4 : Bytes

def encodeStatus (env : StatusEnv) (w : Wifi) : Except Errno Bytes × Wifi :=
  if w.wc.staState = .connected then
    let (detail, ip4) := fillConnected env w.wc w.ip4
    (answer (encodeConfigRsp (.statusRsp .ok w.wc.staState (some detail))), { w with ip4 := ip4 })
  else if w.wc.staState = .failed then
    (answer (encodeConfigRsp
      (.statusRsp .ok w.wc.staState (some (.failReason w.wc.failReason)))), w)
  else (answer (encodeConfigRsp (.statusRsp .ok w.wc.staState none)), w)

def handleConfig (z : Zcbor) (status : StatusEnv) (env : Env) (w : Wifi) (req : Bytes) :
    Except Errno Bytes × Wifi × List Out :=
  match decodeWith z decodeConfigReq req with
  | none => (.error .ebadmsg, w, [])
  | some .getStatus =>
    let (rsp, w) := encodeStatus status w
    (rsp, w, [])
  | some (.set cfg) =>
    let (st, wc) := doSet cfg w.wc
    (answer (encodeConfigRsp (.setRsp st)), { w with wc := wc }, [])
  | some .apply =>
    let (st, wc, outs) := doApply env w.wc
    (answer (encodeConfigRsp (.applyRsp st)), { w with wc := wc }, outs)

def statusMap : Except Errno Unit → ProvStatus
  | .ok () => .ok
  | .error .einval => .invalidArgument
  | .error .emsgsize => .invalidArgument
  | .error .ebadmsg => .invalidArgument
  | .error _ => .internalError

/-- The names of the kinds in a status map. -/
def keyName : CredKind → String
  | .deviceCert => "0"
  | .privateKey => "1"
  | .caCert => "2"

def credStatusMap (s : Store) : List (String × Nat) :=
  (kinds.map fun k => (keyName k, credReceived s k.index)).filter fun kv => kv.2 ≠ 0

lemma credStatusMap_eq (s : Store) :
    credStatusMap s =
      (kinds.map fun k => (keyName k, (s.blob k).staged)).filter fun kv => kv.2 ≠ 0 := rfl

/-- The returned flag is whether a finalize stored credentials, which is reported to the
application. -/
def handleCred (z : Zcbor) (save : CredKind → Bool) (s : Store) (req : Bytes) :
    Except Errno Bytes × Store × Bool :=
  match decodeWith z decodeCredReq req with
  | none => (.error .ebadmsg, s, false)
  | some (.write c) =>
    let (rc, s) := credStage c.kind c.off c.total c.data s
    let rsp := match rc with
      | .ok n => CredRsp.writeRsp .ok n
      | .error e => CredRsp.writeRsp (statusMap (.error e)) 0
    (answer (encodeCredRsp rsp), s, false)
  | some .finalize =>
    let (rc, s) := credFinalize save s
    (answer (encodeCredRsp (.finalizeRsp (statusMap rc))), s, rc.isOk)
  | some .getStatus => (answer (encodeCredRsp (.statusRsp .ok (credStatusMap s))), s, false)

/-- The answers of the stores to the deletions of a reprovision. -/
structure WipeEnv where
  wifi : Bool := true
  cred : CredKind → Bool := fun _ => true

/-- The returned flag is whether the manager is asked to stop. -/
def handleCtrl (z : Zcbor) (build : Build) (env : WipeEnv) (w : Wifi) (s : Store)
    (req : Bytes) : Except Errno Bytes × Wifi × Store × Bool :=
  match decodeWith z decodeCtrlReq req with
  | none => (.error .ebadmsg, w, s, false)
  | some .ctrlReset =>
    (answer (encodeCtrlRsp ⟨0, .ok⟩),
      if build.wifi then { w with wc := wifiResetState w.wc } else w, s, false)
  | some .ctrlReprovision =>
    (answer (encodeCtrlRsp ⟨1, .ok⟩),
      if build.wifi then { w with wc := wifiReprovision env.wifi w.wc } else w,
      if build.cred then credDeleteAll env.cred s else s, false)
  | some .ctrlEnd =>
    let rsp := answer (encodeCtrlRsp ⟨2, .ok⟩)
    -- The end request is the last exchange: the manager stops if the response was encoded.
    (rsp, w, s, rsp.isOk)

end Handlers
