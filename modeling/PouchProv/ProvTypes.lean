import PouchProv.Bytes
import PouchProv.Status

/-!
# Messages of the provisioning protocol

The structures of `prov_types.h`, one constructor for each choice of the schema.
An optional map entry is an `Option`; a byte string carries its own length.
-/

namespace ProvTypes

open Status

/-- `struct wifi_config`: the body of a config set request. -/
structure WifiCfg where
  ssid : Bytes
  pass : Option Bytes
  bssid : Option Bytes
  ch : Option Nat
  deriving DecidableEq, Repr

inductive AuthReq where
  | challenge (cliNonce : Bytes)
  | proof (cliProof : Bytes)
  deriving DecidableEq, Repr

inductive ConfigReq where
  | getStatus
  | set (cfg : WifiCfg)
  | apply
  deriving DecidableEq, Repr

structure ScanParams where
  passive : Option Bool
  periodMs : Option Nat
  deriving DecidableEq, Repr

inductive ScanReq where
  | start (params : ScanParams)
  | getStatus
  | getResults (start count : Nat)
  deriving DecidableEq, Repr

/-- `struct cred_chunk`; `kind` is the choice value of `cred-kind`. -/
structure CredChunk where
  kind : Nat
  off : Nat
  total : Nat
  data : Bytes
  deriving DecidableEq, Repr

inductive CredReq where
  | write (chunk : CredChunk)
  | finalize
  | getStatus
  deriving DecidableEq, Repr

inductive CtrlReq where
  | ctrlReset | ctrlReprovision | ctrlEnd
  deriving DecidableEq, Repr

/-- `sta-state` of the wire schema. -/
inductive StaState where
  | connected | connecting | disconnected | failed
  deriving DecidableEq, Repr

structure VerInfo where
  proto : Nat
  caps : List String
  blk : Nat
  lib : String
  pop : Option Bool
  deriving DecidableEq, Repr

structure VerRsp where
  status : ProvStatus
  info : VerInfo
  deriving DecidableEq, Repr

inductive AuthRsp where
  | challengeRsp (status : ProvStatus) (devNonce devProof : Bytes)
  | proofRsp (status : ProvStatus)
  deriving DecidableEq, Repr

inductive ConfigDetail where
  | failReason (reason : FailReason)
  | connectedInfo (ip4 ssid : Bytes) (rssi : Option Int)
  deriving DecidableEq, Repr

inductive ConfigRsp where
  | statusRsp (status : ProvStatus) (sta : StaState) (detail : Option ConfigDetail)
  | setRsp (status : ProvStatus)
  | applyRsp (status : ProvStatus)
  deriving DecidableEq, Repr

structure ScanEntry where
  ssid : Bytes
  bssid : Bytes
  ch : Nat
  rssi : Int
  auth : Nat
  deriving DecidableEq, Repr

inductive ScanRsp where
  | startRsp (status : ProvStatus)
  | statusRsp (status : ProvStatus) (finished : Bool) (total : Nat)
  | resultsRsp (status : ProvStatus) (entries : List ScanEntry)
  deriving DecidableEq, Repr

inductive CredRsp where
  | writeRsp (status : ProvStatus) (received : Nat)
  | finalizeRsp (status : ProvStatus)
  | statusRsp (status : ProvStatus) (stored : List (String × Nat))
  deriving DecidableEq, Repr

structure CtrlRsp where
  op : Nat
  status : ProvStatus
  deriving DecidableEq, Repr

end ProvTypes
