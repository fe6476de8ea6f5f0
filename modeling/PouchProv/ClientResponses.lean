import PouchProv.ClientReader
import PouchProv.ClientRequests
import PouchProv.ProvTypes

/-!
# The response decoders of the Kotlin and the Swift client

The decoders of `Messages.kt` and `Messages.swift` for the thirteen responses. The
Kotlin client casts and narrows what it has read, and leaves a wrong shape to the
exceptions of its runtime; the Swift client unwraps optionals.
-/

namespace ClientResponses

open Bytes Cbor Clients ClientReader Status
open CredStore (CredKind)
open ProvTypes (StaState)
open ClientRequests (CtrlOp)

/-- Why a response is not accepted: `DecodeError`, `ProvError`, or an exception of the runtime
for a failed cast, an index or a number format. -/
inductive Refusal where
  | decode (message : String)
  | prov (status : ProvStatus) (context : String)
  | other
  deriving DecidableEq, Repr

/-- The numbers and the texts of a client are parameters. -/
structure VersionInfo (N S : Type) where
  proto : N
  caps : List S
  blockSize : N
  lib : S
  popRequired : Bool

structure WifiStatus (N : Type) where
  state : StaState
  failReason : Option FailReason
  ip4 : Option Bytes
  ssid : Option Bytes
  rssi : Option N

structure ScanEntry (N : Type) where
  ssid : Bytes
  bssid : Bytes
  channel : N
  rssi : N
  auth : N

/-- The entries of `[CredKind: Int]`: the last one for a kind counts. -/
def associate (entries : List (CredKind × Int)) (kind : CredKind) : Option Int :=
  entries.reverse.lookup kind

/-- `Status.from`, `StaState.from`, `FailReason.from` and `CredKind.from` -/
def statusFrom : Int → Option ProvStatus
  | 0 => some .ok
  | 1 => some .invalidProto
  | 2 => some .invalidArgument
  | 3 => some .internalError
  | 4 => some .unauthorized
  | 5 => some .invalidState
  | 6 => some .busy
  | _ => none

@[inherit_doc statusFrom]
def staStateFrom : Int → Option StaState
  | 0 => some .connected
  | 1 => some .connecting
  | 2 => some .disconnected
  | 3 => some .failed
  | _ => none

@[inherit_doc statusFrom]
def failReasonFrom : Int → Option FailReason
  | 0 => some .authError
  | 1 => some .networkNotFound
  | _ => none

@[inherit_doc statusFrom]
def credKindFrom : Int → Option CredKind
  | 0 => some .deviceCert
  | 1 => some .privateKey
  | 2 => some .caCert
  | _ => none

/-- A code that no constant has is a `DecodeError`. -/
def known {α : Type} (what : String) (from? : Int → Option α) (code : Int) : Except Refusal α :=
  match from? code with
  | some a => .ok a
  | none => .error (.decode ("unknown " ++ what ++ " " ++ toString code))

def bytesValue : CborValue → Option Bytes
  | .bytes b => some b
  | _ => none

def textValue : CborValue → Option String
  | .text s => some s
  | _ => none

def arrayValue : CborValue → Option (List CborValue)
  | .array xs => some xs
  | _ => none

def mapValue : CborValue → Option (List (CborValue × CborValue))
  | .map kvs => some kvs
  | _ => none

def boolValue : CborValue → Option Bool
  | .bool b => some b
  | _ => none

def lookup (key : String) (kvs : List (CborValue × CborValue)) : Option CborValue :=
  (kvs.find? fun kv => sameKey kv.1 (.text key)).map Prod.snd

/-- The checks that both clients make of a response, with their ways to take the op and the
status. The text of the error for another op also shows the op that was read. -/
def checkResponse (opValue : CborValue → Option Int)
    (statusValue : CborValue → Except Refusal Int) (expectOp : Int) (context : String) :
    CborValue → Except Refusal (List CborValue)
  | .array (op :: status :: rest) =>
    if opValue op ≠ some expectOp then
      .error (.decode (context ++ ": op, expected " ++ toString expectOp))
    else do
      let code ← statusValue status
      match ← known "status" statusFrom code with
      | .ok => return op :: status :: rest
      | status => .error (.prov status context)
  | _ => .error (.decode (context ++ ": not a response array"))

def number (digit : Char → Option Nat) : List Char → Option Nat
  | [] => none
  | cs => cs.foldlM (fun n c => (digit c).map (10 * n + ·)) 0

/-- Digits behind an optional sign. -/
def parseInt (digit : Char → Option Nat) (s : String) : Option Int :=
  match s.toList with
  | '-' :: cs => (number digit cs).map fun n => -(n : Int)
  | '+' :: cs => (number digit cs).map fun n => (n : Int)
  | cs => (number digit cs).map fun n => (n : Int)

namespace Kotlin

variable (t : Texts)

/-- `v as T` -/
def cast {α : Type} (view : CborValue → Option α) (v : CborValue) : Except Refusal α :=
  match view v with
  | some a => .ok a
  | none => .error .other

/-- `(v as Long).toInt()` -/
def toInt (v : CborValue) : Except Refusal Int := (cast CborValue.int64Value v).map narrow

/-- `msg[i]` -/
def element (msg : List CborValue) (i : Nat) : Except Refusal CborValue :=
  match msg[i]? with
  | some v => .ok v
  | none => .error .other

/-- `map[key]`, which is `null` for a key that is not there. -/
def get (map : List (CborValue × CborValue)) (key : String) : CborValue :=
  (lookup key map).getD .null

/-- `String.toInt()` -/
def stringToInt (s : String) : Except Refusal Int :=
  match parseInt t.digit s with
  | some i => if -2 ^ 31 ≤ i ∧ i < 2 ^ 31 then .ok i else .error .other
  | none => .error .other

def decode (data : Bytes) (expectOp : Int) (context : String) :
    Except Refusal (List CborValue) :=
  match ClientReader.decode (ClientReader.Kotlin.rules t) data with
  | .error e => .error (.decode (context ++ ": bad CBOR: " ++ e))
  | .ok msg => checkResponse (fun op => op.int64Value.map narrow) toInt expectOp context msg

def decodeVerRsp (data : Bytes) : Except Refusal (VersionInfo Int String) := do
  let msg ← decode t data 0 "ver"
  let info ← cast mapValue (← element msg 2)
  let proto ← toInt (get info "proto")
  let caps ← (← cast arrayValue (get info "caps")).mapM (cast textValue)
  let blockSize ← toInt (get info "blk")
  let lib ← cast textValue (get info "lib")
  return ⟨proto, caps, blockSize, lib, (boolValue (get info "pop")).getD false⟩

def decodeAuthChallengeRsp (data : Bytes) : Except Refusal (Bytes × Bytes) := do
  let msg ← decode t data 0 "auth"
  let devNonce ← cast bytesValue (← element msg 2)
  let devProof ← cast bytesValue (← element msg 3)
  if devNonce.length ≠ 16 ∨ devProof.length ≠ 32 then
    .error (.decode "auth: bad nonce/proof size")
  else return (devNonce, devProof)

def decodeAuthProofRsp (data : Bytes) : Except Refusal Unit := do
  let _ ← decode t data 1 "auth"
  return ()

/-- The status of a station in a state, from the element that follows the state. -/
def configDetail (state : StaState) : Option CborValue → Except Refusal (WifiStatus Int)
  | none => .ok ⟨state, none, none, none, none⟩
  | some (.int detail) => do
    let reason ← known "fail-reason" failReasonFrom (narrow detail)
    return ⟨state, some reason, none, none, none⟩
  | some (.map detail) => do
    let ip4 ← cast bytesValue (get detail "ip4")
    let ssid ← cast bytesValue (get detail "ssid")
    return ⟨state, none, some ip4, some ssid, (get detail "rssi").int64Value.map narrow⟩
  | some _ => .error (.decode "config: bad status detail")

def decodeConfigStatusRsp (data : Bytes) : Except Refusal (WifiStatus Int) := do
  let msg ← decode t data 0 "config"
  let state ← known "sta-state" staStateFrom (← toInt (← element msg 2))
  configDetail state msg[3]?

def decodeConfigSetRsp (data : Bytes) : Except Refusal Unit := do
  let _ ← decode t data 1 "config"
  return ()

def decodeConfigApplyRsp (data : Bytes) : Except Refusal Unit := do
  let _ ← decode t data 2 "config"
  return ()

def decodeScanStartRsp (data : Bytes) : Except Refusal Unit := do
  let _ ← decode t data 0 "scan"
  return ()

def decodeScanStatusRsp (data : Bytes) : Except Refusal (Bool × Int) := do
  let msg ← decode t data 1 "scan"
  let finished ← cast boolValue (← element msg 2)
  let total ← toInt (← element msg 3)
  return (finished, total)

def scanEntry (v : CborValue) : Except Refusal (ScanEntry Int) := do
  let e ← cast mapValue v
  let ssid ← cast bytesValue (get e "ssid")
  let bssid ← cast bytesValue (get e "bssid")
  let channel ← toInt (get e "ch")
  let rssi ← toInt (get e "rssi")
  let auth ← toInt (get e "auth")
  return ⟨ssid, bssid, channel, rssi, auth⟩

def decodeScanResultsRsp (data : Bytes) : Except Refusal (List (ScanEntry Int)) := do
  let msg ← decode t data 2 "scan"
  (← cast arrayValue (← element msg 2)).mapM scanEntry

def decodeCredWriteRsp (data : Bytes) : Except Refusal Int := do
  let msg ← decode t data 0 "cred"
  toInt (← element msg 2)

def decodeCredFinalizeRsp (data : Bytes) : Except Refusal Unit := do
  let _ ← decode t data 1 "cred"
  return ()

def statusEntry (kv : CborValue × CborValue) : Except Refusal (CredKind × Int) := do
  let key ← cast textValue kv.1
  let kind ← known "cred kind" credKindFrom (← stringToInt t key)
  let len ← toInt kv.2
  return (kind, len)

def decodeCredStatusRsp (data : Bytes) : Except Refusal (CredKind → Option Int) := do
  let msg ← decode t data 2 "cred"
  let entries ← (← cast mapValue (← element msg 2)).mapM (statusEntry t)
  return associate entries

def decodeCtrlRsp (data : Bytes) (op : CtrlOp) : Except Refusal Unit := do
  let _ ← decode t data op.code "ctrl"
  return ()

end Kotlin

namespace Swift

variable (t : Texts)

/-- `guard let … else { throw DecodeError(message) }` -/
def demand {α : Type} (message : String) (o : Option α) : Except Refusal α :=
  match o with
  | some a => .ok a
  | none => .error (.decode message)

def intValue (v : CborValue) : Option Int := v.int64Value.map Int64.toInt

/-- `v[key]`, which is nothing for a value that is not a map. -/
def get (v : CborValue) (key : String) : Option CborValue := (mapValue v).bind (lookup key)

/-- `Int(_:)` of a string. -/
def stringToInt (s : String) : Option Int :=
  (parseInt asciiDigit s).filter fun i => -2 ^ 63 ≤ i ∧ i < 2 ^ 63

def decodeResponse (data : Bytes) (expectOp : Int) (context : String) :
    Except Refusal (List CborValue) :=
  match ClientReader.decode (ClientReader.Swift.rules t) data with
  | .error e => .error (.decode (context ++ ": bad CBOR: " ++ e))
  | .ok obj =>
    checkResponse intValue (fun status => demand (context ++ ": bad status") (intValue status))
      expectOp context obj

def decodeVerRsp (data : Bytes) : Except Refusal (VersionInfo Int String) := do
  let msg ← decodeResponse t data 0 "ver"
  let info key := msg[2]?.bind fun v => get v key
  let (proto, rawCaps, blockSize, lib) ← demand "ver: bad info map" do
    let proto ← (info "proto").bind intValue
    let rawCaps ← (info "caps").bind arrayValue
    let blockSize ← (info "blk").bind intValue
    let lib ← (info "lib").bind textValue
    return (proto, rawCaps, blockSize, lib)
  let caps ← rawCaps.mapM fun cap => demand "ver: bad cap" (textValue cap)
  return ⟨proto, caps, blockSize, lib, ((info "pop").bind boolValue).getD false⟩

def decodeAuthChallengeRsp (data : Bytes) : Except Refusal (Bytes × Bytes) := do
  let msg ← decodeResponse t data 0 "auth"
  let (devNonce, devProof) ← demand "auth: bad challenge response" do
    let devNonce ← msg[2]?.bind bytesValue
    let devProof ← msg[3]?.bind bytesValue
    return (devNonce, devProof)
  if devNonce.length ≠ 16 ∨ devProof.length ≠ 32 then
    .error (.decode "auth: bad nonce/proof size")
  else return (devNonce, devProof)

def decodeAuthProofRsp (data : Bytes) : Except Refusal Unit := do
  let _ ← decodeResponse t data 1 "auth"
  return ()

@[inherit_doc Kotlin.configDetail]
def configDetail (state : StaState) : Option CborValue → Except Refusal (WifiStatus Int)
  | none => .ok ⟨state, none, none, none, none⟩
  | some (.int reason) => do
    let reason ← known "fail-reason" failReasonFrom reason.toInt
    return ⟨state, some reason, none, none, none⟩
  | some (.map detail) => do
    let (ip4, ssid) ← demand "config: bad status detail" do
      let ip4 ← (lookup "ip4" detail).bind bytesValue
      let ssid ← (lookup "ssid" detail).bind bytesValue
      return (ip4, ssid)
    return ⟨state, none, some ip4, some ssid, (lookup "rssi" detail).bind intValue⟩
  | some _ => .error (.decode "config: bad status detail")

def decodeConfigStatusRsp (data : Bytes) : Except Refusal (WifiStatus Int) := do
  let msg ← decodeResponse t data 0 "config"
  let stateCode ← demand "config: bad sta-state" (msg[2]?.bind intValue)
  let state ← known "sta-state" staStateFrom stateCode
  configDetail state msg[3]?

def decodeConfigSetRsp (data : Bytes) : Except Refusal Unit := do
  let _ ← decodeResponse t data 1 "config"
  return ()

def decodeConfigApplyRsp (data : Bytes) : Except Refusal Unit := do
  let _ ← decodeResponse t data 2 "config"
  return ()

def decodeScanStartRsp (data : Bytes) : Except Refusal Unit := do
  let _ ← decodeResponse t data 0 "scan"
  return ()

def decodeScanStatusRsp (data : Bytes) : Except Refusal (Bool × Int) := do
  let msg ← decodeResponse t data 1 "scan"
  demand "scan: bad status response" do
    let finished ← msg[2]?.bind boolValue
    let total ← msg[3]?.bind intValue
    return (finished, total)

def scanEntry (entry : CborValue) : Except Refusal (ScanEntry Int) :=
  demand "scan: bad result entry" do
    let ssid ← (get entry "ssid").bind bytesValue
    let bssid ← (get entry "bssid").bind bytesValue
    let channel ← (get entry "ch").bind intValue
    let rssi ← (get entry "rssi").bind intValue
    let auth ← (get entry "auth").bind intValue
    return ⟨ssid, bssid, channel, rssi, auth⟩

def decodeScanResultsRsp (data : Bytes) : Except Refusal (List (ScanEntry Int)) := do
  let msg ← decodeResponse t data 2 "scan"
  let list ← demand "scan: bad results response" (msg[2]?.bind arrayValue)
  list.mapM scanEntry

def decodeCredWriteRsp (data : Bytes) : Except Refusal Int := do
  let msg ← decodeResponse t data 0 "cred"
  demand "cred: bad write response" (msg[2]?.bind intValue)

def decodeCredFinalizeRsp (data : Bytes) : Except Refusal Unit := do
  let _ ← decodeResponse t data 1 "cred"
  return ()

def statusEntry (pair : CborValue × CborValue) : Except Refusal (CredKind × Int) := do
  let (code, len) ← demand "cred: bad status entry" do
    let key ← textValue pair.1
    let code ← stringToInt key
    let len ← intValue pair.2
    return (code, len)
  let kind ← known "cred kind" credKindFrom code
  return (kind, len)

def decodeCredStatusRsp (data : Bytes) : Except Refusal (CredKind → Option Int) := do
  let msg ← decodeResponse t data 2 "cred"
  let pairs ← demand "cred: bad status response" (msg[2]?.bind mapValue)
  let status ← pairs.mapM statusEntry
  return associate status

def decodeCtrlRsp (data : Bytes) (op : CtrlOp) : Except Refusal Unit := do
  let _ ← decodeResponse t data op.code "ctrl"
  return ()

end Swift

inductive Decoder where
  | ver
  | authChallenge
  | authProof
  | configStatus
  | configSet
  | configApply
  | scanStart
  | scanStatus
  | scanResults
  | credWrite
  | credFinalize
  | credStatus
  | ctrl (op : CtrlOp)
  deriving DecidableEq

/-- The op that a decoder expects. -/
def Decoder.op : Decoder → Nat
  | .ver | .authChallenge | .configStatus | .scanStart | .credWrite => 0
  | .authProof | .configSet | .scanStatus | .credFinalize => 1
  | .configApply | .scanResults | .credStatus => 2
  | .ctrl op => op.code

/-- What a decoder calls the response in its errors. -/
def Decoder.context : Decoder → String
  | .ver => "ver"
  | .authChallenge | .authProof => "auth"
  | .configStatus | .configSet | .configApply => "config"
  | .scanStart | .scanStatus | .scanResults => "scan"
  | .credWrite | .credFinalize | .credStatus => "cred"
  | .ctrl _ => "ctrl"

def Decoder.Value (N S : Type) : Decoder → Type
  | .ver => VersionInfo N S
  | .authChallenge => Bytes × Bytes
  | .configStatus => WifiStatus N
  | .scanStatus => Bool × Int
  | .scanResults => List (ScanEntry N)
  | .credWrite => Int
  | .credStatus => CredKind → Option Int
  | .authProof | .configSet | .configApply | .scanStart | .credFinalize | .ctrl _ => Unit

def Kotlin.decodeRsp (t : Texts) (data : Bytes) :
    (d : Decoder) → Except Refusal (d.Value Int String)
  | .ver => decodeVerRsp t data
  | .authChallenge => decodeAuthChallengeRsp t data
  | .authProof => decodeAuthProofRsp t data
  | .configStatus => decodeConfigStatusRsp t data
  | .configSet => decodeConfigSetRsp t data
  | .configApply => decodeConfigApplyRsp t data
  | .scanStart => decodeScanStartRsp t data
  | .scanStatus => decodeScanStatusRsp t data
  | .scanResults => decodeScanResultsRsp t data
  | .credWrite => decodeCredWriteRsp t data
  | .credFinalize => decodeCredFinalizeRsp t data
  | .credStatus => decodeCredStatusRsp t data
  | .ctrl op => decodeCtrlRsp t data op

def Swift.decodeRsp (t : Texts) (data : Bytes) :
    (d : Decoder) → Except Refusal (d.Value Int String)
  | .ver => decodeVerRsp t data
  | .authChallenge => decodeAuthChallengeRsp t data
  | .authProof => decodeAuthProofRsp t data
  | .configStatus => decodeConfigStatusRsp t data
  | .configSet => decodeConfigSetRsp t data
  | .configApply => decodeConfigApplyRsp t data
  | .scanStart => decodeScanStartRsp t data
  | .scanStatus => decodeScanStatusRsp t data
  | .scanResults => decodeScanResultsRsp t data
  | .credWrite => decodeCredWriteRsp t data
  | .credFinalize => decodeCredFinalizeRsp t data
  | .credStatus => decodeCredStatusRsp t data
  | .ctrl op => decodeCtrlRsp t data op

section Options

variable {ε α β : Type}

@[simp] lemma toOption_ok (a : α) : (Except.ok a : Except ε α).toOption = some a := rfl

@[simp] lemma toOption_error (e : ε) : (Except.error e : Except ε α).toOption = none := rfl

@[simp] lemma toOption_pure (a : α) : (pure a : Except ε α).toOption = some a := rfl

@[simp] lemma toOption_bind (x : Except ε α) (f : α → Except ε β) :
    (x >>= f).toOption = x.toOption.bind fun a => (f a).toOption := by
  cases x <;> rfl

@[simp] lemma toOption_map (x : Except ε α) (f : α → β) :
    (x.map f).toOption = x.toOption.map f := by
  cases x <;> rfl

lemma toOption_mapM (f : α → Except ε β) (xs : List α) :
    (xs.mapM f).toOption = xs.mapM fun x => (f x).toOption := by
  induction xs with
  | nil => rfl
  | cons x xs ih =>
    simp only [List.mapM_cons, toOption_bind, ih]
    rfl

@[simp] lemma toOption_known (what : String) (from? : Int → Option α) (code : Int) :
    (known what from? code).toOption = from? code := by
  rw [known]
  cases from? code <;> rfl

@[simp] lemma toOption_cast (view : CborValue → Option α) (v : CborValue) :
    (Kotlin.cast view v).toOption = view v := by
  rw [Kotlin.cast]
  cases view v <;> rfl

@[simp] lemma toOption_demand (message : String) (o : Option α) :
    (Swift.demand message o).toOption = o := by
  cases o <;> rfl

@[simp] lemma toOption_element (msg : List CborValue) (i : Nat) :
    (Kotlin.element msg i).toOption = msg[i]? := by
  rw [Kotlin.element]
  cases msg[i]? <;> rfl

end Options

section Wire

variable {t : Texts}

/-- The response is an array of the op, a status of zero and whatever else. -/
def Succeeds (data : Bytes) (op : Nat) : Prop :=
  ∃ xs rest, Parses data (.array (.uint op :: .uint 0 :: xs)) rest

lemma statusFrom_ok {code : Int} (h : statusFrom code = some .ok) : code = 0 := by
  unfold statusFrom at h
  split at h
  · rfl
  all_goals exact absurd h (by simp)

lemma int64_toInt {n : Nat} {v : Int64} (h : ClientReader.Swift.int64 n = .ok v) :
    v.toInt = n ∧ n < 2 ^ 63 := by
  rw [ClientReader.Swift.int64] at h
  split at h
  · rename_i hsmall
    rw [← Except.ok.inj h, Int64.toInt_ofNat_of_lt hsmall]
    exact ⟨rfl, hsmall⟩
  · exact absurd h (by simp)

/-- A number that is not negative stands on the wire as it is read. -/
lemma uint_of_value {x : Item} {v : CborValue} {n : Nat}
    (h : value (ClientReader.Swift.rules t) x = some v) (hint : Swift.intValue v = some (n : Int)) :
    x = .uint n := by
  obtain ⟨i, hi, hn⟩ := Option.map_eq_some_iff.mp hint
  obtain rfl : v = .int i := by
    cases v with
    | int w => rw [Option.some.inj hi]
    | _ => exact absurd hi (by simp [CborValue.int64Value])
  cases x with
  | uint m =>
    rw [value] at h
    cases hm : (ClientReader.Swift.rules t).uint m with
    | error e => simp [hm] at h
    | ok w =>
      obtain rfl : w = i := by simpa [hm] using h
      have hw := (int64_toInt hm).1
      rw [show m = n by omega]
  | nint m =>
    rw [value] at h
    cases hm : ClientReader.Swift.int64 m with
    | error e => simp [ClientReader.Swift.rules, hm] at h
    | ok w =>
      obtain rfl : -1 - w = i := by simpa [ClientReader.Swift.rules, hm] using h
      obtain ⟨hw, hsmall⟩ := int64_toInt hm
      have hint := toInt_negative hw hsmall
      omega
  | prim info arg =>
    rw [value] at h
    have hcases := simpleValue_cases h
    simp at hcases
  | map kvs =>
    rw [value] at h
    obtain ⟨vs, -, h⟩ := Option.bind_eq_some_iff.mp h
    simp at h
  | _ => simp [value] at h

lemma checkResponse_ok {opValue : CborValue → Option Int}
    {statusValue : CborValue → Except Refusal Int} {expectOp : Int} {context : String}
    {obj : CborValue} {msg : List CborValue}
    (h : checkResponse opValue statusValue expectOp context obj = .ok msg) :
    ∃ op status rest, obj = .array (op :: status :: rest) ∧ opValue op = some expectOp ∧
      statusValue status = .ok 0 := by
  unfold checkResponse at h
  split at h
  · rename_i op status rest
    split at h
    · exact absurd h (by simp)
    · rename_i hop
      obtain ⟨code, hcode, h⟩ := bind_ok h
      obtain ⟨found, hfound, h⟩ := bind_ok h
      have hknown : statusFrom code = some found := by
        simpa using congrArg Except.toOption hfound
      cases found with
      | ok =>
        obtain rfl := statusFrom_ok hknown
        exact ⟨op, status, rest, rfl, not_not.mp hop, hcode⟩
      | _ => exact absurd h (by simp)
  · exact absurd h (by simp)

theorem decodeResponse_succeeds {data : Bytes} {op : Nat} {context : String}
    {msg : List CborValue} (h : Swift.decodeResponse t data op context = .ok msg) :
    Succeeds data op := by
  rw [Swift.decodeResponse] at h
  cases hread : ClientReader.decode (ClientReader.Swift.rules t) data with
  | error e => simp [hread] at h
  | ok obj =>
    simp only [hread] at h
    obtain ⟨first, second, rest, rfl, hop, hcode⟩ := checkResponse_ok h
    have hstatus : Swift.intValue second = some 0 := by
      simpa using congrArg Except.toOption hcode
    obtain ⟨rest', hreads⟩ := reads_of_decode hread
    obtain ⟨x, hparses, hvalue⟩ := hreads.parses (ClientReader.Swift.exact t)
    obtain ⟨xs, rfl, helements⟩ := array_of_value hvalue
    cases helements with
    | cons hfirst helements =>
      cases helements with
      | cons hsecond _ =>
        obtain rfl := uint_of_value hfirst hop
        obtain rfl := uint_of_value hsecond hstatus
        exact ⟨_, _, hparses⟩

lemma error_bind {ε α β : Type} {x : Except ε α} {e : ε} (h : x = .error e)
    (f : α → Except ε β) : (x >>= f) = .error e := by
  rw [h]
  rfl

lemma read_bind {ε α β : Type} {x : Except ε α} {a : α} (h : x = .ok a) (f : α → Except ε β) :
    (x >>= f) = f a := by
  rw [h]
  rfl

lemma Kotlin.decodeRsp_error {data : Bytes} {d : Decoder} {e : Refusal}
    (h : Kotlin.decode t data d.op d.context = .error e) :
    Kotlin.decodeRsp t data d = .error e := by
  cases d <;> exact error_bind h _

lemma Swift.decodeRsp_error {data : Bytes} {d : Decoder} {e : Refusal}
    (h : Swift.decodeResponse t data d.op d.context = .error e) :
    Swift.decodeRsp t data d = .error e := by
  cases d <;> exact error_bind h _

lemma Swift.responded {data : Bytes} {d : Decoder} {v : d.Value Int String}
    (h : Swift.decodeRsp t data d = .ok v) :
    ∃ context msg, Swift.decodeResponse t data d.op context = .ok msg := by
  cases d <;> exact ⟨_, (bind_ok h).imp fun _ hmsg => hmsg.1⟩

end Wire

/-- UTF-8 with a replacement for what is malformed, and the digits of ASCII only. -/
def referenceTexts : Texts where
  kotlin b := (utf8Decode b).getD "\uFFFD"
  swift := utf8Decode
  digit := asciiDigit

def sampleVerRsp : Bytes :=
  encode (.array [.uint 0, .uint 0, .map [.tstr (utf8 "proto"), .uint 1, .tstr (utf8 "caps"),
    .array [.tstr (utf8 "wifi"), .tstr (utf8 "cred")], .tstr (utf8 "blk"), .uint 512,
    .tstr (utf8 "lib"), .tstr (utf8 "0.1.0")]])

end ClientResponses
