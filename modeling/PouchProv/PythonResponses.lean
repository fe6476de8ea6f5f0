import PouchProv.ClientResponses

/-!
# The response decoders of the Python client

The decoders of `codec.py`, on whatever objects `cbor2` returns. They tell a
response that is not one (`DecodeError`) from a status of the device (`ProvError`);
the other exceptions are those of the operations on the objects.
-/

namespace ClientResponses

open Bytes Clients ClientReader Status
open CredStore (CredKind)
open ProvTypes (StaState)

/-- What `codec.py` does with objects besides: it asks whether one is a `dict`, whose entries
these are, a `str` or an `int`, and iterates over it. -/
structure Dicts (py : Clients.Python) where
  entries : py.Obj → Option (List (py.Obj × py.Obj))
  text : py.Obj → Option String
  isInt : py.Obj → Bool
  iter : py.Obj → Option (List py.Obj)
  iter_list : ∀ {o os}, py.list o = some os → iter o = some os
  isInt_dict : ∀ {o kvs}, entries o = some kvs → isInt o = false

namespace Python

variable (py : Clients.Python) (dicts : Dicts py)

/-- An operation that raises an exception of the runtime if it has no result. -/
def attempt {α : Type} : Option α → Except Refusal α
  | some a => .ok a
  | none => .error .other

/-- `o.get(key)` of a `dict`, with nothing for `None`. -/
def get (o : py.Obj) (key : String) : Option (Option py.Obj) :=
  (dicts.entries o).map fun kvs =>
    (kvs.find? fun kv => dicts.text kv.1 = some key).map Prod.snd

/-- `o[key]` -/
def getItem (o : py.Obj) (key : String) : Option py.Obj := (get py dicts o key).bind id

/-- The constant of an `IntEnum` with the value. -/
def enumValue {α : Type} (from? : Int → Option α) (size : Nat) (o : py.Obj) : Option α :=
  ((List.range size).find? fun i : Nat => py.equalsInt o i).bind fun i => from? i

/-- `_decode`. The texts of two errors also show the exception and the op that was read. -/
def decode (data : Bytes) (expectOp : Int) (context : String) :
    Except Refusal (List py.Obj) :=
  match py.loads data with
  | none => .error (.decode (context ++ ": bad CBOR"))
  | some (msg, _) =>
    match py.list msg with
    | some (op :: status :: rest) =>
      if ¬ py.equalsInt op expectOp then
        .error (.decode (context ++ ": op, expected " ++ toString expectOp))
      else
        match enumValue py statusFrom 7 status with
        | some .ok => .ok (op :: status :: rest)
        | some status => .error (.prov status context)
        | none => .error .other
    | _ => .error (.decode (context ++ ": not a response array"))

def decodeVerRsp (data : Bytes) : Except Refusal (VersionInfo py.Obj py.Obj) := do
  let msg ← decode py data 0 "ver"
  let info ← attempt msg[2]?
  let proto ← attempt (getItem py dicts info "proto")
  let caps ← attempt ((getItem py dicts info "caps").bind dicts.iter)
  let blockSize ← attempt (getItem py dicts info "blk")
  let lib ← attempt (getItem py dicts info "lib")
  let pop ← attempt (get py dicts info "pop")
  return ⟨proto, caps, blockSize, lib, pop.any py.truthy⟩

def decodeAuthChallengeRsp (data : Bytes) : Except Refusal (Bytes × Bytes) := do
  let msg ← decode py data 0 "auth"
  let devNonce ← attempt (msg[2]?.bind py.bytes)
  let devProof ← attempt (msg[3]?.bind py.bytes)
  if devNonce.length ≠ 16 ∨ devProof.length ≠ 32 then
    .error (.decode "auth: bad nonce/proof size")
  else return (devNonce, devProof)

def decodeAuthProofRsp (data : Bytes) : Except Refusal Unit := do
  let _ ← decode py data 1 "auth"
  return ()

@[inherit_doc Kotlin.configDetail]
def configDetail (state : StaState) : Option py.Obj → Except Refusal (WifiStatus py.Obj)
  | none => .ok ⟨state, none, none, none, none⟩
  | some detail =>
    if dicts.isInt detail then do
      let reason ← attempt (enumValue py failReasonFrom 2 detail)
      return ⟨state, some reason, none, none, none⟩
    else if (dicts.entries detail).isSome then do
      let ip4 ← attempt ((getItem py dicts detail "ip4").bind py.bytes)
      let ssid ← attempt ((getItem py dicts detail "ssid").bind py.bytes)
      let rssi ← attempt (get py dicts detail "rssi")
      return ⟨state, none, some ip4, some ssid, rssi⟩
    else .error (.decode "config: bad status detail")

def decodeConfigStatusRsp (data : Bytes) : Except Refusal (WifiStatus py.Obj) := do
  let msg ← decode py data 0 "config"
  let state ← attempt (msg[2]?.bind (enumValue py staStateFrom 4))
  configDetail py dicts state msg[3]?

def decodeConfigSetRsp (data : Bytes) : Except Refusal Unit := do
  let _ ← decode py data 1 "config"
  return ()

def decodeConfigApplyRsp (data : Bytes) : Except Refusal Unit := do
  let _ ← decode py data 2 "config"
  return ()

def decodeScanStartRsp (data : Bytes) : Except Refusal Unit := do
  let _ ← decode py data 0 "scan"
  return ()

def decodeScanStatusRsp (data : Bytes) : Except Refusal (Bool × Int) := do
  let msg ← decode py data 1 "scan"
  let finished ← attempt msg[2]?
  let total ← attempt (msg[3]?.bind py.int)
  return (py.truthy finished, total)

def scanEntry (e : py.Obj) : Except Refusal (ScanEntry py.Obj) := do
  let ssid ← attempt ((getItem py dicts e "ssid").bind py.bytes)
  let bssid ← attempt ((getItem py dicts e "bssid").bind py.bytes)
  let channel ← attempt (getItem py dicts e "ch")
  let rssi ← attempt (getItem py dicts e "rssi")
  let auth ← attempt (getItem py dicts e "auth")
  return ⟨ssid, bssid, channel, rssi, auth⟩

def decodeScanResultsRsp (data : Bytes) : Except Refusal (List (ScanEntry py.Obj)) := do
  let msg ← decode py data 2 "scan"
  let list ← attempt (msg[2]?.bind dicts.iter)
  list.mapM (scanEntry py dicts)

def decodeCredWriteRsp (data : Bytes) : Except Refusal Int := do
  let msg ← decode py data 0 "cred"
  attempt (msg[2]?.bind py.int)

def decodeCredFinalizeRsp (data : Bytes) : Except Refusal Unit := do
  let _ ← decode py data 1 "cred"
  return ()

def statusEntry (kv : py.Obj × py.Obj) : Option (CredKind × Int) := do
  let kind ← (py.int kv.1).bind credKindFrom
  let len ← py.int kv.2
  return (kind, len)

def decodeCredStatusRsp (data : Bytes) : Except Refusal (CredKind → Option Int) := do
  let msg ← decode py data 2 "cred"
  let entries ← attempt (msg[2]?.bind dicts.entries)
  let status ← attempt (entries.mapM (statusEntry py))
  return associate status

def decodeCtrlRsp (data : Bytes) (op : ClientRequests.CtrlOp) : Except Refusal Unit := do
  let _ ← decode py data op.code "ctrl"
  return ()

def decodeRsp (data : Bytes) : (d : Decoder) → Except Refusal (d.Value py.Obj py.Obj)
  | .ver => decodeVerRsp py dicts data
  | .authChallenge => decodeAuthChallengeRsp py data
  | .authProof => decodeAuthProofRsp py data
  | .configStatus => decodeConfigStatusRsp py dicts data
  | .configSet => decodeConfigSetRsp py data
  | .configApply => decodeConfigApplyRsp py data
  | .scanStart => decodeScanStartRsp py data
  | .scanStatus => decodeScanStatusRsp py data
  | .scanResults => decodeScanResultsRsp py dicts data
  | .credWrite => decodeCredWriteRsp py data
  | .credFinalize => decodeCredFinalizeRsp py data
  | .credStatus => decodeCredStatusRsp py dicts data
  | .ctrl op => decodeCtrlRsp py data op

variable {py dicts} {data : Bytes}

lemma attempt_ok_iff {α : Type} {o : Option α} {a : α} : attempt o = .ok a ↔ o = some a := by
  cases o <;> simp [attempt]

lemma attempt_some {α : Type} {o : Option α} {a : α} (h : o = some a) : attempt o = .ok a :=
  attempt_ok_iff.mpr h

lemma attempt_bind {α β : Type} {o : Option α} {a : α} (h : o = some a)
    (f : α → Except Refusal β) : (attempt o >>= f) = f a :=
  read_bind (attempt_some h) f

lemma decode_ok {o : py.Obj} {n : Nat} (loads : py.loads data = some (o, n)) {expectOp : Int}
    {context : String} {msg : List py.Obj} (h : decode py data expectOp context = .ok msg) :
    py.list o = some msg := by
  simp only [decode, loads] at h
  split at h
  · rename_i op status rest hlist
    split at h
    · cases h
    · split at h
      · rw [hlist, Except.ok.inj h]
      all_goals cases h
  · cases h

/-- An object that equals only this number is the constant with the number. -/
lemma enumValue_eq {α : Type} {from? : Int → Option α} {size n : Nat} {o : py.Obj}
    (equals : ∀ i, py.equalsInt o i = decide (i = (n : Int))) (small : n < size) :
    enumValue py from? size o = from? n := by
  have hfind : ((List.range size).find? fun i : Nat => py.equalsInt o i) = some n := by
    rw [List.find?_range_eq_some]
    refine ⟨by simp [equals], List.mem_range.mpr small, fun j hj => ?_⟩
    have hne : (j : Int) ≠ n := by omega
    simp [equals, hne]
  rw [enumValue, hfind]
  rfl

lemma statusFrom_code (s : ProvStatus) : statusFrom s.code = some s := by
  cases s <;> rfl

/-- The check of the head lets exactly the status ok through. -/
lemma decode_head {o op status : py.Obj} {n : Nat} {rest : List py.Obj} {expectOp : Int}
    {s : ProvStatus} (loads : py.loads data = some (o, n))
    (list : py.list o = some (op :: status :: rest))
    (isOp : py.equalsInt op expectOp)
    (isStatus : ∀ i, py.equalsInt status i = decide (i = (s.code : Int))) (context : String) :
    decode py data expectOp context =
      if s = .ok then .ok (op :: status :: rest) else .error (.prov s context) := by
  have hstatus : enumValue py statusFrom 7 status = some s :=
    (enumValue_eq isStatus (by cases s <;> decide)).trans (statusFrom_code s)
  simp only [decode, loads, list, isOp, hstatus, not_true, if_false]
  cases s <;> rfl

/-- What a decoder does behind the check of the head, it does not do for what the check refuses. -/
lemma decodeRsp_error {d : Decoder} {e : Refusal}
    (h : decode py data d.op d.context = .error e) : decodeRsp py dicts data d = .error e := by
  cases d <;> exact error_bind h _

end Python

end ClientResponses
