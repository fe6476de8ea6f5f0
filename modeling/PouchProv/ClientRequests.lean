import PouchProv.Cddl
import PouchProv.ClientCbor
import PouchProv.CredStore

/-!
# Requests of the three clients

The request encoders of `codec.py`, `Messages.kt` and `Messages.swift`, and the
request productions of `prov.cddl`. `cbor2` is outside the repository: `Writes` says
what `dumps` does with the literals of the client.

The clients take the same arguments as integers of their own: Python's are
unbounded, Kotlin's `Int` has 32 bits and Swift's has 64. An encoder that checks
its arguments gives `none` where it raises or traps.
-/

namespace ClientRequests

open Bytes Cbor Cddl Clients CredStore

/-- `CtrlOp` -/
inductive CtrlOp where
  | reset | reprovision | end_
  deriving DecidableEq, Repr

def CtrlOp.code : CtrlOp → Nat
  | .reset => 0
  | .reprovision => 1
  | .end_ => 2

/-- The code of a `CredKind`. -/
def kindCode : CredKind → Nat
  | .deviceCert => 0
  | .privateKey => 1
  | .caCert => 2

namespace Python

variable (py : Clients.Python)

/-- `if value is not None: obj[key] = value` -/
def insert {α : Type} (key : String) (make : α → py.Obj) (value : Option α)
    (obj : List (py.Obj × py.Obj)) : List (py.Obj × py.Obj) :=
  match value with
  | some a => obj ++ [(py.ofText key, make a)]
  | none => obj

def encodeVerReq : Option Bytes := py.dumps (py.ofList [py.ofInt 0])

def encodeAuthChallenge (cliNonce : Bytes) : Option Bytes :=
  if cliNonce.length = 16 then py.dumps (py.ofList [py.ofInt 0, py.ofBytes cliNonce]) else none

def encodeAuthProof (cliProof : Bytes) : Option Bytes :=
  if cliProof.length = 32 then py.dumps (py.ofList [py.ofInt 1, py.ofBytes cliProof]) else none

def encodeConfigGetStatus : Option Bytes := py.dumps (py.ofList [py.ofInt 0])

def encodeConfigSet (ssid : Bytes) (password bssid : Option Bytes) (channel : Option Nat) :
    Option Bytes :=
  let cfg := [(py.ofText "ssid", py.ofBytes ssid)]
  let cfg := insert py "pass" py.ofBytes password cfg
  let cfg := insert py "bssid" py.ofBytes bssid cfg
  let cfg := insert py "ch" (fun n : Nat => py.ofInt n) channel cfg
  py.dumps (py.ofList [py.ofInt 1, py.ofDict cfg])

def encodeConfigApply : Option Bytes := py.dumps (py.ofList [py.ofInt 2])

def encodeScanStart (passive : Option Bool) (periodMs : Option Nat) : Option Bytes :=
  let params := insert py "passive" py.ofBool passive []
  let params := insert py "period-ms" (fun n : Nat => py.ofInt n) periodMs params
  py.dumps (py.ofList [py.ofInt 0, py.ofDict params])

def encodeScanGetStatus : Option Bytes := py.dumps (py.ofList [py.ofInt 1])

def encodeScanGetResults (start count : Nat) : Option Bytes :=
  py.dumps (py.ofList [py.ofInt 2, py.ofInt start, py.ofInt count])

def encodeCredWrite (kind : CredKind) (offset total : Nat) (data : Bytes) : Option Bytes :=
  py.dumps (py.ofList [py.ofInt 0, py.ofDict [(py.ofText "kind", py.ofInt (kindCode kind)),
    (py.ofText "off", py.ofInt offset), (py.ofText "total", py.ofInt total),
    (py.ofText "data", py.ofBytes data)]])

def encodeCredFinalize : Option Bytes := py.dumps (py.ofList [py.ofInt 1])

def encodeCredGetStatus : Option Bytes := py.dumps (py.ofList [py.ofInt 2])

def encodeCtrl (op : CtrlOp) : Option Bytes := py.dumps (py.ofList [py.ofInt op.code])

end Python

/-- An entry behind the others, if there is a value for it: the assignment of a new key in a
`LinkedHashMap` of the Kotlin client, and `append` to the pairs of the Swift client. -/
def put {α : Type} (key : String) (make : α → CborValue) (value : Option α)
    (pairs : List (CborValue × CborValue)) : List (CborValue × CborValue) :=
  match value with
  | some a => pairs ++ [(.text key, make a)]
  | none => pairs

namespace Kotlin

open ClientCbor.Kotlin

def long (n : Int32) : CborValue := .int n.toInt64

def encodeVerReq : Bytes := encode (.array [.int 0])

def encodeAuthChallenge (cliNonce : Bytes) : Option Bytes :=
  if cliNonce.length = 16 then some (encode (.array [.int 0, .bytes cliNonce])) else none

def encodeAuthProof (cliProof : Bytes) : Option Bytes :=
  if cliProof.length = 32 then some (encode (.array [.int 1, .bytes cliProof])) else none

def encodeConfigGetStatus : Bytes := encode (.array [.int 0])

def encodeConfigSet (ssid : Bytes) (password bssid : Option Bytes) (channel : Option Int32) :
    Bytes :=
  let cfg := [(.text "ssid", .bytes ssid)]
  let cfg := put "pass" .bytes password cfg
  let cfg := put "bssid" .bytes bssid cfg
  let cfg := put "ch" long channel cfg
  encode (.array [.int 1, .map cfg])

def encodeConfigApply : Bytes := encode (.array [.int 2])

def encodeScanStart (passive : Option Bool) (periodMs : Option Int32) : Bytes :=
  let params := put "passive" .bool passive []
  let params := put "period-ms" long periodMs params
  encode (.array [.int 0, .map params])

def encodeScanGetStatus : Bytes := encode (.array [.int 1])

def encodeScanGetResults (start count : Int32) : Bytes :=
  encode (.array [.int 2, long start, long count])

def encodeCredWrite (kind : CredKind) (offset total : Int32) (data : Bytes) : Bytes :=
  encode (.array [.int 0, .map [(.text "kind", .int (Int64.ofNat (kindCode kind))),
    (.text "off", long offset), (.text "total", long total), (.text "data", .bytes data)]])

def encodeCredFinalize : Bytes := encode (.array [.int 1])

def encodeCredGetStatus : Bytes := encode (.array [.int 2])

def encodeCtrl (op : CtrlOp) : Bytes := encode (.array [.int (Int64.ofNat op.code)])

end Kotlin

namespace Swift

open ClientCbor.Swift

def encodeVerReq : Bytes := encode (.array [.int 0])

def encodeAuthChallenge (cliNonce : Bytes) : Option Bytes :=
  if cliNonce.length = 16 then some (encode (.array [.int 0, .bytes cliNonce])) else none

def encodeAuthProof (cliProof : Bytes) : Option Bytes :=
  if cliProof.length = 32 then some (encode (.array [.int 1, .bytes cliProof])) else none

def encodeConfigGetStatus : Bytes := encode (.array [.int 0])

def encodeConfigSet (ssid : Bytes) (password bssid : Option Bytes) (channel : Option Int64) :
    Bytes :=
  let cfg := [(.text "ssid", .bytes ssid)]
  let cfg := put "pass" .bytes password cfg
  let cfg := put "bssid" .bytes bssid cfg
  let cfg := put "ch" .int channel cfg
  encode (.array [.int 1, .map cfg])

def encodeConfigApply : Bytes := encode (.array [.int 2])

def encodeScanStart (passive : Option Bool) (periodMs : Option Int64) : Bytes :=
  let params := put "passive" .bool passive []
  let params := put "period-ms" .int periodMs params
  encode (.array [.int 0, .map params])

def encodeScanGetStatus : Bytes := encode (.array [.int 1])

def encodeScanGetResults (start count : Int64) : Bytes :=
  encode (.array [.int 2, .int start, .int count])

def encodeCredWrite (kind : CredKind) (offset total : Int64) (data : Bytes) : Bytes :=
  encode (.array [.int 0, .map [(.text "kind", .int (Int64.ofNat (kindCode kind))),
    (.text "off", .int offset), (.text "total", .int total), (.text "data", .bytes data)]])

def encodeCredFinalize : Bytes := encode (.array [.int 1])

def encodeCredGetStatus : Bytes := encode (.array [.int 2])

def encodeCtrl (op : CtrlOp) : Bytes := encode (.array [.int (Int64.ofNat op.code)])

end Swift

namespace Schema

/-- The members of `wifi-config`, with the values that a request gives for them. -/
def wifiConfigFields (ssid : Bytes) (password bssid : Option Bytes) (channel : Option Nat) :
    List Field :=
  [⟨"ssid", false, .sized 1 32, some (.bstr ssid)⟩, ⟨"pass", true, .sized 0 64, password.map .bstr⟩,
    ⟨"bssid", true, .size 6, bssid.map .bstr⟩, ⟨"ch", true, .uint, channel.map .uint⟩]

def scanParamsFields (passive : Option Bool) (periodMs : Option Nat) : List Field :=
  [⟨"passive", true, .bool, passive.map .bool⟩, ⟨"period-ms", true, .uint, periodMs.map .uint⟩]

def credKind : Ty := .choice [.literal 0, .literal 1, .literal 2]

def credChunkFields (kind : CredKind) (offset total : Nat) (data : Bytes) : List Field :=
  [⟨"kind", false, credKind, some (.uint (kindCode kind))⟩,
    ⟨"off", false, .uint, some (.uint offset)⟩, ⟨"total", false, .uint, some (.uint total)⟩,
    ⟨"data", false, .bstr, some (.bstr data)⟩]

def verReq : Ty := .array [.literal 0]
def authChallenge : Ty := .array [.literal 0, .size 16]
def authProof : Ty := .array [.literal 1, .size 32]
def configGetStatus : Ty := .array [.literal 0]

def wifiConfig : Ty :=
  .map [("ssid", false, .sized 1 32), ("pass", true, .sized 0 64), ("bssid", true, .size 6),
    ("ch", true, .uint)]

def configSet : Ty := .array [.literal 1, wifiConfig]
def configApply : Ty := .array [.literal 2]
def scanParams : Ty := .map [("passive", true, .bool), ("period-ms", true, .uint)]
def scanStart : Ty := .array [.literal 0, scanParams]
def scanGetStatus : Ty := .array [.literal 1]
def scanGetResults : Ty := .array [.literal 2, .uint, .uint]

def credChunk : Ty :=
  .map [("kind", false, credKind), ("off", false, .uint), ("total", false, .uint),
    ("data", false, .bstr)]

def credWrite : Ty := .array [.literal 0, credChunk]
def credFinalize : Ty := .array [.literal 1]
def credGetStatus : Ty := .array [.literal 2]
def ctrlReset : Ty := .array [.literal 0]
def ctrlReprovision : Ty := .array [.literal 1]
def ctrlEnd : Ty := .array [.literal 2]

end Schema

/-- A request with its arguments. -/
inductive Request where
  | ver
  | authChallenge (cliNonce : Bytes)
  | authProof (cliProof : Bytes)
  | configGetStatus
  | configSet (ssid : Bytes) (password bssid : Option Bytes) (channel : Option Nat)
  | configApply
  | scanStart (passive : Option Bool) (periodMs : Option Nat)
  | scanGetStatus
  | scanGetResults (start count : Nat)
  | credWrite (kind : CredKind) (offset total : Nat) (data : Bytes)
  | credFinalize
  | credGetStatus
  | ctrl (op : CtrlOp)
  deriving DecidableEq, Repr

namespace Request

def python (py : Clients.Python) : Request → Option Bytes
  | .ver => Python.encodeVerReq py
  | .authChallenge cliNonce => Python.encodeAuthChallenge py cliNonce
  | .authProof cliProof => Python.encodeAuthProof py cliProof
  | .configGetStatus => Python.encodeConfigGetStatus py
  | .configSet ssid password bssid channel =>
    Python.encodeConfigSet py ssid password bssid channel
  | .configApply => Python.encodeConfigApply py
  | .scanStart passive periodMs => Python.encodeScanStart py passive periodMs
  | .scanGetStatus => Python.encodeScanGetStatus py
  | .scanGetResults start count => Python.encodeScanGetResults py start count
  | .credWrite kind offset total data => Python.encodeCredWrite py kind offset total data
  | .credFinalize => Python.encodeCredFinalize py
  | .credGetStatus => Python.encodeCredGetStatus py
  | .ctrl op => Python.encodeCtrl py op

def kotlin : Request → Option Bytes
  | .ver => some Kotlin.encodeVerReq
  | .authChallenge cliNonce => Kotlin.encodeAuthChallenge cliNonce
  | .authProof cliProof => Kotlin.encodeAuthProof cliProof
  | .configGetStatus => some Kotlin.encodeConfigGetStatus
  | .configSet ssid password bssid channel =>
    some (Kotlin.encodeConfigSet ssid password bssid (channel.map Int32.ofNat))
  | .configApply => some Kotlin.encodeConfigApply
  | .scanStart passive periodMs => some (Kotlin.encodeScanStart passive (periodMs.map Int32.ofNat))
  | .scanGetStatus => some Kotlin.encodeScanGetStatus
  | .scanGetResults start count =>
    some (Kotlin.encodeScanGetResults (Int32.ofNat start) (Int32.ofNat count))
  | .credWrite kind offset total data =>
    some (Kotlin.encodeCredWrite kind (Int32.ofNat offset) (Int32.ofNat total) data)
  | .credFinalize => some Kotlin.encodeCredFinalize
  | .credGetStatus => some Kotlin.encodeCredGetStatus
  | .ctrl op => some (Kotlin.encodeCtrl op)

def swift : Request → Option Bytes
  | .ver => some Swift.encodeVerReq
  | .authChallenge cliNonce => Swift.encodeAuthChallenge cliNonce
  | .authProof cliProof => Swift.encodeAuthProof cliProof
  | .configGetStatus => some Swift.encodeConfigGetStatus
  | .configSet ssid password bssid channel =>
    some (Swift.encodeConfigSet ssid password bssid (channel.map Int64.ofNat))
  | .configApply => some Swift.encodeConfigApply
  | .scanStart passive periodMs => some (Swift.encodeScanStart passive (periodMs.map Int64.ofNat))
  | .scanGetStatus => some Swift.encodeScanGetStatus
  | .scanGetResults start count =>
    some (Swift.encodeScanGetResults (Int64.ofNat start) (Int64.ofNat count))
  | .credWrite kind offset total data =>
    some (Swift.encodeCredWrite kind (Int64.ofNat offset) (Int64.ofNat total) data)
  | .credFinalize => some Swift.encodeCredFinalize
  | .credGetStatus => some Swift.encodeCredGetStatus
  | .ctrl op => some (Swift.encodeCtrl op)

def production : Request → Ty
  | .ver => Schema.verReq
  | .authChallenge _ => Schema.authChallenge
  | .authProof _ => Schema.authProof
  | .configGetStatus => Schema.configGetStatus
  | .configSet _ _ _ _ => Schema.configSet
  | .configApply => Schema.configApply
  | .scanStart _ _ => Schema.scanStart
  | .scanGetStatus => Schema.scanGetStatus
  | .scanGetResults _ _ => Schema.scanGetResults
  | .credWrite _ _ _ _ => Schema.credWrite
  | .credFinalize => Schema.credFinalize
  | .credGetStatus => Schema.credGetStatus
  | .ctrl .reset => Schema.ctrlReset
  | .ctrl .reprovision => Schema.ctrlReprovision
  | .ctrl .end_ => Schema.ctrlEnd

/-- The message: its op code and exactly the given values, in a map under their names. -/
def item : Request → Item
  | .ver => .array [.uint 0]
  | .authChallenge cliNonce => .array [.uint 0, .bstr cliNonce]
  | .authProof cliProof => .array [.uint 1, .bstr cliProof]
  | .configGetStatus => .array [.uint 0]
  | .configSet ssid password bssid channel =>
    .array [.uint 1, .map (written (given (Schema.wifiConfigFields ssid password bssid channel)))]
  | .configApply => .array [.uint 2]
  | .scanStart passive periodMs =>
    .array [.uint 0, .map (written (given (Schema.scanParamsFields passive periodMs)))]
  | .scanGetStatus => .array [.uint 1]
  | .scanGetResults start count => .array [.uint 2, .uint start, .uint count]
  | .credWrite kind offset total data =>
    .array [.uint 0, .map (written (given (Schema.credChunkFields kind offset total data)))]
  | .credFinalize => .array [.uint 1]
  | .credGetStatus => .array [.uint 2]
  | .ctrl op => .array [.uint op.code]

/-- The sizes of the schema, integers below 2^31, and no more data than an array of the Kotlin
client holds. -/
def InBounds : Request → Prop
  | .authChallenge cliNonce => cliNonce.length = 16
  | .authProof cliProof => cliProof.length = 32
  | .configSet ssid password bssid channel =>
    1 ≤ ssid.length ∧ ssid.length ≤ 32 ∧ (∀ p ∈ password, p.length ≤ 64) ∧
      (∀ b ∈ bssid, b.length = 6) ∧ ∀ ch ∈ channel, ch < 2 ^ 31
  | .scanStart _ periodMs => ∀ ms ∈ periodMs, ms < 2 ^ 31
  | .scanGetResults start count => start < 2 ^ 31 ∧ count < 2 ^ 31
  | .credWrite _ offset total data => offset < 2 ^ 31 ∧ total < 2 ^ 31 ∧ data.length < 2 ^ 31
  | _ => True

end Request

/-- The value that the Kotlin and the Swift client encode, over their conversion of integers. -/
def Request.value (int : Nat → CborValue) : Request → CborValue
  | .ver => .array [.int 0]
  | .authChallenge cliNonce => .array [.int 0, .bytes cliNonce]
  | .authProof cliProof => .array [.int 1, .bytes cliProof]
  | .configGetStatus => .array [.int 0]
  | .configSet ssid password bssid channel =>
    .array [.int 1, .map (put "ch" int channel (put "bssid" .bytes bssid
      (put "pass" .bytes password [(.text "ssid", .bytes ssid)])))]
  | .configApply => .array [.int 2]
  | .scanStart passive periodMs =>
    .array [.int 0, .map (put "period-ms" int periodMs (put "passive" .bool passive []))]
  | .scanGetStatus => .array [.int 1]
  | .scanGetResults start count => .array [.int 2, int start, int count]
  | .credWrite kind offset total data =>
    .array [.int 0, .map [(.text "kind", .int (Int64.ofNat (kindCode kind))),
      (.text "off", int offset), (.text "total", int total), (.text "data", .bytes data)]]
  | .credFinalize => .array [.int 1]
  | .credGetStatus => .array [.int 2]
  | .ctrl op => .array [.int (Int64.ofNat op.code)]

section Literals

variable (py : Clients.Python)

mutual

/-- The literal of Python for a data item. -/
inductive Literal : py.Obj → Item → Prop
  | int (n : Nat) : Literal (py.ofInt n) (.uint n)
  | bytes (b : Bytes) : Literal (py.ofBytes b) (.bstr b)
  | text (s : String) : Literal (py.ofText s) (.tstr (utf8 s))
  | bool (b : Bool) : Literal (py.ofBool b) (.bool b)
  | list {os : List py.Obj} {xs : List Item} (h : Literals os xs) :
      Literal (py.ofList os) (.array xs)
  | dict {kvs : List (py.Obj × py.Obj)} {xs : List Item} (h : Entries kvs xs) :
      Literal (py.ofDict kvs) (.map xs)

inductive Literals : List py.Obj → List Item → Prop
  | nil : Literals [] []
  | cons {o : py.Obj} {x : Item} {os : List py.Obj} {xs : List Item} (first : Literal o x)
      (rest : Literals os xs) : Literals (o :: os) (x :: xs)

inductive Entries : List (py.Obj × py.Obj) → List Item → Prop
  | nil : Entries [] []
  | cons {k v : py.Obj} {x y : Item} {kvs : List (py.Obj × py.Obj)} {xs : List Item}
      (key : Literal k x) (value : Literal v y) (rest : Entries kvs xs) :
      Entries ((k, v) :: kvs) (x :: y :: xs)

end

/-- `cbor2.dumps` writes the canonical encoding of a literal, with the entries of a dict in the
order in which they were inserted. -/
def Writes : Prop := ∀ o x, Literal py o x → x.Ok → py.dumps o = some (encode x)

end Literals

section Encoders

variable {r : Request}

lemma python_eq (py : Clients.Python) (bounds : r.InBounds) :
    ∃ o, r.python py = py.dumps o ∧ Literal py o r.item := by
  cases r with
  | authChallenge cliNonce =>
    exact ⟨_, if_pos bounds, .list (.cons (.int 0) (.cons (.bytes _) .nil))⟩
  | authProof cliProof =>
    exact ⟨_, if_pos bounds, .list (.cons (.int 1) (.cons (.bytes _) .nil))⟩
  | configSet ssid password bssid channel =>
    refine ⟨_, rfl, .list (.cons (.int 1) (.cons (.dict ?_) .nil))⟩
    cases password <;> cases bssid <;> cases channel <;> repeat constructor
  | scanStart passive periodMs =>
    refine ⟨_, rfl, .list (.cons (.int 0) (.cons (.dict ?_) .nil))⟩
    cases passive <;> cases periodMs <;> repeat constructor
  | scanGetResults start count =>
    exact ⟨_, rfl, .list (.cons (.int 2) (.cons (.int start) (.cons (.int count) .nil)))⟩
  | credWrite kind offset total data =>
    refine ⟨_, rfl, .list (.cons (.int 0) (.cons (.dict ?_) .nil))⟩
    exact .cons (.text _) (.int _) (.cons (.text _) (.int offset) (.cons (.text _) (.int total)
      (.cons (.text _) (.bytes data) .nil)))
  | ctrl op => exact ⟨_, rfl, .list (.cons (.int _) .nil)⟩
  | _ => exact ⟨_, rfl, .list (.cons (.int _) .nil)⟩

lemma put_map {α β : Type} (key : String) (make : β → CborValue) (f : α → β) (value : Option α)
    (pairs : List (CborValue × CborValue)) :
    put key make (value.map f) pairs = put key (fun a => make (f a)) value pairs := by
  cases value <;> rfl

lemma kotlin_eq (bounds : r.InBounds) :
    r.kotlin =
      some (ClientCbor.Kotlin.encode (r.value fun n => Kotlin.long (Int32.ofNat n))) := by
  cases r with
  | authChallenge cliNonce => exact if_pos bounds
  | authProof cliProof => exact if_pos bounds
  | configSet ssid password bssid channel =>
    simp only [Request.kotlin, Kotlin.encodeConfigSet, put_map]
    rfl
  | scanStart passive periodMs =>
    simp only [Request.kotlin, Kotlin.encodeScanStart, put_map]
    rfl
  | _ => rfl

lemma swift_eq (bounds : r.InBounds) :
    r.swift = some (ClientCbor.Swift.encode (r.value fun n => .int (Int64.ofNat n))) := by
  cases r with
  | authChallenge cliNonce => exact if_pos bounds
  | authProof cliProof => exact if_pos bounds
  | configSet ssid password bssid channel =>
    simp only [Request.swift, Swift.encodeConfigSet, put_map]
    rfl
  | scanStart passive periodMs =>
    simp only [Request.swift, Swift.encodeScanStart, put_map]
    rfl
  | _ => rfl

open ClientCbor

lemma item_long {n : Nat} (fits : n < 2 ^ 31) : item (Kotlin.long (Int32.ofNat n)) = .uint n := by
  rw [Kotlin.long, item, Int32.toInt_toInt64, Int32.toInt_ofNat_of_lt fits,
    if_pos (Int.natCast_nonneg n), Int.toNat_natCast]

lemma int_sized (v : Int64) : Sized (.int v) := trivial

lemma text_sized {s : String} (short : (utf8 s).length < 2 ^ 63) : Sized (.text s) := short

lemma bytes_sized {b : Bytes} (short : b.length ≤ 64) : Sized (.bytes b) :=
  Nat.lt_of_le_of_lt short (by decide)

/-- So many entries at most, all of them sized. -/
def EntriesFit (n : Nat) (pairs : List (CborValue × CborValue)) : Prop :=
  pairs.length ≤ n ∧ PairsSized pairs

lemma map_sized {n : Nat} (few : n < 24) {pairs : List (CborValue × CborValue)}
    (fit : EntriesFit n pairs) : Sized (.map pairs) := by
  refine ⟨?_, fit.2⟩
  have hlength := fit.1
  omega

lemma put_fit {α : Type} {key : String} (short : (utf8 key).length < 2 ^ 63)
    {make : α → CborValue} {value : Option α} (sized : ∀ a ∈ value, Sized (make a)) {n : Nat}
    {pairs : List (CborValue × CborValue)} (start : EntriesFit n pairs) :
    EntriesFit (n + 1) (put key make value pairs) := by
  obtain ⟨hlength, hpairs⟩ := start
  cases value with
  | none => exact ⟨Nat.le_succ_of_le hlength, hpairs⟩
  | some a =>
    refine ⟨?_, pairsSized_append hpairs ⟨short, sized a rfl, trivial⟩⟩
    simpa [put] using hlength

variable {int : Nat → CborValue}

/-- The value of a request is the data item with the given values. -/
lemma value_item (small : ∀ n < 2 ^ 31, item (int n) = .uint n) (bounds : r.InBounds) :
    item (r.value int) = r.item := by
  cases r with
  | configSet ssid password bssid channel =>
    obtain ⟨-, -, -, -, hch⟩ := bounds
    cases channel with
    | none => cases password <;> cases bssid <;> rfl
    | some ch =>
      have hint := small ch (hch ch rfl)
      cases password <;> cases bssid <;>
        simp only [Request.value, put, List.cons_append, List.nil_append, item, items, pairItems,
          hint] <;> rfl
  | scanStart passive periodMs =>
    cases periodMs with
    | none => cases passive <;> rfl
    | some ms =>
      have hint := small ms (bounds ms rfl)
      cases passive <;>
        simp only [Request.value, put, List.cons_append, List.nil_append, item, items, pairItems,
          hint] <;> rfl
  | scanGetResults start count =>
    simp only [Request.value, item, items, small start bounds.1, small count bounds.2]
    rfl
  | credWrite kind offset total data =>
    simp only [Request.value, item, items, pairItems, small offset bounds.1, small total bounds.2.1]
    cases kind <;> rfl
  | ctrl op => cases op <;> rfl
  | _ => rfl

/-- A message without a map. -/
lemma array_sized {xs : List CborValue} (few : xs.length < 24) (sized : ∀ x ∈ xs, Sized x) :
    Sized (.array xs) := by
  refine ⟨by omega, ?_⟩
  clear few
  induction xs with
  | nil => trivial
  | cons x xs ih =>
    exact ⟨sized x List.mem_cons_self, ih fun y hy => sized y (List.mem_cons_of_mem _ hy)⟩

lemma value_sized (small : ∀ n, Sized (int n)) (bounds : r.InBounds) : Sized (r.value int) := by
  cases r with
  | authChallenge cliNonce =>
    have hnonce : Sized (.bytes cliNonce) := bytes_sized (bounds.trans_le (by decide))
    exact array_sized (by simp) (by simp [int_sized, hnonce])
  | authProof cliProof =>
    have hproof : Sized (.bytes cliProof) := bytes_sized (bounds.trans_le (by decide))
    exact array_sized (by simp) (by simp [int_sized, hproof])
  | configSet ssid password bssid channel =>
    obtain ⟨-, hssid, hpass, hbssid, -⟩ := bounds
    have hstart : EntriesFit 1 [(.text "ssid", .bytes ssid)] :=
      ⟨by simp, text_sized (by decide), bytes_sized (by omega), trivial⟩
    have hpassword : EntriesFit 2 (put "pass" .bytes password _) :=
      put_fit (by decide) (fun p hp => bytes_sized (hpass p hp)) hstart
    have haddress : EntriesFit 3 (put "bssid" .bytes bssid _) :=
      put_fit (by decide) (fun b hb => bytes_sized ((hbssid b hb).trans_le (by decide))) hpassword
    have hconfig : EntriesFit 4 (put "ch" int channel _) :=
      put_fit (by decide) (fun n _ => small n) haddress
    exact array_sized (by simp) (by simp [int_sized, map_sized (by decide) hconfig])
  | scanStart passive periodMs =>
    have hpassive : EntriesFit 1 (put "passive" .bool passive []) :=
      put_fit (by decide) (fun b _ => show Sized (.bool b) from trivial) ⟨Nat.le_refl 0, trivial⟩
    have hparams : EntriesFit 2 (put "period-ms" int periodMs _) :=
      put_fit (by decide) (fun n _ => small n) hpassive
    exact array_sized (by simp) (by simp [int_sized, map_sized (by decide) hparams])
  | scanGetResults start count => exact array_sized (by simp) (by simp [int_sized, small])
  | credWrite kind offset total data =>
    obtain ⟨-, -, hdata⟩ := bounds
    have hchunk : EntriesFit 4 [(.text "kind", .int (Int64.ofNat (kindCode kind))),
        (.text "off", int offset), (.text "total", int total), (.text "data", .bytes data)] :=
      ⟨by simp, text_sized (by decide), int_sized _, text_sized (by decide), small _,
        text_sized (by decide), small _, text_sized (by decide),
        Nat.lt_trans hdata (by decide), trivial⟩
    exact array_sized (by simp) (by simp [int_sized, map_sized (by decide) hchunk])
  | _ => exact array_sized (by simp) (by simp [int_sized])

end Encoders

section Instances

variable {r : Request}

lemma wifiConfig_matches {ssid : Bytes} {password bssid : Option Bytes} {channel : Option Nat}
    (bounds : (Request.configSet ssid password bssid channel).InBounds) :
    Matches Schema.wifiConfig
      (.map (written (given (Schema.wifiConfigFields ssid password bssid channel)))) := by
  obtain ⟨hmin, hmax, hpass, hbssid, -⟩ := bounds
  refine matches_given (Schema.wifiConfigFields ssid password bssid channel)
    (by simp [Schema.wifiConfigFields]) ?_
  intro f hf
  simp only [Schema.wifiConfigFields, List.mem_cons, List.not_mem_nil, or_false] at hf
  rcases hf with rfl | rfl | rfl | rfl
  · exact .sized hmin hmax
  · cases password with
    | none => rfl
    | some p => exact .sized (Nat.zero_le _) (hpass p rfl)
  · cases bssid with
    | none => rfl
    | some b => exact .sized (Nat.le_of_eq (hbssid b rfl).symm) (Nat.le_of_eq (hbssid b rfl))
  · cases channel with
    | none => rfl
    | some ch => exact .uint ch

lemma scanParams_matches (passive : Option Bool) (periodMs : Option Nat) :
    Matches Schema.scanParams
      (.map (written (given (Schema.scanParamsFields passive periodMs)))) := by
  refine matches_given (Schema.scanParamsFields passive periodMs)
    (by simp [Schema.scanParamsFields]) ?_
  intro f hf
  simp only [Schema.scanParamsFields, List.mem_cons, List.not_mem_nil, or_false] at hf
  rcases hf with rfl | rfl
  · cases passive with
    | none => rfl
    | some b => exact .bool b
  · cases periodMs with
    | none => rfl
    | some ms => exact .uint ms

lemma credKind_matches (kind : CredKind) :
    Matches Schema.credKind (.uint (kindCode kind)) := by
  cases kind with
  | deviceCert => exact .choice (t := .literal 0) (by simp) (.literal 0)
  | privateKey => exact .choice (t := .literal 1) (by simp) (.literal 1)
  | caCert => exact .choice (t := .literal 2) (by simp) (.literal 2)

lemma credChunk_matches (kind : CredKind) (offset total : Nat) (data : Bytes) :
    Matches Schema.credChunk
      (.map (written (given (Schema.credChunkFields kind offset total data)))) := by
  refine matches_given (Schema.credChunkFields kind offset total data)
    (by simp [Schema.credChunkFields]) ?_
  intro f hf
  simp only [Schema.credChunkFields, List.mem_cons, List.not_mem_nil, or_false] at hf
  rcases hf with rfl | rfl | rfl | rfl
  · exact credKind_matches kind
  · exact .uint offset
  · exact .uint total
  · exact .bstr data

theorem request_matches (bounds : r.InBounds) : Matches r.production r.item := by
  have hop : ∀ n, Matches (.array [.literal n]) (.array [.uint n]) :=
    fun n => .array (.cons (.literal n) .nil)
  cases r with
  | authChallenge cliNonce =>
    have hlen : cliNonce.length = 16 := bounds
    exact .array (.cons (.literal 0) (.cons
      (.sized (Nat.le_of_eq hlen.symm) (Nat.le_of_eq hlen)) .nil))
  | authProof cliProof =>
    have hlen : cliProof.length = 32 := bounds
    exact .array (.cons (.literal 1) (.cons
      (.sized (Nat.le_of_eq hlen.symm) (Nat.le_of_eq hlen)) .nil))
  | configSet ssid password bssid channel =>
    exact .array (.cons (.literal 1) (.cons (wifiConfig_matches bounds) .nil))
  | scanStart passive periodMs =>
    exact .array (.cons (.literal 0) (.cons (scanParams_matches passive periodMs) .nil))
  | scanGetResults start count =>
    exact .array (.cons (.literal 2) (.cons (.uint start) (.cons (.uint count) .nil)))
  | credWrite kind offset total data =>
    exact .array (.cons (.literal 0) (.cons (credChunk_matches kind offset total data) .nil))
  | ctrl op => cases op <;> exact hop _
  | _ => exact hop _

/-- An item that is well formed and has no more than so many bytes. -/
def Small (bound : Nat) (x : Item) : Prop := x.Ok ∧ (encode x).length ≤ bound

lemma Small.mono {bound bound' : Nat} {x : Item} (h : Small bound x) (le : bound ≤ bound') :
    Small bound' x :=
  ⟨h.1, Nat.le_trans h.2 le⟩

lemma uint_small {n : Nat} (fits : n < 2 ^ 31) : Small 9 (.uint n) :=
  ⟨Nat.lt_trans fits (by decide), head_length_le_nine 0 n⟩

lemma bstr_small (b : Bytes) : Small (9 + b.length) (.bstr b) := by
  refine ⟨trivial, ?_⟩
  have hhead := head_length_le_nine 2 b.length
  rw [encode, List.length_append]
  omega

lemma bool_small (b : Bool) : Small 9 (.bool b) :=
  ⟨bool_ok b, by cases b <;> decide⟩

/-- A member with a short name and a small value. -/
def SmallField (bound : Nat) (f : Field) : Prop :=
  (utf8 f.key).length ≤ 9 ∧ ∀ x ∈ f.value, Small bound x

lemma smallField {key : String} {optional : Bool} {type : Ty} {value : Option Item} {bound : Nat}
    (short : (utf8 key).length ≤ 9) (small : ∀ x ∈ value, Small bound x) :
    SmallField bound ⟨key, optional, type, value⟩ :=
  ⟨short, small⟩

/-- A map of few and small members is small. -/
lemma map_small (fields : List Field) {bound : Nat} (each : ∀ f ∈ fields, SmallField bound f) :
    Small (9 + fields.length * (18 + bound)) (.map (written (given fields))) := by
  have hgiven : ∀ e ∈ given fields, (utf8 e.key).length ≤ 9 ∧ Small bound e.value :=
    given_forall (P := fun key x => (utf8 key).length ≤ 9 ∧ Small bound x)
      fun f hf x hx => ⟨(each f hf).1, (each f hf).2 x hx⟩
  have hwritten := encode_written_length_le (given fields) (9 + bound) (by
    intro e he
    have hkey := (hgiven e he).1
    have hvalue := (hgiven e he).2.2
    omega)
  have hcount := Nat.mul_le_mul_right (9 + (9 + bound)) (given_length_le fields)
  have hhead := head_length_le_nine 5 ((written (given fields)).length / 2)
  refine ⟨written_ok fun e he => (hgiven e he).2.1, ?_⟩
  have hsum : 9 + (9 + bound) = 18 + bound := by omega
  rw [hsum] at hwritten hcount
  rw [encode, List.length_append]
  omega

lemma array_small {xs : List Item} {bound : Nat} (each : ∀ x ∈ xs, Small bound x) :
    Small (9 + xs.length * bound) (.array xs) := by
  have hall : (encodeAll xs).length ≤ xs.length * bound := by
    induction xs with
    | nil => exact Nat.zero_le _
    | cons x xs ih =>
      have htail := ih fun y hy => each y (List.mem_cons_of_mem _ hy)
      have hx := (each x List.mem_cons_self).2
      rw [encodeAll, List.length_append, List.length_cons, Nat.add_mul, Nat.one_mul]
      omega
  have hhead := head_length_le_nine 4 xs.length
  refine ⟨(allOk_iff xs).mpr fun x hx => (each x hx).1, ?_⟩
  rw [encode, List.length_append]
  omega

lemma kindCode_lt (kind : CredKind) : kindCode kind < 2 ^ 31 := by
  cases kind <;> decide

lemma wifiConfig_small {ssid : Bytes} {password bssid : Option Bytes} {channel : Option Nat}
    (bounds : (Request.configSet ssid password bssid channel).InBounds) :
    Small (9 + 4 * (18 + 73))
      (.map (written (given (Schema.wifiConfigFields ssid password bssid channel)))) := by
  obtain ⟨-, hssid, hpass, hbssid, hch⟩ := bounds
  refine map_small (Schema.wifiConfigFields ssid password bssid channel) ?_
  intro f hf
  simp only [Schema.wifiConfigFields, List.mem_cons, List.not_mem_nil, or_false] at hf
  rcases hf with rfl | rfl | rfl | rfl
  · refine smallField (by decide) fun x hx => ?_
    obtain rfl := Option.some.inj hx
    exact (bstr_small ssid).mono (by omega)
  · refine smallField (by decide) fun x hx => ?_
    obtain ⟨p, hp, rfl⟩ := Option.map_eq_some_iff.mp hx
    have hlen := hpass p hp
    exact (bstr_small p).mono (by omega)
  · refine smallField (by decide) fun x hx => ?_
    obtain ⟨b, hb, rfl⟩ := Option.map_eq_some_iff.mp hx
    have hlen := hbssid b hb
    exact (bstr_small b).mono (by omega)
  · refine smallField (by decide) fun x hx => ?_
    obtain ⟨ch, hc, rfl⟩ := Option.map_eq_some_iff.mp hx
    exact (uint_small (hch ch hc)).mono (by decide)

lemma scanParams_small {passive : Option Bool} {periodMs : Option Nat}
    (bounds : (Request.scanStart passive periodMs).InBounds) :
    Small (9 + 2 * (18 + 9))
      (.map (written (given (Schema.scanParamsFields passive periodMs)))) := by
  refine map_small (Schema.scanParamsFields passive periodMs) ?_
  intro f hf
  simp only [Schema.scanParamsFields, List.mem_cons, List.not_mem_nil, or_false] at hf
  rcases hf with rfl | rfl
  · refine smallField (by decide) fun x hx => ?_
    obtain ⟨b, -, rfl⟩ := Option.map_eq_some_iff.mp hx
    exact bool_small b
  · refine smallField (by decide) fun x hx => ?_
    obtain ⟨ms, hms, rfl⟩ := Option.map_eq_some_iff.mp hx
    exact uint_small (bounds ms hms)

lemma credChunk_small {kind : CredKind} {offset total : Nat} {data : Bytes}
    (bounds : (Request.credWrite kind offset total data).InBounds) :
    Small (9 + 4 * (18 + (9 + 2 ^ 31)))
      (.map (written (given (Schema.credChunkFields kind offset total data)))) := by
  obtain ⟨hoff, htotal, hdata⟩ := bounds
  refine map_small (Schema.credChunkFields kind offset total data) ?_
  intro f hf
  simp only [Schema.credChunkFields, List.mem_cons, List.not_mem_nil, or_false] at hf
  rcases hf with rfl | rfl | rfl | rfl
  · refine smallField (by decide) fun x hx => ?_
    obtain rfl := Option.some.inj hx
    exact (uint_small (kindCode_lt kind)).mono (by decide)
  · refine smallField (by decide) fun x hx => ?_
    obtain rfl := Option.some.inj hx
    exact (uint_small hoff).mono (by decide)
  · refine smallField (by decide) fun x hx => ?_
    obtain rfl := Option.some.inj hx
    exact (uint_small htotal).mono (by decide)
  · refine smallField (by decide) fun x hx => ?_
    obtain rfl := Option.some.inj hx
    exact (bstr_small data).mono (by omega)

lemma request_small (bounds : r.InBounds) : Small (2 ^ 42) r.item := by
  have hop : ∀ op < 2 ^ 31, Small (2 ^ 42) (.array [.uint op]) := by
    intro op hop
    exact (array_small (by simpa using uint_small hop)).mono (by simp)
  have htwo : ∀ op < 2 ^ 31, ∀ x, Small (2 ^ 40) x → Small (2 ^ 42) (.array [.uint op, x]) := by
    intro op hop x hx
    exact (array_small (by simpa using ⟨(uint_small hop).mono (by decide), hx⟩)).mono (by simp)
  cases r with
  | authChallenge cliNonce =>
    have hlen : cliNonce.length = 16 := bounds
    exact htwo 0 (by decide) _ ((bstr_small cliNonce).mono (by rw [hlen]; decide))
  | authProof cliProof =>
    have hlen : cliProof.length = 32 := bounds
    exact htwo 1 (by decide) _ ((bstr_small cliProof).mono (by rw [hlen]; decide))
  | configSet ssid password bssid channel =>
    exact htwo 1 (by decide) _ ((wifiConfig_small bounds).mono (by decide))
  | scanStart passive periodMs =>
    exact htwo 0 (by decide) _ ((scanParams_small bounds).mono (by decide))
  | scanGetResults start count =>
    refine (array_small ?_).mono (show 9 + 3 * 9 ≤ 2 ^ 42 by decide)
    simpa using ⟨uint_small (by decide), uint_small bounds.1, uint_small bounds.2⟩
  | credWrite kind offset total data =>
    exact htwo 0 (by decide) _ ((credChunk_small bounds).mono (by decide))
  | ctrl op => cases op <;> exact hop _ (by decide)
  | _ => exact hop _ (by decide)

/-- The bytes of a message are a well-formed encoding of it and of nothing more. -/
theorem request_parses (bounds : r.InBounds) : Parses (encode r.item) r.item [] := by
  obtain ⟨hok, hlength⟩ := request_small bounds
  have hparses := parses_encode r.item hok (by omega) []
  rwa [List.append_nil] at hparses

end Instances

section Bytes

variable {r : Request}

open ClientCbor

lemma python_bytes {py : Clients.Python} (writes : Writes py) (bounds : r.InBounds) :
    r.python py = some (encode r.item) := by
  obtain ⟨o, hpython, hliteral⟩ := python_eq py bounds
  rw [hpython, writes o r.item hliteral (request_small bounds).1]

lemma kotlin_bytes (bounds : r.InBounds) : r.kotlin = some (encode r.item) := by
  have hsized : Sized (r.value fun n => Kotlin.long (Int32.ofNat n)) :=
    value_sized (fun _ => int_sized _) bounds
  rw [kotlin_eq bounds, Kotlin.encode_eq hsized, value_item (fun _ fits => item_long fits) bounds]

lemma swift_bytes (bounds : r.InBounds) : r.swift = some (encode r.item) := by
  have hsized : Sized (r.value fun n => .int (Int64.ofNat n)) :=
    value_sized (fun _ => int_sized _) bounds
  rw [swift_eq bounds, Swift.encode_eq hsized,
    value_item (fun _ fits => item_int (Nat.lt_trans fits (by decide))) bounds]

end Bytes

/-- For every request and all arguments within the bounds of the schema the three clients write
the same bytes. Read as CBOR these are the message with exactly the given values, an instance of
the production of the request. -/
theorem requests_agree {py : Clients.Python} (writes : Writes py) (r : Request)
    (bounds : r.InBounds) :
    ∃ bytes, r.python py = some bytes ∧ r.kotlin = some bytes ∧ r.swift = some bytes ∧
      Parses bytes r.item [] ∧ Matches r.production r.item :=
  ⟨encode r.item, python_bytes writes bounds, kotlin_bytes bounds, swift_bytes bounds,
    request_parses bounds, request_matches bounds⟩

section Reference

variable {prim : Saead.Primitives} {int : Item → Option Int} {truthy : Item → Bool}

mutual

/-- Data items are their own literals. -/
theorem item_literal : ∀ {o x : Item}, Literal (itemPython prim int truthy) o x → o = x
  | _, _, .int n => by simp [itemPython]
  | _, _, .bytes _ => rfl
  | _, _, .text _ => rfl
  | _, _, .bool _ => rfl
  | _, _, .list h => congrArg Item.array (item_literals h)
  | _, _, .dict h => congrArg Item.map (item_entries h)

theorem item_literals :
    ∀ {os xs : List Item}, Literals (itemPython prim int truthy) os xs → os = xs
  | _, _, .nil => rfl
  | _, _, .cons first rest => congrArg₂ List.cons (item_literal first) (item_literals rest)

theorem item_entries : ∀ {kvs : List (Item × Item)} {xs : List Item},
    Entries (itemPython prim int truthy) kvs xs → kvs.flatMap (fun kv => [kv.1, kv.2]) = xs
  | _, _, .nil => rfl
  | _, _, .cons key value rest =>
    congrArg₂ List.cons (item_literal key)
      (congrArg₂ List.cons (item_literal value) (item_entries rest))

end

theorem item_writes (prim : Saead.Primitives) (int : Item → Option Int) (truthy : Item → Bool) :
    Writes (itemPython prim int truthy) := by
  intro o x literal _
  rw [item_literal literal]
  rfl

end Reference

/-- A chunk of 24 bytes, the least length that takes a header of two bytes. -/
def chunkRequest : Request := .credWrite .privateKey 0 24 (List.replicate 24 0x30)

theorem requests_agree_chunk :
    ∃ bytes, chunkRequest.python (Clients.referencePython Clients.samplePrimitives) = some bytes ∧
      chunkRequest.kotlin = some bytes ∧
      chunkRequest.swift = some bytes ∧ Parses bytes chunkRequest.item [] ∧
      Matches Schema.credWrite chunkRequest.item :=
  requests_agree (item_writes Clients.samplePrimitives _ _) chunkRequest
    ⟨by decide, by decide, by decide⟩

end ClientRequests
