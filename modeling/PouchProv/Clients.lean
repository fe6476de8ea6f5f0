import PouchProv.Cbor
import PouchProv.Saead
import Mathlib.Algebra.Group.Int.Defs

/-!
# The three clients

The header decoders of `pouch.py`, `Pouch.kt` and `Pouch.swift` and the parts of
the saead and session modules in which the clients differ, collected into the
`Framing` of each.

The CBOR readers are parameters. The Kotlin and the Swift reader give values of
one type, with integers of 64 bits; the Kotlin client narrows them to 32 bits
before it compares them. The Python client works on whatever objects `cbor2`
returns, whose types define their own operations: these, each of which may raise,
are parameters too. So is the decoding of UTF-8 in all three.
-/

namespace Clients

open Bytes PouchFrame Saead

/-- The values of `Cbor.kt` and `Cbor.swift`. -/
inductive CborValue where
  | int (v : Int64)
  | bytes (b : Bytes)
  | text (s : String)
  | array (xs : List CborValue)
  | map (kvs : List (CborValue × CborValue))
  | bool (b : Bool)
  | null

def CborValue.int64Value : CborValue → Option Int64
  | .int v => some v
  | _ => none

structure PouchHeader where
  encryption : Encryption
  deviceId : Option String
  sessionInfo : Option (List CborValue)
  pouchId : Int64

structure SessionInfo where
  sessionId : Bytes
  initiator : Int
  algorithm : Int
  maxBlockSizeLog : Int
  certRef : Bytes
  sequentialSeq : Option Int

/-- Both clients format the exponent as an unsigned number of 32 bits. -/
def SessionInfo.uplink (info : SessionInfo) : Uplink where
  sessionId := info.sessionId
  fromDevice := info.initiator = 0
  algorithm := if info.algorithm = 1 then .chacha20Poly1305 else .aesGcm
  log := .ok (hex02 (info.maxBlockSizeLog % 2 ^ 32).toNat)

/-- A sealed block behind its size; one that is cut short is refused. -/
def nextSealed : Bytes → Except Failure (Bytes × Bytes)
  | s1 :: s0 :: rest =>
    let size := ofBe [s1, s0]
    if rest.length < size then .error (.decode "truncated sealed block")
    else .ok (rest.take size, rest.drop size)
  | _ => .error (.decode "truncated sealed block")

/-- The pouch id and the block index wrap to 16 bits. -/
def nonce (pouchId : Int64) (blockIndex : Nat) (senderRole : Role) : Bytes :=
  be 2 (pouchId.toInt % 2 ^ 16).toNat ++ be 2 (blockIndex % 2 ^ 16) ++ [senderRole.code] ++
    List.replicate 7 0

def lastTag (sealed : Bytes) : Bytes := sealed.drop (sealed.length - authTagLen)

structure Kotlin where
  prim : Primitives
  decodeWithLength : Bytes → Option (CborValue × Nat)
  utf8 : Bytes → String

namespace Kotlin

/-- `(v as? Long)?.toInt()` -/
def asInt (v : CborValue) : Option Int32 := v.int64Value.map Int64.toInt32

def decode (k : Kotlin) (data : Bytes) : Except Failure (PouchHeader × Nat) :=
  match k.decodeWithLength data with
  | none => .error (.decode "bad pouch header")
  | some (.array [version, info], consumed) =>
    if asInt version ≠ some 1 then .error (.decode "unsupported pouch version")
    else
      match info with
      | .array (kind :: rest) =>
        if asInt kind = some 0 then
          match rest with
          | .text deviceId :: _ => .ok (⟨.none, some deviceId, none, 0⟩, consumed)
          | .null :: _ => .ok (⟨.none, none, none, 0⟩, consumed)
          | _ => .error .other
        else if asInt kind = some 1 then
          match rest with
          | .array sessionInfo :: pouchId :: _ =>
            .ok (⟨.saead, none, some sessionInfo, pouchId.int64Value.getD 0⟩, consumed)
          | _ => .error .other
        else .error (.decode "unknown encryption type")
      | _ => .error (.decode "bad encryption info")
  | some _ => .error (.decode "pouch header is not a 2-element array")

def fromCborObj : List CborValue → Except Failure SessionInfo
  | .array sid :: .int initiator :: .int algorithm :: .int log :: .bytes certRef :: _ =>
    let info sessionId := SessionInfo.mk sessionId initiator.toInt32.toInt algorithm.toInt32.toInt
      log.toInt32.toInt certRef
    match sid with
    | [.bytes sessionId, .int seq] => .ok (info sessionId (some seq.toInt))
    | [_, _] => .error .other
    | .bytes sessionId :: _ => .ok (info sessionId none)
    | _ => .error .other
  | _ => .error .other

def framing (k : Kotlin) : Framing where
  Header := PouchHeader
  DeviceId := String
  prim := k.prim
  decode := k.decode
  encryption h := h.encryption
  deviceId h current := h.deviceId.getD current
  carriesBlocks _ consumed data := .ok (data.length > consumed)
  uplink h :=
    match h.sessionInfo with
    | none => .error (.decode "uplink pouch is not saead")
    | some obj => (fromCborObj obj).map SessionInfo.uplink
  nextSealed := nextSealed
  nonce h blockIndex := .ok (nonce h.pouchId blockIndex .device)
  openSealed algorithm key nonce sealed aad :=
    match k.prim.aeadOpen algorithm key nonce sealed aad with
    | none => .error (.saead "saead open failed")
    | some plaintext => .ok plaintext
  -- The range of the copy starts below zero for a block that is shorter than a tag.
  tag sealed := if sealed.length < authTagLen then .error .other else .ok (lastTag sealed)
  path b := .ok (k.utf8 b)

end Kotlin

structure Swift where
  prim : Primitives
  decodeWithLength : Bytes → Option (CborValue × Nat)
  utf8 : Bytes → Option String

namespace Swift

def textValue : CborValue → Option String
  | .text s => some s
  | _ => none

def decode (sw : Swift) (data : Bytes) : Except Failure (PouchHeader × Nat) :=
  match sw.decodeWithLength data with
  | none => .error (.decode "bad pouch header")
  | some (.array [version, info], consumed) =>
    if version.int64Value ≠ some 1 then .error (.decode "unsupported pouch version")
    else
      match info with
      | .array (kind :: rest) =>
        if kind.int64Value = some 0 then
          match rest with
          | deviceId :: _ => .ok (⟨.none, textValue deviceId, none, 0⟩, consumed)
          | [] => .error (.decode "bad encryption info")
        else if kind.int64Value = some 1 then
          match rest with
          | .array sessionInfo :: pouchId :: _ =>
            .ok (⟨.saead, none, some sessionInfo, pouchId.int64Value.getD 0⟩, consumed)
          | _ => .error (.decode "bad encryption info")
        else .error (.decode "unknown encryption type")
      | _ => .error (.decode "bad encryption info")
  | some _ => .error (.decode "pouch header is not a 2-element array")

def fromCborObj : List CborValue → Except Failure SessionInfo
  | .array sid :: .int initiator :: .int algorithm :: .int log :: .bytes certRef :: _ =>
    let info sessionId := SessionInfo.mk sessionId initiator.toInt algorithm.toInt log.toInt certRef
    match sid with
    | [.bytes sessionId, seq] => .ok (info sessionId (seq.int64Value.map Int64.toInt))
    | .bytes sessionId :: _ => .ok (info sessionId none)
    | _ => .error (.decode "bad saead session info")
  | _ => .error (.decode "bad saead session info")

def framing (sw : Swift) : Framing where
  Header := PouchHeader
  DeviceId := String
  prim := sw.prim
  decode := sw.decode
  encryption h := h.encryption
  deviceId h current := h.deviceId.getD current
  carriesBlocks _ consumed data := .ok (data.length > consumed)
  uplink h :=
    match h.sessionInfo with
    | none => .error (.decode "uplink pouch is not saead")
    | some obj => (fromCborObj obj).map SessionInfo.uplink
  nextSealed := nextSealed
  nonce h blockIndex := .ok (nonce h.pouchId blockIndex .device)
  openSealed algorithm key nonce sealed aad :=
    if sealed.length < authTagLen then .error (.saead "sealed block too short")
    else
      match sw.prim.aeadOpen algorithm key nonce sealed aad with
      | none => .error (.saead "saead open failed")
      | some plaintext => .ok plaintext
  tag sealed := .ok (lastTag sealed)
  path b :=
    match sw.utf8 b with
    | none => .error (.decode "bad entry path")
    | some path => .ok path

end Swift

/-- The reader `cbor2` and the operations on the objects it returns: `loads` with the number
of bytes read, `dumps`, the literals of the client, `isinstance(x, list)`, `==` with an
integer, unpacking, `len`, indexing, `bytes`, `int`, truth, the format `02X`, packing into 16
bits, and the decoding of UTF-8. An operation that raises gives `none`. -/
structure Python where
  prim : Primitives
  Obj : Type
  loads : Bytes → Option (Obj × Nat)
  dumps : Obj → Option Bytes
  ofInt : Int → Obj
  ofBytes : Bytes → Obj
  ofText : String → Obj
  ofBool : Bool → Obj
  ofList : List Obj → Obj
  ofDict : List (Obj × Obj) → Obj
  list : Obj → Option (List Obj)
  equalsInt : Obj → Int → Bool
  unpack : Obj → Option (List Obj)
  len : Obj → Option Nat
  item : Obj → Nat → Option Obj
  bytes : Obj → Option Bytes
  int : Obj → Option Int
  truthy : Obj → Bool
  hex : Obj → Option String
  pack : Obj → Option Bytes
  utf8 : Bytes → Option String

namespace Python

structure SessionInfo (py : Python) where
  sessionId : Bytes
  initiator : py.Obj
  algorithm : py.Obj
  maxBlockSizeLog : py.Obj
  certRef : Bytes
  sequentialSeq : Option Int

structure PouchHeader (py : Python) where
  encryption : Encryption
  deviceId : Option py.Obj
  session : Option py.SessionInfo
  pouchId : py.Obj

variable (py : Python)

def fromCborObj (obj : py.Obj) : Except Failure py.SessionInfo :=
  match py.unpack obj with
  | some [sid, initiator, algorithm, mbsl, certRef] =>
    match py.len sid, (py.item sid 0).bind py.bytes, py.bytes certRef with
    | some n, some sessionId, some certRef =>
      if n = 2 then
        match (py.item sid 1).bind py.int with
        | some seq => .ok ⟨sessionId, initiator, algorithm, mbsl, certRef, some seq⟩
        | none => .error .other
      else .ok ⟨sessionId, initiator, algorithm, mbsl, certRef, none⟩
    | _, _, _ => .error .other
  | _ => .error .other

def toCborObj (info : py.SessionInfo) : py.Obj :=
  let sid := match info.sequentialSeq with
    | some seq => [py.ofBytes info.sessionId, py.ofInt seq]
    | none => [py.ofBytes info.sessionId]
  py.ofList [py.ofList sid, info.initiator, info.algorithm, info.maxBlockSizeLog,
    py.ofBytes info.certRef]

/-- `PouchHeader.encode` -/
def encode (h : py.PouchHeader) : Option Bytes :=
  let header info := py.dumps (py.ofList [py.ofInt 1, py.ofList info])
  match h.encryption with
  | .none => h.deviceId.bind fun deviceId => header [py.ofInt 0, deviceId]
  | .saead => h.session.bind fun session => header [py.ofInt 1, py.toCborObj session, h.pouchId]

def decode (data : Bytes) : Except Failure (py.PouchHeader × Nat) :=
  match py.loads data with
  | none => .error (.decode "bad pouch header")
  | some (obj, consumed) =>
    match py.list obj with
    | some [version, info] =>
      if ¬ py.equalsInt version 1 then .error (.decode "unsupported pouch version")
      else
        match py.list info with
        | some (kind :: rest) =>
          if py.equalsInt kind 0 then
            match rest with
            | deviceId :: _ => .ok (⟨.none, some deviceId, none, py.ofInt 0⟩, consumed)
            | [] => .error .other
          else if py.equalsInt kind 1 then
            match rest with
            | session :: pouchId :: _ =>
              (py.fromCborObj session).map fun session =>
                (⟨.saead, none, some session, pouchId⟩, consumed)
            | _ => .error .other
          else .error (.decode "unknown encryption type")
        | _ => .error (.decode "bad encryption info")
    | _ => .error (.decode "pouch header is not a 2-element array")

/-- A slice that reaches behind the data is cut short. -/
def nextSealed : Bytes → Except Failure (Bytes × Bytes)
  | s1 :: s0 :: rest => .ok (rest.take (ofBe [s1, s0]), rest.drop (ofBe [s1, s0]))
  | _ => .error .other

def nonce (pouchId : py.Obj) (blockIndex : Nat) (senderRole : Role) : Except Failure Bytes :=
  match py.pack pouchId with
  | none => .error .other
  | some id =>
    if blockIndex < 2 ^ 16 then
      .ok (id ++ be 2 blockIndex ++ [senderRole.code] ++ List.replicate 7 0)
    else .error .other

def framing : Framing where
  Header := py.PouchHeader
  DeviceId := py.Obj
  prim := py.prim
  decode := py.decode
  encryption h := h.encryption
  deviceId h current :=
    match h.deviceId with
    | some deviceId => if py.truthy deviceId then deviceId else current
    | none => current
  -- The length of the header is that of its encoding, not of the bytes that were read.
  carriesBlocks h _ data :=
    match py.encode h with
    | none => .error .other
    | some header => .ok (data.length > header.length)
  uplink h :=
    match h.session with
    | none => .error (.decode "uplink pouch is not saead")
    | some info =>
      .ok { sessionId := info.sessionId
            fromDevice := py.equalsInt info.initiator 0
            algorithm :=
              if py.equalsInt info.algorithm 1 then .chacha20Poly1305 else .aesGcm
            log := match py.hex info.maxBlockSizeLog with
              | some log => .ok log
              | none => .error .other }
  nextSealed := nextSealed
  nonce h blockIndex := py.nonce h.pouchId blockIndex .device
  openSealed algorithm key nonce sealed aad :=
    match py.prim.aeadOpen algorithm key nonce sealed aad with
    | none => .error .other
    | some plaintext => .ok plaintext
  tag sealed := .ok (lastTag sealed)
  path b :=
    match py.utf8 b with
    | none => .error .other
    | some path => .ok path

end Python

inductive Client where
  | python (py : Python)
  | kotlin (k : Kotlin)
  | swift (sw : Swift)

def Client.framing : Client → Framing
  | .python py => py.framing
  | .kotlin k => k.framing
  | .swift sw => sw.framing

/-- In an encrypted session of any client everything that is accepted is authenticated exactly
when the transport delivers no pouch without encryption that carries entries. -/
theorem encrypted_session_secure_iff (c : Client) (ps : ProvSession c.framing)
    (delivered : Set Bytes) :
    Secure c.framing ps delivered ↔ ∀ data ∈ delivered, ¬ Downgraded c.framing data :=
  secure_iff c.framing ps delivered

/-- An AEAD that opens nothing. -/
def samplePrimitives : Primitives where
  exchange _ _ := []
  hkdf _ _ length := List.replicate length 0
  aeadOpen _ _ _ _ _ := none

def ascii (b : Bytes) : String := String.ofList (b.map fun x => Char.ofNat x.toNat)

/-- The item at the start of the data, and its length. -/
def readItem (data : Bytes) : Option (Cbor.Item × Nat) :=
  (Cbor.read 64 data).map fun r => (r.1, data.length - r.2.length)

/-- A reader of lists, numbers and strings. -/
def samplePython : Python where
  prim := samplePrimitives
  Obj := Cbor.Item
  loads := readItem
  dumps x := some (Cbor.encode x)
  ofInt i := .uint i.toNat
  ofBytes := .bstr
  ofText s := .tstr (utf8 s)
  ofBool := .bool
  ofList := .array
  ofDict kvs := .map (kvs.flatMap fun kv => [kv.1, kv.2])
  list x := match x with
    | .array xs => some xs
    | _ => none
  equalsInt x i := match x with
    | .uint n => i = n
    | _ => false
  unpack x := match x with
    | .array xs => some xs
    | _ => none
  len x := match x with
    | .array xs => some xs.length
    | _ => none
  item x i := match x with
    | .array xs => xs[i]?
    | _ => none
  bytes x := match x with
    | .bstr b => some b
    | _ => none
  int x := match x with
    | .uint n => some n
    | _ => none
  truthy _ := true
  hex _ := some "09"
  pack x := match x with
    | .uint n => if n < 2 ^ 16 then some (be 2 n) else none
    | _ => none
  utf8 b := some (ascii b)

mutual

def ofItem : Cbor.Item → CborValue
  | .uint n => .int (Int64.ofNat n)
  | .bstr b => .bytes b
  | .tstr b => .text (ascii b)
  | .array xs => .array (ofItems xs)
  | _ => .null

def ofItems : List Cbor.Item → List CborValue
  | [] => []
  | x :: xs => ofItem x :: ofItems xs

end

def readValue (data : Bytes) : Option (CborValue × Nat) :=
  (readItem data).map fun r => (ofItem r.1, r.2)

def sampleKotlin : Kotlin := ⟨samplePrimitives, readValue, ascii⟩

def sampleSwift : Swift := ⟨samplePrimitives, readValue, fun b => some (ascii b)⟩

/-- A response of the auth endpoint that reports success. -/
def forgedEntry : Bytes :=
  be 2 3 ++ be 2 60 ++ [10] ++ utf8 ".prov/auth" ++ [0x82, 0x01, 0x00]

/-- The entry in a pouch without encryption. -/
def forgedPouch : Bytes :=
  Cbor.encode (.array [.uint 1, .array [.uint 0, .tstr (utf8 "d")]]) ++
    be 2 (forgedEntry.length + 1) ++ [0xc0] ++ forgedEntry

def sampleSession : SaeadSession := ⟨[1], [2], none, []⟩

lemma insecure_of_downgraded {f : Framing} {data : Bytes} (h : Downgraded f data)
    (ps : ProvSession f) : ¬ Secure f ps {data} := by
  rw [secure_iff]
  exact fun genuine => genuine data rfl h

/-- In an encrypted session each of the clients takes the forged response. -/
theorem forged_response_accepted :
    ¬ Secure (Client.python samplePython).framing ⟨sampleSession, .uint 0⟩ {forgedPouch} ∧
    ¬ Secure (Client.kotlin sampleKotlin).framing ⟨sampleSession, ""⟩ {forgedPouch} ∧
    ¬ Secure (Client.swift sampleSwift).framing ⟨sampleSession, ""⟩ {forgedPouch} := by
  refine ⟨?_, ?_, ?_⟩
  · exact insecure_of_downgraded ⟨_, _, _, _, rfl, rfl, rfl, rfl, by simp⟩ _
  · exact insecure_of_downgraded ⟨_, _, _, _, rfl, rfl, rfl, rfl, by simp⟩ _
  · exact insecure_of_downgraded ⟨_, _, _, _, rfl, rfl, rfl, rfl, by simp⟩ _

def intOf : Cbor.Item → Option Int
  | .uint n => some n
  | .nint n => some (-1 - n)
  | _ => none

def listOf : Cbor.Item → Option (List Cbor.Item)
  | .array xs => some xs
  | _ => none

def utf8Decode (b : Bytes) : Option String := String.fromUTF8? b.toByteArray

/-- Data items as objects, with a reader as deep as its input is long. What `int` takes besides
integers, and which objects are true, is left open. -/
def itemPython (prim : Primitives) (int : Cbor.Item → Option Int) (truthy : Cbor.Item → Bool) :
    Python where
  prim := prim
  Obj := Cbor.Item
  loads data := (Cbor.read (2 * data.length) data).map fun r => (r.1, data.length - r.2.length)
  dumps x := some (Cbor.encode x)
  ofInt i := if 0 ≤ i then .uint i.toNat else .nint (-1 - i).toNat
  ofBytes := .bstr
  ofText s := .tstr (utf8 s)
  ofBool := .bool
  ofList := .array
  ofDict kvs := .map (kvs.flatMap fun kv => [kv.1, kv.2])
  list := listOf
  equalsInt x i := intOf x = some i
  unpack := listOf
  len x := (listOf x).map List.length
  item x i := (listOf x).bind (·[i]?)
  bytes x := match x with
    | .bstr b => some b
    | _ => none
  int := int
  truthy := truthy
  hex x := (intOf x).bind fun i => if 0 ≤ i then some (hex02 i.toNat) else none
  pack x := (intOf x).bind fun i => if 0 ≤ i ∧ i < 2 ^ 16 then some (be 2 i.toNat) else none
  utf8 := utf8Decode

abbrev referencePython (prim : Primitives) : Python :=
  itemPython prim intOf fun x => x matches .tstr (_ :: _)

theorem utf8Decode_utf8 (s : String) : utf8Decode (utf8 s) = some s := by
  have hbytes : (utf8 s).toByteArray = s.toByteArray := String.utf8Encode_toList
  rw [utf8Decode, hbytes]
  exact dif_pos s.isValidUTF8

theorem utf8_of_utf8Decode {b : Bytes} {s : String} (h : utf8Decode b = some s) : utf8 s = b := by
  rw [utf8Decode, String.fromUTF8?] at h
  split at h
  · obtain rfl := Option.some.inj h
    exact List.toByteArray_inj.mp String.utf8Encode_toList
  · exact absurd h (by simp)

/-- The operations give back what the objects were made of. -/
structure Python.Lawful (py : Python) : Prop where
  list_ofList : ∀ xs, py.list (py.ofList xs) = some xs
  unpack_ofList : ∀ xs, py.unpack (py.ofList xs) = some xs
  len_ofList : ∀ xs, py.len (py.ofList xs) = some xs.length
  item_ofList : ∀ xs i, py.item (py.ofList xs) i = xs[i]?
  equalsInt_ofInt : ∀ i j, py.equalsInt (py.ofInt i) j = decide (i = j)
  bytes_ofBytes : ∀ b, py.bytes (py.ofBytes b) = some b
  pack_ofInt : ∀ i, py.pack (py.ofInt i) =
    if 0 ≤ i ∧ i < 2 ^ 16 then some (be 2 i.toNat) else none
  utf8_utf8 : ∀ s, py.utf8 (Bytes.utf8 s) = some s

lemma intOf_ofInt (prim : Primitives) (i : Int) :
    intOf ((referencePython prim).ofInt i) = some i := by
  simp only [referencePython, itemPython]
  split
  · rw [intOf, Int.toNat_of_nonneg (by assumption)]
  · rw [intOf]
    congr 1
    omega

theorem referencePython_lawful (prim : Primitives) : (referencePython prim).Lawful where
  list_ofList _ := rfl
  unpack_ofList _ := rfl
  len_ofList _ := rfl
  item_ofList _ _ := rfl
  equalsInt_ofInt i j := by
    have h := intOf_ofInt prim i
    simp only [referencePython, itemPython] at h ⊢
    simp only [h, Option.some.injEq]
  bytes_ofBytes _ := rfl
  pack_ofInt i := by
    have h := intOf_ofInt prim i
    simp only [referencePython, itemPython] at h ⊢
    simp only [h, Option.bind_some]
  utf8_utf8 := utf8Decode_utf8

/-- The reference reads a canonical encoding and says how long it was. -/
theorem referencePython_loads (prim : Primitives) {x : Cbor.Item} (ok : x.Ok)
    (short : (Cbor.encode x).length < 2 ^ 64) (rest : Bytes) :
    (referencePython prim).loads (Cbor.encode x ++ rest) = some (x, (Cbor.encode x).length) := by
  have hread := Cbor.read_encode x ok short rest (2 * (Cbor.encode x ++ rest).length)
    (by rw [List.length_append]; omega)
  simp only [referencePython, itemPython, hread, Option.map_some]
  rw [List.length_append, Nat.add_sub_cancel]

end Clients
