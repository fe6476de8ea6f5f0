import PouchProv.Base64
import PouchProv.PouchFrame
import Mathlib.Data.Set.Basic

/-!
# Encrypted sessions of the clients

The receiving side of `saead.py`, `Saead.kt` and `Saead.swift`, and the request
loop of the three `ProvSession`s. The clients run the same algorithm over
different header types and libraries: `Framing` collects what a client has of its
own, and the algorithm is written once over it.

Key agreement, key derivation and the AEAD are outside the repository;
`Primitives` are any functions. A session keeps a record of the blocks it opened,
newest first, that no function reads.
-/

namespace Saead

open Bytes PouchFrame

/-- `ENCRYPTION_NONE` and `ENCRYPTION_SAEAD`, the encryption types of a pouch header. -/
inductive Encryption where
  | none | saead
  deriving DecidableEq, Repr

/-- `ROLE_DEVICE` and `ROLE_SERVER` -/
inductive Role where
  | device | server
  deriving DecidableEq, Repr

inductive Algorithm where
  | chacha20Poly1305 | aesGcm
  deriving DecidableEq, Repr

def Role.code : Role → UInt8
  | .device => 0
  | .server => 1

structure Primitives where
  exchange : (ourPrivate peerPublic : Bytes) → Bytes
  hkdf : (ikm info : Bytes) → (length : Nat) → Bytes
  aeadOpen : Algorithm → (key nonce sealed aad : Bytes) → Option Bytes

/-- The standard alphabet, with padding. -/
def base64 (b : Bytes) : String := String.ofList (Base64.encode b)

/-- The format `%02X` of an unsigned number. -/
def hex02 (n : Nat) : String :=
  let digits := (Nat.toDigits 16 n).map Char.toUpper
  String.ofList (List.replicate (2 - digits.length) '0' ++ digits)

def authTagLen : Nat := 16

def keySize : Algorithm → Nat
  | .chacha20Poly1305 => 32
  | .aesGcm => 16

/-- The HKDF info of a session. `log` is the block size exponent as the client formats it. -/
def infoString (initiator : Role) (sessionId : Bytes) (algorithm : Algorithm) (log : String) :
    String :=
  "E0:" ++ (match initiator with | .device => "D" | .server => "S") ++ ":" ++ base64 sessionId ++
    ":C" ++ (match algorithm with | .chacha20Poly1305 => "C" | .aesGcm => "A") ++ "R:" ++ log

def deriveSessionKey (p : Primitives) (ourPrivate peerPublic sessionId : Bytes) (initiator : Role)
    (algorithm : Algorithm) (log : String) : Bytes :=
  p.hkdf (p.exchange ourPrivate peerPublic) (utf8 (infoString initiator sessionId algorithm log))
    (keySize algorithm)

/-- The key of an adopted session. -/
structure SessionState where
  key : Bytes
  algorithm : Algorithm
  deriving DecidableEq, Repr

/-- A block that the AEAD opened. -/
structure Opened where
  algorithm : Algorithm
  key : Bytes
  nonce : Bytes
  sealed : Bytes
  aad : Bytes
  plaintext : Bytes
  deriving DecidableEq, Repr

structure SaeadSession where
  serverPrivate : Bytes
  devicePublic : Bytes
  up : Option SessionState
  opened : List Opened
  deriving DecidableEq, Repr

/-- The session of an uplink header, as far as the key depends on it. Formatting the block
size exponent can fail. -/
structure Uplink where
  sessionId : Bytes
  fromDevice : Bool
  algorithm : Algorithm
  log : Except Failure String

def adoptUplink (p : Primitives) (info : Uplink) (s : SaeadSession) : Except Failure SaeadSession :=
  if ¬ info.fromDevice then .error (.saead "uplink header initiator is not the device")
  else
    match info.log with
    | .error e => .error e
    | .ok log =>
      .ok { s with up := some ⟨deriveSessionKey p s.serverPrivate s.devicePublic info.sessionId
        .device info.algorithm log, info.algorithm⟩ }

/-- What a client has of its own: its header type and decoder, its test for a pouch that is
more than a header, how it reads the session of a header, cuts off a sealed block, builds a
nonce, opens a block, takes its tag and decodes a path. -/
structure Framing where
  Header : Type
  DeviceId : Type
  prim : Primitives
  decode : Bytes → Except Failure (Header × Nat)
  encryption : Header → Encryption
  deviceId : Header → DeviceId → DeviceId
  carriesBlocks : Header → Nat → Bytes → Except Failure Bool
  uplink : Header → Except Failure Uplink
  nextSealed : Bytes → Except Failure (Bytes × Bytes)
  nonce : Header → Nat → Except Failure Bytes
  openSealed : Algorithm → (key nonce sealed aad : Bytes) → Except Failure Bytes
  tag : Bytes → Except Failure Bytes
  path : Bytes → Except Failure String

section Receive

variable (f : Framing)

def decryptUplinkBlock (h : f.Header) (sealed : Bytes) (blockIndex : Nat) (prevTag : Bytes)
    (s : SaeadSession) : Except Failure (Bytes × Bytes) × SaeadSession :=
  match s.up with
  | none => (.error (.saead "no uplink session"), s)
  | some up =>
    match f.nonce h blockIndex with
    | .error e => (.error e, s)
    | .ok nonce =>
      let aad := if blockIndex > 0 then prevTag else []
      match f.openSealed up.algorithm up.key nonce sealed aad with
      | .error e => (.error e, s)
      | .ok plaintext =>
        let s := { s with
          opened := ⟨up.algorithm, up.key, nonce, sealed, aad, plaintext⟩ :: s.opened }
        match f.tag sealed with
        | .error e => (.error e, s)
        | .ok tag => (.ok (plaintext, tag), s)

/-- The entry bytes of an opened block: what follows the id byte of an entry block. -/
def openedPayload : Bytes → Option Bytes
  | [] => none
  | idByte :: rest => if streamIdOf idByte = blockIdEntry then some rest else none

/-- The loop over the sealed blocks, with the payloads of the entry blocks as its result. A
block takes at least its size field, so the length of the data is enough fuel. -/
def openBlocks (h : f.Header) : Nat → (blockIndex : Nat) → (prevTag data : Bytes) →
    SaeadSession → Except Failure (List Bytes) × SaeadSession
  | _, _, _, [], s => (.ok [], s)
  | 0, _, _, _ :: _, s => (.error .other, s)
  | n + 1, blockIndex, prevTag, b :: bs, s =>
    match f.nextSealed (b :: bs) with
    | .error e => (.error e, s)
    | .ok (sealed, rest) =>
      match decryptUplinkBlock f h sealed blockIndex prevTag s with
      | (.error e, s) => (.error e, s)
      | (.ok (plaintext, tag), s) =>
        match openBlocks h n (blockIndex + 1) tag rest s with
        | (.error e, s) => (.error e, s)
        | (.ok payloads, s) => (.ok ((openedPayload plaintext).toList ++ payloads), s)

def parseUplinkPouch (data : Bytes) (s : SaeadSession) :
    Except Failure (List Entry) × SaeadSession :=
  match f.decode data with
  | .error e => (.error e, s)
  | .ok (h, consumed) =>
    if f.encryption h ≠ .saead then (.error (.decode "uplink pouch is not saead"), s)
    else
      match f.uplink h with
      | .error e => (.error e, s)
      | .ok info =>
        match adoptUplink f.prim info s with
        | .error e => (.error e, s)
        | .ok s =>
          let blocks := data.drop consumed
          match openBlocks f h blocks.length 0 [] blocks s with
          | (.error e, s) => (.error e, s)
          | (.ok payloads, s) => (parseEntryBlocks f.path payloads, s)

/-- Parse a plaintext pouch. The message is that of the Python client. -/
def parsePouch (data : Bytes) : Except Failure (f.Header × List Entry) :=
  match f.decode data with
  | .error e => .error e
  | .ok (h, consumed) =>
    match splitBlocks (data.drop consumed) with
    | .error e => .error e
    | .ok blocks =>
      if f.encryption h ≠ .none then .error (.decode "encrypted pouch passed to parse_pouch")
      else (parseEntryBlocks f.path (entryPayloads blocks)).map (h, ·)

/-- `_receive_pouch` of a session with encryption, and `SaeadCrypto.parseResponse`: the header
of the pouch decides which of the two parsers it is given to. -/
def parseResponse (data : Bytes) (s : SaeadSession) :
    Except Failure (f.Header × List Entry) × SaeadSession :=
  match f.decode data with
  | .error e => (.error e, s)
  | .ok (h, consumed) =>
    if f.encryption h = .saead then
      match f.carriesBlocks h consumed data with
      | .error e => (.error e, s)
      | .ok true =>
        match parseUplinkPouch f data s with
        | (.error e, s) => (.error e, s)
        | (.ok entries, s) => (.ok (h, entries), s)
      | .ok false => (.ok (h, []), s)
    else (parsePouch f data, s)

structure ProvSession where
  saead : SaeadSession
  deviceId : f.DeviceId

/-- The polling loop. `received` is what the transport delivers at each attempt. -/
def poll (received : Nat → Except Failure Bytes) : (attempts i : Nat) → ProvSession f →
    Except Failure (List Entry) × ProvSession f
  | 0, _, ps => (.error (.session "no response after retries"), ps)
  | n + 1, i, ps =>
    match received i with
    | .error e => (.error e, ps)
    | .ok data =>
      match parseResponse f data ps.saead with
      | (.error e, s) => (.error e, { ps with saead := s })
      | (.ok (h, rsp), s) =>
        let ps := { saead := s, deviceId := f.deviceId h ps.deviceId }
        if rsp ≠ [] then (.ok rsp, ps) else poll received n (i + 1) ps

/-- One request: the pouch is sent, then the response is polled for. -/
def requestEntries (sent : Except Failure Unit) (received : Nat → Except Failure Bytes)
    (pollAttempts : Nat) (ps : ProvSession f) : Except Failure (List Entry) × ProvSession f :=
  match sent with
  | .error e => (.error e, ps)
  | .ok () => poll f received pollAttempts 0 ps

end Receive

section Origin

variable {f : Framing}

/-- The block was opened by the AEAD, under the key of a device-initiated session between the
keys of `s`. -/
structure UplinkOpen (f : Framing) (s : SaeadSession) (o : Opened) : Prop where
  opens : f.openSealed o.algorithm o.key o.nonce o.sealed o.aad = .ok o.plaintext
  key : ∃ sessionId log, o.key = deriveSessionKey f.prim s.serverPrivate s.devicePublic sessionId
    .device o.algorithm log

/-- The payloads of the entry blocks among some opened blocks, in the order of opening. -/
def openedPayloads (opens : List Opened) : List Bytes :=
  opens.reverse.filterMap fun o => openedPayload o.plaintext

/-- The entries are those of the blocks that were opened last, all of them after `s` and under
its uplink keys. -/
def Authenticated (f : Framing) (s s' : SaeadSession) (entries : List Entry) : Prop :=
  ∃ opens earlier, s'.opened = opens ++ earlier ∧ s.opened <:+ earlier ∧
    (∀ o ∈ opens, UplinkOpen f s o) ∧
    parseEntryBlocks f.path (openedPayloads opens) = .ok entries

/-- What a step of the session keeps: the key pair, and the record of opened blocks. -/
structure Extends (s s' : SaeadSession) : Prop where
  serverPrivate : s'.serverPrivate = s.serverPrivate
  devicePublic : s'.devicePublic = s.devicePublic
  opened : s.opened <:+ s'.opened

lemma Extends.refl (s : SaeadSession) : Extends s s := ⟨rfl, rfl, List.suffix_refl _⟩

lemma Extends.trans {s s' s'' : SaeadSession} (h : Extends s s') (h' : Extends s' s'') :
    Extends s s'' :=
  ⟨h'.serverPrivate.trans h.serverPrivate, h'.devicePublic.trans h.devicePublic,
    h.opened.trans h'.opened⟩

/-- Whether a function returns or raises, the session keeps its key pair and its record. -/
lemma decryptUplinkBlock_extends (h : f.Header) (sealed : Bytes) (blockIndex : Nat)
    (prevTag : Bytes) (s : SaeadSession) :
    Extends s (decryptUplinkBlock f h sealed blockIndex prevTag s).2 := by
  simp only [decryptUplinkBlock]
  generalize (if blockIndex > 0 then prevTag else []) = aad
  split
  · exact .refl s
  · split
    · exact .refl s
    · split
      · exact .refl s
      · split
        · exact ⟨rfl, rfl, List.suffix_cons _ _⟩
        · exact ⟨rfl, rfl, List.suffix_cons _ _⟩

lemma openBlocks_extends (h : f.Header) (n : Nat) (blockIndex : Nat) (prevTag data : Bytes)
    (s : SaeadSession) : Extends s (openBlocks f h n blockIndex prevTag data s).2 := by
  induction n generalizing blockIndex prevTag data s with
  | zero => cases data <;> exact .refl s
  | succ n ih =>
    cases data with
    | nil => exact .refl s
    | cons b bs =>
      rw [openBlocks]
      split
      · exact .refl s
      · rename_i sealed rest _
        have hblock := decryptUplinkBlock_extends h sealed blockIndex prevTag s
        split
        · rename_i e s' hrun
          rw [hrun] at hblock
          exact hblock
        · rename_i plaintext tag s' hrun
          rw [hrun] at hblock
          have hrest := ih (blockIndex + 1) tag rest s'
          split
          · rename_i e s'' hloop
            rw [hloop] at hrest
            exact hblock.trans hrest
          · rename_i payloads s'' hloop
            rw [hloop] at hrest
            exact hblock.trans hrest

lemma adoptUplink_extends {info : Uplink} {s s' : SaeadSession}
    (run : adoptUplink f.prim info s = .ok s') : Extends s s' := by
  rw [adoptUplink] at run
  split at run
  · cases run
  · split at run
    · cases run
    · cases run
      exact ⟨rfl, rfl, List.suffix_refl _⟩

lemma parseUplinkPouch_extends (data : Bytes) (s : SaeadSession) :
    Extends s (parseUplinkPouch f data s).2 := by
  rw [parseUplinkPouch]
  split
  · exact .refl s
  · rename_i h consumed _
    split
    · exact .refl s
    · split
      · exact .refl s
      · split
        · exact .refl s
        · rename_i adopted hadopt
          have hrest := openBlocks_extends h (data.drop consumed).length 0 [] (data.drop consumed)
            adopted
          have hall := (adoptUplink_extends hadopt).trans hrest
          simp only
          split
          · rename_i e s' hloop
            rw [hloop] at hall
            exact hall
          · rename_i payloads s' hloop
            rw [hloop] at hall
            exact hall

lemma parseResponse_extends (data : Bytes) (s : SaeadSession) :
    Extends s (parseResponse f data s).2 := by
  rw [parseResponse]
  split
  · exact .refl s
  · split
    · split
      · exact .refl s
      · have hparse := parseUplinkPouch_extends (f := f) data s
        split
        · rename_i e s' hrun
          rw [hrun] at hparse
          exact hparse
        · rename_i entries s' hrun
          rw [hrun] at hparse
          exact hparse
      · exact .refl s
    · exact .refl s

lemma poll_extends (received : Nat → Except Failure Bytes) (n i : Nat) (ps : ProvSession f) :
    Extends ps.saead (poll f received n i ps).2.saead := by
  induction n generalizing i ps with
  | zero => exact .refl _
  | succ n ih =>
    rw [poll]
    split
    · exact .refl _
    · rename_i data _
      have hparse := parseResponse_extends (f := f) data ps.saead
      split
      · rename_i e s hrun
        rw [hrun] at hparse
        exact hparse
      · rename_i h rsp s hrun
        rw [hrun] at hparse
        simp only
        split
        · exact hparse
        · exact hparse.trans (ih (i + 1) ⟨s, f.deviceId h ps.deviceId⟩)

lemma UplinkOpen.of_extends {s s' : SaeadSession} (h : Extends s s') {o : Opened}
    (ho : UplinkOpen f s' o) : UplinkOpen f s o := by
  obtain ⟨sessionId, log, hkey⟩ := ho.key
  rw [h.serverPrivate, h.devicePublic] at hkey
  exact ⟨ho.opens, sessionId, log, hkey⟩

/-- Entries that are authenticated for a later state are so for an earlier one. -/
lemma Authenticated.of_extends {s s' s'' : SaeadSession} (h : Extends s s')
    {entries : List Entry} (ha : Authenticated f s' s'' entries) :
    Authenticated f s s'' entries := by
  obtain ⟨opens, earlier, hlog, hafter, hopens, hentries⟩ := ha
  exact ⟨opens, earlier, hlog, h.opened.trans hafter, fun o ho => (hopens o ho).of_extends h,
    hentries⟩

/-- The blocks that were opened for one pouch, in order: each under the key, with the nonce of
its place and the tag of the block before it. -/
inductive Chain (f : Framing) (h : f.Header) (up : SessionState) :
    (blockIndex : Nat) → (prevTag : Bytes) → List Opened → Prop where
  | nil {blockIndex : Nat} {prevTag : Bytes} : Chain f h up blockIndex prevTag []
  | cons {blockIndex : Nat} {prevTag tag : Bytes} {o : Opened} {os : List Opened}
      (key : o.key = up.key) (algorithm : o.algorithm = up.algorithm)
      (nonce : f.nonce h blockIndex = .ok o.nonce)
      (aad : o.aad = if blockIndex > 0 then prevTag else [])
      (opens : f.openSealed o.algorithm o.key o.nonce o.sealed o.aad = .ok o.plaintext)
      (tagged : f.tag o.sealed = .ok tag) (rest : Chain f h up (blockIndex + 1) tag os) :
      Chain f h up blockIndex prevTag (o :: os)

lemma Chain.opens_of_mem {h : f.Header} {up : SessionState} {blockIndex : Nat} {prevTag : Bytes}
    {os : List Opened} (hc : Chain f h up blockIndex prevTag os) {o : Opened} (ho : o ∈ os) :
    o.key = up.key ∧ o.algorithm = up.algorithm ∧
      f.openSealed o.algorithm o.key o.nonce o.sealed o.aad = .ok o.plaintext := by
  induction hc with
  | nil => exact absurd ho List.not_mem_nil
  | cons key algorithm nonce aad opens tagged rest ih =>
    rcases List.mem_cons.mp ho with rfl | ho
    · exact ⟨key, algorithm, opens⟩
    · exact ih ho

/-- The sealed blocks that stand in the bytes behind a header. -/
def sealedBlocks (f : Framing) : Nat → Bytes → Except Failure (List Bytes)
  | _, [] => .ok []
  | 0, _ :: _ => .error .other
  | n + 1, b :: bs =>
    match f.nextSealed (b :: bs) with
    | .error e => .error e
    | .ok (sealed, rest) => (sealedBlocks f n rest).map (sealed :: ·)

/-- The bytes are the header of an encrypted pouch of the device, with the key that it gives for
the session, followed by the sealed blocks. -/
structure Framed (f : Framing) (s : SaeadSession) (data : Bytes) (h : f.Header) (up : SessionState)
    (blocks : List Bytes) : Prop where
  encryption : f.encryption h = .saead
  session : ∃ info log, f.uplink h = .ok info ∧ info.log = .ok log ∧
    up = ⟨deriveSessionKey f.prim s.serverPrivate s.devicePublic info.sessionId .device
      info.algorithm log, info.algorithm⟩
  split : ∃ consumed, f.decode data = .ok (h, consumed) ∧
    sealedBlocks f (data.drop consumed).length (data.drop consumed) = .ok blocks

lemma decryptUplinkBlock_chain {h : f.Header} {sealed prevTag plaintext tag : Bytes}
    {blockIndex : Nat} {s s' : SaeadSession} {up : SessionState} (hup : s.up = some up)
    (hrun : decryptUplinkBlock f h sealed blockIndex prevTag s = (.ok (plaintext, tag), s')) :
    ∃ o, s' = { s with opened := o :: s.opened } ∧ o.plaintext = plaintext ∧ o.sealed = sealed ∧
      ∀ os, Chain f h up (blockIndex + 1) tag os → Chain f h up blockIndex prevTag (o :: os) := by
  simp only [decryptUplinkBlock, hup] at hrun
  split at hrun
  · simp at hrun
  · rename_i nonce hnonce
    split at hrun
    · simp at hrun
    · rename_i opened hopen
      split at hrun
      · simp at hrun
      · rename_i tag' htag
        obtain ⟨hresult, rfl⟩ := Prod.mk.inj hrun
        obtain ⟨rfl, rfl⟩ := Prod.mk.inj (Except.ok.inj hresult)
        let aad := if blockIndex > 0 then prevTag else []
        refine ⟨⟨up.algorithm, up.key, nonce, sealed, aad, opened⟩, by rw [hup], rfl, rfl, ?_⟩
        exact fun os hos => .cons rfl rfl hnonce rfl hopen htag hos

lemma openedPayloads_reverse (os : List Opened) :
    openedPayloads os.reverse = os.filterMap fun o => openedPayload o.plaintext := by
  rw [openedPayloads, List.reverse_reverse]

/-- The loop opens the blocks that stand in the bytes, and returns their entry payloads. -/
lemma openBlocks_chain {h : f.Header} {n blockIndex : Nat} {prevTag data : Bytes}
    {s s' : SaeadSession} {up : SessionState} {payloads : List Bytes} (hup : s.up = some up)
    (hrun : openBlocks f h n blockIndex prevTag data s = (.ok payloads, s')) :
    ∃ os, s' = { s with opened := os.reverse ++ s.opened } ∧
      payloads = openedPayloads os.reverse ∧ Chain f h up blockIndex prevTag os ∧
      sealedBlocks f n data = .ok (os.map Opened.sealed) := by
  induction n generalizing blockIndex prevTag data s payloads with
  | zero =>
    cases data with
    | nil =>
      obtain ⟨hp, rfl⟩ := Prod.mk.inj hrun
      obtain rfl := Except.ok.inj hp
      exact ⟨[], rfl, rfl, .nil, rfl⟩
    | cons b bs => simp [openBlocks] at hrun
  | succ n ih =>
    cases data with
    | nil =>
      obtain ⟨hp, rfl⟩ := Prod.mk.inj hrun
      obtain rfl := Except.ok.inj hp
      exact ⟨[], rfl, rfl, .nil, rfl⟩
    | cons b bs =>
      simp only [openBlocks] at hrun
      split at hrun
      · simp at hrun
      · rename_i sealed rest hnext
        split at hrun
        · simp at hrun
        · rename_i hblock
          obtain ⟨o, rfl, rfl, rfl, hchain⟩ := decryptUplinkBlock_chain hup hblock
          split at hrun
          · simp at hrun
          · rename_i hloop
            obtain ⟨hp, rfl⟩ := Prod.mk.inj hrun
            obtain rfl := Except.ok.inj hp
            obtain ⟨os, hs, rfl, hos, hcut⟩ :=
              ih (s := { s with opened := o :: s.opened }) hup hloop
            refine ⟨o :: os, by simp [hs], ?_, hchain os hos, ?_⟩
            · rw [openedPayloads_reverse, openedPayloads_reverse, List.filterMap_cons]
              cases openedPayload o.plaintext <;> rfl
            · rw [sealedBlocks, hnext]
              simp only [hcut]
              rfl

/-- An encrypted pouch that is parsed was opened block by block, under the key that its header
gives. -/
lemma parseUplinkPouch_chain {data : Bytes} {s s' : SaeadSession} {entries : List Entry}
    (hrun : parseUplinkPouch f data s = (.ok entries, s')) :
    ∃ h up os, s' = { s with up := some up, opened := os.reverse ++ s.opened } ∧
      Framed f s data h up (os.map Opened.sealed) ∧
      Chain f h up 0 [] os ∧ parseEntryBlocks f.path (openedPayloads os.reverse) = .ok entries := by
  simp only [parseUplinkPouch] at hrun
  split at hrun
  · simp at hrun
  · rename_i h consumed hdecode
    split at hrun
    · simp at hrun
    · rename_i hsaead
      split at hrun
      · simp at hrun
      · rename_i info hinfo
        split at hrun
        · simp at hrun
        · rename_i adopted hadopt
          split at hrun
          · simp at hrun
          · rename_i payloads s'' hloop
            obtain ⟨hentries, rfl⟩ := Prod.mk.inj hrun
            simp only [adoptUplink] at hadopt
            split at hadopt
            · simp at hadopt
            · split at hadopt
              · simp at hadopt
              · rename_i log hlog
                obtain rfl := Except.ok.inj hadopt
                obtain ⟨os, rfl, rfl, hos, hcut⟩ := openBlocks_chain rfl hloop
                exact ⟨h, _, os, rfl, ⟨not_not.mp hsaead, ⟨info, log, hinfo, hlog, rfl⟩, consumed,
                  hdecode, hcut⟩, hos, hentries⟩

lemma Framed.key {s : SaeadSession} {data : Bytes} {h : f.Header} {up : SessionState}
    {blocks : List Bytes} (framed : Framed f s data h up blocks) :
    ∃ sessionId log, up.key = deriveSessionKey f.prim s.serverPrivate s.devicePublic sessionId
      .device up.algorithm log := by
  obtain ⟨info, log, -, -, rfl⟩ := framed.session
  exact ⟨info.sessionId, log, rfl⟩

/-- The entries of an encrypted pouch are authenticated. -/
lemma parseUplinkPouch_authenticated {data : Bytes} {s s' : SaeadSession} {entries : List Entry}
    (hrun : parseUplinkPouch f data s = (.ok entries, s')) :
    Extends s s' ∧ Authenticated f s s' entries := by
  obtain ⟨h, up, os, rfl, hframed, hchain, hentries⟩ := parseUplinkPouch_chain hrun
  obtain ⟨sessionId, log, hup⟩ := hframed.key
  refine ⟨⟨rfl, rfl, List.suffix_append _ _⟩, os.reverse, s.opened, rfl, List.suffix_refl _,
    fun o ho => ?_, hentries⟩
  obtain ⟨hkey, halg, hopen⟩ := hchain.opens_of_mem (List.mem_reverse.mp ho)
  exact ⟨hopen, sessionId, log, by rw [hkey, halg, hup]⟩

/-- What a block opens to depends on the key in use, not on what was opened before. -/
lemma decryptUplinkBlock_result {s s' : SaeadSession} (hup : s.up = s'.up) (h : f.Header)
    (sealed : Bytes) (blockIndex : Nat) (prevTag : Bytes) :
    (decryptUplinkBlock f h sealed blockIndex prevTag s).1 =
        (decryptUplinkBlock f h sealed blockIndex prevTag s').1 ∧
      (decryptUplinkBlock f h sealed blockIndex prevTag s).2.up = s.up := by
  simp only [decryptUplinkBlock, ← hup]
  cases hcase : s.up with
  | none => exact ⟨rfl, hcase⟩
  | some up =>
    simp only []
    split
    · exact ⟨rfl, hcase⟩
    · split
      · exact ⟨rfl, hcase⟩
      · split <;> exact ⟨rfl, rfl⟩

lemma openBlocks_result {s s' : SaeadSession} (hup : s.up = s'.up) (h : f.Header)
    (n blockIndex : Nat) (prevTag data : Bytes) :
    (openBlocks f h n blockIndex prevTag data s).1 =
      (openBlocks f h n blockIndex prevTag data s').1 := by
  induction n generalizing blockIndex prevTag data s s' with
  | zero => cases data <;> rfl
  | succ n ih =>
    cases data with
    | nil => rfl
    | cons b bs =>
      simp only [openBlocks]
      cases hnext : f.nextSealed (b :: bs) with
      | error e => rfl
      | ok cut =>
        obtain ⟨hresult, hkept⟩ := decryptUplinkBlock_result hup h cut.1 blockIndex prevTag
        obtain ⟨-, hkept'⟩ := decryptUplinkBlock_result hup.symm h cut.1 blockIndex prevTag
        rcases hrun : decryptUplinkBlock f h cut.1 blockIndex prevTag s with ⟨result, s₁⟩
        rcases hrun' : decryptUplinkBlock f h cut.1 blockIndex prevTag s' with ⟨result', s₁'⟩
        rw [hrun, hrun'] at hresult
        rw [hrun] at hkept
        rw [hrun'] at hkept'
        obtain rfl : result = result' := hresult
        have hboth : s₁.up = s₁'.up := hkept.trans (hup.trans hkept'.symm)
        cases result with
        | error e => simp only [hrun, hrun']
        | ok block =>
          have hrest := ih hboth (blockIndex + 1) block.2 cut.2
          simp only [hrun, hrun']
          rcases hloop : openBlocks f h n (blockIndex + 1) block.2 cut.2 s₁ with ⟨payloads, s₂⟩
          rcases hloop' : openBlocks f h n (blockIndex + 1) block.2 cut.2 s₁' with ⟨payloads', s₂'⟩
          rw [hloop, hloop'] at hrest
          obtain rfl : payloads = payloads' := hrest
          cases payloads <;> rfl

/-- The sessions are between the same keys. -/
structure SameKeys (s s' : SaeadSession) : Prop where
  serverPrivate : s.serverPrivate = s'.serverPrivate
  devicePublic : s.devicePublic = s'.devicePublic

lemma parseUplinkPouch_result {s s' : SaeadSession} (same : SameKeys s s') (data : Bytes) :
    (parseUplinkPouch f data s).1 = (parseUplinkPouch f data s').1 := by
  simp only [parseUplinkPouch]
  cases f.decode data with
  | error e => rfl
  | ok header =>
    dsimp only
    split
    · rfl
    · cases f.uplink header.1 with
      | error e => rfl
      | ok info =>
        simp only [adoptUplink]
        by_cases hdevice : info.fromDevice
        · cases info.log with
          | error e => simp [hdevice]
          | ok log =>
            simp only [hdevice, not_true_eq_false, if_false]
            let opened (s : SaeadSession) : SaeadSession :=
              { s with up := some ⟨deriveSessionKey f.prim s.serverPrivate s.devicePublic
                info.sessionId .device info.algorithm log, info.algorithm⟩ }
            have hup : (opened s).up = (opened s').up := by
              simp only [opened, same.serverPrivate, same.devicePublic]
            have hloop := openBlocks_result (f := f) hup header.1
              (data.drop header.2).length 0 [] (data.drop header.2)
            revert hloop
            rcases openBlocks f header.1 _ 0 [] _ _ with ⟨payloads, s₁⟩
            rcases openBlocks f header.1 _ 0 [] _ _ with ⟨payloads', s₁'⟩
            rintro (rfl : payloads = payloads')
            cases payloads <;> rfl
        · simp [hdevice]

lemma parseResponse_result {s s' : SaeadSession} (same : SameKeys s s') (data : Bytes) :
    (parseResponse f data s).1 = (parseResponse f data s').1 := by
  simp only [parseResponse]
  cases f.decode data with
  | error e => rfl
  | ok header =>
    dsimp only
    split
    · cases f.carriesBlocks header.1 header.2 data with
      | error e => rfl
      | ok carries =>
        cases carries with
        | false => rfl
        | true =>
          have hparse := parseUplinkPouch_result (f := f) same data
          revert hparse
          rcases parseUplinkPouch f data s with ⟨result, s₁⟩
          rcases parseUplinkPouch f data s' with ⟨result', s₁'⟩
          rintro (rfl : result = result')
          cases result <;> rfl
    · rfl

/-- A pouch without encryption that carries entries. -/
def Downgraded (f : Framing) (data : Bytes) : Prop :=
  ∃ h consumed blocks entries, f.decode data = .ok (h, consumed) ∧ f.encryption h = .none ∧
    splitBlocks (data.drop consumed) = .ok blocks ∧
    parseEntryBlocks f.path (entryPayloads blocks) = .ok entries ∧ entries ≠ []

lemma authenticated_nil (f : Framing) (s : SaeadSession) : Authenticated f s s [] :=
  ⟨[], s.opened, rfl, List.suffix_refl _, by simp, rfl⟩

/-- What a parsed response is: authenticated, or plaintext that is empty or a downgrade. -/
lemma parseResponse_cases {data : Bytes} {s s' : SaeadSession} {h : f.Header}
    {entries : List Entry} (hrun : parseResponse f data s = (.ok (h, entries), s')) :
    f.encryption h = .saead ∧ Extends s s' ∧ Authenticated f s s' entries ∨
    f.encryption h = .none ∧ s' = s ∧ (entries ≠ [] → Downgraded f data) := by
  simp only [parseResponse] at hrun
  split at hrun
  · simp at hrun
  · rename_i hdr consumed hdecode
    split at hrun
    · rename_i hsaead
      left
      split at hrun
      · simp at hrun
      · split at hrun
        · simp at hrun
        · rename_i hparse
          obtain ⟨hresult, rfl⟩ := Prod.mk.inj hrun
          obtain ⟨rfl, rfl⟩ := Prod.mk.inj (Except.ok.inj hresult)
          exact ⟨hsaead, parseUplinkPouch_authenticated hparse⟩
      · obtain ⟨hresult, rfl⟩ := Prod.mk.inj hrun
        obtain ⟨rfl, rfl⟩ := Prod.mk.inj (Except.ok.inj hresult)
        exact ⟨hsaead, .refl s, authenticated_nil f s⟩
    · right
      obtain ⟨hpouch, rfl⟩ := Prod.mk.inj hrun
      simp only [parsePouch, hdecode] at hpouch
      split at hpouch
      · simp at hpouch
      · rename_i blocks hblocks
        split at hpouch
        · simp at hpouch
        · rename_i hplain
          cases hentries : parseEntryBlocks f.path (entryPayloads blocks) with
          | error e => simp [hentries, Except.map] at hpouch
          | ok es =>
            rw [hentries] at hpouch
            obtain ⟨rfl, rfl⟩ := Prod.mk.inj (Except.ok.inj hpouch)
            have hnone : f.encryption hdr = .none := not_not.mp hplain
            exact ⟨hnone, rfl, fun hne => ⟨hdr, consumed, blocks, es, hdecode, hnone, hblocks,
              hentries, hne⟩⟩

/-- A downgrade is parsed into entries, and nothing is opened for them. -/
lemma parseResponse_downgraded {data : Bytes} (h : Downgraded f data) (s : SaeadSession) :
    ∃ hdr entries, parseResponse f data s = (.ok (hdr, entries), s) ∧
      f.encryption hdr = .none ∧ entries ≠ [] := by
  obtain ⟨hdr, consumed, blocks, entries, hdecode, hnone, hblocks, hentries, hne⟩ := h
  refine ⟨hdr, entries, ?_, hnone, hne⟩
  simp [parseResponse, parsePouch, hdecode, hnone, hblocks, hentries, Except.map]

lemma poll_authenticated {received : Nat → Except Failure Bytes}
    (genuine : ∀ i data, received i = .ok data → ¬ Downgraded f data) {n i : Nat}
    {ps ps' : ProvSession f} {entries : List Entry}
    (hrun : poll f received n i ps = (.ok entries, ps')) :
    Authenticated f ps.saead ps'.saead entries := by
  induction n generalizing i ps with
  | zero => simp [poll] at hrun
  | succ n ih =>
    simp only [poll] at hrun
    split at hrun
    · simp at hrun
    · rename_i data hdata
      split at hrun
      · simp at hrun
      · rename_i h rsp s hparse
        split at hrun
        · rename_i hne
          obtain ⟨hresult, rfl⟩ := Prod.mk.inj hrun
          obtain rfl := Except.ok.inj hresult
          rcases parseResponse_cases hparse with ⟨-, -, hauth⟩ | ⟨-, -, hdown⟩
          · exact hauth
          · exact absurd (hdown hne) (genuine i data hdata)
        · have hlater := ih hrun
          rcases parseResponse_cases hparse with ⟨-, hext, -⟩ | ⟨-, rfl, -⟩
          · exact hlater.of_extends hext
          · exact hlater

/-- Nothing unauthenticated is accepted, whatever the transport delivers from the given set:
the entries that a request or a parsed response returns are authenticated, and a pouch without
encryption gives none. -/
structure Secure (f : Framing) (ps : ProvSession f) (delivered : Set Bytes) : Prop where
  request : ∀ sent received pollAttempts entries ps',
    (∀ i data, received i = .ok data → data ∈ delivered) →
    requestEntries f sent received pollAttempts ps = (.ok entries, ps') →
    Authenticated f ps.saead ps'.saead entries
  response : ∀ data ∈ delivered, ∀ h entries s',
    parseResponse f data ps.saead = (.ok (h, entries), s') →
    Authenticated f ps.saead s' entries ∧ (f.encryption h = .none → entries = [])

theorem secure_iff (f : Framing) (ps : ProvSession f) (delivered : Set Bytes) :
    Secure f ps delivered ↔ ∀ data ∈ delivered, ¬ Downgraded f data := by
  constructor
  · intro h data hdata hdown
    obtain ⟨hdr, entries, hparse, hnone, hne⟩ := parseResponse_downgraded hdown ps.saead
    exact hne ((h.response data hdata hdr entries ps.saead hparse).2 hnone)
  · intro genuine
    constructor
    · intro sent received pollAttempts entries ps' hmem hrun
      cases sent with
      | error e => simp [requestEntries] at hrun
      | ok u =>
        exact poll_authenticated (fun i data hi => genuine data (hmem i data hi)) hrun
    · intro data hdata hdr entries s' hparse
      rcases parseResponse_cases hparse with ⟨hsaead, -, hauth⟩ | ⟨-, rfl, hdown⟩
      · exact ⟨hauth, fun hnone => absurd (hsaead.symm.trans hnone) (by decide)⟩
      · have hempty : entries = [] := by
          by_contra hne
          exact genuine data hdata (hdown hne)
        exact ⟨hempty ▸ authenticated_nil f ps.saead, fun _ => hempty⟩

end Origin

end Saead
