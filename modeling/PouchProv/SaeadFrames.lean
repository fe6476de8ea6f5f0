import PouchProv.PouchBuild

/-!
# Encrypted pouches

The sending side of `saead.py`, and `DeviceSaead` of `mock.py`, the device at the
other end. A pouch is sealed as a chain: each block has the nonce of its place, and
the tag of the block before it as associated data.

The AEAD is a pair of functions of which the second inverts the first; either may
raise. Both ends derive their keys from what ECDH gives them.
-/

namespace SaeadFrames

open Bytes Readers PouchFrame Saead Clients PouchBuild

/-- `encrypt` of the AEAD: key, nonce, plaintext and associated data. -/
abbrev AeadSeal := Algorithm → (key nonce plaintext aad : Bytes) → Option Bytes

def Inverts (prim : Primitives) (aeadSeal : AeadSeal) : Prop :=
  ∀ algorithm key nonce plaintext aad sealed,
    aeadSeal algorithm key nonce plaintext aad = some sealed →
    prim.aeadOpen algorithm key nonce sealed aad = some plaintext

/-- `ALG_CHACHA20_POLY1305` and `ALG_AES_GCM` -/
def algorithmCode : Algorithm → Int
  | .chacha20Poly1305 => 1
  | .aesGcm => 2

def sessionIdLen : Nat := 16

def certRefLen : Nat := 6

/-- What a session keeps for its downlink; `up` and the record of `SaeadSession` are not
touched by it. -/
structure Sender where
  serverPrivate : Bytes
  devicePublic : Bytes
  serverCertRef : Bytes
  algorithm : Algorithm
  blockLog : Int

/-- `server_cert_ref[:CERT_REF_LEN].ljust(CERT_REF_LEN, b"\x00")` -/
def Sender.certRef (s : Sender) : Bytes :=
  let ref := s.serverCertRef.take certRefLen
  ref ++ List.replicate (certRefLen - ref.length) 0

/-- `DeviceSaead` -/
structure Device where
  priv : Bytes
  serverPub : Bytes
  algorithm : Algorithm
  blockLog : Int

section Frames

variable (py : Clients.Python) (aeadSeal : AeadSeal)

/-- The header of an encrypted pouch. -/
def saeadHeader (info : py.SessionInfo) (pouchId : Int) : py.PouchHeader :=
  ⟨.saead, none, some info, py.ofInt pouchId⟩

/-- The sealed blocks of a pouch. A block that is too long for its size field raises when it is
written. -/
def sealBlocks (state : SessionState) (pouchId : Int) (role : Role) :
    (blockIndex : Nat) → (prevTag : Bytes) → List Bytes → Option (List Bytes)
  | _, _, [] => some []
  | blockIndex, prevTag, plaintext :: plaintexts =>
    match py.nonce (py.ofInt pouchId) blockIndex role with
    | .error _ => none
    | .ok nonce =>
      let aad := if blockIndex > 0 then prevTag else []
      match aeadSeal state.algorithm state.key nonce plaintext aad with
      | none => none
      | some sealed =>
        if sealed.length < 2 ^ 16 then
          (sealBlocks state pouchId role (blockIndex + 1) (lastTag sealed) plaintexts).map
            (sealed :: ·)
        else none

/-- A sealed block behind its size. -/
def sized (sealed : Bytes) : Bytes := be 2 sealed.length ++ sealed

def Sender.info (s : Sender) (sessionId : Bytes) : py.SessionInfo :=
  ⟨sessionId, py.ofInt 1, py.ofInt (algorithmCode s.algorithm), py.ofInt s.blockLog, s.certRef,
    none⟩

def newDownlink (s : Sender) (sessionId : Bytes) : Option SessionState :=
  if sessionId.length = sessionIdLen then
    (py.hex (py.ofInt s.blockLog)).map fun log =>
      ⟨deriveSessionKey py.prim s.serverPrivate s.devicePublic sessionId .server s.algorithm log,
        s.algorithm⟩
  else none

/-- The block id byte in front of each payload. -/
def blockPlaintexts (payloads : List Bytes) : List Bytes :=
  payloads.mapIdx fun i payload =>
    (0 ||| (if i = 0 then 0x40 else 0) ||| (if i = payloads.length - 1 then 0x80 else 0)) :: payload

/-- The packing of the encrypted path has no check of the size of an entry. -/
def downlinkBlocks (s : Sender) (sessionId : Bytes) (entries : List OutEntry) (pouchId : Int)
    (blockSize : Int) : Option (List Bytes) := do
  let state ← newDownlink py s sessionId
  let payloads ← packFrom Python.encodeEntry (fun _ => true) (fun _ current _ => current) blockSize
    entries [] []
  sealBlocks py aeadSeal state pouchId .server 0 [] (blockPlaintexts payloads)

def buildDownlinkPouch (s : Sender) (sessionId : Bytes) (entries : List OutEntry) (pouchId : Int)
    (blockSize : Int) : Option Bytes := do
  let blocks ← downlinkBlocks py aeadSeal s sessionId entries pouchId blockSize
  let header ← py.encode (saeadHeader py (s.info py sessionId) pouchId)
  some (header ++ blocks.flatMap sized)

/-- The loop of `decrypt_downlink`. -/
def decryptBlocks (algorithm : Algorithm) (key : Bytes) (h : py.PouchHeader) :
    Nat → (idx : Nat) → (prevTag data : Bytes) → Except Failure (List Bytes)
  | _, _, _, [] => .ok []
  | 0, _, _, _ :: _ => .error .other
  | n + 1, idx, prevTag, b :: bs =>
    match Clients.Python.nextSealed (b :: bs) with
    | .error e => .error e
    | .ok (sealed, rest) =>
      match py.nonce h.pouchId idx .server with
      | .error e => .error e
      | .ok nonce =>
        match py.prim.aeadOpen algorithm key nonce sealed (if idx > 0 then prevTag else []) with
        | none => .error .other
        | some plain =>
          (decryptBlocks algorithm key h n (idx + 1) (lastTag sealed) rest).map (plain.drop 1 :: ·)

/-- The key is derived with the algorithm of the header, the AEAD is that of the device. -/
def decryptDownlink (d : Device) (data : Bytes) : Except Failure (List Entry) :=
  match py.decode data with
  | .error e => .error e
  | .ok (h, consumed) =>
    match h.session with
    | none => .error .other
    | some info =>
      match py.hex info.maxBlockSizeLog with
      | none => .error .other
      | some log =>
        let algorithm := if py.equalsInt info.algorithm 1 then .chacha20Poly1305 else .aesGcm
        let key := deriveSessionKey py.prim d.priv d.serverPub info.sessionId .server algorithm log
        let blocks := data.drop consumed
        match decryptBlocks py d.algorithm key h blocks.length 0 [] blocks with
        | .error e => .error e
        | .ok payloads => parseEntryBlocks py.framing.path payloads

def Device.info (d : Device) (sessionId : Bytes) : py.SessionInfo :=
  ⟨sessionId, py.ofInt 0, py.ofInt (algorithmCode d.algorithm), py.ofInt d.blockLog,
    List.replicate certRefLen 0, none⟩

/-- A pouch of the device with any id bytes and payloads. `encrypt_uplink` of the mock puts all
entries into one block. -/
def encryptUplink (d : Device) (sessionId : Bytes) (pouchId : Int) (blocks : List (UInt8 × Bytes)) :
    Option Bytes := do
  let log ← py.hex (py.ofInt d.blockLog)
  let key := deriveSessionKey py.prim d.priv d.serverPub sessionId .device d.algorithm log
  let header ← py.encode (saeadHeader py (d.info py sessionId) pouchId)
  let sealed ← sealBlocks py aeadSeal ⟨key, d.algorithm⟩ pouchId .device 0 []
    (blocks.map fun b => b.1 :: b.2)
  some (header ++ sealed.flatMap sized)

end Frames

section RoundTrip

variable {py : Clients.Python} {aeadSeal : AeadSeal}

lemma algorithmCode_eq_one (a : Algorithm) :
    (if decide (algorithmCode a = 1) then Algorithm.chacha20Poly1305 else .aesGcm) = a := by
  cases a <;> rfl

/-- The object of an encrypted header, `[1, [1, session_info, pouch_id]]`. -/
def saeadObject (py : Clients.Python) (info : py.SessionInfo) (pouchId : Int) : py.Obj :=
  py.ofList [py.ofInt 1, py.ofList [py.ofInt 1, py.toCborObj info, py.ofInt pouchId]]

lemma encode_saead (info : py.SessionInfo) (pouchId : Int) :
    py.encode (saeadHeader py info pouchId) = py.dumps (saeadObject py info pouchId) := rfl

lemma fromCborObj_toCborObj (lawful : py.Lawful) {info : py.SessionInfo}
    (random : info.sequentialSeq = none) : py.fromCborObj (py.toCborObj info) = .ok info := by
  obtain ⟨sessionId, initiator, algorithm, log, certRef, seq⟩ := info
  obtain rfl : seq = none := random
  simp [Clients.Python.fromCborObj, Clients.Python.toCborObj, lawful.unpack_ofList,
    lawful.len_ofList, lawful.item_ofList, lawful.bytes_ofBytes]

theorem decode_saead (lawful : py.Lawful) {info : py.SessionInfo} {pouchId : Int}
    (random : info.sequentialSeq = none) (roundTrips : RoundTrips py (saeadObject py info pouchId))
    {header : Bytes} (h : py.dumps (saeadObject py info pouchId) = some header) (rest : Bytes) :
    py.decode (header ++ rest) = .ok (saeadHeader py info pouchId, header.length) := by
  simp only [Clients.Python.decode, roundTrips header rest h]
  simp [saeadObject, lawful.list_ofList, lawful.equalsInt_ofInt,
    fromCborObj_toCborObj lawful random, saeadHeader, Except.map]

lemma nextSealed_sized {sealed : Bytes} (fits : sealed.length < 2 ^ 16) (rest : Bytes) :
    Clients.Python.nextSealed (sized sealed ++ rest) = .ok (sealed, rest) := by
  have hsize := ofBe_two fits
  rw [sized, be_two]
  simp [Clients.Python.nextSealed, hsize]

/-- The first link of a chain: its nonce, how it was sealed, and the chain behind it. -/
theorem sealBlocks_cons {state : SessionState} {pouchId : Int} {role : Role} {blockIndex : Nat}
    {prevTag plaintext : Bytes} {plaintexts blocks : List Bytes}
    (h : sealBlocks py aeadSeal state pouchId role blockIndex prevTag (plaintext :: plaintexts) =
      some blocks) :
    ∃ nonce sealed rest, blocks = sealed :: rest ∧ sealed.length < 2 ^ 16 ∧
      py.nonce (py.ofInt pouchId) blockIndex role = .ok nonce ∧
      aeadSeal state.algorithm state.key nonce plaintext (if blockIndex > 0 then prevTag else []) =
        some sealed ∧
      sealBlocks py aeadSeal state pouchId role (blockIndex + 1) (lastTag sealed) plaintexts =
        some rest := by
  rw [sealBlocks] at h
  split at h
  · cases h
  · rename_i nonce hnonce
    simp only at h
    split at h
    · cases h
    · rename_i sealed hsealed
      split at h
      · rename_i hfits
        obtain ⟨rest, hrest, rfl⟩ := Option.map_eq_some_iff.mp h
        exact ⟨nonce, sealed, rest, rfl, hfits, hnonce, hsealed, hrest⟩
      · cases h

/-- The two ways in which both readers meet the data: at its end, or at a block with its size. -/
lemma sized_ne_nil (sealed rest : Bytes) : ∃ b bs, sized sealed ++ rest = b :: bs ∧
    rest.length ≤ bs.length := by
  rw [sized, be_two]
  refine ⟨_, _, rfl, ?_⟩
  simp only [List.append_eq, List.nil_append, List.cons_append, List.length_cons,
    List.length_append]
  omega

/-- The device opens a chain that was sealed in the role of the server, block by block. -/
theorem decryptBlocks_sealed (inverts : Inverts py.prim aeadSeal) {algorithm : Algorithm}
    {key : Bytes} {pouchId : Int} {h : py.PouchHeader} (id : h.pouchId = py.ofInt pouchId)
    {plaintexts blocks : List Bytes} {fuel idx : Nat} {prevTag : Bytes}
    (chain : sealBlocks py aeadSeal ⟨key, algorithm⟩ pouchId .server idx prevTag plaintexts =
      some blocks)
    (enough : (blocks.flatMap sized).length ≤ fuel) :
    decryptBlocks py algorithm key h fuel idx prevTag (blocks.flatMap sized) =
      .ok (plaintexts.map (List.drop 1)) := by
  induction plaintexts generalizing fuel idx prevTag blocks with
  | nil =>
    obtain rfl := Option.some.inj chain
    cases fuel <;> rfl
  | cons plaintext plaintexts ih =>
    obtain ⟨nonce, sealed, rest, rfl, hfits, hnonce, hsealed, hrest⟩ := sealBlocks_cons chain
    have hopen := inverts _ _ _ _ _ _ hsealed
    have hnext := nextSealed_sized hfits (rest.flatMap sized)
    rw [List.flatMap_cons] at enough ⊢
    obtain ⟨b, bs, hdata, hshorter⟩ := sized_ne_nil sealed (rest.flatMap sized)
    rw [hdata] at hnext enough ⊢
    cases fuel with
    | zero => exact absurd enough (by simp)
    | succ fuel =>
      rw [List.length_cons] at enough
      have hloop := ih hrest (show (rest.flatMap sized).length ≤ fuel by omega)
      simp only [decryptBlocks, hnext, id, hnonce, hopen, hloop, Except.map, List.map_cons]

/-- The client opens a chain of entry blocks that was sealed in the role of the device. -/
theorem openBlocks_sealed (inverts : Inverts py.prim aeadSeal) {state : SessionState}
    {pouchId : Int} {h : py.PouchHeader} (id : h.pouchId = py.ofInt pouchId)
    {blocks : List (UInt8 × Bytes)} (stream : ∀ b ∈ blocks, streamIdOf b.1 = blockIdEntry)
    {fuel idx : Nat} {prevTag : Bytes} {chain : List Bytes} {s : SaeadSession}
    (adopted : s.up = some state)
    (sealed : sealBlocks py aeadSeal state pouchId .device idx prevTag
      (blocks.map fun b => b.1 :: b.2) = some chain)
    (enough : (chain.flatMap sized).length ≤ fuel) :
    (openBlocks py.framing h fuel idx prevTag (chain.flatMap sized) s).1 =
      .ok (blocks.map Prod.snd) := by
  induction blocks generalizing fuel idx prevTag chain s with
  | nil =>
    obtain rfl := Option.some.inj sealed
    cases fuel <;> rfl
  | cons b blocks ih =>
    obtain ⟨nonce, block, rest, rfl, hfits, hnonce, hsealed, hrest⟩ := sealBlocks_cons sealed
    have hopen : py.framing.openSealed state.algorithm state.key nonce block
        (if idx > 0 then prevTag else []) = .ok (b.1 :: b.2) := by
      simp only [Clients.Python.framing, inverts _ _ _ _ _ _ hsealed]
    have hnext : py.framing.nextSealed (sized block ++ rest.flatMap sized) =
        .ok (block, rest.flatMap sized) := nextSealed_sized hfits (rest.flatMap sized)
    have hnonce' : py.framing.nonce h idx = .ok nonce := by
      rw [← hnonce, ← id]
      rfl
    have htag : py.framing.tag block = .ok (lastTag block) := rfl
    have hpayload : openedPayload (b.1 :: b.2) = some b.2 := if_pos (stream b List.mem_cons_self)
    rw [List.flatMap_cons] at enough ⊢
    obtain ⟨byte, bytes, hdata, hshorter⟩ := sized_ne_nil block (rest.flatMap sized)
    rw [hdata] at hnext enough ⊢
    cases fuel with
    | zero => exact absurd enough (by simp)
    | succ fuel =>
      rw [List.length_cons] at enough
      obtain ⟨s', hblock, hup⟩ : ∃ s', decryptUplinkBlock py.framing h block idx prevTag s =
          (.ok (b.1 :: b.2, lastTag block), s') ∧ s'.up = some state := by
        simp only [decryptUplinkBlock, adopted, hnonce', hopen, htag]
        exact ⟨_, rfl, rfl⟩
      have hloop := ih (fun b' hb' => stream b' (List.mem_cons_of_mem _ hb')) hup hrest
        (show (rest.flatMap sized).length ≤ fuel by omega)
      simp only [openBlocks, hnext, hblock]
      split
      · rename_i e s' hrun
        rw [hrun] at hloop
        cases hloop
      · rename_i payloads s' hrun
        rw [hrun] at hloop
        rw [hpayload, Except.ok.inj hloop]
        rfl

lemma log_of_hex {d : Device} {log : String} (hlog : py.hex (py.ofInt d.blockLog) = some log)
    (lawful : py.Lawful) (sessionId : Bytes) (pouchId : Int) :
    py.framing.uplink (saeadHeader py (d.info py sessionId) pouchId) =
      .ok ⟨sessionId, true, d.algorithm, .ok log⟩ := by
  simp only [Clients.Python.framing, saeadHeader, Device.info, lawful.equalsInt_ofInt, hlog]
  rw [algorithmCode_eq_one]
  rfl

lemma blockPlaintexts_drop (payloads : List Bytes) :
    (blockPlaintexts payloads).map (List.drop 1) = payloads := by
  apply List.ext_getElem?
  intro i
  simp only [blockPlaintexts, List.getElem?_map, List.getElem?_mapIdx, Option.map_map]
  exact Option.map_id'

/-- The encrypted path packs the payloads one behind the other. -/
lemma closeAll_payloads (blocks payloads : List Bytes) :
    closeAll (fun _ current _ => current) blocks payloads = blocks ++ payloads := by
  induction payloads generalizing blocks with
  | nil => simp [closeAll]
  | cons payload payloads ih =>
    cases payloads with
    | nil => rfl
    | cons payload' payloads =>
      rw [closeAll, ih, List.append_assoc]
      rfl

/-- ECDH gives both ends the same secret. -/
def SharedSecret (prim : Primitives) (serverPrivate devicePublic : Bytes) (d : Device) : Prop :=
  prim.exchange serverPrivate devicePublic = prim.exchange d.priv d.serverPub

lemma deriveSessionKey_shared {serverPrivate devicePublic : Bytes} {d : Device}
    (shared : SharedSecret py.prim serverPrivate devicePublic d) (sessionId : Bytes) (role : Role)
    (algorithm : Algorithm) (log : String) :
    deriveSessionKey py.prim serverPrivate devicePublic sessionId role algorithm log =
      deriveSessionKey py.prim d.priv d.serverPub sessionId role algorithm log := by
  rw [deriveSessionKey, deriveSessionKey, shared]

theorem downlink_round_trip (lawful : py.Lawful) (inverts : Inverts py.prim aeadSeal) {s : Sender}
    {d : Device} (shared : SharedSecret py.prim s.serverPrivate s.devicePublic d)
    (same : d.algorithm = s.algorithm) {sessionId : Bytes} {entries : List OutEntry}
    {pouchId blockSize : Int} {data : Bytes}
    (roundTrips : RoundTrips py (saeadObject py (s.info py sessionId) pouchId))
    (built : buildDownlinkPouch py aeadSeal s sessionId entries pouchId blockSize = some data) :
    ∃ parsed, decryptDownlink py d data = .ok parsed ∧ parsed.map OutEntry.ofEntry = entries := by
  simp only [buildDownlinkPouch, downlinkBlocks, packFrom_eq, encode_saead, Option.bind_eq_bind,
    Option.bind_eq_some_iff, Option.map_eq_some_iff] at built
  obtain ⟨blocks, ⟨state, hstate, _, ⟨payloads, hpacked, rfl⟩, hblocks⟩, header, hheader, heq⟩ :=
    built
  obtain rfl := Option.some.inj heq
  rw [closeAll_payloads, List.nil_append] at hblocks
  obtain ⟨encoded, hentries, hjoined⟩ := packed_joined hpacked
  rw [newDownlink] at hstate
  split at hstate
  · obtain ⟨log, hlog, rfl⟩ := Option.map_eq_some_iff.mp hstate
    have hdecode := decode_saead lawful rfl roundTrips hheader (blocks.flatMap sized)
    have halgorithm : (if py.equalsInt (py.ofInt (algorithmCode s.algorithm)) 1 then
        Algorithm.chacha20Poly1305 else .aesGcm) = s.algorithm := by
      rw [lawful.equalsInt_ofInt]
      exact algorithmCode_eq_one s.algorithm
    rw [deriveSessionKey_shared shared] at hblocks
    have hopened := decryptBlocks_sealed inverts
      (h := saeadHeader py (s.info py sessionId) pouchId) rfl hblocks (Nat.le_refl _)
    rw [blockPlaintexts_drop] at hopened
    refine ⟨entries.map OutEntry.entry, ?_, entries_ofEntry hentries⟩
    simp only [decryptDownlink, hdecode, List.drop_left]
    simp only [saeadHeader, Sender.info, hlog, halgorithm, same] at hopened ⊢
    rw [hopened]
    exact parseEntryBlocks_encoded (path_utf8 lawful) hentries hjoined
  · cases hstate

theorem uplink_round_trip (lawful : py.Lawful) (inverts : Inverts py.prim aeadSeal)
    {s : SaeadSession} {d : Device}
    (shared : SharedSecret py.prim s.serverPrivate s.devicePublic d) {sessionId : Bytes}
    {entries : List OutEntry} {encoded : List Bytes}
    (hentries : entries.mapM Python.encodeEntry = some encoded) {blocks : List (UInt8 × Bytes)}
    (stream : ∀ b ∈ blocks, streamIdOf b.1 = blockIdEntry)
    (joined : (blocks.map Prod.snd).flatten = encoded.flatten) {pouchId : Int} {data : Bytes}
    (roundTrips : RoundTrips py (saeadObject py (d.info py sessionId) pouchId))
    (sealed : encryptUplink py aeadSeal d sessionId pouchId blocks = some data) :
    ∃ parsed, (parseUplinkPouch py.framing data s).1 = .ok parsed ∧
      parsed.map OutEntry.ofEntry = entries := by
  simp only [encryptUplink, encode_saead, Option.bind_eq_bind, Option.bind_eq_some_iff] at sealed
  obtain ⟨log, hlog, header, hheader, chain, hchain, heq⟩ := sealed
  obtain rfl := Option.some.inj heq
  have hdecode : py.framing.decode (header ++ chain.flatMap sized) =
      .ok (saeadHeader py (d.info py sessionId) pouchId, header.length) :=
    decode_saead lawful rfl roundTrips hheader (chain.flatMap sized)
  have huplink := log_of_hex hlog lawful sessionId pouchId
  have hadopt : adoptUplink py.framing.prim ⟨sessionId, true, d.algorithm, .ok log⟩ s =
      .ok { s with up := some ⟨deriveSessionKey py.prim d.priv d.serverPub sessionId .device
        d.algorithm log, d.algorithm⟩ } := by
    rw [← deriveSessionKey_shared shared]
    rfl
  have hopened := openBlocks_sealed inverts
    (h := saeadHeader py (d.info py sessionId) pouchId) rfl stream
    (s := { s with up := some ⟨deriveSessionKey py.prim d.priv d.serverPub sessionId .device
        d.algorithm log, d.algorithm⟩ }) rfl hchain (Nat.le_refl _)
  refine ⟨entries.map OutEntry.entry, ?_, entries_ofEntry hentries⟩
  have hsaead : py.framing.encryption (saeadHeader py (d.info py sessionId) pouchId) = .saead := rfl
  simp only [parseUplinkPouch, hdecode, hsaead, ne_eq, not_true, if_false, huplink, hadopt,
    List.drop_left]
  split
  · rename_i e s' hrun
    rw [hrun] at hopened
    cases hopened
  · rename_i payloads s' hrun
    rw [hrun] at hopened
    obtain rfl := Except.ok.inj hopened
    exact parseEntryBlocks_encoded (path_utf8 lawful) hentries joined

end RoundTrip

/-- Every downlink pouch that is built opens at the device to exactly its entries; every chain
of entry blocks that the device seals, with the encoded entries cut anywhere, parses at the
client to exactly these entries. -/
theorem encrypted_framing_round_trip {py : Clients.Python} (lawful : py.Lawful)
    {aeadSeal : AeadSeal} (inverts : Inverts py.prim aeadSeal) :
    (∀ (s : Sender) (d : Device) (sessionId : Bytes) (entries : List OutEntry)
        (pouchId blockSize : Int) (data : Bytes),
      SharedSecret py.prim s.serverPrivate s.devicePublic d → d.algorithm = s.algorithm →
      RoundTrips py (saeadObject py (s.info py sessionId) pouchId) →
      buildDownlinkPouch py aeadSeal s sessionId entries pouchId blockSize = some data →
      ∃ parsed, decryptDownlink py d data = .ok parsed ∧
        parsed.map OutEntry.ofEntry = entries) ∧
    ∀ (s : SaeadSession) (d : Device) (sessionId : Bytes) (entries : List OutEntry)
        (encoded : List Bytes) (blocks : List (UInt8 × Bytes)) (pouchId : Int) (data : Bytes),
      SharedSecret py.prim s.serverPrivate s.devicePublic d →
      entries.mapM Python.encodeEntry = some encoded →
      (∀ b ∈ blocks, streamIdOf b.1 = blockIdEntry) →
      (blocks.map Prod.snd).flatten = encoded.flatten →
      RoundTrips py (saeadObject py (d.info py sessionId) pouchId) →
      encryptUplink py aeadSeal d sessionId pouchId blocks = some data →
      ∃ parsed, (parseUplinkPouch py.framing data s).1 = .ok parsed ∧
        parsed.map OutEntry.ofEntry = entries := by
  constructor
  · intro s d sessionId entries pouchId blockSize data shared same roundTrips built
    exact downlink_round_trip lawful inverts shared same roundTrips built
  · intro s d sessionId entries encoded blocks pouchId data shared hentries stream joined
      roundTrips sealed
    exact uplink_round_trip lawful inverts shared hentries stream joined roundTrips sealed

/-- An AEAD that puts 16 zeros behind the plaintext, between parties that all have one key. -/
def zeroTagPrimitives : Primitives where
  exchange _ _ := []
  hkdf _ _ length := List.replicate length 0
  aeadOpen _ _ _ sealed _ := some (sealed.take (sealed.length - authTagLen))

def zeroTagSeal : AeadSeal := fun _ _ _ plaintext _ =>
  some (plaintext ++ List.replicate authTagLen 0)

lemma zeroTag_inverts : Inverts zeroTagPrimitives zeroTagSeal := by
  intro algorithm key nonce plaintext aad sealed hsealed
  obtain rfl := Option.some.inj hsealed
  simp [zeroTagPrimitives]

def sampleSender : Sender := ⟨[], [], [], .aesGcm, 9⟩

def sampleDevice : Device := ⟨[], [], .aesGcm, 9⟩

def sampleSessionId : Bytes := List.replicate sessionIdLen 1

/-- The two entries cut inside the first one. -/
def cutBlocks : List (UInt8 × Bytes) :=
  [(0x40, [0x00, 0x01, 0x00]),
    (0x80, [0x3c, 0x01, 0x61, 0x07, 0x00, 0x01, 0x00, 0x3c, 0x01, 0x61, 0x08])]

lemma saeadObject_ok (prim : Primitives) {sessionId certRef : Bytes}
    (initiator algorithm log pouchId : Nat)
    (small : ∀ n ∈ [initiator, algorithm, log, pouchId], n < 10) :
    (saeadObject (referencePython prim) ⟨sessionId, (referencePython prim).ofInt initiator,
      (referencePython prim).ofInt algorithm, (referencePython prim).ofInt log, certRef, none⟩
      pouchId).Ok := by
  have hok : ∀ n < 10, Cbor.Item.Ok ((referencePython prim).ofInt (n : Nat)) := by
    intro n hn
    have hfits : n < 2 ^ 64 := Nat.lt_trans hn (by decide)
    simpa [referencePython, itemPython, Cbor.Item.Ok] using hfits
  exact ⟨hok 1 (by decide), ⟨hok 1 (by decide), ⟨⟨trivial, trivial⟩, hok _ (small _ (by simp)),
    hok _ (small _ (by simp)), hok _ (small _ (by simp)), trivial, trivial⟩,
    hok _ (small _ (by simp)), trivial⟩, trivial⟩

theorem encrypted_framing_round_trip_two :
    (∃ data parsed, buildDownlinkPouch (referencePython zeroTagPrimitives) zeroTagSeal sampleSender
        sampleSessionId [sampleOut 7, sampleOut 8] 3 8 = some data ∧
      decryptDownlink (referencePython zeroTagPrimitives) sampleDevice data = .ok parsed ∧
      parsed.map OutEntry.ofEntry = [sampleOut 7, sampleOut 8]) ∧
    ∃ data parsed, encryptUplink (referencePython zeroTagPrimitives) zeroTagSeal sampleDevice
        sampleSessionId 3 cutBlocks = some data ∧
      (parseUplinkPouch (referencePython zeroTagPrimitives).framing data
        ⟨[], [], none, []⟩).1 = .ok parsed ∧
      parsed.map OutEntry.ofEntry = [sampleOut 7, sampleOut 8] := by
  obtain ⟨hdown, hup⟩ := encrypted_framing_round_trip (referencePython_lawful zeroTagPrimitives)
    zeroTag_inverts
  constructor
  · obtain ⟨data, hdata⟩ := Option.isSome_iff_exists.mp (show (buildDownlinkPouch
      (referencePython zeroTagPrimitives) zeroTagSeal sampleSender sampleSessionId
      [sampleOut 7, sampleOut 8] 3 8).isSome by decide)
    obtain ⟨parsed, hparsed, hentries⟩ := hdown sampleSender sampleDevice sampleSessionId
      [sampleOut 7, sampleOut 8] 3 8 data rfl rfl
      (reference_roundTrips _ (saeadObject_ok _ 1 2 9 3 (by decide)) (by decide)) hdata
    exact ⟨data, parsed, hdata, hparsed, hentries⟩
  · obtain ⟨data, hdata⟩ := Option.isSome_iff_exists.mp (show (encryptUplink
      (referencePython zeroTagPrimitives) zeroTagSeal sampleDevice sampleSessionId 3
      cutBlocks).isSome by decide)
    obtain ⟨parsed, hparsed, hentries⟩ := hup ⟨[], [], none, []⟩ sampleDevice sampleSessionId
      [sampleOut 7, sampleOut 8] _ cutBlocks 3 data rfl rfl (by decide) (by decide)
      (reference_roundTrips _ (saeadObject_ok _ 0 2 9 3 (by decide)) (by decide)) hdata
    exact ⟨data, parsed, hdata, hparsed, hentries⟩

end SaeadFrames
