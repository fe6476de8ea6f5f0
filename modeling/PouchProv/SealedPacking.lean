import PouchProv.KeyUse

/-!
# Packing in the clear and encrypted

`build_downlink_pouch` packs the entries with a loop of its own, which lacks the
check of `build_entry_pouch` that an entry fits a block, and sets the flags of the
blocks afterwards. The two agree on a list of entries exactly when the check and the size
fields would have let through what the AEAD lets through (`packing_same_iff`).

The clients read keys, session and header as before; a session here is one that
works, so that whether a pouch is built depends on the entries and the block size alone.
-/

namespace SealedPacking

open Bytes PouchFrame Saead Clients PouchBuild SaeadFrames

/-- The downlink side of a `SaeadSession`, with numbers as wide as an `Int` of Swift. -/
structure MaskedSender where
  serverPrivate : Bytes
  devicePublic : Bytes
  serverCertRef : Bytes
  algorithm : Int64
  maxBlockSizeLog : Int64

def MaskedSender.certRef (s : MaskedSender) : Bytes :=
  let ref := s.serverCertRef.take certRefLen
  ref ++ List.replicate (certRefLen - ref.length) 0

/-- `SessionInfo.toCborObj` of a downlink: random session id, server as initiator. -/
def MaskedSender.info (s : MaskedSender) (sessionId : Bytes) : List CborValue :=
  [.array [.bytes sessionId], .int 1, .int s.algorithm, .int s.maxBlockSizeLog, .bytes s.certRef]

def MaskedSender.newDownlink (s : MaskedSender) (prim : Primitives) (sessionId : Bytes) :
    Option SessionState :=
  if sessionId.length = sessionIdLen then
    let algorithm := if s.algorithm = 1 then .chacha20Poly1305 else .aesGcm
    some ⟨deriveSessionKey prim s.serverPrivate s.devicePublic sessionId .server algorithm
      (hex02 (s.maxBlockSizeLog.toInt % 2 ^ 32).toNat), algorithm⟩
  else none

/-- The loop over `encryptDownlinkBlock`. -/
def maskedSealBlocks (aeadSeal : AeadSeal) (state : SessionState) (pouchId : Int64) :
    (blockIndex : Nat) → (prevTag : Bytes) → List Bytes → Option (List Bytes)
  | _, _, [] => some []
  | blockIndex, prevTag, plaintext :: plaintexts =>
    let aad := if blockIndex > 0 then prevTag else []
    match aeadSeal state.algorithm state.key (nonce pouchId blockIndex .server) plaintext aad with
    | none => none
    | some sealed =>
      (maskedSealBlocks aeadSeal state pouchId (blockIndex + 1) (lastTag sealed) plaintexts).map
        (sealed :: ·)

/-- A header `[1, [1, session_info, pouch_id]]`, and the sealed blocks behind their sizes, of
which the low 16 bits are written. -/
def maskedChain (aeadSeal : AeadSeal) (encode : CborValue → Bytes) (info : List CborValue)
    (state : SessionState) (pouchId : Int64) (plaintexts : List Bytes) : Option Bytes :=
  (maskedSealBlocks aeadSeal state pouchId 0 [] plaintexts).map fun blocks =>
    encode (.array [.int 1, .array [.int 1, .array info, .int pouchId]]) ++
      blocks.flatMap fun sealed => masked sealed.length ++ sealed

def maskedDownlink (prim : Primitives) (aeadSeal : AeadSeal) (encode : CborValue → Bytes)
    (s : MaskedSender) (sessionId : Bytes) (entries : List OutEntry) (pouchId : Int64)
    (blockSize : Int) : Option Bytes := do
  let state ← s.newDownlink prim sessionId
  let payloads ← packFrom maskedEntry (fun _ => true) (fun _ current _ => current) blockSize
    entries [] []
  maskedChain aeadSeal encode (s.info sessionId) state pouchId (blockPlaintexts payloads)

def Kotlin.buildDownlinkPouch (prim : Primitives) (aeadSeal : AeadSeal) (s : MaskedSender)
    (sessionId : Bytes) (entries : List OutEntry) (pouchId : Int32) : (blockSize : Int) →
    Option Bytes :=
  maskedDownlink prim aeadSeal ClientCbor.Kotlin.encode s sessionId entries pouchId.toInt64

def Swift.buildDownlinkPouch (prim : Primitives) (aeadSeal : AeadSeal) (s : MaskedSender)
    (sessionId : Bytes) (entries : List OutEntry) (pouchId : Int64) : (blockSize : Int) →
    Option Bytes :=
  maskedDownlink prim aeadSeal ClientCbor.Swift.encode s sessionId entries pouchId

/-- The AEAD seals whatever it is given, and adds a tag. -/
def Seals (aeadSeal : AeadSeal) (state : SessionState) : Prop :=
  ∀ nonce plaintext aad, ∃ sealed,
    aeadSeal state.algorithm state.key nonce plaintext aad = some sealed ∧
      sealed.length = plaintext.length + authTagLen

/-- A session of the Python client that has what either pouch needs besides its entries. -/
structure PythonSession where
  py : Clients.Python
  lawful : py.Lawful
  aeadSeal : AeadSeal
  sender : Sender
  sessionId : Bytes
  pouchId : Int
  deviceId : py.Obj
  state : SessionState
  header : Bytes
  plainHeader : Bytes
  started : newDownlink py sender sessionId = some state
  encoded : py.encode (saeadHeader py (sender.info py sessionId) pouchId) = some header
  plainEncoded : py.encode (Python.plaintext py deviceId) = some plainHeader
  idFits : 0 ≤ pouchId ∧ pouchId < 2 ^ 16
  seals : Seals aeadSeal state

/-- The pouch of the given block plaintexts. -/
def PythonSession.chain (p : PythonSession) (plaintexts : List Bytes) : Option Bytes :=
  (sealBlocks p.py p.aeadSeal p.state p.pouchId .server 0 [] plaintexts).map fun blocks =>
    p.header ++ blocks.flatMap sized

/-- A session of one of the other two clients. -/
structure MaskedSession where
  prim : Primitives
  aeadSeal : AeadSeal
  sender : MaskedSender
  sessionId : Bytes
  deviceId : String
  state : SessionState
  started : sender.newDownlink prim sessionId = some state
  seals : Seals aeadSeal state

def MaskedSession.chain (m : MaskedSession) (encode : CborValue → Bytes) (pouchId : Int64) :
    List Bytes → Option Bytes :=
  maskedChain m.aeadSeal encode (m.sender.info m.sessionId) m.state pouchId

/-- What is sealed for a block: the id byte with its flags, and the payload. -/
def plaintextOf (b : Block) : Bytes := b.idByte :: b.payload

/-- The encrypted pouch is built exactly when the plaintext one is. It then seals the blocks of the
plaintext one in order, with their flags, and none is longer than the block size. -/
def SamePacking (encode : OutEntry → Option Bytes) (chain : List Bytes → Option Bytes)
    (entries : List OutEntry) (blockSize : Int) (plain encrypted : Option Bytes) : Prop :=
  (encrypted = none ↔ plain = none) ∧
  ∀ data, encrypted = some data → ∃ blocks,
    packFrom encode (admitsUpTo blockSize) closeBlock blockSize entries [] [] = some blocks ∧
    chain (blocks.map plaintextOf) = some data ∧
    ∀ b ∈ blocks, b.payload.length ≤ blockSize.toNat

/-- No entry that can be encoded is longer than a block. -/
def EntriesFit (encode : OutEntry → Option Bytes) (entries : List OutEntry) (blockSize : Int) :
    Prop :=
  ∀ e ∈ entries, ∀ bytes, encode e = some bytes → (bytes.length : Int) ≤ blockSize

section Loops

variable {encode : OutEntry → Option Bytes} {blockSize : Int} {entries : List OutEntry}

/-- The payloads that the encrypted path packs. -/
def unchecked (encode : OutEntry → Option Bytes) (blockSize : Int) (entries : List OutEntry) :
    Option (List Bytes) :=
  packed encode (fun _ => true) blockSize entries []

/-- Where the entries fit, the check does nothing. -/
lemma packed_of_fit (fit : EntriesFit encode entries blockSize) (current : Bytes) :
    packed encode (admitsUpTo blockSize) blockSize entries current =
      packed encode (fun _ => true) blockSize entries current := by
  induction entries generalizing current with
  | nil => rfl
  | cons entry entries ih =>
    have hrest := ih fun e he => fit e (List.mem_cons_of_mem _ he)
    rw [packed, packed]
    cases hencode : encode entry with
    | none => rfl
    | some encoded =>
      have hadmits : admitsUpTo blockSize encoded = true :=
        decide_eq_true (fit entry List.mem_cons_self encoded hencode)
      simp only [hadmits, hrest]

/-- Where one does not fit, nothing is packed. -/
lemma fit_of_packed {current : Bytes} {payloads : List Bytes}
    (h : packed encode (admitsUpTo blockSize) blockSize entries current = some payloads) :
    EntriesFit encode entries blockSize := by
  induction entries generalizing current payloads with
  | nil => exact fun e he => absurd he (by simp)
  | cons entry entries ih =>
    rw [packed] at h
    cases hencode : encode entry with
    | none =>
      rw [hencode] at h
      cases h
    | some encoded =>
      rw [hencode] at h
      simp only at h
      split at h
      · cases h
      · rename_i hadmits
        have hfirst : (encoded.length : Int) ≤ blockSize := by simpa [admitsUpTo] using hadmits
        have hrest : EntriesFit encode entries blockSize := by
          split at h
          · obtain ⟨rest, hrest, -⟩ := Option.map_eq_some_iff.mp h
            exact ih hrest
          · exact ih h
        intro e he bytes hbytes
        rcases List.mem_cons.mp he with rfl | he
        · obtain rfl := Option.some.inj (hencode.symm.trans hbytes)
          exact hfirst
        · exact hrest e he bytes hbytes

/-- The flags set afterwards are those set while packing. -/
lemma blockPlaintexts_eq (payloads : List Bytes) :
    blockPlaintexts payloads = (closeAll closeBlock [] payloads).map plaintextOf := by
  rw [closeAll_closeBlock, List.nil_append, blockPlaintexts]
  apply List.ext_getElem
  · simp
  · intro i hi _
    have hlast : (i = payloads.length - 1) ↔ (i + 1 = payloads.length) := by
      simp only [List.length_mapIdx] at hi
      omega
    simp [plaintextOf, Block.idByte, hlast]

/-- Both builders are their loop followed by what is written of its blocks. They agree exactly when
the blocks of the unchecked loop can be sealed just where the entries fit and the blocks can be
written in the clear. -/
theorem samePacking_iff {write : List Block → Option Bytes} {chain : List Bytes → Option Bytes}
    {plain encrypted : Option Bytes}
    (hplain : plain =
      (packFrom encode (admitsUpTo blockSize) closeBlock blockSize entries [] []).bind write)
    (hencrypted : encrypted =
      (packFrom encode (fun _ => true) (fun _ current _ => current) blockSize entries [] []).bind
        fun payloads => chain (blockPlaintexts payloads)) :
    SamePacking encode chain entries blockSize plain encrypted ↔
      ∀ payloads, unchecked encode blockSize entries = some payloads →
        ((chain (blockPlaintexts payloads)).isSome ↔ EntriesFit encode entries blockSize ∧
          (write (closeAll closeBlock [] payloads)).isSome) := by
  have hencrypted' : encrypted = (unchecked encode blockSize entries).bind fun payloads =>
      chain (blockPlaintexts payloads) := by
    rw [hencrypted, packFrom_eq, unchecked]
    simp only [Option.bind_map, Function.comp_def, closeAll_payloads, List.nil_append]
  have hplain' : plain = (packed encode (admitsUpTo blockSize) blockSize entries []).bind
      fun payloads => write (closeAll closeBlock [] payloads) := by
    rw [hplain, packFrom_eq]
    simp only [Option.bind_map, Function.comp_def]
  -- Either pouch is built exactly when its blocks are packed and written.
  have hsome : plain.isSome ↔ ∃ payloads, unchecked encode blockSize entries = some payloads ∧
      EntriesFit encode entries blockSize ∧ (write (closeAll closeBlock [] payloads)).isSome := by
    rw [hplain', Option.isSome_bind, Option.any_eq_true]
    constructor
    · rintro ⟨payloads, hpacked, hwrite⟩
      have hfit := fit_of_packed hpacked
      exact ⟨payloads, by rwa [packed_of_fit hfit] at hpacked, hfit, hwrite⟩
    · rintro ⟨payloads, hpacked, hfit, hwrite⟩
      exact ⟨payloads, by rw [packed_of_fit hfit]; exact hpacked, hwrite⟩
  constructor
  · rintro ⟨hfails, -⟩ payloads hpayloads
    have hiff : encrypted.isSome ↔ plain.isSome := by
      rw [Option.isSome_iff_ne_none, Option.isSome_iff_ne_none]
      exact not_congr hfails
    rw [hencrypted', hsome, hpayloads, Option.bind_some] at hiff
    simpa using hiff
  · intro h
    have hiff : encrypted.isSome ↔ plain.isSome := by
      rw [hencrypted', hsome]
      cases hpayloads : unchecked encode blockSize entries with
      | none => simp
      | some payloads => simpa using h payloads hpayloads
    refine ⟨?_, ?_⟩
    · rw [← Option.not_isSome_iff_eq_none, ← Option.not_isSome_iff_eq_none]
      exact not_congr hiff
    · intro data hdata
      obtain ⟨payloads, hpayloads, hfit, -⟩ := hsome.mp (hiff.mp (by rw [hdata]; rfl))
      have hpacked : packed encode (admitsUpTo blockSize) blockSize entries [] = some payloads := by
        rw [packed_of_fit hfit]
        exact hpayloads
      refine ⟨closeAll closeBlock [] payloads, ?_, ?_, ?_⟩
      · rw [packFrom_eq, hpacked]
        rfl
      · rw [← blockPlaintexts_eq, ← hdata, hencrypted', hpayloads]
        rfl
      · intro b hb
        have hmem : b.payload ∈ payloads := by
          rw [closeAll_closeBlock, List.nil_append, List.mem_mapIdx] at hb
          obtain ⟨i, hi, rfl⟩ := hb
          exact List.getElem_mem hi
        exact packed_length_le hpacked (Nat.zero_le _) _ hmem

end Loops

/-- A chain is sealed for as many blocks as 16 bits count, none too long for its size field. -/
lemma sealBlocks_isSome_iff (p : PythonSession) (blockIndex : Nat) (prevTag : Bytes)
    (plaintexts : List Bytes) :
    (sealBlocks p.py p.aeadSeal p.state p.pouchId .server blockIndex prevTag plaintexts).isSome ↔
      (∀ i < plaintexts.length, blockIndex + i < 2 ^ 16) ∧
        ∀ t ∈ plaintexts, t.length + authTagLen < 2 ^ 16 := by
  induction plaintexts generalizing blockIndex prevTag with
  | nil => simp [sealBlocks]
  | cons plaintext plaintexts ih =>
    rw [sealBlocks, KeyUse.nonce_ofInt p.lawful]
    by_cases hindex : blockIndex < 2 ^ 16
    · obtain ⟨sealed, hsealed, hlength⟩ := p.seals
        (be 2 p.pouchId.toNat ++ be 2 blockIndex ++ [Role.server.code] ++ List.replicate 7 0)
        plaintext (if blockIndex > 0 then prevTag else [])
      have hshift : (∀ i < plaintexts.length + 1, blockIndex + i < 2 ^ 16) ↔
          ∀ i < plaintexts.length, blockIndex + 1 + i < 2 ^ 16 := by
        constructor
        · intro h i hi
          have := h (i + 1) (by omega)
          omega
        · intro h i hi
          cases i with
          | zero => exact hindex
          | succ i =>
            have := h i (by omega)
            omega
      simp only [if_pos (⟨p.idFits.1, p.idFits.2, hindex⟩ : _ ∧ _ ∧ _), hsealed, hlength,
        List.length_cons, List.mem_cons, forall_eq_or_imp, hshift]
      split
      · rename_i hfits
        rw [Option.isSome_map, ih]
        exact ⟨fun h => ⟨h.1, hfits, h.2⟩, fun h => ⟨h.1, h.2.2⟩⟩
      · rename_i hlong
        exact ⟨fun h => absurd h (by simp), fun h => absurd h.2.1 hlong⟩
    · simp only [if_neg fun h : _ ∧ _ ∧ _ => hindex h.2.2, Option.isSome_none]
      refine ⟨fun h => absurd h (by simp), fun h => absurd (h.1 0 (by simp)) (by omega)⟩

lemma mapM_encodeBlock_isSome_iff (blocks : List Block) :
    (blocks.mapM Python.encodeBlock).isSome ↔ ∀ b ∈ blocks, b.payload.length + 1 < 2 ^ 16 := by
  induction blocks with
  | nil => simp
  | cons b blocks ih =>
    rw [List.mapM_cons, List.forall_mem_cons, ← ih, Python.encodeBlock]
    split
    · rename_i hfits
      cases blocks.mapM Python.encodeBlock with
      | none => simp
      | some encoded => simpa using hfits
    · rename_i hlong
      exact ⟨fun h => absurd h (by simp), fun h => absurd h.1 hlong⟩

lemma maskedSealBlocks_isSome {aeadSeal : AeadSeal} {state : SessionState}
    (seals : Seals aeadSeal state) (pouchId : Int64) (blockIndex : Nat) (prevTag : Bytes)
    (plaintexts : List Bytes) :
    (maskedSealBlocks aeadSeal state pouchId blockIndex prevTag plaintexts).isSome := by
  induction plaintexts generalizing blockIndex prevTag with
  | nil => rfl
  | cons plaintext plaintexts ih =>
    obtain ⟨sealed, hsealed, -⟩ := seals (nonce pouchId blockIndex .server) plaintext
      (if blockIndex > 0 then prevTag else [])
    simp only [maskedSealBlocks, hsealed, Option.isSome_map]
    exact ih _ _

/-- The plaintext of a block is its payload and one byte. -/
lemma forall_blockPlaintexts {payloads : List Bytes} {n : Nat} :
    (∀ t ∈ blockPlaintexts payloads, t.length + n < 2 ^ 16) ↔
      ∀ q ∈ payloads, q.length + 1 + n < 2 ^ 16 := by
  simp only [List.forall_mem_iff_getElem, blockPlaintexts, List.length_mapIdx,
    List.getElem_mapIdx, List.length_cons]

lemma forall_closeAll {payloads : List Bytes} :
    (∀ b ∈ closeAll closeBlock [] payloads, b.payload.length + 1 < 2 ^ 16) ↔
      ∀ q ∈ payloads, q.length + 1 < 2 ^ 16 := by
  rw [closeAll_closeBlock, List.nil_append]
  simp only [List.forall_mem_iff_getElem, List.length_mapIdx, List.getElem_mapIdx]

/-- The unchecked blocks of the Python client: sealed and in the clear alike, or in neither way. -/
def WritesAlike (entries : List OutEntry) (blockSize : Int) : Prop :=
  ∀ payloads, unchecked Python.encodeEntry blockSize entries = some payloads →
    (payloads.length ≤ 2 ^ 16 ∧ (∀ q ∈ payloads, q.length + 1 + authTagLen < 2 ^ 16) ↔
      EntriesFit Python.encodeEntry entries blockSize ∧ ∀ q ∈ payloads, q.length + 1 < 2 ^ 16)

/-- The other two clients write whatever can be packed, so that only the check is left. -/
def FitsAlike (entries : List OutEntry) (blockSize : Int) : Prop :=
  ∀ payloads, unchecked maskedEntry blockSize entries = some payloads →
    EntriesFit maskedEntry entries blockSize

lemma python_same_iff (p : PythonSession) (entries : List OutEntry) (blockSize : Int) :
    SamePacking Python.encodeEntry p.chain entries blockSize
        (Python.buildEntryPouch p.py p.deviceId entries blockSize)
        (buildDownlinkPouch p.py p.aeadSeal p.sender p.sessionId entries p.pouchId blockSize) ↔
      WritesAlike entries blockSize := by
  have hplain : Python.buildEntryPouch p.py p.deviceId entries blockSize =
      (packFrom Python.encodeEntry (admitsUpTo blockSize) closeBlock blockSize entries [] []).bind
        fun blocks => (blocks.mapM Python.encodeBlock).map fun encoded =>
          p.plainHeader ++ encoded.flatten := by
    simp only [Python.buildEntryPouch, p.plainEncoded, Option.bind_eq_bind, Option.bind_some,
      Option.map_eq_bind]
    rfl
  have hencrypted : buildDownlinkPouch p.py p.aeadSeal p.sender p.sessionId entries p.pouchId
      blockSize = (packFrom Python.encodeEntry (fun _ => true) (fun _ current _ => current)
        blockSize entries [] []).bind fun payloads => p.chain (blockPlaintexts payloads) := by
    simp only [buildDownlinkPouch, downlinkBlocks, p.started, p.encoded, Option.bind_eq_bind,
      Option.bind_some, Option.bind_assoc, PythonSession.chain, Option.map_eq_bind]
    rfl
  rw [samePacking_iff hplain hencrypted]
  refine forall_congr' fun payloads => imp_congr_right fun _ => ?_
  rw [PythonSession.chain, Option.isSome_map, sealBlocks_isSome_iff, Option.isSome_map,
    mapM_encodeBlock_isSome_iff, forall_blockPlaintexts, forall_closeAll]
  have hcount : (∀ i < (blockPlaintexts payloads).length, 0 + i < 2 ^ 16) ↔
      payloads.length ≤ 2 ^ 16 := by
    rw [blockPlaintexts, List.length_mapIdx]
    constructor
    · intro h
      by_contra hlong
      have := h (2 ^ 16) (by omega)
      omega
    · intro h i hi
      omega
  rw [hcount]

lemma masked_same_iff (m : MaskedSession) (encode : CborValue → Bytes) (pouchId : Int64)
    (header : Bytes) (entries : List OutEntry) (blockSize : Int) :
    SamePacking maskedEntry (m.chain encode pouchId) entries blockSize
        (maskedPouch header entries blockSize)
        (maskedDownlink m.prim m.aeadSeal encode m.sender m.sessionId entries pouchId blockSize) ↔
      FitsAlike entries blockSize := by
  have hplain : maskedPouch header entries blockSize =
      (packFrom maskedEntry (admitsUpTo blockSize) closeBlock blockSize entries [] []).bind
        fun blocks => some (header ++ blocks.flatMap maskedBlock) := by
    rw [maskedPouch, Option.map_eq_bind]
    rfl
  have hencrypted : maskedDownlink m.prim m.aeadSeal encode m.sender m.sessionId entries pouchId
      blockSize = (packFrom maskedEntry (fun _ => true) (fun _ current _ => current) blockSize
        entries [] []).bind fun payloads => m.chain encode pouchId (blockPlaintexts payloads) := by
    simp only [maskedDownlink, m.started, Option.bind_eq_bind, Option.bind_some]
    rfl
  rw [samePacking_iff hplain hencrypted]
  refine forall_congr' fun payloads => imp_congr_right fun _ => ?_
  have hsealed : (m.chain encode pouchId (blockPlaintexts payloads)).isSome = true := by
    rw [MaskedSession.chain, maskedChain, Option.isSome_map]
    exact maskedSealBlocks_isSome m.seals pouchId 0 [] _
  simp [hsealed]

/-- For which entries and block sizes encrypted packing is plaintext packing. -/
theorem packing_same_iff (entries : List OutEntry) (blockSize : Int) :
    (∀ p : PythonSession, SamePacking Python.encodeEntry p.chain entries blockSize
        (Python.buildEntryPouch p.py p.deviceId entries blockSize)
        (buildDownlinkPouch p.py p.aeadSeal p.sender p.sessionId entries p.pouchId blockSize) ↔
      WritesAlike entries blockSize) ∧
    (∀ (m : MaskedSession) (pouchId : Int32), SamePacking maskedEntry
        (m.chain ClientCbor.Kotlin.encode pouchId.toInt64) entries blockSize
        (PouchBuild.Kotlin.buildEntryPouch m.deviceId entries blockSize)
        (Kotlin.buildDownlinkPouch m.prim m.aeadSeal m.sender m.sessionId entries pouchId
          blockSize) ↔
      FitsAlike entries blockSize) ∧
    ∀ (m : MaskedSession) (pouchId : Int64), SamePacking maskedEntry
        (m.chain ClientCbor.Swift.encode pouchId) entries blockSize
        (PouchBuild.Swift.buildEntryPouch m.deviceId entries blockSize)
        (Swift.buildDownlinkPouch m.prim m.aeadSeal m.sender m.sessionId entries pouchId
          blockSize) ↔
      FitsAlike entries blockSize := by
  refine ⟨fun p => python_same_iff p entries blockSize, ?_, ?_⟩
  · intro m pouchId
    exact masked_same_iff m ClientCbor.Kotlin.encode pouchId.toInt64 _ entries blockSize
  · intro m pouchId
    exact masked_same_iff m ClientCbor.Swift.encode pouchId _ entries blockSize

/-- A session with an AEAD that puts 16 zeros behind the plaintext. -/
def sampleState : SessionState := ⟨List.replicate 16 0, .aesGcm⟩

lemma zeroTag_seals : Seals zeroTagSeal sampleState :=
  fun _ plaintext _ => ⟨_, rfl, by simp⟩

def samplePythonSession : PythonSession where
  py := referencePython zeroTagPrimitives
  lawful := referencePython_lawful zeroTagPrimitives
  aeadSeal := zeroTagSeal
  sender := sampleSender
  sessionId := sampleSessionId
  pouchId := 3
  deviceId := .tstr (utf8 "d")
  state := sampleState
  header := Cbor.encode (saeadObject (referencePython zeroTagPrimitives)
    (sampleSender.info (referencePython zeroTagPrimitives) sampleSessionId) 3)
  plainHeader := [0x82, 0x01, 0x82, 0x00, 0x61, 0x64]
  started := by decide
  encoded := rfl
  plainEncoded := by decide
  idFits := by decide
  seals := zeroTag_seals

def sampleMaskedSession : MaskedSession where
  prim := zeroTagPrimitives
  aeadSeal := zeroTagSeal
  sender := ⟨[], [], [], 2, 9⟩
  sessionId := sampleSessionId
  deviceId := "d"
  state := sampleState
  started := by decide
  seals := zeroTag_seals

/-- One entry of seven bytes and blocks of six: every client refuses it in the clear, and seals
it in one block of seven. -/
theorem oversize_entry_sealed :
    (Python.buildEntryPouch samplePythonSession.py samplePythonSession.deviceId [sampleOut 7] 6 =
        none ∧
      (buildDownlinkPouch samplePythonSession.py samplePythonSession.aeadSeal
        samplePythonSession.sender samplePythonSession.sessionId [sampleOut 7]
        samplePythonSession.pouchId 6).isSome) ∧
    (PouchBuild.Kotlin.buildEntryPouch "d" [sampleOut 7] 6 = none ∧
      (Kotlin.buildDownlinkPouch zeroTagPrimitives zeroTagSeal sampleMaskedSession.sender
        sampleSessionId [sampleOut 7] 3 6).isSome) ∧
    PouchBuild.Swift.buildEntryPouch "d" [sampleOut 7] 6 = none ∧
      (Swift.buildDownlinkPouch zeroTagPrimitives zeroTagSeal sampleMaskedSession.sender
        sampleSessionId [sampleOut 7] 3 6).isSome := by
  decide

end SealedPacking
