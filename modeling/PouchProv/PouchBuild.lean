import PouchProv.ClientCbor

/-!
# Building pouches

`Entry.encode`, `Block.encode` and `build_entry_pouch` of `pouch.py`, and the same
of `Pouch.kt` and `Pouch.swift`. The packing loop is the same in the three clients
and in the encrypted path of the Python client, over the encoder of an entry, the
check of its size and the record that is kept of a block.

An exception is `none`. The Python client packs its size fields with a check of
their range; the other two keep the low 16 bits.
-/

namespace PouchBuild

open Bytes Readers PouchFrame Saead Clients

/-- An `Entry` that a caller builds. Its content type is any integer. -/
structure OutEntry where
  path : String
  contentType : Int
  data : Bytes
  deriving DecidableEq, Repr

/-- What a parser returns, as something to send. -/
def OutEntry.ofEntry (e : Entry) : OutEntry := ⟨e.path, e.contentType, e.data⟩

structure Block where
  payload : Bytes
  streamId : UInt8
  first : Bool
  last : Bool
  deriving DecidableEq, Repr

def Block.idByte (b : Block) : UInt8 :=
  b.streamId &&& 0x1f ||| (if b.first then 0x40 else 0) ||| (if b.last then 0x80 else 0)

section Pack

variable {B : Type}

/-- The packing loop. `admits` is the check of an encoded entry, and `close` makes a block of
the current bytes, given the blocks before it and whether it is the last. -/
def packFrom (encode : OutEntry → Option Bytes) (admits : Bytes → Bool)
    (close : List B → Bytes → Bool → B) (blockSize : Int) :
    List OutEntry → List B → Bytes → Option (List B)
  | [], blocks, current => some (blocks ++ [close blocks current true])
  | entry :: entries, blocks, current =>
    match encode entry with
    | none => none
    | some encoded =>
      if ¬ admits encoded then none
      -- An entry never spans blocks.
      else if current ≠ [] ∧ (current.length + encoded.length : Int) > blockSize then
        packFrom encode admits close blockSize entries (blocks ++ [close blocks current false])
          encoded
      else packFrom encode admits close blockSize entries blocks (current ++ encoded)

end Pack

/-- `Block(current, first=not blocks, last=last)` -/
def closeBlock (blocks : List Block) (current : Bytes) (last : Bool) : Block :=
  ⟨current, 0, blocks.isEmpty, last⟩

def admitsUpTo (blockSize : Int) (encoded : Bytes) : Bool := encoded.length ≤ blockSize

namespace Python

/-- `struct.pack` raises where a number does not fit its field. -/
def encodeEntry (e : OutEntry) : Option Bytes :=
  let pathBytes := utf8 e.path
  if pathBytes.length > 255 then none
  else if e.data.length < 2 ^ 16 ∧ 0 ≤ e.contentType ∧ e.contentType < 2 ^ 16 then
    some (be 2 e.data.length ++ be 2 e.contentType.toNat ++ be 1 pathBytes.length ++ pathBytes ++
      e.data)
  else none

def encodeBlock (b : Block) : Option Bytes :=
  if b.payload.length + 1 < 2 ^ 16 then
    some (be 2 (b.payload.length + 1) ++ [b.idByte] ++ b.payload)
  else none

variable (py : Clients.Python)

/-- `PouchHeader(ENCRYPTION_NONE, device_id=device_id)` -/
def plaintext (deviceId : py.Obj) : py.PouchHeader := ⟨.none, some deviceId, none, py.ofInt 0⟩

def buildEntryPouch (deviceId : py.Obj) (entries : List OutEntry) (blockSize : Int) :
    Option Bytes := do
  let blocks ← packFrom encodeEntry (admitsUpTo blockSize) closeBlock blockSize entries [] []
  let header ← py.encode (plaintext py deviceId)
  let encoded ← blocks.mapM encodeBlock
  some (header ++ encoded.flatten)

end Python

/-- The low 16 bits of a number, as both clients write a size. -/
def masked (v : Int) : Bytes := be 2 (v % 2 ^ 16).toNat

def maskedEntry (e : OutEntry) : Option Bytes :=
  let pathBytes := utf8 e.path
  if pathBytes.length ≤ 255 then
    some (masked e.data.length ++ masked e.contentType ++ be 1 pathBytes.length ++ pathBytes ++
      e.data)
  else none

def maskedBlock (b : Block) : Bytes :=
  masked (b.payload.length + 1) ++ [b.idByte] ++ b.payload

def plaintextValue (deviceId : String) : CborValue :=
  .array [.int 1, .array [.int 0, .text deviceId]]

def maskedPouch (header : Bytes) (entries : List OutEntry) (blockSize : Int) : Option Bytes :=
  (packFrom maskedEntry (admitsUpTo blockSize) closeBlock blockSize entries [] []).map fun blocks =>
    header ++ blocks.flatMap maskedBlock

/-- A path that is too long fails a `require`. -/
def Kotlin.buildEntryPouch (deviceId : String) : List OutEntry → Int → Option Bytes :=
  maskedPouch (ClientCbor.Kotlin.encode (plaintextValue deviceId))

/-- A path that is too long fails a `precondition`. -/
def Swift.buildEntryPouch (deviceId : String) : List OutEntry → Int → Option Bytes :=
  maskedPouch (ClientCbor.Swift.encode (plaintextValue deviceId))

section Packed

variable {B : Type} {encode : OutEntry → Option Bytes} {admits : Bytes → Bool}
  {close : List B → Bytes → Bool → B} {blockSize : Int}

/-- The payloads that the loop makes of the remaining entries and the current bytes. -/
def packed (encode : OutEntry → Option Bytes) (admits : Bytes → Bool) (blockSize : Int) :
    List OutEntry → Bytes → Option (List Bytes)
  | [], current => some [current]
  | entry :: entries, current =>
    match encode entry with
    | none => none
    | some encoded =>
      if ¬ admits encoded then none
      else if current ≠ [] ∧ (current.length + encoded.length : Int) > blockSize then
        (packed encode admits blockSize entries encoded).map (current :: ·)
      else packed encode admits blockSize entries (current ++ encoded)

/-- The payloads made into blocks, one after the other. -/
def closeAll (close : List B → Bytes → Bool → B) : List B → List Bytes → List B
  | blocks, [] => blocks
  | blocks, [payload] => blocks ++ [close blocks payload true]
  | blocks, payload :: payload' :: payloads =>
    closeAll close (blocks ++ [close blocks payload false]) (payload' :: payloads)

lemma packed_ne_nil {entries : List OutEntry} {current : Bytes} {payloads : List Bytes}
    (h : packed encode admits blockSize entries current = some payloads) : payloads ≠ [] := by
  induction entries generalizing current payloads with
  | nil =>
    obtain rfl := Option.some.inj h
    simp
  | cons entry entries ih =>
    rw [packed] at h
    split at h
    · cases h
    · split at h
      · cases h
      · split at h
        · obtain ⟨rest, -, rfl⟩ := Option.map_eq_some_iff.mp h
          simp
        · exact ih h

/-- The accumulator only collects: the loop closes the payloads that it packs. -/
theorem packFrom_eq (entries : List OutEntry) (blocks : List B) (current : Bytes) :
    packFrom encode admits close blockSize entries blocks current =
      (packed encode admits blockSize entries current).map (closeAll close blocks) := by
  induction entries generalizing blocks current with
  | nil => rfl
  | cons entry entries ih =>
    rw [packFrom, packed]
    cases encode entry with
    | none => rfl
    | some encoded =>
      by_cases hadmits : admits encoded
      · by_cases hfull : current ≠ [] ∧ (current.length + encoded.length : Int) > blockSize
        · simp only [hadmits, not_true, if_false, if_pos hfull, ih, Option.map_map]
          cases hrest : packed encode admits blockSize entries encoded with
          | none => rfl
          | some rest =>
            obtain ⟨payload, payloads, rfl⟩ := List.exists_cons_of_ne_nil (packed_ne_nil hrest)
            rfl
        · simp only [hadmits, not_true, if_false, if_neg hfull, ih]
      · simp [hadmits]

/-- The payloads are the encoded entries in order, cut between entries, with the current bytes in
front. -/
theorem packed_groups {entries : List OutEntry} {current : Bytes} {payloads : List Bytes}
    (h : packed encode admits blockSize entries current = some payloads) :
    ∃ (first : List Bytes) (groups : List (List Bytes)),
      entries.mapM encode = some (first ++ groups.flatten) ∧
      payloads = (current ++ first.flatten) :: groups.map List.flatten := by
  induction entries generalizing current payloads with
  | nil =>
    obtain rfl := Option.some.inj h
    exact ⟨[], [], rfl, by simp⟩
  | cons entry entries ih =>
    rw [packed] at h
    cases hencode : encode entry with
    | none =>
      rw [hencode] at h
      cases h
    | some encoded =>
      rw [hencode] at h
      simp only at h
      split at h
      · cases h
      · split at h
        · obtain ⟨rest, hrest, rfl⟩ := Option.map_eq_some_iff.mp h
          obtain ⟨first, groups, hall, rfl⟩ := ih hrest
          refine ⟨[], (encoded :: first) :: groups, ?_, by simp⟩
          simp [hencode, hall]
        · obtain ⟨first, groups, hall, rfl⟩ := ih h
          refine ⟨encoded :: first, groups, ?_, by simp⟩
          simp [hencode, hall]

/-- Behind each other, the payloads are the encoded entries. -/
lemma packed_joined {entries : List OutEntry} {payloads : List Bytes}
    (h : packed encode admits blockSize entries [] = some payloads) :
    ∃ encoded, entries.mapM encode = some encoded ∧ payloads.flatten = encoded.flatten := by
  obtain ⟨first, groups, hentries, rfl⟩ := packed_groups h
  refine ⟨_, hentries, ?_⟩
  rw [List.nil_append, List.flatten_append, List.flatten_cons, List.flatten_flatten]

/-- With the size check, no payload is longer than a block. -/
theorem packed_length_le {entries : List OutEntry} {current : Bytes} {payloads : List Bytes}
    (h : packed encode (admitsUpTo blockSize) blockSize entries current = some payloads)
    (fits : current.length ≤ blockSize.toNat) : ∀ p ∈ payloads, p.length ≤ blockSize.toNat := by
  induction entries generalizing current payloads with
  | nil =>
    obtain rfl := Option.some.inj h
    simpa using fits
  | cons entry entries ih =>
    rw [packed] at h
    split at h
    · cases h
    · rename_i encoded _
      split at h
      · cases h
      · rename_i hadmits
        have hsize : (encoded.length : Int) ≤ blockSize := by
          simpa [admitsUpTo] using hadmits
        split at h
        · obtain ⟨rest, hrest, rfl⟩ := Option.map_eq_some_iff.mp h
          intro p hp
          rcases List.mem_cons.mp hp with rfl | hp
          · exact fits
          · exact ih hrest (by omega) p hp
        · rename_i hroom
          refine ih h ?_
          by_cases hnil : current = []
          · subst hnil
            simp only [List.nil_append]
            omega
          · have hsum : ¬ (current.length + encoded.length : Int) > blockSize :=
              fun hlong => hroom ⟨hnil, hlong⟩
            rw [List.length_append]
            omega

/-- What is packed depends on the encoder only through the entries that the check admits. -/
theorem packed_congr {encode' : OutEntry → Option Bytes} {entries : List OutEntry}
    (same : ∀ e ∈ entries, (encode e).filter admits = (encode' e).filter admits) (current : Bytes) :
    packed encode admits blockSize entries current =
      packed encode' admits blockSize entries current := by
  induction entries generalizing current with
  | nil => rfl
  | cons entry entries ih =>
    have hrest := ih fun e he => same e (List.mem_cons_of_mem _ he)
    have hentry := same entry List.mem_cons_self
    have hbind : ∀ (enc : OutEntry → Option Bytes),
        packed enc admits blockSize (entry :: entries) current =
          ((enc entry).filter admits).bind fun encoded =>
            if current ≠ [] ∧ (current.length + encoded.length : Int) > blockSize then
              (packed enc admits blockSize entries encoded).map (current :: ·)
            else packed enc admits blockSize entries (current ++ encoded) := by
      intro enc
      rw [packed]
      cases enc entry with
      | none => rfl
      | some encoded => by_cases hadmits : admits encoded <;> simp [Option.filter, hadmits]
    simp only [hbind, hentry, hrest]

end Packed

/-- The flags of a block say where it stands. -/
theorem closeAll_closeBlock (blocks : List Block) (payloads : List Bytes) :
    closeAll closeBlock blocks payloads = blocks ++ payloads.mapIdx fun i payload =>
      ⟨payload, 0, blocks.isEmpty && i == 0, i + 1 == payloads.length⟩ := by
  induction payloads generalizing blocks with
  | nil => simp [closeAll]
  | cons payload payloads ih =>
    cases payloads with
    | nil => simp [closeAll, closeBlock]
    | cons payload' payloads =>
      rw [closeAll, ih]
      simp [closeBlock, List.mapIdx_cons]

lemma be_two (n : Nat) : be 2 n = [UInt8.ofNat (n / 256 % 256), UInt8.ofNat (n % 256)] := rfl

lemma ofBe_two {n : Nat} (fits : n < 2 ^ 16) :
    ofBe [UInt8.ofNat (n / 256 % 256), UInt8.ofNat (n % 256)] = n :=
  ofBe_be (show n < 256 ^ 2 by omega)

/-- A block of the entry stream, as `split_blocks` returns it. -/
def Block.raw (b : Block) : RawBlock := ⟨blockIdEntry, b.first, b.last, b.payload⟩

theorem nextBlock_encodeBlock {b : Block} (stream : b.streamId = 0) {bytes : Bytes}
    (h : Python.encodeBlock b = some bytes) (rest : Bytes) :
    nextBlock (bytes ++ rest) = .ok (b.raw, rest) := by
  have hid : streamIdOf b.idByte = 0 ∧ decide (b.idByte &&& 0x40 ≠ 0) = b.first ∧
      decide (b.idByte &&& 0x80 ≠ 0) = b.last := by
    rw [Block.idByte, stream]
    cases b.first <;> cases b.last <;> decide
  rw [Python.encodeBlock] at h
  split at h
  · rename_i hfits
    obtain rfl := Option.some.inj h
    have hsize := ofBe_two hfits
    rw [be_two]
    simp only [List.cons_append, List.nil_append, nextBlock, hsize, hid]
    simp [Block.raw, blockIdEntry]
  · cases h

/-- What a parser returns for an entry. -/
def OutEntry.entry (e : OutEntry) : Entry := ⟨e.path, e.contentType.toNat, e.data⟩

section Entries

variable {path : Bytes → Except Failure String}

theorem nextEntry_encodeEntry (decodes : ∀ s, path (utf8 s) = .ok s) {e : OutEntry} {bytes : Bytes}
    (h : Python.encodeEntry e = some bytes) (rest : Bytes) :
    nextEntry path (bytes ++ rest) = .ok (e.entry, rest) := by
  simp only [Python.encodeEntry] at h
  split at h
  · cases h
  · rename_i hshort
    split at h
    · rename_i hfits
      obtain ⟨hdata, hlow, hhigh⟩ := hfits
      obtain rfl := Option.some.inj h
      have hsize := ofBe_two hdata
      have htype := ofBe_two (show e.contentType.toNat < 2 ^ 16 by omega)
      have hpath : (be 1 (utf8 e.path).length) = [UInt8.ofNat (utf8 e.path).length] := by
        simp [be, ClientCbor.ofNat_mod]
      have hcount : (UInt8.ofNat (utf8 e.path).length).toNat = (utf8 e.path).length := by
        rw [UInt8.toNat_ofNat']
        omega
      rw [be_two, be_two, hpath]
      simp only [List.cons_append, List.nil_append, nextEntry, hsize, htype, hcount]
      simp [decodes, OutEntry.entry]
    · cases h

/-- However the encoded entries are cut into payloads, they parse back to the entries. -/
theorem parseEntryBlocks_encoded (decodes : ∀ s, path (utf8 s) = .ok s) {entries : List OutEntry}
    {encoded payloads : List Bytes} (h : entries.mapM Python.encodeEntry = some encoded)
    (joined : payloads.flatten = encoded.flatten) :
    parseEntryBlocks path payloads = .ok (entries.map OutEntry.entry) := by
  rw [parseEntryBlocks, joined]
  refine readToEnd_flatten (nextEntry_consumes path) ?_
  rw [List.forall₂_map_left_iff]
  exact (forall₂_of_mapM h).imp fun _ _ hb => nextEntry_encodeEntry decodes hb.2

lemma entry_ofEntry {e : OutEntry} {bytes : Bytes} (h : Python.encodeEntry e = some bytes) :
    OutEntry.ofEntry e.entry = e := by
  simp only [Python.encodeEntry] at h
  split at h
  · cases h
  · split at h
    · rename_i hfits
      rw [OutEntry.entry, OutEntry.ofEntry, Int.toNat_of_nonneg hfits.2.1]
    · cases h

lemma entries_ofEntry {entries : List OutEntry} {encoded : List Bytes}
    (h : entries.mapM Python.encodeEntry = some encoded) :
    (entries.map OutEntry.entry).map OutEntry.ofEntry = entries := by
  have hall := (forall₂_of_mapM h).imp fun _ _ hb => hb.2
  clear h
  induction hall with
  | nil => rfl
  | cons hentry _ ih => rw [List.map_cons, List.map_cons, entry_ofEntry hentry, ih]

/-- An entry is encoded to exactly the bytes that it was parsed from, where paths are decoded
exactly. -/
theorem encodeEntry_nextEntry (decodes : ∀ b s, path b = .ok s → utf8 s = b) {b rest : Bytes}
    {e : Entry} (h : nextEntry path b = .ok (e, rest)) :
    ∃ bytes, Python.encodeEntry (.ofEntry e) = some bytes ∧ bytes ++ rest = b := by
  unfold nextEntry at h
  split at h
  · rename_i d1 d0 c1 c0 p tail
    simp only at h
    split at h
    · cases h
    · rename_i hlong
      split at h
      · cases h
      · rename_i text htext
        obtain ⟨rfl, rfl⟩ := Prod.mk.inj (Except.ok.inj h)
        have hpath := decodes _ _ htext
        have hpathLen : (utf8 text).length = p.toNat := by
          rw [hpath, List.length_take]
          omega
        have hdataLen : ((tail.drop p.toNat).take (ofBe [d1, d0])).length = ofBe [d1, d0] := by
          rw [List.length_take, List.length_drop]
          omega
        have hsize : be 2 (ofBe [d1, d0]) = [d1, d0] := be_ofBe [d1, d0]
        have htype : be 2 (ofBe [c1, c0]) = [c1, c0] := be_ofBe [c1, c0]
        have hcount : be 1 p.toNat = [p] := by
          rw [show p.toNat = ofBe [p] by simp [ofBe]]
          exact be_ofBe [p]
        have hshort : ¬ p.toNat > 255 := Nat.not_lt.mpr (Nat.le_of_lt_succ p.toNat_lt)
        have hfits : ofBe [d1, d0] < 2 ^ 16 ∧ (0 : Int) ≤ (ofBe [c1, c0] : Nat) ∧
            ((ofBe [c1, c0] : Nat) : Int) < 2 ^ 16 := by
          have hd := ofBe_lt [d1, d0]
          have hc := ofBe_lt [c1, c0]
          simp only [List.length_cons, List.length_nil] at hd hc
          omega
        refine ⟨[d1, d0, c1, c0, p] ++ utf8 text ++ (tail.drop p.toNat).take (ofBe [d1, d0]),
          ?_, ?_⟩
        · simp only [Python.encodeEntry, OutEntry.ofEntry, hpathLen, hdataLen, if_neg hshort,
            if_pos hfits, Int.toNat_natCast, hsize, htype, hcount]
          rfl
        · rw [hpath, List.append_assoc, List.take_append_drop, List.append_assoc,
            List.take_append_drop]
          rfl
  · cases h

/-- The entries that were parsed encode to exactly the joined payloads. -/
theorem encodeEntry_parseEntryBlocks (decodes : ∀ b s, path b = .ok s → utf8 s = b)
    {payloads : List Bytes} {entries : List Entry}
    (h : parseEntryBlocks path payloads = .ok entries) :
    ∃ encoded, entries.mapM (fun e => Python.encodeEntry (.ofEntry e)) = some encoded ∧
      encoded.flatten = payloads.flatten :=
  readToEnd_written (nextEntry_consumes path) (fun _ _ _ => encodeEntry_nextEntry decodes) h

end Entries

section RoundTrip

variable {py : Clients.Python}

/-- `cbor2` decodes what it encoded and reads nothing more. -/
def RoundTrips (py : Clients.Python) (obj : py.Obj) : Prop :=
  ∀ bytes rest, py.dumps obj = some bytes → py.loads (bytes ++ rest) = some (obj, bytes.length)

/-- The object of a plaintext header, `[1, [0, device_id]]`. -/
def plaintextObject (py : Clients.Python) (deviceId : py.Obj) : py.Obj :=
  py.ofList [py.ofInt 1, py.ofList [py.ofInt 0, deviceId]]

lemma encode_plaintext (deviceId : py.Obj) :
    py.encode (Python.plaintext py deviceId) = py.dumps (plaintextObject py deviceId) := rfl

theorem decode_plaintext (lawful : py.Lawful) {deviceId : py.Obj}
    (roundTrips : RoundTrips py (plaintextObject py deviceId)) {header : Bytes}
    (h : py.dumps (plaintextObject py deviceId) = some header) (rest : Bytes) :
    py.decode (header ++ rest) = .ok (Python.plaintext py deviceId, header.length) := by
  simp only [Clients.Python.decode, roundTrips header rest h]
  simp [plaintextObject, lawful.list_ofList, lawful.equalsInt_ofInt, Python.plaintext]

lemma path_utf8 (lawful : py.Lawful) (s : String) : py.framing.path (utf8 s) = .ok s := by
  simp only [Clients.Python.framing, lawful.utf8_utf8]

/-- What `build_entry_pouch` writes: the header, and the blocks of the packed payloads. -/
theorem buildEntryPouch_some {deviceId : py.Obj} {entries : List OutEntry} {blockSize : Int}
    {data : Bytes} (h : Python.buildEntryPouch py deviceId entries blockSize = some data) :
    ∃ payloads header blocks,
      packed Python.encodeEntry (admitsUpTo blockSize) blockSize entries [] = some payloads ∧
      py.dumps (plaintextObject py deviceId) = some header ∧
      (closeAll closeBlock [] payloads).mapM Python.encodeBlock = some blocks ∧
      data = header ++ blocks.flatten := by
  simp only [Python.buildEntryPouch, packFrom_eq, Option.bind_eq_bind, Option.bind_eq_some_iff,
    Option.map_eq_some_iff] at h
  obtain ⟨_, ⟨payloads, hpacked, rfl⟩, header, hheader, blocks, hblocks, heq⟩ := h
  exact ⟨payloads, header, blocks, hpacked, hheader, hblocks, (Option.some.inj heq).symm⟩

theorem splitBlocks_encoded {blocks : List Block} (stream : ∀ b ∈ blocks, b.streamId = 0)
    {encoded : List Bytes} (h : blocks.mapM Python.encodeBlock = some encoded) :
    splitBlocks encoded.flatten = .ok (blocks.map Block.raw) := by
  refine readToEnd_flatten nextBlock_consumes ?_
  rw [List.forall₂_map_left_iff]
  exact (forall₂_of_mapM h).imp fun b _ hb => nextBlock_encodeBlock (stream b hb.1) hb.2

/-- The payloads with the flags of their places, as `split_blocks` returns them. -/
def rawBlocks (payloads : List Bytes) : List RawBlock :=
  payloads.mapIdx fun i payload => ⟨blockIdEntry, i == 0, i + 1 == payloads.length, payload⟩

theorem splitBlocks_packed {payloads encoded : List Bytes}
    (h : (closeAll closeBlock [] payloads).mapM Python.encodeBlock = some encoded) :
    splitBlocks encoded.flatten = .ok (rawBlocks payloads) := by
  rw [closeAll_closeBlock, List.nil_append] at h
  rw [splitBlocks_encoded ?_ h]
  · congr 1
    apply List.ext_getElem?
    intro i
    simp only [rawBlocks, List.getElem?_map, List.getElem?_mapIdx, Option.map_map]
    rfl
  · intro b hb
    obtain ⟨i, _, rfl⟩ := List.mem_mapIdx.mp hb
    rfl

lemma rawBlocks_payloads (payloads : List Bytes) :
    (rawBlocks payloads).map RawBlock.payload = payloads := by
  apply List.ext_getElem?
  intro i
  simp only [rawBlocks, List.getElem?_map, List.getElem?_mapIdx, Option.map_map]
  exact Option.map_id'

lemma entryPayloads_rawBlocks (payloads : List Bytes) :
    entryPayloads (rawBlocks payloads) = payloads := by
  have hall : (rawBlocks payloads).filter (·.streamId = blockIdEntry) = rawBlocks payloads := by
    rw [List.filter_eq_self]
    intro b hb
    obtain ⟨i, _, rfl⟩ := List.mem_mapIdx.mp hb
    simp
  rw [entryPayloads, hall, rawBlocks_payloads]

end RoundTrip

/-- For every device id, list of entries and block size for which a pouch is built, it parses
back to the device id and exactly the entries. Its blocks are cut between whole encoded
entries, hold no more than the block size, and are flagged first and last exactly at the ends.
A negative block size admits no entry; the one block of such a pouch is empty. -/
theorem entry_pouch_round_trip {py : Clients.Python} (lawful : py.Lawful) (deviceId : py.Obj)
    (roundTrips : RoundTrips py (plaintextObject py deviceId)) (entries : List OutEntry)
    (blockSize : Int) (data : Bytes)
    (built : Python.buildEntryPouch py deviceId entries blockSize = some data) :
    (∃ parsed, parsePouch py.framing data = .ok (Python.plaintext py deviceId, parsed) ∧
      parsed.map OutEntry.ofEntry = entries) ∧
    ∃ (header : Bytes) (blocks : List RawBlock) (groups : List (List Bytes)),
      py.encode (Python.plaintext py deviceId) = some header ∧
      splitBlocks (data.drop header.length) = .ok blocks ∧ blocks ≠ [] ∧
      entries.mapM Python.encodeEntry = some groups.flatten ∧
      blocks.map RawBlock.payload = groups.map List.flatten ∧
      ∀ i b, blocks[i]? = some b → b.payload.length ≤ blockSize.toNat ∧
        (b.first ↔ i = 0) ∧ (b.last ↔ i + 1 = blocks.length) := by
  obtain ⟨payloads, header, encoded, hpacked, hheader, hencoded, rfl⟩ := buildEntryPouch_some built
  obtain ⟨first, groups, hentries, hpayloads⟩ := packed_groups hpacked
  have hsplit := splitBlocks_packed hencoded
  have hdecode := decode_plaintext lawful roundTrips hheader encoded.flatten
  have hsizes := packed_length_le hpacked (Nat.zero_le _)
  rw [List.nil_append] at hpayloads
  constructor
  · refine ⟨entries.map OutEntry.entry, ?_, entries_ofEntry hentries⟩
    obtain ⟨all, hall, hjoined⟩ := packed_joined hpacked
    have hparse := parseEntryBlocks_encoded (path_utf8 lawful) hall hjoined
    have hdecode' : py.framing.decode (header ++ encoded.flatten) =
        .ok (Python.plaintext py deviceId, header.length) := hdecode
    have hnone : py.framing.encryption (Python.plaintext py deviceId) = .none := rfl
    simp only [parsePouch, hdecode', List.drop_left, hsplit, hnone, ne_eq, not_true, if_false,
      entryPayloads_rawBlocks, hparse, Except.map]
  · refine ⟨header, rawBlocks payloads, first :: groups, hheader, ?_, ?_, hentries, ?_, ?_⟩
    · rw [List.drop_left]
      exact hsplit
    · rw [hpayloads]
      simp [rawBlocks]
    · rw [rawBlocks_payloads, hpayloads, List.map_cons]
    · intro i b hb
      have hlength : (rawBlocks payloads).length = payloads.length := by simp [rawBlocks]
      rw [rawBlocks, List.getElem?_mapIdx] at hb
      obtain ⟨payload, hpayload, rfl⟩ := Option.map_eq_some_iff.mp hb
      refine ⟨hsizes payload (List.mem_of_getElem? hpayload), ?_, ?_⟩
      · simp
      · simp [hlength]

/-- The reference objects round trip where the header has a canonical encoding. -/
lemma reference_roundTrips (prim : Primitives) {x : Cbor.Item} (ok : x.Ok)
    (short : (Cbor.encode x).length < 2 ^ 64) : RoundTrips (referencePython prim) x := by
  intro bytes rest hdumps
  obtain rfl := Option.some.inj hdumps
  exact referencePython_loads prim ok short rest

def sampleOut (b : UInt8) : OutEntry := ⟨"a", 60, [b]⟩

/-- Two entries of seven bytes, in blocks of eight. -/
def twoBlocks : Bytes :=
  [0x82, 0x01, 0x82, 0x00, 0x61, 0x64, 0x00, 0x08, 0x40, 0x00, 0x01, 0x00, 0x3c, 0x01, 0x61, 0x07,
    0x00, 0x08, 0x80, 0x00, 0x01, 0x00, 0x3c, 0x01, 0x61, 0x08]

theorem entry_pouch_round_trip_two :
    ∃ parsed, parsePouch (referencePython samplePrimitives).framing twoBlocks =
        .ok (Python.plaintext (referencePython samplePrimitives) (.tstr (utf8 "d")), parsed) ∧
      parsed.map OutEntry.ofEntry = [sampleOut 7, sampleOut 8] :=
  (entry_pouch_round_trip (referencePython_lawful samplePrimitives) (.tstr (utf8 "d"))
    (reference_roundTrips samplePrimitives
      ⟨show 1 < 2 ^ 64 by decide, ⟨show 0 < 2 ^ 64 by decide, trivial, trivial⟩, trivial⟩
      (by decide))
    [sampleOut 7, sampleOut 8] 8 twoBlocks (by decide)).1

/-- Where paths are decoded strictly, the entries returned for any payloads encode to exactly the
joined payloads, so that no other bytes have the same entries. -/
theorem parsed_entries_exact {py : Clients.Python}
    (strict : ∀ b s, py.utf8 b = some s → utf8 s = b) (payloads : List Bytes)
    (entries : List Entry) (parsed : parseEntryBlocks py.framing.path payloads = .ok entries) :
    (∃ encoded, entries.mapM (fun e => Python.encodeEntry (.ofEntry e)) = some encoded ∧
      encoded.flatten = payloads.flatten) ∧
    ∀ payloads', parseEntryBlocks py.framing.path payloads' = .ok entries →
      payloads'.flatten = payloads.flatten := by
  have hdecodes : ∀ b s, py.framing.path b = .ok s → utf8 s = b := by
    intro b s h
    simp only [Clients.Python.framing] at h
    cases hutf8 : py.utf8 b with
    | none =>
      rw [hutf8] at h
      cases h
    | some s' =>
      rw [hutf8] at h
      cases h
      exact strict b s hutf8
  obtain ⟨encoded, hencoded, hjoined⟩ := encodeEntry_parseEntryBlocks hdecodes parsed
  refine ⟨⟨encoded, hencoded, hjoined⟩, ?_⟩
  intro payloads' hparsed
  obtain ⟨encoded', hencoded', hjoined'⟩ := encodeEntry_parseEntryBlocks hdecodes hparsed
  rw [← hjoined', ← hjoined, Option.some.inj (hencoded'.symm.trans hencoded)]

/-- One entry, cut in the middle of its header. -/
theorem parsed_entries_exact_cut :
    (∃ encoded, [(sampleOut 7).entry].mapM (fun e => Python.encodeEntry (.ofEntry e)) =
        some encoded ∧ encoded.flatten = [0, 1, 0, 0x3c, 1, 0x61, 7]) ∧
    ∀ payloads', parseEntryBlocks (referencePython samplePrimitives).framing.path payloads' =
        .ok [(sampleOut 7).entry] → payloads'.flatten = [0, 1, 0, 0x3c, 1, 0x61, 7] :=
  @parsed_entries_exact (referencePython samplePrimitives)
    (fun _ _ h => utf8_of_utf8Decode h) [[0, 1, 0], [0x3c, 1, 0x61, 7]]
    [(sampleOut 7).entry] (by decide)

section Builders

variable {e : OutEntry} {blockSize : Nat}

lemma masked_nat {n : Nat} (fits : n < 2 ^ 16) : masked n = be 2 n := by
  have hmod : ((n : Int) % 2 ^ 16).toNat = n := by omega
  rw [masked, hmod]

/-- Where the size field of an entry would be cut, the entry is longer than any block. -/
lemma entries_agree (low : 0 ≤ e.contentType) (high : e.contentType < 2 ^ 16)
    (small : blockSize ≤ 65534) :
    (Python.encodeEntry e).filter (admitsUpTo blockSize) =
      (maskedEntry e).filter (admitsUpTo blockSize) := by
  by_cases hpath : (utf8 e.path).length > 255
  · simp only [Python.encodeEntry, maskedEntry, if_pos hpath, if_neg (Nat.not_le.mpr hpath)]
  · have hpath' : (utf8 e.path).length ≤ 255 := by omega
    by_cases hdata : e.data.length < 2 ^ 16
    · have htype : masked e.contentType = be 2 e.contentType.toNat := by
        have hcast := masked_nat (show e.contentType.toNat < 2 ^ 16 by omega)
        rwa [Int.toNat_of_nonneg low] at hcast
      simp only [Python.encodeEntry, maskedEntry, if_neg hpath, if_pos hpath',
        if_pos (⟨hdata, low, high⟩ : _ ∧ _ ∧ _), masked_nat hdata, htype]
    · have hlong : ∀ bytes : Bytes, 65535 ≤ bytes.length →
          admitsUpTo blockSize bytes = false := by
        intro bytes hbytes
        simp only [admitsUpTo, decide_eq_false_iff_not]
        omega
      have hpython : Python.encodeEntry e = none := by
        simp only [Python.encodeEntry, if_neg hpath]
        exact if_neg fun h => hdata h.1
      rw [hpython, maskedEntry]
      simp only [if_pos hpath', Option.filter]
      rw [hlong]
      · rfl
      · simp only [List.length_append]
        omega

lemma blocks_agree {b : Block} (fits : b.payload.length ≤ 65534) :
    Python.encodeBlock b = some (maskedBlock b) := by
  have hfits : b.payload.length + 1 < 2 ^ 16 := by omega
  have hmasked := masked_nat hfits
  rw [Int.natCast_add, Int.natCast_one] at hmasked
  rw [Python.encodeBlock, if_pos hfits, maskedBlock, hmasked]

lemma mapM_blocks_agree {blocks : List Block} (fits : ∀ b ∈ blocks, b.payload.length ≤ 65534) :
    blocks.mapM Python.encodeBlock = some (blocks.map maskedBlock) := by
  induction blocks with
  | nil => rfl
  | cons b blocks ih =>
    have hrest := ih fun b hb => fits b (List.mem_cons_of_mem _ hb)
    simp [blocks_agree (fits b List.mem_cons_self), hrest]

lemma closeBlock_payload {payloads : List Bytes} {b : Block}
    (h : b ∈ closeAll closeBlock [] payloads) : b.payload ∈ payloads := by
  rw [closeAll_closeBlock, List.nil_append] at h
  obtain ⟨i, hi, rfl⟩ := List.mem_mapIdx.mp h
  exact List.getElem_mem hi

/-- The Python client with the header of the others, written as they write it. -/
lemma python_eq_masked {py : Clients.Python} {deviceId : py.Obj} {header : Bytes}
    (hheader : py.dumps (plaintextObject py deviceId) = some header) {entries : List OutEntry}
    (types : ∀ e ∈ entries, 0 ≤ e.contentType ∧ e.contentType < 2 ^ 16)
    (small : blockSize ≤ 65534) :
    Python.buildEntryPouch py deviceId entries blockSize =
      maskedPouch header entries blockSize := by
  have hsame : packed Python.encodeEntry (admitsUpTo blockSize) blockSize entries [] =
      packed maskedEntry (admitsUpTo blockSize) blockSize entries [] :=
    packed_congr (fun e he => entries_agree (types e he).1 (types e he).2 small) []
  rw [Python.buildEntryPouch, maskedPouch, packFrom_eq, packFrom_eq, hsame, encode_plaintext,
    hheader]
  cases hpacked : packed maskedEntry (admitsUpTo blockSize) blockSize entries [] with
  | none => rfl
  | some payloads =>
    have hsizes := packed_length_le hpacked (Nat.zero_le _)
    have hblocks := mapM_blocks_agree fun b hb => by
      have hb' := hsizes b.payload (closeBlock_payload hb)
      rw [Int.toNat_natCast] at hb'
      exact Nat.le_trans hb' small
    simp [hblocks, List.flatMap_def]

end Builders

/-- The item of a plaintext header. -/
def plaintextItem (deviceId : String) : Cbor.Item :=
  .array [.uint 1, .array [.uint 0, .tstr (utf8 deviceId)]]

open ClientCbor in
/-- For every device id, all entries with content types of 16 bits and every block size that
leaves room for the id byte, the three clients build the same pouch or refuse together. -/
theorem builders_agree (py : Clients.Python) (str : String → py.Obj)
    (canonical : ∀ id, (utf8 id).length < 2 ^ 63 →
      py.dumps (plaintextObject py (str id)) = some (Cbor.encode (plaintextItem id)))
    (deviceId : String) (sized : (utf8 deviceId).length < 2 ^ 63) (entries : List OutEntry)
    (types : ∀ e ∈ entries, 0 ≤ e.contentType ∧ e.contentType < 2 ^ 16)
    (blockSize : Nat) (small : blockSize ≤ 65534) :
    Python.buildEntryPouch py (str deviceId) entries blockSize =
        Kotlin.buildEntryPouch deviceId entries blockSize ∧
      Kotlin.buildEntryPouch deviceId entries blockSize =
        Swift.buildEntryPouch deviceId entries blockSize := by
  have hsized : Sized (plaintextValue deviceId) :=
    ⟨by simp, trivial, ⟨by simp, trivial, sized, trivial⟩, trivial⟩
  have hitem : item (plaintextValue deviceId) = plaintextItem deviceId := rfl
  have hkotlin : ClientCbor.Kotlin.encode (plaintextValue deviceId) =
      Cbor.encode (plaintextItem deviceId) := by rw [Kotlin.encode_eq hsized, hitem]
  have hswift : ClientCbor.Swift.encode (plaintextValue deviceId) =
      Cbor.encode (plaintextItem deviceId) := by rw [Swift.encode_eq hsized, hitem]
  constructor
  · rw [python_eq_masked (canonical deviceId sized) types small, Kotlin.buildEntryPouch, hkotlin]
  · rw [Kotlin.buildEntryPouch, Swift.buildEntryPouch, hkotlin, hswift]

theorem builders_agree_two :
    Python.buildEntryPouch (referencePython samplePrimitives) (.tstr (utf8 "d"))
        [sampleOut 7, sampleOut 8] 8 = Kotlin.buildEntryPouch "d" [sampleOut 7, sampleOut 8] 8 ∧
      Kotlin.buildEntryPouch "d" [sampleOut 7, sampleOut 8] 8 =
        Swift.buildEntryPouch "d" [sampleOut 7, sampleOut 8] 8 :=
  builders_agree (referencePython samplePrimitives) (fun id => Cbor.Item.tstr (utf8 id))
    (fun _ _ => rfl) "d" (by decide) [sampleOut 7, sampleOut 8] (by decide) 8 (by decide)

end PouchBuild
