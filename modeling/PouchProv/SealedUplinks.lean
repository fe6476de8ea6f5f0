import PouchProv.Clients
import PouchProv.Runs

/-!
# Sealed uplinks

What the clients make of the pouches that the device sealed, when an attacker
delivers any bytes. The device seals a pouch as a chain of blocks: each has the
nonce of its place, and the tag of the block before it as associated data; only
the last one is flagged. The AEAD is ideal: under the keys of the device it opens
nothing but what the device sealed.

A client opens a chain from its first block on, so what it opens is the beginning
of one sealed pouch. It does not look at the flag of the last block, and it keeps
no record of the pouches that it has opened: a pouch is taken again when the bytes
that answer a later call begin as those of an earlier one did.
-/

namespace SealedUplinks

open Bytes PouchFrame Saead Clients Runs

structure SealedBlock where
  plaintext : Bytes
  sealed : Bytes
  deriving DecidableEq, Repr

/-- The flag `BLOCK_LAST` of an id byte. -/
def flaggedLast (plaintext : Bytes) : Bool :=
  match plaintext with
  | idByte :: _ => idByte &&& 0x80 ≠ 0
  | [] => false

/-- A pouch as the device sealed it, with its id as the two bytes of a nonce. -/
structure SealedPouch where
  algorithm : Algorithm
  key : Bytes
  pouchId : Bytes
  content : List SealedBlock
  nonempty : content ≠ []
  few : content.length ≤ 2 ^ 16
  tagged : ∀ b ∈ content, authTagLen ≤ b.sealed.length
  lastOnly : ∀ i b, content[i]? = some b → (flaggedLast b.plaintext ↔ i + 1 = content.length)

def nonceAt (pouchId : Bytes) (i : Nat) : Bytes :=
  pouchId ++ be 2 (i % 2 ^ 16) ++ [Role.device.code] ++ List.replicate 7 0

/-- The tag of the block before the one at the place. -/
def SealedPouch.tagBefore (p : SealedPouch) : Nat → Bytes
  | 0 => []
  | i + 1 => (p.content[i]?.map fun b => lastTag b.sealed).getD []

/-- The blocks with everything they were sealed under. -/
def SealedPouch.blocks (p : SealedPouch) : List Opened :=
  p.content.mapIdx fun i b =>
    ⟨p.algorithm, p.key, nonceAt p.pouchId i, b.sealed, p.tagBefore i, b.plaintext⟩

/-- The pouches that the device sealed. Two of them under one key and id have different tags
at every place; a device that never uses an id twice under a key is a special case. -/
structure Sealing where
  pouches : Set SealedPouch
  apart : ∀ p ∈ pouches, ∀ q ∈ pouches, p.key = q.key → p.pouchId = q.pouchId →
    ∀ (i : Nat) (b c : SealedBlock), p.content[i]? = some b → q.content[i]? = some c →
      lastTag b.sealed = lastTag c.sealed → p = q

/-- Under a key of the device nothing is opened but a block that the device sealed, under its
nonce and with its associated data. -/
def Ideal (prim : Primitives) (serverPrivate devicePublic : Bytes) (d : Sealing) : Prop :=
  ∀ (sessionId : Bytes) (log : String) (o : Opened),
    o.key = deriveSessionKey prim serverPrivate devicePublic sessionId .device o.algorithm log →
    prim.aeadOpen o.algorithm o.key o.nonce o.sealed o.aad = some o.plaintext →
    ∃ p ∈ d.pouches, o ∈ p.blocks

/-- What the three clients agree on: an opened block was opened by the AEAD, a tag is the end
of its block, and a nonce has the pouch id and the place. -/
structure Regular (f : Framing) : Prop where
  opens : ∀ algorithm key nonce sealed aad plaintext,
    f.openSealed algorithm key nonce sealed aad = .ok plaintext →
    f.prim.aeadOpen algorithm key nonce sealed aad = some plaintext
  tag : ∀ sealed tag, f.tag sealed = .ok tag → tag = lastTag sealed
  nonce : ∀ h, ∃ pouchId, ∀ i nonce, f.nonce h i = .ok nonce → nonce = nonceAt pouchId i

theorem python_regular (py : Python) : Regular py.framing := by
  constructor
  · intro algorithm key nonce sealed aad plaintext h
    simp only [Python.framing] at h
    split at h
    · cases h
    · next hopen =>
      cases h
      exact hopen
  · intro sealed tag h
    cases h
    rfl
  · intro h
    refine ⟨(py.pack h.pouchId).getD [], ?_⟩
    intro i nonce hnonce
    simp only [Python.framing, Python.nonce] at hnonce
    split at hnonce
    · cases hnonce
    · next id hid =>
      split at hnonce
      · next hsmall =>
        cases hnonce
        rw [hid, nonceAt, Nat.mod_eq_of_lt hsmall]
        rfl
      · cases hnonce

theorem kotlin_regular (k : Kotlin) : Regular k.framing := by
  constructor
  · intro algorithm key nonce sealed aad plaintext h
    simp only [Kotlin.framing] at h
    split at h
    · cases h
    · next hopen =>
      cases h
      exact hopen
  · intro sealed tag h
    simp only [Kotlin.framing] at h
    split at h
    · cases h
    · cases h
      rfl
  · intro h
    refine ⟨be 2 (h.pouchId.toInt % 2 ^ 16).toNat, ?_⟩
    intro i nonce hnonce
    cases hnonce
    rfl

theorem swift_regular (sw : Swift) : Regular sw.framing := by
  constructor
  · intro algorithm key nonce sealed aad plaintext h
    simp only [Swift.framing] at h
    split at h
    · cases h
    · split at h
      · cases h
      · next hopen =>
        cases h
        exact hopen
  · intro sealed tag h
    cases h
    rfl
  · intro h
    refine ⟨be 2 (h.pouchId.toInt % 2 ^ 16).toNat, ?_⟩
    intro i nonce hnonce
    cases hnonce
    rfl

theorem client_regular (c : Client) : Regular c.framing := by
  cases c with
  | python py => exact python_regular py
  | kotlin k => exact kotlin_regular k
  | swift sw => exact swift_regular sw

theorem nonceAt_inj {a b : Bytes} {i j : Nat} (h : nonceAt a i = nonceAt b j) :
    a = b ∧ i % 2 ^ 16 = j % 2 ^ 16 := by
  simp only [nonceAt, List.append_assoc] at h
  have hlen : a.length = b.length := by
    have := congrArg List.length h
    simpa using this
  obtain ⟨hid, hrest⟩ := List.append_inj h hlen
  obtain ⟨hplace, -⟩ := List.append_inj hrest (by simp)
  have hi := ofBe_be (w := 2) (n := i % 2 ^ 16) (Nat.mod_lt _ (by decide))
  have hj := ofBe_be (w := 2) (n := j % 2 ^ 16) (Nat.mod_lt _ (by decide))
  exact ⟨hid, hi.symm.trans ((congrArg ofBe hplace).trans hj)⟩

theorem lastTag_ne_nil {sealed : Bytes} (h : authTagLen ≤ sealed.length) : lastTag sealed ≠ [] := by
  intro hnil
  have hlen := congrArg List.length hnil
  rw [lastTag, List.length_drop, List.length_nil] at hlen
  have hpos : 0 < authTagLen := by decide
  omega

/-- A block of a pouch stands at one place, with the nonce and the tag of that place. -/
theorem mem_blocks {p : SealedPouch} {o : Opened} (h : o ∈ p.blocks) :
    ∃ i b, p.content[i]? = some b ∧ o = ⟨p.algorithm, p.key, nonceAt p.pouchId i, b.sealed,
      p.tagBefore i, b.plaintext⟩ := by
  obtain ⟨i, hi, rfl⟩ := List.mem_iff_getElem.mp h
  have hlen : i < p.content.length := by simpa [SealedPouch.blocks] using hi
  exact ⟨i, p.content[i], List.getElem?_eq_getElem hlen, by simp [SealedPouch.blocks]⟩

theorem blocks_getElem? (p : SealedPouch) (i : Nat) :
    p.blocks[i]? = p.content[i]?.map fun b =>
      ⟨p.algorithm, p.key, nonceAt p.pouchId i, b.sealed, p.tagBefore i, b.plaintext⟩ := by
  simp [SealedPouch.blocks]

section Delivered

variable {f : Framing} {d : Sealing} {h : f.Header} {up : SessionState}

/-- The blocks of the chain were sealed by the device. -/
def FromDevice (d : Sealing) (os : List Opened) : Prop := ∀ o ∈ os, ∃ p ∈ d.pouches, o ∈ p.blocks

/-- Behind the first blocks of a pouch, only the next block of that pouch can be opened. -/
theorem next_block {pouchId : Bytes}
    (id : ∀ i nonce, f.nonce h i = .ok nonce → nonce = nonceAt pouchId i)
    {p : SealedPouch} (hp : p ∈ d.pouches) (hkey : p.key = up.key) (hid : p.pouchId = pouchId)
    {i : Nat} {before : SealedBlock} (hbefore : p.content[i]? = some before) {o : Opened}
    (sealed : ∃ q ∈ d.pouches, o ∈ q.blocks) (okey : o.key = up.key)
    (nonce : f.nonce h (i + 1) = .ok o.nonce) (aad : o.aad = lastTag before.sealed) :
    p.blocks[i + 1]? = some o := by
  obtain ⟨q, hq, ho⟩ := sealed
  obtain ⟨k, c, hc, rfl⟩ := mem_blocks ho
  obtain ⟨hqid, hplace⟩ := nonceAt_inj (id _ _ nonce)
  have hk : k < q.content.length := (List.getElem?_eq_some_iff.mp hc).1
  have hi : i < p.content.length := (List.getElem?_eq_some_iff.mp hbefore).1
  have hkfew := q.few
  have hifew := p.few
  -- the associated data is a tag, so the block is not the first of its pouch
  cases k with
  | zero =>
    have htag := p.tagged before (List.mem_of_getElem? hbefore)
    exact absurd aad.symm (lastTag_ne_nil htag)
  | succ k =>
    have hkfit : (k + 1) % 2 ^ 16 = k + 1 := Nat.mod_eq_of_lt (by omega)
    rw [hkfit] at hplace
    have hki : k = i := by
      rcases Nat.lt_or_ge (i + 1) (2 ^ 16) with hsmall | hlarge
      · rw [Nat.mod_eq_of_lt hsmall] at hplace
        omega
      · have hwrap : i + 1 = 2 ^ 16 := by omega
        rw [hwrap, Nat.mod_self] at hplace
        omega
    subst hki
    have hprev := List.getElem?_eq_getElem (show k < q.content.length by omega)
    have hpq : p = q := by
      refine d.apart p hp q hq (hkey.trans okey.symm) (hid.trans hqid.symm) k before _ hbefore
        hprev ?_
      simpa [SealedPouch.tagBefore, hprev] using aad.symm
    subst hpq
    rw [blocks_getElem?, hc]
    rfl

/-- The content behind a block of a pouch. -/
theorem content_of_block {p : SealedPouch} {i : Nat} {o : Opened} (h : p.blocks[i]? = some o) :
    ∃ b, p.content[i]? = some b ∧ b.sealed = o.sealed ∧ o.key = p.key ∧
      o.nonce = nonceAt p.pouchId i := by
  rw [blocks_getElem?] at h
  obtain ⟨b, hb, rfl⟩ := Option.map_eq_some_iff.mp h
  exact ⟨b, hb, rfl, rfl, rfl⟩

theorem drop_of_block {p : SealedPouch} {i : Nat} {o : Opened} (h : p.blocks[i]? = some o) :
    p.blocks.drop i = o :: p.blocks.drop (i + 1) := by
  obtain ⟨hlt, rfl⟩ := List.getElem?_eq_some_iff.mp h
  exact List.drop_eq_getElem_cons hlt

theorem rest_prefix (regular : Regular f) {pouchId : Bytes}
    (id : ∀ i nonce, f.nonce h i = .ok nonce → nonce = nonceAt pouchId i)
    {p : SealedPouch} (hp : p ∈ d.pouches) (hkey : p.key = up.key) (hid : p.pouchId = pouchId)
    (os : List Opened) {i : Nat} {before : SealedBlock} (hbefore : p.content[i]? = some before)
    (chain : Chain f h up (i + 1) (lastTag before.sealed) os) (sealed : FromDevice d os) :
    os <+: p.blocks.drop (i + 1) := by
  induction os generalizing i before with
  | nil => exact List.nil_prefix
  | cons o os ih =>
    cases chain with
    | cons key algorithm nonce aad opens tagged rest =>
      have hblock := next_block id hp hkey hid hbefore (sealed o List.mem_cons_self) key nonce aad
      obtain ⟨b, hb, hsealed, -, -⟩ := content_of_block hblock
      rw [regular.tag _ _ tagged, ← hsealed] at rest
      rw [drop_of_block hblock]
      have hrest := ih hb rest fun o' ho' => sealed o' (List.mem_cons_of_mem _ ho')
      exact (List.prefix_cons_inj o).mpr hrest

/-- What is opened for one pouch is the beginning of a pouch that the device sealed. -/
theorem chain_prefix (regular : Regular f) {os : List Opened} (chain : Chain f h up 0 [] os)
    (sealed : FromDevice d os) (opened : os ≠ []) : ∃ p ∈ d.pouches, os <+: p.blocks := by
  obtain ⟨pouchId, id⟩ := regular.nonce h
  cases chain with
  | nil => exact absurd rfl opened
  | @cons _ _ tag o os key algorithm nonce aad opens tagged rest =>
    obtain ⟨p, hp, ho⟩ := sealed o List.mem_cons_self
    obtain ⟨k, b, hb, rfl⟩ := mem_blocks ho
    obtain ⟨hid, hplace⟩ := nonceAt_inj (id _ _ nonce)
    have hk : k < p.content.length := (List.getElem?_eq_some_iff.mp hb).1
    have hkfew := p.few
    have hzero : k = 0 := by
      rw [Nat.mod_eq_of_lt (show k < 2 ^ 16 by omega)] at hplace
      exact hplace
    subst hzero
    refine ⟨p, hp, ?_⟩
    rw [regular.tag _ _ tagged] at rest
    have hrest := rest_prefix regular id hp key hid os hb rest
      fun o' ho' => sealed o' (List.mem_cons_of_mem _ ho')
    have hblock : p.blocks[0]? = some ⟨p.algorithm, p.key, nonceAt p.pouchId 0, b.sealed,
        p.tagBefore 0, b.plaintext⟩ := by
      rw [blocks_getElem?, hb]
      rfl
    rw [← List.drop_zero (l := p.blocks), drop_of_block hblock]
    exact (List.prefix_cons_inj _).mpr hrest

end Delivered

/-- The entry bytes of some blocks. -/
def payloads (os : List Opened) : List Bytes := os.filterMap fun o => openedPayload o.plaintext

/-- The entries of a whole pouch. -/
def EntriesOf (f : Framing) (p : SealedPouch) (entries : List Entry) : Prop :=
  parseEntryBlocks f.path (payloads p.blocks) = .ok entries

theorem fromDevice_of_chain {f : Framing} (regular : Regular f) {d : Sealing} {s : SaeadSession}
    (ideal : Ideal f.prim s.serverPrivate s.devicePublic d) {h : f.Header} {up : SessionState}
    (key : ∃ sessionId log, up.key = deriveSessionKey f.prim s.serverPrivate s.devicePublic
      sessionId .device up.algorithm log) {i : Nat} {tag : Bytes} {os : List Opened}
    (chain : Chain f h up i tag os) : FromDevice d os := by
  intro o ho
  obtain ⟨sessionId, log, hup⟩ := key
  obtain ⟨hkey, halg, hopen⟩ := chain.opens_of_mem ho
  exact ideal sessionId log o (by rw [hkey, halg, hup]) (regular.opens _ _ _ _ _ _ hopen)

/-- How the bytes of an encrypted pouch begin: the key and the nonce that the header gives for the
first block, and that block. -/
structure Start where
  key : Bytes
  nonce : Bytes
  sealed : Bytes
  deriving DecidableEq, Repr

def start (f : Framing) (s : SaeadSession) (data : Bytes) : Option Start :=
  match f.decode data with
  | .error _ => none
  | .ok (h, consumed) =>
    if f.encryption h ≠ .saead then none
    else
      match f.uplink h with
      | .error _ => none
      | .ok info =>
        match info.log, f.nonce h 0, f.nextSealed (data.drop consumed) with
        | .ok log, .ok nonce, .ok (sealed, _) =>
          some ⟨deriveSessionKey f.prim s.serverPrivate s.devicePublic info.sessionId .device
            info.algorithm log, nonce, sealed⟩
        | _, _, _ => none

theorem start_sameKeys {f : Framing} {s s' : SaeadSession} (same : SameKeys s s') (data : Bytes) :
    start f s data = start f s' data := by
  rw [start, start, same.serverPrivate, same.devicePublic]

/-- The start of a block that was opened first. -/
def startOf (o : Opened) : Start := ⟨o.key, o.nonce, o.sealed⟩

/-- Blocks that were opened for some bytes begin as the bytes do. -/
theorem start_of_framed {f : Framing} {s : SaeadSession} {data : Bytes} {h : f.Header}
    {up : SessionState} {os : List Opened} (framed : Framed f s data h up (os.map Opened.sealed))
    (chain : Chain f h up 0 [] os) (opened : os ≠ []) : start f s data = os.head?.map startOf := by
  obtain ⟨info, log, hinfo, hlog, rfl⟩ := framed.session
  obtain ⟨consumed, hdecode, hcut⟩ := framed.split
  cases chain with
  | nil => exact absurd rfl opened
  | @cons _ _ tag o os key algorithm nonce aad opens tagged rest =>
    cases hblocks : data.drop consumed with
    | nil =>
      rw [hblocks] at hcut
      cases hcut
    | cons b bs =>
      rw [hblocks, List.length_cons, sealedBlocks] at hcut
      cases hnext : f.nextSealed (b :: bs) with
      | error e =>
        rw [hnext] at hcut
        cases hcut
      | ok cut =>
        rw [hnext] at hcut
        cases hrest : sealedBlocks f bs.length cut.2 with
        | error e =>
          simp only [hrest] at hcut
          cases hcut
        | ok blocks =>
          simp only [hrest] at hcut
          obtain ⟨hfirst, -⟩ := List.cons.inj (Except.ok.inj hcut)
          simp only [start, hdecode, framed.encryption, hinfo, hlog, nonce, hblocks, hnext,
            List.head?_cons, Option.map_some, startOf, key, ← hfirst]
          rfl

/-- What a client makes of any delivered bytes: the sealed blocks that stand in them are the first
blocks of one sealed pouch, and the entries are those of these blocks. -/
theorem parseUplinkPouch_prefix {f : Framing} (regular : Regular f) {d : Sealing}
    {s s' : SaeadSession} (ideal : Ideal f.prim s.serverPrivate s.devicePublic d) {data : Bytes}
    {entries : List Entry} (run : parseUplinkPouch f data s = (.ok entries, s'))
    (nonempty : entries ≠ []) :
    ∃ p ∈ d.pouches, ∃ delivered missing, p.blocks = delivered ++ missing ∧ delivered ≠ [] ∧
      s'.opened = delivered.reverse ++ s.opened ∧
      (∃ h up, Framed f s data h up (delivered.map Opened.sealed)) ∧
      start f s data = delivered.head?.map startOf ∧
      parseEntryBlocks f.path (payloads delivered) = .ok entries := by
  obtain ⟨h, up, os, rfl, hframed, hchain, hentries⟩ := parseUplinkPouch_chain run
  rw [openedPayloads_reverse] at hentries
  have hopened : os ≠ [] := by
    rintro rfl
    exact nonempty (Except.ok.inj hentries).symm
  obtain ⟨p, hp, missing, hmissing⟩ :=
    chain_prefix regular hchain (fromDevice_of_chain regular ideal hframed.key hchain) hopened
  exact ⟨p, hp, os, missing, hmissing.symm, hopened, rfl, ⟨h, up, hframed⟩,
    start_of_framed hframed hchain hopened, hentries⟩

/-- The block that is flagged is the last one. -/
theorem missing_nil_of_flagged {p : SealedPouch} {delivered missing : List Opened}
    (split : p.blocks = delivered ++ missing) {o : Opened} (ho : o ∈ delivered)
    (flagged : flaggedLast o.plaintext) : missing = [] := by
  obtain ⟨i, hi, rfl⟩ := List.mem_iff_getElem.mp ho
  have hblock : p.blocks[i]? = some delivered[i] := by
    rw [split, List.getElem?_append_left hi]
    exact List.getElem?_eq_getElem hi
  rw [blocks_getElem?] at hblock
  obtain ⟨b, hb, heq⟩ := Option.map_eq_some_iff.mp hblock
  rw [← heq] at flagged
  have hlast := (p.lastOnly i b hb).mp flagged
  have hlen : p.content.length = delivered.length + missing.length := by
    rw [← List.length_append, ← split]
    simp [SealedPouch.blocks]
  exact List.eq_nil_of_length_eq_zero (by omega)

/-- The sealed blocks in the bytes from which a client returns entries are the first blocks of one
sealed pouch, and the entries are all those of the pouch exactly when its other blocks carry no
entry bytes, in particular when the block flagged as the last one did arrive. -/
theorem uplink_complete_iff (c : Client) (d : Sealing) (s s' : SaeadSession) (data : Bytes)
    (entries : List Entry) (ideal : Ideal c.framing.prim s.serverPrivate s.devicePublic d)
    (run : parseUplinkPouch c.framing data s = (.ok entries, s')) (nonempty : entries ≠ []) :
    ∃ p ∈ d.pouches, ∃ delivered missing, p.blocks = delivered ++ missing ∧
      (∃ h up, Framed c.framing s data h up (delivered.map Opened.sealed)) ∧
      s'.opened = delivered.reverse ++ s.opened ∧
      (EntriesOf c.framing p entries ↔ (payloads missing).flatten = []) ∧
      ((∃ o ∈ delivered, flaggedLast o.plaintext) → EntriesOf c.framing p entries) := by
  obtain ⟨p, hp, delivered, missing, hsplit, -, hopened, hframed, -, hentries⟩ :=
    parseUplinkPouch_prefix (client_regular c) ideal run nonempty
  have hiff : EntriesOf c.framing p entries ↔ (payloads missing).flatten = [] := by
    rw [EntriesOf, hsplit, payloads, List.filterMap_append]
    exact parseEntryBlocks_append_eq_iff hentries
  refine ⟨p, hp, delivered, missing, hsplit, hframed, hopened, hiff, ?_⟩
  rintro ⟨o, ho, hflagged⟩
  rw [hiff, missing_nil_of_flagged hsplit ho hflagged]
  rfl

/-- An entry with the path `a` and one byte of data. -/
def sampleEntry (b : UInt8) : Bytes := be 2 1 ++ be 2 60 ++ [1, 0x61, b]

def firstBlock : SealedBlock where
  plaintext := 0x40 :: sampleEntry 1
  sealed := 0x40 :: sampleEntry 1 ++ List.replicate authTagLen 0xa0

def lastBlock : SealedBlock where
  plaintext := 0x80 :: sampleEntry 2
  sealed := 0x80 :: sampleEntry 2 ++ List.replicate authTagLen 0xa1

theorem sample_lastOnly (i : Nat) (b : SealedBlock) (h : [firstBlock, lastBlock][i]? = some b) :
    flaggedLast b.plaintext ↔ i + 1 = [firstBlock, lastBlock].length := by
  rcases i with _ | _ | i
  · cases h
    decide
  · cases h
    decide
  · cases h

/-- Two blocks with an entry each. -/
def samplePouch : SealedPouch where
  algorithm := .chacha20Poly1305
  key := List.replicate 32 0
  pouchId := be 2 0
  content := [firstBlock, lastBlock]
  nonempty := List.cons_ne_nil _ _
  few := by decide
  tagged := by decide
  lastOnly := sample_lastOnly

def sampleSealing : Sealing where
  pouches p := p = samplePouch
  apart := fun _ hp _ hq _ _ _ _ _ _ _ _ => Eq.trans hp (Eq.symm hq)

/-- The AEAD that opens the blocks of the sample pouch, and a constant key derivation. -/
def idealPrimitives : Primitives where
  exchange _ _ := []
  hkdf _ _ length := List.replicate length 0
  aeadOpen algorithm key nonce sealed aad :=
    (samplePouch.blocks.find? fun o => o.algorithm = algorithm ∧ o.key = key ∧ o.nonce = nonce ∧
      o.sealed = sealed ∧ o.aad = aad).map Opened.plaintext

theorem sample_ideal (serverPrivate devicePublic : Bytes) :
    Ideal idealPrimitives serverPrivate devicePublic sampleSealing := by
  rintro sessionId log ⟨algorithm, key, nonce, sealed, aad, plaintext⟩ - hopen
  obtain ⟨o, ho, rfl⟩ := Option.map_eq_some_iff.mp hopen
  have hfields := List.find?_some ho
  obtain ⟨rfl, rfl, rfl, rfl, rfl⟩ := of_decide_eq_true hfields
  exact ⟨samplePouch, rfl, List.mem_of_find?_eq_some ho⟩

def idealPython : Client := .python { samplePython with prim := idealPrimitives }

def idealKotlin : Client := .kotlin { sampleKotlin with prim := idealPrimitives }

def idealSwift : Client := .swift { sampleSwift with prim := idealPrimitives }

/-- The header of the sample pouch. -/
def sealedHeader : Bytes :=
  Cbor.encode (.array [.uint 1, .array [.uint 1,
    .array [.array [.bstr [5]], .uint 0, .uint 1, .uint 9, .bstr []], .uint 0]])

def onWire (b : SealedBlock) : Bytes := be 2 b.sealed.length ++ b.sealed

def wholePouch : Bytes := sealedHeader ++ onWire firstBlock ++ onWire lastBlock

def truncatedPouch : Bytes := sealedHeader ++ onWire firstBlock

theorem uplink_complete_iff_whole :
    (parseUplinkPouch idealPython.framing wholePouch sampleSession).1 =
      .ok [⟨"a", 60, [1]⟩, ⟨"a", 60, [2]⟩] ∧
    ∃ p ∈ sampleSealing.pouches, ∃ delivered missing, p.blocks = delivered ++ missing ∧
      (∃ h up, Framed idealPython.framing sampleSession wholePouch h up
        (delivered.map Opened.sealed)) ∧
      (parseUplinkPouch idealPython.framing wholePouch sampleSession).2.opened =
        delivered.reverse ++ sampleSession.opened ∧
      (EntriesOf idealPython.framing p [⟨"a", 60, [1]⟩, ⟨"a", 60, [2]⟩] ↔
        (payloads missing).flatten = []) ∧
      ((∃ o ∈ delivered, flaggedLast o.plaintext) →
        EntriesOf idealPython.framing p [⟨"a", 60, [1]⟩, ⟨"a", 60, [2]⟩]) := by
  have hentries : (parseUplinkPouch idealPython.framing wholePouch sampleSession).1 =
      .ok [⟨"a", 60, [1]⟩, ⟨"a", 60, [2]⟩] := by decide +kernel
  refine ⟨hentries, uplink_complete_iff idealPython sampleSealing sampleSession _ wholePouch _
    (sample_ideal _ _) (Prod.ext hentries rfl) (List.cons_ne_nil _ _)⟩

/-- Whatever is delivered, the entries that are returned are all entries of a sealed pouch. -/
def Untruncated (f : Framing) (d : Sealing) (s : SaeadSession) : Prop :=
  ∀ data entries s', parseUplinkPouch f data s = (.ok entries, s') → entries ≠ [] →
    ∃ p ∈ d.pouches, EntriesOf f p entries

theorem truncated_of_parse {f : Framing} {s : SaeadSession}
    (parsed : (parseUplinkPouch f truncatedPouch s).1 = .ok [⟨"a", 60, [1]⟩])
    (whole : parseEntryBlocks f.path (payloads samplePouch.blocks) ≠ .ok [⟨"a", 60, [1]⟩]) :
    ¬ Untruncated f sampleSealing s := by
  intro h
  obtain ⟨p, rfl, hentries⟩ := h truncatedPouch _ _ (Prod.ext parsed rfl) (List.cons_ne_nil _ _)
  exact whole hentries

/-- Without its last block the pouch is taken by each of the clients. -/
theorem truncated_uplink_accepted :
    Ideal idealPrimitives [1] [2] sampleSealing ∧
    ¬ Untruncated idealPython.framing sampleSealing sampleSession ∧
    ¬ Untruncated idealKotlin.framing sampleSealing sampleSession ∧
    ¬ Untruncated idealSwift.framing sampleSealing sampleSession := by
  refine ⟨sample_ideal _ _, ?_, ?_, ?_⟩
  · exact truncated_of_parse (by decide +kernel) (by decide +kernel)
  · exact truncated_of_parse (by decide +kernel) (by decide +kernel)
  · exact truncated_of_parse (by decide +kernel) (by decide +kernel)

section Replay

variable (f : Framing)

/-- One call of `request_entries`: how the sending ends, and what each poll receives. -/
structure Call where
  sent : Except Failure Unit
  received : Nat → Except Failure Bytes
  pollAttempts : Nat

/-- The session before the poll that ends the call with entries. -/
def answeringSession (received : Nat → Except Failure Bytes) : (attempts i : Nat) →
    ProvSession f → Option SaeadSession
  | 0, _, _ => none
  | n + 1, i, ps =>
    match received i with
    | .error _ => none
    | .ok data =>
      match parseResponse f data ps.saead with
      | (.error _, _) => none
      | (.ok (h, rsp), s) =>
        if rsp ≠ [] then some ps.saead
        else answeringSession received n (i + 1) ⟨s, f.deviceId h ps.deviceId⟩

/-- The blocks that were opened for the response of a call, newest first. A response without
encryption has none. -/
def blocksBehind (c : Call) (ps ps' : ProvSession f) : List Opened :=
  match answeringSession f c.received c.pollAttempts 0 ps with
  | some s => ps'.saead.opened.take (ps'.saead.opened.length - s.opened.length)
  | none => []

/-- The entries in the delivered bytes, for a session with these keys. -/
def carried (s : SaeadSession) (data : Bytes) : Except Failure (List Entry) :=
  (parseResponse f data s).1.map Prod.snd

/-- The first delivered bytes that carry entries, where those before them carry none. -/
def firstCarrying (s : SaeadSession) (received : Nat → Except Failure Bytes) :
    (attempts i : Nat) → Option Bytes
  | 0, _ => none
  | n + 1, i =>
    match received i with
    | .error _ => none
    | .ok data =>
      match carried f s data with
      | .error _ => none
      | .ok [] => firstCarrying s received n (i + 1)
      | .ok (_ :: _) => some data

/-- The delivered bytes that answer a call. -/
def response (s : SaeadSession) (c : Call) : Option Bytes :=
  match c.sent with
  | .error _ => none
  | .ok () => firstCarrying f s c.received c.pollAttempts 0

/-- A response that was returned: the bytes that were delivered, and the blocks behind it. -/
structure Answer where
  delivered : Bytes
  blocks : List Opened
  deriving DecidableEq, Repr

/-- A session, with the responses that it has returned. -/
structure Answers where
  ps : ProvSession f
  answered : List Answer

def call (a : Answers f) (c : Call) : Answers f :=
  match requestEntries f c.sent c.received c.pollAttempts a.ps, response f a.ps.saead c with
  | (.ok _, ps), some data => ⟨ps, ⟨data, blocksBehind f c a.ps ps⟩ :: a.answered⟩
  | (_, ps), _ => { a with ps := ps }

variable {f}

/-- The blocks are the first ones of the pouch. -/
def From (p : SealedPouch) (bs : List Opened) : Prop := bs ≠ [] ∧ bs.reverse <+: p.blocks

/-- A sealed pouch that is the response of the call was the response of no earlier one. -/
def AcceptedOnce (d : Sealing) (a : Answers f) (c : Call) : Prop :=
  ∀ entries ps', requestEntries f c.sent c.received c.pollAttempts a.ps = (.ok entries, ps') →
    ∀ p ∈ d.pouches, From p (blocksBehind f c a.ps ps') → ∀ r ∈ a.answered, ¬ From p r.blocks

/-- The bytes that answer the call do not begin as the bytes that answered an earlier one. -/
def NotReplayed (a : Answers f) (c : Call) : Prop :=
  ∀ data, response f a.ps.saead c = some data → ∀ r ∈ a.answered, ∀ first,
    start f a.ps.saead r.delivered = some first → start f a.ps.saead data ≠ some first

theorem carried_of_parse {s s₀ s' : SaeadSession} (same : SameKeys s₀ s) {data : Bytes}
    {result : Except Failure (f.Header × List Entry)}
    (run : parseResponse f data s = (result, s')) :
    carried f s₀ data = result.map Prod.snd := by
  rw [carried, parseResponse_result same, run]

theorem Extends.sameKeys {s s₀ s' : SaeadSession} (same : SameKeys s₀ s) (h : Extends s s') :
    SameKeys s₀ s' :=
  ⟨same.serverPrivate.trans h.serverPrivate.symm, same.devicePublic.trans h.devicePublic.symm⟩

/-- The poll that ends a call, and the bytes that it receives. -/
theorem poll_answers {received : Nat → Except Failure Bytes} {n i : Nat} {ps ps' : ProvSession f}
    {s₀ : SaeadSession} (same : SameKeys s₀ ps.saead) {entries : List Entry}
    (run : poll f received n i ps = (.ok entries, ps')) :
    entries ≠ [] ∧ ∃ s data h, answeringSession f received n i ps = some s ∧
      firstCarrying f s₀ received n i = some data ∧
      Extends ps.saead s ∧ parseResponse f data s = (.ok (h, entries), ps'.saead) := by
  induction n generalizing i ps with
  | zero => simp [poll] at run
  | succ n ih =>
    cases hdata : received i with
    | error e => simp [poll, hdata] at run
    | ok data =>
      rcases hparse : parseResponse f data ps.saead with ⟨e | ⟨h, rsp⟩, s⟩
      · simp [poll, hdata, hparse] at run
      · have hcarried := carried_of_parse same hparse
        simp only [poll, hdata, hparse] at run
        cases rsp with
        | cons entry rest =>
          rw [if_pos (List.cons_ne_nil _ _)] at run
          obtain ⟨hresult, rfl⟩ := Prod.mk.inj run
          obtain rfl := Except.ok.inj hresult
          refine ⟨List.cons_ne_nil _ _, ps.saead, data, h, ?_, ?_, .refl _, hparse⟩
          · simp only [answeringSession, hdata, hparse, if_pos (List.cons_ne_nil entry rest)]
          · simp only [firstCarrying, hdata, hcarried, Except.map]
        | nil =>
          rw [if_neg (not_not.mpr rfl)] at run
          have hfirst := parseResponse_extends (f := f) data ps.saead
          rw [hparse] at hfirst
          obtain ⟨hentries, s', data', h', hanswer, hbytes, hext, hparse'⟩ :=
            ih (Extends.sameKeys same hfirst) run
          refine ⟨hentries, s', data', h', ?_, ?_, hfirst.trans hext, hparse'⟩
          · simp only [answeringSession, hdata, hparse, ne_eq, not_true_eq_false, if_false]
            exact hanswer
          · simp only [firstCarrying, hdata, hcarried, Except.map]
            exact hbytes

/-- Bytes that carry entries end the polling. -/
theorem poll_of_firstCarrying {received : Nat → Except Failure Bytes} {n i : Nat}
    {ps : ProvSession f} {s₀ : SaeadSession} (same : SameKeys s₀ ps.saead) {data : Bytes}
    (first : firstCarrying f s₀ received n i = some data) :
    ∃ entries ps', poll f received n i ps = (.ok entries, ps') := by
  induction n generalizing i ps with
  | zero => cases first
  | succ n ih =>
    cases hdata : received i with
    | error e => simp [firstCarrying, hdata] at first
    | ok data' =>
      rcases hparse : parseResponse f data' ps.saead with ⟨e | ⟨h, rsp⟩, s⟩
      · have hcarried := carried_of_parse same hparse
        simp [firstCarrying, hdata, hcarried, Except.map] at first
      · have hcarried := carried_of_parse same hparse
        cases rsp with
        | cons entry rest =>
          refine ⟨entry :: rest, ⟨s, f.deviceId h ps.deviceId⟩, ?_⟩
          simp only [poll, hdata, hparse, if_pos (List.cons_ne_nil entry rest)]
        | nil =>
          simp only [firstCarrying, hdata, hcarried, Except.map] at first
          have hext := parseResponse_extends (f := f) data' ps.saead
          rw [hparse] at hext
          obtain ⟨entries, ps', hrun⟩ : ∃ entries ps', poll f received n (i + 1)
              ⟨s, f.deviceId h ps.deviceId⟩ = (.ok entries, ps') :=
            ih (Extends.sameKeys same hext) first
          refine ⟨entries, ps', ?_⟩
          simp only [poll, hdata, hparse, ne_eq, not_true_eq_false, if_false]
          exact hrun

/-- A response with entries is without encryption, or an encrypted pouch that was parsed. -/
theorem parseResponse_source {data : Bytes} {s s' : SaeadSession} {h : f.Header}
    {entries : List Entry} (run : parseResponse f data s = (.ok (h, entries), s'))
    (nonempty : entries ≠ []) :
    (s' = s ∧ start f s data = none) ∨ parseUplinkPouch f data s = (.ok entries, s') := by
  simp only [parseResponse] at run
  split at run
  · simp at run
  · rename_i hdecode
    split at run
    · split at run
      · simp at run
      · split at run
        · simp at run
        · rename_i hparse
          obtain ⟨hresult, rfl⟩ := Prod.mk.inj run
          obtain ⟨-, rfl⟩ := Prod.mk.inj (Except.ok.inj hresult)
          exact Or.inr hparse
      · obtain ⟨hresult, -⟩ := Prod.mk.inj run
        obtain ⟨-, rfl⟩ := Prod.mk.inj (Except.ok.inj hresult)
        exact absurd rfl nonempty
    · rename_i hplain
      obtain ⟨-, rfl⟩ := Prod.mk.inj run
      refine Or.inl ⟨rfl, ?_⟩
      simp only [start, hdecode, if_pos hplain]

section Session

variable {d : Sealing} {serverPrivate devicePublic : Bytes}

theorem requestEntries_answers {c : Call} {ps ps' : ProvSession f} {entries : List Entry}
    (run : requestEntries f c.sent c.received c.pollAttempts ps = (.ok entries, ps')) :
    entries ≠ [] ∧ ∃ s data h,
      answeringSession f c.received c.pollAttempts 0 ps = some s ∧
      response f ps.saead c = some data ∧
      Extends ps.saead s ∧ parseResponse f data s = (.ok (h, entries), ps'.saead) := by
  cases hsent : c.sent with
  | error e => simp [requestEntries, hsent] at run
  | ok u =>
    rw [hsent] at run
    simp only [response, hsent]
    exact poll_answers ⟨rfl, rfl⟩ run

theorem requestEntries_of_response {c : Call} {ps : ProvSession f} {data : Bytes}
    (answer : response f ps.saead c = some data) :
    ∃ entries ps', requestEntries f c.sent c.received c.pollAttempts ps = (.ok entries, ps') := by
  cases hsent : c.sent with
  | error e => simp [response, hsent] at answer
  | ok u =>
    simp only [response, hsent] at answer
    exact poll_of_firstCarrying ⟨rfl, rfl⟩ answer

/-- The blocks are those of the response in the bytes: there are none in a response without
encryption, and else they are the first blocks of a sealed pouch. -/
structure Behind (d : Sealing) (f : Framing) (s : SaeadSession) (r : Answer) : Prop where
  sealed : r.blocks = [] ∨ ∃ p ∈ d.pouches, From p r.blocks
  first : start f s r.delivered = r.blocks.getLast?.map startOf

theorem blocksBehind_from (regular : Regular f)
    (ideal : Ideal f.prim serverPrivate devicePublic d) {c : Call} {ps ps' : ProvSession f}
    (hserver : ps.saead.serverPrivate = serverPrivate)
    (hdevice : ps.saead.devicePublic = devicePublic) {entries : List Entry}
    (run : requestEntries f c.sent c.received c.pollAttempts ps = (.ok entries, ps')) :
    ∃ data, response f ps.saead c = some data ∧
      Behind d f ps.saead ⟨data, blocksBehind f c ps ps'⟩ := by
  obtain ⟨hne, s, data, h, hanswer, hresponse, hext, hparse⟩ := requestEntries_answers run
  refine ⟨data, hresponse, ?_⟩
  have hstart : start f ps.saead data = start f s data :=
    start_sameKeys (Extends.sameKeys ⟨rfl, rfl⟩ hext) data
  rw [blocksBehind, hanswer]
  rcases parseResponse_source hparse hne with ⟨hsame, hnone⟩ | hrun
  · simp only [hsame, Nat.sub_self, List.take_zero]
    exact ⟨.inl rfl, hstart.trans hnone⟩
  · have hideal : Ideal f.prim s.serverPrivate s.devicePublic d := by
      rw [hext.serverPrivate, hext.devicePublic, hserver, hdevice]
      exact ideal
    obtain ⟨p, hp, delivered, missing, hsplit, hdelivered, hopened, -, hfirst, -⟩ :=
      parseUplinkPouch_prefix regular hideal hrun hne
    have htake : ps'.saead.opened.take (ps'.saead.opened.length - s.opened.length) =
        delivered.reverse := by
      rw [hopened, List.length_append, Nat.add_sub_cancel]
      exact List.take_left
    simp only [htake]
    refine ⟨.inr ⟨p, hp, List.reverse_ne_nil_iff.mpr hdelivered, ?_⟩, ?_⟩
    · rw [List.reverse_reverse, hsplit]
      exact List.prefix_append _ _
    · rw [List.getLast?_reverse]
      exact hstart.trans hfirst

/-- Blocks of a pouch begin with its first block. -/
theorem From.first {p : SealedPouch} {bs : List Opened} (h : From p bs) :
    bs.getLast? = p.blocks[0]? := by
  obtain ⟨hne, rest, hrest⟩ := h
  have hpos : 0 < bs.reverse.length := by
    rw [List.length_reverse]
    exact List.length_pos_iff.mpr hne
  rw [← hrest, List.getElem?_append_left hpos, List.getLast?_eq_head?_reverse,
    List.head?_eq_getElem?]

/-- The start of the first block tells which pouch it is. -/
theorem pouch_of_start {p q : SealedPouch} (hp : p ∈ d.pouches) (hq : q ∈ d.pouches)
    {first : Start} (hpo : p.blocks[0]?.map startOf = some first)
    (hqo : q.blocks[0]?.map startOf = some first) : p = q := by
  obtain ⟨o, ho, rfl⟩ := Option.map_eq_some_iff.mp hpo
  obtain ⟨o', ho', hsame⟩ := Option.map_eq_some_iff.mp hqo
  obtain ⟨hkey, hnonce, hsealed⟩ := Start.mk.inj hsame
  obtain ⟨b, hb, hbo, hpkey, hpnonce⟩ := content_of_block ho
  obtain ⟨c, hc, hco, hqkey, hqnonce⟩ := content_of_block ho'
  have hid := (nonceAt_inj (hpnonce.symm.trans (hnonce.symm.trans hqnonce))).1
  refine d.apart p hp q hq (hpkey.symm.trans (hkey.symm.trans hqkey)) hid 0 b c hb hc ?_
  rw [hbo, hco, hsealed]

/-- What has been returned so far came without encryption or from sealed pouches. -/
structure Known (d : Sealing) (serverPrivate devicePublic : Bytes) (a : Answers f) : Prop where
  serverPrivate : a.ps.saead.serverPrivate = serverPrivate
  devicePublic : a.ps.saead.devicePublic = devicePublic
  answered : ∀ r ∈ a.answered, Behind d f a.ps.saead r

theorem Behind.of_extends {s s' : SaeadSession} {r : Answer} (behind : Behind d f s r)
    (h : Extends s s') : Behind d f s' r :=
  ⟨behind.sealed, (start_sameKeys (Extends.sameKeys ⟨rfl, rfl⟩ h) _).symm.trans behind.first⟩

theorem requestEntries_extends (c : Call) (ps : ProvSession f) :
    Extends ps.saead (requestEntries f c.sent c.received c.pollAttempts ps).2.saead := by
  cases hsent : c.sent with
  | error e => exact .refl _
  | ok u => exact poll_extends c.received c.pollAttempts 0 ps

theorem call_known (regular : Regular f) (ideal : Ideal f.prim serverPrivate devicePublic d)
    (a : Answers f) (c : Call) (h : Known d serverPrivate devicePublic a) :
    Known d serverPrivate devicePublic (call f a c) := by
  have hext := requestEntries_extends c a.ps
  rcases hrun : requestEntries f c.sent c.received c.pollAttempts a.ps with ⟨e | entries, ps⟩
  · rw [hrun] at hext
    simp only [call, hrun]
    exact ⟨hext.serverPrivate.trans h.serverPrivate, hext.devicePublic.trans h.devicePublic,
      fun r hr => (h.answered r hr).of_extends hext⟩
  · rw [hrun] at hext
    obtain ⟨data, hresponse, hbehind⟩ :=
      blocksBehind_from regular ideal h.serverPrivate h.devicePublic hrun
    simp only [call, hrun, hresponse]
    refine ⟨hext.serverPrivate.trans h.serverPrivate, hext.devicePublic.trans h.devicePublic, ?_⟩
    intro r hr
    rcases List.mem_cons.mp hr with rfl | hr
    · exact hbehind.of_extends hext
    · exact (h.answered r hr).of_extends hext

/-- The pouch behind an answer with encryption. -/
theorem Behind.pouch {s : SaeadSession} {r : Answer} (behind : Behind d f s r) {first : Start}
    (h : start f s r.delivered = some first) :
    ∃ p ∈ d.pouches, From p r.blocks ∧ p.blocks[0]?.map startOf = some first := by
  have hlast := behind.first.symm.trans h
  rcases behind.sealed with hnil | ⟨p, hp, hfrom⟩
  · rw [hnil] at hlast
    cases hlast
  · exact ⟨p, hp, hfrom, hfrom.first ▸ hlast⟩

/-- A pouch is the response of two calls exactly when the bytes that answer the later call begin
as those that answered the earlier one. -/
theorem acceptedOnce_iff (regular : Regular f) (ideal : Ideal f.prim serverPrivate devicePublic d)
    (a : Answers f) (c : Call) (h : Known d serverPrivate devicePublic a) :
    AcceptedOnce d a c ↔ NotReplayed a c := by
  constructor
  · intro honce data hdata r hr first hfirst hsame
    obtain ⟨entries, ps', hrun⟩ := requestEntries_of_response hdata
    obtain ⟨data', hdata', hbehind⟩ :=
      blocksBehind_from regular ideal h.serverPrivate h.devicePublic hrun
    obtain rfl := Option.some.inj (hdata.symm.trans hdata')
    obtain ⟨q, hq, hfrom, hqfirst⟩ := hbehind.pouch hsame
    obtain ⟨p, hp, hfrom', hpfirst⟩ := (h.answered r hr).pouch hfirst
    have hpq : p = q := pouch_of_start hp hq hpfirst hqfirst
    exact honce entries ps' hrun q hq hfrom r hr (hpq ▸ hfrom')
  · intro hfresh entries ps' hrun p _ hfrom r hr hfrom'
    obtain ⟨data, hdata, hbehind⟩ :=
      blocksBehind_from regular ideal h.serverPrivate h.devicePublic hrun
    have hlast : r.blocks.getLast? = some (r.blocks.getLast hfrom'.1) :=
      List.getLast?_eq_some_getLast hfrom'.1
    have hearlier := (h.answered r hr).first
    rw [hlast] at hearlier
    have hsame := hfrom.first.trans (hfrom'.first.symm.trans hlast)
    refine hfresh data hdata r hr _ hearlier ?_
    exact hbehind.first.trans (congrArg (Option.map startOf) hsame)

end Session

end Replay

/-- Over the calls of one session of any client, a sealed pouch is the response of at most one
call exactly when the bytes that answer a call never begin as those that answered an earlier one,
with the same key, nonce and sealed block. -/
theorem responses_accepted_once_iff (c : Client) (d : Sealing) (ps : ProvSession c.framing)
    (ideal : Ideal c.framing.prim ps.saead.serverPrivate ps.saead.devicePublic d)
    (calls : List Call) :
    Each (call c.framing) (AcceptedOnce d) ⟨ps, []⟩ calls ↔
      Each (call c.framing) NotReplayed ⟨ps, []⟩ calls := by
  have hregular := client_regular c
  have hstart : Known d ps.saead.serverPrivate ps.saead.devicePublic
      (⟨ps, []⟩ : Answers c.framing) :=
    ⟨rfl, rfl, fun r hr => absurd hr List.not_mem_nil⟩
  exact each_iff_each (fun a c h _ => call_known hregular ideal a c h)
    (fun a c h => acceptedOnce_iff hregular ideal a c h) hstart calls

/-- A call that is answered with the given bytes at its first poll. -/
def answeredWith (data : Bytes) : Call := ⟨.ok (), fun _ => .ok data, 5⟩

theorem responses_accepted_once_iff_single :
    (call idealPython.framing ⟨⟨sampleSession, Cbor.Item.uint 0⟩, []⟩
      (answeredWith wholePouch)).answered = [⟨wholePouch, samplePouch.blocks.reverse⟩] ∧
    (Each (call idealPython.framing) (AcceptedOnce sampleSealing)
      ⟨⟨sampleSession, Cbor.Item.uint 0⟩, []⟩ [answeredWith wholePouch] ↔
    Each (call idealPython.framing) NotReplayed
      ⟨⟨sampleSession, Cbor.Item.uint 0⟩, []⟩ [answeredWith wholePouch]) :=
  ⟨by decide +kernel, responses_accepted_once_iff idealPython sampleSealing _ (sample_ideal _ _) _⟩

theorem replayed_of_answers {f : Framing} {ps : ProvSession f} {c : Call} (entries : List Entry)
    (first : (call f ⟨ps, []⟩ c).answered = [⟨wholePouch, samplePouch.blocks.reverse⟩])
    (second : (requestEntries f c.sent c.received c.pollAttempts (call f ⟨ps, []⟩ c).ps).1 =
      .ok entries)
    (behind : blocksBehind f c (call f ⟨ps, []⟩ c).ps
      (requestEntries f c.sent c.received c.pollAttempts (call f ⟨ps, []⟩ c).ps).2 =
        samplePouch.blocks.reverse) :
    ¬ Each (call f) (AcceptedOnce sampleSealing) ⟨ps, []⟩ [c, c] := by
  rintro ⟨-, h, -⟩
  have hfrom : From samplePouch samplePouch.blocks.reverse :=
    ⟨by decide, [], by rw [List.append_nil, List.reverse_reverse]⟩
  have hnew := h entries _ (Prod.ext second rfl) samplePouch rfl (by rw [behind]; exact hfrom)
  exact hnew _ (by rw [first]; exact List.mem_singleton_self _) hfrom

/-- Each of the clients takes the same sealed pouch as the response of two calls. -/
theorem replayed_response_accepted :
    Ideal idealPrimitives [1] [2] sampleSealing ∧
    ¬ Each (call idealPython.framing) (AcceptedOnce sampleSealing)
      ⟨⟨sampleSession, Cbor.Item.uint 0⟩, []⟩ [answeredWith wholePouch, answeredWith wholePouch] ∧
    ¬ Each (call idealKotlin.framing) (AcceptedOnce sampleSealing)
      ⟨⟨sampleSession, ""⟩, []⟩ [answeredWith wholePouch, answeredWith wholePouch] ∧
    ¬ Each (call idealSwift.framing) (AcceptedOnce sampleSealing)
      ⟨⟨sampleSession, ""⟩, []⟩ [answeredWith wholePouch, answeredWith wholePouch] := by
  refine ⟨sample_ideal _ _, ?_, ?_, ?_⟩
  · exact replayed_of_answers [⟨"a", 60, [1]⟩, ⟨"a", 60, [2]⟩] (by decide +kernel)
      (by decide +kernel) (by decide +kernel)
  · exact replayed_of_answers [⟨"a", 60, [1]⟩, ⟨"a", 60, [2]⟩] (by decide +kernel)
      (by decide +kernel) (by decide +kernel)
  · exact replayed_of_answers [⟨"a", 60, [1]⟩, ⟨"a", 60, [2]⟩] (by decide +kernel)
      (by decide +kernel) (by decide +kernel)

end SealedUplinks
