import PouchProv.MockSar
import PouchProv.Runs
import PouchProv.SaeadFrames

/-!
# Requests over the mock device

`MockDeviceTransport` of `mock.py` behind `ProvSession` of `session.py`. A request
goes through all layers of the client: the entry is packed into a pouch, sealed if
the session is encrypted, and cut into fragments; the device puts it together,
hands it to its handler, and answers the same way in a later cycle.

Above this stands `Rpc`, a device without a transport: a list of answers that were
not fetched yet, and the number of cycles for which the device still pretends to be
busy. The whole stack behaves like it.
-/

namespace MockDevice

open Sar MockSar PouchFrame PouchBuild Saead SaeadFrames Runs

/-- What does not change while both ends run: the AEAD, the handler of the mock, its device id
and its window, the text `"?"` of the client, and the bounds of the SAR loops. -/
structure Setup (py : Clients.Python) (σ : Type) where
  aeadSeal : AeadSeal
  handler : σ → String → Bytes → Option Bytes × σ
  deviceId : py.Obj
  window : Nat
  placeholder : py.Obj
  fuel : Nat
  patience : Nat

/-- What changes in a `MockDeviceTransport`; `σ` is what the handler keeps. -/
structure Mock (σ : Type) where
  saead : Option Device
  storedServerCert : Option Bytes
  defer : Nat
  responses : List Entry
  app : σ

/-- `CONTENT_TYPE_CBOR` -/
def contentTypeCbor : Nat := 60

/-- `bytes(range(16))` -/
def uplinkSid : Bytes := (List.range 16).map UInt8.ofNat

/-- The fragments of the mock: `244 - sar.HEADER_LEN`. -/
def mockFrag : Nat := 244 - headerLen

variable {py : Clients.Python} {σ : Type}

/-- An entry is handed to the handler, and the answer waits for the next cycle. -/
def serve (x : Setup py σ) (m : Mock σ) (e : Entry) : Mock σ :=
  let r := x.handler m.app e.path e.data
  { m with
    app := r.2
    responses := m.responses ++ (r.1.map fun rsp => ⟨e.path, e.contentType, rsp⟩).toList }

def openDownlink (py : Clients.Python) (m : Mock σ) (data : Bytes) : Except Failure (List Entry) :=
  match m.saead with
  | some d => decryptDownlink py d data
  | none => (parsePouch py.framing data).map Prod.snd

/-- `_process_request`. It runs inside the write of the FIN, whose exceptions the client drops. -/
def processRequest (x : Setup py σ) (m : Mock σ) (data : Bytes) : Mock σ :=
  match openDownlink py m data with
  | .error _ => m
  | .ok entries => entries.foldl (serve x) m

/-- `encrypt_uplink`: all entries in one block with the id byte `0xC0`. -/
def encryptEntries (x : Setup py σ) (d : Device) (entries : List Entry) : Option Bytes :=
  (entries.mapM fun e => Python.encodeEntry (.ofEntry e)).bind fun encoded =>
    encryptUplink py x.aeadSeal d uplinkSid 1 [(0xC0, encoded.flatten)]

/-- `Pouch(PouchHeader(ENCRYPTION_NONE, device_id), [Block(b"")]).encode()` -/
def emptyPouch (x : Setup py σ) : Option Bytes := do
  let header ← py.encode (Python.plaintext py x.deviceId)
  let block ← Python.encodeBlock ⟨[], 0, true, true⟩
  some (header ++ block)

/-- The pouch of an uplink cycle. -/
def uplinkPouch (x : Setup py σ) (saead : Option Device) (entries : List Entry) : Option Bytes :=
  match saead with
  | some d =>
    if entries ≠ [] then encryptEntries x d entries
    else py.encode (saeadHeader py (d.info py uplinkSid) 1)
  | none =>
    if entries ≠ [] then Python.buildEntryPouch py x.deviceId (entries.map .ofEntry) 512
    else emptyPouch x

/-- The entries that `_ul_open` takes. -/
def takeResponses (m : Mock σ) : List Entry × Mock σ :=
  if m.defer > 0 then ([], { m with defer := m.defer - 1 })
  else (m.responses, { m with responses := [] })

/-- `_ul_open` -/
def ulOpen (x : Setup py σ) (m : Mock σ) : Option Bytes × Mock σ :=
  let r := takeResponses m
  (uplinkPouch x m.saead r.1, r.2)

/-- `SaeadSession` with both directions. -/
structure Crypto where
  session : SaeadSession
  certRef : Bytes
  algorithm : Algorithm
  blockLog : Int

def Crypto.sender (k : Crypto) : Sender :=
  ⟨k.session.serverPrivate, k.session.devicePublic, k.certRef, k.algorithm, k.blockLog⟩

/-- `ProvSession` -/
structure Session (py : Clients.Python) where
  tx : SarSender
  saead : Option Crypto
  deviceId : py.Obj
  blockSize : Int

/-- Both ends. -/
structure World (py : Clients.Python) (σ : Type) where
  session : Session py
  device : Mock σ

/-- A call of `request`, with the random session id that an encrypted pouch is given. -/
structure Req where
  path : String
  msg : Bytes
  sessionId : Bytes

def Req.entry (q : Req) : Entry := ⟨q.path, contentTypeCbor, q.msg⟩

/-- `self.device_id or "?"` -/
def Session.name (x : Setup py σ) (c : Session py) : py.Obj :=
  if py.truthy c.deviceId then c.deviceId else x.placeholder

def Session.frame (x : Setup py σ) (c : Session py) (sessionId : Bytes) (entries : List OutEntry) :
    Option Bytes :=
  match c.saead with
  | some k => buildDownlinkPouch py x.aeadSeal k.sender sessionId entries 0 c.blockSize
  | none => Python.buildEntryPouch py (c.name x) entries c.blockSize

/-- `_send_pouch` -/
def sendPouch (x : Setup py σ) (sessionId : Bytes) (entries : List OutEntry) (w : World py σ) :
    Except Failure Unit × World py σ :=
  match w.session.frame x sessionId entries with
  | none => (.error .other, w)
  | some data =>
    let r := sarWrite w.session.tx x.window data x.fuel
    let w := { w with device := r.2.delivered.foldl (processRequest x) w.device }
    match r.1 with
    | .returned () => (.ok (), w)
    | _ => (.error .other, w)

/-- The window of the client, by default. -/
def clientWindow : SarReceiver := ⟨8, by decide⟩

/-- What `_receive_pouch` makes of the bytes. -/
def Session.parse (c : Session py) (data : Bytes) :
    Except Failure (py.PouchHeader × List Entry) × Session py :=
  match c.saead with
  | some k =>
    let r := parseResponse py.framing data k.session
    (r.1, { c with saead := some { k with session := r.2 } })
  | none => (parsePouch py.framing data, c)

/-- `_receive_pouch` -/
def receivePouch (x : Setup py σ) (w : World py σ) :
    Except Failure (py.PouchHeader × List Entry) × World py σ :=
  let r := ulOpen x w.device
  match r.1 with
  | none => (.error .other, { w with device := r.2 })
  | some sent =>
    match sarRead clientWindow mockFrag sent x.fuel x.patience with
    | .returned data =>
      let p := w.session.parse data
      (p.1, ⟨p.2, r.2⟩)
    | _ => (.error .other, { w with device := r.2 })

/-- The polling loop of `request_entries`. -/
def poll (x : Setup py σ) : Nat → World py σ → Except Failure (List Entry) × World py σ
  | 0, w => (.error (.session "no response after retries"), w)
  | n + 1, w =>
    let r := receivePouch x w
    match r.1 with
    | .error e => (.error e, r.2)
    | .ok (h, rsp) =>
      let session := { r.2.session with
        deviceId := py.framing.deviceId h r.2.session.deviceId }
      let w := { r.2 with session := session }
      if rsp ≠ [] then (.ok rsp, w) else poll x n w

def pollAttempts : Nat := 5

def requestEntries (x : Setup py σ) (sessionId : Bytes) (entries : List OutEntry)
    (w : World py σ) : Except Failure (List Entry) × World py σ :=
  match sendPouch x sessionId entries w with
  | (.error e, w) => (.error e, w)
  | (.ok (), w) => poll x pollAttempts w

/-- The first entry on the path. -/
def pick (path : String) (entries : List Entry) : Except Failure Bytes :=
  match entries.find? fun e => e.path = path with
  | some e => .ok e.data
  | none => .error (.session ("no response entry for " ++ path))

def request (x : Setup py σ) (w : World py σ) (q : Req) : Except Failure Bytes × World py σ :=
  match requestEntries x q.sessionId [.ofEntry q.entry] w with
  | (.error e, w) => (.error e, w)
  | (.ok entries, w) => (pick q.path entries, w)

/-- The answers that were not fetched yet, and the cycles that go by without an answer. -/
structure Rpc (σ : Type) where
  pending : List Entry
  defer : Nat
  app : σ

def Rpc.answered (handler : σ → String → Bytes → Option Bytes × σ) (r : Rpc σ) (q : Req) :
    List Entry :=
  r.pending ++ ((handler r.app q.path q.msg).1.map fun rsp =>
    ⟨q.path, contentTypeCbor, rsp⟩).toList

/-- A request gives up when the device stays busy or has nothing to say; otherwise all that
waits is fetched, and the first answer on the path is the result. -/
def Rpc.request (handler : σ → String → Bytes → Option Bytes × σ) (r : Rpc σ) (q : Req) :
    Except Failure Bytes × Rpc σ :=
  let pending := r.answered handler q
  let app := (handler r.app q.path q.msg).2
  if pollAttempts ≤ r.defer ∨ pending = [] then
    (.error (.session "no response after retries"), ⟨pending, r.defer - pollAttempts, app⟩)
  else (pick q.path pending, ⟨[], 0, app⟩)

/-- What the handler sees and the client can fetch. -/
def World.rpc (w : World py σ) : Rpc σ := ⟨w.device.responses, w.device.defer, w.device.app⟩

/-- Both ends frame alike: neither encrypts, or both have the same secret and AEAD. -/
inductive Paired (py : Clients.Python) : Option Crypto → Option Device → Prop where
  | plain : Paired py none none
  | sealed {k : Crypto} {d : Device}
      (shared : SharedSecret py.prim k.session.serverPrivate k.session.devicePublic d)
      (same : d.algorithm = k.algorithm) : Paired py (some k) (some d)

/-- The header of a request pouch, as `cbor2` sees it. -/
def downHeader (x : Setup py σ) (c : Session py) (sessionId : Bytes) : py.Obj :=
  match c.saead with
  | some k => saeadObject py (k.sender.info py sessionId) 0
  | none => plaintextObject py (c.name x)

/-- The header of an answer. -/
def upHeader (x : Setup py σ) (saead : Option Device) : py.Obj :=
  match saead with
  | some d => saeadObject py (d.info py uplinkSid) 1
  | none => plaintextObject py x.deviceId

section Pouches

lemma ofEntry_injective : Function.Injective OutEntry.ofEntry := by
  rintro ⟨path, type, data⟩ ⟨path', type', data'⟩ h
  obtain ⟨hpath, htype, hdata⟩ := OutEntry.mk.inj h
  exact Entry.mk.injEq .. ▸ ⟨hpath, Int.ofNat_inj.mp htype, hdata⟩

lemma parsed_eq {parsed entries : List Entry}
    (h : parsed.map OutEntry.ofEntry = entries.map OutEntry.ofEntry) : parsed = entries :=
  List.map_injective_iff.mpr ofEntry_injective h

lemma parsePouch_built (lawful : py.Lawful) {deviceId : py.Obj}
    (reads : RoundTrips py (plaintextObject py deviceId)) {entries : List Entry} {blockSize : Int}
    {data : Bytes}
    (built : Python.buildEntryPouch py deviceId (entries.map .ofEntry) blockSize = some data) :
    parsePouch py.framing data = .ok (Python.plaintext py deviceId, entries) := by
  obtain ⟨payloads, header, encoded, hpacked, hheader, hencoded, rfl⟩ := buildEntryPouch_some built
  obtain ⟨all, hall, hjoined⟩ := packed_joined hpacked
  have hparse := parseEntryBlocks_encoded (path_utf8 lawful) hall hjoined
  have hentries := parsed_eq (entries_ofEntry hall)
  have hdecode : py.framing.decode (header ++ encoded.flatten) =
      .ok (Python.plaintext py deviceId, header.length) :=
    decode_plaintext lawful reads hheader encoded.flatten
  have hnone : py.framing.encryption (Python.plaintext py deviceId) = .none := rfl
  simp only [parsePouch, hdecode, List.drop_left, splitBlocks_packed hencoded, hnone, ne_eq,
    not_true, if_false, entryPayloads_rawBlocks, hparse, hentries, Except.map]

lemma openDownlink_frame (lawful : py.Lawful) {x : Setup py σ}
    (inverts : Inverts py.prim x.aeadSeal) {c : Session py} {m : Mock σ}
    (paired : Paired py c.saead m.saead) {sessionId : Bytes}
    (reads : RoundTrips py (downHeader x c sessionId)) {entries : List Entry} {data : Bytes}
    (built : c.frame x sessionId (entries.map .ofEntry) = some data) :
    openDownlink py m data = .ok entries := by
  rw [Session.frame] at built
  rw [downHeader] at reads
  rw [openDownlink]
  generalize c.saead = k at paired built reads
  generalize m.saead = d at paired ⊢
  cases paired with
  | plain =>
    simp only at built reads ⊢
    rw [parsePouch_built lawful reads built]
    rfl
  | sealed shared same =>
    simp only at built reads ⊢
    obtain ⟨parsed, hparsed, hentries⟩ :=
      downlink_round_trip lawful inverts shared same reads built
    rw [hparsed, parsed_eq hentries]

lemma emptyPouch_eq (x : Setup py σ) :
    emptyPouch x = Python.buildEntryPouch py x.deviceId (([] : List Entry).map .ofEntry) 512 := by
  have hblock : Python.encodeBlock ⟨[], 0, true, true⟩ = some [0x00, 0x01, 0xC0] := by decide
  simp [emptyPouch, Python.buildEntryPouch, packFrom, closeBlock, hblock]

/-- An uplink pouch is its header and at least one sealed block. -/
lemma encryptUplink_some {aeadSeal : AeadSeal} {d : Device} {sessionId : Bytes} {pouchId : Int}
    {b : UInt8 × Bytes} {bs : List (UInt8 × Bytes)} {data : Bytes}
    (h : encryptUplink py aeadSeal d sessionId pouchId (b :: bs) = some data) :
    ∃ header blocks, py.encode (saeadHeader py (d.info py sessionId) pouchId) = some header ∧
      data = header ++ blocks ∧ 0 < blocks.length := by
  simp only [encryptUplink, Option.bind_eq_bind, Option.bind_eq_some_iff] at h
  obtain ⟨log, -, header, hheader, chain, hchain, heq⟩ := h
  obtain ⟨nonce, sealed, rest, rfl, -⟩ := sealBlocks_cons hchain
  refine ⟨header, _, hheader, (Option.some.inj heq).symm, ?_⟩
  obtain ⟨byte, bytes, hdata, -⟩ := sized_ne_nil sealed (rest.flatMap sized)
  rw [List.flatMap_cons, hdata]
  exact Nat.succ_pos _

/-- The client reads the answers that the device sealed, and keeps its keys. -/
lemma parseResponse_sealed (lawful : py.Lawful) {x : Setup py σ}
    (inverts : Inverts py.prim x.aeadSeal) {s : SaeadSession} {d : Device}
    (shared : SharedSecret py.prim s.serverPrivate s.devicePublic d)
    (reads : RoundTrips py (saeadObject py (d.info py uplinkSid) 1)) {entries : List Entry}
    {data : Bytes} (built : uplinkPouch x (some d) entries = some data) :
    (parseResponse py.framing data s).1 =
      .ok (saeadHeader py (d.info py uplinkSid) 1, entries) := by
  have hsaead : py.framing.encryption (saeadHeader py (d.info py uplinkSid) 1) = .saead := rfl
  rw [uplinkPouch] at built
  split at built
  · obtain ⟨encoded, hencoded, hsealed⟩ := Option.bind_eq_some_iff.mp built
    obtain ⟨header, blocks, hheader, rfl, hmore⟩ := encryptUplink_some hsealed
    have hdecode : py.framing.decode (header ++ blocks) =
        .ok (saeadHeader py (d.info py uplinkSid) 1, header.length) :=
      decode_saead lawful rfl reads hheader blocks
    have hcarries : py.framing.carriesBlocks (saeadHeader py (d.info py uplinkSid) 1)
        header.length (header ++ blocks) = .ok true := by
      simp only [Clients.Python.framing, hheader]
      rw [decide_eq_true (by rw [List.length_append]; omega)]
    have hentries : (entries.map OutEntry.ofEntry).mapM Python.encodeEntry = some encoded := by
      rw [List.mapM_map]
      exact hencoded
    have hstream : streamIdOf 0xC0 = blockIdEntry := by decide
    obtain ⟨parsed, hparsed, hsame⟩ := uplink_round_trip lawful inverts shared hentries
      (by simpa using hstream) (by simp) reads hsealed
    simp only [parseResponse, hdecode, hsaead, if_true, hcarries]
    split
    · rename_i e s' hrun
      rw [hrun] at hparsed
      cases hparsed
    · rename_i entries' s' hrun
      rw [hrun] at hparsed
      obtain rfl := Except.ok.inj hparsed
      rw [parsed_eq hsame]
  · rename_i hempty
    obtain rfl := not_not.mp hempty
    have hdecode := decode_saead lawful rfl reads built []
    rw [List.append_nil] at hdecode
    have hdecode' : py.framing.decode data =
        .ok (saeadHeader py (d.info py uplinkSid) 1, data.length) := hdecode
    have hcarries : py.framing.carriesBlocks (saeadHeader py (d.info py uplinkSid) 1) data.length
        data = .ok false := by
      simp only [Clients.Python.framing, built]
      rw [decide_eq_false (Nat.lt_irrefl _)]
    simp only [parseResponse, hdecode', hsaead, if_true, hcarries]

lemma Paired.of_extends {k : Crypto} {d : Device} (paired : Paired py (some k) (some d))
    {s : SaeadSession} (h : Extends k.session s) : Paired py (some { k with session := s }) d := by
  cases paired with
  | sealed shared same =>
    refine .sealed ?_ same
    rw [SharedSecret, h.serverPrivate, h.devicePublic]
    exact shared

/-- Whatever entries the device sends, the client parses these. -/
lemma parse_uplinkPouch (lawful : py.Lawful) {x : Setup py σ}
    (inverts : Inverts py.prim x.aeadSeal) {c : Session py} {d : Option Device}
    (paired : Paired py c.saead d) (reads : RoundTrips py (upHeader x d)) {entries : List Entry}
    {data : Bytes} (built : uplinkPouch x d entries = some data) :
    ∃ h k, c.parse data = (.ok (h, entries), { c with saead := k }) ∧ Paired py k d := by
  rw [Session.parse]
  generalize hc : c.saead = k at paired
  cases paired with
  | plain =>
    have hbuilt : Python.buildEntryPouch py x.deviceId (entries.map .ofEntry) 512 = some data := by
      rw [uplinkPouch] at built
      split at built
      · exact built
      · rename_i hempty
        rw [not_not.mp hempty, ← emptyPouch_eq]
        exact built
    refine ⟨Python.plaintext py x.deviceId, none, ?_, .plain⟩
    have hsame : { c with saead := none } = c := by rw [← hc]
    rw [hsame]
    exact congrArg (·, c) (parsePouch_built lawful reads hbuilt)
  | @sealed k d shared same =>
    have hkeys := parseResponse_extends (f := py.framing) data k.session
    refine ⟨saeadHeader py (d.info py uplinkSid) 1, _, ?_,
      (Paired.sealed shared same).of_extends hkeys⟩
    simp only [parseResponse_sealed lawful inverts shared reads built]
    rfl

end Pouches

/-- Every pouch of the request can be built and has at most 255 fragments, and `cbor2` reads the
headers back. -/
structure Carried (x : Setup py σ) (w : World py σ) (q : Req) : Prop where
  request : ∃ data, w.session.frame x q.sessionId [.ofEntry q.entry] = some data ∧
    (w.session.tx.frags data).length ≤ 255
  answers : ∀ entries ∈ [[], w.rpc.answered x.handler q],
    ∃ data, uplinkPouch x w.device.saead entries = some data ∧ data ≠ [] ∧
      (slices mockFrag data).length ≤ 255
  down : RoundTrips py (downHeader x w.session q.sessionId)
  up : RoundTrips py (upHeader x w.device.saead)

/-- What both ends are assumed to be. -/
structure Sound (x : Setup py σ) : Prop where
  lawful : py.Lawful
  inverts : Inverts py.prim x.aeadSeal
  window : 1 ≤ x.window ∧ x.window ≤ 127
  fuel : 255 < x.fuel

section Request

variable {x : Setup py σ} {w : World py σ}

lemma sendPouch_carried (sound : Sound x) (paired : Paired py w.session.saead w.device.saead)
    {q : Req} (carried : Carried x w q) :
    sendPouch x q.sessionId [.ofEntry q.entry] w =
      (.ok (), { w with device := serve x w.device q.entry }) := by
  obtain ⟨data, hdata, hfew⟩ := carried.request
  have hfuel := sound.fuel
  obtain ⟨hreturned, hdelivered⟩ :=
    sarWrite_exact w.session.tx ⟨x.window, sound.window⟩ hfew (Nat.lt_of_le_of_lt hfew hfuel)
  have hopened : openDownlink py w.device data = .ok [q.entry] :=
    openDownlink_frame sound.lawful sound.inverts paired carried.down hdata
  simp only [sendPouch, hdata, hreturned, hdelivered, List.foldl_cons, List.foldl_nil,
    processRequest, hopened]

/-- An uplink cycle hands over what the device takes from its queue. -/
lemma receivePouch_ok (sound : Sound x) (paired : Paired py w.session.saead w.device.saead)
    (up : RoundTrips py (upHeader x w.device.saead))
    (built : ∃ data, uplinkPouch x w.device.saead (takeResponses w.device).1 = some data ∧
      data ≠ [] ∧ (slices mockFrag data).length ≤ 255) :
    ∃ h session, receivePouch x w =
        (.ok (h, (takeResponses w.device).1), ⟨session, (takeResponses w.device).2⟩) ∧
      Paired py session.saead w.device.saead := by
  obtain ⟨data, hdata, hne, hfew⟩ := built
  have hfuel := sound.fuel
  have hread := sarRead_exact (by decide) clientWindow hne hfew (Nat.lt_of_le_of_lt hfew hfuel)
    x.patience
  obtain ⟨h, k, hparse, hpaired⟩ :=
    parse_uplinkPouch sound.lawful sound.inverts paired up hdata
  refine ⟨h, { w.session with saead := k }, ?_, hpaired⟩
  simp only [receivePouch, ulOpen, hdata, hread, hparse]

/-- The pouch of every cycle until the answers are fetched can be built. -/
def Fetchable (x : Setup py σ) (w : World py σ) : Prop :=
  ∀ entries ∈ [[], w.device.responses], ∃ data, uplinkPouch x w.device.saead entries = some data ∧
    data ≠ [] ∧ (slices mockFrag data).length ≤ 255

/-- The loop comes to an answer if there is one and fewer busy cycles than attempts. -/
lemma poll_spec (sound : Sound x) (n : Nat) (paired : Paired py w.session.saead w.device.saead)
    (up : RoundTrips py (upHeader x w.device.saead)) (fetchable : Fetchable x w) :
    ∃ session, Paired py session.saead w.device.saead ∧ poll x n w =
      if n ≤ w.device.defer ∨ w.device.responses = [] then
        (.error (.session "no response after retries"),
          ⟨session, { w.device with defer := w.device.defer - n }⟩)
      else (.ok w.device.responses, ⟨session, { w.device with defer := 0, responses := [] }⟩) := by
  induction n generalizing w with
  | zero => exact ⟨w.session, paired, by simp [poll]⟩
  | succ n ih =>
    -- A busy cycle and a cycle without answers leave the loop with one attempt less.
    by_cases hbusy : 0 < w.device.defer
    · have htake : takeResponses w.device =
          ([], { w.device with defer := w.device.defer - 1 }) := if_pos hbusy
      obtain ⟨h, session, hreceive, hpaired⟩ := receivePouch_ok sound paired up
        (by rw [htake]; exact fetchable [] List.mem_cons_self)
      rw [htake] at hreceive
      obtain ⟨session', hpaired', hrest⟩ := @ih
        ⟨{ session with deviceId := py.framing.deviceId h session.deviceId },
          { w.device with defer := w.device.defer - 1 }⟩ hpaired up fetchable
      refine ⟨session', hpaired', ?_⟩
      simp only [poll, hreceive, ne_eq, not_true_eq_false, if_false, hrest]
      have hsub : w.device.defer - 1 - n = w.device.defer - (n + 1) := by omega
      have hiff : n ≤ w.device.defer - 1 ↔ n + 1 ≤ w.device.defer := by omega
      simp only [hsub, hiff]
    · have hidle : w.device.defer = 0 := by omega
      have htake : takeResponses w.device =
          (w.device.responses, { w.device with responses := [] }) := if_neg hbusy
      obtain ⟨h, session, hreceive, hpaired⟩ := receivePouch_ok sound paired up
        (by rw [htake]; exact fetchable _ (List.mem_cons_of_mem _ List.mem_cons_self))
      rw [htake] at hreceive
      by_cases hnone : w.device.responses = []
      · have hsame : { w.device with responses := [] } = w.device := by rw [← hnone]
        rw [hsame, hnone] at hreceive
        obtain ⟨session', hpaired', hrest⟩ := @ih
          ⟨{ session with deviceId := py.framing.deviceId h session.deviceId }, w.device⟩ hpaired up
          fetchable
        refine ⟨session', hpaired', ?_⟩
        simp only [hnone, or_true, if_true] at hrest ⊢
        simp only [poll, hreceive, ne_eq, not_true_eq_false, if_false, hrest, hidle, Nat.zero_sub]
      · refine ⟨{ session with deviceId := py.framing.deviceId h session.deviceId }, hpaired, ?_⟩
        have hfew : ¬ (n + 1 ≤ w.device.defer ∨ w.device.responses = []) := by
          rintro (hle | hnil)
          · omega
          · exact hnone hnil
        rw [if_neg hfew]
        simp only [poll, hreceive, ne_eq, hnone, not_false_eq_true, if_true, hidle]

/-- A request through all layers is a request to the device without them, and leaves the keys of
the device alone. -/
lemma request_refines (sound : Sound x) (paired : Paired py w.session.saead w.device.saead)
    {q : Req} (carried : Carried x w q) :
    ((request x w q).1, (request x w q).2.rpc) = w.rpc.request x.handler q ∧
      Paired py (request x w q).2.session.saead w.device.saead ∧
      (request x w q).2.device.saead = w.device.saead ∧
      (request x w q).2.device.storedServerCert = w.device.storedServerCert := by
  have hsent := sendPouch_carried sound paired carried
  obtain ⟨session, hpaired, hpoll⟩ := @poll_spec _ _ x
    { w with device := serve x w.device q.entry } sound pollAttempts paired carried.up
    carried.answers
  simp only [request, requestEntries, hsent, hpoll]
  by_cases hgives : pollAttempts ≤ w.device.defer ∨ w.rpc.answered x.handler q = []
  · have hgives' : pollAttempts ≤ (serve x w.device q.entry).defer ∨
        (serve x w.device q.entry).responses = [] := hgives
    rw [if_pos hgives']
    exact ⟨(if_pos hgives).symm, hpaired, rfl, rfl⟩
  · have hgives' : ¬ (pollAttempts ≤ (serve x w.device q.entry).defer ∨
        (serve x w.device q.entry).responses = []) := hgives
    rw [if_neg hgives']
    exact ⟨(if_neg hgives).symm, hpaired, rfl, rfl⟩

end Request

/-- The result of a request is what it puts out. -/
def step (x : Setup py σ) (w : World py σ) (q : Req) : World py σ × List (Except Failure Bytes) :=
  ((request x w q).2, [(request x w q).1])

def Rpc.step (handler : σ → String → Bytes → Option Bytes × σ) (r : Rpc σ) (q : Req) :
    Rpc σ × List (Except Failure Bytes) :=
  ((r.request handler q).2, [(r.request handler q).1])

lemma step_refines {x : Setup py σ} (sound : Sound x) (w : World py σ) (q : Req)
    (paired : Paired py w.session.saead w.device.saead) (carried : Carried x w q) :
    Paired py (step x w q).1.session.saead (step x w q).1.device.saead ∧
      ((step x w q).1.rpc, (step x w q).2) = Rpc.step x.handler w.rpc q := by
  obtain ⟨hrequest, hpaired, hsaead, -⟩ := request_refines sound paired carried
  constructor
  · rw [← hsaead] at hpaired
    exact hpaired
  · rw [Rpc.step, ← hrequest]
    rfl

/-- No request changes what the device has from the exchange of certificates. -/
lemma run_keeps {x : Setup py σ} (sound : Sound x) {w : World py σ}
    (paired : Paired py w.session.saead w.device.saead) {qs : List Req}
    (carried : Each (fun w q => (step x w q).1) (Carried x) w qs) :
    (qs.foldl (fun w q => (step x w q).1) w).device.saead = w.device.saead ∧
      (qs.foldl (fun w q => (step x w q).1) w).device.storedServerCert =
        w.device.storedServerCert := by
  have hall := always_of_each (I := fun w' => Paired py w'.session.saead w.device.saead ∧
      w'.device.saead = w.device.saead ∧ w'.device.storedServerCert = w.device.storedServerCert)
    (fun w' q hkept hq => ?_) ⟨paired, rfl, rfl⟩ carried
  · exact hall.final.2
  · obtain ⟨hpaired, hsaead, hstored⟩ := hkept
    rw [← hsaead] at hpaired
    obtain ⟨-, hnext, hsaead', hstored'⟩ := request_refines sound hpaired hq
    rw [hsaead] at hnext hsaead'
    rw [hstored] at hstored'
    exact ⟨hnext, hsaead', hstored'⟩

/-- Any sequence of requests that can be carried, over a plaintext or an encrypted session,
gives the results and leaves the handler in the state that a device without a transport would,
and every request reaches the handler exactly once. -/
theorem mock_transport_transparent {x : Setup py σ} (sound : Sound x) {w : World py σ}
    (paired : Paired py w.session.saead w.device.saead) (qs : List Req)
    (carried : Each (fun w q => (step x w q).1) (Carried x) w qs) :
    outputs (step x) w qs = outputs (Rpc.step x.handler) w.rpc qs ∧
      (qs.foldl (fun w q => (step x w q).1) w).rpc =
        qs.foldl (fun r q => (Rpc.step x.handler r q).1) w.rpc :=
  outputs_simulated (step_refines sound) paired carried

/-- An echo that puts the number of the request behind the message, with an AEAD that hides
nothing. -/
def sampleSetup : Setup (Clients.referencePython zeroTagPrimitives) Nat where
  aeadSeal := zeroTagSeal
  handler n _ msg := (some (msg ++ [UInt8.ofNat n]), n + 1)
  deviceId := .tstr (Bytes.utf8 "d")
  window := 3
  placeholder := .tstr (Bytes.utf8 "?")
  fuel := 256
  patience := 0

lemma sample_sound : Sound sampleSetup :=
  ⟨Clients.referencePython_lawful zeroTagPrimitives, zeroTag_inverts, by decide, by decide⟩

/-- An encrypted session with a device that is busy for five cycles. -/
def sampleWorld : World (Clients.referencePython zeroTagPrimitives) Nat where
  session := ⟨⟨7, by decide⟩, some ⟨⟨[], [], none, []⟩, [], .chacha20Poly1305, 9⟩, .tstr [], 512⟩
  device := ⟨some ⟨[], [], .chacha20Poly1305, 9⟩, none, 5, [], 0⟩

def sampleReq (b : UInt8) : Req := ⟨"a", [b], sampleSessionId⟩

lemma sample_down : RoundTrips (Clients.referencePython zeroTagPrimitives)
    (downHeader sampleSetup sampleWorld.session sampleSessionId) :=
  reference_roundTrips zeroTagPrimitives (saeadObject_ok _ 1 1 9 0 (by decide)) (by decide)

lemma sample_up : RoundTrips (Clients.referencePython zeroTagPrimitives)
    (upHeader sampleSetup sampleWorld.device.saead) :=
  reference_roundTrips zeroTagPrimitives (saeadObject_ok _ 0 1 9 1 (by decide)) (by decide)

lemma sample_paired : Paired (Clients.referencePython zeroTagPrimitives) sampleWorld.session.saead
    sampleWorld.device.saead :=
  .sealed rfl rfl

lemma sample_carried : Each (fun w q => (step sampleSetup w q).1) (Carried sampleSetup) sampleWorld
    [sampleReq 7, sampleReq 8] := by
  refine ⟨⟨⟨_, rfl, by decide⟩, ?_, sample_down, sample_up⟩,
    ⟨⟨_, rfl, by decide⟩, ?_, sample_down, sample_up⟩, trivial⟩
  · rintro entries hentries
    obtain rfl | rfl := List.mem_pair.mp hentries
    · exact ⟨_, rfl, by decide, by decide⟩
    · exact ⟨_, rfl, by decide, by decide⟩
  · rintro entries hentries
    obtain rfl | rfl := List.mem_pair.mp hentries
    · exact ⟨_, rfl, by decide, by decide⟩
    · exact ⟨_, rfl, by decide, by decide⟩

theorem mock_transport_transparent_busy :
    outputs (step sampleSetup) sampleWorld [sampleReq 7, sampleReq 8] =
      outputs (Rpc.step sampleSetup.handler) ⟨[], 5, 0⟩ [sampleReq 7, sampleReq 8] :=
  (mock_transport_transparent sample_sound sample_paired [sampleReq 7, sampleReq 8]
    sample_carried).1

/-- The answers of the handler to requests that reach it in order. -/
def answersTo (handler : σ → String → Bytes → Option Bytes × σ) :
    σ → List Req → List (Option Bytes)
  | _, [] => []
  | app, q :: qs =>
    (handler app q.path q.msg).1 :: answersTo handler (handler app q.path q.msg).2 qs

def finalApp (handler : σ → String → Bytes → Option Bytes × σ) (app : σ) (qs : List Req) : σ :=
  qs.foldl (fun app q => (handler app q.path q.msg).2) app

lemma answersTo_append (handler : σ → String → Bytes → Option Bytes × σ) (app : σ)
    (qs qs' : List Req) :
    answersTo handler app (qs ++ qs') =
      answersTo handler app qs ++ answersTo handler (finalApp handler app qs) qs' := by
  induction qs generalizing app with
  | nil => rfl
  | cons q qs ih =>
    rw [List.cons_append, answersTo, answersTo, ih, List.cons_append]
    rfl

/-- What a client sees of an answer, or of none. -/
def outcome : Option Bytes → Except Failure Bytes
  | some rsp => .ok rsp
  | none => .error (.session "no response after retries")

lemma Rpc.request_idle (handler : σ → String → Bytes → Option Bytes × σ) {r : Rpc σ}
    (pending : r.pending = []) (ready : r.defer < pollAttempts) (q : Req) :
    r.request handler q =
      (outcome (handler r.app q.path q.msg).1, ⟨[], 0, (handler r.app q.path q.msg).2⟩) := by
  cases hanswer : (handler r.app q.path q.msg).1 with
  | none =>
    have hnone : r.answered handler q = [] := by
      rw [Rpc.answered, pending, hanswer]
      rfl
    rw [Rpc.request, if_pos (.inr hnone), hnone, Nat.sub_eq_zero_of_le (Nat.le_of_lt ready)]
    rfl
  | some rsp =>
    have hsome : r.answered handler q = [⟨q.path, contentTypeCbor, rsp⟩] := by
      rw [Rpc.answered, pending, hanswer]
      rfl
    have hready : ¬ (pollAttempts ≤ r.defer ∨ r.answered handler q = []) := by
      rw [hsome]
      rintro (hbusy | hnil)
      · omega
      · cases hnil
    rw [Rpc.request, if_neg hready, hsome]
    simp only [pick, List.find?_cons, decide_true, outcome]

/-- A device with nothing left to fetch answers every request with its own answer. -/
lemma Rpc.outputs_idle (handler : σ → String → Bytes → Option Bytes × σ) (qs : List Req) {r : Rpc σ}
    (pending : r.pending = []) (ready : r.defer < pollAttempts) :
    outputs (Rpc.step handler) r qs = (answersTo handler r.app qs).map outcome ∧
      (qs.foldl (fun r q => (Rpc.step handler r q).1) r).pending = [] ∧
      (qs.foldl (fun r q => (Rpc.step handler r q).1) r).defer < pollAttempts ∧
      (qs.foldl (fun r q => (Rpc.step handler r q).1) r).app = finalApp handler r.app qs := by
  induction qs generalizing r with
  | nil => exact ⟨rfl, pending, ready, rfl⟩
  | cons q qs ih =>
    have hrequest := Rpc.request_idle handler pending ready q
    obtain ⟨houtputs, hrest⟩ := ih (r := (Rpc.step handler r q).1)
      (by rw [Rpc.step, hrequest]) (by rw [Rpc.step, hrequest]; exact Nat.succ_pos 4)
    rw [Rpc.step, hrequest] at houtputs hrest
    simp only [outputs, List.foldl_cons, Rpc.step, hrequest] at houtputs hrest ⊢
    exact ⟨by rw [houtputs]; rfl, hrest⟩

section Abandoned

variable (handler : σ → String → Bytes → Option Bytes × σ)

lemma Rpc.request_gives_up {r : Rpc σ} (q : Req) (busy : pollAttempts ≤ r.defer) :
    r.request handler q = (.error (.session "no response after retries"),
      ⟨r.answered handler q, r.defer - pollAttempts, (handler r.app q.path q.msg).2⟩) :=
  if_pos (.inl busy)

lemma Rpc.request_oldest {r : Rpc σ} {q : Req} {e : Entry} {es : List Entry}
    (ready : r.defer < pollAttempts) (pending : r.pending = e :: es) (path : e.path = q.path) :
    r.request handler q = (.ok e.data, ⟨[], 0, (handler r.app q.path q.msg).2⟩) := by
  have hanswered : r.answered handler q = e :: (es ++ ((handler r.app q.path q.msg).1.map
      fun rsp => ⟨q.path, contentTypeCbor, rsp⟩).toList) := by
    rw [Rpc.answered, pending]
    rfl
  have hready : ¬ (pollAttempts ≤ r.defer ∨ r.answered handler q = []) := by
    rw [hanswered]
    rintro (hbusy | hnone)
    · omega
    · cases hnone
  rw [Rpc.request, if_neg hready, hanswered]
  simp only [pick, List.find?_cons, path, decide_true]

/-- While older answers wait, requests on their path give up one after the other until the
device is ready, and then the oldest answer is fetched. -/
lemma Rpc.outputs_oldest {path : String} {e : Entry} (on : e.path = path) {later : List Req}
    {next : Req} (same : ∀ q ∈ later ++ [next], q.path = path) (r : Rpc σ) {es : List Entry}
    (pending : r.pending = e :: es) {spare : Nat}
    (busy : r.defer = pollAttempts * later.length + spare) (ready : spare < pollAttempts) :
    outputs (Rpc.step handler) r (later ++ [next]) =
        List.replicate later.length (.error (.session "no response after retries")) ++
          [.ok e.data] ∧
      ((later ++ [next]).foldl (fun r q => (Rpc.step handler r q).1) r).pending = [] := by
  induction later generalizing r es with
  | nil =>
    have hready : r.defer < pollAttempts := by rw [busy]; simpa using ready
    have hpath : e.path = next.path := on.trans (same next List.mem_cons_self).symm
    simp only [List.nil_append, outputs, Rpc.step, List.foldl_cons, List.foldl_nil,
      Rpc.request_oldest handler hready pending hpath, List.length_nil, List.replicate_zero,
      List.append_nil, and_self]
  | cons q later ih =>
    have hbusy : r.defer = pollAttempts * later.length + spare + pollAttempts := by
      rw [busy, List.length_cons, Nat.mul_succ, Nat.add_right_comm]
    have hgives := Rpc.request_gives_up handler q (r := r) (by omega)
    have hpending : (r.request handler q).2.pending = e :: (es ++
        ((handler r.app q.path q.msg).1.map fun rsp => ⟨q.path, contentTypeCbor, rsp⟩).toList) := by
      rw [hgives, Rpc.answered, pending]
      rfl
    have hdefer : (r.request handler q).2.defer = pollAttempts * later.length + spare := by
      rw [hgives, hbusy]
      exact Nat.add_sub_cancel _ _
    obtain ⟨houtputs, hfinal⟩ := ih (fun q hq => same q (List.mem_cons_of_mem _ hq)) _ hpending
      hdefer
    constructor
    · simp only [List.cons_append, outputs, Rpc.step] at houtputs ⊢
      rw [houtputs, hgives]
      rfl
    · simp only [List.cons_append, List.foldl_cons]
      exact hfinal

end Abandoned

/-- Requests that give up on a busy device leave their answers behind: the first request on
the same path that finds the device ready returns the answer to the oldest of them, and its
own answer is lost. -/
theorem abandoned_answer_returned_late {x : Setup py σ} (sound : Sound x) {w : World py σ}
    (paired : Paired py w.session.saead w.device.saead) (first : Req) (later : List Req)
    (next : Req) (same : ∀ q ∈ later ++ [next], q.path = first.path)
    (idle : w.device.responses = []) {spare : Nat}
    (busy : w.device.defer = pollAttempts * (later.length + 1) + spare)
    (ready : spare < pollAttempts) {answer : Bytes}
    (answers : (x.handler w.device.app first.path first.msg).1 = some answer)
    (carried : Each (fun w q => (step x w q).1) (Carried x) w (first :: later ++ [next])) :
    outputs (step x) w (first :: later ++ [next]) =
        List.replicate (later.length + 1) (.error (.session "no response after retries")) ++
          [.ok answer] ∧
      ((first :: later ++ [next]).foldl (fun w q => (step x w q).1) w).device.responses = [] := by
  obtain ⟨houtputs, hfinal⟩ := outputs_simulated (step_refines sound) paired carried
  have hdefer : w.rpc.defer = pollAttempts * later.length + spare + pollAttempts := by
    rw [Nat.add_right_comm]
    exact busy
  have hgives := Rpc.request_gives_up x.handler first (r := w.rpc) (by omega)
  have hpending : (w.rpc.request x.handler first).2.pending =
      [⟨first.path, contentTypeCbor, answer⟩] := by
    rw [hgives]
    simp [Rpc.answered, World.rpc, idle, answers]
  have hleft : (w.rpc.request x.handler first).2.defer = pollAttempts * later.length + spare := by
    rw [hgives, hdefer]
    exact Nat.add_sub_cancel _ _
  obtain ⟨hrest, hempty⟩ := Rpc.outputs_oldest x.handler rfl same _ hpending hleft ready
  constructor
  · rw [houtputs]
    simp only [List.cons_append, outputs, Rpc.step] at hrest ⊢
    rw [hrest, hgives]
    rfl
  · have hresponses := congrArg Rpc.pending hfinal
    rw [List.cons_append, List.foldl_cons, List.foldl_cons] at hresponses
    exact hresponses.trans hempty

theorem abandoned_answer_returned_late_one :
    outputs (step sampleSetup) sampleWorld [sampleReq 7, sampleReq 8] =
      [.error (.session "no response after retries"), .ok [7, 0]] :=
  (abandoned_answer_returned_late sample_sound sample_paired (sampleReq 7) [] (sampleReq 8)
    (by decide) rfl rfl (show 0 < pollAttempts by decide) rfl sample_carried).1

end MockDevice
