import PouchProv.ClientRequests
import PouchProv.CredRuns
import PouchProv.Handlers
import PouchProv.PythonResponses

/-!
# Credential transfer

`push_credential` and `bootstrap_credentials` of `flows.py`, with every request
answered by `pouch_prov_handle_cred`. The loop over the offsets of the client and
the counters of the device advance together, from whatever an earlier transfer
left behind (`pushFrom_ok`).

The codecs are assumed to implement the schema: the device reads the requests of
the clients that fit a message, and `cbor2` writes literals and reads arrays of
numbers as what they are.
-/

namespace CredPush

open Bytes Cbor Codec Handlers ProvTypes Status CredStore ClientRequests

/-- Why a transfer stops: the request could not be encoded, the device returned an error, the
response did not decode, or the device reports another number of bytes than were sent. -/
inductive Stop where
  | encode
  | refused
  | decode
  | desync (received : Int) (sent : Nat)
  deriving DecidableEq, Repr

section Client

variable (py : Clients.Python) (z : Zcbor) (save : CredKind → Bool)

def request (req : Option Bytes) (s : Store) : Except Stop Bytes × Store :=
  match req with
  | none => (.error .encode, s)
  | some req =>
    match handleCred z save s req with
    | (.ok rsp, s, _) => (.ok rsp, s)
    | (.error _, s, _) => (.error .refused, s)

/-- `der[off:off + chunk]` -/
def piece (der : Bytes) (off chunk : Nat) : Bytes := (der.drop off).take chunk

/-- The loop of `push_credential` from an offset. It gives `none` if it has not ended after
so many pieces. -/
def pushFrom (kind : CredKind) (der : Bytes) (chunk : Nat) :
    Nat → Nat → Store → Option (Except Stop Unit × Store)
  | 0, off, s => if off < der.length then none else some (.ok (), s)
  | fuel + 1, off, s =>
    if off < der.length then
      let piece := piece der off chunk
      match request z save (Python.encodeCredWrite py kind off der.length piece) s with
      | (.error e, s) => some (.error e, s)
      | (.ok rsp, s) =>
        match ClientResponses.Python.decodeCredWriteRsp py rsp with
        | .error _ => some (.error .decode, s)
        | .ok received =>
          let off := off + piece.length
          if received ≠ off then some (.error (.desync received off), s)
          else pushFrom kind der chunk fuel off s
    else some (.ok (), s)

/-- A transfer takes no more pieces than it has bytes, unless the pieces are empty. -/
def pushCredential (kind : CredKind) (der : Bytes) (chunk : Nat) (s : Store) :
    Option (Except Stop Unit × Store) :=
  pushFrom py z save kind der chunk der.length 0 s

def finalize (s : Store) : Option (Except Stop Unit × Store) :=
  match request z save (Python.encodeCredFinalize py) s with
  | (.error e, s) => some (.error e, s)
  | (.ok rsp, s) =>
    match ClientResponses.Python.decodeCredFinalizeRsp py rsp with
    | .error _ => some (.error .decode, s)
    | .ok () => some (.ok (), s)

/-- One step of a flow after another; an exception ends the flow. -/
def andThen (r : Option (Except Stop Unit × Store))
    (next : Store → Option (Except Stop Unit × Store)) : Option (Except Stop Unit × Store) :=
  match r with
  | some (.ok (), s) => next s
  | r => r

/-- The default of the `chunk` parameter. -/
def defaultChunk : Nat := 256

def bootstrapCredentials (certDer keyDer : Bytes) (caDer : Option Bytes) (s : Store) :
    Option (Except Stop Unit × Store) :=
  andThen (pushCredential py z save .deviceCert certDer defaultChunk s) fun s =>
  andThen (pushCredential py z save .privateKey keyDer defaultChunk s) fun s =>
  andThen (match caDer with
    | some caDer => pushCredential py z save .caCert caDer defaultChunk s
    | none => some (.ok (), s)) fun s =>
  finalize py z save s

end Client

/-- The reader of the device reads the requests of the schema that fit a message. -/
def ReadsRequests (z : Zcbor) : Prop :=
  ∀ r : Request, r.InBounds → (encode r.item).length ≤ msgMax → z.read (encode r.item) = some r.item

/-- The object is the number. -/
def IsNumber (py : Clients.Python) (n : Nat) (x : py.Obj) : Prop :=
  (∀ i, py.equalsInt x i = decide (i = (n : Int))) ∧ py.int x = some (n : Int)

/-- `cbor2` reads an array of two or three numbers as the list of these numbers. -/
def ReadsNumbers (py : Clients.Python) : Prop :=
  ∀ ns : List Nat, ns.length ≤ 3 → (∀ n ∈ ns, n < 2 ^ 32) → ∃ obj consumed xs,
    py.loads (encode (.array (ns.map .uint))) = some (obj, consumed) ∧ py.list obj = some xs ∧
      List.Forall₂ (IsNumber py) ns xs

section Device

variable {py : Clients.Python} {z : Zcbor} {save : CredKind → Bool}

lemma decode_numbers (reads : ReadsNumbers py) (op : Nat) (ns : List Nat) (context : String)
    (hop : op < 2 ^ 32) (few : ns.length ≤ 1) (hns : ∀ n ∈ ns, n < 2 ^ 32) :
    ∃ x y xs, ClientResponses.Python.decode py (encode (.array ((op :: 0 :: ns).map .uint))) op
      context = .ok (x :: y :: xs) ∧ List.Forall₂ (IsNumber py) ns xs := by
  have hall : ∀ n ∈ op :: 0 :: ns, n < 2 ^ 32 := by
    simpa using ⟨hop, hns⟩
  obtain ⟨obj, consumed, objs, hloads, hlist, hnums⟩ :=
    reads (op :: 0 :: ns) (by simp; omega) hall
  cases hnums with
  | @cons _ x _ _ hfirst hrest =>
    cases hrest with
    | @cons _ y _ xs hsecond htail =>
      refine ⟨x, y, xs, ?_, htail⟩
      exact ClientResponses.Python.decode_head hloads hlist (by simp [hfirst.1])
        (show ∀ i, _ = decide (i = ((ProvStatus.ok.code : Nat) : Int)) from hsecond.1) context

lemma decodeCredWriteRsp_received (reads : ReadsNumbers py) {n : Nat} (fits : n < 2 ^ 32) :
    ClientResponses.Python.decodeCredWriteRsp py (encode (.array ([0, 0, n].map .uint))) =
      .ok (n : Int) := by
  obtain ⟨x, y, xs, hdecode, hnums⟩ :=
    decode_numbers reads 0 [n] "cred" (by decide) (by simp) (by simpa)
  cases hnums with
  | @cons _ received _ _ hnum hrest =>
    cases hrest with
    | nil =>
      have hdecode' : ClientResponses.Python.decode py (encode (.array ([0, 0, n].map .uint))) 0
          "cred" = .ok [x, y, received] := hdecode
      rw [ClientResponses.Python.decodeCredWriteRsp, hdecode']
      exact ClientResponses.Python.attempt_some hnum.2

lemma decodeCredReq_write (kind : CredKind) {offset total : Nat} (hoff : offset < 2 ^ 32)
    (htotal : total < 2 ^ 32) (data : Bytes) :
    decodeCredReq (Request.credWrite kind offset total data).item =
      some (.write ⟨kindCode kind, offset, total, data⟩) := by
  have hkind : Codec.credKind (.uint (kindCode kind)) = some (kindCode kind) := by
    cases kind <;> rfl
  have huint : ∀ n < 2 ^ 32, uint32 (.uint n) = some n := fun n hn => if_pos hn
  simp [Request.item, Schema.credChunkFields, Cddl.given, Cddl.written, decodeCredReq,
    decodeCredChunk, field, keyIs, hkind, huint _ hoff, huint _ htotal, bstrOf]

/-- The longest header that a size of 32 bits takes has five bytes. -/
lemma credWrite_length_le (kind : CredKind) {offset total : Nat} (hoff : offset < 2 ^ 32)
    (htotal : total < 2 ^ 32) {data : Bytes} (hdata : data.length < 2 ^ 32) :
    (encode (Request.credWrite kind offset total data).item).length ≤ 39 + data.length := by
  have hkind : (head 0 (kindCode kind)).length = 1 := by cases kind <;> rfl
  have hoff' := head_length_le 0 hoff
  have htotal' := head_length_le 0 htotal
  have hdata' := head_length_le 2 hdata
  have hkeys : (encode (.tstr (utf8 "kind"))).length = 5 ∧
      (encode (.tstr (utf8 "off"))).length = 4 ∧ (encode (.tstr (utf8 "total"))).length = 6 ∧
      (encode (.tstr (utf8 "data"))).length = 5 := by
    decide
  have hheads : (head 0 0).length = 1 ∧ (head 4 2).length = 1 ∧ (head 5 4).length = 1 := by
    decide
  show (encode (.array [.uint 0, .map [.tstr (utf8 "kind"), .uint (kindCode kind),
    .tstr (utf8 "off"), .uint offset, .tstr (utf8 "total"), .uint total, .tstr (utf8 "data"),
    .bstr data]])).length ≤ _
  simp only [encode, encodeAll, List.length_append, List.length_cons, List.length_nil,
    Nat.reduceAdd, Nat.reduceDiv] at hkeys ⊢
  simp only [hheads, hkind]
  omega

lemma credStage_accepted {kind : Int} {k : CredKind} (valid : kindValid kind = some k) {s : Store}
    {offset total : Nat} {data : Bytes} (accepts : Accepts s k offset total data) :
    credStage kind offset total data s =
      (.ok (offset + data.length), s.setBlob k
        { opened s k offset total with
          buf := Bytes.writeAt (s.blob k).buf offset data
          staged := offset + data.length }) := by
  obtain ⟨hnone, _⟩ | ⟨j, hj, hcases⟩ := credStage_cases kind offset total data s
  · rw [valid] at hnone
    cases hnone
  · obtain rfl := Option.some.inj (valid.symm.trans hj)
    obtain ⟨hbig, _⟩ | ⟨_, hrefused, _⟩ | ⟨_, hstage⟩ := hcases
    · exact absurd accepts.1 (Nat.not_le.mpr hbig)
    · exact absurd accepts hrefused
    · exact hstage

/-- A chunk that the store accepts is answered with the number of bytes received so far. -/
lemma request_write (save : CredKind → Bool) (writes : Writes py) (reads : ReadsRequests z)
    {kind : CredKind} {s : Store} {offset total : Nat} {data : Bytes}
    (accepts : Accepts s kind offset total data) (inside : offset + data.length ≤ cap kind)
    (fits : (encode (Request.credWrite kind offset total data).item).length ≤ msgMax) :
    request z save (Python.encodeCredWrite py kind offset total data) s =
      (.ok (encode (.array ([0, 0, offset + data.length].map .uint))), s.setBlob kind
        { opened s kind offset total with
          buf := Bytes.writeAt (s.blob kind).buf offset data
          staged := offset + data.length }) := by
  have hcap : cap kind ≤ 2048 := by cases kind <;> decide
  have htotal := accepts.1
  have hbounds : (Request.credWrite kind offset total data).InBounds :=
    ⟨by omega, by omega, by omega⟩
  have hbytes : Python.encodeCredWrite py kind offset total data =
      some (encode (Request.credWrite kind offset total data).item) := python_bytes writes hbounds
  have hdecode : decodeWith z decodeCredReq
      (encode (Request.credWrite kind offset total data).item) =
      some (.write ⟨kindCode kind, offset, total, data⟩) := by
    rw [decodeWith, reads _ hbounds fits]
    exact decodeCredReq_write kind (by omega) (by omega) data
  have hvalid : kindValid (kindCode kind : Int) = some kind := by cases kind <;> rfl
  have hstage := credStage_accepted hvalid accepts
  have hsum : offset + data.length < 2 ^ 32 := by omega
  have hanswer : answer (encodeCredRsp (.writeRsp .ok (offset + data.length))) =
      .ok (encode (.array ([0, 0, offset + data.length].map .uint))) := by
    have hlen := head_length_le 0 hsum
    rw [encodeCredRsp, u32, Nat.mod_eq_of_lt hsum, answer, cborEncode_some ?_]
    · rfl
    · have hheads : (head 0 0).length = 1 ∧ (head 4 3).length = 1 := by decide
      simp only [encode, encodeAll, encodeProvStatus, ProvStatus.code, List.length_append,
        List.length_cons, List.length_nil, Nat.reduceAdd, msgMax, hheads]
      omega
  simp only [request, hbytes, handleCred, hdecode, hstage, hanswer]

/-- The store after the first `off` bytes of a transfer that started in `s`. Before the first
chunk the counters of the kind are what an earlier transfer left there. -/
structure Pushed (s : Store) (kind : CredKind) (der : Bytes) (off : Nat) (s' : Store) : Prop where
  others : ∀ j ≠ kind, s'.blob j = s.blob j
  settings : s'.settings = s.settings
  size : (s'.blob kind).buf.length = cap kind
  counters : off ≠ 0 → (s'.blob kind).staged = off ∧ (s'.blob kind).expected = der.length
  bytes : (s'.blob kind).buf.take off = der.take off

variable {kind : CredKind} {der : Bytes} {s s' : Store} {off chunk : Nat}

lemma piece_length (der : Bytes) (off chunk : Nat) :
    (piece der off chunk).length = min chunk (der.length - off) := by
  simp [piece]

lemma piece_inside (chunk : Nat) (inside : off ≤ der.length) :
    off + (piece der off chunk).length ≤ der.length := by
  rw [piece_length]
  omega

lemma Pushed.accepts (h : Pushed s kind der off s') (fits : der.length ≤ cap kind)
    (more : off < der.length) :
    Accepts s' kind off der.length (piece der off chunk) := by
  have hlen := piece_inside chunk (Nat.le_of_lt more)
  refine ⟨fits, ?_⟩
  by_cases hzero : off = 0
  · exact Or.inl ⟨hzero, by omega⟩
  · obtain ⟨hstaged, hexpected⟩ := h.counters hzero
    exact Or.inr ⟨hzero, hstaged.symm, by omega⟩

/-- One accepted piece carries the invariant to the offset behind it. -/
lemma Pushed.next (h : Pushed s kind der off s') (fits : der.length ≤ cap kind)
    (more : off < der.length) :
    Pushed s kind der (off + (piece der off chunk).length) (s'.setBlob kind
      { opened s' kind off der.length with
        buf := Bytes.writeAt (s'.blob kind).buf off (piece der off chunk)
        staged := off + (piece der off chunk).length }) := by
  have hlen := piece_inside chunk (Nat.le_of_lt more)
  have hsize := h.size
  refine ⟨?_, ?_, ?_, ?_, ?_⟩
  · intro j hj
    rw [setBlob_other _ _ hj]
    exact h.others j hj
  · exact h.settings
  · rw [setBlob_self]
    exact (Bytes.writeAt_length (by omega)).trans hsize
  · intro _
    rw [setBlob_self]
    refine ⟨rfl, ?_⟩
    by_cases hzero : off = 0
    · simp [opened, hzero]
    · simpa [opened, hzero] using (h.counters hzero).2
  · rw [setBlob_self]
    calc (Bytes.writeAt (s'.blob kind).buf off (piece der off chunk)).take
          (off + (piece der off chunk).length)
        = (s'.blob kind).buf.take off ++ piece der off chunk :=
          Bytes.take_writeAt (by omega)
      _ = der.take off ++ piece der off chunk := by rw [h.bytes]
      _ = der.take (off + (piece der off chunk).length) := by
          rw [List.take_add, piece, List.length_take, ← List.take_eq_take_min]

/-- The pieces start at the multiples of the chunk size. -/
def PiecesFit (kind : CredKind) (der : Bytes) (chunk : Nat) : Prop :=
  ∀ i, i * chunk < der.length →
    (encode (Request.credWrite kind (i * chunk) der.length
      (piece der (i * chunk) chunk)).item).length ≤ msgMax

/-- From any offset that the loop reaches, it ends without error with everything pushed. -/
lemma pushFrom_ok (writes : Writes py) (readsRequests : ReadsRequests z)
    (readsNumbers : ReadsNumbers py)
    (fits : der.length ≤ cap kind) (positive : 1 ≤ chunk) (pieces : PiecesFit kind der chunk)
    (fuel : Nat) (s' : Store) (enough : der.length ≤ off + fuel) (inside : off ≤ der.length)
    (start : off < der.length → ∃ i, off = i * chunk) (h : Pushed s kind der off s') :
    ∃ s'', pushFrom py z save kind der chunk fuel off s' = some (.ok (), s'') ∧
      Pushed s kind der der.length s'' := by
  induction fuel generalizing off s' with
  | zero =>
    obtain rfl : off = der.length := by omega
    exact ⟨s', if_neg (Nat.lt_irrefl _), h⟩
  | succ fuel ih =>
    by_cases hmore : off < der.length
    · obtain ⟨i, rfl⟩ := start hmore
      have hcap : cap kind ≤ 2048 := by cases kind <;> decide
      have hinside := piece_inside chunk inside
      have hlength := piece_length der (i * chunk) chunk
      have hrequest := request_write save writes readsRequests (h.accepts fits hmore)
        (Nat.le_trans hinside fits) (pieces i hmore)
      have hreceived := decodeCredWriteRsp_received readsNumbers
        (show i * chunk + (piece der (i * chunk) chunk).length < 2 ^ 32 by omega)
      obtain ⟨s'', hpush, hpushed⟩ := ih _ (by omega) hinside (by
        intro hlater
        refine ⟨i + 1, ?_⟩
        rw [Nat.add_mul]
        omega) (h.next fits hmore)
      refine ⟨s'', ?_, hpushed⟩
      rw [pushFrom, if_pos hmore]
      simp only [hrequest, hreceived, ne_eq, not_true, if_false]
      exact hpush
    · obtain rfl : off = der.length := by omega
      exact ⟨s', if_neg hmore, h⟩

/-- A transfer ends without error, from whatever the buffers and counters held. -/
lemma pushCredential_ok (save : CredKind → Bool) (writes : Writes py)
    (readsRequests : ReadsRequests z) (readsNumbers : ReadsNumbers py)
    (size : (s.blob kind).buf.length = cap kind) (fits : der.length ≤ cap kind)
    (positive : 1 ≤ chunk) (pieces : PiecesFit kind der chunk) :
    ∃ s', pushCredential py z save kind der chunk s = some (.ok (), s') ∧
      Pushed s kind der der.length s' := by
  refine pushFrom_ok writes readsRequests readsNumbers fits positive pieces der.length s (by omega)
    (Nat.zero_le _) (fun _ => ⟨0, (Nat.zero_mul _).symm⟩) ?_
  exact ⟨fun _ _ => rfl, rfl, size, fun h => absurd rfl h, by simp⟩

/-- The default chunk always fits a message. -/
lemma piecesFit_default (fits : der.length ≤ cap kind) : PiecesFit kind der defaultChunk := by
  intro i hi
  have hcap : cap kind ≤ 2048 := by cases kind <;> decide
  have hlength := piece_length der (i * defaultChunk) defaultChunk
  have hchunk : defaultChunk = 256 := rfl
  have hwrite := credWrite_length_le kind (show i * defaultChunk < 2 ^ 32 by omega)
    (show der.length < 2 ^ 32 by omega)
    (show (piece der (i * defaultChunk) defaultChunk).length < 2 ^ 32 by omega)
  rw [msgMax]
  omega

/-- What a finalize with successful saves leaves under the key of a kind: the staged bytes of a
fully staged kind, and otherwise what was there. -/
def stored (s : Store) (k : CredKind) : Option Bytes :=
  if fullyStaged s k then some ((s.blob k).buf.take (s.blob k).staged) else s.settings k

lemma credFinalize_settings (ready : CredRuns.Ready s) (all : ∀ k, save k) (k : CredKind) :
    (credFinalize save s).2.settings k = stored s k := by
  rw [CredRuns.credFinalize_ready ready, CredRuns.persist_store,
    (CredRuns.foldl_saveOne s (CredRuns.saved save s kinds) k).1, stored]
  by_cases hfull : fullyStaged s k
  · rw [if_pos hfull, if_pos (CredRuns.mem_saved_of_all (fun j _ => all j) hfull)]
  · have hmem : k ∉ CredRuns.saved save s kinds := by
      intro hmem
      exact hfull (List.mem_filter.mp (List.takeWhile_subset _ hmem)).2
    rw [if_neg hfull, if_neg hmem]

lemma finalize_ok (writes : Writes py) (readsRequests : ReadsRequests z)
    (readsNumbers : ReadsNumbers py)
    (ready : CredRuns.Ready s) (all : ∀ k, save k) :
    finalize py z save s = some (.ok (), (credFinalize save s).2) := by
  have hok : (credFinalize save s).1 = .ok () := by
    rw [CredRuns.credFinalize_ready ready]
    exact (CredRuns.persist_ok_iff save s kinds).mpr fun k _ _ => all k
  have hbytes : Python.encodeCredFinalize py = some (encode Request.credFinalize.item) :=
    python_bytes (r := .credFinalize) writes trivial
  have hdecode : decodeWith z decodeCredReq (encode Request.credFinalize.item) =
      some .finalize := by
    rw [decodeWith, readsRequests .credFinalize trivial (by decide)]
    rfl
  have hanswer : answer (encodeCredRsp (.finalizeRsp (statusMap (.ok ())))) =
      .ok (encode (.array ([1, 0].map .uint))) := rfl
  obtain ⟨x, y, xs, hrsp, -⟩ :=
    decode_numbers readsNumbers 1 [] "cred" (by decide) (by simp) (by simp)
  have hrsp' : ClientResponses.Python.decodeCredFinalizeRsp py
      (encode (.array ([1, 0].map .uint))) = .ok () :=
    ClientResponses.read_bind hrsp _
  have hrequest : request z save (Python.encodeCredFinalize py) s =
      (.ok (encode (.array ([1, 0].map .uint))), (credFinalize save s).2) := by
    simp only [request, hbytes, handleCred, hdecode, hok, hanswer]
  simp only [finalize, hrequest, hrsp']

lemma fullyStaged_congr {k : CredKind} (same : s'.blob k = s.blob k) :
    fullyStaged s' k = fullyStaged s k := by
  simp only [fullyStaged, same]

lemma stored_congr {k : CredKind} (same : s'.blob k = s.blob k)
    (settings : s'.settings = s.settings) : stored s' k = stored s k := by
  simp only [stored, fullyStaged_congr same, same, settings]

lemma Pushed.fullyStaged (h : Pushed s kind der der.length s') (nonempty : 1 ≤ der.length) :
    fullyStaged s' kind := by
  obtain ⟨hstaged, hexpected⟩ := h.counters (by omega)
  simp only [CredStore.fullyStaged, hstaged, hexpected, and_true, decide_eq_true_eq]
  omega

lemma Pushed.whole (h : Pushed s kind der der.length s') :
    (s'.blob kind).buf.take der.length = der := by
  rw [h.bytes, List.take_length]

lemma Pushed.stored (h : Pushed s kind der der.length s') (nonempty : 1 ≤ der.length) :
    stored s' kind = some der := by
  have hstaged := (h.counters (by omega)).1
  rw [CredPush.stored, if_pos (h.fullyStaged nonempty), hstaged, h.whole]

/-- The transfer of the CA, if there is one. -/
lemma pushCa_ok (save : CredKind → Bool) (writes : Writes py)
    (readsRequests : ReadsRequests z) (readsNumbers : ReadsNumbers py)
    (size : (s.blob .caCert).buf.length = cap .caCert) (caDer : Option Bytes)
    (bounds : ∀ ca ∈ caDer, 1 ≤ ca.length ∧ ca.length ≤ cap .caCert) :
    ∃ s', (match caDer with
        | some caDer => pushCredential py z save .caCert caDer defaultChunk s
        | none => some (.ok (), s)) = some (.ok (), s') ∧
      (∀ j ≠ .caCert, s'.blob j = s.blob j) ∧ s'.settings = s.settings ∧
      CredPush.stored s' .caCert = caDer.or (CredPush.stored s .caCert) := by
  cases caDer with
  | none => exact ⟨s, rfl, fun _ _ => rfl, rfl, rfl⟩
  | some ca =>
    obtain ⟨hpos, hfit⟩ := bounds ca rfl
    obtain ⟨s', hpush, hpushed⟩ := pushCredential_ok save writes readsRequests readsNumbers size
      hfit (by decide) (piecesFit_default hfit)
    exact ⟨s', hpush, hpushed.others, hpushed.settings, hpushed.stored hpos⟩

lemma bootstrapCredentials_ok (writes : Writes py) (readsRequests : ReadsRequests z)
    (readsNumbers : ReadsNumbers py)
    (sized : ∀ k, (s.blob k).buf.length = cap k) {certDer keyDer : Bytes} {caDer : Option Bytes}
    (cert : 1 ≤ certDer.length ∧ certDer.length ≤ cap .deviceCert)
    (key : 1 ≤ keyDer.length ∧ keyDer.length ≤ cap .privateKey)
    (ca : ∀ ca ∈ caDer, 1 ≤ ca.length ∧ ca.length ≤ cap .caCert)
    (sequence : derSequenceLenOk certDer certDer.length) (all : ∀ k, save k) :
    ∃ s', bootstrapCredentials py z save certDer keyDer caDer s = some (.ok (), s') ∧
      s'.settings .deviceCert = some certDer ∧ s'.settings .privateKey = some keyDer ∧
      s'.settings .caCert = caDer.or (CredPush.stored s .caCert) := by
  obtain ⟨s₁, hpush₁, hcert⟩ := pushCredential_ok save writes readsRequests readsNumbers
    (sized .deviceCert) cert.2 (by decide) (piecesFit_default cert.2)
  have hsize : ∀ k ≠ .deviceCert, (s₁.blob k).buf.length = cap k := by
    intro k hk
    rw [hcert.others k hk]
    exact sized k
  obtain ⟨s₂, hpush₂, hkey⟩ := pushCredential_ok save writes readsRequests readsNumbers
    (hsize .privateKey (by decide)) key.2 (by decide) (piecesFit_default key.2)
  have hsizeCa : (s₂.blob .caCert).buf.length = cap .caCert := by
    rw [hkey.others _ (by decide)]
    exact hsize .caCert (by decide)
  obtain ⟨s₃, hpush₃, hothers, hsettings, hca⟩ :=
    pushCa_ok save writes readsRequests readsNumbers hsizeCa caDer ca
  have hcert₃ : s₃.blob .deviceCert = s₁.blob .deviceCert :=
    (hothers _ (by decide)).trans (hkey.others _ (by decide))
  have hkey₃ : s₃.blob .privateKey = s₂.blob .privateKey := hothers _ (by decide)
  have hready : CredRuns.Ready s₃ := by
    refine ⟨?_, ?_, ?_⟩
    · rw [fullyStaged_congr hcert₃]
      exact hcert.fullyStaged cert.1
    · rw [fullyStaged_congr hkey₃]
      exact hkey.fullyStaged key.1
    · have hstaged := (hcert.counters (by omega)).1
      rw [hcert₃, hstaged, ← derSequenceLenOk_take, hcert.whole]
      exact sequence
  refine ⟨(credFinalize save s₃).2, ?_, ?_, ?_, ?_⟩
  · simp only [bootstrapCredentials, andThen, hpush₁, hpush₂, hpush₃]
    exact finalize_ok writes readsRequests readsNumbers hready all
  · rw [credFinalize_settings hready all, stored_congr hcert₃ (hsettings.trans hkey.settings)]
    exact hcert.stored cert.1
  · rw [credFinalize_settings hready all, stored_congr hkey₃ hsettings]
    exact hkey.stored key.1
  · rw [credFinalize_settings hready all, hca,
      stored_congr (hkey.others _ (by decide)) hkey.settings,
      stored_congr (hcert.others _ (by decide)) hcert.settings]

end Device

/-- From every state of the credential store, with every request answered by the device, a
transfer in pieces that fit a message ends without error with exactly the credential staged and
everything else untouched. If the certificate is one sequence and all saves succeed, the whole
bootstrap returns with exactly the given bytes stored. The key of a CA that is not given gets
what an earlier session staged completely, and otherwise keeps what it has. -/
theorem credential_transfer_exact {py : Clients.Python} {z : Zcbor}
    (writes : Writes py) (readsRequests : ReadsRequests z)
    (readsNumbers : ReadsNumbers py) (s : Store)
    (sized : ∀ k, (s.blob k).buf.length = cap k) (save : CredKind → Bool) :
    (∀ kind der chunk, 1 ≤ der.length → der.length ≤ cap kind → 1 ≤ chunk →
      PiecesFit kind der chunk →
      ∃ s', pushCredential py z save kind der chunk s = some (.ok (), s') ∧
        (s'.blob kind).staged = der.length ∧ (s'.blob kind).expected = der.length ∧
        (s'.blob kind).buf.take der.length = der ∧
        (∀ j ≠ kind, s'.blob j = s.blob j) ∧ s'.settings = s.settings) ∧
    ∀ certDer keyDer caDer,
      1 ≤ certDer.length ∧ certDer.length ≤ cap .deviceCert →
      1 ≤ keyDer.length ∧ keyDer.length ≤ cap .privateKey →
      (∀ ca ∈ caDer, 1 ≤ ca.length ∧ ca.length ≤ cap .caCert) →
      derSequenceLenOk certDer certDer.length → (∀ k, save k) →
      ∃ s', bootstrapCredentials py z save certDer keyDer caDer s = some (.ok (), s') ∧
        s'.settings .deviceCert = some certDer ∧ s'.settings .privateKey = some keyDer ∧
        s'.settings .caCert = caDer.or (stored s .caCert) := by
  constructor
  · intro kind der chunk nonempty fits positive pieces
    obtain ⟨s', hpush, hpushed⟩ :=
      pushCredential_ok save writes readsRequests readsNumbers (sized kind) fits positive pieces
    obtain ⟨hstaged, hexpected⟩ := hpushed.counters (by omega)
    exact ⟨s', hpush, hstaged, hexpected, hpushed.whole, hpushed.others, hpushed.settings⟩
  · intro certDer keyDer caDer cert key ca sequence all
    exact bootstrapCredentials_ok writes readsRequests readsNumbers sized cert key ca sequence all

/-- A reader with fuel for twice the bytes of a message. -/
lemma definite_readsRequests : ReadsRequests (Zcbor.definite 768) := by
  intro r bounds fits
  obtain ⟨hok, hlength⟩ := request_small bounds
  have hread := read_encode r.item hok (by omega) [] 768 (by rw [msgMax] at fits; omega)
  rw [List.append_nil] at hread
  simp only [Zcbor.definite, hread, Option.map_some]

lemma reference_readsNumbers (prim : Saead.Primitives) :
    ReadsNumbers (Clients.referencePython prim) := by
  intro ns few small
  have hitems : ∀ x ∈ ns.map Item.uint, Small 9 x := by
    intro x hx
    obtain ⟨n, hn, rfl⟩ := List.mem_map.mp hx
    exact ⟨Nat.lt_trans (small n hn) (by decide), Cddl.head_length_le_nine 0 n⟩
  obtain ⟨hok, hlength⟩ := array_small hitems
  have hloads := Clients.referencePython_loads prim hok (by simp at hlength; omega) []
  rw [List.append_nil] at hloads
  refine ⟨_, _, _, hloads, rfl, ?_⟩
  clear hitems hok hlength hloads few small
  induction ns with
  | nil => exact .nil
  | cons n ns ih =>
    refine .cons ⟨fun i => ?_, rfl⟩ ih
    simp only [Clients.referencePython, Clients.itemPython, Clients.intOf, Option.some.injEq]
    exact decide_eq_decide.mpr eq_comm

/-- A store in which an earlier session left a part of a certificate. -/
def halfWritten : Store := (credStage 0 0 10 [1, 2, 3] (boot fun _ => none)).2

theorem credential_transfer_exact_resumed :
    (∃ s', pushCredential (Clients.referencePython Clients.samplePrimitives)
        (Zcbor.definite 768) (fun _ => true) .deviceCert [0x30, 0x02, 0xaa, 0xbb] 3 halfWritten =
          some (.ok (), s') ∧
        (s'.blob .deviceCert).staged = 4 ∧ (s'.blob .deviceCert).expected = 4 ∧
        (s'.blob .deviceCert).buf.take 4 = [0x30, 0x02, 0xaa, 0xbb] ∧
        (∀ j ≠ .deviceCert, s'.blob j = halfWritten.blob j) ∧
        s'.settings = halfWritten.settings) ∧
    ∃ s', bootstrapCredentials (Clients.referencePython Clients.samplePrimitives)
        (Zcbor.definite 768) (fun _ => true) [0x30, 0x02, 0xaa, 0xbb] [0x01] none halfWritten =
          some (.ok (), s') ∧
        s'.settings .deviceCert = some [0x30, 0x02, 0xaa, 0xbb] ∧
        s'.settings .privateKey = some [0x01] ∧
        s'.settings .caCert = stored halfWritten .caCert := by
  have hsized : ∀ k, (halfWritten.blob k).buf.length = cap k := fun k =>
    (CredRuns.credStage_wf (CredRuns.boot_wf fun _ => none) 0 0 10 [1, 2, 3] k).size
  obtain ⟨hpush, hboot⟩ := credential_transfer_exact (item_writes _ _ _) definite_readsRequests
    (reference_readsNumbers Clients.samplePrimitives) halfWritten hsized fun _ => true
  refine ⟨hpush .deviceCert [0x30, 0x02, 0xaa, 0xbb] 3 (by decide) (by decide) (by decide) ?_,
    hboot [0x30, 0x02, 0xaa, 0xbb] [0x01] none (by decide) (by decide) (by simp) (by decide)
      (by simp)⟩
  intro i hi
  obtain rfl | rfl : i = 0 ∨ i = 1 := by simp at hi; omega
  · decide
  · decide

end CredPush
