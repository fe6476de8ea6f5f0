import PouchProv.Device

/-!
# Delivery of requests

A request entry arrives in any number of pieces; the dispatcher joins them or
notes that they do not fit (`deliver_eq`), whatever the split and the unfinished
entry before it (`fragments_joined`). The handler of the endpoint decodes
the message and answers under the op code it decoded, or returns an error
(`runHandler_outcome`).
-/

namespace Requests

open Bytes Cbor Codec Handlers Auth Device ProvTypes Status Runs

/-- A request entry of a registered path and of content type CBOR, split into the pieces of
its `downlink_data` calls. -/
structure Entry where
  ep : Endpoint
  pieces : List Bytes
  last : Bytes
  world : World

def Entry.msg (e : Entry) : Bytes := e.pieces.flatten ++ e.last

def Entry.events (e : Entry) : List Ev :=
  .downlinkStart 0 (path e.ep) contentTypeCbor ::
    (e.pieces.map (fun p => .downlinkData 0 p false e.world) ++
      [.downlinkData 0 e.last true e.world])

def deliver (b : Board) (d : Dev) (e : Entry) : Dev := e.events.foldl (step b) d

lemma path_injective {a b : Endpoint} (same : path a = path b) : a = b := by
  revert same
  cases a <;> cases b <;> decide

lemma find_endpoint {build : Build} {ep : Endpoint} (registered : ep ∈ endpoints build) :
    (endpoints build).find? (path · = path ep) = some ep := by
  have hsome : ((endpoints build).find? (path · = path ep)).isSome :=
    List.find?_isSome.mpr ⟨ep, registered, by simp⟩
  obtain ⟨found, hfound⟩ := Option.isSome_iff_exists.mp hsome
  have hpath := List.find?_some hfound
  rw [hfound, path_injective (of_decide_eq_true hpath)]

lemma downlinkStart_registered {build : Build} {ep : Endpoint}
    (registered : ep ∈ endpoints build) (d : Dev) :
    downlinkStart build 0 (path ep) contentTypeCbor d =
      { d with active := ⟨some ep, [], false⟩ } := by
  have hprefix : (path ep).take 6 = utf8 ".prov/" := by cases ep <;> decide
  simp [downlinkStart, hprefix, find_endpoint registered]

/-- What the buffer holds after the given bytes of an entry. -/
structure Received (ep : Endpoint) (seen : Bytes) (a : Active) : Prop where
  endpoint : a.endpoint = some ep
  overflow : a.overflow = decide (msgMax < seen.length)
  buf : seen.length ≤ msgMax → a.buf = seen

lemma receive_received {ep : Endpoint} {seen : Bytes} {a : Active} (h : Received ep seen a)
    (data : Bytes) : Received ep (seen ++ data) (receive data a) := by
  have hlen : (seen ++ data).length = seen.length + data.length := List.length_append
  rcases Nat.lt_or_ge msgMax seen.length with hlong | hshort
  · -- Once a piece was refused the flag stays, whatever later pieces do to the buffer.
    have hflag : a.overflow = true := by rw [h.overflow]; exact decide_eq_true hlong
    have hmore : decide (msgMax < (seen ++ data).length) = true := decide_eq_true (by omega)
    rw [receive]
    split
    · exact ⟨h.endpoint, hmore.symm, fun hle => by omega⟩
    · exact ⟨h.endpoint, hflag.trans hmore.symm, fun hle => by omega⟩
  · rw [receive, h.buf hshort]
    split
    · rename_i hfull
      exact ⟨h.endpoint, (decide_eq_true (by omega)).symm, fun hle => by omega⟩
    · rename_i hfits
      have hflag : a.overflow = false := by
        rw [h.overflow]
        exact decide_eq_false (by omega)
      exact ⟨h.endpoint, hflag.trans (decide_eq_false (by omega)).symm, fun _ => rfl⟩

lemma pieces_received (b : Board) (d : Dev) {ep : Endpoint} {seen : Bytes} {a : Active}
    (h : Received ep seen a) (pieces : List (Bytes × World)) :
    ∃ a', Received ep (seen ++ (pieces.map Prod.fst).flatten) a' ∧
      (pieces.map fun p => Ev.downlinkData 0 p.1 false p.2).foldl (step b) { d with active := a } =
        { d with active := a' } := by
  induction pieces generalizing seen a with
  | nil => exact ⟨a, by simpa using h, rfl⟩
  | cons p pieces ih =>
    obtain ⟨a', hreceived, hrun⟩ := ih (receive_received h p.1)
    refine ⟨a', by simpa using hreceived, ?_⟩
    have hpiece : step b { d with active := a } (.downlinkData 0 p.1 false p.2) =
        { d with active := receive p.1 a } := by
      simp [step, downlinkData, h.endpoint]
    rw [List.map_cons, List.foldl_cons, hpiece, hrun]

/-- The `downlink_data` calls of an entry, each with what the platform does during it. -/
def dataCalls (streamId : Nat) (pieces : List (Bytes × World)) (last : Bytes) (w : World) :
    List Ev :=
  pieces.map (fun p => .downlinkData streamId p.1 false p.2) ++
    [.downlinkData streamId last true w]

/-- Once the endpoint is known, the pieces amount to one request, or to a refusal of one that
is too long. -/
theorem dataCalls_eq (b : Board) (d : Dev) (ep : Endpoint) (pieces : List (Bytes × World))
    {last msg : Bytes} (w : World) (joined : (pieces.map Prod.fst).flatten ++ last = msg) :
    ∃ a, (msg.length ≤ msgMax → a = ⟨none, msg, false⟩) ∧
      (dataCalls 0 pieces last w).foldl (step b) { d with active := ⟨some ep, [], false⟩ } =
        if msg.length > msgMax then
          respondStatus w.memory ep 0 .invalidArgument { d with active := a }
        else handleRequest b w ep msg { d with active := a } := by
  have hstart : Received ep [] ⟨some ep, [], false⟩ := ⟨rfl, rfl, fun _ => rfl⟩
  obtain ⟨a, hpieces, hrun⟩ := pieces_received b d hstart pieces
  have hlast : Received ep msg (receive last a) := by
    rw [← joined]
    exact receive_received hpieces last
  have hcalls : (dataCalls 0 pieces last w).foldl (step b)
      { d with active := ⟨some ep, [], false⟩ } =
        downlinkData b w 0 last true { d with active := a } := by
    rw [dataCalls, List.foldl_append, hrun]
    rfl
  refine ⟨{ receive last a with endpoint := none }, ?_, ?_⟩
  · intro hfits
    simp [hlast.buf hfits, hlast.overflow, hfits]
  · rw [hcalls]
    simp only [downlinkData, hpieces.endpoint, hlast.overflow]
    by_cases hlong : msg.length > msgMax
    · simp [hlong]
    · simp [hlong, hlast.buf (Nat.le_of_not_lt hlong)]

/-- The dispatcher sees the whole message of an entry, however it was split. -/
theorem deliver_eq {b : Board} {e : Entry} (registered : e.ep ∈ endpoints b.build) (d : Dev) :
    ∃ a, deliver b d e =
      if e.msg.length > msgMax then
        respondStatus e.world.memory e.ep 0 .invalidArgument { d with active := a }
      else handleRequest b e.world e.ep e.msg { d with active := a } := by
  have hjoined : ((e.pieces.map (·, e.world)).map Prod.fst).flatten ++ e.last = e.msg := by
    simp [Entry.msg, Function.comp_def]
  obtain ⟨a, -, hcalls⟩ := dataCalls_eq b d e.ep (e.pieces.map (·, e.world)) e.world hjoined
  refine ⟨a, ?_⟩
  have hevents : e.events = .downlinkStart 0 (path e.ep) contentTypeCbor ::
      dataCalls 0 (e.pieces.map (·, e.world)) e.last e.world := by
    simp [Entry.events, dataCalls, Function.comp_def]
  have hfirst := downlinkStart_registered registered d
  rw [deliver, hevents, List.foldl_cons]
  rw [show step b d (.downlinkStart 0 (path e.ep) contentTypeCbor) = _ from hfirst]
  exact hcalls

/-- The calls that deliver an entry of any path. -/
def calls (streamId : Nat) (p : Bytes) (contentType : Nat) (pieces : List (Bytes × World))
    (last : Bytes) (w : World) : List Ev :=
  .downlinkStart streamId p contentType :: dataCalls streamId pieces last w

/-- The device apart from the entry in progress, which the next `downlink_start` clears. -/
def settled (d : Dev) : Dev := { d with active := ⟨none, [], false⟩ }

/-- A start forgets the entry in progress. What it finds depends on the entry alone, and only
entries of stream zero find an endpoint. -/
lemma downlinkStart_found (build : Build) (streamId : Nat) (p : Bytes) (contentType : Nat) :
    ∃ found : Option Endpoint, (found ≠ none → streamId = 0) ∧
      ∀ d, downlinkStart build streamId p contentType d =
        { d with active := ⟨found, [], false⟩ } := by
  by_cases hother : streamId ≠ 0 ∨ p.take 6 ≠ utf8 ".prov/"
  · exact ⟨none, by simp, fun d => by simp only [downlinkStart, if_pos hother]⟩
  · by_cases htype : contentType ≠ contentTypeCbor
    · exact ⟨none, by simp, fun d => by simp only [downlinkStart, if_neg hother, if_pos htype]⟩
    · refine ⟨(endpoints build).find? (path · = p), fun _ => ?_, fun d => ?_⟩
      · exact not_not.mp (not_or.mp hother).1
      · simp only [downlinkStart, if_neg hother, if_neg htype]

/-- Without an endpoint the data is ignored. -/
lemma dataCalls_ignored (b : Board) (streamId : Nat) (pieces : List (Bytes × World))
    (last : Bytes) (w : World) {d : Dev} (idle : d.active.endpoint = none) :
    (dataCalls streamId pieces last w).foldl (step b) d = d := by
  have hcall : ∀ data isLast w, step b d (.downlinkData streamId data isLast w) = d := by
    intro data isLast w
    simp only [step, downlinkData, idle]
  induction pieces with
  | nil => exact hcall last true w
  | cons p pieces ih =>
    rw [dataCalls, List.map_cons, List.cons_append, List.foldl_cons, hcall]
    exact ih

/-- An answer does not look at the entry in progress. -/
lemma settled_respondStatus (memory : Bool) (ep : Endpoint) (op : Nat) (status : ProvStatus)
    (d : Dev) (a a' : Active) :
    settled (respondStatus memory ep op status { d with active := a }) =
      settled (respondStatus memory ep op status { d with active := a' }) := by
  rw [respondStatus, respondStatus]
  cases cborEncode 16 (encodeCtrlRsp ⟨op, status⟩) with
  | none => rfl
  | some _ => rfl

/-- How a message is split into pieces makes no difference, nor does the entry that was in
progress before: all but the entry buffer ends as if the message came in one call. -/
theorem fragments_joined (b : Board) (d : Dev) (unfinished : Active) (streamId : Nat) (p : Bytes)
    (contentType : Nat) (pieces : List (Bytes × World)) (last : Bytes) (w : World) :
    settled ((calls streamId p contentType pieces last w).foldl (step b) d) =
      settled ((calls streamId p contentType [] ((pieces.map Prod.fst).flatten ++ last) w).foldl
        (step b) { d with active := unfinished }) := by
  obtain ⟨found, hstream, hstart⟩ := downlinkStart_found b.build streamId p contentType
  have hfirst : ∀ d, step b d (.downlinkStart streamId p contentType) =
      { d with active := ⟨found, [], false⟩ } := hstart
  rw [calls, calls, List.foldl_cons, List.foldl_cons, hfirst, hfirst]
  cases found with
  | none => rw [dataCalls_ignored _ _ _ _ _ rfl, dataCalls_ignored _ _ _ _ _ rfl]
  | some ep =>
    obtain rfl : streamId = 0 := hstream (Option.some_ne_none ep)
    obtain ⟨a, hfits, hcalls⟩ := dataCalls_eq b d ep pieces w rfl
    obtain ⟨a', hfits', hcall⟩ := dataCalls_eq b d ep [] w
      (List.nil_append ((pieces.map Prod.fst).flatten ++ last))
    rw [hcalls, hcall]
    split
    · exact settled_respondStatus _ _ _ _ d a a'
    · rename_i hshort
      rw [hfits (Nat.le_of_not_lt hshort), hfits' (Nat.le_of_not_lt hshort)]

/-- The op code of a request that the decoder of the endpoint accepts. -/
def requestOp (z : Zcbor) (ep : Endpoint) (msg : Bytes) : Option Nat :=
  match ep with
  | .ver => (decodeWith z decodeVerReq msg).map fun _ => 0
  | .auth => (decodeWith z decodeAuthReq msg).map authReqOp
  | .ctrl => (decodeWith z decodeCtrlReq msg).map ctrlReqOp
  | .config => (decodeWith z decodeConfigReq msg).map configReqOp
  | .scan => (decodeWith z decodeScanReq msg).map scanReqOp
  | .cred => (decodeWith z decodeCredReq msg).map credReqOp

lemma firstOp_of_decodeWith {z : Zcbor} {α : Type} {dec : Item → Option α} {opOf : α → Nat}
    (sound : ∀ x r, dec x = some r → HasOp x (opOf r)) {msg : Bytes} {op : Nat}
    (h : (decodeWith z dec msg).map opOf = some op) : firstOp msg = some op := by
  obtain ⟨r, hr, rfl⟩ := Option.map_eq_some_iff.mp h
  obtain ⟨x, hread, hdec⟩ := Option.bind_eq_some_iff.mp hr
  obtain ⟨rest, hparse⟩ := z.sound msg x hread
  obtain ⟨xs, rfl⟩ := sound x r hdec
  exact firstOp_of_parses hparse

lemma firstOp_of_requestOp {z : Zcbor} {ep : Endpoint} {msg : Bytes} {op : Nat}
    (h : requestOp z ep msg = some op) : firstOp msg = some op := by
  cases ep with
  | ver => exact firstOp_of_decodeWith (fun _ _ => decodeVerReq_op) h
  | auth => exact firstOp_of_decodeWith (fun _ _ => decodeAuthReq_op) h
  | ctrl => exact firstOp_of_decodeWith (fun _ _ => decodeCtrlReq_op) h
  | config => exact firstOp_of_decodeWith (fun _ _ => decodeConfigReq_op) h
  | scan => exact firstOp_of_decodeWith (fun _ _ => decodeScanReq_op) h
  | cred => exact firstOp_of_decodeWith (fun _ _ => decodeCredReq_op) h

/-- The guess of `peek_op` is the op code of an array, or zero. -/
lemma peekOp_of_firstOp {msg : Bytes} {op : Nat} (h : firstOp msg = some op) :
    peekOp msg = op ∨ peekOp msg = 0 := by
  match msg with
  | [] => exact Or.inr rfl
  | [_] => exact Or.inr rfl
  | x :: y :: rest =>
    rw [peekOp]
    split
    · rename_i hcanonical
      obtain ⟨hlow, hhigh, hsmall⟩ := hcanonical
      have h1 : 0x81 ≤ x.toNat := UInt8.le_iff_toNat_le.mp hlow
      have h2 : x.toNat ≤ 0x84 := UInt8.le_iff_toNat_le.mp hhigh
      have h3 : y.toNat ≤ 0x17 := UInt8.le_iff_toNat_le.mp hsmall
      have harray : readHead (x :: y :: rest) =
          some ⟨4, x.toNat % 32, x.toNat % 32, y :: rest⟩ := by
        have hinfo : x.toNat % 32 < 24 := by omega
        have hmajor : x.toNat / 32 = 4 := by omega
        simp [readHead, hinfo, hmajor]
      have hfirst : readHead (y :: rest) = some ⟨0, y.toNat, y.toNat, rest⟩ := by
        have harg : y.toNat % 32 = y.toNat := by omega
        have hinfo : y.toNat < 24 := by omega
        have hmajor : y.toNat / 32 = 0 := by omega
        simp [readHead, harg, hinfo, hmajor]
      simp only [firstOp, arrayBody, harray, Option.bind_some, hfirst, if_true,
        Option.some.injEq] at h
      exact Or.inl h
    · exact Or.inr rfl

/-- The result of a handler is a response of the given op code that fits a message. -/
def Answers (op : Nat) (rsp : Except Errno Bytes) : Prop :=
  ∃ m, rsp = .ok m ∧ ArrayOp m op ∧ 0 < m.length ∧ m.length ≤ msgMax

/-- What is answered is the encoding of an item that fits. -/
lemma answer_ok_iff {item : Option Item} {b : Bytes} :
    answer item = .ok b ↔ ∃ x, item = some x ∧ (encode x).length ≤ msgMax ∧ b = encode x := by
  cases item with
  | none => simp [answer, cborEncode]
  | some x =>
    by_cases hfits : (encode x).length ≤ msgMax
    · simp [answer, cborEncode, hfits, eq_comm]
    · simp [answer, cborEncode, hfits]

lemma answer_cases {op : Nat} {status : ProvStatus} {item : Option Item}
    (resp : ∀ x, item = some x → Response op status x) :
    Answers op (answer item) ∨ answer item = .error .enomem := by
  rw [answer]
  cases h : cborEncode msgMax item with
  | none => exact Or.inr rfl
  | some m => exact Or.inl ⟨m, rfl, cborEncode_arrayOp (by decide) resp h⟩

lemma answer_fits {op : Nat} {status : ProvStatus} {x : Item} (resp : Response op status x)
    (fits : (encode x).length ≤ msgMax) : Answers op (answer (some x)) := by
  have hencode := cborEncode_some fits
  have hresp : ∀ y, some x = some y → Response op status y := by
    rintro y ⟨⟩
    exact resp
  exact ⟨encode x, by rw [answer, hencode], cborEncode_arrayOp (by decide) hresp hencode⟩

/-- A bare status always fits. -/
lemma answer_status (op : Nat) (hop : op ≤ 2) (status : ProvStatus) :
    Answers op (answer (some (.array [.uint op, encodeProvStatus status]))) := by
  refine answer_fits (response_of_all (by simp) (by omega)) ?_
  rw [statusPair_length hop]
  decide

/-- What a handler can return, by the op code that was decoded. The error of a request of op
code zero needs no cause: the bare status sent in its place carries the same op code. -/
inductive Outcome (fails : Prop) : Option Nat → Except Errno Bytes → Prop where
  | malformed : Outcome fails none (.error .ebadmsg)
  | answered {op : Nat} {rsp : Except Errno Bytes} (fine : ¬ fails) (answers : Answers op rsp) :
      Outcome fails (some op) rsp
  | failed {op : Nat} {err : Errno} (cause : op = 0 ∨ fails) :
      Outcome fails (some op) (.error err)

/-- A response of op code zero that is encoded or not. -/
lemma outcome_zero {fails : Prop} (fine : ¬ fails) {status : ProvStatus} {item : Option Item}
    (resp : ∀ x, item = some x → Response 0 status x) : Outcome fails (some 0) (answer item) := by
  rcases answer_cases resp with h | h
  · exact .answered fine h
  · rw [h]
    exact .failed (Or.inl rfl)

lemma handleVer_outcome (z : Zcbor) (build : Build) (pop : Option Bytes) (req : Bytes) :
    Outcome False (requestOp z .ver req) (handleVer z build pop req) := by
  simp only [handleVer, requestOp]
  cases decodeWith z decodeVerReq req with
  | none => exact .malformed
  | some r => exact outcome_zero id fun _ => encodeVerRsp_response

/-- A proof that would be compared, but for which the crypto library fails. -/
def ProofFails (z : Zcbor) (c : Crypto) (pop : Option Bytes) (s : Session) (req : Bytes) : Prop :=
  (∃ p, decodeWith z decodeAuthReq req = some (.proof p)) ∧ s.auth.challenged = true ∧
    s.auth.attempts + 1 ≤ maxAttempts ∧
    hmacProof c pop "cli" s.auth.devNonce s.auth.cliNonce = none

lemma handleChallenge_outcome {fails : Prop} (fine : ¬ fails) (c : Crypto) (pop : Option Bytes)
    (rand : Nonce) (s : Session) (nonce : Bytes) :
    Outcome fails (some 0) (handleChallenge c pop rand s nonce).1 := by
  rw [handleChallenge]
  split
  · exact .failed (Or.inl rfl)
  · simp only
    split
    · exact .failed (Or.inl rfl)
    · exact outcome_zero fine fun _ => encodeAuthRsp_response

lemma handleProof_outcome {fails : Prop} {c : Crypto} {pop : Option Bytes} {s : Session}
    {proof : Bytes} (len : proof.length = proofLen)
    (exact_cause : fails ↔ s.auth.challenged = true ∧ s.auth.attempts + 1 ≤ maxAttempts ∧
      hmacProof c pop "cli" s.auth.devNonce s.auth.cliNonce = none) :
    Outcome fails (some 1) (handleProof c pop s proof).1 := by
  have hrespond (status : ProvStatus) : Answers 1 (respondProof status) :=
    answer_status 1 (by omega) status
  rw [handleProof]
  split
  · rename_i hearly
    refine .answered (fun hf => ?_) (hrespond .invalidState)
    rcases hearly with h | h
    · exact absurd ((exact_cause.mp hf).1) (by simp [h])
    · exact h len
  · rename_i hready
    have hchallenged : s.auth.challenged = true := by
      rw [← Bool.not_eq_false]
      exact fun h => hready (Or.inl h)
    simp only
    split
    · rename_i hmany
      exact .answered (fun hf => absurd (exact_cause.mp hf).2.1 (UInt8.not_le.mpr hmany))
        (hrespond .unauthorized)
    · rename_i hfew
      have hallowed : s.auth.attempts + 1 ≤ maxAttempts := UInt8.not_lt.mp hfew
      have hcompared {out : Bytes}
          (hout : hmacProof c pop "cli" s.auth.devNonce s.auth.cliNonce = some out) : ¬ fails :=
        fun hf => by simp [(exact_cause.mp hf).2.2] at hout
      split
      · rename_i hnone
        exact .failed (Or.inr (exact_cause.mpr ⟨hchallenged, hallowed, hnone⟩))
      · rename_i hsome
        split
        · exact .answered (hcompared hsome) (hrespond .unauthorized)
        · exact .answered (hcompared hsome) (hrespond .ok)

lemma handleAuth_outcome (z : Zcbor) (c : Crypto) (pop : Option Bytes) (rand : Nonce)
    (s : Session) (req : Bytes) :
    Outcome (ProofFails z c pop s req) (requestOp z .auth req)
      (handleAuth z c pop rand s req).1 := by
  simp only [handleAuth, requestOp]
  cases hdec : decodeWith z decodeAuthReq req with
  | none => exact .malformed
  | some r =>
    cases r with
    | challenge nonce =>
      refine handleChallenge_outcome (fun hf => ?_) c pop rand s nonce
      obtain ⟨⟨p, hp⟩, -⟩ := hf
      rw [hdec] at hp
      exact absurd (Option.some.inj hp) AuthReq.noConfusion
    | proof p =>
      obtain ⟨x, -, hx⟩ := Option.bind_eq_some_iff.mp hdec
      refine handleProof_outcome (decodeAuthReq_proof_length hx) ?_
      exact ⟨fun hf => hf.2, fun hf => ⟨⟨p, hdec⟩, hf⟩⟩

lemma handleCtrl_outcome (z : Zcbor) (build : Build) (env : WipeEnv) (w : Wifi)
    (s : CredStore.Store) (req : Bytes) :
    Outcome False (requestOp z .ctrl req) (handleCtrl z build env w s req).1 := by
  simp only [handleCtrl, requestOp]
  cases decodeWith z decodeCtrlReq req with
  | none => exact .malformed
  | some r =>
    cases r with
    | ctrlReset => exact .answered id (answer_status 0 (by omega) .ok)
    | ctrlReprovision => exact .answered id (answer_status 1 (by omega) .ok)
    | ctrlEnd => exact .answered id (answer_status 2 (by omega) .ok)

lemma encodeStatus_outcome (env : StatusEnv) (w : Wifi) :
    Outcome False (some 0) (encodeStatus env w).1 := by
  rw [encodeStatus]
  split
  · exact outcome_zero id fun _ => encodeConfigRsp_response
  · split
    · exact outcome_zero id fun _ => encodeConfigRsp_response
    · exact outcome_zero id fun _ => encodeConfigRsp_response

lemma handleConfig_outcome (z : Zcbor) (status : StatusEnv) (env : WifiConfig.Env) (w : Wifi)
    (req : Bytes) :
    Outcome False (requestOp z .config req) (handleConfig z status env w req).1 := by
  simp only [handleConfig, requestOp]
  cases decodeWith z decodeConfigReq req with
  | none => exact .malformed
  | some r =>
    cases r with
    | getStatus => exact encodeStatus_outcome status w
    | set cfg => exact .answered id (answer_status 1 (by omega) _)
    | apply => exact .answered id (answer_status 2 (by omega) _)

/-- A page of scan results that the encoder refuses. -/
def PageFails (z : Zcbor) (sc : Scan) (req : Bytes) : Prop :=
  ∃ start count, decodeWith z decodeScanReq req = some (.getResults start count) ∧
    cborEncode msgMax (encodeScanRsp (.resultsRsp .ok (page start count sc))) = none

lemma u32_length_le (n : Nat) : (encode (u32 n)).length ≤ 5 :=
  head_length_le 0 (Nat.mod_lt n (by decide))

lemma encodeProvStatus_length (s : ProvStatus) : (encode (encodeProvStatus s)).length = 1 := by
  have hcode : s.code < 24 := by cases s <;> decide
  simp [encode, encodeProvStatus, head_length_small, hcode]

lemma scanStatus_answers (finished : Bool) (total : Nat) :
    Answers 1 (answer (encodeScanRsp (.statusRsp .ok finished total))) := by
  refine answer_fits (encodeScanRsp_response (r := .statusRsp .ok finished total) rfl) ?_
  have htotal := u32_length_le total
  have hbool : (encode (Item.bool finished)).length = 1 := by cases finished <;> rfl
  have hhead : (head 4 4).length = 1 := rfl
  have hop : (encode (.uint 1)).length = 1 := rfl
  simp only [encode, encodeAll, List.length_append, List.length_cons, List.length_nil, hbool,
    hhead, encodeProvStatus_length, msgMax] at hop ⊢
  omega

lemma handleScan_outcome (z : Zcbor) (env : ScanEnv) (sc : Scan) (req : Bytes) :
    Outcome (PageFails z sc req) (requestOp z .scan req) (handleScan z env sc req).1 := by
  simp only [handleScan, requestOp]
  cases hdec : decodeWith z decodeScanReq req with
  | none => exact .malformed
  | some r =>
    -- Only a request for results can have a page that fails.
    have hother (h : ∀ start count, r ≠ .getResults start count) : ¬ PageFails z sc req := by
      rintro ⟨start, count, heq, -⟩
      exact h start count (Option.some.inj (hdec.symm.trans heq))
    cases r with
    | start params =>
      exact .answered (hother fun _ _ => ScanReq.noConfusion) (answer_status 0 (by omega) _)
    | getStatus =>
      exact .answered (hother fun _ _ => ScanReq.noConfusion) (scanStatus_answers _ _)
    | getResults start count =>
      cases hpage : cborEncode msgMax (encodeScanRsp (.resultsRsp .ok (page start count sc))) with
      | none =>
        simp only [answer, hpage]
        exact .failed (Or.inr ⟨start, count, hdec, hpage⟩)
      | some m =>
        simp only [answer, hpage]
        refine .answered ?_ ⟨m, rfl, cborEncode_arrayOp (by decide)
          (fun _ => encodeScanRsp_response) hpage⟩
        rintro ⟨start', count', heq, hnone⟩
        obtain ⟨rfl, rfl⟩ := ScanReq.getResults.inj (Option.some.inj (hdec.symm.trans heq))
        simp [hpage] at hnone

lemma credStatusMap_length (s : CredStore.Store) : (credStatusMap s).length ≤ 3 :=
  Nat.le_trans (List.length_filter_le _ _) (by simp [CredStore.kinds])

lemma credStatusMap_key {s : CredStore.Store} {kv : String × Nat} (h : kv ∈ credStatusMap s) :
    (encode (text kv.1)).length = 2 := by
  have hnames : ∀ k ∈ CredStore.kinds, (encode (text (keyName k))).length = 2 := by decide +kernel
  obtain ⟨k, hk, rfl⟩ := List.mem_map.mp (List.mem_filter.mp h).1
  exact hnames k hk

lemma encodeAll_stored_length {stored : List (String × Nat)}
    (h : ∀ kv ∈ stored, (encode (text kv.1)).length = 2) :
    (encodeAll (stored.flatMap fun kv => [text kv.1, u32 kv.2])).length ≤ 7 * stored.length := by
  induction stored with
  | nil => exact Nat.le_refl 0
  | cons kv stored ih =>
    have hkey := h kv List.mem_cons_self
    have hvalue := u32_length_le kv.2
    have hothers := ih fun kv hkv => h kv (List.mem_cons_of_mem _ hkv)
    simp only [List.flatMap_cons, List.cons_append, List.nil_append, encodeAll,
      List.length_append, List.length_cons]
    omega

lemma credStatus_answers (s : CredStore.Store) :
    Answers 2 (answer (encodeCredRsp (.statusRsp .ok (credStatusMap s)))) := by
  have hcount := credStatusMap_length s
  have hkeys : ∀ kv ∈ credStatusMap s, (encode (text kv.1)).length = 2 := fun _ => credStatusMap_key
  have hbody := encodeAll_stored_length hkeys
  have hrsp : encodeCredRsp (.statusRsp .ok (credStatusMap s)) =
      some (.array [.uint 2, encodeProvStatus .ok,
        .map ((credStatusMap s).flatMap fun kv => [text kv.1, u32 kv.2])]) := by
    simp only [encodeCredRsp]
    exact if_pos (by omega)
  rw [hrsp]
  refine answer_fits (encodeCredRsp_response hrsp) ?_
  have hpairs : ((credStatusMap s).flatMap fun kv => [text kv.1, u32 kv.2]).length / 2 < 24 := by
    have hitems := length_le_encodeAll ((credStatusMap s).flatMap fun kv => [text kv.1, u32 kv.2])
    omega
  have hop : (head 0 2).length = 1 := rfl
  have harray : (head 4 3).length = 1 := rfl
  simp only [encode, encodeAll, List.length_append, List.length_cons, List.length_nil,
    encodeProvStatus_length, head_length_small _ hpairs, hop, harray, msgMax]
  omega

lemma handleCred_outcome (z : Zcbor) (save : CredStore.CredKind → Bool) (s : CredStore.Store)
    (req : Bytes) : Outcome False (requestOp z .cred req) (handleCred z save s req).1 := by
  simp only [handleCred, requestOp]
  cases decodeWith z decodeCredReq req with
  | none => exact .malformed
  | some r =>
    cases r with
    | write chunk =>
      dsimp only
      split
      · exact outcome_zero id fun _ => encodeCredRsp_response
      · exact outcome_zero id fun _ => encodeCredRsp_response
    | finalize => exact .answered id (answer_status 1 (by omega) _)
    | getStatus => exact .answered id (credStatus_answers s)

/-- The requests of an op code other than zero that are decoded but end in an error. -/
def Fails (b : Board) (w : World) (d : Dev) (ep : Endpoint) (msg : Bytes) : Prop :=
  match ep with
  | .auth => ProofFails b.zcbor ⟨b.hmac, w.crypto⟩ b.pop d.session msg
  | .scan => PageFails b.zcbor d.scan msg
  | _ => False

/-- Every handler answers under the op code that it decoded, or returns an error. -/
theorem runHandler_outcome (b : Board) (w : World) (ep : Endpoint) (msg : Bytes) (d : Dev) :
    Outcome (Fails b w d ep msg) (requestOp b.zcbor ep msg) (runHandler b w ep msg d).1 := by
  cases ep with
  | ver => exact handleVer_outcome _ _ _ _
  | auth => exact handleAuth_outcome _ _ _ _ _ _
  | ctrl => exact handleCtrl_outcome _ _ _ _ _ _
  | config => exact handleConfig_outcome _ _ _ _ _
  | scan => exact handleScan_outcome _ _ _ _
  | cred => exact handleCred_outcome _ _ _ _

end Requests
