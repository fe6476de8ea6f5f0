import PouchProv.AuthGate
import PouchProv.Requests

/-!
# Replies to requests

What the delivery of one request entry does to the response queue is said once,
in `deliver_queues`: the handler's response or a bare status is appended, or
nothing where the bare status has no encoding, and a request that ends
provisioning empties the queue first. From this follows when a request is
answered, and when a batch of requests is answered completely and in order.
-/

namespace Replies

open Bytes Cbor Codec Handlers Auth Device ProvTypes Status Runs Requests

def push (r : Rsp) (q : Rpc) : Rpc :=
  { fifo := q.fifo ++ [r], sem := true, enqueued := q.enqueued ++ [r] }

lemma rpcEnqueue_fits {r : Rsp} (fits : r.msg.length ≤ msgMax) (q : Rpc) :
    (rpcEnqueue true r q).2 = push r q := by
  simp [rpcEnqueue, Nat.not_lt.mpr fits, push]

lemma respondStatus_rpc {op : Nat} (hop : op ≤ 2) (ep : Endpoint) (status : ProvStatus)
    (d : Dev) :
    ∃ m, ArrayOp m op ∧ (respondStatus true ep op status d).rpc = push ⟨path ep, m⟩ d.rpc := by
  have hmod : u32 op = .uint op := congrArg Item.uint (Nat.mod_eq_of_lt (by omega))
  have hlen := statusPair_length hop status
  have hencode : cborEncode 16 (encodeCtrlRsp ⟨op, status⟩) =
      some (encode (.array [.uint op, encodeProvStatus status])) := by
    rw [encodeCtrlRsp, if_pos hop, hmod]
    exact cborEncode_some (Nat.le_trans (Nat.le_of_eq hlen) (by decide))
  obtain ⟨hlabel, -, hsize⟩ := cborEncode_arrayOp (by decide)
    (fun _ h => (encodeCtrlRsp_response h).1) hencode
  refine ⟨_, hlabel, ?_⟩
  simp only [respondStatus, hencode]
  exact rpcEnqueue_fits (Nat.le_trans hsize (by decide)) d.rpc

/-- The schema of a bare status has no op code above two: nothing is sent. -/
lemma respondStatus_refused {op : Nat} (hop : 2 < op) (memory : Bool) (ep : Endpoint)
    (status : ProvStatus) (d : Dev) : respondStatus memory ep op status d = d := by
  simp [respondStatus, encodeCtrlRsp, cborEncode, Nat.not_le.mpr hop]

lemma reply_answers {op : Nat} {rsp : Except Errno Bytes} (h : Answers op rsp) (ep : Endpoint)
    (req : Bytes) (d : Dev) :
    ∃ m, ArrayOp m op ∧ (reply true ep req rsp d).rpc = push ⟨path ep, m⟩ d.rpc := by
  obtain ⟨m, rfl, hop, hpos, hfits⟩ := h
  refine ⟨m, hop, ?_⟩
  simp only [reply, gt_iff_lt, hpos, if_true]
  exact rpcEnqueue_fits hfits d.rpc

lemma reply_error (memory : Bool) (ep : Endpoint) (req : Bytes) (err : Errno) (d : Dev) :
    ∃ status, reply memory ep req (.error err) d =
      respondStatus memory ep (peekOp req) status d := by
  cases err with
  | ebadmsg => exact ⟨.invalidArgument, rfl⟩
  | _ => exact ⟨.internalError, rfl⟩

@[simp] lemma emit_rpc (build : Build) (e : Event) (d : Dev) : (emit build e d).rpc = d.rpc := by
  obtain ⟨armed, h⟩ := emit_frame build e d
  rw [h]

@[simp] lemma emitAll_rpc (build : Build) (outs : List WifiConfig.Out) (d : Dev) :
    (emitAll build outs d).rpc = d.rpc := by
  obtain ⟨armed, h⟩ := emitAll_frame build outs d
  rw [h]

lemma mgrStop_rpc (build : Build) (d : Dev) :
    (mgrStop build d).2.rpc = if d.running then rpcReset d.rpc else d.rpc := by
  cases h : d.running with
  | false => simp [mgrStop, h]
  | true => simp [mgrStop, h, endSession, dispatchReset]

/-- A request to end provisioning. -/
def isEnd (z : Zcbor) (ep : Endpoint) (msg : Bytes) : Bool :=
  ep = .ctrl && decodeWith z decodeCtrlReq msg = some .ctrlEnd

lemma handleCtrl_stops (z : Zcbor) (build : Build) (env : WipeEnv) (w : Wifi)
    (s : CredStore.Store) (req : Bytes) :
    (handleCtrl z build env w s req).2.2.2 = isEnd z .ctrl req := by
  simp only [handleCtrl, isEnd]
  cases hdec : decodeWith z decodeCtrlReq req with
  | none => rfl
  | some r =>
    cases r with
    | ctrlReset => rfl
    | ctrlReprovision => rfl
    | ctrlEnd =>
      obtain ⟨m, hm, -⟩ := answer_status 2 (by omega) .ok
      have hencoded : answer (encodeCtrlRsp ⟨2, .ok⟩) = .ok m := hm
      simp [hencoded, Except.isOk, Except.toBool]

/-- A handler leaves the queue alone, unless it stops a running manager. -/
lemma runHandler_rpc (b : Board) (w : World) (ep : Endpoint) (msg : Bytes) (d : Dev) :
    (runHandler b w ep msg d).2.rpc =
      if isEnd b.zcbor ep msg ∧ d.running then rpcReset d.rpc else d.rpc := by
  cases ep with
  | ver => rfl
  | auth => rfl
  | scan => rfl
  | config => simp [runHandler, isEnd]
  | cred =>
    simp only [runHandler, isEnd]
    split <;> simp
  | ctrl =>
    simp only [runHandler, handleCtrl_stops]
    cases isEnd b.zcbor .ctrl msg with
    | false => simp
    | true => simp [mgrStop_rpc]

/-- The handler runs, decodes the request and is not kept from answering it. -/
def Served (b : Board) (d : Dev) (e : Entry) : Prop :=
  (requireAuth e.ep → sessionAuthorized b.pop d.session) ∧
    requestOp b.zcbor e.ep e.msg ≠ none ∧ ¬ Fails b e.world d e.ep e.msg

/-- The entry stops a running manager. -/
def Stops (b : Board) (d : Dev) (e : Entry) : Prop :=
  e.msg.length ≤ msgMax ∧ sessionAuthorized b.pop d.session ∧ isEnd b.zcbor e.ep e.msg ∧ d.running

/-- An error is to be reported under an op code that the bare status does not have. -/
def Lost (b : Board) (d : Dev) (e : Entry) : Prop :=
  e.msg.length ≤ msgMax ∧ ¬ Served b d e ∧ 2 < peekOp e.msg

/-- What the delivery of an entry can make of the queue. -/
inductive Queues (b : Board) (d : Dev) (e : Entry) : Rpc → Prop where
  | lost (h : Lost b d e) : Queues b d e d.rpc
  | oversized {m : Bytes} (long : msgMax < e.msg.length) (label : ArrayOp m 0) :
      Queues b d e (push ⟨path e.ep, m⟩ d.rpc)
  | refused {m : Bytes} (fits : e.msg.length ≤ msgMax) (unserved : ¬ Served b d e)
      (small : peekOp e.msg ≤ 2) (label : ArrayOp m (peekOp e.msg)) :
      Queues b d e (push ⟨path e.ep, m⟩ d.rpc)
  | served {m : Bytes} {op : Nat} (fits : e.msg.length ≤ msgMax) (served : Served b d e)
      (request : firstOp e.msg = some op) (label : ArrayOp m op) (runs : ¬ Stops b d e) :
      Queues b d e (push ⟨path e.ep, m⟩ d.rpc)
  | stopped {m : Bytes} {op : Nat} (served : Served b d e) (request : firstOp e.msg = some op)
      (label : ArrayOp m op) (stops : Stops b d e) :
      Queues b d e (push ⟨path e.ep, m⟩ (rpcReset d.rpc))

section Entry

variable {b : Board} {d : Dev} {e : Entry}

lemma served_of_isEnd (allowed : requireAuth e.ep → sessionAuthorized b.pop d.session)
    (hend : isEnd b.zcbor e.ep e.msg) : Served b d e := by
  simp only [isEnd, Bool.and_eq_true, decide_eq_true_eq] at hend
  obtain ⟨hctrl, hdec⟩ := hend
  refine ⟨allowed, ?_, ?_⟩
  · simp [hctrl, requestOp, hdec]
  · simp [hctrl, Fails]

lemma refused_queues (fits : e.msg.length ≤ msgMax) (unserved : ¬ Served b d e)
    (status : ProvStatus) {d' : Dev} (same : d'.rpc = d.rpc) :
    Queues b d e (respondStatus true e.ep (peekOp e.msg) status d').rpc := by
  rcases Nat.lt_or_ge 2 (peekOp e.msg) with hlarge | hsmall
  · rw [respondStatus_refused hlarge, same]
    exact .lost ⟨fits, unserved, hlarge⟩
  · obtain ⟨m, hlabel, hrpc⟩ := respondStatus_rpc hsmall e.ep status d'
    rw [hrpc, same]
    exact .refused fits unserved hsmall hlabel

lemma served_queues (fits : e.msg.length ≤ msgMax) (served : Served b d e) {m : Bytes} {op : Nat}
    (request : firstOp e.msg = some op) (label : ArrayOp m op) {q : Rpc}
    (left : q = if isEnd b.zcbor e.ep e.msg ∧ d.running then rpcReset d.rpc else d.rpc) :
    Queues b d e (push ⟨path e.ep, m⟩ q) := by
  split at left
  · rename_i hend
    have hctrl : e.ep = .ctrl := by
      have := hend.1
      simp only [isEnd, Bool.and_eq_true, decide_eq_true_eq] at this
      exact this.1
    rw [left]
    exact .stopped served request label
      ⟨fits, served.1 (by rw [hctrl]; rfl), hend.1, hend.2⟩
  · rename_i hend
    rw [left]
    exact .served fits served request label fun h => hend h.2.2

lemma handleRequest_queues (fits : e.msg.length ≤ msgMax) (memory : e.world.memory = true)
    (a : Active) :
    Queues b d e (handleRequest b e.world e.ep e.msg { d with active := a }).rpc := by
  rw [handleRequest, memory]
  split
  · rename_i hgate
    have hunserved : ¬ Served b d e := fun h => hgate.2 (h.1 hgate.1)
    exact refused_queues fits hunserved .unauthorized rfl
  · rename_i hgate
    have hallowed : requireAuth e.ep → sessionAuthorized b.pop d.session := fun h => by
      by_contra hno
      exact hgate ⟨h, hno⟩
    let d1 : Dev := { d with active := a, session := d.session.log (.handler e.ep) }
    have hfails : Fails b e.world d1 e.ep e.msg ↔ Fails b e.world d e.ep e.msg := by
      cases e.ep <;> exact Iff.rfl
    have hleft : (runHandler b e.world e.ep e.msg d1).2.rpc = _ :=
      runHandler_rpc b e.world e.ep e.msg d1
    have hsame (unserved : ¬ Served b d e) :
        (runHandler b e.world e.ep e.msg d1).2.rpc = d.rpc := by
      rw [hleft, if_neg fun h => unserved (served_of_isEnd hallowed h.1)]
    have hout := runHandler_outcome b e.world e.ep e.msg d1
    show Queues b d e (reply true e.ep e.msg (runHandler b e.world e.ep e.msg d1).1
      (runHandler b e.world e.ep e.msg d1).2).rpc
    generalize hrequest : requestOp b.zcbor e.ep e.msg = request at hout
    generalize (runHandler b e.world e.ep e.msg d1).1 = rsp at hout ⊢
    cases hout with
    | malformed =>
      have hunserved : ¬ Served b d e := fun h => h.2.1 hrequest
      exact refused_queues fits hunserved _ (hsame hunserved)
    | answered fine answers =>
      obtain ⟨m, hlabel, hrpc⟩ := reply_answers answers e.ep e.msg
        (runHandler b e.world e.ep e.msg d1).2
      rw [hrpc]
      have hserved : Served b d e := ⟨hallowed, by simp [hrequest], fun h => fine (hfails.mpr h)⟩
      exact served_queues fits hserved (firstOp_of_requestOp hrequest) hlabel hleft
    | failed cause =>
      rename_i op err
      obtain ⟨status, hstatus⟩ := reply_error true e.ep e.msg err
        (runHandler b e.world e.ep e.msg d1).2
      rw [hstatus]
      by_cases hserved : Served b d e
      · -- The decoded op code is zero, and so is the guessed one.
        have hzero : op = 0 := cause.resolve_right fun h => hserved.2.2 (hfails.mp h)
        have hfirst := firstOp_of_requestOp hrequest
        have hpeek : peekOp e.msg = op := by
          rcases peekOp_of_firstOp hfirst with h | h
          · exact h
          · rw [h, hzero]
        obtain ⟨m, hlabel, hrpc⟩ := respondStatus_rpc (show peekOp e.msg ≤ 2 by omega) e.ep status
          (runHandler b e.world e.ep e.msg d1).2
        rw [hrpc]
        exact served_queues fits hserved hfirst (hpeek ▸ hlabel) hleft
      · exact refused_queues fits hserved _ (hsame hserved)

/-- What the delivery of an entry does to the queue, with memory available. -/
theorem deliver_queues (registered : e.ep ∈ endpoints b.build) (memory : e.world.memory = true) :
    Queues b d e (deliver b d e).rpc := by
  obtain ⟨a, hdeliver⟩ := deliver_eq registered d
  rw [hdeliver]
  split
  · rename_i hlong
    rw [memory]
    obtain ⟨m, hlabel, hrpc⟩ := respondStatus_rpc (Nat.zero_le 2) e.ep .invalidArgument
      { d with active := a }
    rw [hrpc]
    exact .oversized hlong hlabel
  · rename_i hfits
    exact handleRequest_queues (Nat.le_of_not_lt hfits) memory a

/-- The delivery queued exactly one response, on the path of the request, and under its op
code if the request is an array that starts with one of the three op codes. -/
def Answered (b : Board) (d : Dev) (e : Entry) : Prop :=
  ∃ m, (deliver b d e).rpc.enqueued = d.rpc.enqueued ++ [⟨path e.ep, m⟩] ∧
    ∀ op ≤ 2, ArrayOp e.msg op → ArrayOp m op

/-- What it takes of the request and of the state before it: a request that is too long is
not of op code one or two, and any other is served by its handler or is one whose op code the
dispatcher guesses right and the schema of the bare status has. -/
def Answerable (b : Board) (d : Dev) (e : Entry) : Prop :=
  (msgMax < e.msg.length → ∀ op ≤ 2, ArrayOp e.msg op → op = 0) ∧
  (e.msg.length ≤ msgMax → Served b d e ∨
    peekOp e.msg ≤ 2 ∧ ∀ op ≤ 2, ArrayOp e.msg op → op = peekOp e.msg)

lemma arrayOp_unique {m : Bytes} {op op' : Nat} (h : ArrayOp m op) (h' : ArrayOp m op') :
    op = op' :=
  Option.some.inj ((firstOp_of_arrayOp h).symm.trans (firstOp_of_arrayOp h'))

/-- One queued response answers the request if it carries the right op code. -/
lemma answered_iff_of_push {m : Bytes} {q : Rpc} {op : Nat}
    (pushed : (deliver b d e).rpc = push ⟨path e.ep, m⟩ q) (same : q.enqueued = d.rpc.enqueued)
    (label : ArrayOp m op) :
    Answered b d e ↔ ∀ op' ≤ 2, ArrayOp e.msg op' → op' = op := by
  have henqueued : (deliver b d e).rpc.enqueued = d.rpc.enqueued ++ [⟨path e.ep, m⟩] := by
    rw [pushed, push, same]
  constructor
  · rintro ⟨m', hm', hlabels⟩ op' hop' hrequest
    rw [henqueued] at hm'
    obtain rfl : m = m' := by simpa using hm'
    exact arrayOp_unique (hlabels op' hop' hrequest) label
  · intro hright
    refine ⟨m, henqueued, fun op' hop' hrequest => ?_⟩
    rw [hright op' hop' hrequest]
    exact label

lemma op_of_request {op op' : Nat} (request : firstOp e.msg = some op) (h : ArrayOp e.msg op') :
    op' = op :=
  Option.some.inj ((firstOp_of_arrayOp h).symm.trans request)

lemma answerable_of_served (fits : e.msg.length ≤ msgMax) (served : Served b d e) :
    Answerable b d e := by
  constructor
  · intro hlong
    omega
  · intro _
    exact Or.inl served

/-- A request to a registered endpoint is answered exactly once and under its own op code
exactly when it is answerable. -/
theorem request_answered_iff (b : Board) (d : Dev) (e : Entry)
    (registered : e.ep ∈ endpoints b.build) (memory : e.world.memory = true) :
    Answered b d e ↔ Answerable b d e := by
  have hqueues := deliver_queues (d := d) registered memory
  generalize hrpc : (deliver b d e).rpc = q at hqueues
  cases hqueues with
  | lost h =>
    obtain ⟨hfits, hunserved, hlarge⟩ := h
    constructor
    · rintro ⟨m, hm, -⟩
      rw [hrpc] at hm
      simp at hm
    · intro h
      rcases h.2 hfits with hserved | ⟨hsmall, -⟩
      · exact absurd hserved hunserved
      · omega
  | oversized long label =>
    rw [answered_iff_of_push hrpc rfl label]
    exact ⟨fun h => ⟨fun _ => h, fun hfits => by omega⟩, fun h => h.1 long⟩
  | refused fits unserved small label =>
    rw [answered_iff_of_push hrpc rfl label]
    constructor
    · intro h
      exact ⟨fun hlong => by omega, fun _ => Or.inr ⟨small, h⟩⟩
    · intro h
      exact ((h.2 fits).resolve_left unserved).2
  | served fits served request label runs =>
    have hanswered := (answered_iff_of_push hrpc rfl label).mpr (fun _ _ => op_of_request request)
    exact iff_of_true hanswered (answerable_of_served fits served)
  | stopped served request label stops =>
    have hanswered := (answered_iff_of_push hrpc rfl label).mpr (fun _ _ => op_of_request request)
    exact iff_of_true hanswered (answerable_of_served stops.1 served)

end Entry

/-- A request in one piece, with every call of the platform succeeding. -/
def single (ep : Endpoint) (msg : Bytes) : Entry := ⟨ep, [], msg, {}⟩

theorem request_answered_iff_version :
    Answerable AuthGate.sampleBoard AuthGate.sampleDevice (single .ver [0x81, 0x00]) ∧
    Answered AuthGate.sampleBoard AuthGate.sampleDevice (single .ver [0x81, 0x00]) := by
  have hanswerable :
      Answerable AuthGate.sampleBoard AuthGate.sampleDevice (single .ver [0x81, 0x00]) := by
    refine ⟨fun h => absurd h (by decide), fun _ => Or.inl ⟨fun h => absurd h (by decide), ?_, id⟩⟩
    decide +kernel
  exact ⟨hanswerable, (request_answered_iff AuthGate.sampleBoard AuthGate.sampleDevice
    (single .ver [0x81, 0x00]) (by decide) rfl).mpr hanswerable⟩

/-- The reserved op code three is never answered, and an array of five elements that starts
with op code two is answered under op code zero. -/
theorem reserved_and_long_requests_unanswered :
    ¬ Answered AuthGate.sampleBoard AuthGate.sampleDevice (single .ver [0x81, 0x03]) ∧
    ¬ Answered AuthGate.sampleBoard AuthGate.sampleDevice
      (single .ctrl [0x85, 0x02, 0x00, 0x00, 0x00, 0x00]) := by
  constructor
  · rintro ⟨m, hm, -⟩
    have hnone : (deliver AuthGate.sampleBoard AuthGate.sampleDevice
        (single .ver [0x81, 0x03])).rpc.enqueued = [] := by decide +kernel
    rw [hnone] at hm
    exact absurd hm.symm (by simp)
  · rintro ⟨m, hm, hlabels⟩
    have hone : (deliver AuthGate.sampleBoard AuthGate.sampleDevice
        (single .ctrl [0x85, 0x02, 0x00, 0x00, 0x00, 0x00])).rpc.enqueued =
        [⟨path .ctrl, [0x82, 0x00, 0x04]⟩] := by decide +kernel
    have hrequest : ArrayOp (encode (.array [.uint 2, .uint 0, .uint 0, .uint 0, .uint 0])) 2 :=
      arrayOp_encode (by simp [Item.Ok, AllOk]) (by decide)
    have hlabel := hlabels 2 (by omega) hrequest
    rw [hone] at hm
    obtain rfl : [0x82, 0x00, 0x04] = m := (Rsp.mk.inj (List.cons.inj hm).1).2
    exact absurd (firstOp_of_arrayOp hlabel) (by decide)

/-- The responses that the delivery of an entry queued. -/
def added (b : Board) (d : Dev) (e : Entry) : List Rsp :=
  (deliver b d e).rpc.enqueued.drop d.rpc.enqueued.length

/-- The responses that the entries of a batch queued, in order. -/
def responses (b : Board) (d : Dev) (es : List Entry) : List Rsp :=
  outputs (fun d e => (deliver b d e, added b d e)) d es

lemma responses_cons (b : Board) (d : Dev) (e : Entry) (es : List Entry) :
    responses b d (e :: es) = added b d e ++ responses b (deliver b d e) es := rfl

/-- The batch is answered completely and in order: each entry queues one response on its own
path, no entry removes a queued response, and the next uplink carries what was queued before
the batch followed by the responses of its entries. -/
structure InOrder (b : Board) (d : Dev) (es : List Entry) : Prop where
  one : Each (deliver b) (fun d e => ∃ m, added b d e = [⟨path e.ep, m⟩]) d es
  kept : Each (deliver b) (fun d e => d.rpc.fifo <+: (deliver b d e).rpc.fifo) d es
  written : (rpcUplinkFlush (es.foldl (deliver b) d).rpc).1 = d.rpc.fifo ++ responses b d es

/-- What it takes of an entry and of the state before it: its error reply is not lost, and it
does not stop the manager while responses are queued. -/
def KeepsQueue (b : Board) (d : Dev) (e : Entry) : Prop :=
  ¬ Lost b d e ∧ ¬ (Stops b d e ∧ d.rpc.fifo ≠ [])

section Batch

variable {b : Board} {d : Dev} {e : Entry}

lemma added_of_push {r : Rsp} {q : Rpc} (pushed : (deliver b d e).rpc = push r q)
    (same : q.enqueued = d.rpc.enqueued) : added b d e = [r] := by
  simp [added, pushed, push, same]

/-- What one entry adds, and what it leaves of the queue. -/
inductive Adds (b : Board) (d : Dev) (e : Entry) : Prop where
  | nothing (lost : Lost b d e) (none : added b d e = [])
      (same : (deliver b d e).rpc.fifo = d.rpc.fifo)
  | one (m : Bytes) (sent : ¬ Lost b d e) (runs : ¬ Stops b d e)
      (only : added b d e = [⟨path e.ep, m⟩])
      (queue : (deliver b d e).rpc.fifo = d.rpc.fifo ++ [⟨path e.ep, m⟩])
  | alone (m : Bytes) (sent : ¬ Lost b d e) (stops : Stops b d e)
      (only : added b d e = [⟨path e.ep, m⟩])
      (queue : (deliver b d e).rpc.fifo = [⟨path e.ep, m⟩])

lemma deliver_adds (registered : e.ep ∈ endpoints b.build) (memory : e.world.memory = true) :
    Adds b d e := by
  have hqueues := deliver_queues (d := d) registered memory
  generalize hrpc : (deliver b d e).rpc = q at hqueues
  cases hqueues with
  | lost h => exact .nothing h (by simp [added, hrpc]) (by rw [hrpc])
  | oversized long label =>
    exact .one _ (fun h => by have := h.1; omega) (fun h => by have := h.1; omega)
      (added_of_push hrpc rfl) (by rw [hrpc, push])
  | refused fits unserved small label =>
    refine .one _ (fun h => by have := h.2.2; omega) (fun h => unserved ?_)
      (added_of_push hrpc rfl) (by rw [hrpc, push])
    exact served_of_isEnd (fun _ => h.2.1) h.2.2.1
  | served fits served request label runs =>
    exact .one _ (fun h => h.2.1 served) runs (added_of_push hrpc rfl) (by rw [hrpc, push])
  | stopped served request label stops =>
    exact .alone _ (fun h => h.2.1 served) stops (added_of_push hrpc rfl)
      (by rw [hrpc, push, rpcReset, List.nil_append])

/-- An entry leaves at most the queue and its own response, and all of it only if it keeps
the queue. -/
lemma Adds.length_le (h : Adds b d e) :
    (deliver b d e).rpc.fifo.length ≤ d.rpc.fifo.length + (added b d e).length := by
  cases h with
  | nothing lost none same =>
    rw [same]
    exact Nat.le_add_right _ _
  | one m sent runs only queue =>
    exact Nat.le_of_eq (by rw [queue, only, List.length_append])
  | alone m sent stops only queue =>
    rw [queue, only]
    exact Nat.le_add_left _ _

lemma Adds.queue_of_keeps (h : Adds b d e) (keeps : KeepsQueue b d e) :
    (∃ m, added b d e = [⟨path e.ep, m⟩]) ∧
      (deliver b d e).rpc.fifo = d.rpc.fifo ++ added b d e := by
  cases h with
  | nothing lost none same => exact absurd lost keeps.1
  | one m sent runs only queue => exact ⟨⟨m, only⟩, by rw [queue, only]⟩
  | alone m sent stops only queue =>
    have hempty : d.rpc.fifo = [] := by
      by_contra hne
      exact keeps.2 ⟨stops, hne⟩
    exact ⟨⟨m, only⟩, by rw [queue, only, hempty, List.nil_append]⟩

lemma Adds.keeps_of_length (h : Adds b d e) (one : ∃ m, added b d e = [⟨path e.ep, m⟩])
    (full : d.rpc.fifo.length + (added b d e).length ≤ (deliver b d e).rpc.fifo.length) :
    KeepsQueue b d e := by
  cases h with
  | nothing lost none same =>
    obtain ⟨m, hm⟩ := one
    rw [none] at hm
    exact absurd hm (by simp)
  | one m sent runs only queue => exact ⟨sent, fun h => runs h.1⟩
  | alone m sent stops only queue =>
    refine ⟨sent, fun h => h.2 (List.eq_nil_of_length_eq_zero ?_)⟩
    rw [queue, only] at full
    simp only [List.length_singleton] at full
    omega

/-- A request entry of the batch: to a registered endpoint, with memory available. -/
def Request (b : Board) (e : Entry) : Prop := e.ep ∈ endpoints b.build ∧ e.world.memory = true

lemma fifo_length_le {es : List Entry} (requests : ∀ e ∈ es, Request b e) (d : Dev) :
    (es.foldl (deliver b) d).rpc.fifo.length ≤ d.rpc.fifo.length + (responses b d es).length := by
  induction es generalizing d with
  | nil => exact Nat.le_add_right _ _
  | cons e es ih =>
    obtain ⟨hregistered, hmemory⟩ := requests e List.mem_cons_self
    have hfirst := (deliver_adds (d := d) hregistered hmemory).length_le
    have hothers := ih (fun e he => requests e (List.mem_cons_of_mem _ he)) (deliver b d e)
    rw [responses_cons, List.length_append, List.foldl_cons]
    omega

/-- The responses of a batch are written completely and in order exactly when each of its
entries keeps the queue. -/
theorem batch_in_order_iff (b : Board) (d : Dev) (es : List Entry)
    (requests : ∀ e ∈ es, Request b e) :
    InOrder b d es ↔ Each (deliver b) (KeepsQueue b) d es := by
  induction es generalizing d with
  | nil => exact ⟨fun _ => trivial, fun _ => ⟨trivial, trivial, (List.append_nil _).symm⟩⟩
  | cons e es ih =>
    obtain ⟨hregistered, hmemory⟩ := requests e List.mem_cons_self
    have hothers : ∀ e ∈ es, Request b e := fun e he => requests e (List.mem_cons_of_mem _ he)
    have hadds := deliver_adds (d := d) hregistered hmemory
    constructor
    · intro h
      -- Later entries cannot make up for a response that is missing from the queue.
      have hbound := fifo_length_le hothers (deliver b d e)
      have hwritten : (es.foldl (deliver b) (deliver b d e)).rpc.fifo =
          d.rpc.fifo ++ (added b d e ++ responses b (deliver b d e) es) := by
        rw [← responses_cons]
        exact h.written
      have hlen := congrArg List.length hwritten
      simp only [List.length_append] at hlen
      have hkeeps := hadds.keeps_of_length h.one.1 (by omega)
      refine ⟨hkeeps, (ih (deliver b d e) hothers).mp ⟨h.one.2, h.kept.2, ?_⟩⟩
      rw [(hadds.queue_of_keeps hkeeps).2, List.append_assoc]
      exact hwritten
    · intro h
      obtain ⟨hone, hqueue⟩ := hadds.queue_of_keeps h.1
      have htail := (ih (deliver b d e) hothers).mpr h.2
      have hkept : d.rpc.fifo <+: (deliver b d e).rpc.fifo := by
        rw [hqueue]
        exact List.prefix_append _ _
      refine ⟨⟨hone, htail.one⟩, ⟨hkept, htail.kept⟩, ?_⟩
      rw [responses_cons, ← List.append_assoc, ← hqueue]
      exact htail.written

end Batch

/-- A board without a secret: every request is authorized. -/
def openBoard : Board := { AuthGate.sampleBoard with pop := none }

def startedDevice : Dev := (mgrStart openBoard.build {} AuthGate.sampleDevice).2

theorem batch_in_order_iff_two :
    Each (deliver openBoard) (KeepsQueue openBoard) startedDevice
      [single .ver [0x81, 0x00], single .ctrl [0x81, 0x00]] ∧
    InOrder openBoard startedDevice [single .ver [0x81, 0x00], single .ctrl [0x81, 0x00]] := by
  have hkeeps : Each (deliver openBoard) (KeepsQueue openBoard) startedDevice
      [single .ver [0x81, 0x00], single .ctrl [0x81, 0x00]] :=
    ⟨⟨fun h => absurd h.2.2 (by decide), fun h => absurd h.1.2.2.1 (by decide +kernel)⟩,
      ⟨fun h => absurd h.2.2 (by decide), fun h => absurd h.1.2.2.1 (by decide +kernel)⟩, trivial⟩
  refine ⟨hkeeps, (batch_in_order_iff openBoard startedDevice _ ?_).mpr hkeeps⟩
  intro e he
  simp only [List.mem_cons, List.not_mem_nil, or_false] at he
  rcases he with rfl | rfl
  · exact ⟨by decide, rfl⟩
  · exact ⟨by decide, rfl⟩

/-- The end request of the batch [reset, end] drops the response to the reset. -/
theorem end_drops_queued_response :
    ¬ InOrder openBoard startedDevice [single .ctrl [0x81, 0x00], single .ctrl [0x81, 0x02]] :=
  fun h => absurd h.written (by decide +kernel)

end Replies
