import PouchProv.Replies

/-!
# Requests and their responses

`ProvSession.request` of the three clients against the response queue of the
device. The client sends one request, polls the uplink up to five times until a
pouch with entries comes, and returns the first entry on the path of the request.
The device queues what it answers and drains the queue at every uplink.

An exchange can be abandoned on the way: the request or its acknowledgement is
lost, or the uplink is, before or after the device has drained its queue. With
every queued response goes a record of the request that the device was processing
when it queued it.
-/

namespace Exchange

open Bytes Codec Handlers Auth Device ProvTypes Status Runs Replies

/-- A call of `request`. The number tells apart calls with the same arguments. -/
structure Request where
  number : Nat
  path : Bytes
  msg : Bytes
  deriving DecidableEq, Repr

/-- `poll_attempts` -/
def pollAttempts : Nat := 5

structure Link where
  dev : Dev
  /-- For every response that was ever queued, the request that was being processed. -/
  owners : List Request
  /-- Requests that reached the device and are not processed yet. -/
  pending : List Request
  made : Nat
  /-- The call that is polling, with the attempts that it has left. -/
  waiting : Option (Request × Nat)

/-- One poll. An uplink that is received carries the responses whose write succeeded, by their
place in the queue. -/
inductive Fetch where
  | received (written : Nat → Bool)
  | lost (drained : Bool)

inductive Ev where
  | send (path msg : Bytes) (delivered raises : Bool)
  | process (pieces : List Nat) (w : World)
  | fetch (f : Fetch)
  | device (e : Device.Ev)

/-- The entry arrives in pieces of the given lengths and a last one. -/
def cut : List Nat → Bytes → List Bytes × Bytes
  | [], data => ([], data)
  | n :: ns, data => (data.take n :: (cut ns (data.drop n)).1, (cut ns (data.drop n)).2)

def process (b : Board) (pieces : List Nat) (w : World) (q : Request) (d : Dev) : Dev :=
  let (first, last) := cut pieces q.msg
  let d := step b d (.downlinkStart 0 q.path contentTypeCbor)
  let d := first.foldl (fun d piece => step b d (.downlinkData 0 piece false w)) d
  step b d (.downlinkData 0 last true w)

/-- The events of the device that neither a request nor a poll causes. -/
def inside : Device.Ev → Bool
  | .downlinkStart _ _ _ => false
  | .downlinkData _ _ _ _ => false
  | .uplinkFlush => false
  | _ => true

/-- The queue with the owners of its responses, which were queued last. -/
def tagged (fifo : List Rsp) (owners : List Request) : List (Rsp × Request) :=
  fifo.zip (owners.drop (owners.length - fifo.length))

/-- What an uplink carries. -/
def uplink (s : Link) (written : Nat → Bool) : List (Rsp × Request) :=
  ((tagged (rpcUplinkFlush s.dev.rpc).1 s.owners).zipIdx.filter fun x => written x.2).map Prod.fst

/-- The entry that a call returns, with its owner. -/
def request (q : Request) (entries : List (Rsp × Request)) : Option (Rsp × Request) :=
  entries.find? fun x => x.1.path = q.path

def next (b : Board) (s : Link) : Ev → Link
  | .send path msg delivered raises =>
    if s.waiting.isSome then s
    else
      let q : Request := ⟨s.made, path, msg⟩
      { s with made := s.made + 1
               pending := if delivered then s.pending ++ [q] else s.pending
               waiting := if raises then none else some (q, pollAttempts) }
  | .process pieces w =>
    match s.pending with
    | [] => s
    | q :: pending =>
      let d := process b pieces w q s.dev
      { s with dev := d
               pending := pending
               owners := s.owners ++
                 List.replicate (d.rpc.enqueued.length - s.dev.rpc.enqueued.length) q }
  | .fetch f =>
    match s.waiting, f with
    | none, _ => s
    | some _, .lost drained =>
      { s with dev := if drained then step b s.dev .uplinkFlush else s.dev, waiting := none }
    | some (q, left), .received written =>
      { s with dev := step b s.dev .uplinkFlush
               waiting := if uplink s written ≠ [] ∨ left ≤ 1 then none else some (q, left - 1) }
  | .device e => if inside e then { s with dev := step b s.dev e } else s

/-- A call that returns has the response to its own request. -/
def OwnResponse (s : Link) : Ev → Prop
  | .fetch (.received written) => ∀ q left r owner, s.waiting = some (q, left) →
      request q (uplink s written) = some (r, owner) → owner = q
  | _ => True

/-- A request is sent only when nothing is left of earlier ones on its path: no response in
the queue, and no request still to be processed. -/
def NoneLeft (s : Link) : Ev → Prop
  | .send path _ _ _ => s.waiting = none →
      (∀ x ∈ tagged s.dev.rpc.fifo s.owners, x.1.path ≠ path) ∧ ∀ q ∈ s.pending, q.path ≠ path
  | _ => True

/-- Responses on one path are queued. From the front of the queue some may have gone. -/
def Appends (p : Bytes) (q q' : Rpc) : Prop :=
  ∃ new, (∀ r ∈ new, r.path = p) ∧ q'.enqueued = q.enqueued ++ new ∧ q'.fifo <:+ q.fifo ++ new

/-- Nothing is queued. -/
def Keeps (q q' : Rpc) : Prop := q'.enqueued = q.enqueued ∧ q'.fifo <:+ q.fifo

section Queue

variable {p : Bytes} {q q' : Rpc}

theorem Keeps.appends (h : Keeps q q') (p : Bytes) : Appends p q q' := by
  refine ⟨[], ?_, by rw [h.1, List.append_nil], by rw [List.append_nil]; exact h.2⟩
  intro r hr
  exact absurd hr List.not_mem_nil

theorem Keeps.refl (q : Rpc) : Keeps q q := ⟨rfl, List.suffix_refl _⟩

theorem Keeps.reset (q : Rpc) : Keeps q (rpcReset q) := ⟨rfl, List.nil_suffix⟩

theorem Appends.trans {q'' : Rpc} (h : Appends p q q') (h' : Appends p q' q'') :
    Appends p q q'' := by
  obtain ⟨new, hpath, henq, hfifo⟩ := h
  obtain ⟨new', hpath', henq', hfifo'⟩ := h'
  refine ⟨new ++ new', ?_, by rw [henq', henq, List.append_assoc], ?_⟩
  · intro r hr
    exact (List.mem_append.mp hr).elim (hpath r) (hpath' r)
  · obtain ⟨gone, hgone⟩ := hfifo
    refine hfifo'.trans ⟨gone, ?_⟩
    rw [← List.append_assoc, hgone, List.append_assoc]

theorem rpcEnqueue_appends (memory : Bool) (r : Rsp) (q : Rpc) :
    Appends r.path q (rpcEnqueue memory r q).2 := by
  rw [rpcEnqueue]
  split
  · exact (Keeps.refl _).appends _
  · split
    · exact (Keeps.refl _).appends _
    · refine ⟨[r], ?_, rfl, List.suffix_refl _⟩
      intro r' hr'
      rw [List.mem_singleton.mp hr']

theorem respondStatus_appends (memory : Bool) (ep : Endpoint) (op : Nat) (status : ProvStatus)
    (d : Dev) : Appends (path ep) d.rpc (respondStatus memory ep op status d).rpc := by
  rw [respondStatus]
  split
  · next msg _ => exact rpcEnqueue_appends memory ⟨path ep, msg⟩ d.rpc
  · exact (Keeps.refl _).appends _

theorem reply_appends (memory : Bool) (ep : Endpoint) (req : Bytes) (rsp : Except Errno Bytes)
    (d : Dev) : Appends (path ep) d.rpc (reply memory ep req rsp d).rpc := by
  unfold reply
  split
  · exact respondStatus_appends _ _ _ _ _
  · exact respondStatus_appends _ _ _ _ _
  · next msg =>
    split
    · exact rpcEnqueue_appends memory ⟨path ep, msg⟩ d.rpc
    · exact (Keeps.refl _).appends _

theorem handleRequest_appends (b : Board) (w : World) (ep : Endpoint) (req : Bytes) (d : Dev) :
    Appends (path ep) d.rpc (handleRequest b w ep req d).rpc := by
  rw [handleRequest]
  split
  · exact respondStatus_appends _ _ _ _ _
  · let d1 : Dev := { d with session := d.session.log (.handler ep) }
    have hrun : Appends (path ep) d.rpc (runHandler b w ep req d1).2.rpc := by
      rw [runHandler_rpc]
      split
      · exact (Keeps.reset _).appends _
      · exact (Keeps.refl _).appends _
    exact hrun.trans (reply_appends w.memory ep req (runHandler b w ep req d1).1
      (runHandler b w ep req d1).2)

/-- The device is receiving an entry on the path, or none. -/
def Receives (p : Bytes) (d : Dev) : Prop :=
  ∀ ep, d.active.endpoint = some ep → path ep = p

theorem downlinkStart_receives (b : Board) (p : Bytes) (contentType : Nat) (d : Dev) :
    Receives p (step b d (.downlinkStart 0 p contentType)) ∧
      (step b d (.downlinkStart 0 p contentType)).rpc = d.rpc := by
  simp only [step, downlinkStart]
  split
  · exact ⟨fun ep hep => (by cases hep), rfl⟩
  · split
    · exact ⟨fun ep hep => (by cases hep), rfl⟩
    · refine ⟨fun ep hep => ?_, rfl⟩
      have hfind : (endpoints b.build).find? (path · = p) = some ep := hep
      have hpath := List.find?_some hfind
      exact of_decide_eq_true hpath

theorem receive_endpoint (data : Bytes) (a : Active) : (receive data a).endpoint = a.endpoint := by
  rw [receive]
  split <;> rfl

theorem piece_receives {d : Dev} (b : Board) (w : World) (h : Receives p d) (piece : Bytes) :
    Receives p (step b d (.downlinkData 0 piece false w)) ∧
      (step b d (.downlinkData 0 piece false w)).rpc = d.rpc := by
  simp only [step, downlinkData, ne_eq, not_true_eq_false, if_false, Bool.false_eq_true,
    not_false_eq_true, if_true]
  split
  · exact ⟨h, rfl⟩
  · refine ⟨fun ep' hep' => h ep' ?_, rfl⟩
    rw [← hep', receive_endpoint]

theorem last_appends {d : Dev} (b : Board) (w : World) (h : Receives p d) (last : Bytes) :
    Appends p d.rpc (step b d (.downlinkData 0 last true w)).rpc := by
  simp only [step, downlinkData]
  split
  · exact (Keeps.refl _).appends _
  · next ep hep =>
    rw [← h ep hep]
    simp only [ne_eq, not_true_eq_false, if_false]
    split
    · exact respondStatus_appends _ _ _ _ _
    · exact handleRequest_appends _ _ _ _ _

theorem pieces_receive (b : Board) (w : World) (pieces : List Bytes) {d : Dev}
    (h : Receives p d) :
    Receives p (pieces.foldl (fun d piece => step b d (.downlinkData 0 piece false w)) d) ∧
      (pieces.foldl (fun d piece => step b d (.downlinkData 0 piece false w)) d).rpc = d.rpc := by
  induction pieces generalizing d with
  | nil => exact ⟨h, rfl⟩
  | cons piece pieces ih =>
    obtain ⟨hnext, hrpc⟩ := piece_receives b w h piece
    obtain ⟨hend, hsame⟩ := ih hnext
    exact ⟨hend, hsame.trans hrpc⟩

/-- What the device queues while it processes a request is on the path of that request. -/
theorem process_appends (b : Board) (pieces : List Nat) (w : World) (r : Request) (d : Dev) :
    Appends r.path d.rpc (process b pieces w r d).rpc := by
  obtain ⟨hstart, hrpc⟩ := downlinkStart_receives b r.path contentTypeCbor d
  obtain ⟨hend, hsame⟩ := pieces_receive b w (cut pieces r.msg).1 hstart
  have hlast := last_appends b w hend (cut pieces r.msg).2
  rw [hsame, hrpc] at hlast
  exact hlast

theorem inside_keeps (b : Board) {e : Device.Ev} (h : inside e) (d : Dev) :
    Keeps d.rpc (step b d e).rpc := by
  have hsame : Keeps d.rpc d.rpc := .refl _
  have hreset : Keeps d.rpc (rpcReset d.rpc) := .reset _
  cases e with
  | downlinkStart streamId path contentType => cases h
  | downlinkData streamId data isLast w => cases h
  | uplinkFlush => cases h
  | sessionEnded => exact hreset
  | mgrStart w =>
    simp only [step, mgrStart]
    split
    · exact hsame
    · split
      · exact hsame
      · split
        · exact hreset
        · exact hreset
  | mgrStop =>
    simp only [step, mgrStop_rpc]
    split
    · exact hreset
    · exact hsame
  | mgrReset w => exact hreset
  | autostop =>
    simp only [step]
    split
    · rw [mgrStop_rpc]
      split
      · exact hreset
      · exact hsame
    · exact hsame
  | connectResult | retryWork =>
    simp only [step]
    split
    · rw [emitAll_rpc]
      exact hsame
    · exact hsame
  | scanResult | scanDone =>
    simp only [step]
    split
    · exact hsame
    · exact hsame

end Queue

section Owners

variable {fifo fifo' new : List Rsp} {owners : List Request}

/-- A shorter queue keeps the owners of what is left. -/
theorem tagged_suffix (left : fifo' <:+ fifo) (enough : fifo.length ≤ owners.length) :
    tagged fifo' owners <:+ tagged fifo owners := by
  obtain ⟨gone, rfl⟩ := left
  rw [List.length_append] at enough
  have hplace : owners.length - fifo'.length =
      owners.length - (gone ++ fifo').length + gone.length := by
    rw [List.length_append]
    omega
  refine ⟨gone.zip ((owners.drop (owners.length - (gone ++ fifo').length)).take gone.length), ?_⟩
  rw [tagged, tagged, hplace, ← List.drop_drop, ← List.zip_append, List.take_append_drop]
  rw [List.length_take, List.length_drop, List.length_append]
  omega

/-- New responses stand behind the old ones, with their own owner. -/
theorem tagged_append (q : Request) (enough : fifo.length ≤ owners.length) :
    tagged (fifo ++ new) (owners ++ List.replicate new.length q) =
      tagged fifo owners ++ new.zip (List.replicate new.length q) := by
  have hplace : (owners ++ List.replicate new.length q).length - (fifo ++ new).length =
      owners.length - fifo.length := by
    rw [List.length_append, List.length_append, List.length_replicate]
    omega
  rw [tagged, hplace, List.drop_append_of_le_length (Nat.sub_le _ _), List.zip_append]
  · rfl
  · rw [List.length_drop]
    omega

/-- What is in the queue after an event was there before it, or was queued by it. -/
theorem mem_tagged {p : Bytes} {r r' : Rpc} (h : Appends p r r') (q : Request)
    (enough : r.fifo.length ≤ owners.length) {x : Rsp × Request}
    (hx : x ∈ tagged r'.fifo
      (owners ++ List.replicate (r'.enqueued.length - r.enqueued.length) q)) :
    x ∈ tagged r.fifo owners ∨ x.1.path = p ∧ x.2 = q := by
  obtain ⟨new, hpath, henq, hfifo⟩ := h
  have hcount : r'.enqueued.length - r.enqueued.length = new.length := by
    rw [henq, List.length_append]
    omega
  rw [hcount] at hx
  have henough : (r.fifo ++ new).length ≤ (owners ++ List.replicate new.length q).length := by
    rw [List.length_append, List.length_append, List.length_replicate]
    omega
  have hmem := (tagged_suffix hfifo henough).subset hx
  rw [tagged_append q enough] at hmem
  rcases List.mem_append.mp hmem with hold | hnew
  · exact Or.inl hold
  · obtain ⟨hrsp, howner⟩ := List.of_mem_zip hnew
    exact Or.inr ⟨hpath _ hrsp, List.eq_of_mem_replicate howner⟩

end Owners

/-- The owners account for everything queued, the queue holds what was queued last, and while
a call is polling, whatever there is on its path belongs to it. -/
structure Apart (s : Link) : Prop where
  owned : s.owners.length = s.dev.rpc.enqueued.length
  recent : s.dev.rpc.fifo <:+ s.dev.rpc.enqueued
  queued : ∀ q left, s.waiting = some (q, left) →
    ∀ x ∈ tagged s.dev.rpc.fifo s.owners, x.1.path = q.path → x.2 = q
  pending : ∀ q left, s.waiting = some (q, left) → ∀ r ∈ s.pending, r.path = q.path → r = q

section Steps

variable {s : Link}

theorem Apart.enough (h : Apart s) : s.dev.rpc.fifo.length ≤ s.owners.length := by
  rw [h.owned]
  exact h.recent.length_le

theorem Appends.recent {p : Bytes} {r r' : Rpc} (h : Appends p r r')
    (recent : r.fifo <:+ r.enqueued) : r'.fifo <:+ r'.enqueued := by
  obtain ⟨new, -, henq, hfifo⟩ := h
  obtain ⟨gone, hgone⟩ := recent
  refine hfifo.trans ⟨gone, ?_⟩
  rw [henq, ← hgone, List.append_assoc]

theorem send_apart (h : Apart s) {path msg : Bytes} {delivered raises : Bool} (b : Board)
    (none_left : NoneLeft s (.send path msg delivered raises)) :
    Apart (next b s (.send path msg delivered raises)) := by
  cases hwaiting : s.waiting with
  | some w =>
    rw [next, hwaiting]
    exact h
  | none =>
    obtain ⟨hqueue, hpending⟩ := none_left hwaiting
    rw [next, hwaiting]
    refine ⟨h.owned, h.recent, ?_, ?_⟩
    · intro q left hq x hx hpath
      cases raises with
      | true => cases hq
      | false =>
        cases hq
        exact absurd hpath (hqueue x hx)
    · intro q left hq r hr hpath
      cases raises with
      | true => cases hq
      | false =>
        cases hq
        cases delivered with
        | false => exact absurd hpath (hpending r hr)
        | true =>
          rcases List.mem_append.mp hr with hold | hnew
          · exact absurd hpath (hpending r hold)
          · exact List.mem_singleton.mp hnew

theorem process_apart (h : Apart s) (b : Board) (pieces : List Nat) (w : World) :
    Apart (next b s (.process pieces w)) := by
  cases hpending : s.pending with
  | nil =>
    rw [next, hpending]
    exact h
  | cons r rest =>
    have happ := process_appends b pieces w r s.dev
    rw [next, hpending]
    refine ⟨?_, happ.recent h.recent, ?_, ?_⟩
    · obtain ⟨new, -, henq, -⟩ := happ
      rw [List.length_append, List.length_replicate, h.owned, henq, List.length_append]
      omega
    · intro q left hq x hx hpath
      rcases mem_tagged happ r h.enough hx with hold | ⟨hpath', howner⟩
      · exact h.queued q left hq x hold hpath
      · -- the request being processed is on the path of the call, so it is that call
        have hr : r ∈ s.pending := by
          rw [hpending]
          exact List.mem_cons_self
        rw [howner]
        exact h.pending q left hq r hr (hpath'.symm.trans hpath)
    · intro q left hq r' hr'
      refine h.pending q left hq r' ?_
      rw [hpending]
      exact List.mem_cons_of_mem _ hr'

/-- Nothing is queued, and no call begins to poll. -/
theorem quiet_apart (h : Apart s) {d : Dev} {waiting : Option (Request × Nat)}
    (keeps : Keeps s.dev.rpc d.rpc)
    (polling : ∀ q left, waiting = some (q, left) → ∃ left', s.waiting = some (q, left')) :
    Apart { s with dev := d, waiting := waiting } := by
  refine ⟨h.owned.trans (congrArg List.length keeps.1.symm),
    (keeps.appends []).recent h.recent, ?_, ?_⟩
  · intro q left hq x hx hpath
    obtain ⟨left', hq'⟩ := polling q left hq
    exact h.queued q left' hq' x ((tagged_suffix keeps.2 h.enough).subset hx) hpath
  · intro q left hq r hr hpath
    obtain ⟨left', hq'⟩ := polling q left hq
    exact h.pending q left' hq' r hr hpath

theorem fetch_apart (h : Apart s) (b : Board) (f : Fetch) : Apart (next b s (.fetch f)) := by
  have hflush : Keeps s.dev.rpc (step b s.dev .uplinkFlush).rpc := ⟨rfl, List.nil_suffix⟩
  cases hwaiting : s.waiting with
  | none =>
    simp only [next, hwaiting]
    exact h
  | some w =>
    obtain ⟨q, left⟩ := w
    cases f with
    | lost drained =>
      simp only [next, hwaiting]
      refine quiet_apart h ?_ fun q left hq => (by cases hq)
      cases drained with
      | false => exact .refl _
      | true => exact hflush
    | received written =>
      simp only [next, hwaiting]
      refine quiet_apart h hflush fun q' left' hq' => ?_
      split at hq'
      · cases hq'
      · cases hq'
        exact ⟨left, hwaiting⟩

theorem next_apart (b : Board) (s : Link) (e : Ev) (h : Apart s) (none_left : NoneLeft s e) :
    Apart (next b s e) := by
  cases e with
  | send path msg delivered raises => exact send_apart h b none_left
  | process pieces w => exact process_apart h b pieces w
  | fetch f => exact fetch_apart h b f
  | device e =>
    simp only [next]
    split
    · next hinside =>
      exact quiet_apart h (inside_keeps b hinside s.dev) fun q left hq => ⟨left, hq⟩
    · exact h

theorem mem_uplink {written : Nat → Bool} {x : Rsp × Request} (hx : x ∈ uplink s written) :
    x ∈ tagged s.dev.rpc.fifo s.owners := by
  obtain ⟨⟨y, i⟩, hy, rfl⟩ := List.mem_map.mp hx
  exact List.fst_mem_of_mem_zipIdx (List.mem_filter.mp hy).1

theorem ownResponse_of_apart (h : Apart s) (e : Ev) : OwnResponse s e := by
  cases e with
  | fetch f =>
    cases f with
    | received written =>
      intro q left r owner hq hreturned
      have hpath := List.find?_some hreturned
      exact h.queued q left hq (r, owner) (mem_uplink (List.mem_of_find?_eq_some hreturned))
        (of_decide_eq_true hpath)
    | lost drained => trivial
  | send path msg delivered raises => trivial
  | process pieces w => trivial
  | device e => trivial

end Steps

/-- A new connection: the queue is empty, and the records start with it. -/
def connected (d : Dev) : Link where
  dev := { d with rpc := ⟨[], false, []⟩ }
  owners := []
  pending := []
  made := 0
  waiting := none

theorem connected_apart (d : Dev) : Apart (connected d) where
  owned := rfl
  recent := List.suffix_refl _
  queued := fun q left hq => (by cases hq)
  pending := fun q left hq => (by cases hq)

/-- If every request finds nothing left of earlier ones on its path, every call that returns
has the response to its own request, however many exchanges were abandoned. -/
theorem response_belongs_to_request (b : Board) (d : Dev) (es : List Ev)
    (none_left : Each (next b) NoneLeft (connected d) es) :
    Each (next b) OwnResponse (connected d) es :=
  each_of_each (next_apart b) (fun _ e h _ => ownResponse_of_apart h e) (connected_apart d)
    none_left

/-- A scan status request, delivered and accepted. -/
def scanStatus : Ev := .send (path .scan) [0x81, 0x01] true false

def everything : Ev := .fetch (.received fun _ => true)

/-- The first poll loses the uplink after the queue was drained; a second call follows. -/
def retriedRun : List Ev :=
  [scanStatus, .process [] {}, .fetch (.lost true), scanStatus, .process [] {}, everything]

theorem response_belongs_to_request_retried :
    request ⟨1, path .scan, [0x81, 0x01]⟩
      (uplink ((retriedRun.take 5).foldl (next openBoard) (connected AuthGate.sampleDevice))
        fun _ => true) =
      some (⟨path .scan, [0x84, 0x01, 0x00, 0xf4, 0x00]⟩, ⟨1, path .scan, [0x81, 0x01]⟩) ∧
    Each (next openBoard) OwnResponse (connected AuthGate.sampleDevice) retriedRun := by
  refine ⟨by decide +kernel, response_belongs_to_request openBoard AuthGate.sampleDevice _ ?_⟩
  refine ⟨?_, trivial, trivial, ?_, trivial, trivial, trivial⟩
  · exact fun _ => ⟨by decide +kernel, by decide +kernel⟩
  · exact fun _ => ⟨by decide +kernel, by decide +kernel⟩

/-- The first call is abandoned before the queue was drained, then the scan finishes. -/
def staleRun : List Ev :=
  [scanStatus, .process [] {}, .fetch (.lost false), .device .scanDone, scanStatus,
    .process [] {}, everything]

/-- The second call returns what the device answered to the first: the scan is reported as
running although the device has answered that it is finished. -/
theorem abandoned_response_returned :
    ((staleRun.take 6).foldl (next openBoard) (connected AuthGate.sampleDevice)).dev.rpc.fifo =
      [⟨path .scan, [0x84, 0x01, 0x00, 0xf4, 0x00]⟩,
        ⟨path .scan, [0x84, 0x01, 0x00, 0xf5, 0x00]⟩] ∧
    ¬ Each (next openBoard) OwnResponse (connected AuthGate.sampleDevice) staleRun := by
  refine ⟨by decide +kernel, ?_⟩
  rintro ⟨-, -, -, -, -, -, h, -⟩
  have hreturned : request ⟨1, path .scan, [0x81, 0x01]⟩
      (uplink ((staleRun.take 6).foldl (next openBoard) (connected AuthGate.sampleDevice))
        fun _ => true) =
      some (⟨path .scan, [0x84, 0x01, 0x00, 0xf4, 0x00]⟩, ⟨0, path .scan, [0x81, 0x01]⟩) := by
    decide +kernel
  have howner := h ⟨1, path .scan, [0x81, 0x01]⟩ pollAttempts _ _ rfl hreturned
  cases howner

end Exchange
