import PouchProv.Device
import PouchProv.Runs

/-!
# Waiting for the first response

`rpc_uplink_flush` step by step, between calls that queue responses and calls
that reset the queue. A flush that finds the queue empty takes the semaphore: at
once if its count is one, or when a response is queued, or when the wait elapses
or is aborted by a reset. It then writes what it finds in the queue.

The queue and the semaphore are those of the device, and a flush that nothing
interrupts is the flush of the device (`flush_uninterrupted`).
-/

namespace UplinkWait

open Handlers Device Status Runs

/-- How a flush got past its wait. -/
inductive Wait where
  | pending -- the queue was not empty
  | atOnce
  | given
  | timeout
  | aborted
  deriving DecidableEq, Repr

/-- A flush past its wait: how many entries it has written, and whether the queue was reset
since it started. -/
structure Flush where
  wait : Wait
  written : Nat
  reset : Bool
  deriving DecidableEq, Repr

inductive Phase where
  | idle
  | waiting
  | draining (f : Flush)
  deriving DecidableEq, Repr

structure Uplink where
  rpc : Rpc
  phase : Phase
  deriving DecidableEq, Repr

inductive Ev where
  | enqueue (memory : Bool) (r : Rsp)
  | reset
  | flush
  | timeout
  /-- One round of the loop; `ok` is whether the uplink takes the entry. -/
  | drain (ok : Bool)
  deriving DecidableEq, Repr

/-- A response goes into the queue and the semaphore is given: to a flush that waits, or to
the count. -/
def enqueue (memory : Bool) (r : Rsp) (u : Uplink) : Uplink :=
  match u.phase, rpcEnqueue memory r u.rpc with
  | .waiting, (.ok (), rpc) => ⟨{ rpc with sem := u.rpc.sem }, .draining ⟨.given, 0, false⟩⟩
  | _, (_, rpc) => { u with rpc := rpc }

/-- A reset of the semaphore ends the wait of a flush. -/
def reset (u : Uplink) : Uplink where
  rpc := rpcReset u.rpc
  phase := match u.phase with
    | .idle => .idle
    | .waiting => .draining ⟨.aborted, 0, true⟩
    | .draining f => .draining { f with reset := true }

def flush (u : Uplink) : Uplink :=
  match u.phase with
  | .idle =>
    if ¬ u.rpc.fifo.isEmpty then { u with phase := .draining ⟨.pending, 0, false⟩ }
    else if u.rpc.sem then ⟨{ u.rpc with sem := false }, .draining ⟨.atOnce, 0, false⟩⟩
    else { u with phase := .waiting }
  | _ => u

/-- One round of the loop, with the flush that returns. -/
def drain (ok : Bool) (u : Uplink) : Uplink × List Flush :=
  match u.phase with
  | .draining f =>
    match u.rpc.fifo with
    | [] => ({ u with phase := .idle }, [f])
    | _ :: rest =>
      (⟨{ u.rpc with fifo := rest },
        .draining { f with written := f.written + if ok then 1 else 0 }⟩, [])
  | _ => (u, [])

/-- A step, with the flush that it lets return. -/
def step (u : Uplink) : Ev → Uplink × List Flush
  | .enqueue memory r => (enqueue memory r u, [])
  | .reset => (reset u, [])
  | .flush => (flush u, [])
  | .timeout =>
    match u.phase with
    | .waiting => ({ u with phase := .draining ⟨.timeout, 0, false⟩ }, [])
    | _ => (u, [])
  | .drain ok => drain ok u

def next (u : Uplink) (e : Ev) : Uplink := (step u e).1

def start : Uplink := ⟨⟨[], false, []⟩, .idle⟩

/-- What a flush does that nothing interrupts: its wait elapses if it has to wait. -/
def uninterrupted (q : Rpc) (oks : List Bool) : List Ev :=
  .flush :: ((if q.fifo.isEmpty ∧ ¬ q.sem then [.timeout] else []) ++ oks.map .drain)

/-- The loop takes the whole queue and returns. -/
lemma drain_all {q : Rpc} {oks : List Bool} (rounds : oks.length = q.fifo.length + 1)
    (f : Flush) :
    (oks.map Ev.drain).foldl next ⟨q, .draining f⟩ = ⟨{ q with fifo := [] }, .idle⟩ := by
  induction oks generalizing q f with
  | nil => simp at rounds
  | cons ok oks ih =>
    simp only [List.map_cons, List.foldl_cons, next, step, drain]
    cases hq : q.fifo with
    | nil =>
      have hlast : oks = [] := by
        apply List.eq_nil_of_length_eq_zero
        simpa [hq] using rounds
      subst hlast
      simp [← hq]
    | cons r rest =>
      refine ih ?_ _
      simpa [hq] using rounds

theorem flush_uninterrupted {q : Rpc} {oks : List Bool}
    (rounds : oks.length = q.fifo.length + 1) :
    (uninterrupted q oks).foldl next ⟨q, .idle⟩ = ⟨(rpcUplinkFlush q).2, .idle⟩ := by
  obtain ⟨fifo, sem, enqueued⟩ := q
  cases fifo with
  | cons r rest => exact drain_all rounds ⟨.pending, 0, false⟩
  | nil =>
    cases sem with
    | true => exact drain_all (q := ⟨[], false, enqueued⟩) rounds ⟨.atOnce, 0, false⟩
    | false => exact drain_all rounds ⟨.timeout, 0, false⟩

/-- A flush that found the queue empty and wrote nothing has waited for the whole time, or the
queue was reset meanwhile. -/
def Honest (f : Flush) : Prop :=
  f.wait ≠ .pending → f.written = 0 → f.wait = .timeout ∨ f.reset

instance (f : Flush) : Decidable (Honest f) := inferInstanceAs (Decidable (_ → _ → _))

/-- No flush finds an empty queue and a count of one, and the first write of a flush that was
woken by a response succeeds. -/
def Admitted (u : Uplink) : Ev → Prop
  | .flush => u.phase = .idle → u.rpc.fifo = [] → u.rpc.sem = false
  | .drain ok => ok ∨ ∀ f, u.phase = .draining f → f.wait = .given → f.written ≠ 0
  | _ => True

/-- A flush past its wait that has written nothing has a reason for it, or something to
write. -/
def Reasoned (u : Uplink) : Prop :=
  ∀ f, u.phase = .draining f → Honest f ∨ f.wait = .given ∧ u.rpc.fifo ≠ []

/-- A response that is queued is given to the flush that waits, or to the count. -/
lemma enqueue_cases (memory : Bool) (r : Rsp) (u : Uplink) :
    enqueue memory r u = u ∨ ∃ rpc, rpc.fifo = u.rpc.fifo ++ [r] ∧
      (enqueue memory r u = ⟨rpc, .draining ⟨.given, 0, false⟩⟩ ∨
        enqueue memory r u = ⟨rpc, u.phase⟩) := by
  have hrefused (err : Errno) (h : rpcEnqueue memory r u.rpc = (.error err, u.rpc)) :
      enqueue memory r u = u := by
    cases hu : u.phase <;> simp [enqueue, h, ← hu]
  by_cases hlong : r.msg.length > msgMax
  · exact .inl (hrefused .emsgsize (by simp [rpcEnqueue, hlong]))
  · cases memory with
    | false => exact .inl (hrefused .enomem (by simp [rpcEnqueue, hlong]))
    | true =>
      have hqueued : rpcEnqueue true r u.rpc =
          (.ok (), ⟨u.rpc.fifo ++ [r], true, u.rpc.enqueued ++ [r]⟩) := by
        simp [rpcEnqueue, hlong]
      right
      cases hu : u.phase with
      | waiting =>
        refine ⟨⟨u.rpc.fifo ++ [r], u.rpc.sem, u.rpc.enqueued ++ [r]⟩, rfl, ?_⟩
        simp [enqueue, hu, hqueued]
      | _ =>
        refine ⟨⟨u.rpc.fifo ++ [r], true, u.rpc.enqueued ++ [r]⟩, rfl, ?_⟩
        simp [enqueue, hu, hqueued]

lemma enqueue_reasoned {u : Uplink} (h : Reasoned u) (memory : Bool) (r : Rsp) :
    Reasoned (enqueue memory r u) := by
  rcases enqueue_cases memory r u with hsame | ⟨rpc, hqueue, hwoken | hkept⟩
  · rwa [hsame]
  · rw [hwoken]
    rintro f hphase
    right
    simp only [Phase.draining.injEq] at hphase
    exact ⟨by rw [← hphase], by simp [hqueue]⟩
  · rw [hkept]
    rintro f hphase
    rcases h f hphase with hhonest | ⟨hgiven, _⟩
    · exact .inl hhonest
    · exact .inr ⟨hgiven, by simp [hqueue]⟩

/-- A reset is a reason of its own. -/
lemma reset_reasoned (u : Uplink) : Reasoned (reset u) := by
  rintro f hphase
  left
  intro _ _
  right
  cases hu : u.phase with
  | idle => simp [reset, hu] at hphase
  | waiting | draining =>
    simp only [reset, hu, Phase.draining.injEq] at hphase
    simp [← hphase]

lemma flush_reasoned {u : Uplink} (h : Reasoned u) (fresh : Admitted u .flush) :
    Reasoned (flush u) := by
  cases hu : u.phase with
  | idle =>
    have hcount := fresh hu
    rintro f hphase
    left
    cases hq : u.rpc.fifo with
    | nil => simp [flush, hu, hq, hcount hq] at hphase
    | cons r rest =>
      simp only [flush, hu, hq, List.isEmpty_cons, Bool.false_eq_true, not_false_eq_true, if_true,
        Phase.draining.injEq] at hphase
      subst hphase
      intro hempty
      exact absurd rfl hempty
  | waiting => simpa [flush, hu] using h
  | draining g => simpa [flush, hu] using h

lemma drain_reasoned {u : Uplink} (h : Reasoned u) {ok : Bool} (writes : Admitted u (.drain ok)) :
    Reasoned (drain ok u).1 ∧ ∀ f ∈ (drain ok u).2, Honest f := by
  cases hu : u.phase with
  | idle => simpa [drain, hu] using h
  | waiting => simpa [drain, hu] using h
  | draining g =>
    cases hq : u.rpc.fifo with
    | nil =>
      have hg : Honest g := by simpa [hq] using h g hu
      simp [drain, hu, hq, Reasoned, hg]
    | cons r rest =>
      simp only [drain, hu, hq, Reasoned, Phase.draining.injEq, List.not_mem_nil, false_implies,
        implies_true, and_true]
      rintro f rfl
      left
      rintro hwait hnone
      rcases h g hu with hg | ⟨hgiven, _⟩
      · exact hg hwait (Nat.eq_zero_of_add_eq_zero_right hnone)
      · rcases writes with rfl | hwritten
        · simp at hnone
        · exact absurd (Nat.eq_zero_of_add_eq_zero_right hnone) (hwritten g hu hgiven)

lemma step_reasoned (u : Uplink) (e : Ev) (h : Reasoned u) (admitted : Admitted u e) :
    Reasoned (step u e).1 ∧ ∀ f ∈ (step u e).2, Honest f := by
  cases e with
  | enqueue memory r => exact ⟨enqueue_reasoned h memory r, List.forall_mem_nil _⟩
  | reset => exact ⟨reset_reasoned u, List.forall_mem_nil _⟩
  | flush => exact ⟨flush_reasoned h admitted, List.forall_mem_nil _⟩
  | timeout =>
    cases hu : u.phase with
    | waiting =>
      simp only [step, hu]
      refine ⟨?_, List.forall_mem_nil _⟩
      rintro f hphase
      simp only [Phase.draining.injEq] at hphase
      left
      rintro _ _
      left
      rw [← hphase]
    | _ => simpa [step, hu] using h
  | drain ok => exact drain_reasoned h admitted

/-- Every flush that returns empty has waited, where no flush finds the count of a response
that an earlier flush has written. -/
theorem empty_pouch_waited {es : List Ev} (admitted : Each next Admitted start es) :
    ∀ f ∈ outputs step start es, Honest f := by
  refine outputs_of_each step_reasoned ?_ admitted
  rintro f hphase
  cases hphase

def verRsp : Rsp := ⟨path .ver, [0x81, 0x00]⟩

/-- A flush waits, is woken by a response and writes it; the next one waits for the whole
time. -/
theorem empty_pouch_waited_woken :
    Honest ⟨.given, 1, false⟩ ∧ Honest ⟨.timeout, 0, false⟩ := by
  have hadmitted : Each next Admitted start [.flush, .enqueue true verRsp, .drain true, .drain true,
      .flush, .timeout, .drain true] :=
    ⟨fun _ _ => rfl, trivial, .inl rfl, .inl rfl, fun _ _ => rfl, trivial, .inl rfl, trivial⟩
  have hrun := empty_pouch_waited hadmitted
  exact ⟨hrun _ (by decide), hrun _ (by decide)⟩

/-- A response is queued and written by a flush, which has no need of the semaphore. The next
flush finds the count, and returns at once with nothing. -/
theorem empty_pouch_at_once :
    outputs step start
        [.enqueue true verRsp, .flush, .drain true, .drain true, .flush, .drain true] =
      [⟨.pending, 1, false⟩, ⟨.atOnce, 0, false⟩] ∧
    ¬ Honest ⟨.atOnce, 0, false⟩ := by
  decide

end UplinkWait
