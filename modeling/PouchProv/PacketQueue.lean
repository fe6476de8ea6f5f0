import PouchProv.Bytes
import PouchProv.Runs

/-!
# The packet queue of the Swift client

`PacketQueue` of `AsyncSupport.swift`. Each section under the lock is one step; a
continuation that a section takes is resumed behind it, in a step of its own. Any
number of threads feed packets, every timer may expire at any time after its
receive, and one consumer calls `receive` again once the last call has returned.

The consumer is in one of three phases: not in a call, waiting, or about to be
resumed (`Phase`). Only a waiting receive leaves the queue a waiter, and its timer
is still to expire then.
-/

namespace PacketQueue

open Bytes Runs

/-- The waiting receive: its id, and the call whose continuation it is. -/
structure Waiter where
  id : Nat
  call : Nat
  deriving DecidableEq, Repr

structure Queue where
  buffer : List Bytes
  waiter : Option Waiter
  nextId : Nat
  deriving DecidableEq, Repr

/-- `continuation.resume(returning:)` behind a section: whose continuation, and with what. -/
structure Resume where
  call : Nat
  value : Option Bytes
  deriving DecidableEq, Repr

namespace Queue

def feed (q : Queue) (packet : Bytes) : Queue × Option Resume :=
  match q.waiter with
  | some waiting => ({ q with waiter := none }, some ⟨waiting.call, some packet⟩)
  | none => ({ q with buffer := q.buffer ++ [packet] }, none)

/-- The section of a call, with the id of the timer that it starts. -/
def receive (q : Queue) (call : Nat) : Queue × Option Resume × Option Nat :=
  match q.buffer with
  | packet :: buffer => ({ q with buffer := buffer }, some ⟨call, some packet⟩, none)
  | [] =>
    let id := q.nextId + 1
    ({ q with nextId := id, waiter := some ⟨id, call⟩ }, none, some id)

def expire (q : Queue) (id : Nat) : Queue × Option Resume :=
  match q.waiter with
  | some waiting =>
    if waiting.id = id then ({ q with waiter := none }, some ⟨waiting.call, none⟩) else (q, none)
  | none => (q, none)

end Queue

/-- The queue, the number of calls of `receive`, the timers that have not expired, the
continuations that were taken and not yet resumed, and what happened: the calls that were
resumed and the packets that were fed, in order. -/
structure System where
  queue : Queue
  calls : Nat
  timers : List Nat
  hands : List Resume
  resumed : List Resume
  fed : List Bytes
  deriving DecidableEq, Repr

def start : System := ⟨⟨[], none, 0⟩, 0, [], [], [], []⟩

inductive Ev where
  | feed (packet : Bytes)
  | receive
  | expire (id : Nat)
  | resume (i : Nat)
  deriving DecidableEq, Repr

def step (s : System) : Ev → System
  | .feed packet =>
    let (queue, taken) := s.queue.feed packet
    { s with queue := queue, hands := s.hands ++ taken.toList, fed := s.fed ++ [packet] }
  | .receive =>
    -- The consumer is not in a call exactly when every call has been resumed.
    if s.calls = s.resumed.length then
      let (queue, taken, timer) := s.queue.receive s.calls
      { s with queue := queue, calls := s.calls + 1, hands := s.hands ++ taken.toList,
               timers := s.timers ++ timer.toList }
    else s
  | .expire id =>
    if id ∈ s.timers then
      let (queue, taken) := s.queue.expire id
      { s with queue := queue, timers := s.timers.erase id, hands := s.hands ++ taken.toList }
    else s
  | .resume i =>
    match s.hands[i]? with
    | some r => { s with hands := s.hands.eraseIdx i, resumed := s.resumed ++ [r] }
    | none => s

def packets (rs : List Resume) : List Bytes := rs.filterMap Resume.value

/-- The calls were resumed in their order, each of them once. -/
def InOrder (rs : List Resume) : Prop := rs.map Resume.call = List.range rs.length

inductive Phase : System → Prop where
  | idle {buffer fed : List Bytes} {nextId : Nat} {timers : List Nat} {resumed : List Resume}
      (order : InOrder resumed) (kept : packets resumed ++ buffer = fed) :
      Phase ⟨⟨buffer, none, nextId⟩, resumed.length, timers, [], resumed, fed⟩
  | waiting {fed : List Bytes} {id nextId : Nat} {timers : List Nat} {resumed : List Resume}
      (order : InOrder resumed) (kept : packets resumed = fed) (timer : id ∈ timers) :
      Phase ⟨⟨[], some ⟨id, resumed.length⟩, nextId⟩, resumed.length + 1, timers, [], resumed, fed⟩
  | returning {buffer fed : List Bytes} {nextId : Nat} {timers : List Nat}
      {resumed : List Resume} {value : Option Bytes} (order : InOrder resumed)
      (kept : packets resumed ++ value.toList ++ buffer = fed) :
      Phase ⟨⟨buffer, none, nextId⟩, resumed.length + 1, timers, [⟨resumed.length, value⟩],
        resumed, fed⟩

lemma start_phase : Phase start := .idle (show InOrder [] from rfl) rfl

lemma inOrder_append {rs : List Resume} (order : InOrder rs) (value : Option Bytes) :
    InOrder (rs ++ [⟨rs.length, value⟩]) := by
  rw [InOrder, List.map_append, order, List.length_append, List.length_singleton,
    List.range_succ]
  rfl

lemma packets_append (rs : List Resume) (call : Nat) (value : Option Bytes) :
    packets (rs ++ [⟨call, value⟩]) = packets rs ++ value.toList := by
  rw [packets, List.filterMap_append]
  cases value <;> rfl

/-- Without a waiter a packet goes behind the others, and a waiting receive takes it. -/
lemma feed_phase {s : System} (h : Phase s) (packet : Bytes) : Phase (step s (.feed packet)) := by
  cases h with
  | idle order kept =>
    refine .idle order ?_
    rw [← List.append_assoc, kept]
  | waiting order kept timer =>
    refine .returning order ?_
    rw [kept]
    simp
  | returning order kept =>
    refine .returning order ?_
    rw [← List.append_assoc, kept]

lemma receive_phase {s : System} (h : Phase s) : Phase (step s .receive) := by
  cases h with
  | @idle buffer fed nextId timers resumed order kept =>
    simp only [step, if_true]
    cases buffer with
    | nil =>
      refine .waiting order ?_ (List.mem_append_right _ List.mem_cons_self)
      rwa [List.append_nil] at kept
    | cons packet buffer =>
      refine .returning order ?_
      rw [← kept]
      simp
  | waiting order kept timer =>
    rw [step, if_neg (Nat.succ_ne_self _)]
    exact .waiting order kept timer
  | returning order kept =>
    rw [step, if_neg (Nat.succ_ne_self _)]
    exact .returning order kept

/-- A timer of an earlier receive does not find its id, and leaves the timer of the waiting
one. -/
lemma expire_phase {s : System} (h : Phase s) (id : Nat) : Phase (step s (.expire id)) := by
  rw [step]
  split
  · cases h with
    | idle order kept => exact .idle order kept
    | @waiting fed wid nextId timers resumed order kept timer =>
      simp only [Queue.expire]
      split
      · refine .returning order ?_
        rw [kept]
        simp
      · rename_i hother
        exact .waiting order kept ((List.mem_erase_of_ne hother).mpr timer)
    | returning order kept => exact .returning order kept
  · exact h

lemma resume_phase {s : System} (h : Phase s) (i : Nat) : Phase (step s (.resume i)) := by
  cases h with
  | idle order kept => exact .idle order kept
  | waiting order kept timer => exact .waiting order kept timer
  | @returning buffer fed nextId timers resumed value order kept =>
    cases i with
    | zero =>
      have hkept : packets (resumed ++ [Resume.mk resumed.length value]) ++ buffer = fed := by
        rw [packets_append, kept]
      have hidle : Phase ⟨⟨buffer, none, nextId⟩,
          (resumed ++ [Resume.mk resumed.length value]).length, timers, [],
          resumed ++ [Resume.mk resumed.length value], fed⟩ :=
        .idle (inOrder_append order value) hkept
      rwa [List.length_append, List.length_singleton] at hidle
    | succ i => exact .returning order kept

theorem step_phase (s : System) (e : Ev) (h : Phase s) : Phase (step s e) := by
  cases e with
  | feed packet => exact feed_phase h packet
  | receive => exact receive_phase h
  | expire id => exact expire_phase h id
  | resume i => exact resume_phase h i

/-- The packets that receives returned, the one that a taken continuation is about to return,
and the buffered ones are the packets fed so far. Of the calls so far each is once among those
that were resumed, that are about to be, or that wait; the timer of a receive that waits resumes
it. A receive waits for an empty buffer only. -/
structure Lossless (s : System) : Prop where
  kept : packets s.resumed ++ packets s.hands ++ s.queue.buffer = s.fed
  single : s.hands.length ≤ 1
  once : (s.resumed ++ s.hands).map Resume.call ++ s.queue.waiter.toList.map Waiter.call =
    List.range s.calls
  expires : ∀ waiting ∈ s.queue.waiter,
    (step s (.expire waiting.id)).hands = [⟨waiting.call, none⟩]
  empty : s.queue.waiter.isSome → s.queue.buffer = []

lemma Phase.lossless {s : System} (h : Phase s) : Lossless s := by
  cases h with
  | @idle buffer fed nextId timers resumed order kept =>
    constructor
    · simpa [packets] using kept
    · exact Nat.zero_le _
    · rw [InOrder] at order
      simpa using order
    · intro waiting hw
      cases hw
    · intro hw
      cases hw
  | @waiting fed id nextId timers resumed order kept timer =>
    constructor
    · simpa [packets] using kept
    · exact Nat.zero_le _
    · simp only [List.append_nil, Option.toList_some, List.map_cons, List.map_nil]
      rw [order, List.range_succ]
    · intro waiting hw
      cases hw
      simp [step, timer, Queue.expire]
    · intro _
      rfl
  | @returning buffer fed nextId timers resumed value order kept =>
    constructor
    · rw [← kept]
      cases value <;> rfl
    · exact Nat.le_refl _
    · rw [List.map_append, order, List.range_succ]
      simp
    · intro waiting hw
      cases hw
    · intro hw
      cases hw

/-- Along every interleaving of feeds, expiring timers, calls of the consumer and resumed
continuations. -/
theorem packet_queue_lossless (es : List Ev) : Always step Lossless start es :=
  (always_of_steps step_phase start_phase es).mono fun _ h => h.lossless

/-- A timer that expires behind the packet of its receive does not touch the next one. -/
example :
    ([.receive, .feed [1], .resume 0, .receive, .expire 1, .feed [2], .resume 0] : List Ev).foldl
      step start = ⟨⟨[], none, 2⟩, 2, [2], [], [⟨0, some [1]⟩, ⟨1, some [2]⟩], [[1], [2]]⟩ := by
  decide

end PacketQueue
