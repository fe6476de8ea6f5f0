import PouchProv.Runs

/-!
# The mutex of the Swift client

`AsyncMutex` of `AsyncSupport.swift`, which `ProvSession` holds for a whole request and
`GattClient` for a whole operation. Each section under the `NSLock` is one step. A section
that takes a continuation resumes it behind the section, in a step of its own: in between
the mutex is handed to a caller that does not run yet, and the flag stays set.

What the mutex is for is a line of callers, the first of which has the mutex (`line`).
It is free, handed to the first caller, or held by it (`Phase`).
-/

namespace AsyncMutex

open Runs

universe u
variable {Caller : Type u}

/-- A waiter is the caller whose continuation it is. -/
structure Mutex (Caller : Type u) where
  locked : Bool
  waiters : List Caller
  deriving DecidableEq, Repr

namespace Mutex

/-- The section of `acquire`, with the continuation that is resumed behind it. -/
def acquire (m : Mutex Caller) (caller : Caller) : Mutex Caller × Option Caller :=
  if !m.locked then ({ m with locked := true }, some caller)
  else ({ m with waiters := m.waiters ++ [caller] }, none)

/-- The section of `release`. A waiter gets the mutex with the flag as it is. -/
def release (m : Mutex Caller) : Mutex Caller × Option Caller :=
  match m.waiters with
  | [] => ({ m with locked := false }, none)
  | next :: waiters => ({ m with waiters := waiters }, some next)

end Mutex

/-- The mutex, the callers whose continuation was taken and not yet resumed, those between
their resumed `acquire` and their `release`, and what happened: the callers in the order of the
sections of their `acquire`, and in the order in which it returned. -/
structure System (Caller : Type u) where
  mutex : Mutex Caller
  handed : List Caller
  inside : List Caller
  arrived : List Caller
  entered : List Caller
  deriving DecidableEq, Repr

def start : System Caller := ⟨⟨false, []⟩, [], [], [], []⟩

inductive Ev (Caller : Type u) where
  | acquire (caller : Caller)
  | resume (caller : Caller)
  | release (caller : Caller)
  deriving DecidableEq, Repr

/-- Every caller acquires once, and releases once its `acquire` has returned. -/
def step [DecidableEq Caller] (s : System Caller) : Ev Caller → System Caller
  | .acquire caller =>
    if caller ∈ s.arrived then s
    else
      let (mutex, taken) := s.mutex.acquire caller
      { s with mutex := mutex, handed := s.handed ++ taken.toList,
               arrived := s.arrived ++ [caller] }
  | .resume caller =>
    if caller ∈ s.handed then
      { s with handed := s.handed.erase caller, inside := s.inside ++ [caller],
               entered := s.entered ++ [caller] }
    else s
  | .release caller =>
    if caller ∈ s.inside then
      let (mutex, taken) := s.mutex.release
      { s with mutex := mutex, handed := s.handed ++ taken.toList,
               inside := s.inside.erase caller }
    else s

/-- At most one caller holds the mutex or has been handed it. The callers that have entered,
the one that is about to, and those that wait are the callers in the order of their arrival,
each of them once. While no caller holds the mutex or has been handed it, none waits. -/
structure Guarded (s : System Caller) : Prop where
  exclusive : s.inside.length + s.handed.length ≤ 1
  fair : s.entered ++ s.handed ++ s.mutex.waiters = s.arrived
  once : s.arrived.Nodup
  awake : s.inside = [] → s.handed = [] → s.mutex.waiters = []

inductive Phase : System Caller → Prop where
  | free {callers : List Caller} : Phase ⟨⟨false, []⟩, [], [], callers, callers⟩
  | handed {caller : Caller} {waiters arrived entered : List Caller}
      (order : entered ++ caller :: waiters = arrived) :
      Phase ⟨⟨true, waiters⟩, [caller], [], arrived, entered⟩
  | held {caller : Caller} {waiters arrived entered : List Caller}
      (order : entered ++ waiters = arrived) :
      Phase ⟨⟨true, waiters⟩, [], [caller], arrived, entered⟩

lemma Phase.guarded {s : System Caller} (h : Phase s) (once : s.arrived.Nodup) : Guarded s := by
  refine ⟨?_, ?_, once, ?_⟩
  · cases h with
    | free => exact Nat.zero_le _
    | handed order => exact Nat.le_refl _
    | held order => exact Nat.le_refl _
  · cases h with
    | free => simp
    | handed order => rw [← order, List.append_assoc, List.singleton_append]
    | held order => rw [← order, List.append_nil]
  · intro noneInside noneHanded
    cases h with
    | free => rfl
    | handed order => cases noneHanded
    | held order => cases noneInside

section Steps

variable [DecidableEq Caller] {s : System Caller}

/-- A free mutex is handed to the caller, and otherwise the caller stands behind the others. -/
lemma acquire_phase (h : Phase s) (caller : Caller) : Phase (step s (.acquire caller)) := by
  rw [step]
  split
  · exact h
  · cases h with
    | free => exact .handed rfl
    | handed order =>
      refine .handed ?_
      rw [← order, List.append_assoc, List.cons_append]
    | held order =>
      refine .held ?_
      rw [← order, List.append_assoc]

lemma resume_phase (h : Phase s) (caller : Caller) : Phase (step s (.resume caller)) := by
  rw [step]
  split
  · rename_i taken
    cases h with
    | free => cases taken
    | handed order =>
      obtain rfl := List.mem_singleton.mp taken
      simp only [List.erase_cons_head, List.nil_append]
      refine .held ?_
      rw [← order, List.append_assoc, List.singleton_append]
    | held order => cases taken
  · exact h

/-- The first waiter gets the mutex from its holder. -/
lemma release_phase (h : Phase s) (caller : Caller) : Phase (step s (.release caller)) := by
  rw [step]
  split
  · rename_i holds
    cases h with
    | free => cases holds
    | handed order => cases holds
    | @held holder waiters arrived entered order =>
      obtain rfl := List.mem_singleton.mp holds
      simp only [List.erase_cons_head]
      cases waiters with
      | nil =>
        rw [List.append_nil] at order
        subst order
        exact .free
      | cons next waiters => exact .handed order
  · exact h

theorem step_phase (s : System Caller) (e : Ev Caller) (h : Phase s) : Phase (step s e) := by
  cases e with
  | acquire caller => exact acquire_phase h caller
  | resume caller => exact resume_phase h caller
  | release caller => exact release_phase h caller

lemma arrived_acquire (s : System Caller) (caller : Caller) :
    (step s (.acquire caller)).arrived =
      if caller ∈ s.arrived then s.arrived else s.arrived ++ [caller] := by
  rw [step]
  split <;> rfl

@[simp] lemma arrived_resume (s : System Caller) (caller : Caller) :
    (step s (.resume caller)).arrived = s.arrived := by
  rw [step]
  split <;> rfl

@[simp] lemma arrived_release (s : System Caller) (caller : Caller) :
    (step s (.release caller)).arrived = s.arrived := by
  rw [step]
  split <;> rfl

lemma step_once (s : System Caller) (e : Ev Caller) (once : s.arrived.Nodup) :
    (step s e).arrived.Nodup := by
  cases e with
  | acquire caller =>
    rw [arrived_acquire]
    split
    · exact once
    · rename_i first
      rw [List.nodup_append]
      refine ⟨once, List.pairwise_singleton _ caller, ?_⟩
      rintro earlier hearlier _ hcaller rfl
      exact first (List.mem_singleton.mp hcaller ▸ hearlier)
  | resume caller =>
    rw [arrived_resume]
    exact once
  | release caller =>
    rw [arrived_release]
    exact once

/-- Along every interleaving of the sections of any number of callers and of resumed
continuations. -/
theorem mutex_exclusive_fair (es : List (Ev Caller)) :
    Always step Guarded (start : System Caller) es := by
  have run : Always step (fun s => Phase s ∧ s.arrived.Nodup) (start : System Caller) es := by
    refine always_of_steps ?_ ⟨.free, List.nodup_nil⟩ es
    rintro s e ⟨phase, once⟩
    exact ⟨step_phase s e phase, step_once s e once⟩
  exact run.mono fun _ h => h.1.guarded h.2

/-- Three callers. The second one has the mutex before it runs: the first has left, and the
third waits still. -/
example :
    ([.acquire 1, .resume 1, .acquire 2, .acquire 3, .release 1] : List (Ev Nat)).foldl step start =
      ⟨⟨true, [3]⟩, [2], [], [1, 2, 3], [1]⟩ := by
  decide

end Steps

/-- The callers that have arrived and not yet released. -/
def line (s : System Caller) : List Caller := s.inside ++ s.handed ++ s.mutex.waiters

lemma entered_of_line_nil {s : System Caller} (h : Phase s) (none : line s = []) :
    s.entered = s.arrived := by
  cases h with
  | free => rfl
  | handed order => cases none
  | held order => cases none

section Line

variable [DecidableEq Caller] {s : System Caller}

/-- What an event is to the line: who arrives stands behind it, who releases leaves its head. -/
def move (s : System Caller) : Ev Caller → List Caller → List Caller
  | .acquire caller, callers => if caller ∈ s.arrived then callers else callers ++ [caller]
  | .resume _, callers => callers
  | .release caller, callers => if caller ∈ s.inside then callers.tail else callers

theorem line_step (h : Phase s) (e : Ev Caller) : line (step s e) = move s e (line s) := by
  cases e with
  | acquire caller =>
    rw [step, move]
    split
    · rfl
    · cases h with
      | free => rfl
      | handed order => simp [line, Mutex.acquire]
      | held order => simp [line, Mutex.acquire]
  | resume caller =>
    rw [step, move]
    split
    · rename_i taken
      cases h with
      | free => cases taken
      | handed order =>
        obtain rfl := List.mem_singleton.mp taken
        simp [line]
      | held order => cases taken
    · rfl
  | release caller =>
    rw [step, move]
    split
    · rename_i holds
      cases h with
      | free => cases holds
      | handed order => cases holds
      | @held holder waiters arrived entered order =>
        obtain rfl := List.mem_singleton.mp holds
        cases waiters with
        | nil => simp [line, Mutex.release]
        | cons next waiters => simp [line, Mutex.release]
    · rfl

/-- The first of the line has the mutex, if it is let run. -/
lemma first_enters (h : Phase s) {caller : Caller} {rest : List Caller}
    (first : line s = caller :: rest) : caller ∈ (step s (.resume caller)).inside := by
  cases h with
  | free => cases first
  | handed order =>
    cases first
    simp [step]
  | held order =>
    cases first
    simp [step]

/-- The continuation of the caller is resumed, if it has not been, and the caller releases. -/
def serve (caller : Caller) : List (Ev Caller) := [.resume caller, .release caller]

lemma line_serve (h : Phase s) {caller : Caller} {rest : List Caller}
    (first : line s = caller :: rest) : line ((serve caller).foldl step s) = rest := by
  have inside := first_enters h first
  have resumed : line (step s (.resume caller)) = caller :: rest := by
    rw [line_step h, move, first]
  rw [serve, List.foldl_cons, List.foldl_cons, List.foldl_nil,
    line_step (resume_phase h caller), move, if_pos inside, resumed, List.tail_cons]

lemma serve_phase (h : Phase s) (caller : Caller) : Phase ((serve caller).foldl step s) :=
  release_phase (resume_phase h caller) caller

lemma arrived_serve (s : System Caller) (caller : Caller) :
    ((serve caller).foldl step s).arrived = s.arrived := by
  rw [serve, List.foldl_cons, List.foldl_cons, List.foldl_nil, arrived_release, arrived_resume]

lemma line_served (h : Phase s) :
    line (((line s).flatMap serve).foldl step s) = [] ∧
      (((line s).flatMap serve).foldl step s).entered = s.arrived := by
  induction callers : line s generalizing s with
  | nil => exact ⟨callers, entered_of_line_nil h callers⟩
  | cons caller rest ih =>
    rw [List.flatMap_cons, List.foldl_append, ← arrived_serve s caller]
    exact ih (serve_phase h caller) (line_serve h callers)

/-- After any run, if the callers in the line are resumed and release in their turn, all of them
enter: they need no wake-up other than those that the mutex gives. -/
theorem everyone_enters (es : List (Ev Caller)) :
    let s : System Caller := es.foldl step start
    let served := ((line s).flatMap serve).foldl step s
    line served = [] ∧ served.entered = s.arrived :=
  line_served (foldl_invariant step_phase .free es)

end Line

end AsyncMutex
