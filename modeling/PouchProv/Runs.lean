import Mathlib.Data.List.Basic
import Mathlib.Tactic.Common

/-!
# Runs of a deterministic machine

A machine is a step function on states. A run is a list of events, folded over
the step function from a start state. `Always` speaks about every state of a run,
the first and the last included; `Each` speaks about every step, through the
state before it and the event.

Histories are kept newest first, so that the part of a history since the last
boundary event is a prefix of it.
-/

namespace Runs

universe u v
variable {S : Type u} {E : Type v} {step : S → E → S}

/-- `P` holds in every state that the run passes through. -/
def Always (step : S → E → S) (P : S → Prop) : S → List E → Prop
  | s, [] => P s
  | s, e :: es => P s ∧ Always step P (step s e) es

/-- `C` holds of every step of the run: of the state before it and of its event. -/
def Each (step : S → E → S) (C : S → E → Prop) : S → List E → Prop
  | _, [] => True
  | s, e :: es => C s e ∧ Each step C (step s e) es

instance Each.decidable {C : S → E → Prop} [∀ s e, Decidable (C s e)] :
    (s : S) → (es : List E) → Decidable (Each step C s es)
  | _, [] => isTrue trivial
  | s, e :: es => @instDecidableAnd _ _ _ (Each.decidable (step s e) es)

theorem Always.final {P : S → Prop} {s : S} {es : List E}
    (h : Always step P s es) : P (es.foldl step s) := by
  induction es generalizing s with
  | nil => exact h
  | cons e es ih => exact ih h.2

theorem Always.mono {P Q : S → Prop} (weaker : ∀ s, P s → Q s) {s : S} {es : List E}
    (h : Always step P s es) : Always step Q s es := by
  induction es generalizing s with
  | nil => exact weaker s h
  | cons e es ih => exact ⟨weaker s h.1, ih h.2⟩

/-- An invariant that every admitted step preserves holds along every run of admitted steps. -/
theorem always_of_each {I : S → Prop} {C : S → E → Prop}
    (preserve : ∀ s e, I s → C s e → I (step s e)) {s : S} (start : I s) {es : List E}
    (admitted : Each step C s es) : Always step I s es := by
  induction es generalizing s with
  | nil => exact start
  | cons e es ih => exact ⟨start, ih (preserve s e start admitted.1) admitted.2⟩

/-- An invariant that every step preserves holds along every run. -/
theorem always_of_steps {I : S → Prop} (preserve : ∀ s e, I s → I (step s e)) {s : S}
    (start : I s) (es : List E) : Always step I s es := by
  induction es generalizing s with
  | nil => exact start
  | cons e es ih => exact ⟨start, ih (preserve s e start)⟩

/-- An invariant that every step preserves holds at the end of every run. -/
theorem foldl_invariant {I : S → Prop} (preserve : ∀ s e, I s → I (step s e)) {s : S}
    (start : I s) (es : List E) : I (es.foldl step s) := by
  induction es generalizing s with
  | nil => exact start
  | cons e es ih => exact ih (preserve s e start)

/-- Where a step keeps `P` exactly when it meets `C`, a run keeps `P` throughout
exactly when each of its steps meets `C`. The invariant `I` may be used for both. -/
theorem always_iff_each {I P : S → Prop} {C : S → E → Prop}
    (preserve : ∀ s e, I s → I (step s e))
    (exact_step : ∀ s e, I s → P s → (P (step s e) ↔ C s e))
    {s : S} (inv : I s) (start : P s) (es : List E) :
    Always step P s es ↔ Each step C s es := by
  induction es generalizing s with
  | nil => exact ⟨fun _ => trivial, fun _ => start⟩
  | cons e es ih =>
    have hstep := exact_step s e inv start
    constructor
    · intro h
      have hnext : P (step s e) := by
        cases es with
        | nil => exact h.2
        | cons e' es => exact h.2.1
      exact ⟨hstep.mp hnext, (ih (preserve s e inv) hnext).mp h.2⟩
    · intro h
      have hnext := hstep.mpr h.1
      exact ⟨start, (ih (preserve s e inv) hnext).mpr h.2⟩

/-- What an invariant and the condition on a step give, each step of an admitted run has. -/
theorem each_of_each {I : S → Prop} {C D : S → E → Prop}
    (preserve : ∀ s e, I s → C s e → I (step s e)) (gives : ∀ s e, I s → C s e → D s e)
    {s : S} (start : I s) {es : List E} (admitted : Each step C s es) : Each step D s es := by
  induction es generalizing s with
  | nil => trivial
  | cons e es ih =>
    exact ⟨gives s e start admitted.1, ih (preserve s e start admitted.1) admitted.2⟩

/-- Two conditions on steps that agree wherever the invariant holds agree on runs, if the
second preserves the invariant. -/
theorem each_iff_each {I : S → Prop} {C D : S → E → Prop}
    (preserve : ∀ s e, I s → C s e → I (step s e))
    (agree : ∀ s e, I s → (D s e ↔ C s e))
    {s : S} (inv : I s) (es : List E) : Each step D s es ↔ Each step C s es := by
  induction es generalizing s with
  | nil => exact Iff.rfl
  | cons e es ih =>
    have hagree := agree s e inv
    constructor
    · intro h
      have hc := hagree.mp h.1
      exact ⟨hc, (ih (preserve s e inv hc)).mp h.2⟩
    · intro h
      exact ⟨hagree.mpr h.1, (ih (preserve s e inv h.1)).mpr h.2⟩

/-- What a machine with outputs puts out along a run, in order. -/
def outputs {O : Type*} (step : S → E → S × List O) : S → List E → List O
  | _, [] => []
  | s, e :: es => (step s e).2 ++ outputs step (step s e).1 es

/-- A bound on the outputs counted so far that every step of an admitted kind preserves
bounds the count over the whole run. -/
theorem count_outputs {O : Type*} {step : S → E → S × List O} {p : O → Bool} {A : E → Prop}
    {J : Nat → S → Prop}
    (preserve : ∀ n s e, A e → J n s → J (n + (step s e).2.countP p) (step s e).1)
    {n : Nat} {s : S} (start : J n s) (es : List E) (admitted : ∀ e ∈ es, A e) :
    J (n + (outputs step s es).countP p) (es.foldl (fun s e => (step s e).1) s) := by
  induction es generalizing n s with
  | nil => simpa [outputs] using start
  | cons e es ih =>
    have hhead := preserve n s e (admitted e List.mem_cons_self) start
    have htail := ih hhead (fun e he => admitted e (List.mem_cons_of_mem _ he))
    simpa [outputs, List.countP_append, Nat.add_assoc] using htail

/-- An invariant of the admitted steps, and what it says of the outputs of a step, hold
along a run. -/
theorem outputs_of_each {O : Type*} {step : S → E → S × List O} {I : S → Prop}
    {C : S → E → Prop} {Q : O → Prop}
    (allowed : ∀ s e, I s → C s e → I (step s e).1 ∧ ∀ o ∈ (step s e).2, Q o)
    {s : S} (start : I s) {es : List E} (admitted : Each (fun s e => (step s e).1) C s es) :
    ∀ o ∈ outputs step s es, Q o := by
  induction es generalizing s with
  | nil => simp [outputs]
  | cons e es ih =>
    obtain ⟨hnext, hout⟩ := allowed s e start admitted.1
    rintro o ho
    rcases List.mem_append.mp ho with hnow | hlater
    · exact hout o hnow
    · exact ih hnext admitted.2 o hlater

theorem each_of_forall {C : S → E → Prop} (all : ∀ s e, C s e) (s : S) (es : List E) :
    Each step C s es := by
  induction es generalizing s with
  | nil => trivial
  | cons e es ih => exact ⟨all s e, ih (step s e)⟩

theorem each_of_mem {A : E → Prop} (s : S) {es : List E} (all : ∀ e ∈ es, A e) :
    Each step (fun _ e => A e) s es := by
  induction es generalizing s with
  | nil => trivial
  | cons e es ih =>
    exact ⟨all e List.mem_cons_self, ih (step s e) fun e he => all e (List.mem_cons_of_mem _ he)⟩

/-- Where every admitted step of a machine is a run of another one on a part of its state,
every run of admitted steps is. -/
theorem foldl_simulated {T F : Type*} {step' : T → F → T} {p : S → T} {C : S → E → Prop}
    (simulated : ∀ s e, C s e → ∃ fs : List F, p (step s e) = fs.foldl step' (p s)) {s : S}
    {es : List E} (admitted : Each step C s es) :
    ∃ fs : List F, p (es.foldl step s) = fs.foldl step' (p s) := by
  induction es generalizing s with
  | nil => exact ⟨[], rfl⟩
  | cons e es ih =>
    obtain ⟨fs, hhead⟩ := simulated s e admitted.1
    obtain ⟨gs, htail⟩ := ih admitted.2
    refine ⟨fs ++ gs, ?_⟩
    rw [List.foldl_cons, htail, hhead, List.foldl_append]

/-- Where every admitted step is a step of another machine with the same outputs, and keeps the
invariant that this rests on, so is every run of admitted steps. -/
theorem outputs_simulated {T O : Type*} {step : S → E → S × List O} {step' : T → E → T × List O}
    {p : S → T} {I : S → Prop} {C : S → E → Prop}
    (simulated : ∀ s e, I s → C s e →
      I (step s e).1 ∧ (p (step s e).1, (step s e).2) = step' (p s) e)
    {s : S} (start : I s) {es : List E} (admitted : Each (fun s e => (step s e).1) C s es) :
    outputs step s es = outputs step' (p s) es ∧
      p (es.foldl (fun s e => (step s e).1) s) =
        es.foldl (fun t e => (step' t e).1) (p s) := by
  induction es generalizing s with
  | nil => exact ⟨rfl, rfl⟩
  | cons e es ih =>
    obtain ⟨hnext, hstep⟩ := simulated s e start admitted.1
    obtain ⟨houtputs, hfinal⟩ := ih hnext admitted.2
    constructor
    · rw [outputs, outputs, houtputs, ← hstep]
    · rw [List.foldl_cons, List.foldl_cons, hfinal, ← hstep]

variable {A : Type u}

/-- The part of a history since its last boundary event. -/
def since (boundary : A → Bool) (h : List A) : List A := h.takeWhile (fun a => !boundary a)

lemma since_cons {boundary : A → Bool} {a : A} (ha : boundary a = false) (h : List A) :
    since boundary (a :: h) = a :: since boundary h := by
  simp [since, ha]

end Runs
