import Mathlib.Tactic.Common

/-!
# Programs with a state and errors

What a program over a state comes to: it returns a value or stops with an error, and
leaves a state either way. `Ends` says both at once. Its rules follow the program:
one for each way to write it, one for a weaker conclusion and one for a loop with a
bounded number of rounds.
-/

namespace Flow

variable {ε σ α β : Type}

/-- From the state, the program returns with `Q` or stops with `E`. -/
def Ends (x : EStateM ε σ α) (s : σ) (Q : α → σ → Prop) (E : ε → σ → Prop) : Prop :=
  match x s with
  | .ok a s' => Q a s'
  | .error e s' => E e s'

section Rules

variable {x : EStateM ε σ α} {s : σ} {Q Q' : α → σ → Prop} {E E' : ε → σ → Prop}

theorem Ends.mono (h : Ends x s Q E) (returns : ∀ a s', Q a s' → Q' a s')
    (stops : ∀ e s', E e s' → E' e s') : Ends x s Q' E' := by
  rw [Ends] at h ⊢
  cases hx : x s with
  | ok a s' =>
    rw [hx] at h
    exact returns a s' h
  | error e s' =>
    rw [hx] at h
    exact stops e s' h

@[simp] theorem ends_pure {a : α} : Ends (pure a) s Q E ↔ Q a s := Iff.rfl

@[simp] theorem ends_throw {e : ε} : Ends (throw e) s Q E ↔ E e s := Iff.rfl

@[simp] theorem ends_modify {f : σ → σ} {Q : PUnit → σ → Prop} :
    Ends (modify f) s Q E ↔ Q ⟨⟩ (f s) := Iff.rfl

@[simp] theorem ends_get {Q : σ → σ → Prop} : Ends get s Q E ↔ Q s s := Iff.rfl

theorem ends_bind {f : α → EStateM ε σ β} {Q : β → σ → Prop} :
    Ends (x >>= f) s Q E ↔ Ends x s (fun a s' => Ends (f a) s' Q E) E := by
  change (match EStateM.bind x f s with | .ok a s' => _ | .error e s' => _) ↔
    match x s with | .ok a s' => _ | .error e s' => _
  rw [EStateM.bind]
  cases x s with
  | ok a s' => exact Iff.rfl
  | error e s' => exact Iff.rfl

/-- One step of a program after another. -/
theorem Ends.bind {f : α → EStateM ε σ β} {Q : α → σ → Prop} {Q' : β → σ → Prop}
    (first : Ends x s Q E) (second : ∀ a s', Q a s' → Ends (f a) s' Q' E) :
    Ends (x >>= f) s Q' E :=
  ends_bind.mpr (first.mono second fun _ _ h => h)

/-- Nothing comes after a program that never returns. -/
theorem Ends.stop {f : α → EStateM ε σ β} {Q : β → σ → Prop}
    (stops : Ends x s (fun _ _ => False) E) : Ends (x >>= f) s Q E :=
  stops.bind fun _ _ h => h.elim

end Rules

/-- Rounds of the body until one gives a result, or until they are used up. -/
def loop (out : ε) (body : α → EStateM ε σ (α ⊕ β)) : Nat → α → EStateM ε σ β
  | 0, _ => throw out
  | rounds + 1, a => do
    let r ← body a
    match r with
    | .inl a => loop out body rounds a
    | .inr b => pure b

/-- The invariant may depend on the rounds that are left. -/
theorem ends_loop {out : ε} {body : α → EStateM ε σ (α ⊕ β)} {I : Nat → α → σ → Prop}
    {Q : β → σ → Prop} {E : ε → σ → Prop}
    (round : ∀ rounds a s, I (rounds + 1) a s → Ends (body a) s
      (fun r s' => match r with
        | .inl a => I rounds a s'
        | .inr b => Q b s') E)
    (exhausted : ∀ a s, I 0 a s → E out s) {rounds : Nat} {a : α} {s : σ} (h : I rounds a s) :
    Ends (loop out body rounds a) s Q E := by
  induction rounds generalizing a s with
  | zero => exact exhausted a s h
  | succ rounds ih =>
    refine (round rounds a s h).bind fun r s' hr => ?_
    cases r with
    | inl a' => exact ih hr
    | inr b => exact hr

end Flow
