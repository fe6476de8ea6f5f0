import PouchProv.Bytes
import Mathlib.Data.List.Forall2

/-!
# Readers that repeat

A parser that walks over its input, `while pos < len(data)`, is a reader of one
item, repeated until the input is used up. The fuel is the length of the input:
it never runs out when every item takes at least one byte (`readToEnd_step`).
-/

namespace Readers

universe u v
variable {A : Type u} {E : Type v}

/-- Read items until nothing is left. -/
def readAll (next : Bytes → Except E (A × Bytes)) (stuck : E) : Nat → Bytes → Except E (List A)
  | _, [] => .ok []
  | 0, _ :: _ => .error stuck
  | n + 1, b :: bs =>
    match next (b :: bs) with
    | .error e => .error e
    | .ok (a, rest) => (readAll next stuck n rest).map (a :: ·)

def readToEnd (next : Bytes → Except E (A × Bytes)) (stuck : E) (b : Bytes) :
    Except E (List A) :=
  readAll next stuck b.length b

/-- Every item takes some of the input. -/
def Consumes (next : Bytes → Except E (A × Bytes)) : Prop :=
  ∀ b a rest, next b = .ok (a, rest) → rest.length < b.length

variable {next : Bytes → Except E (A × Bytes)} {stuck : E}

lemma readAll_enough (consumes : Consumes next) {n m : Nat} {b : Bytes} (hn : b.length ≤ n)
    (hm : b.length ≤ m) : readAll next stuck n b = readAll next stuck m b := by
  induction n generalizing m b with
  | zero =>
    obtain rfl := List.eq_nil_of_length_eq_zero (Nat.le_zero.mp hn)
    cases m <;> rfl
  | succ n ih =>
    cases b with
    | nil => cases m <;> rfl
    | cons x xs =>
      cases m with
      | zero => exact absurd hm (by simp)
      | succ m =>
        simp only [readAll]
        cases hnext : next (x :: xs) with
        | error e => rfl
        | ok r =>
          have hshort := consumes _ _ _ hnext
          simp only [List.length_cons] at hn hm hshort
          simp only [ih (b := r.2) (m := m) (by omega) (by omega)]

/-- The loop as the program has it: one item, then the rest of the input. -/
theorem readToEnd_step (consumes : Consumes next) {b : Bytes} (hb : b ≠ []) :
    readToEnd next stuck b =
      match next b with
      | .error e => .error e
      | .ok (a, rest) => (readToEnd next stuck rest).map (a :: ·) := by
  cases b with
  | nil => exact absurd rfl hb
  | cons x xs =>
    simp only [readToEnd, List.length_cons, readAll]
    cases hnext : next (x :: xs) with
    | error e => rfl
    | ok r =>
      have hshort := consumes _ _ _ hnext
      simp only [List.length_cons] at hshort
      have henough : readAll next stuck xs.length r.2 = readAll next stuck r.2.length r.2 :=
        readAll_enough consumes (by omega) (Nat.le_refl _)
      simp only [henough]

/-- What is read does not depend on what follows it. -/
def Stable (next : Bytes → Except E (A × Bytes)) : Prop :=
  ∀ b a rest more, next b = .ok (a, rest) → next (b ++ more) = .ok (a, rest ++ more)

/-- A loop that ends well has read nothing, or one item and the rest after it. -/
theorem readToEnd_cases (consumes : Consumes next) {b : Bytes} {as : List A}
    (h : readToEnd next stuck b = .ok as) :
    b = [] ∧ as = [] ∨ ∃ a rest as', next b = .ok (a, rest) ∧
      readToEnd next stuck rest = .ok as' ∧ as = a :: as' := by
  by_cases hb : b = []
  · subst hb
    exact Or.inl ⟨rfl, (Except.ok.inj h).symm⟩
  · rw [readToEnd_step consumes hb] at h
    cases hnext : next b with
    | error e =>
      rw [hnext] at h
      cases h
    | ok r =>
      obtain ⟨a, rest⟩ := r
      rw [hnext] at h
      cases hrest : readToEnd next stuck rest with
      | error e =>
        simp only [hrest, Except.map] at h
        cases h
      | ok as' =>
        simp only [hrest, Except.map] at h
        exact Or.inr ⟨a, rest, as', rfl, hrest, (Except.ok.inj h).symm⟩

/-- Behind an input that was read to its end the loop goes on with the rest. -/
theorem readToEnd_append (consumes : Consumes next) (stable : Stable next) {b more : Bytes}
    {as : List A} (h : readToEnd next stuck b = .ok as) :
    readToEnd next stuck (b ++ more) = (readToEnd next stuck more).map (as ++ ·) := by
  induction hlen : b.length using Nat.strongRecOn generalizing b as with
  | ind n ih =>
    obtain ⟨rfl, rfl⟩ | ⟨a, rest, as', hnext, hrest, rfl⟩ := readToEnd_cases consumes h
    · rw [List.nil_append]
      cases readToEnd next stuck more <;> rfl
    · have hshort := consumes b a rest hnext
      have hgoes := ih rest.length (by omega) hrest rfl
      have hcons : b ++ more ≠ [] := by
        intro hnil
        rw [(List.append_eq_nil_iff.mp hnil).1] at hshort
        exact absurd hshort (by simp)
      rw [readToEnd_step consumes hcons, stable b a rest more hnext]
      simp only [hgoes]
      cases readToEnd next stuck more <;> rfl

/-- Where every item can be written back to the bytes that it was read from, so can the whole
input. -/
theorem readToEnd_written (consumes : Consumes next) {write : A → Option Bytes}
    (written : ∀ b a rest, next b = .ok (a, rest) → ∃ piece, write a = some piece ∧
      piece ++ rest = b) {b : Bytes} {as : List A} (h : readToEnd next stuck b = .ok as) :
    ∃ pieces, as.mapM write = some pieces ∧ pieces.flatten = b := by
  induction as generalizing b with
  | nil =>
    obtain ⟨rfl, -⟩ | ⟨_, _, _, _, _, hcons⟩ := readToEnd_cases consumes h
    · exact ⟨[], rfl, rfl⟩
    · cases hcons
  | cons a as ih =>
    obtain ⟨-, hnil⟩ | ⟨a', rest, as', hnext, hrest, hcons⟩ := readToEnd_cases consumes h
    · cases hnil
    · obtain ⟨rfl, rfl⟩ := List.cons.inj hcons
      obtain ⟨piece, hpiece, rfl⟩ := written b a rest hnext
      obtain ⟨pieces, hpieces, rfl⟩ := ih hrest
      exact ⟨piece :: pieces, by simp [hpiece, hpieces], rfl⟩

/-- The loop reads back what was written item by item. -/
theorem readToEnd_flatten (consumes : Consumes next) {as : List A} {pieces : List Bytes}
    (reads : List.Forall₂ (fun a piece => ∀ rest, next (piece ++ rest) = .ok (a, rest)) as pieces) :
    readToEnd next stuck pieces.flatten = .ok as := by
  induction reads with
  | nil => rfl
  | @cons a piece as pieces hread _ ih =>
    have hfirst := hread pieces.flatten
    have hne : piece ++ pieces.flatten ≠ [] := by
      intro hnil
      have hshort := consumes _ _ _ hfirst
      rw [hnil] at hshort
      exact absurd hshort (by simp)
    rw [List.flatten_cons, readToEnd_step consumes hne, hfirst]
    simp only [ih, Except.map]

lemma forall₂_of_mapM {B : Type*} {C : Type*} {f : B → Option C} {bs : List B} {cs : List C}
    (h : bs.mapM f = some cs) : List.Forall₂ (fun b c => b ∈ bs ∧ f b = some c) bs cs := by
  induction bs generalizing cs with
  | nil =>
    obtain rfl := Option.some.inj h
    exact .nil
  | cons b bs ih =>
    simp only [List.mapM_cons, Option.bind_eq_bind, Option.bind_eq_some_iff] at h
    obtain ⟨c, hc, cs', hcs, heq⟩ := h
    obtain rfl := Option.some.inj heq
    exact .cons ⟨List.mem_cons_self, hc⟩
      ((ih hcs).imp fun _ _ hb => ⟨List.mem_cons_of_mem _ hb.1, hb.2⟩)

/-- Reading more gives the same items exactly when there is no more. -/
theorem readToEnd_append_eq_iff (consumes : Consumes next) (stable : Stable next)
    {b more : Bytes} {as : List A} (h : readToEnd next stuck b = .ok as) :
    readToEnd next stuck (b ++ more) = .ok as ↔ more = [] := by
  constructor
  · intro hall
    rw [readToEnd_append consumes stable h] at hall
    cases hmore : readToEnd next stuck more with
    | error e =>
      rw [hmore] at hall
      cases hall
    | ok new =>
      rw [hmore] at hall
      have hnil : new = [] := by simpa using Except.ok.inj hall
      rw [hnil] at hmore
      obtain ⟨h, -⟩ | ⟨_, _, _, _, _, hcons⟩ := readToEnd_cases consumes hmore
      · exact h
      · cases hcons
  · rintro rfl
    rw [List.append_nil]
    exact h

end Readers
