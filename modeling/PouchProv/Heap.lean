import Mathlib.Tactic.Common

/-!
# Heaps with numbered allocations

A heap holds a block at each address in use. A block knows which allocation it is,
and a pointer knows the allocation that it came from, so that a pointer to a freed
block is told from one to a block that was later allocated at the same address.
-/

namespace Heap

universe u
variable {α : Type u}

structure Block (α : Type u) where
  serial : Nat
  content : Option α

/-- An address, with the allocation that returned it. -/
structure Ptr where
  addr : Nat
  serial : Nat
  deriving DecidableEq, Repr

def Memory (α : Type u) : Type u := Nat → Option (Block α)

def empty : Memory α := fun _ => none

/-- The address is one that is not in use. -/
def alloc (h : Memory α) (p : Ptr) : Memory α :=
  fun a => if a = p.addr then some ⟨p.serial, none⟩ else h a

def store (h : Memory α) (p : Ptr) (x : α) : Memory α :=
  fun a => if a = p.addr then (h a).map fun b => { b with content := some x } else h a

def load (h : Memory α) (p : Ptr) : Option α := (h p.addr).bind Block.content

def free (h : Memory α) (p : Ptr) : Memory α := fun a => if a = p.addr then none else h a

/-- The block of the pointer is in use. -/
def Owns (h : Memory α) (p : Ptr) : Prop := ∃ c, h p.addr = some ⟨p.serial, c⟩

/-- The block of the pointer is in use and has the content. -/
def Holds (h : Memory α) (p : Ptr) (x : α) : Prop := h p.addr = some ⟨p.serial, some x⟩

variable {h : Memory α} {p q : Ptr} {x y : α}

lemma Holds.owns (holds : Holds h p x) : Owns h p := ⟨some x, holds⟩

lemma Holds.load_eq (holds : Holds h p x) : load h p = some x := by
  rw [load, holds]
  rfl

/-- Pointers to two allocations have two addresses. -/
lemma addr_ne (hp : Owns h p) (hq : Owns h q) (ne : p.serial ≠ q.serial) : p.addr ≠ q.addr := by
  obtain ⟨c, hc⟩ := hp
  obtain ⟨d, hd⟩ := hq
  intro heq
  rw [heq, hd] at hc
  exact ne (congrArg Block.serial (Option.some.inj hc)).symm

lemma owns_alloc_self (h : Memory α) (p : Ptr) : Owns (alloc h p) p := ⟨none, if_pos rfl⟩

lemma unused_ne (unused : h q.addr = none) (hp : Owns h p) : p.addr ≠ q.addr := by
  obtain ⟨c, hc⟩ := hp
  intro heq
  rw [heq, unused] at hc
  cases hc

lemma Owns.alloc (hp : Owns h p) (unused : h q.addr = none) : Owns (alloc h q) p := by
  obtain ⟨c, hc⟩ := hp
  exact ⟨c, (if_neg (unused_ne unused ⟨c, hc⟩)).trans hc⟩

lemma Holds.alloc (hp : Holds h p x) (unused : h q.addr = none) : Holds (alloc h q) p x :=
  (if_neg (unused_ne unused hp.owns)).trans hp

lemma holds_store_self (hp : Owns h p) : Holds (store h p x) p x := by
  obtain ⟨c, hc⟩ := hp
  exact (if_pos rfl).trans (by rw [hc]; rfl)

lemma Owns.store (hp : Owns h p) : Owns (store h q x) p := by
  by_cases heq : p.addr = q.addr
  · obtain ⟨c, hc⟩ := hp
    exact ⟨some x, (if_pos heq).trans (by rw [hc]; rfl)⟩
  · obtain ⟨c, hc⟩ := hp
    exact ⟨c, (if_neg heq).trans hc⟩

lemma Holds.store (hp : Holds h p x) (hq : Owns h q) (ne : p.serial ≠ q.serial) :
    Holds (store h q y) p x :=
  (if_neg (addr_ne hp.owns hq ne)).trans hp

lemma Owns.free (hp : Owns h p) (hq : Owns h q) (ne : p.serial ≠ q.serial) :
    Owns (free h q) p := by
  obtain ⟨c, hc⟩ := hp
  exact ⟨c, (if_neg (addr_ne ⟨c, hc⟩ hq ne)).trans hc⟩

lemma Holds.free (hp : Holds h p x) (hq : Owns h q) (ne : p.serial ≠ q.serial) :
    Holds (free h q) p x :=
  (if_neg (addr_ne hp.owns hq ne)).trans hp

end Heap
