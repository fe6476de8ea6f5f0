import PouchProv.Bytes
import PouchProv.Status

/-!
# Reads from the settings subsystem

The settings subsystem is outside the repository. Its load calls the handlers of
`cred_store.c` and `identity.c` with a callback that reads a stored value, and both
handlers give it the buffer that they use afterwards. A read that fails may have
written into that buffer by then, and no handler puts back what was there.
-/

namespace Settings

open Status

/-- A `settings_read_cb`: what it writes into a buffer of the given size, and what it returns.
A failed read may have written something too. -/
structure ReadCb where
  written : Nat → Bytes
  result : Nat → Except Errno Nat
  written_le : ∀ size, (written size).length ≤ size
  result_le : ∀ size rc, result size = .ok rc → rc ≤ size

/-- How the backend answers the read of a stored value. -/
inductive Read where
  | whole
  | failed (written : Bytes)
  deriving DecidableEq, Repr

/-- The bytes that a read of the value puts into the buffer, as far as they fit. -/
def Read.written (value : Bytes) : Read → Bytes
  | .whole => value
  | .failed written => written

def Read.returns (value : Bytes) (size : Nat) : Read → Except Errno Nat
  | .whole => .ok (min size value.length)
  | .failed _ => .error .eio

lemma Read.returns_le {value : Bytes} {read : Read} {size rc : Nat}
    (h : read.returns value size = .ok rc) : rc ≤ size := by
  cases read with
  | whole =>
    cases h
    exact Nat.min_le_left _ _
  | failed written => cases h

/-- The callback that the backend passes for a stored value. -/
def Read.cb (value : Bytes) (read : Read) : ReadCb where
  written size := (read.written value).take size
  result size := read.returns value size
  written_le size := List.length_take_le size _
  result_le _ _ := Read.returns_le

/-- Below the length, what is written equals what the buffer holds. -/
def Agrees (written buf : Bytes) (len : Nat) : Prop :=
  ∀ i, i < written.length → i < len → written[i]? = buf[i]?

instance Agrees.decidable (written buf : Bytes) (len : Nat) : Decidable (Agrees written buf len) :=
  inferInstanceAs (Decidable (∀ i, i < written.length → i < len → written[i]? = buf[i]?))

/-- A read that writes the bytes that are there below a length leaves them. -/
theorem take_of_agrees {written buf : Bytes} {len : Nat} (same : Agrees written buf len)
    (size : Nat) : (Bytes.writeAt buf 0 (written.take size)).take len = buf.take len := by
  rw [Bytes.take_writeAt_eq_iff (Nat.zero_le _)]
  intro i hi hlen
  rw [List.length_take] at hi
  rw [Nat.zero_add] at hlen ⊢
  rw [List.getElem?_take_of_lt (by omega)]
  exact same i (by omega) hlen

theorem take_read_iff {written buf : Bytes} {size len : Nat} (inside : len ≤ size) :
    (Bytes.writeAt buf 0 (written.take size)).take len = buf.take len ↔
      Agrees written buf len := by
  refine ⟨fun h i hi hlen => ?_, fun same => take_of_agrees same size⟩
  rw [Bytes.take_writeAt_eq_iff (Nat.zero_le _)] at h
  have hsame := h i (by rw [List.length_take]; omega) (by omega)
  rwa [Nat.zero_add, List.getElem?_take_of_lt (by omega)] at hsame

end Settings
