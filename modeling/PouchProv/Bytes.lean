import Mathlib.Data.List.Induction
import Mathlib.Algebra.Group.Nat.Defs
import Mathlib.Data.List.Basic
import Mathlib.Tactic.Common

/-!
# Byte strings and fixed buffers

A byte string is a list of bytes. `writeAt` is a copy into a fixed buffer: it
keeps the buffer's length exactly when the copied range lies inside it, and the
results below read the buffer back through its prefixes.
-/

/-- A byte string, first byte first. -/
abbrev Bytes := List UInt8

namespace Bytes

/-- The UTF-8 bytes of a text. -/
def utf8 (s : String) : Bytes := s.toList.flatMap String.utf8EncodeChar

/-- Copy `data` over the bytes of `buf` that start at `off`. -/
def writeAt (buf : Bytes) (off : Nat) (data : Bytes) : Bytes :=
  buf.take off ++ data ++ buf.drop (off + data.length)

theorem writeAt_length {buf data : Bytes} {off : Nat}
    (inside : off + data.length ≤ buf.length) : (writeAt buf off data).length = buf.length := by
  simp only [writeAt, List.length_append, List.length_take, List.length_drop]
  omega

/-- The prefix that ends where the copy ends is the old prefix followed by the data. -/
theorem take_writeAt {buf data : Bytes} {off : Nat} (inside : off ≤ buf.length) :
    (writeAt buf off data).take (off + data.length) = buf.take off ++ data := by
  have hlen : (buf.take off ++ data).length = off + data.length := by
    simp [List.length_take, Nat.min_eq_left inside]
  rw [writeAt, ← hlen]
  exact List.take_left

theorem getElem?_writeAt {buf data : Bytes} {off : Nat} (inside : off ≤ buf.length) (i : Nat) :
    (writeAt buf off data)[i]? =
      if i < off then buf[i]?
      else if i < off + data.length then data[i - off]?
      else buf[i]? := by
  have htake : (buf.take off).length = off := by simp [Nat.min_eq_left inside]
  rw [writeAt, List.append_assoc]
  by_cases hlow : i < off
  · rw [List.getElem?_append_left (by omega), if_pos hlow, List.getElem?_take_of_lt hlow]
  · rw [List.getElem?_append_right (by omega), htake, if_neg hlow]
    by_cases hmid : i < off + data.length
    · rw [List.getElem?_append_left (by omega), if_pos hmid]
    · rw [List.getElem?_append_right (by omega), if_neg hmid, List.getElem?_drop]
      congr 1
      omega

/-- A copy leaves a prefix of the buffer alone exactly when every copied byte that
falls inside the prefix equals the byte it replaces. -/
theorem take_writeAt_eq_iff {buf data : Bytes} {off n : Nat}
    (inside : off ≤ buf.length) :
    (writeAt buf off data).take n = buf.take n ↔
      ∀ i, i < data.length → off + i < n → data[i]? = buf[off + i]? := by
  constructor
  · intro same i hi hn
    have hget := congrArg (fun l : Bytes => l[off + i]?) same
    simp only [List.getElem?_take_of_lt hn, getElem?_writeAt inside] at hget
    rwa [if_neg (by omega), if_pos (by omega), Nat.add_sub_cancel_left] at hget
  · intro agree
    apply List.ext_getElem?
    intro i
    by_cases hn : i < n
    · rw [List.getElem?_take_of_lt hn, List.getElem?_take_of_lt hn, getElem?_writeAt inside]
      by_cases hlow : i < off
      · rw [if_pos hlow]
      · rw [if_neg hlow]
        by_cases hmid : i < off + data.length
        · have hi := agree (i - off) (by omega) (by omega)
          rw [if_pos hmid, hi, Nat.add_sub_of_le (by omega)]
        · rw [if_neg hmid]
    · rw [List.getElem?_eq_none (by simp; omega), List.getElem?_eq_none (by simp; omega)]

/-- The `w` low bytes of a number, most significant first. -/
def be : Nat → Nat → Bytes
  | 0, _ => []
  | w + 1, n => be w (n / 256) ++ [UInt8.ofNat (n % 256)]

/-- The number that a byte string writes, most significant byte first. -/
def ofBe (b : Bytes) : Nat := b.foldl (fun n x => 256 * n + x.toNat) 0

@[simp] lemma be_length (w n : Nat) : (be w n).length = w := by
  induction w generalizing n with
  | zero => rfl
  | succ w ih => simp [be, ih]

lemma ofBe_concat (b : Bytes) (x : UInt8) : ofBe (b ++ [x]) = 256 * ofBe b + x.toNat := by
  rw [ofBe, List.foldl_append, List.foldl_cons, List.foldl_nil, ofBe]

theorem ofBe_be {w n : Nat} (fits : n < 256 ^ w) : ofBe (be w n) = n := by
  induction w generalizing n with
  | zero => simpa [ofBe, be, eq_comm] using fits
  | succ w ih =>
    have hdiv : n / 256 < 256 ^ w := by
      rw [Nat.pow_succ] at fits
      exact Nat.div_lt_of_lt_mul (by omega)
    have hbyte : (UInt8.ofNat (n % 256)).toNat = n % 256 := by simp
    rw [be, ofBe_concat, hbyte, ih hdiv]
    omega

/-- A byte string is the number that it writes. -/
theorem be_ofBe (b : Bytes) : be b.length (ofBe b) = b := by
  induction b using List.reverseRecOn with
  | nil => rfl
  | append_singleton b x ih =>
    have hx : x.toNat < 256 := x.toNat_lt
    have hdiv : (256 * ofBe b + x.toNat) / 256 = ofBe b := by omega
    have hmod : (256 * ofBe b + x.toNat) % 256 = x.toNat := by omega
    rw [List.length_append, List.length_singleton, be, ofBe_concat, hdiv, hmod, ih,
      UInt8.ofNat_toNat]

theorem ofBe_lt (b : Bytes) : ofBe b < 256 ^ b.length := by
  induction b using List.reverseRecOn with
  | nil => exact Nat.one_pos
  | append_singleton b x ih =>
    have hx : x.toNat < 256 := x.toNat_lt
    rw [ofBe_concat, List.length_append, List.length_singleton, Nat.pow_succ]
    omega

lemma ofBe_zero_cons (b : Bytes) : ofBe (0 :: b) = ofBe b := rfl

lemma ofBe_dropWhile_zero (b : Bytes) : ofBe (b.dropWhile (· = 0)) = ofBe b := by
  induction b with
  | nil => rfl
  | cons x b ih =>
    by_cases hx : x = 0
    · rw [List.dropWhile_cons_of_pos (by simpa using hx), ih, hx, ofBe_zero_cons]
    · rw [List.dropWhile_cons_of_neg (by simpa using hx)]

lemma pow_le_ofBe {x : UInt8} (nonzero : x ≠ 0) (b : Bytes) : 256 ^ b.length ≤ ofBe (x :: b) := by
  induction b using List.reverseRecOn with
  | nil =>
    have hx : x.toNat ≠ 0 := fun h => nonzero (UInt8.toNat_inj.mp h)
    simp only [ofBe, List.length_nil, List.foldl_cons, List.foldl_nil]
    omega
  | append_singleton b y ih =>
    rw [← List.cons_append, ofBe_concat, List.length_append, List.length_singleton, Nat.pow_succ]
    omega

/-- Where neither starts with a zero, byte strings that write one number are one. -/
theorem eq_of_ofBe_eq {a b : Bytes} (ha : ∀ x ∈ a.head?, x ≠ 0) (hb : ∀ x ∈ b.head?, x ≠ 0)
    (same : ofBe a = ofBe b) : a = b := by
  have shorter : ∀ {a b : Bytes}, (∀ x ∈ b.head?, x ≠ 0) → ofBe a = ofBe b →
      b.length ≤ a.length := by
    intro a b hb same
    cases b with
    | nil => exact Nat.zero_le _
    | cons x b =>
      have hlow := pow_le_ofBe (hb x rfl) b
      have hpow : 256 ^ b.length < 256 ^ a.length :=
        Nat.lt_of_le_of_lt (same ▸ hlow) (ofBe_lt a)
      exact (Nat.pow_lt_pow_iff_right (by decide)).mp hpow
  have hlength : a.length = b.length := Nat.le_antisymm (shorter ha same.symm) (shorter hb same)
  rw [← be_ofBe a, ← be_ofBe b, hlength, same]

end Bytes
