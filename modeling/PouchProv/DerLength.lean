import PouchProv.CredBounds

/-!
# The length of a DER sequence

`der_sequence_len_ok` of `cred_store.c` on a target whose `size_t` has 32 bits, with the
shifts and sums of its words and with every byte that it reads. The check is the one of
`CredStore` and it reads what `CredBounds` says (`check_eq`). It accepts exactly the
buffers that a sequence spans, tag, length and content, in numbers that do not wrap
(`der_length_exact`).

The content has at most four length bytes and fills a word without wrapping it. The sum
with the header may wrap, but what is left of it is then less than the header, which was
found to be inside the buffer before (`unwrapped`).
-/

namespace DerLength

open Bytes

/-- A buffer and the length that is passed with it, which the buffer has at least. -/
structure Region where
  buf : Bytes
  len : UInt32
  inside : len.toNat ≤ buf.length

/-- The indices that have been read, in order. -/
abbrev Reading (α : Type) : Type := StateM (List Nat) α

def byteAt (buf : Bytes) (i : UInt32) : Reading UInt8 := do
  modify (· ++ [i.toNat])
  return buf.getD i.toNat 0

/-- The body of the loop. -/
def shiftIn (buf : Bytes) (content : UInt32) (i : Nat) : Reading UInt32 := do
  let b ← byteAt buf (2 + UInt32.ofNat i)
  return content <<< 8 ||| b.toUInt32

def derSequenceLenOk (buf : Bytes) (len : UInt32) : Reading Bool := do
  if len < 4 then return false
  else
    let tag ← byteAt buf 0
    if tag ≠ 0x30 then return false
    else
      let lb ← byteAt buf 1
      if lb &&& 0x80 = 0 then return lb.toUInt32 + 2 = len -- short form
      else
        let nbytes := (lb &&& 0x7f).toUInt32
        if nbytes = 0 ∨ nbytes > 4 ∨ len < 2 + nbytes then return false
        else
          let content ← (List.range nbytes.toNat).foldlM (shiftIn buf) 0
          return content + 2 + nbytes = len

lemma toNat_shift_or (content : UInt32) (b : UInt8) :
    (content <<< 8 ||| b.toUInt32).toNat = (content.toNat * 256 + b.toNat) % 2 ^ 32 := by
  have hb : b.toNat < 2 ^ 8 := b.toNat_lt
  have hshift : (content <<< 8).toNat = 2 ^ 8 * (content.toNat % 2 ^ 24) := by
    rw [UInt32.toNat_shiftLeft, Nat.shiftLeft_eq]
    have h8 : (8 : UInt32).toNat % 32 = 8 := rfl
    rw [h8]
    omega
  rw [UInt32.toNat_or, hshift, UInt8.toNat_toUInt32, ← Nat.two_pow_add_eq_or_of_lt hb]
  omega

lemma high_bit_clear_iff (lb : UInt8) : lb &&& 0x80 = 0 ↔ lb.toNat < 0x80 := by
  have bytes : ∀ n < 2 ^ 8, (n &&& 0x80 = 0 ↔ n < 0x80) := by decide +kernel
  rw [← UInt8.toNat_inj, UInt8.toNat_and]
  exact bytes lb.toNat lb.toNat_lt

lemma low_bits (lb : UInt8) : (lb &&& 0x7f).toUInt32.toNat = lb.toNat % 0x80 := by
  rw [UInt8.toNat_toUInt32, UInt8.toNat_and]
  exact Nat.and_two_pow_sub_one_eq_mod lb.toNat 7

lemma run_bind_of_run {α β : Type} {x : Reading α} {f : α → Reading β} {log log' : List Nat}
    {a : α} (h : x.run log = (a, log')) : (x >>= f).run log = (f a).run log' := by
  rw [StateT.run_bind, h]
  rfl

lemma shiftIn_run (buf : Bytes) (content : UInt32) (i : Nat) (log : List Nat) :
    (shiftIn buf content i).run log =
      (content <<< 8 ||| (buf.getD (2 + UInt32.ofNat i).toNat 0).toUInt32,
        log ++ [(2 + UInt32.ofNat i).toNat]) := rfl

lemma derContent_concat (content : Nat) (digits : Bytes) (b : UInt8) :
    CredStore.derContent content (digits ++ [b]) =
      (CredStore.derContent content digits * 256 + b.toNat) % 2 ^ 32 := by
  rw [CredStore.derContent, List.foldl_append]
  rfl

lemma getElem?_eq_getD {buf : Bytes} {i : Nat} (h : i < buf.length) :
    buf[i]? = some (buf.getD i 0) := by
  rw [List.getD_eq_getElem?_getD, List.getElem?_eq_getElem h]
  rfl

/-- The loop reads its bytes in order, and leaves in its word what they write. -/
lemma content_run {buf : Bytes} {n : Nat} (few : n ≤ 4) (inside : 2 + n ≤ buf.length)
    (log : List Nat) :
    ∃ content, ((List.range n).foldlM (shiftIn buf) 0).run log =
        (content, log ++ (List.range n).map (2 + ·)) ∧
      content.toNat = CredStore.derContent 0 ((buf.drop 2).take n) := by
  induction n with
  | zero => exact ⟨0, by rw [List.range_zero, List.map_nil, List.append_nil]; rfl, rfl⟩
  | succ n ih =>
    obtain ⟨content, hrun, hcontent⟩ := ih (by omega) (by omega)
    have hindex : (2 + UInt32.ofNat n).toNat = 2 + n := by
      rw [UInt32.toNat_add, UInt32.toNat_ofNat']
      have htwo : (2 : UInt32).toNat = 2 := rfl
      omega
    have hbyte : (buf.drop 2)[n]? = some (buf.getD (2 + n) 0) := by
      rw [List.getElem?_drop, getElem?_eq_getD (by omega)]
    refine ⟨content <<< 8 ||| (buf.getD (2 + n) 0).toUInt32, ?_, ?_⟩
    · rw [List.range_succ, List.foldlM_append, run_bind_of_run hrun, List.foldlM_cons,
        run_bind_of_run (shiftIn_run ..), hindex, List.map_append, ← List.append_assoc]
      rfl
    · rw [List.take_add_one, hbyte, Option.toList_some, derContent_concat, toNat_shift_or, hcontent]

lemma short_form_iff (lb : UInt8) (len : UInt32) :
    lb.toUInt32 + 2 = len ↔ lb.toNat + 2 = len.toNat := by
  have hlb := lb.toNat_lt
  have htwo : (2 : UInt32).toNat = 2 := rfl
  rw [← UInt32.toNat_inj, UInt32.toNat_add, UInt8.toNat_toUInt32]
  omega

lemma bad_form_iff (nbytes len : UInt32) (few : nbytes.toNat < 0x80) :
    (nbytes = 0 ∨ nbytes > 4 ∨ len < 2 + nbytes) ↔
      (nbytes.toNat = 0 ∨ nbytes.toNat > 4 ∨ len.toNat < 2 + nbytes.toNat) := by
  have hzero : (0 : UInt32).toNat = 0 := rfl
  have htwo : (2 : UInt32).toNat = 2 := rfl
  have hfour : (4 : UInt32).toNat = 4 := rfl
  rw [← UInt32.toNat_inj, gt_iff_lt, UInt32.lt_iff_toNat_lt, UInt32.lt_iff_toNat_lt,
    UInt32.toNat_add]
  omega

lemma long_form_iff (content nbytes len : UInt32) :
    content + 2 + nbytes = len ↔
      (content.toNat + 2 + nbytes.toNat) % 2 ^ 32 = len.toNat := by
  have htwo : (2 : UInt32).toNat = 2 := rfl
  rw [← UInt32.toNat_inj, UInt32.toNat_add, UInt32.toNat_add]
  omega

lemma long_form_run {buf : Bytes} {n : Nat} {nbytes len : UInt32} (hn : nbytes.toNat = n)
    (few : n ≤ 4) (inside : 2 + n ≤ buf.length) (log : List Nat) :
    (do
        let content ← (List.range nbytes.toNat).foldlM (shiftIn buf) 0
        return decide (content + 2 + nbytes = len) : Reading Bool).run log =
      (decide ((CredStore.derContent 0 ((buf.drop 2).take n) + 2 + n) % 2 ^ 32 = len.toNat),
        log ++ (List.range n).map (2 + ·)) := by
  obtain ⟨content, hrun, hcontent⟩ := content_run few inside log
  rw [hn, run_bind_of_run hrun, StateT.run_pure]
  simp only [long_form_iff, hn, hcontent]
  rfl

/-- The check on words is the check on numbers, and it reads what was said of it. -/
theorem check_eq (r : Region) :
    (derSequenceLenOk r.buf r.len).run [] =
      (CredStore.derSequenceLenOk r.buf r.len.toNat, CredBounds.derReads r.buf r.len.toNat) := by
  obtain ⟨buf, len, inside⟩ := r
  have hless : len < 4 ↔ len.toNat < 4 := UInt32.lt_iff_toNat_lt
  by_cases hlen : len < 4
  · rw [derSequenceLenOk, if_pos hlen, CredStore.derSequenceLenOk, if_pos (.inl (hless.mp hlen)),
      CredBounds.derReads, if_pos (hless.mp hlen)]
    rfl
  · have hfour : ¬ len.toNat < 4 := mt hless.mpr hlen
    have hfirst : buf[0]? = some (buf.getD 0 0) := getElem?_eq_getD (by omega)
    have hread : (byteAt buf 0).run [] = (buf.getD 0 0, [0]) := rfl
    rw [derSequenceLenOk, if_neg hlen, run_bind_of_run hread, CredStore.derSequenceLenOk,
      CredBounds.derReads, if_neg hfour, hfirst]
    by_cases htag : buf.getD 0 0 = 0x30
    · have hread' : (byteAt buf 1).run [0] = (buf.getD 1 0, [0, 1]) := rfl
      have hhead : ¬ (len.toNat < 4 ∨ some (0x30 : UInt8) ≠ some 0x30) := by simp [hfour]
      have hsame : ¬ some (0x30 : UInt8) ≠ some 0x30 := by simp
      rw [if_neg (not_not_intro htag), run_bind_of_run hread', htag, if_neg hhead, if_neg hsame]
      dsimp only
      have hshort := high_bit_clear_iff (buf.getD 1 0)
      have hbits := low_bits (buf.getD 1 0)
      have hbad := bad_form_iff (buf.getD 1 0 &&& 0x7f).toUInt32 len (by omega)
      rw [hbits] at hbad
      by_cases hform : buf.getD 1 0 &&& 0x80 = 0
      · have hsmall := hshort.mp hform
        rw [if_pos hform, if_pos hsmall, if_pos (.inl hsmall), StateT.run_pure]
        simp only [short_form_iff]
        rfl
      · have hlarge := mt hshort.mpr hform
        rw [if_neg hform, if_neg hlarge]
        by_cases hnbytes : (buf.getD 1 0 &&& 0x7f).toUInt32 = 0 ∨
            (buf.getD 1 0 &&& 0x7f).toUInt32 > 4 ∨
            len < 2 + (buf.getD 1 0 &&& 0x7f).toUInt32
        · rw [if_pos hnbytes, if_pos (hbad.mp hnbytes), if_pos (.inr (hbad.mp hnbytes))]
          rfl
        · have hgood := mt hbad.mpr hnbytes
          rw [if_neg hnbytes, if_neg hgood, if_neg (not_or.mpr ⟨hlarge, hgood⟩)]
          exact long_form_run hbits (by omega) (by omega) [0, 1]
    · rw [if_pos htag, if_pos (.inr (by simpa using htag)), if_pos (by simpa using htag)]
      rfl

/-- A definite length stands at the start of the bytes: in the short form one byte, in the long
form a byte that counts the length bytes, and one to four of these. With it, how many bytes it
takes and which number it encodes. -/
inductive DefiniteLength : Bytes → Nat → Nat → Prop where
  | short {lb : UInt8} {rest : Bytes} (low : lb.toNat < 0x80) :
      DefiniteLength (lb :: rest) 1 lb.toNat
  | long {lb : UInt8} {digits rest : Bytes} (counted : lb.toNat = 0x80 + digits.length)
      (some : 1 ≤ digits.length) (few : digits.length ≤ 4) :
      DefiniteLength (lb :: (digits ++ rest)) (1 + digits.length) (ofBe digits)

/-- The first `len` bytes are the tag of a sequence, a definite length, and as many bytes as it
encodes. -/
def Spans (buf : Bytes) (len : Nat) : Prop :=
  ∃ body header content, buf.take len = 0x30 :: body ∧ DefiniteLength body header content ∧
    1 + header + content = len

lemma ofBe_lt_word {digits : Bytes} (few : digits.length ≤ 4) : ofBe digits < 2 ^ 32 := by
  calc ofBe digits < 256 ^ digits.length := ofBe_lt digits
    _ ≤ 256 ^ 4 := Nat.pow_le_pow_right (by decide) few
    _ = 2 ^ 32 := by decide

/-- Four length bytes fill a word and do not wrap it. -/
lemma derContent_eq_ofBe {digits : Bytes} (few : digits.length ≤ 4) :
    CredStore.derContent 0 digits = ofBe digits := by
  induction digits using List.reverseRecOn with
  | nil => rfl
  | append_singleton digits b ih =>
    have hlt := ofBe_lt_word few
    rw [List.length_append, List.length_singleton] at few
    rw [derContent_concat, ih (by omega)]
    rw [ofBe_concat] at hlt ⊢
    omega

/-- A sum that has wrapped is less than the header. -/
lemma unwrapped {content n len : Nat} (small : content < 2 ^ 32) (inside : 2 + n ≤ len)
    (word : len < 2 ^ 32) : (content + 2 + n) % 2 ^ 32 = len ↔ content + 2 + n = len := by
  omega

lemma definiteLength_cons_iff {lb : UInt8} {rest : Bytes} {header content : Nat} :
    DefiniteLength (lb :: rest) header content ↔
      (lb.toNat < 0x80 ∧ header = 1 ∧ content = lb.toNat) ∨
      ∃ n, lb.toNat = 0x80 + n ∧ 1 ≤ n ∧ n ≤ 4 ∧ n ≤ rest.length ∧
        header = 1 + n ∧ content = ofBe (rest.take n) := by
  constructor
  · intro h
    cases h with
    | short low => exact .inl ⟨low, rfl, rfl⟩
    | @long _ digits tail counted some few =>
      refine .inr ⟨digits.length, counted, some, few, ?_, rfl, ?_⟩
      · rw [List.length_append]
        exact Nat.le_add_right _ _
      · rw [List.take_left]
  · rintro (⟨low, rfl, rfl⟩ | ⟨n, counted, some, few, inside, rfl, rfl⟩)
    · exact .short low
    · have hlength : (rest.take n).length = n := List.length_take_of_le inside
      have hlong : DefiniteLength (lb :: (rest.take n ++ rest.drop n))
          (1 + (rest.take n).length) (ofBe (rest.take n)) :=
        .long (by rw [hlength]; exact counted) (by rw [hlength]; exact some)
          (by rw [hlength]; exact few)
      rwa [List.take_append_drop, hlength] at hlong

/-- The check behind the tag. -/
lemma check_cons {lb : UInt8} {rest : Bytes} (long : 2 ≤ rest.length)
    (word : rest.length + 2 < 2 ^ 32) :
    CredStore.derSequenceLenOk (0x30 :: lb :: rest) (rest.length + 2) = true ↔
      ∃ header content, DefiniteLength (lb :: rest) header content ∧
        1 + header + content = rest.length + 2 := by
  have hhead : ¬ (rest.length + 2 < 4 ∨ (0x30 :: lb :: rest)[0]? ≠ some 0x30) := by
    simp only [List.getElem?_cons_zero, ne_eq, not_true_eq_false, or_false]
    omega
  have hlb : (0x30 :: lb :: rest).getD 1 0 = lb := rfl
  have hrest : (0x30 :: lb :: rest).drop 2 = rest := rfl
  rw [CredStore.derSequenceLenOk, if_neg hhead, hlb, hrest]
  dsimp only
  have hbyte := lb.toNat_lt
  by_cases hshort : lb.toNat < 0x80
  · rw [if_pos hshort, decide_eq_true_iff]
    constructor
    · intro hlen
      exact ⟨1, lb.toNat, .short hshort, by omega⟩
    · rintro ⟨header, content, hlength, hlen⟩
      obtain ⟨-, rfl, rfl⟩ | ⟨n, hn, -⟩ := definiteLength_cons_iff.mp hlength
      · omega
      · omega
  · rw [if_neg hshort]
    by_cases hbad : lb.toNat % 0x80 = 0 ∨ lb.toNat % 0x80 > 4 ∨
        rest.length + 2 < 2 + lb.toNat % 0x80
    · rw [if_pos hbad]
      constructor
      · intro hfalse
        cases hfalse
      · rintro ⟨header, content, hlength, -⟩
        obtain ⟨hlow, -⟩ | ⟨n, hn, hsome, hfew, hinside, -⟩ := definiteLength_cons_iff.mp hlength
        · exact absurd hlow hshort
        · omega
    · have hfew : (rest.take (lb.toNat % 0x80)).length ≤ 4 :=
        Nat.le_trans (List.length_take_le _ _) (by omega)
      rw [if_neg hbad, decide_eq_true_iff, derContent_eq_ofBe hfew,
        unwrapped (ofBe_lt_word hfew) (by omega) word]
      constructor
      · intro hlen
        refine ⟨1 + lb.toNat % 0x80, ofBe (rest.take (lb.toNat % 0x80)), ?_, by omega⟩
        exact definiteLength_cons_iff.mpr (.inr ⟨lb.toNat % 0x80, by omega, by omega, by omega,
          by omega, rfl, rfl⟩)
      · rintro ⟨header, content, hlength, hlen⟩
        obtain ⟨hlow, -⟩ | ⟨n, hn, -, -, -, rfl, rfl⟩ := definiteLength_cons_iff.mp hlength
        · exact absurd hlow hshort
        · obtain rfl : lb.toNat % 0x80 = n := by omega
          omega

theorem numbers_exact {buf : Bytes} {len : Nat} (inside : len ≤ buf.length)
    (word : len < 2 ^ 32) :
    CredStore.derSequenceLenOk buf len = true ↔ 4 ≤ len ∧ Spans buf len := by
  by_cases hlen : 4 ≤ len
  · have hlength : (buf.take len).length = len := List.length_take_of_le inside
    rw [← CredStore.derSequenceLenOk_take, Spans]
    cases htake : buf.take len with
    | nil =>
      rw [htake, List.length_nil] at hlength
      omega
    | cons tag body =>
      rw [htake, List.length_cons] at hlength
      cases body with
      | nil =>
        rw [List.length_nil] at hlength
        omega
      | cons lb rest =>
        rw [List.length_cons] at hlength
        by_cases htag : tag = 0x30
        · subst htag
          rw [← hlength, check_cons (by omega) (by omega)]
          constructor
          · rintro ⟨header, content, hdefinite, hsum⟩
            exact ⟨by omega, lb :: rest, header, content, rfl, hdefinite, hsum⟩
          · rintro ⟨-, body, header, content, hbody, hdefinite, hsum⟩
            cases hbody
            exact ⟨header, content, hdefinite, hsum⟩
        · have hrefused : len < 4 ∨ (tag :: lb :: rest)[0]? ≠ some 0x30 := by simp [htag]
          rw [CredStore.derSequenceLenOk, if_pos hrefused]
          constructor
          · intro hfalse
            cases hfalse
          · rintro ⟨-, body, header, content, hbody, -⟩
            cases hbody
            exact absurd rfl htag
  · have hshort : len < 4 ∨ buf[0]? ≠ some 0x30 := .inl (Nat.lt_of_not_le hlen)
    rw [CredStore.derSequenceLenOk, if_pos hshort]
    simp [hlen]

/-- On a 32-bit target the check accepts exactly what a sequence spans, and reads nothing behind
the length that it is given. -/
theorem der_length_exact (r : Region) :
    (((derSequenceLenOk r.buf r.len).run []).1 = true ↔
      4 ≤ r.len.toNat ∧ Spans r.buf r.len.toNat) ∧
    ∀ i ∈ ((derSequenceLenOk r.buf r.len).run []).2, i < r.len.toNat := by
  rw [check_eq]
  constructor
  · exact numbers_exact r.inside r.len.toNat_lt
  · intro i hi
    exact CredBounds.derReads_lt hi

/-- A content length that wraps the sum to 4, in a buffer that holds no more than the header. -/
example : (derSequenceLenOk [0x30, 0x84, 0xff, 0xff, 0xff, 0xfe] 6).run [] =
    (false, [0, 1, 2, 3, 4, 5]) := by
  rfl

end DerLength
