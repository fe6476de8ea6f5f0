import PouchProv.Bytes

/-!
# Base64

The encoding of byte strings in 64 characters, three bytes in four characters, the
last group padded. `decode` takes exactly the padded form back (`decode_encode`).
-/

namespace Base64

/-- The character of a value below 64. -/
def digit (n : Nat) : Char :=
  if n < 26 then Char.ofNat (65 + n)
  else if n < 52 then Char.ofNat (71 + n)
  else if n < 62 then Char.ofNat (n - 4)
  else if n = 62 then '+'
  else '/'

def value (c : Char) : Option Nat :=
  if 'A' ≤ c ∧ c ≤ 'Z' then some (c.toNat - 65)
  else if 'a' ≤ c ∧ c ≤ 'z' then some (c.toNat - 71)
  else if '0' ≤ c ∧ c ≤ '9' then some (c.toNat + 4)
  else if c = '+' then some 62
  else if c = '/' then some 63
  else none

def encode : Bytes → List Char
  | [] => []
  | [a] => [digit (a.toNat / 4), digit (a.toNat % 4 * 16), '=', '=']
  | [a, b] =>
    [digit (a.toNat / 4), digit (a.toNat % 4 * 16 + b.toNat / 16), digit (b.toNat % 16 * 4), '=']
  | a :: b :: c :: rest =>
    digit (a.toNat / 4) :: digit (a.toNat % 4 * 16 + b.toNat / 16) ::
      digit (b.toNat % 16 * 4 + c.toNat / 64) :: digit (c.toNat % 64) :: encode rest

/-- The three bytes of four values. -/
def join (x y z w : Nat) : Bytes :=
  [UInt8.ofNat (x * 4 + y / 16), UInt8.ofNat (y % 16 * 16 + z / 4), UInt8.ofNat (z % 4 * 64 + w)]

/-- A group of four characters without padding. -/
def group (a b c d : Char) : Option Bytes := do
  return join (← value a) (← value b) (← value c) (← value d)

/-- The last group. -/
def lastGroup (a b c d : Char) : Option Bytes :=
  if d = '=' then
    if c = '=' then do return (join (← value a) (← value b) 0 0).take 1
    else do return (join (← value a) (← value b) (← value c) 0).take 2
  else group a b c d

def decode : List Char → Option Bytes
  | [] => some []
  | a :: b :: c :: d :: rest =>
    if rest.isEmpty then lastGroup a b c d
    else do return (← group a b c d) ++ (← decode rest)
  | _ => none

lemma value_digit {n : Nat} (h : n < 64) : value (digit n) = some n := by
  have hall : ∀ n : Fin 64, value (digit n) = some n.val := by decide
  exact hall ⟨n, h⟩

lemma digit_ne_pad {n : Nat} (h : n < 64) : digit n ≠ '=' := by
  have hall : ∀ n : Fin 64, digit n ≠ '=' := by decide
  exact hall ⟨n, h⟩

lemma join_bytes (a b c : UInt8) :
    join (a.toNat / 4) (a.toNat % 4 * 16 + b.toNat / 16) (b.toNat % 16 * 4 + c.toNat / 64)
      (c.toNat % 64) = [a, b, c] := by
  have ha := a.toNat_lt
  have hb := b.toNat_lt
  have hc := c.toNat_lt
  have hfirst : a.toNat / 4 * 4 + (a.toNat % 4 * 16 + b.toNat / 16) / 16 = a.toNat := by omega
  have hsecond : (a.toNat % 4 * 16 + b.toNat / 16) % 16 * 16 +
      (b.toNat % 16 * 4 + c.toNat / 64) / 4 = b.toNat := by omega
  have hthird : (b.toNat % 16 * 4 + c.toNat / 64) % 4 * 64 + c.toNat % 64 = c.toNat := by omega
  rw [join, hfirst, hsecond, hthird]
  simp only [UInt8.ofNat_toNat]

section Groups

variable (a b c : UInt8)

lemma first_lt : a.toNat / 4 < 64 := by
  have := a.toNat_lt
  omega

lemma second_lt : a.toNat % 4 * 16 + b.toNat / 16 < 64 := by
  have := b.toNat_lt
  omega

lemma third_lt : b.toNat % 16 * 4 + c.toNat / 64 < 64 := by
  have := c.toNat_lt
  omega

lemma group_digits :
    group (digit (a.toNat / 4)) (digit (a.toNat % 4 * 16 + b.toNat / 16))
      (digit (b.toNat % 16 * 4 + c.toNat / 64)) (digit (c.toNat % 64)) = some [a, b, c] := by
  rw [group, value_digit (first_lt a), value_digit (second_lt a b), value_digit (third_lt b c),
    value_digit (Nat.mod_lt _ (by decide)), ← join_bytes a b c]
  rfl

end Groups

/-- What holds of the digits and the padding holds of everything that is written. -/
lemma forall_mem_encode {p : Char → Prop} (digits : ∀ n < 64, p (digit n)) (pad : p '=')
    (b : Bytes) : ∀ x ∈ encode b, p x := by
  fun_induction encode b with
  | case1 =>
    rintro x ⟨⟩
  | case2 a =>
    have hsecond : a.toNat % 4 * 16 < 64 := by omega
    simp [digits _ (first_lt a), digits _ hsecond, pad]
  | case3 a b =>
    have hthird : b.toNat % 16 * 4 < 64 := by omega
    simp [digits _ (first_lt a), digits _ (second_lt a b), digits _ hthird, pad]
  | case4 a b c rest ih =>
    have hlast : c.toNat % 64 < 64 := Nat.mod_lt _ (by decide)
    simpa [digits _ (first_lt a), digits _ (second_lt a b), digits _ (third_lt b c),
      digits _ hlast] using ih

/-- No group is lost. -/
lemma encode_isEmpty (b : Bytes) : (encode b).isEmpty = b.isEmpty := by
  fun_cases encode b <;> rfl

theorem decode_encode (b : Bytes) : decode (encode b) = some b := by
  fun_induction encode b with
  | case1 => rfl
  | case2 a =>
    have hjoin := join_bytes a 0 0
    simp only [UInt8.toNat_zero, Nat.zero_div, Nat.add_zero, Nat.zero_mod, Nat.zero_mul] at hjoin
    have hsecond := second_lt a 0
    simp only [UInt8.toNat_zero, Nat.zero_div, Nat.add_zero] at hsecond
    simp [decode, lastGroup, value_digit (first_lt a), value_digit hsecond, hjoin]
  | case3 a b =>
    have hjoin := join_bytes a b 0
    simp only [UInt8.toNat_zero, Nat.zero_div, Nat.add_zero, Nat.zero_mod] at hjoin
    have hthird := third_lt b 0
    simp only [UInt8.toNat_zero, Nat.zero_div, Nat.add_zero] at hthird
    simp [decode, lastGroup, value_digit (first_lt a), value_digit (second_lt a b),
      value_digit hthird, digit_ne_pad hthird, hjoin]
  | case4 a b c rest ih =>
    rw [decode, encode_isEmpty, lastGroup, if_neg (digit_ne_pad (Nat.mod_lt _ (by decide))),
      group_digits, ih]
    split
    · rename_i hempty
      rw [List.isEmpty_iff.mp hempty]
    · rfl

theorem encode_injective : Function.Injective encode := by
  intro b c h
  have hdecoded : some b = some c := by rw [← decode_encode b, h, decode_encode c]
  exact Option.some.inj hdecoded

end Base64
