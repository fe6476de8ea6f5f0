import PouchProv.KotlinReader

/-!
# The Kotlin CBOR reader without positions

As long as no length is used that is not the one in the input, the reader of `Cbor.kt` is
the one of `ClientReader` (`read_follows`), with its rules for the Kotlin client and with
the numbers as they stand in the input.
-/

namespace KotlinReader

open Bytes Cbor Clients ClientReader

section Follows

variable {data : JvmBytes} {t : Texts} {ε : Type} {r : Rules ε} {good : Use → Prop}
  {α β γ δ : Type}

/-- The rules take the arguments as the Kotlin reader does, wherever its uses are good. Good uses
of lengths are exact. -/
structure Simulates (t : Texts) (r : Rules ε) (good : Use → Prop) : Prop where
  lengths : ∀ u, good u → u.IsLength → u.Exact
  uint : ∀ n : Nat, good (.number n (Int64.ofNat n)) → r.uint n = .ok (Int64.ofNat n)
  nint : ∀ n : Nat, good (.number (-1 - n) (-1 - Int64.ofNat n)) →
    r.nint n = .ok (-1 - Int64.ofNat n)
  size : ∀ n < 2 ^ 31, r.size n = .ok n
  truncated : ∀ (n : Nat) (b : Bytes), b.length < 2 ^ 31 →
    Int32.ofNat n < 0 ∨ b.length < (Int32.ofNat n).toNatClampNeg →
    (r.size n >>= fun k => ClientReader.bytes r k b) = .error (r.fail "truncated CBOR string")
  count : ∀ n < 2 ^ 31, r.count n = .ok n
  pairs : ∀ n < 2 ^ 30, r.pairs n = .ok n
  text : ∀ b, r.text b = .ok (t.kotlin b)
  entries : ∀ kvs, r.entries kvs = .ok (Kotlin.linked kvs)

/-- From every position in the data, unless a use is not good: both return related values and
leave the same bytes, or both fail with a message of the reader's own. -/
def Follows (data : JvmBytes) (r : Rules ε) (good : Use → Prop) (related : α → β → Prop)
    (x : Reading α) (y : Bytes → Except ε (β × Bytes)) : Prop :=
  ∀ i ≤ data.bytes.length, (∀ u ∈ (x (Int32.ofNat i)).2, good u) →
    (∃ a b j, related a b ∧ j ≤ data.bytes.length ∧
      (x (Int32.ofNat i)).1 = .ok (a, Int32.ofNat j) ∧
      y (data.bytes.drop i) = .ok (b, data.bytes.drop j)) ∨
    ∃ msg, (x (Int32.ofNat i)).1 = .error (.decode msg) ∧
      y (data.bytes.drop i) = .error (r.fail msg)

lemma follows_pure {related : α → β → Prop} {a : α} {b : β} (h : related a b) :
    Follows data r good related (pure a) fun s => .ok (b, s) :=
  fun i hi _ => Or.inl ⟨a, b, i, h, hi, rfl, rfl⟩

lemma follows_fail {related : α → β → Prop} (msg : String) :
    Follows data r good related (fail (.decode msg)) fun _ => .error (r.fail msg) :=
  fun _ _ _ => Or.inr ⟨msg, rfl, rfl⟩

lemma follows_bind {related : α → β → Prop} {related' : γ → δ → Prop} {x : Reading α}
    {y : Bytes → Except ε (β × Bytes)} {f : α → Reading γ}
    {g : β × Bytes → Except ε (δ × Bytes)} (h : Follows data r good related x y)
    (hbind : ∀ a b, related a b → Follows data r good related' (f a) fun s => g (b, s)) :
    Follows data r good related' (x >>= f) fun s => y s >>= g := by
  intro i hi hgood
  cases hres : (x (Int32.ofNat i)).1 with
  | error e =>
    rw [bind_error hres] at hgood ⊢
    obtain ⟨_, _, _, _, _, hok, _⟩ | ⟨msg, herror, hy⟩ := h i hi hgood
    · rw [hres] at hok
      cases hok
    · rw [hres] at herror
      cases herror
      exact Or.inr ⟨msg, rfl, by simp only [hy]; rfl⟩
  | ok p =>
    rw [bind_ok hres] at hgood ⊢
    obtain ⟨a, b, j, hrelated, hj, hok, hy⟩ | ⟨msg, herror, _⟩ :=
      h i hi fun u hu => hgood u (List.mem_append_left _ hu)
    · rw [hres] at hok
      cases hok
      have hnext := hbind a b hrelated j hj fun u hu => hgood u (List.mem_append_right _ hu)
      simp only [hy]
      exact hnext
    · rw [hres] at herror
      cases herror

lemma follows_use {related : α → β → Prop} {u : Use} {f : Unit → Reading α}
    {y : Bytes → Except ε (β × Bytes)} (h : good u → Follows data r good related (f ()) y) :
    Follows data r good related (use u >>= f) y := by
  intro i hi hgood
  have hrun : (use u >>= f) (Int32.ofNat i) = ((f () (Int32.ofNat i)).1,
    [u] ++ (f () (Int32.ofNat i)).2) := rfl
  rw [hrun] at hgood ⊢
  exact h (hgood u (List.mem_append_left _ (List.mem_singleton_self u))) i hi
    fun v hv => hgood v (List.mem_append_right _ hv)

lemma drop_cons {i : Nat} (h : i < data.bytes.length) :
    data.bytes.drop i = data.bytes.getD i 0 :: data.bytes.drop (i + 1) := by
  rw [List.drop_eq_getElem_cons h, List.getD_eq_getElem?_getD, List.getElem?_eq_getElem h]
  rfl

lemma readBE_inside (n : Nat) {i : Nat} (h : i + n ≤ data.bytes.length) {a : Argument}
    (wraps : a.Wraps) :
    ∃ a', a'.Wraps ∧
      a'.exact = ((data.bytes.drop i).take n).foldl (fun m x => 256 * m + x.toNat) a.exact ∧
      readBE data n a (Int32.ofNat i) = (.ok (a', Int32.ofNat (i + n)), []) := by
  induction n generalizing i a with
  | zero => exact ⟨a, wraps, rfl, rfl⟩
  | succ n ih =>
    have hlt : i < data.bytes.length := by omega
    have hwraps : Argument.Wraps ⟨256 * a.exact + (data.bytes.getD i 0).toNat,
        a.long <<< 8 ||| Int64.ofNat (data.bytes.getD i 0).toNat⟩ := by
      rw [Argument.Wraps, show a.long = Int64.ofNat a.exact from wraps]
      exact shift_in a.exact _
    obtain ⟨a', hwraps', hexact, hrun⟩ := ih (show i + 1 + n ≤ data.bytes.length by omega) hwraps
    refine ⟨a', hwraps', ?_, ?_⟩
    · rw [drop_cons hlt, List.take_succ_cons, List.foldl_cons, hexact]
    · have hbyte : (u8 data (Int32.ofNat i)).1 = _ := congrArg Prod.fst (u8_inside hlt)
      rw [readBE, bind_ok hbyte, hrun, u8_inside hlt, Nat.add_right_comm, Nat.add_assoc]
      rfl

lemma readBE_behind (n : Nat) {i : Nat} (hi : i ≤ data.bytes.length)
    (h : data.bytes.length < i + n) (a : Argument) :
    readBE data n a (Int32.ofNat i) = (.error (.decode "truncated CBOR"), []) := by
  induction n generalizing i a with
  | zero => exact absurd h (by omega)
  | succ n ih =>
    rw [readBE]
    rcases Nat.lt_or_eq_of_le hi with hlt | rfl
    · have hbyte : (u8 data (Int32.ofNat i)).1 = _ := congrArg Prod.fst (u8_inside hlt)
      rw [bind_ok hbyte, ih hlt (by omega), u8_inside hlt]
      rfl
    · have hend : (u8 data (Int32.ofNat data.bytes.length)).1 = _ := congrArg Prod.fst u8_end
      rw [bind_error hend, u8_end]

/-- The five ways to the argument are two. -/
lemma argument_eq (ai : Nat) : argument data ai =
    if ai < 24 then pure ⟨ai, Int64.ofNat ai⟩
    else if ai ≤ 27 then readBE data (width ai) ⟨0, 0⟩
    else fail (.decode ("bad additional info " ++ toString ai)) := by
  rw [argument]
  by_cases hsmall : ai < 24
  · rw [if_pos hsmall, if_pos hsmall]
  · rw [if_neg hsmall, if_neg hsmall]
    by_cases hinfo : ai ≤ 27
    · rw [if_pos hinfo]
      obtain rfl | rfl | rfl | rfl : ai = 24 ∨ ai = 25 ∨ ai = 26 ∨ ai = 27 := by omega
      · have hbyte : ∀ b : UInt8, (0 : Int64) <<< 8 ||| Int64.ofNat b.toNat = Int64.ofNat b.toNat :=
          fun b => (shift_in 0 b).trans (by rw [Nat.mul_zero, Nat.zero_add])
        rw [if_pos rfl, show width 24 = 1 from rfl, readBE]
        simp only [readBE, hbyte, Nat.mul_zero, Nat.zero_add]
      · rfl
      · rfl
      · rfl
    · rw [if_neg hinfo, if_neg (by omega), if_neg (by omega), if_neg (by omega), if_neg (by omega)]

lemma argument_follows (ai : Nat) :
    Follows data r good (fun a n => a.Wraps ∧ a.exact = n) (argument data ai)
      (ClientReader.argument r ai) := by
  rw [argument_eq]
  by_cases hsmall : ai < 24
  · intro i hi _
    refine Or.inl ⟨⟨ai, Int64.ofNat ai⟩, ai, i, ⟨rfl, rfl⟩, hi, ?_, ?_⟩
    · rw [if_pos hsmall]
      rfl
    · rw [ClientReader.argument, if_pos hsmall]
  · by_cases hinfo : ai ≤ 27
    · intro i hi _
      simp only [if_neg hsmall, if_pos hinfo, ClientReader.argument, List.length_drop]
      by_cases hfits : i + width ai ≤ data.bytes.length
      · obtain ⟨a, hwraps, hexact, hrun⟩ := readBE_inside (width ai) hfits (a := ⟨0, 0⟩) rfl
        refine Or.inl ⟨a, _, i + width ai, ⟨hwraps, hexact⟩, hfits, by rw [hrun], ?_⟩
        rw [if_pos (by omega), List.drop_drop]
        rfl
      · refine Or.inr ⟨_, by rw [readBE_behind (width ai) hi (by omega)], ?_⟩
        rw [if_neg (by omega)]
    · intro i hi _
      simp only [if_neg hsmall, if_neg hinfo, ClientReader.argument]
      exact Or.inr ⟨_, rfl, rfl⟩

lemma copyOfRange_inside {i n : Nat} (h : i + n ≤ data.bytes.length) :
    copyOfRange data (Int32.ofNat i) (Int32.ofNat (i + n)) = .ok ((data.bytes.drop i).take n) := by
  have hshort := data.short
  have hstart : (Int32.ofNat i).toInt = i := toInt_ofNat (by omega)
  have hstop : (Int32.ofNat (i + n)).toInt = (i + n : Nat) := toInt_ofNat (by omega)
  have hend : ¬ Int32.ofNat (i + n) > data.size := by
    rw [gt_iff_lt, Int32.lt_iff_toInt_lt, JvmBytes.size, toInt_ofNat hshort, hstop]
    omega
  have horder : ¬ Int32.ofNat i > Int32.ofNat (i + n) := by
    rw [gt_iff_lt, Int32.lt_iff_toInt_lt, hstart, hstop]
    omega
  have hcount : (Int32.ofNat (i + n) - Int32.ofNat i).toNatClampNeg = n := by
    rw [Nat.add_comm, Int32.ofNat_add, Int32.add_sub_cancel, toNatClampNeg_ofNat (by omega)]
  rw [copyOfRange, if_neg hend, if_neg horder, if_neg (not_neg (by omega)), hcount,
    toNatClampNeg_ofNat (by omega)]

/-- A slice whose end is exact is the one that the length in the input asks for. -/
lemma bytes_follows (sim : Simulates t r good) {a : Argument} (wraps : a.Wraps) :
    Follows data r good Eq (bytes data a) fun s =>
      r.size a.exact >>= fun k => ClientReader.bytes r k s := by
  intro i hi hgood
  have hshort := data.short
  have hword : a.long.toInt32 = Int32.ofNat a.exact := by
    rw [show a.long = Int64.ofNat a.exact from wraps, toInt32_ofNat]
  have hdrop : (data.bytes.drop i).length < 2 ^ 31 := by
    rw [List.length_drop]
    omega
  simp only [bytes, hword] at hgood ⊢
  by_cases hneg : Int32.ofNat a.exact < 0
  · rw [if_pos (Or.inl hneg)]
    exact Or.inr ⟨_, rfl, sim.truncated _ _ hdrop (Or.inl hneg)⟩
  · by_cases hlong : Int32.ofNat i + Int32.ofNat a.exact > data.size
    · rw [if_pos (Or.inr hlong)]
      refine Or.inr ⟨_, rfl, sim.truncated _ _ hdrop (Or.inr ?_)⟩
      -- A sum that wraps is negative, and not behind the data.
      rw [Int32.lt_iff_toInt_lt] at hneg
      rw [gt_iff_lt, Int32.lt_iff_toInt_lt, Int32.toInt_add, JvmBytes.size, toInt_ofNat hshort,
        toInt_ofNat (show i < 2 ^ 31 by omega), Int.bmod_def] at hlong
      have hhigh := (Int32.ofNat a.exact).toInt_lt
      have hzero : (0 : Int32).toInt = 0 := rfl
      rw [← Int32.toNat_toInt, List.length_drop]
      split at hlong <;> omega
    · have hused : ¬ (Int32.ofNat a.exact < 0 ∨
          Int32.ofNat i + Int32.ofNat a.exact > data.size) := not_or.mpr ⟨hneg, hlong⟩
      rw [if_neg hused] at hgood ⊢
      have hexact : (Int32.ofNat i + Int32.ofNat a.exact).toInt = (Int32.ofNat i).toInt + a.exact :=
        sim.lengths _ (hgood _ (List.mem_singleton_self _)) trivial
      have hhigh := (Int32.ofNat i + Int32.ofNat a.exact).toInt_lt
      rw [toInt_ofNat (show i < 2 ^ 31 by omega)] at hexact
      rw [gt_iff_lt, Int32.lt_iff_toInt_lt, JvmBytes.size, toInt_ofNat hshort, hexact] at hlong
      have hinside : i + a.exact ≤ data.bytes.length := by omega
      have hfits : a.exact ≤ (data.bytes.drop i).length := by
        rw [List.length_drop]
        omega
      rw [← Int32.ofNat_add, copyOfRange_inside hinside]
      refine Or.inl ⟨_, _, i + a.exact, rfl, hinside, rfl, ?_⟩
      rw [sim.size _ (by omega), ← List.drop_drop]
      exact if_pos hfits

lemma follows_bytes (sim : Simulates t r good) {a : Argument} (wraps : a.Wraps)
    {related : γ → δ → Prop} {f : Bytes → Reading γ} {g : Bytes × Bytes → Except ε (δ × Bytes)}
    (h : ∀ b, Follows data r good related (f b) fun s => g (b, s)) :
    Follows data r good related (bytes data a >>= f) fun s =>
      r.size a.exact >>= fun k => ClientReader.bytes r k s >>= g := by
  have hnext : ∀ b b', b = b' → Follows data r good related (f b) fun s => g (b', s) := by
    rintro b _ rfl
    exact h b
  simpa only [bind_assoc] using follows_bind (bytes_follows sim wraps) hnext

lemma follows_u8 {related : α → β → Prop} {f : UInt8 → Reading α}
    {y : Bytes → Except ε (β × Bytes)} (hnil : y [] = .error (r.fail "truncated CBOR"))
    (h : ∀ initial, Follows data r good related (f initial) fun b => y (initial :: b)) :
    Follows data r good related (u8 data >>= f) y := by
  intro i hi hgood
  rcases Nat.lt_or_eq_of_le hi with hlt | rfl
  · have hbyte : (u8 data (Int32.ofNat i)).1 = _ := congrArg Prod.fst (u8_inside hlt)
    rw [bind_ok hbyte, u8_inside hlt] at hgood ⊢
    rw [drop_cons hlt]
    exact h _ (i + 1) hlt hgood
  · have hend : (u8 data (Int32.ofNat data.bytes.length)).1 = _ := congrArg Prod.fst u8_end
    rw [bind_error hend, List.drop_length]
    exact Or.inr ⟨_, rfl, hnil⟩

/-- A rule that takes its argument. -/
lemma follows_rule {related : α → β → Prop} {x : Reading α} {rule : Except ε γ} {c : γ}
    {g : γ → Bytes → Except ε (β × Bytes)} (taken : rule = .ok c)
    (h : Follows data r good related x (g c)) :
    Follows data r good related x fun s => rule >>= fun c => g c s := by
  rw [taken]
  exact h

/-- An exact capacity is the count that the input asks for. -/
lemma capacity_exact {n : Nat} {w : Int32} (exact : (Use.capacity n w).Exact) :
    n < 2 ^ 31 ∧ w.toNatClampNeg = n ∧ ¬ w < 0 := by
  have heq : w.toInt = n := exact
  have hhigh := w.toInt_lt
  refine ⟨by omega, ?_, ?_⟩
  · rw [← Int32.toNat_toInt, heq, Int.toNat_natCast]
  · rw [Int32.lt_iff_toInt_lt, heq]
    exact Int.not_lt.mpr (Int.natCast_nonneg n)

lemma doubled_exact {a : Argument} (wraps : a.Wraps)
    (exact : (Use.capacity (2 * a.exact) (a.long.toInt32 * 2)).Exact) :
    a.exact < 2 ^ 30 ∧ a.long.toInt32.toNatClampNeg = a.exact ∧ ¬ a.long.toInt32 * 2 < 0 := by
  obtain ⟨hsmall, -, hneg⟩ :=
    capacity_exact (n := 2 * a.exact) (w := a.long.toInt32 * 2) (by push_cast; exact exact)
  refine ⟨by omega, ?_, hneg⟩
  rw [show a.long = Int64.ofNat a.exact from wraps, toInt32_ofNat, toNatClampNeg_ofNat (by omega)]

/-- Up to the first use that is not good, the reader is that of `ClientReader`. -/
theorem read_follows (sim : Simulates t r good) (fuel : Nat) :
    Follows data r good Eq (read data t fuel) (ClientReader.read r fuel) ∧
      ∀ n, Follows data r good Eq (readAll data t fuel n) (ClientReader.readAll r fuel n) := by
  induction fuel with
  | zero =>
    refine ⟨fun i hi _ => Or.inr ⟨_, rfl, by rw [ClientReader.read]⟩, fun n i hi _ => ?_⟩
    cases n with
    | zero => exact Or.inl ⟨[], [], i, rfl, hi, rfl, by rw [ClientReader.readAll]⟩
    | succ n => exact Or.inr ⟨_, rfl, by rw [ClientReader.readAll]⟩
  | succ fuel ih =>
    obtain ⟨ihItem, ihAll⟩ := ih
    constructor
    · rw [read]
      refine follows_u8 (by rw [ClientReader.read]) fun initial => ?_
      simp only [ClientReader.read]
      generalize initial.toNat / 32 = major
      split
      case h_1 =>
        refine follows_bind (argument_follows _) ?_
        rintro a _ ⟨hwraps, rfl⟩
        rw [show a.long = Int64.ofNat a.exact from hwraps]
        refine follows_use fun hgood => follows_rule (sim.uint _ hgood) ?_
        exact follows_pure rfl
      case h_2 =>
        refine follows_bind (argument_follows _) ?_
        rintro a _ ⟨hwraps, rfl⟩
        rw [show a.long = Int64.ofNat a.exact from hwraps]
        refine follows_use fun hgood => follows_rule (sim.nint _ hgood) ?_
        exact follows_pure rfl
      case h_3 =>
        refine follows_bind (argument_follows _) ?_
        rintro a _ ⟨hwraps, rfl⟩
        exact follows_bytes sim hwraps fun b => follows_pure rfl
      case h_4 =>
        refine follows_bind (argument_follows _) ?_
        rintro a _ ⟨hwraps, rfl⟩
        refine follows_bytes sim hwraps fun b => follows_rule (sim.text b) ?_
        exact follows_pure rfl
      case h_5 =>
        refine follows_bind (argument_follows _) ?_
        rintro a _ ⟨hwraps, rfl⟩
        refine follows_use fun hgood => ?_
        obtain ⟨hsmall, hcount, hneg⟩ := capacity_exact (sim.lengths _ hgood trivial)
        rw [if_neg hneg, hcount]
        refine follows_use fun _ => follows_rule (sim.count _ hsmall) ?_
        refine follows_bind (ihAll _) ?_
        rintro xs _ rfl
        exact follows_pure rfl
      case h_6 =>
        refine follows_bind (argument_follows _) ?_
        rintro a _ ⟨hwraps, rfl⟩
        refine follows_use fun hgood => ?_
        obtain ⟨hsmall, hcount, hneg⟩ := doubled_exact hwraps (sim.lengths _ hgood trivial)
        rw [if_neg hneg, hcount]
        refine follows_use fun _ => follows_rule (sim.pairs _ hsmall) ?_
        refine follows_bind (ihAll _) ?_
        rintro xs _ rfl
        refine follows_rule (sim.entries (pairUp xs)) ?_
        exact follows_pure rfl
      case h_7 =>
        cases simpleValue (initial.toNat % 32) with
        | some v => exact follows_pure rfl
        | none => exact follows_fail _
      case h_8 =>
        intro i hi _
        refine Or.inr ⟨_, rfl, ?_⟩
        simp_all
    · intro n
      cases n with
      | zero =>
        intro i hi _
        exact Or.inl ⟨[], [], i, rfl, hi, rfl, by rw [ClientReader.readAll]⟩
      | succ n =>
        rw [readAll]
        have hstep : ClientReader.readAll r (fuel + 1) (n + 1) = fun b =>
            ClientReader.read r fuel b >>= fun x =>
              ClientReader.readAll r fuel n x.2 >>= fun xs => .ok (x.1 :: xs.1, xs.2) := by
          funext b
          rw [ClientReader.readAll]
          rfl
        rw [hstep]
        refine follows_bind ihItem ?_
        rintro x _ rfl
        dsimp only
        refine follows_bind (ihAll n) ?_
        rintro xs _ rfl
        exact follows_pure rfl

/-- As far as `decode` is concerned. -/
theorem decode_follows (sim : Simulates t r good) (hgood : ∀ u ∈ (decode data t).2, good u) :
    (∃ v, (decode data t).1 = .ok v ∧ ClientReader.decode r data.bytes = .ok v) ∨
      ∃ msg, (decode data t).1 = .error (.decode msg) ∧
        ClientReader.decode r data.bytes = .error (r.fail msg) := by
  have hfollows : Follows data r good Eq (read data t (2 * data.bytes.length + 1)) _ :=
    (read_follows sim _).1
  have hread := hfollows 0 (Nat.zero_le _) hgood
  rw [List.drop_zero] at hread
  rw [decode, decodeWithLength, ClientReader.decode]
  obtain ⟨v, _, j, rfl, -, hrun, hspec⟩ | ⟨msg, hrun, hspec⟩ := hread
  · refine Or.inl ⟨v, ?_, ?_⟩
    · rw [show (0 : Int32) = Int32.ofNat 0 from rfl, hrun]
      rfl
    · rw [hspec]
      rfl
  · refine Or.inr ⟨msg, ?_, ?_⟩
    · rw [show (0 : Int32) = Int32.ofNat 0 from rfl, hrun]
      rfl
    · rw [hspec]
      rfl

end Follows

/-- What the rules of the Kotlin client make of an argument is what the reader does, as long as
lengths are exact. -/
theorem rules_simulate (t : Texts) :
    Simulates t (Kotlin.rules t) fun u => u.IsLength → u.Exact where
  lengths _ h := h
  uint _ _ := rfl
  nint _ _ := rfl
  size n h := by simp only [Kotlin.rules, if_neg (Kotlin.toInt_not_neg h),
    Kotlin.toNatClampNeg_toInt h]
  truncated n b _ h := by
    have hword : Kotlin.toInt n = Int32.ofNat n := toInt32_ofNat n
    simp only [Kotlin.rules, hword]
    by_cases hneg : Int32.ofNat n < 0
    · rw [if_pos hneg]
      rfl
    · rw [if_neg hneg]
      exact if_neg (Nat.not_le.mpr (h.resolve_left hneg))
  count n h := by simp only [Kotlin.rules, if_neg (Kotlin.toInt_not_neg h),
    Kotlin.toNatClampNeg_toInt h]
  pairs n h := by
    have hsmall : n < 2 ^ 31 := by omega
    simp only [Kotlin.rules, if_neg (Kotlin.doubled_not_neg h), Kotlin.toNatClampNeg_toInt hsmall]
  text _ := rfl
  entries _ := rfl

/-- The numbers and lengths as they stand in the input. -/
def exact (t : Texts) : Rules String where
  fail := id
  uint := Swift.int64
  nint n := (Swift.int64 n).map (-1 - ·)
  size := .ok
  count := .ok
  pairs := .ok
  text b := .ok (t.kotlin b)
  entries kvs := .ok (Kotlin.linked kvs)

theorem exact_simulates (t : Texts) : Simulates t (exact t) Use.Exact where
  lengths _ h _ := h
  uint n h := by
    have hhigh := (Int64.ofNat n).toInt_lt
    have heq : (Int64.ofNat n).toInt = n := h
    exact if_pos (by omega)
  nint n h := by
    have hlow := (-1 - Int64.ofNat n).le_toInt
    have heq : (-1 - Int64.ofNat n).toInt = -1 - n := h
    have hsmall : n < 2 ^ 63 := by omega
    simp only [exact, Swift.int64, if_pos hsmall]
    rfl
  size _ _ := rfl
  truncated n b short h := by
    refine if_neg (Nat.not_le.mpr ?_)
    rcases h with hneg | hlong
    · by_contra hle
      exact not_neg (show n < 2 ^ 31 by omega) hneg
    · by_contra hle
      rw [toNatClampNeg_ofNat (by omega)] at hlong
      omega
  count _ _ := rfl
  pairs _ _ := rfl
  text _ := rfl
  entries _ := rfl

end KotlinReader
