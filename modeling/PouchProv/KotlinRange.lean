import PouchProv.KotlinExact

/-!
# Which inputs the Kotlin CBOR reader takes as it should

A walk over the bytes with numbers of any size lists the arguments that stand in the input,
up to where the item ends or is not complete. The reader of `Cbor.kt` keeps to its own error
and to the numbers of the input exactly when these arguments fit its words, which they do
wherever an item can be read with the numbers as they stand in the input.
-/

namespace KotlinReader

open Bytes Cbor Clients ClientReader

/-- What the input writes: a number, the length of a string in front of so many bytes, or the
count of an array or a map. -/
inductive Written where
  | number (n : Nat)
  | string (left n : Nat)
  | array (n : Nat)
  | map (n : Nat)
  deriving DecidableEq, Repr

/-- A walk over bytes: what is written in them, and the bytes behind, if the item is complete. -/
def Walk (α : Type) : Type := Bytes → List Written × Option (α × Bytes)

instance : Monad Walk where
  pure a := fun b => ([], some (a, b))
  bind x f := fun b =>
    match x b with
    | (ws, none) => (ws, none)
    | (ws, some (a, b)) => (ws ++ (f a b).1, (f a b).2)

def stop {α : Type} : Walk α := fun _ => ([], none)

def written (w : Written) : Walk Unit := fun b => ([w], some ((), b))

def byte : Walk UInt8
  | [] => ([], none)
  | x :: b => ([], some (x, b))

def argumentAt (ai : Nat) : Walk Nat := fun b =>
  if ai < 24 then ([], some (ai, b))
  else if ai ≤ 27 ∧ width ai ≤ b.length then
    ([], some (ofBe (b.take (width ai)), b.drop (width ai)))
  else ([], none)

def string (n : Nat) : Walk Unit := fun b =>
  ([.string b.length n], if n ≤ b.length then some ((), b.drop n) else none)

mutual

def walk : Nat → Walk Unit
  | 0 => stop
  | fuel + 1 => do
    let initial ← byte
    let ai := initial.toNat % 32
    match initial.toNat / 32 with
    | 0 => do
      let n ← argumentAt ai
      written (.number n)
    | 1 => do
      let n ← argumentAt ai
      written (.number n)
    | 2 => do
      let n ← argumentAt ai
      string n
    | 3 => do
      let n ← argumentAt ai
      string n
    | 4 => do
      let n ← argumentAt ai
      written (.array n)
      walkAll fuel n
    | 5 => do
      let n ← argumentAt ai
      written (.map n)
      walkAll fuel (2 * n)
    | 7 => if ai = 20 ∨ ai = 21 ∨ ai = 22 then pure () else stop
    | _ => stop

def walkAll : Nat → Nat → Walk Unit
  | _, 0 => pure ()
  | 0, _ + 1 => stop
  | fuel + 1, n + 1 => do
    walk fuel
    walkAll fuel n

end

namespace Written

/-- A length that the reader has room for in an input of so many bytes: a string is inside the
input, or the low 32 bits of its length are negative or lie behind the input without wrapping, so
that it is reported as truncated; a count is below `2 ^ 31` when it is the capacity. -/
def Fits (size : Nat) : Written → Prop
  | number _ => True
  | string left n =>
    n ≤ left ∨ 2 ^ 31 ≤ n % 2 ^ 32 ∨ left < n % 2 ^ 32 ∧ size - left + n % 2 ^ 32 < 2 ^ 31
  | array n => n < 2 ^ 31
  | map n => n < 2 ^ 30

/-- A number that fits a `Long`. -/
def Narrow : Written → Prop
  | number n => n < 2 ^ 63
  | _ => True

instance (size : Nat) : (w : Written) → Decidable (w.Fits size)
  | number _ => .isTrue trivial
  | string left n => inferInstanceAs (Decidable (n ≤ left ∨ 2 ^ 31 ≤ n % 2 ^ 32 ∨
      left < n % 2 ^ 32 ∧ size - left + n % 2 ^ 32 < 2 ^ 31))
  | array n => inferInstanceAs (Decidable (n < 2 ^ 31))
  | map n => inferInstanceAs (Decidable (n < 2 ^ 30))

end Written

section Walks

variable {data : JvmBytes} {t : Texts} {α β γ δ : Type}

/-- Both come to the same end, the reader with its own error. -/
def Ends (data : JvmBytes) (related : α → β → Prop) (run : Except Failure (α × Int32))
    (rest : Option (β × Bytes)) : Prop :=
  (∃ a b j, related a b ∧ j ≤ data.bytes.length ∧ run = .ok (a, Int32.ofNat j) ∧
    rest = some (b, data.bytes.drop j)) ∨ (∃ msg, run = .error (.decode msg)) ∧ rest = none

/-- The reader uses exact lengths where the lengths in the input fit, and then it comes to the same
end and its numbers are exact where those in the input are narrow. -/
structure Meets (data : JvmBytes) (related : α → β → Prop)
    (run : Except Failure (α × Int32) × List Use) (walked : List Written × Option (β × Bytes)) :
    Prop where
  lengths : (∀ u ∈ run.2, u.IsLength → u.Exact) ↔ ∀ w ∈ walked.1, w.Fits data.bytes.length
  ends : (∀ w ∈ walked.1, w.Fits data.bytes.length) → Ends data related run.1 walked.2
  numbers : (∀ w ∈ walked.1, w.Fits data.bytes.length) →
    ((∀ u ∈ run.2, u.Exact) ↔ ∀ w ∈ walked.1, w.Narrow)

def Walks (data : JvmBytes) (related : α → β → Prop) (x : Reading α) (y : Walk β) : Prop :=
  ∀ i ≤ data.bytes.length, Meets data related (x (Int32.ofNat i)) (y (data.bytes.drop i))

lemma meets_silent {related : α → β → Prop} {run : Except Failure (α × Int32)}
    {rest : Option (β × Bytes)} (h : Ends data related run rest) :
    Meets data related (run, []) ([], rest) :=
  ⟨by simp, fun _ => h, fun _ => by simp⟩

lemma meets_exact {related : α → β → Prop} {run : Except Failure (α × Int32)}
    {rest : Option (β × Bytes)} {u : Use} {w : Written} (exact : u.Exact)
    (fits : w.Fits data.bytes.length) (narrow : w.Narrow) (h : Ends data related run rest) :
    Meets data related (run, [u]) ([w], rest) where
  lengths := by simp only [List.forall_mem_singleton, exact, fits, implies_true]
  ends _ := h
  numbers _ := by simp only [List.forall_mem_singleton, exact, narrow]

lemma walks_pure {related : α → β → Prop} {a : α} {b : β} (h : related a b) :
    Walks data related (pure a) (pure b) :=
  fun i hi => meets_silent (.inl ⟨a, b, i, h, hi, rfl, rfl⟩)

lemma walks_fail {related : α → β → Prop} (msg : String) :
    Walks data related (fail (.decode msg)) stop :=
  fun _ _ => meets_silent (.inr ⟨⟨msg, rfl⟩, rfl⟩)

lemma walk_bind (y : Walk β) (g : β → Walk δ) (b : Bytes) :
    (y >>= g) b =
      match y b with
      | (ws, none) => (ws, none)
      | (ws, some (a, b)) => (ws ++ (g a b).1, (g a b).2) := rfl

lemma uses_subset_bind (x : Reading α) (f : α → Reading γ) (pos : Int32) :
    (x pos).2 ⊆ ((x >>= f) pos).2 := by
  cases hres : (x pos).1 with
  | error e => rw [bind_error hres]; exact List.Subset.refl _
  | ok p => rw [bind_ok hres]; exact List.subset_append_left _ _

lemma written_subset_bind (y : Walk β) (g : β → Walk δ) (b : Bytes) :
    (y b).1 ⊆ ((y >>= g) b).1 := by
  rw [walk_bind]
  rcases y b with ⟨ws, _ | ⟨a, b⟩⟩
  · exact List.Subset.refl _
  · exact List.subset_append_left _ _

/-- Behind a length that does not fit nothing has to be looked at. -/
lemma meets_unfit {related : α → β → Prop} {run : Except Failure (α × Int32) × List Use}
    {walked : List Written × Option (β × Bytes)} {u : Use} (hu : u ∈ run.2) (length : u.IsLength)
    (inexact : ¬ u.Exact) {w : Written} (hw : w ∈ walked.1) (unfit : ¬ w.Fits data.bytes.length) :
    Meets data related run walked where
  lengths := ⟨fun h => absurd (h u hu length) inexact, fun h => absurd (h w hw) unfit⟩
  ends h := absurd (h w hw) unfit
  numbers h := absurd (h w hw) unfit

lemma walks_bind {related : α → β → Prop} {related' : γ → δ → Prop} {x : Reading α} {y : Walk β}
    {f : α → Reading γ} {g : β → Walk δ} (h : Walks data related x y)
    (hbind : ∀ a b, related a b → Walks data related' (f a) (g b)) :
    Walks data related' (x >>= f) (y >>= g) := by
  intro i hi
  obtain ⟨hlengths, hends, hnumbers⟩ := h i hi
  by_cases hfits : ∀ w ∈ (y (data.bytes.drop i)).1, w.Fits data.bytes.length
  · obtain ⟨a, b, j, hrelated, hj, hrun, hwalk⟩ | ⟨⟨msg, hrun⟩, hwalk⟩ := hends hfits
    · obtain ⟨hlengths', hends', hnumbers'⟩ := hbind a b hrelated j hj
      rw [bind_ok hrun, walk_bind, show y (data.bytes.drop i) =
        ((y (data.bytes.drop i)).1, some (b, data.bytes.drop j)) from Prod.ext rfl hwalk]
      refine ⟨?_, fun hall => ?_, fun hall => ?_⟩
      · simp only [List.forall_mem_append, hlengths, hlengths']
      · exact hends' (List.forall_mem_append.mp hall).2
      · simp only [List.forall_mem_append, hnumbers hfits,
          hnumbers' (List.forall_mem_append.mp hall).2]
    · rw [bind_error hrun, walk_bind, show y (data.bytes.drop i) =
        ((y (data.bytes.drop i)).1, none) from Prod.ext rfl hwalk]
      exact ⟨hlengths, fun _ => .inr ⟨⟨msg, rfl⟩, rfl⟩, hnumbers⟩
  · have hinexact : ¬ ∀ u ∈ (x (Int32.ofNat i)).2, u.IsLength → u.Exact :=
      fun hexact => hfits (hlengths.mp hexact)
    simp only [not_forall] at hfits hinexact
    obtain ⟨w, hw, hunfit⟩ := hfits
    obtain ⟨u, hu, hlength, hbad⟩ := hinexact
    exact meets_unfit (uses_subset_bind x f _ hu) hlength hbad (written_subset_bind y g _ hw) hunfit

/-- A count, as the capacity that it is first used for. -/
lemma walks_count {related : α → β → Prop} {u : Use} {w : Written} {f : Unit → Reading α}
    {g : Unit → Walk β} (length : u.IsLength)
    (fits : u.Exact ↔ w.Fits data.bytes.length) (narrow : w.Narrow)
    (h : u.Exact → Walks data related (f ()) (g ())) :
    Walks data related (use u >>= f) (written w >>= g) := by
  intro i hi
  have hrun : (use u >>= f) (Int32.ofNat i) =
    ((f () (Int32.ofNat i)).1, [u] ++ (f () (Int32.ofNat i)).2) := rfl
  have hwalk : (written w >>= g) (data.bytes.drop i) =
    ([w] ++ (g () (data.bytes.drop i)).1, (g () (data.bytes.drop i)).2) := rfl
  rw [hrun, hwalk]
  by_cases hexact : u.Exact
  · obtain ⟨hlengths, hends, hnumbers⟩ := h hexact i hi
    refine ⟨?_, fun hall => ?_, fun hall => ?_⟩
    · simp only [List.forall_mem_append, hlengths, List.forall_mem_singleton, fits.mp hexact,
        hexact, implies_true, true_and]
    · exact hends (List.forall_mem_append.mp hall).2
    · simp only [List.forall_mem_append, hnumbers (List.forall_mem_append.mp hall).2,
        List.forall_mem_singleton, hexact, narrow, true_and]
  · exact meets_unfit (List.mem_append_left _ (List.mem_singleton_self u)) length hexact
      (List.mem_append_left _ (List.mem_singleton_self w)) fun hw => hexact (fits.mpr hw)

lemma walks_exact {related : α → β → Prop} {u : Use} {f : Unit → Reading α} {y : Walk β}
    (exact : u.Exact) (h : Walks data related (f ()) y) :
    Walks data related (use u >>= f) y := by
  intro i hi
  obtain ⟨hlengths, hends, hnumbers⟩ := h i hi
  have hrun : (use u >>= f) (Int32.ofNat i) =
    ((f () (Int32.ofNat i)).1, [u] ++ (f () (Int32.ofNat i)).2) := rfl
  rw [hrun]
  refine ⟨?_, hends, fun hall => ?_⟩
  · simp only [List.forall_mem_append, hlengths, List.forall_mem_singleton, exact, implies_true,
      true_and]
  · simp only [List.forall_mem_append, hnumbers hall, List.forall_mem_singleton, exact, true_and]

lemma walks_number {n : Nat} {u : Use} {v : CborValue} (number : ¬ u.IsLength)
    (narrow : u.Exact ↔ n < 2 ^ 63) :
    Walks data (fun _ _ => True) (use u >>= fun _ => pure v) (written (.number n)) := by
  intro i hi
  refine ⟨?_, fun _ => .inl ⟨v, (), i, trivial, hi, rfl, rfl⟩, fun _ => ?_⟩
  · have huses : ((use u >>= fun _ => (pure v : Reading CborValue)) (Int32.ofNat i)).2 = [u] := rfl
    have hwritten : (written (.number n) (data.bytes.drop i)).1 = [.number n] := rfl
    rw [huses, hwritten, List.forall_mem_singleton, List.forall_mem_singleton]
    exact ⟨fun _ => trivial, fun _ hlength => absurd hlength number⟩
  · have huses : ((use u >>= fun _ => (pure v : Reading CborValue)) (Int32.ofNat i)).2 = [u] := rfl
    have hwritten : (written (.number n) (data.bytes.drop i)).1 = [.number n] := rfl
    rw [huses, hwritten, List.forall_mem_singleton, List.forall_mem_singleton]
    exact narrow

lemma u8_walks : Walks data Eq (u8 data) byte := by
  intro i hi
  rcases Nat.lt_or_eq_of_le hi with hlt | rfl
  · rw [u8_inside hlt, drop_cons hlt]
    exact meets_silent (.inl ⟨_, _, i + 1, rfl, hlt, rfl, rfl⟩)
  · rw [u8_end, List.drop_length]
    exact meets_silent (.inr ⟨⟨_, rfl⟩, rfl⟩)

lemma argument_walks (ai : Nat) :
    Walks data (fun a n => a.Wraps ∧ a.exact = n) (argument data ai) (argumentAt ai) := by
  intro i hi
  rw [argument_eq]
  by_cases hsmall : ai < 24
  · simp only [argumentAt, if_pos hsmall]
    exact meets_silent (.inl ⟨⟨ai, Int64.ofNat ai⟩, ai, i, ⟨rfl, rfl⟩, hi, rfl, rfl⟩)
  · by_cases hinfo : ai ≤ 27
    · simp only [argumentAt, if_neg hsmall, if_pos hinfo, List.length_drop]
      by_cases hfits : i + width ai ≤ data.bytes.length
      · obtain ⟨a, hwraps, hexact, hrun⟩ := readBE_inside (width ai) hfits (a := ⟨0, 0⟩) rfl
        rw [hrun, if_pos ⟨hinfo, by omega⟩, List.drop_drop]
        exact meets_silent (.inl ⟨a, _, i + width ai, ⟨hwraps, hexact⟩, hfits, rfl, rfl⟩)
      · rw [readBE_behind (width ai) hi (by omega), if_neg (by omega)]
        exact meets_silent (.inr ⟨⟨_, rfl⟩, rfl⟩)
    · simp only [argumentAt, if_neg hsmall, if_neg hinfo, if_neg fun h => hinfo (And.left h)]
      exact meets_silent (.inr ⟨⟨_, rfl⟩, rfl⟩)

lemma toInt_cut (n : Nat) : (Int32.ofNat n).toInt = (n : Int).bmod (2 ^ 32) := by
  rw [← Int32.ofInt_eq_ofNat, Int32.toInt_ofInt]
  rfl

lemma toInt_end {i : Nat} (hi : i < 2 ^ 31) (n : Nat) :
    (Int32.ofNat i + Int32.ofNat n).toInt =
      ((i : Int) + (n : Int).bmod (2 ^ 32)).bmod (2 ^ 32) := by
  rw [Int32.toInt_add, toInt_ofNat hi, toInt_cut]

lemma ofNat_neg_iff (n : Nat) : Int32.ofNat n < 0 ↔ 2 ^ 31 ≤ n % 2 ^ 32 := by
  rw [Int32.lt_iff_toInt_lt, toInt_cut, show (0 : Int32).toInt = 0 from rfl, Int.bmod_def]
  split <;> omega

/-- A length is reported where its low bits are negative, or where they end behind the data and do
not wrap. -/
lemma reported_iff {i : Nat} (hi : i ≤ data.bytes.length) (n : Nat) :
    Int32.ofNat n < 0 ∨ Int32.ofNat i + Int32.ofNat n > data.size ↔
      2 ^ 31 ≤ n % 2 ^ 32 ∨
        data.bytes.length < i + n % 2 ^ 32 ∧ i + n % 2 ^ 32 < 2 ^ 31 := by
  have hshort := data.short
  rw [ofNat_neg_iff]
  by_cases hneg : 2 ^ 31 ≤ n % 2 ^ 32
  · exact iff_of_true (.inl hneg) (.inl hneg)
  · have hsize : data.size.toInt = data.bytes.length := toInt_ofNat hshort
    rw [gt_iff_lt, Int32.lt_iff_toInt_lt, hsize, toInt_end (by omega), Int.bmod_def, Int.bmod_def]
    split <;> split <;> omega

/-- A string is sliced where the length that the reader has for it ends inside the data. -/
lemma bytes_walks {a : Argument} (wraps : a.Wraps) :
    Walks data (fun _ _ => True) (bytes data a) (string a.exact) := by
  intro i hi
  have hshort := data.short
  have hword : a.long.toInt32 = Int32.ofNat a.exact := by
    rw [show a.long = Int64.ofNat a.exact from wraps, toInt32_ofNat]
  have hstart : (Int32.ofNat i).toInt = i := toInt_ofNat (by omega)
  have hleft : (data.bytes.drop i).length = data.bytes.length - i := List.length_drop
  simp only [bytes, string, hword, hleft]
  by_cases hreported : Int32.ofNat a.exact < 0 ∨ Int32.ofNat i + Int32.ofNat a.exact > data.size
  · have hlong := (reported_iff hi a.exact).mp hreported
    have hfits : (Written.string (data.bytes.length - i) a.exact).Fits data.bytes.length := by
      rw [Written.Fits]
      omega
    have htruncated : ¬ a.exact ≤ data.bytes.length - i := by omega
    rw [if_pos hreported, if_neg htruncated]
    refine ⟨?_, fun _ => .inr ⟨⟨_, rfl⟩, rfl⟩, fun _ => ?_⟩
    · simpa using hfits
    · simp [Written.Narrow]
  · have hkept := (reported_iff hi a.exact).not.mp hreported
    rw [if_neg hreported]
    by_cases hwhole : a.exact ≤ data.bytes.length - i
    · have hend : Int32.ofNat i + Int32.ofNat a.exact = Int32.ofNat (i + a.exact) :=
        (Int32.ofNat_add _ _).symm
      have hexact : (Use.slice ((Int32.ofNat i).toInt + a.exact)
          (Int32.ofNat (i + a.exact))).Exact := by
        rw [Use.Exact, Use.used, Use.exact, hstart, toInt_ofNat (by omega)]
        push_cast
        rfl
      rw [hend, copyOfRange_inside (by omega), if_pos hwhole, List.drop_drop]
      exact meets_exact hexact (.inl hwhole) trivial
        (.inl ⟨_, (), i + a.exact, trivial, by omega, rfl, rfl⟩)
    · refine meets_unfit (List.mem_singleton_self _) trivial ?_ (List.mem_singleton_self _) ?_
      · rw [Use.Exact, Use.used, Use.exact, toInt_end (by omega), hstart, Int.bmod_def,
          Int.bmod_def]
        split <;> split <;> omega
      · rw [Written.Fits]
        omega

/-- A value made of what was read. -/
lemma walks_then {x : Reading α} {y : Walk Unit} (h : Walks data (fun _ _ => True) x y)
    (f : α → β) : Walks data (fun _ _ => True) (x >>= fun a => pure (f a)) y := by
  have hunit : (y >>= fun _ => pure ()) = y := by
    funext b
    rw [walk_bind]
    rcases y b with ⟨ws, _ | ⟨⟨⟩, b⟩⟩
    · rfl
    · exact Prod.ext (List.append_nil ws) rfl
  rw [← hunit]
  exact walks_bind h fun a _ _ => walks_pure trivial

lemma number_exact {a : Argument} (wraps : a.Wraps) :
    ((Use.number a.exact a.long).Exact ↔ a.exact < 2 ^ 63) ∧
      ((Use.number (-1 - a.exact) (-1 - a.long)).Exact ↔ a.exact < 2 ^ 63) := by
  obtain ⟨huint, hnint⟩ := number_wraps wraps
  rw [Use.exact_iff_inRange huint, Use.exact_iff_inRange hnint, Use.InRange, Use.InRange]
  omega

lemma count_exact {a : Argument} (wraps : a.Wraps) :
    ((Use.capacity a.exact a.long.toInt32).Exact ↔ a.exact < 2 ^ 31) ∧
      ((Use.count a.exact a.long.toInt32).Exact ↔ a.exact < 2 ^ 31) ∧
      ((Use.capacity (2 * a.exact) (a.long.toInt32 * 2)).Exact ↔ a.exact < 2 ^ 30) := by
  obtain ⟨hcapacity, hcount, hdoubled⟩ := capacity_wraps wraps
  rw [Use.exact_iff_inRange hcapacity, Use.exact_iff_inRange hcount,
    Use.exact_iff_inRange hdoubled, Use.InRange, Use.InRange, Use.InRange]
  omega

lemma simple_walks (ai : Nat) :
    Walks data (fun _ _ => True)
      (match simpleValue ai with
        | some v => pure v
        | none => fail (.decode ("unsupported simple value " ++ toString ai)))
      (if ai = 20 ∨ ai = 21 ∨ ai = 22 then pure () else stop) := by
  by_cases hsimple : ai = 20 ∨ ai = 21 ∨ ai = 22
  · rw [if_pos hsimple]
    rcases hsimple with rfl | rfl | rfl <;> exact walks_pure trivial
  · rw [if_neg hsimple]
    have hnone : simpleValue ai = none := by
      rw [simpleValue]
      all_goals omega
    rw [hnone]
    exact walks_fail _

theorem read_walks (data : JvmBytes) (t : Texts) (fuel : Nat) :
    Walks data (fun _ _ => True) (read data t fuel) (walk fuel) ∧
      ∀ n, Walks data (fun _ _ => True) (readAll data t fuel n) (walkAll fuel n) := by
  induction fuel with
  | zero =>
    refine ⟨walks_fail _, fun n => ?_⟩
    cases n with
    | zero => exact walks_pure trivial
    | succ n => exact walks_fail _
  | succ fuel ih =>
    obtain ⟨ihItem, ihAll⟩ := ih
    have hitems : ∀ (n : Nat) (f : List CborValue → CborValue),
        Walks data (fun _ _ => True) (readAll data t fuel n >>= fun xs => pure (f xs))
          (walkAll fuel n) := by
      intro n f
      exact walks_then (ihAll n) f
    constructor
    · rw [read, walk]
      refine walks_bind u8_walks ?_
      rintro initial _ rfl
      simp only []
      generalize initial.toNat / 32 = major
      -- the majors from 0 to 7, and what is no major
      rcases major with _ | _ | _ | _ | _ | _ | _ | _ | major
      · refine walks_bind (argument_walks _) ?_
        rintro a _ ⟨hwraps, rfl⟩
        exact walks_number id (number_exact hwraps).1
      · refine walks_bind (argument_walks _) ?_
        rintro a _ ⟨hwraps, rfl⟩
        exact walks_number id (number_exact hwraps).2
      · refine walks_bind (argument_walks _) ?_
        rintro a _ ⟨hwraps, rfl⟩
        exact walks_then (bytes_walks hwraps) _
      · refine walks_bind (argument_walks _) ?_
        rintro a _ ⟨hwraps, rfl⟩
        exact walks_then (bytes_walks hwraps) _
      · refine walks_bind (argument_walks _) ?_
        rintro a _ ⟨hwraps, rfl⟩
        refine walks_count trivial (count_exact hwraps).1 trivial fun hexact => ?_
        obtain ⟨hsmall, hcount, hneg⟩ := capacity_exact hexact
        rw [if_neg hneg, hcount]
        exact walks_exact ((count_exact hwraps).2.1.mpr hsmall) (hitems _ _)
      · refine walks_bind (argument_walks _) ?_
        rintro a _ ⟨hwraps, rfl⟩
        refine walks_count trivial (count_exact hwraps).2.2 trivial fun hexact => ?_
        obtain ⟨hsmall, hcount, hneg⟩ := doubled_exact hwraps hexact
        rw [if_neg hneg, hcount]
        exact walks_exact ((count_exact hwraps).2.1.mpr (by omega)) (hitems _ _)
      · exact walks_fail _
      · exact simple_walks _
      · exact walks_fail _
    · intro n
      cases n with
      | zero => exact walks_pure trivial
      | succ n =>
        rw [readAll, walkAll]
        refine walks_bind ihItem fun x _ _ => ?_
        exact walks_then (ihAll n) _

end Walks

section Complete

variable {t : Texts} {size : Nat}

/-- The walk comes to the end of an item, and everything that is written in it is in range. -/
def Complete (size : Nat) (walked : List Written × Option (Unit × Bytes)) (rest : Bytes) : Prop :=
  walked.2 = some ((), rest) ∧ ∀ w ∈ walked.1, w.Fits size ∧ w.Narrow

lemma argumentAt_of_argument {ai n : Nat} {b rest : Bytes}
    (h : ClientReader.argument (exact t) ai b = .ok (n, rest)) :
    argumentAt ai b = ([], some (n, rest)) := by
  rw [ClientReader.argument] at h
  rw [argumentAt]
  split at h
  · rename_i hsmall
    cases h
    rw [if_pos hsmall]
  · rename_i hlarge
    split at h
    · rename_i hinfo
      split at h
      · rename_i hfits
        cases h
        rw [if_neg hlarge, if_pos ⟨hinfo, hfits⟩]
      · cases h
    · cases h

lemma complete_end (rest : Bytes) : Complete size ([], some ((), rest)) rest :=
  ⟨rfl, fun _ hw => absurd hw List.not_mem_nil⟩

lemma complete_cons {w : Written} {walked : List Written × Option (Unit × Bytes)} {rest : Bytes}
    (fits : w.Fits size) (narrow : w.Narrow) (h : Complete size walked rest) :
    Complete size (w :: walked.1, walked.2) rest :=
  ⟨h.1, List.forall_mem_cons.mpr ⟨⟨fits, narrow⟩, h.2⟩⟩

lemma narrow_of_number {n : Nat} {v : Int64}
    (h : (exact t).uint n = .ok v ∨ (exact t).nint n = .ok v) : n < 2 ^ 63 := by
  by_contra hlarge
  simp only [exact, Swift.int64, if_neg hlarge] at h
  rcases h with h | h <;> cases h

lemma simpleValue_info {ai : Nat} {v : CborValue} (h : simpleValue ai = some v) :
    ai = 20 ∨ ai = 21 ∨ ai = 22 := by
  by_contra hother
  rw [simpleValue] at h
  · cases h
  all_goals omega

mutual

/-- What can be read with numbers of any size is in range. -/
theorem walk_of_reads {b rest : Bytes} {v : CborValue} (short : b.length < 2 ^ 31) :
    Reads (exact t) b v rest → ∀ fuel, 2 * b.length ≤ fuel → Complete size (walk fuel b) rest
  | .uint head kind number, fuel, enough => by
    obtain ⟨k, initial, tail, rfl, rfl, hmajor, hinfo, harg⟩ :=
      front_of_readHead (r := exact t) head enough
    simp only [walk, walk_bind, byte, hmajor, kind, hinfo, argumentAt_of_argument harg]
    exact complete_cons (w := .number _) trivial (narrow_of_number (.inl number)) (complete_end _)
  | .nint head kind number, fuel, enough => by
    obtain ⟨k, initial, tail, rfl, rfl, hmajor, hinfo, harg⟩ :=
      front_of_readHead (r := exact t) head enough
    simp only [walk, walk_bind, byte, hmajor, kind, hinfo, argumentAt_of_argument harg]
    exact complete_cons (w := .number _) trivial (narrow_of_number (.inr number)) (complete_end _)
  | .bytes head kind (.refl _) fits, fuel, enough => by
    obtain ⟨k, initial, tail, rfl, rfl, hmajor, hinfo, harg⟩ :=
      front_of_readHead (r := exact t) head enough
    simp only [walk, walk_bind, byte, hmajor, kind, hinfo, argumentAt_of_argument harg, string,
      if_pos fits]
    exact complete_cons (w := .string _ _) (.inl fits) trivial (complete_end _)
  | .text head kind (.refl _) fits decoded, fuel, enough => by
    obtain ⟨k, initial, tail, rfl, rfl, hmajor, hinfo, harg⟩ :=
      front_of_readHead (r := exact t) head enough
    simp only [walk, walk_bind, byte, hmajor, kind, hinfo, argumentAt_of_argument harg, string,
      if_pos fits]
    exact complete_cons (w := .string _ _) (.inl fits) trivial (complete_end _)
  | .array head kind (.refl _) items, fuel, enough => by
    have hshorter := readHead_shorter head
    have hcount := items.count_le
    obtain ⟨k, initial, tail, rfl, rfl, hmajor, hinfo, harg⟩ :=
      front_of_readHead (r := exact t) head enough
    have hitems := walkAll_of_readsN (by omega) items k (by omega)
    simp only [walk, walk_bind, byte, hmajor, kind, hinfo, argumentAt_of_argument harg, written]
    exact complete_cons (w := .array _) (show _ < 2 ^ 31 by omega) trivial hitems
  | .map head kind (.refl _) items entries, fuel, enough => by
    have hshorter := readHead_shorter head
    have hcount := items.count_le
    obtain ⟨k, initial, tail, rfl, rfl, hmajor, hinfo, harg⟩ :=
      front_of_readHead (r := exact t) head enough
    have hitems := walkAll_of_readsN (by omega) items k (by omega)
    simp only [walk, walk_bind, byte, hmajor, kind, hinfo, argumentAt_of_argument harg, written]
    exact complete_cons (w := .map _) (show _ < 2 ^ 30 by omega) trivial hitems
  | .simple head kind value, fuel, enough => by
    obtain ⟨k, initial, tail, rfl, rfl, hmajor, hinfo, harg⟩ :=
      front_of_readHead (r := exact t) head enough
    rw [ClientReader.argument, if_pos (simpleValue_small value)] at harg
    obtain ⟨-, hrest⟩ := Prod.mk.inj (Except.ok.inj harg)
    simp only [walk, walk_bind, byte, hmajor, kind, hinfo, if_pos (simpleValue_info value), ← hrest]
    exact complete_end tail

theorem walkAll_of_readsN {n : Nat} {b rest : Bytes} {xs : List CborValue}
    (short : b.length < 2 ^ 31) :
    ReadsN (exact t) n b xs rest → ∀ fuel, 2 * b.length < fuel →
      Complete size (walkAll fuel n b) rest
  | .nil b, fuel, _ => by
    rw [walkAll]
    exact complete_end _
  | .cons item items, fuel, enough => by
    cases fuel with
    | zero => exact absurd enough (Nat.not_lt_zero _)
    | succ fuel =>
      have hshorter := item.shorter
      obtain ⟨hend, hitem⟩ : Complete size _ _ := walk_of_reads short item fuel (by omega)
      obtain ⟨hend', hitems⟩ : Complete size _ _ :=
        walkAll_of_readsN (by omega) items fuel (by omega)
      have hwalk : walk fuel b = ((walk fuel b).1, some ((), _)) := Prod.ext rfl hend
      rw [walkAll, walk_bind, hwalk]
      exact ⟨hend', List.forall_mem_append.mpr ⟨hitem, hitems⟩⟩

end

/-- What can be read exactly is what the reader returns, with the number of its bytes. -/
theorem decodeWithLength_of_reads {data : JvmBytes} {v : CborValue} {rest : Bytes}
    (h : Reads (exact t) data.bytes v rest) :
    (decodeWithLength data t).1 = .ok (v, Int32.ofNat (data.bytes.length - rest.length)) := by
  have hfuel : 2 * data.bytes.length ≤ 2 * data.bytes.length + 1 := Nat.le_succ _
  obtain ⟨-, hwritten⟩ : Complete data.bytes.length _ _ := walk_of_reads data.short h _ hfuel
  obtain ⟨-, -, hnumbers⟩ := (read_walks data t (2 * data.bytes.length + 1)).1 0 (Nat.zero_le _)
  rw [List.drop_zero] at hnumbers
  have hexact := (hnumbers fun w hw => (hwritten w hw).1).mpr fun w hw => (hwritten w hw).2
  have hfollows := (read_follows (exact_simulates t) _).1 0 (Nat.zero_le _) hexact
  rw [List.drop_zero, read_of_reads h _ hfuel] at hfollows
  obtain ⟨_, _, j, rfl, hj, hrun, ⟨⟩⟩ | ⟨msg, -, ⟨⟩⟩ := hfollows
  rw [decodeWithLength, show (0 : Int32) = Int32.ofNat 0 from rfl, hrun, List.length_drop,
    Nat.sub_sub_self hj]

end Complete

/-- The reader fails only with its own error, uses no length that is negative or wrapped, and
where it returns, every number and every length is that of the input. -/
structure OwnErrors (t : Texts) (data : JvmBytes) : Prop where
  fails : ∀ e, (decode data t).1 = .error e → ∃ msg, e = .decode msg
  lengths : ∀ u ∈ (decode data t).2, u.IsLength → u.Exact
  returned : ∀ v, (decode data t).1 = .ok v → ∀ u ∈ (decode data t).2, u.Exact

/-- What is written in the input, up to the end of the first item. -/
def walked (data : JvmBytes) : List Written × Option (Unit × Bytes) :=
  walk (2 * data.bytes.length + 1) data.bytes

/-- The lengths that are written in the input fit the reader, and the numbers of a complete item
are below `2 ^ 63`. -/
structure InRange (data : JvmBytes) : Prop where
  lengths : ∀ w ∈ (walked data).1, w.Fits data.bytes.length
  numbers : (walked data).2.isSome → ∀ w ∈ (walked data).1, w.Narrow

theorem decode_meets (t : Texts) (data : JvmBytes) :
    ((∀ u ∈ (decode data t).2, u.IsLength → u.Exact) ↔
      ∀ w ∈ (walked data).1, w.Fits data.bytes.length) ∧
    ((∀ w ∈ (walked data).1, w.Fits data.bytes.length) →
      ((∃ v, (decode data t).1 = .ok v) ↔ (walked data).2.isSome) ∧
      ((∀ u ∈ (decode data t).2, u.Exact) ↔ ∀ w ∈ (walked data).1, w.Narrow)) := by
  obtain ⟨hlengths, hends, hnumbers⟩ :=
    (read_walks data t (2 * data.bytes.length + 1)).1 0 (Nat.zero_le _)
  rw [List.drop_zero] at hlengths hends hnumbers
  refine ⟨hlengths, fun hfits => ⟨?_, hnumbers hfits⟩⟩
  rw [decode, decodeWithLength, walked, show (0 : Int32) = Int32.ofNat 0 from rfl]
  obtain ⟨v, _, j, -, -, hrun, hwalk⟩ | ⟨⟨msg, hrun⟩, hwalk⟩ := hends hfits
  · rw [hrun, hwalk]
    exact ⟨fun _ => rfl, fun _ => ⟨v, rfl⟩⟩
  · rw [hrun, hwalk]
    refine ⟨?_, ?_⟩
    · rintro ⟨v, ⟨⟩⟩
    · rintro ⟨⟩

/-- The inputs that the reader takes as it should, and what it then returns. -/
theorem own_errors_iff (t : Texts) (data : JvmBytes) :
    (OwnErrors t data ↔ InRange data) ∧
    (InRange data → ∀ v, (decode data t).1 = .ok v →
      ∃ rest, Reads (exact t) data.bytes v rest) := by
  obtain ⟨hlengths, hfitting⟩ := decode_meets t data
  have hiff : OwnErrors t data ↔ InRange data := by
    constructor
    · rintro ⟨-, hexact, hreturned⟩
      have hfits := hlengths.mp hexact
      obtain ⟨hends, hnumbers⟩ := hfitting hfits
      refine ⟨hfits, fun hcomplete => ?_⟩
      obtain ⟨v, hv⟩ := hends.mpr hcomplete
      exact hnumbers.mp (hreturned v hv)
    · rintro ⟨hfits, hnarrow⟩
      have hexact := hlengths.mpr hfits
      obtain ⟨hends, hnumbers⟩ := hfitting hfits
      refine ⟨?_, hexact, fun v hv => hnumbers.mpr (hnarrow (hends.mp ⟨v, hv⟩))⟩
      intro e he
      obtain ⟨v, hv, -⟩ | ⟨msg, hmsg, -⟩ := decode_follows (rules_simulate t) hexact
      · rw [hv] at he
        cases he
      · rw [hmsg] at he
        cases he
        exact ⟨msg, rfl⟩
  refine ⟨hiff, fun hrange v hv => ?_⟩
  have hexact := (hiff.mpr hrange).returned v hv
  obtain ⟨v', hv', hread⟩ | ⟨msg, hmsg, -⟩ := decode_follows (exact_simulates t) hexact
  · rw [hv] at hv'
    cases hv'
    exact reads_of_decode hread
  · rw [hv] at hmsg
    cases hmsg

/-- The end of the string would be at `2 ^ 31 + 6`. -/
example : (walked ⟨[0x82, 0x00, 0x5a, 0x7f, 0xff, 0xff, 0xff], by decide⟩).1 =
      [.array 2, .number 0, .string 0 (2 ^ 31 - 1)] ∧
    ¬ (Written.string 0 (2 ^ 31 - 1)).Fits 7 := by decide

/-- An array of `2 ^ 31` items. -/
def negativeCapacity : JvmBytes := ⟨[0x9a, 0x80, 0, 0, 0], by decide⟩

/-- An array with a byte string of `2 ^ 31 - 1` bytes behind its first item. -/
def wrappedEnd : JvmBytes := ⟨[0x82, 0x00, 0x5a, 0x7f, 0xff, 0xff, 0xff], by decide⟩

/-- A map of `2 ^ 30` entries. -/
def wrappedCapacity : JvmBytes := ⟨[0xba, 0x40, 0, 0, 0], by decide⟩

/-- A map of `2 ^ 31` entries. -/
def negativeCount : JvmBytes := ⟨[0xba, 0x80, 0, 0, 0], by decide⟩

/-- A byte string of `2 ^ 32 + 1` bytes. -/
def cutLength : JvmBytes := ⟨[0x5b, 0, 0, 0, 1, 0, 0, 0, 1, 0x2a], by decide⟩

/-- The number `2 ^ 64 - 1`. -/
def wideNumber : JvmBytes :=
  ⟨[0x1b, 0xff, 0xff, 0xff, 0xff, 0xff, 0xff, 0xff, 0xff], by decide⟩

/-- Three inputs end in an exception that is not the reader's own, the next two are taken for an
empty map and a string of one byte, and the last for `-1`. -/
theorem hostile_inputs :
    (∀ t : Texts,
      (decode negativeCapacity t).1 = .error (.illegalArgument "Illegal Capacity: -2147483648") ∧
      (decode wrappedEnd t).1 = .error (.illegalArgument "7 > -2147483642") ∧
      (decode wrappedCapacity t).1 =
        .error (.illegalArgument "Illegal initial capacity: -2147483648")) ∧
    ∀ t : Texts,
      (decode negativeCount t).1 = .ok (.map []) ∧
      (decode cutLength t).1 = .ok (.bytes [0x2a]) ∧
      (decode wideNumber t).1 = .ok (.int (-1)) :=
  ⟨fun _ => ⟨rfl, rfl, rfl⟩, fun _ => ⟨rfl, rfl, rfl⟩⟩

end KotlinReader
