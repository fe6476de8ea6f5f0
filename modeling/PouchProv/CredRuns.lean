import PouchProv.CredStore
import PouchProv.Runs
import Mathlib.Data.List.TakeWhile

/-!
# Runs of the credential store

An operation carries the answers of the settings subsystem to the calls it makes,
so that a list of operations is one run under one pattern of failures. The store
is well formed in every reachable state; what the application reads is the stored
value exactly as long as neither a chunk nor a failing read writes over it.
-/

namespace CredRuns

open CredStore Settings Status Runs

inductive Op where
  | stage (kind : Int) (offset total : Nat) (data : Bytes)
  | finalize (save : CredKind → Bool)
  | deleteAll (del : CredKind → Bool)
  | reload (read : CredKind → Read)

def step (s : Store) : Op → Store
  | .stage kind offset total data => (credStage kind offset total data s).2
  | .finalize save => (credFinalize save s).2
  | .deleteAll del => credDeleteAll del s
  | .reload read => settingsLoad read s

/-- The counters of a blob stay inside its buffer. -/
structure WfBlob (k : CredKind) (b : Blob) : Prop where
  size : b.buf.length = cap k
  len_le : b.len ≤ cap k
  staged_le : b.staged ≤ b.expected
  expected_le : b.expected ≤ cap k

def Wf (s : Store) : Prop := ∀ k, WfBlob k (s.blob k)

lemma boot_wf (settings : CredKind → Option Bytes) : Wf (boot settings) := by
  intro k
  constructor <;> simp [boot]

lemma setBlob_wf {s : Store} (wf : Wf s) {k : CredKind} {b : Blob} (hb : WfBlob k b) :
    Wf (s.setBlob k b) := by
  intro j
  by_cases hj : j = k
  · subst j
    simpa using hb
  · rw [setBlob_other s b hj]
    exact wf j

lemma opened_wf {s : Store} (wf : Wf s) {k : CredKind} (offset : Nat) {total : Nat}
    (fits : total ≤ cap k) : WfBlob k (opened s k offset total) := by
  rw [opened]
  split
  · exact ⟨(wf k).size, (wf k).len_le, Nat.zero_le _, fits⟩
  · exact wf k

/-- Where an accepted chunk ends, its total also ends, inside the buffer. -/
lemma accepts_inside {s : Store} (wf : Wf s) {k : CredKind} {offset total : Nat} {data : Bytes}
    (accepts : Accepts s k offset total data) :
    offset + data.length ≤ (opened s k offset total).expected ∧
      offset + data.length ≤ (s.blob k).buf.length := by
  have hsize := (wf k).size
  have hexp := (wf k).expected_le
  obtain ⟨hcap, ⟨rfl, hfit⟩ | ⟨hne, _, hfit⟩⟩ := accepts
  · simp only [opened, if_true]
    omega
  · simp only [opened, if_neg hne]
    omega

lemma credStage_wf {s : Store} (wf : Wf s) (kind : Int) (offset total : Nat) (data : Bytes) :
    Wf (credStage kind offset total data s).2 := by
  obtain ⟨_, h⟩ | ⟨k, _, ⟨_, h⟩ | ⟨hcap, _, h⟩ | ⟨accepts, h⟩⟩ :=
    credStage_cases kind offset total data s
  · rw [h]; exact wf
  · rw [h]; exact wf
  · rw [h]; exact setBlob_wf wf (opened_wf wf offset hcap)
  · rw [h]
    have hopen := opened_wf wf offset accepts.1
    have hin := accepts_inside wf accepts
    have hlen : (opened s k offset total).len = (s.blob k).len := by
      rw [opened]; split <;> rfl
    refine setBlob_wf wf ⟨?_, ?_, hin.1, hopen.expected_le⟩
    · exact (Bytes.writeAt_length hin.2).trans (wf k).size
    · exact hopen.len_le

lemma saveOne_wf {s : Store} (wf : Wf s) (k : CredKind) : Wf (saveOne s k) := by
  have hb : WfBlob k { s.blob k with len := (s.blob k).staged } :=
    ⟨(wf k).size, Nat.le_trans (wf k).staged_le (wf k).expected_le, (wf k).staged_le,
      (wf k).expected_le⟩
  exact setBlob_wf wf hb

lemma persist_wf (save : CredKind → Bool) {s : Store} (wf : Wf s) (ks : List CredKind) :
    Wf (persist save ks s).2 := by
  induction ks generalizing s with
  | nil => exact wf
  | cons k ks ih =>
    rw [persist]
    split
    · split
      · exact ih (saveOne_wf wf k)
      · exact wf
    · exact ih wf

lemma credFinalize_wf (save : CredKind → Bool) {s : Store} (wf : Wf s) :
    Wf (credFinalize save s).2 := by
  rw [credFinalize]
  split
  · split
    · exact persist_wf save wf kinds
    · exact wf
  · exact wf

lemma loaded_wf {k : CredKind} {b : Blob} (wf : WfBlob k b) (stored : Option Bytes)
    (read : Read) : WfBlob k (loaded k stored read b) := by
  cases stored with
  | none => exact wf
  | some value =>
    rw [loaded]
    split
    · rename_i hfits
      have hin : 0 + ((read.written value).take (cap k)).length ≤ b.buf.length := by
        rw [wf.size, Nat.zero_add]
        exact List.length_take_le _ _
      refine ⟨(Bytes.writeAt_length hin).trans wf.size, ?_, wf.staged_le, wf.expected_le⟩
      dsimp only
      split
      · exact hfits
      · exact wf.len_le
    · exact wf

/-- Every operation keeps the counters inside the buffers. -/
theorem step_wf {s : Store} (wf : Wf s) (op : Op) : Wf (step s op) := by
  cases op with
  | stage kind offset total data => exact credStage_wf wf kind offset total data
  | finalize save => exact credFinalize_wf save wf
  | deleteAll del =>
    intro k
    exact ⟨(wf k).size, Nat.zero_le _, Nat.le_refl _, Nat.zero_le _⟩
  | reload read =>
    simp only [step, settingsLoad_eq]
    intro k
    exact loaded_wf (wf k) _ _

/-- Every present credential reads as the value that the settings store holds. -/
def Intact (s : Store) : Prop :=
  ∀ k, credPresent s k → credGet s k = s.settings k

/-- The same property of one kind, on its blob. -/
def IntactBlob (b : Blob) (stored : Option Bytes) : Prop :=
  0 < b.len → stored = some (b.buf.take b.len)

lemma intact_iff (s : Store) : Intact s ↔ ∀ k, IntactBlob (s.blob k) (s.settings k) := by
  have hk : ∀ k, (credPresent s k → credGet s k = s.settings k) ↔
      IntactBlob (s.blob k) (s.settings k) := by
    intro k
    simp only [credGet, IntactBlob, credPresent, gt_iff_lt, decide_eq_true_eq]
    constructor
    · intro h hp
      simpa [hp, eq_comm] using h hp
    · intro h hp
      simpa [hp, eq_comm] using h hp
  exact forall_congr' hk

lemma boot_intact (settings : CredKind → Option Bytes) : Intact (boot settings) := by
  intro k h
  simp [credPresent, boot] at h

/-- The two ways in which an operation can disturb a stored credential: a chunk is accepted
for a kind whose persisted length reaches into the copied range, or the read of a stored value
fails after it has written into the buffer; and some byte differs from the one already there. -/
def KeepsStored (s : Store) : Op → Prop
  | .stage kind offset total data =>
    ∀ k, kindValid kind = some k → Accepts s k offset total data →
      ∀ i, i < data.length → offset + i < (s.blob k).len →
        data[i]? = (s.blob k).buf[offset + i]?
  | .reload read =>
    ∀ k value written, s.settings k = some value → value.length ≤ cap k →
      read k = .failed written → Agrees written (s.blob k).buf (s.blob k).len
  | _ => True

lemma intact_setBlob_iff {s : Store} (intact : Intact s) (k : CredKind) (b : Blob) :
    Intact (s.setBlob k b) ↔ IntactBlob b (s.settings k) := by
  rw [intact_iff] at intact ⊢
  constructor
  · intro h
    simpa using h k
  · intro h j
    by_cases hj : j = k
    · subst j
      simpa using h
    · rw [setBlob_other s b hj]
      exact intact j

lemma opened_intact {s : Store} (intact : Intact s) (k : CredKind) (offset total : Nat) :
    IntactBlob (opened s k offset total) (s.settings k) := by
  have hk := (intact_iff s).mp intact k
  rw [opened]
  split
  · exact hk
  · exact hk

lemma credStage_intact_iff {s : Store} (wf : Wf s) (intact : Intact s) (kind : Int)
    (offset total : Nat) (data : Bytes) :
    Intact (credStage kind offset total data s).2 ↔
      KeepsStored s (.stage kind offset total data) := by
  obtain ⟨hk, h⟩ | ⟨k, hk, ⟨hcap, h⟩ | ⟨_, refused, h⟩ | ⟨accepts, h⟩⟩ :=
    credStage_cases kind offset total data s
  · rw [h]
    exact ⟨fun _ j hj => by simp [hk] at hj, fun _ => intact⟩
  · rw [h]
    refine ⟨fun _ j hj accepts => ?_, fun _ => intact⟩
    obtain rfl : k = j := Option.some.inj (hk.symm.trans hj)
    exact absurd accepts.1 (Nat.not_le.mpr hcap)
  · rw [h, intact_setBlob_iff intact]
    refine ⟨fun _ j hj accepts => ?_, fun _ => opened_intact intact k offset total⟩
    obtain rfl : k = j := Option.some.inj (hk.symm.trans hj)
    exact absurd accepts refused
  · -- The copy is the only case that writes; it matters below the persisted length only.
    rw [h, intact_setBlob_iff intact]
    have hin := (accepts_inside wf accepts).2
    have hold := (intact_iff s).mp intact k
    have hlen : (opened s k offset total).len = (s.blob k).len := by
      rw [opened]; split <;> rfl
    have hkeep : (Bytes.writeAt (s.blob k).buf offset data).take (s.blob k).len =
        (s.blob k).buf.take (s.blob k).len ↔ _ := Bytes.take_writeAt_eq_iff (by omega)
    simp only [IntactBlob, hlen]
    constructor
    · intro hnew j hj _ i hi hbelow
      obtain rfl : k = j := Option.some.inj (hk.symm.trans hj)
      have hpos : 0 < (s.blob k).len := by omega
      have hsame := Option.some.inj ((hnew hpos).symm.trans (hold hpos))
      exact hkeep.mp hsame i hi hbelow
    · intro hkeeps hpos
      rw [hkeep.mpr (hkeeps k hk accepts)]
      exact hold hpos

lemma saveOne_intact {s : Store} (intact : Intact s) (k : CredKind) : Intact (saveOne s k) := by
  rw [intact_iff] at intact ⊢
  intro j
  by_cases hj : j = k
  · subst j
    simp [saveOne, IntactBlob]
  · simpa [saveOne, hj] using intact j

lemma persist_intact (save : CredKind → Bool) {s : Store} (intact : Intact s)
    (ks : List CredKind) : Intact (persist save ks s).2 := by
  induction ks generalizing s with
  | nil => exact intact
  | cons k ks ih =>
    rw [persist]
    split
    · split
      · exact ih (saveOne_intact intact k)
      · exact intact
    · exact ih intact

lemma credFinalize_intact (save : CredKind → Bool) {s : Store} (intact : Intact s) :
    Intact (credFinalize save s).2 := by
  rw [credFinalize]
  split
  · split
    · exact persist_intact save intact kinds
    · exact intact
  · exact intact

lemma loaded_whole_intact {k : CredKind} {b : Blob} {value : Bytes} (fits : value.length ≤ cap k) :
    IntactBlob (loaded k (some value) .whole b) (some value) := by
  intro _
  have h : (Bytes.writeAt b.buf 0 value).take (0 + value.length) = b.buf.take 0 ++ value :=
    Bytes.take_writeAt (Nat.zero_le _)
  simp only [Nat.zero_add, List.take_zero, List.nil_append] at h
  simp only [loaded, fits, if_true, Read.written, List.take_of_length_le fits, h]

/-- A read that fails keeps the length, so it must not have changed a byte below it. -/
lemma loaded_failed_intact_iff {k : CredKind} {b : Blob} (wf : WfBlob k b) {value : Bytes}
    (intact : IntactBlob b (some value)) (fits : value.length ≤ cap k) (written : Bytes) :
    IntactBlob (loaded k (some value) (.failed written) b) (some value) ↔
      Agrees written b.buf b.len := by
  rw [← take_read_iff wf.len_le]
  simp only [IntactBlob, loaded, fits, if_true, Read.written, reduceCtorEq, if_false]
  constructor
  · intro h
    by_cases hpos : 0 < b.len
    · exact Option.some.inj ((h hpos).symm.trans (intact hpos))
    · simp [Nat.eq_zero_of_not_pos hpos]
  · intro hsame hpos
    rw [hsame]
    exact intact hpos

lemma loaded_intact_iff {k : CredKind} {b : Blob} (wf : WfBlob k b) {stored : Option Bytes}
    (intact : IntactBlob b stored) (read : Read) :
    IntactBlob (loaded k stored read b) stored ↔
      ∀ value written, stored = some value → value.length ≤ cap k → read = .failed written →
        Agrees written b.buf b.len := by
  cases stored with
  | none =>
    refine iff_of_true intact ?_
    intro value written hstored
    cases hstored
  | some value =>
    by_cases hfits : value.length ≤ cap k
    · cases read with
      | whole =>
        refine iff_of_true (loaded_whole_intact hfits) ?_
        intro value' written _ _ hread
        cases hread
      | failed written =>
        rw [loaded_failed_intact_iff wf intact hfits]
        constructor
        · rintro h value' written' hstored - hread
          cases hread
          exact h
        · intro h
          exact h value written rfl hfits rfl
    · have hsame : loaded k (some value) read b = b := by rw [loaded, if_neg hfits]
      rw [hsame]
      refine iff_of_true intact ?_
      intro value' written hstored hfits'
      cases hstored
      exact absurd hfits' hfits

/-- One operation keeps what the application reads equal to the stored value exactly
when it writes no different byte below a persisted length. -/
theorem step_intact_iff {s : Store} (wf : Wf s) (intact : Intact s) (op : Op) :
    Intact (step s op) ↔ KeepsStored s op := by
  cases op with
  | stage kind offset total data => exact credStage_intact_iff wf intact kind offset total data
  | finalize save => exact ⟨fun _ => trivial, fun _ => credFinalize_intact save intact⟩
  | deleteAll del =>
    refine ⟨fun _ => trivial, fun _ k h => ?_⟩
    simp [step, credPresent, credDeleteAll] at h
  | reload read =>
    simp only [step, settingsLoad_eq]
    rw [intact_iff] at intact ⊢
    exact forall_congr' fun k => loaded_intact_iff (wf k) (intact k) (read k)

/-- In a run from boot, what the application reads is the stored value in every state
exactly when every step keeps the bytes below the persisted lengths. -/
theorem stored_credentials_intact_iff (settings : CredKind → Option Bytes) (ops : List Op) :
    Always step Intact (boot settings) ops ↔ Each step KeepsStored (boot settings) ops :=
  always_iff_each (I := Wf) (P := Intact) (fun _ op wf => step_wf wf op)
    (fun _ op wf intact => step_intact_iff wf intact op) (boot_wf settings)
    (boot_intact settings) ops

/-- A certificate and a key are stored, then the first byte of a new certificate arrives. -/
def rewriteRun : List Op :=
  [.stage 0 0 4 [0x30, 0x02, 0xaa, 0xbb], .stage 1 0 1 [0x01], .finalize (fun _ => true),
    .stage 0 0 4 [0x31]]

/-- The first chunk of a new certificate changes the certificate that the application reads
while the settings store still holds the old one. -/
theorem rewriteRun_disturbs : ¬ Always step Intact (boot (fun _ => none)) rewriteRun := by
  intro h
  have hcert := h.final .deviceCert (by decide)
  revert hcert
  decide

/-- A finalize that fails changes neither the settings store nor a persisted length, and one
that succeeds has stored every fully staged kind. -/
def FinalizeAtomic (save : CredKind → Bool) (s : Store) : Prop :=
  match credFinalize save s with
  | (.error _, s') => s'.settings = s.settings ∧ ∀ k, (s'.blob k).len = (s.blob k).len
  | (.ok _, s') => ∀ k, fullyStaged s k →
      s'.settings k = some ((s.blob k).buf.take (s.blob k).staged) ∧
        (s'.blob k).len = (s.blob k).staged

/-- The checks that a finalize makes before it saves anything. -/
def Ready (s : Store) : Prop :=
  fullyStaged s .deviceCert ∧ fullyStaged s .privateKey ∧
    derSequenceLenOk (s.blob .deviceCert).buf (s.blob .deviceCert).staged

/-- The kinds that the persist loop saves: the fully staged ones before the first failure. -/
def saved (save : CredKind → Bool) (s : Store) (ks : List CredKind) : List CredKind :=
  (ks.filter (fullyStaged s)).takeWhile save

/-- The staged bytes of the kind are what the settings store already holds. -/
def AlreadyStored (s : Store) (k : CredKind) : Prop :=
  s.settings k = some ((s.blob k).buf.take (s.blob k).staged) ∧
    (s.blob k).len = (s.blob k).staged

lemma saveOne_staging (s : Store) (k j : CredKind) :
    ((saveOne s k).blob j).buf = (s.blob j).buf ∧
      ((saveOne s k).blob j).staged = (s.blob j).staged ∧
      ((saveOne s k).blob j).expected = (s.blob j).expected := by
  by_cases hj : j = k
  · subst j
    simp [saveOne]
  · simp [saveOne, hj]

lemma saveOne_fullyStaged (s : Store) (k : CredKind) :
    fullyStaged (saveOne s k) = fullyStaged s := by
  funext j
  obtain ⟨_, hstaged, hexpected⟩ := saveOne_staging s k j
  simp [fullyStaged, hstaged, hexpected]

/-- The persist loop stores the kinds of `saved`, one after the other. -/
lemma persist_store (save : CredKind → Bool) (s : Store) (ks : List CredKind) :
    (persist save ks s).2 = (saved save s ks).foldl saveOne s := by
  induction ks generalizing s with
  | nil => rfl
  | cons k ks ih =>
    by_cases hfull : fullyStaged s k
    · by_cases hsave : save k
      · have htail : saved save (saveOne s k) ks = saved save s ks := by
          simp [saved, saveOne_fullyStaged]
        rw [persist, if_pos hfull, if_pos hsave, ih, htail]
        simp [saved, hfull, hsave]
      · simp [persist, saved, hfull, hsave]
    · simpa [persist, saved, hfull] using ih s

/-- The loop reports success exactly when no save of a fully staged kind fails. -/
lemma persist_ok_iff (save : CredKind → Bool) (s : Store) (ks : List CredKind) :
    (persist save ks s).1 = .ok () ↔ ∀ k ∈ ks, fullyStaged s k → save k := by
  induction ks generalizing s with
  | nil => simp [persist]
  | cons k ks ih =>
    by_cases hfull : fullyStaged s k
    · by_cases hsave : save k
      · rw [persist, if_pos hfull, if_pos hsave, ih, saveOne_fullyStaged]
        simp [hsave]
      · simp [persist, hfull, hsave]
    · simp [persist, hfull, ih]

lemma foldl_saveOne_staging (s : Store) (ks : List CredKind) (j : CredKind) :
    ((ks.foldl saveOne s).blob j).buf = (s.blob j).buf ∧
      ((ks.foldl saveOne s).blob j).staged = (s.blob j).staged ∧
      ((ks.foldl saveOne s).blob j).expected = (s.blob j).expected := by
  induction ks generalizing s with
  | nil => exact ⟨rfl, rfl, rfl⟩
  | cons k ks ih =>
    obtain ⟨hbuf, hstaged, hexpected⟩ := ih (saveOne s k)
    obtain ⟨hb, hs, he⟩ := saveOne_staging s k j
    exact ⟨hbuf.trans hb, hstaged.trans hs, hexpected.trans he⟩

/-- What storing a list of kinds leaves in one kind's place. -/
lemma foldl_saveOne (s : Store) (ks : List CredKind) (j : CredKind) :
    (ks.foldl saveOne s).settings j =
        (if j ∈ ks then some ((s.blob j).buf.take (s.blob j).staged) else s.settings j) ∧
      ((ks.foldl saveOne s).blob j).len =
        if j ∈ ks then (s.blob j).staged else (s.blob j).len := by
  induction ks generalizing s with
  | nil => simp
  | cons k ks ih =>
    obtain ⟨hset, hlen⟩ := ih (saveOne s k)
    obtain ⟨hb, hs, _⟩ := saveOne_staging s k j
    constructor
    · rw [List.foldl_cons, hset, hb, hs]
      by_cases hj : j = k
      · subst j
        by_cases hmem : k ∈ ks <;> simp [hmem, saveOne]
      · simp [hj, saveOne]
    · rw [List.foldl_cons, hlen, hs]
      by_cases hj : j = k
      · subst j
        by_cases hmem : k ∈ ks <;> simp [hmem, saveOne]
      · simp [hj, saveOne]

/-- Storing a list of kinds changes nothing exactly when each was already stored. -/
lemma foldl_saveOne_unchanged_iff (s : Store) (ks : List CredKind) :
    ((ks.foldl saveOne s).settings = s.settings ∧
        ∀ k, ((ks.foldl saveOne s).blob k).len = (s.blob k).len) ↔
      ∀ k ∈ ks, AlreadyStored s k := by
  constructor
  · rintro ⟨hset, hlen⟩ k hk
    obtain ⟨hset', hlen'⟩ := foldl_saveOne s ks k
    rw [if_pos hk] at hset' hlen'
    exact ⟨(congrFun hset k).symm.trans hset', (hlen k).symm.trans hlen'⟩
  · intro h
    have hsame : ∀ k, (ks.foldl saveOne s).settings k = s.settings k ∧
        ((ks.foldl saveOne s).blob k).len = (s.blob k).len := by
      intro k
      obtain ⟨hset, hlen⟩ := foldl_saveOne s ks k
      by_cases hk : k ∈ ks
      · rw [hset, hlen, if_pos hk, if_pos hk]
        exact ⟨(h k hk).1.symm, (h k hk).2.symm⟩
      · rw [hset, hlen, if_neg hk, if_neg hk]
        exact ⟨rfl, rfl⟩
    exact ⟨funext fun k => (hsame k).1, fun k => (hsame k).2⟩

lemma credFinalize_ready {s : Store} (ready : Ready s) (save : CredKind → Bool) :
    credFinalize save s = persist save kinds s := by
  rw [credFinalize, if_pos ⟨ready.1, ready.2.1⟩, if_pos ready.2.2]

lemma credFinalize_refused {s : Store} (refused : ¬ Ready s) (save : CredKind → Bool) :
    ∃ e, credFinalize save s = (.error e, s) := by
  rw [credFinalize]
  split
  · rename_i hfull
    split
    · rename_i hder
      exact absurd ⟨hfull.1, hfull.2, hder⟩ refused
    · exact ⟨_, rfl⟩
  · exact ⟨_, rfl⟩

/-- A finalize leaves the staged bytes and counters as they are. -/
lemma credFinalize_staging (save : CredKind → Bool) (s : Store) (j : CredKind) :
    ((credFinalize save s).2.blob j).buf = (s.blob j).buf ∧
      ((credFinalize save s).2.blob j).staged = (s.blob j).staged ∧
      ((credFinalize save s).2.blob j).expected = (s.blob j).expected := by
  by_cases ready : Ready s
  · rw [credFinalize_ready ready, persist_store]
    exact foldl_saveOne_staging s _ j
  · obtain ⟨e, he⟩ := credFinalize_refused ready save
    rw [he]
    exact ⟨rfl, rfl, rfl⟩

lemma mem_saved_of_all {save : CredKind → Bool} {s : Store}
    (all : ∀ k, fullyStaged s k → save k) {k : CredKind} (hfull : fullyStaged s k) :
    k ∈ saved save s kinds := by
  have hwhile : saved save s kinds = kinds.filter (fullyStaged s) := by
    rw [saved, List.takeWhile_eq_self_iff]
    intro j hj
    exact all j (List.mem_filter.mp hj).2
  rw [hwhile]
  exact List.mem_filter.mpr ⟨mem_kinds k, hfull⟩

/-- A finalize that succeeds stores the staged bytes of every fully staged kind. -/
lemma credFinalize_ok {save : CredKind → Bool} {s : Store}
    (ok : (credFinalize save s).1 = .ok ()) {k : CredKind} (hfull : fullyStaged s k) :
    (credFinalize save s).2.settings k = some ((s.blob k).buf.take (s.blob k).staged) ∧
      ((credFinalize save s).2.blob k).len = (s.blob k).staged := by
  by_cases ready : Ready s
  · rw [credFinalize_ready ready] at ok ⊢
    have hall := fun j => (persist_ok_iff save s kinds).mp ok j (mem_kinds j)
    have hmem := mem_saved_of_all hall hfull
    rw [persist_store]
    obtain ⟨hset, hlen⟩ := foldl_saveOne s (saved save s kinds) k
    rw [if_pos hmem] at hset hlen
    exact ⟨hset, hlen⟩
  · obtain ⟨e, he⟩ := credFinalize_refused ready save
    rw [he] at ok
    cases ok

/-- A finalize returns zero exactly when it passes the checks and no save fails. -/
lemma credFinalize_ok_iff (save : CredKind → Bool) (s : Store) :
    (credFinalize save s).1 = .ok () ↔ Ready s ∧ ∀ k, fullyStaged s k → save k := by
  by_cases ready : Ready s
  · rw [credFinalize_ready ready, persist_ok_iff]
    exact ⟨fun h => ⟨ready, fun k => h k (mem_kinds k)⟩, fun h k _ => h.2 k⟩
  · obtain ⟨e, he⟩ := credFinalize_refused ready save
    rw [he]
    exact iff_of_false (by simp) fun h => ready h.1

/-- For every state and every pattern of save results, a finalize is atomic exactly when it
is refused before the first save, or no save of a fully staged kind fails, or every kind
saved before the first failure was already stored with the staged bytes. -/
theorem finalize_atomic_iff (save : CredKind → Bool) (s : Store) :
    FinalizeAtomic save s ↔
      ¬ Ready s ∨ (∀ k, fullyStaged s k → save k) ∨
        ∀ k ∈ saved save s kinds, AlreadyStored s k := by
  by_cases ready : Ready s
  · have hok := persist_ok_iff save s kinds
    have hfinal := credFinalize_ready ready save
    by_cases all : ∀ k, fullyStaged s k → save k
    · -- No save fails: everything fully staged is among the saved kinds.
      refine iff_of_true ?_ (Or.inr (Or.inl all))
      have hreturns : (credFinalize save s).1 = .ok () := by
        rw [hfinal]
        exact hok.mpr fun k _ => all k
      have hpair : credFinalize save s = (.ok (), (credFinalize save s).2) :=
        Prod.ext hreturns rfl
      rw [FinalizeAtomic, hpair]
      exact fun k hfull => credFinalize_ok hreturns hfull
    · -- A save fails: what was saved before it stays.
      have herr : ∃ e, (persist save kinds s).1 = .error e := by
        cases hres : (persist save kinds s).1 with
        | error e => exact ⟨e, rfl⟩
        | ok u => exact absurd (fun k => hok.mp hres k (mem_kinds k)) all
      obtain ⟨e, he⟩ := herr
      have hpair : credFinalize save s = (.error e, (saved save s kinds).foldl saveOne s) :=
        hfinal.trans (Prod.ext he (persist_store save s kinds))
      rw [FinalizeAtomic, hpair]
      simp only [foldl_saveOne_unchanged_iff, ready, all, not_true_eq_false, false_or]
  · obtain ⟨e, he⟩ := credFinalize_refused ready save
    rw [FinalizeAtomic, he]
    exact iff_of_true ⟨rfl, fun _ => rfl⟩ (Or.inl ready)

lemma FinalizeAtomic.of_error {save : CredKind → Bool} {s : Store}
    (atomic : FinalizeAtomic save s) {e : Errno} (failed : (credFinalize save s).1 = .error e) :
    (credFinalize save s).2.settings = s.settings := by
  rw [FinalizeAtomic] at atomic
  split at atomic
  · rename_i h
    rw [h]
    exact atomic.1
  · rename_i h
    rw [h] at failed
    cases failed

/-- A stored certificate and key, and a second pair staged over them. -/
def secondPair : Store :=
  [Op.stage 0 0 4 [0x30, 0x02, 0xaa, 0xbb], .stage 1 0 1 [0x01], .finalize (fun _ => true),
    .stage 0 0 4 [0x30, 0x02, 0xcc, 0xdd], .stage 1 0 1 [0x02]].foldl step (boot fun _ => none)

/-- When only the save of the private key fails, the finalize reports an error and leaves
the second certificate stored beside the first key. -/
theorem finalize_mixes_pairs :
    ¬ FinalizeAtomic (fun k => k ≠ .privateKey) secondPair ∧
      let s := (credFinalize (fun k => k ≠ .privateKey) secondPair).2
      s.settings .deviceCert = some [0x30, 0x02, 0xcc, 0xdd] ∧
        s.settings .privateKey = some [0x01] := by
  refine ⟨fun atomic => ?_, by decide, by decide⟩
  have hcert := congrFun (atomic.of_error (e := .eio) rfl) .deviceCert
  revert hcert
  decide

end CredRuns
