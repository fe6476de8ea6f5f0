import PouchProv.CredRuns
import Mathlib.Data.List.Induction

/-!
# The credential store inside its buffers

`cred_store.c` once more, with what the words of the target add: offsets and
totals are 32-bit words, sums of `size_t` wrap, and a reload may call `cred_set` with
any callback that stays within the size it is given. Each operation comes with the bytes of the
buffers that it touches. In every reachable state all of them lie inside
(`Access.Inside`), no sum has wrapped (`stage_eq`), and whether a chunk is accepted
is decided by the totals that were announced (`store_inside`).
-/

namespace CredBounds

open CredStore CredRuns Settings Status Runs

/-- A range of a kind's buffer that is read or written. -/
structure Access where
  kind : CredKind
  start : Nat
  count : Nat
  deriving DecidableEq, Repr

def Access.Inside (a : Access) : Prop := a.start + a.count ≤ cap a.kind

/-- The data of a chunk, as long as an `int` can count. -/
structure Chunk where
  bytes : Bytes
  short : bytes.length < 2 ^ 31

/-- `pouch_prov_cred_stage`, with the range of its `memcpy`. -/
def stage (kind : Int) (offset total : UInt32) (data : Chunk) (s : Store) :
    (Except Errno Nat × Store) × List Access :=
  match kindValid kind with
  | none => ((.error .einval, s), [])
  | some k =>
    if total.toNat > cap k then ((.error .emsgsize, s), [])
    else
      let b := if offset = 0 then { s.blob k with staged := 0, expected := total.toNat }
        else s.blob k
      let sum := (b.staged + data.bytes.length) % 2 ^ 32
      if offset.toNat ≠ b.staged ∨ sum > b.expected then ((.error .einval, s.setBlob k b), [])
      else
        ((.ok sum, s.setBlob k { b with buf := Bytes.writeAt b.buf b.staged data.bytes,
                                        staged := sum }),
          [⟨k, b.staged, data.bytes.length⟩])

/-- The indices that `der_sequence_len_ok` reads. -/
def derReads (buf : Bytes) (len : Nat) : List Nat :=
  if len < 4 then []
  else if buf[0]? ≠ some 0x30 then [0]
  else
    let lb := (buf.getD 1 0).toNat
    let nbytes := lb % 0x80
    if lb < 0x80 ∨ nbytes = 0 ∨ nbytes > 4 ∨ len < 2 + nbytes then [0, 1]
    else [0, 1] ++ (List.range nbytes).map (2 + ·)

/-- What the persist loop hands to `settings_save_one`. -/
def persistReads (save : CredKind → Bool) : List CredKind → Store → List Access
  | [], _ => []
  | k :: ks, s =>
    if fullyStaged s k then
      ⟨k, 0, (s.blob k).staged⟩ :: if save k then persistReads save ks (saveOne s k) else []
    else persistReads save ks s

def finalizeReads (save : CredKind → Bool) (s : Store) : List Access :=
  let cert := s.blob .deviceCert
  if fullyStaged s .deviceCert ∧ fullyStaged s .privateKey then
    (derReads cert.buf cert.staged).map (⟨.deviceCert, ·, 1⟩) ++
      if derSequenceLenOk cert.buf cert.staged then persistReads save kinds s else []
  else []

/-- `cred_set`, with the range that it gives to the callback. -/
def load (name : String) (len : Nat) (read : ReadCb) (s : Store) :
    (Except Errno Unit × Store) × List Access :=
  (credSet name len read s,
    match kinds.find? (fun k => name = leaf k) with
    | none => []
    | some k => if len > cap k then [] else [⟨k, 0, cap k⟩])

inductive Op where
  | stage (kind : Int) (offset total : UInt32) (data : Chunk)
  | finalize (save : CredKind → Bool)
  | deleteAll (del : CredKind → Bool)
  | load (name : String) (len : Nat) (read : ReadCb)

def step (s : Store) : Op → Store
  | .stage kind offset total data => (stage kind offset total data s).1.2
  | .finalize save => (credFinalize save s).2
  | .deleteAll del => credDeleteAll del s
  | .load name len read => (load name len read s).1.2

def touches (s : Store) : Op → List Access
  | .stage kind offset total data => (stage kind offset total data s).2
  | .finalize save => finalizeReads save s
  | .deleteAll _ => []
  | .load name len read => (load name len read s).2

lemma eq_zero_iff (offset : UInt32) : offset = 0 ↔ offset.toNat = 0 := by
  rw [← UInt32.toNat_inj]
  rfl

/-- With the counters inside the buffer no sum wraps, and the chunk is copied exactly where
`Accepts` allows it. -/
theorem stage_eq {s : Store} (wf : Wf s) (kind : Int) (offset total : UInt32) (data : Chunk) :
    stage kind offset total data s =
      (credStage kind offset.toNat total.toNat data.bytes s,
        match kindValid kind, (credStage kind offset.toNat total.toNat data.bytes s).1 with
        | some k, .ok _ => [⟨k, offset.toNat, data.bytes.length⟩]
        | _, _ => []) := by
  have hzero := eq_zero_iff offset
  cases hk : kindValid kind with
  | none => simp only [stage, credStage, hk]
  | some k =>
    by_cases hcap : total.toNat > cap k
    · simp only [stage, credStage, hk, if_pos hcap]
    · have hopen : (opened s k offset.toNat total.toNat).staged ≤ 2048 := by
        have hwf := opened_wf wf offset.toNat (Nat.le_of_not_lt hcap)
        have hle := Nat.le_trans hwf.staged_le hwf.expected_le
        cases k <;> simp only [cap] at hle <;> omega
      have hb : (if offset = 0 then { s.blob k with staged := 0, expected := total.toNat }
          else s.blob k) = opened s k offset.toNat total.toNat := by
        simp only [opened, hzero]
      have hsum : ((opened s k offset.toNat total.toNat).staged + data.bytes.length) % 2 ^ 32 =
          (opened s k offset.toNat total.toNat).staged + data.bytes.length := by
        have hshort := data.short
        exact Nat.mod_eq_of_lt (by omega)
      have hb' : (if offset.toNat = 0 then { s.blob k with staged := 0, expected := total.toNat }
          else s.blob k) = opened s k offset.toNat total.toNat := rfl
      simp only [stage, credStage, hk, if_neg hcap, hb, hb', hsum]
      split
      · rfl
      · rename_i hnext
        push Not at hnext
        rw [← hnext.1]

lemma derReads_lt {buf : Bytes} {len i : Nat} (h : i ∈ derReads buf len) : i < len := by
  rw [derReads] at h
  split at h
  · simp at h
  · split at h
    · simp only [List.mem_singleton] at h
      omega
    · simp only [] at h
      split at h
      · simp only [List.mem_cons, List.not_mem_nil, or_false] at h
        omega
      · simp only [List.mem_append, List.mem_cons, List.mem_map, List.mem_range,
          List.not_mem_nil, or_false] at h
        omega

lemma persistReads_inside {save : CredKind → Bool} {ks : List CredKind} {s : Store} (wf : Wf s)
    {a : Access} (h : a ∈ persistReads save ks s) : a.Inside := by
  induction ks generalizing s with
  | nil => simp [persistReads] at h
  | cons k ks ih =>
    rw [persistReads] at h
    split at h
    · rcases List.mem_cons.mp h with rfl | hmore
      · have hle := Nat.le_trans (wf k).staged_le (wf k).expected_le
        simpa [Access.Inside] using hle
      · split at hmore
        · exact ih (saveOne_wf wf k) hmore
        · simp at hmore
    · exact ih wf h

lemma finalizeReads_inside {save : CredKind → Bool} {s : Store} (wf : Wf s) {a : Access}
    (h : a ∈ finalizeReads save s) : a.Inside := by
  simp only [finalizeReads] at h
  split at h
  · rcases List.mem_append.mp h with hder | hpersist
    · obtain ⟨i, hi, rfl⟩ := List.mem_map.mp hder
      have hlt := derReads_lt hi
      have hle := Nat.le_trans (wf .deviceCert).staged_le (wf .deviceCert).expected_le
      exact Nat.le_trans hlt hle
    · split at hpersist
      · exact persistReads_inside wf hpersist
      · simp at hpersist
  · simp at h

lemma stage_inside {s : Store} (wf : Wf s) {kind : Int} {offset total : UInt32} {data : Chunk}
    {a : Access} (h : a ∈ (stage kind offset total data s).2) : a.Inside := by
  rw [stage_eq wf] at h
  obtain ⟨hk, hres⟩ | ⟨k, hk, ⟨_, hres⟩ | ⟨_, _, hres⟩ | ⟨accepts, hres⟩⟩ :=
    credStage_cases kind offset.toNat total.toNat data.bytes s
  · simp [hk] at h
  · simp [hk, hres] at h
  · simp [hk, hres] at h
  · simp only [hk, hres, List.mem_singleton] at h
    subst h
    have hinside := (accepts_inside wf accepts).2
    rwa [(wf k).size] at hinside

lemma load_inside {name : String} {len : Nat} {read : ReadCb} {s : Store} {a : Access}
    (h : a ∈ (load name len read s).2) : a.Inside := by
  simp only [load] at h
  split at h
  · simp at h
  · split at h
    · simp at h
    · simp only [List.mem_singleton] at h
      subst h
      exact Nat.le_of_eq (Nat.zero_add _)

theorem touches_inside {s : Store} (wf : Wf s) (op : Op) : ∀ a ∈ touches s op, a.Inside := by
  intro a h
  cases op with
  | stage kind offset total data => exact stage_inside wf h
  | finalize save => exact finalizeReads_inside wf h
  | deleteAll del => simp [touches] at h
  | load name len read => exact load_inside h

lemma load_wf {s : Store} (wf : Wf s) (name : String) (len : Nat) (read : ReadCb) :
    Wf (load name len read s).1.2 := by
  simp only [load, credSet]
  split
  · exact wf
  · rename_i k _
    split
    · exact wf
    · have hin : 0 + (read.written (cap k)).length ≤ (s.blob k).buf.length := by
        have hsize := (wf k).size
        have hwritten := read.written_le (cap k)
        omega
      have hsize := (Bytes.writeAt_length hin).trans (wf k).size
      split
      · exact setBlob_wf wf ⟨hsize, (wf k).len_le, (wf k).staged_le, (wf k).expected_le⟩
      · rename_i rc hrc
        exact setBlob_wf wf
          ⟨hsize, read.result_le _ rc hrc, (wf k).staged_le, (wf k).expected_le⟩

lemma load_staging (name : String) (len : Nat) (read : ReadCb) (s : Store) (k : CredKind) :
    ((load name len read s).1.2.blob k).staged = (s.blob k).staged ∧
      ((load name len read s).1.2.blob k).expected = (s.blob k).expected := by
  simp only [load, credSet]
  split
  · exact ⟨rfl, rfl⟩
  · rename_i j _
    split
    · exact ⟨rfl, rfl⟩
    · split
      all_goals
        by_cases hj : k = j
        · subst hj
          simp
        · rw [setBlob_other _ _ hj]
          exact ⟨rfl, rfl⟩

theorem step_wf {s : Store} (wf : Wf s) (op : Op) : Wf (step s op) := by
  cases op with
  | stage kind offset total data =>
    rw [step, stage_eq wf]
    exact credStage_wf wf kind offset.toNat total.toNat data.bytes
  | finalize save => exact credFinalize_wf save wf
  | deleteAll del => exact CredRuns.step_wf wf (.deleteAll del)
  | load name len read => exact load_wf wf name len read

/-- The total that an operation announces for a kind: that of a chunk with offset zero that
passes the capacity check. -/
def announces (k : CredKind) : Op → Option Nat
  | .stage kind offset total _ =>
    if kindValid kind = some k ∧ offset = 0 ∧ total.toNat ≤ cap k then some total.toNat else none
  | _ => none

/-- The total announced last. -/
def announced (k : CredKind) (ops : List Op) : Option Nat :=
  (ops.filterMap (announces k)).getLast?

lemma announced_append (k : CredKind) (ops : List Op) (op : Op) :
    announced k (ops ++ [op]) = (announces k op).or (announced k ops) := by
  cases h : announces k op with
  | none => simp [announced, h]
  | some total => simp [announced, h]

/-- While bytes of a kind are staged, the total checked against is the one announced last. -/
def Tracks (ops : List Op) (s : Store) : Prop :=
  ∀ k, (s.blob k).staged ≠ 0 → announced k ops = some (s.blob k).expected

lemma tracks_quiet {ops : List Op} {s s' : Store} {op : Op} (tracks : Tracks ops s)
    (quiet : ∀ k, announces k op = none)
    (same : ∀ k, (s'.blob k).staged = (s.blob k).staged ∧
      (s'.blob k).expected = (s.blob k).expected) : Tracks (ops ++ [op]) s' := by
  intro k hstaged
  rw [(same k).1] at hstaged
  rw [announced_append, quiet k, (same k).2]
  exact tracks k hstaged

lemma stage_tracks {ops : List Op} {s : Store} (wf : Wf s) (tracks : Tracks ops s) (kind : Int)
    (offset total : UInt32) (data : Chunk) :
    Tracks (ops ++ [.stage kind offset total data]) (stage kind offset total data s).1.2 := by
  rw [stage_eq wf]
  have hzero := eq_zero_iff offset
  obtain ⟨hk, hres⟩ | ⟨k, hk, ⟨hcap, hres⟩ | ⟨hcap, _, hres⟩ | ⟨accepts, hres⟩⟩ :=
    credStage_cases kind offset.toNat total.toNat data.bytes s
  · rw [hres]
    exact tracks_quiet tracks (fun j => by simp [announces, hk]) fun j => ⟨rfl, rfl⟩
  · rw [hres]
    refine tracks_quiet tracks (fun j => ?_) fun j => ⟨rfl, rfl⟩
    simp only [announces, hk, Option.some.injEq, ite_eq_right_iff, and_imp]
    rintro rfl - hle
    omega
  · -- A refused chunk leaves nothing staged if it restarted the write, else it changes nothing.
    rw [hres]
    by_cases hstart : offset = 0
    · intro j hstaged
      by_cases hj : j = k
      · subst hj
        simp [opened, hzero.mp hstart] at hstaged
      · rw [setBlob_other _ _ hj] at hstaged ⊢
        rw [announced_append, announces, hk, if_neg (by simpa using fun h => absurd h.symm hj)]
        exact tracks j hstaged
    · have hsame : s.setBlob k (opened s k offset.toNat total.toNat) = s := by
        rw [opened, if_neg (fun h => hstart (hzero.mpr h))]
        simp [Store.setBlob]
      rw [hsame]
      exact tracks_quiet tracks (fun j => by simp [announces, hstart]) fun j => ⟨rfl, rfl⟩
  · rw [hres]
    intro j hstaged
    by_cases hj : j = k
    · subst hj
      rw [setBlob_self, announced_append, announces]
      by_cases hstart : offset = 0
      · rw [if_pos ⟨hk, hstart, accepts.1⟩]
        simp [opened, hzero.mp hstart]
      · -- An accepted chunk that does not start the write finds bytes staged.
        have hopened : opened s j offset.toNat total.toNat = s.blob j := by
          rw [opened, if_neg (fun h => hstart (hzero.mpr h))]
        have hne : offset.toNat ≠ 0 := fun h => hstart (hzero.mpr h)
        obtain ⟨-, ⟨h0, -⟩ | ⟨-, hnext, -⟩⟩ := accepts
        · exact absurd h0 hne
        · rw [if_neg (fun h => hstart h.2.1), hopened]
          exact tracks j (by rwa [← hnext])
    · rw [setBlob_other _ _ hj] at hstaged ⊢
      rw [announced_append, announces, hk, if_neg (by simpa using fun h => absurd h.symm hj)]
      exact tracks j hstaged

theorem step_tracks {ops : List Op} {s : Store} (wf : Wf s) (tracks : Tracks ops s) (op : Op) :
    Tracks (ops ++ [op]) (step s op) := by
  cases op with
  | stage kind offset total data => exact stage_tracks wf tracks kind offset total data
  | finalize save =>
    refine tracks_quiet tracks (fun k => rfl) fun k => ?_
    exact (credFinalize_staging save s k).2
  | deleteAll del =>
    intro k hstaged
    exact absurd rfl hstaged
  | load name len read =>
    exact tracks_quiet tracks (fun k => rfl) fun k => load_staging name len read s k

theorem run_tracks (settings : CredKind → Option Bytes) (ops : List Op) :
    Wf (ops.foldl step (boot settings)) ∧ Tracks ops (ops.foldl step (boot settings)) := by
  -- Induction from the end: the last operation is added to a run of which both are known.
  induction ops using List.reverseRecOn with
  | nil => exact ⟨boot_wf settings, fun k h => absurd rfl h⟩
  | append_singleton ops op ih =>
    rw [List.foldl_append]
    exact ⟨step_wf ih.1 op, step_tracks ih.1 ih.2 op⟩

/-- What the store accepts, by the totals announced. -/
lemma stage_ok_iff {ops : List Op} {s : Store} (wf : Wf s) (tracks : Tracks ops s) (kind : Int)
    (offset total : UInt32) (data : Chunk) :
    (∃ staged, (stage kind offset total data s).1.1 = .ok staged) ↔
      ∃ k, kindValid kind = some k ∧ total.toNat ≤ cap k ∧
        (offset = 0 ∧ data.bytes.length ≤ total.toNat ∨
          offset ≠ 0 ∧ offset.toNat = (s.blob k).staged ∧
            ∃ whole, announced k ops = some whole ∧
              offset.toNat + data.bytes.length ≤ whole) := by
  have hzero := eq_zero_iff offset
  have haccepts : ∀ k, Accepts s k offset.toNat total.toNat data.bytes ↔ total.toNat ≤ cap k ∧
      (offset = 0 ∧ data.bytes.length ≤ total.toNat ∨
        offset ≠ 0 ∧ offset.toNat = (s.blob k).staged ∧
          ∃ whole, announced k ops = some whole ∧ offset.toNat + data.bytes.length ≤ whole) := by
    intro k
    simp only [Accepts, hzero, ne_eq]
    refine and_congr_right fun _ => or_congr_right (and_congr_right fun hne =>
      and_congr_right fun hnext => ?_)
    have hwhole := tracks k (by rwa [← hnext])
    simp [hwhole]
  rw [stage_eq wf]
  obtain ⟨hk, hres⟩ | ⟨k, hk, hcases⟩ :=
    credStage_cases kind offset.toNat total.toNat data.bytes s
  · simp [hk, hres]
  · simp only [hk, Option.some.injEq, exists_eq_left', ← haccepts]
    obtain ⟨hcap, hres⟩ | ⟨_, hnot, hres⟩ | ⟨haccept, hres⟩ := hcases
    · rw [hres]
      exact ⟨fun h => absurd h (by simp), fun h => absurd h.1 (by omega)⟩
    · rw [hres]
      exact ⟨fun h => absurd h (by simp), fun h => absurd h hnot⟩
    · rw [hres]
      exact ⟨fun _ => haccept, fun _ => ⟨_, rfl⟩⟩

/-- In every reachable state the counters of every kind are within its buffer, whatever comes
next stays inside the buffers, and a chunk is accepted exactly when it is in order and within
the total announced for its kind. -/
theorem store_inside (settings : CredKind → Option Bytes) (ops : List Op) :
    (∀ k, ((ops.foldl step (boot settings)).blob k).staged ≤
        ((ops.foldl step (boot settings)).blob k).expected ∧
      ((ops.foldl step (boot settings)).blob k).expected ≤ cap k ∧
      ((ops.foldl step (boot settings)).blob k).len ≤ cap k) ∧
    (∀ op, ∀ a ∈ touches (ops.foldl step (boot settings)) op, a.Inside) ∧
    ∀ kind offset total data,
      (∃ staged, (stage kind offset total data (ops.foldl step (boot settings))).1.1 =
          .ok staged) ↔
        ∃ k, kindValid kind = some k ∧ total.toNat ≤ cap k ∧
          (offset = 0 ∧ data.bytes.length ≤ total.toNat ∨
            offset ≠ 0 ∧ offset.toNat = ((ops.foldl step (boot settings)).blob k).staged ∧
              ∃ whole, announced k ops = some whole ∧
                offset.toNat + data.bytes.length ≤ whole) := by
  obtain ⟨hwf, htracks⟩ := run_tracks settings ops
  refine ⟨fun k => ⟨(hwf k).staged_le, (hwf k).expected_le, (hwf k).len_le⟩,
    touches_inside hwf, ?_⟩
  intro kind offset total data
  exact stage_ok_iff hwf htracks kind offset total data

end CredBounds
