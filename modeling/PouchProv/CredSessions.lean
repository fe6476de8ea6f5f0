import PouchProv.CredRuns
import PouchProv.Device

/-!
# Credential writes across sessions

Calls of the credential store between the calls of the manager that begin and
end sessions. A history records, newest first, the chunks that were accepted and
the boundaries between sessions; no function reads it. What one call does to the
blob of one kind is said once, in `call_moves`.
-/

namespace CredSessions

open CredStore CredRuns Device Handlers Settings Status Runs

inductive Op where
  | stage (kind : Int) (offset total : Nat) (data : Bytes)
  | finalize (save : CredKind → Bool)
  | deleteAll (del : CredKind → Bool)
  | sessionEnded
  | mgrStart (w : World)
  | mgrStop

def call (build : Build) (d : Dev) : Op → Dev
  | .stage kind offset total data =>
    { d with cred := (credStage kind offset total data d.cred).2 }
  | .finalize save => { d with cred := (credFinalize save d.cred).2 }
  | .deleteAll del => { d with cred := credDeleteAll del d.cred }
  | .sessionEnded => mgrSessionEnded build d
  | .mgrStart w => (mgrStart build w d).2
  | .mgrStop => (mgrStop build d).2

/-- An accepted chunk, or the boundary between two sessions. -/
inductive Mark where
  | chunk (k : CredKind) (offset total : Nat) (data : Bytes)
  | boundary
  deriving DecidableEq, Repr

def isBoundary : Mark → Bool
  | .boundary => true
  | _ => false

/-- What a call records. A session ends with the link, with a start of the manager that gets
as far as resetting the session, and with a finalize that succeeds. -/
def marks (d : Dev) : Op → List Mark
  | .stage kind offset total data =>
    match kindValid kind, (credStage kind offset total data d.cred).1 with
    | some k, .ok _ => [.chunk k offset total data]
    | _, _ => []
  | .finalize save => if (credFinalize save d.cred).1.isOk then [.boundary] else []
  | .sessionEnded => [.boundary]
  | .mgrStart w => if d.running = false ∧ w.bt then [.boundary] else []
  | _ => []

structure Life where
  dev : Dev
  history : List Mark

def next (build : Build) (s : Life) (op : Op) : Life :=
  ⟨call build s.dev op, marks s.dev op ++ s.history⟩

def start (build : Build) (connAttempts : UInt32) (settings : CredKind → Option Bytes)
    (read : CredKind → Read) (creds : List WifiConfig.Credential) : Life :=
  ⟨init build connAttempts settings read creds, []⟩

/-- A write as the client sent it. -/
structure Write where
  total : Nat
  data : Bytes
  deriving DecidableEq, Repr

/-- The total that the last accepted chunk with offset zero announced, and the data of the
chunks accepted since, in order. -/
def lastWrite (k : CredKind) : List Mark → Option Write
  | [] => none
  | .chunk j offset total data :: h =>
    if j = k then
      if offset = 0 then some ⟨total, data⟩
      else (lastWrite k h).map fun w => { w with data := w.data ++ data }
    else lastWrite k h
  | .boundary :: h => lastWrite k h

/-- Since the last boundary a chunk with offset zero was accepted for the kind. -/
def Begun (k : CredKind) (h : List Mark) : Prop :=
  ∃ total data, .chunk k 0 total data ∈ since isBoundary h

lemma lastWrite_since {k : CredKind} {h : List Mark} (begun : Begun k h) :
    lastWrite k (since isBoundary h) = lastWrite k h := by
  obtain ⟨total, data, hmem⟩ := begun
  induction h with
  | nil => simp [since] at hmem
  | cons m h ih =>
    cases m with
    | boundary => simp [since, isBoundary] at hmem
    | chunk j offset total' data' =>
      rw [since_cons rfl] at hmem ⊢
      simp only [lastWrite]
      split
      · split
        · rfl
        · rename_i hne
          rcases List.mem_cons.mp hmem with heq | hmem
          · exact absurd (Mark.chunk.inj heq).2.1.symm hne
          · rw [ih hmem]
      · rename_i hother
        rcases List.mem_cons.mp hmem with heq | hmem
        · exact absurd (Mark.chunk.inj heq).1.symm hother
        · exact ih hmem

lemma begun_of_lastWrite {k : CredKind} {h : List Mark} {w : Write}
    (hw : lastWrite k (since isBoundary h) = some w) : Begun k h := by
  have hmem : ∀ l : List Mark, ∀ w, lastWrite k l = some w →
      ∃ total data, .chunk k 0 total data ∈ l := by
    intro l
    induction l with
    | nil => simp [lastWrite]
    | cons m l ih =>
      intro w hw
      cases m with
      | boundary =>
        obtain ⟨total, data, h⟩ := ih w hw
        exact ⟨total, data, List.mem_cons_of_mem _ h⟩
      | chunk j offset total data =>
        simp only [lastWrite] at hw
        split at hw
        · rename_i hj
          subst hj
          split at hw
          · rename_i hzero
            subst hzero
            exact ⟨total, data, List.mem_cons_self⟩
          · obtain ⟨w', hw', -⟩ := Option.map_eq_some_iff.mp hw
            obtain ⟨total, data, h⟩ := ih w' hw'
            exact ⟨total, data, List.mem_cons_of_mem _ h⟩
        · obtain ⟨total, data, h⟩ := ih w hw
          exact ⟨total, data, List.mem_cons_of_mem _ h⟩
  exact hmem _ w hw

/-- A reload of the settings happens. -/
def Reloads (build : Build) (d : Dev) : Op → Option World
  | .mgrStart w => if d.running = false ∧ w.bt ∧ build.cred then some w else none
  | _ => none

/-- What a call can make of the blob of a kind and of the write recorded for it. -/
inductive Moves (build : Build) (s : Life) (op : Op) (k : CredKind) : Blob → Option Write → Prop
  | keeps {b : Blob} (buf : b.buf = (s.dev.cred.blob k).buf)
      (staged : b.staged = (s.dev.cred.blob k).staged)
      (expected : b.expected = (s.dev.cred.blob k).expected) :
      Moves build s op k b (lastWrite k s.history)
  | clears {b : Blob} (staged : b.staged = 0) : Moves build s op k b (lastWrite k s.history)
  | begins {b : Blob} (total : Nat) (data : Bytes)
      (buf : b.buf = Bytes.writeAt (s.dev.cred.blob k).buf 0 data)
      (staged : b.staged = data.length) (expected : b.expected = total) :
      Moves build s op k b (some ⟨total, data⟩)
  | continues {b : Blob} (data : Bytes) (opened : (s.dev.cred.blob k).staged ≠ 0)
      (buf : b.buf =
        Bytes.writeAt (s.dev.cred.blob k).buf (s.dev.cred.blob k).staged data)
      (staged : b.staged = (s.dev.cred.blob k).staged + data.length)
      (expected : b.expected = (s.dev.cred.blob k).expected) :
      Moves build s op k b ((lastWrite k s.history).map fun w => { w with data := w.data ++ data })
  | reloads {b : Blob} (w : World) (value : Bytes) (reload : Reloads build s.dev op = some w)
      (stored : s.dev.cred.settings k = some value) (fits : value.length ≤ cap k)
      (buf : b.buf = Bytes.writeAt (s.dev.cred.blob k).buf 0
        (((w.read k).written value).take (cap k)))
      (staged : b.staged = (s.dev.cred.blob k).staged)
      (expected : b.expected = (s.dev.cred.blob k).expected) :
      Moves build s op k b (lastWrite k s.history)

section Call

variable {build : Build} {s : Life}

lemma stage_moves (kind : Int) (offset total : Nat) (data : Bytes) (k : CredKind) :
    Moves build s (.stage kind offset total data) k
      ((next build s (.stage kind offset total data)).dev.cred.blob k)
      (lastWrite k (next build s (.stage kind offset total data)).history) := by
  simp only [next, call, marks]
  obtain ⟨hk, h⟩ | ⟨j, hk, ⟨_, h⟩ | ⟨_, _, h⟩ | ⟨accepts, h⟩⟩ :=
    credStage_cases kind offset total data s.dev.cred
  · rw [h, hk]
    exact .keeps rfl rfl rfl
  · rw [h, hk]
    exact .keeps rfl rfl rfl
  · rw [h, hk]
    by_cases hkj : k = j
    · subst hkj
      rw [setBlob_self, opened]
      split
      · exact .clears rfl
      · exact .keeps rfl rfl rfl
    · rw [setBlob_other _ _ hkj]
      exact .keeps rfl rfl rfl
  · rw [h, hk]
    by_cases hkj : k = j
    · subst hkj
      obtain ⟨_, ⟨rfl, _⟩ | ⟨hne, hnext, _⟩⟩ := accepts
      · have hwrite : lastWrite k ([.chunk k 0 total data] ++ s.history) =
            some ⟨total, data⟩ := by simp [lastWrite]
        simp only [setBlob_self, hwrite]
        exact .begins total data rfl (Nat.zero_add _) (by simp [opened])
      · have hwrite : lastWrite k ([.chunk k offset total data] ++ s.history) =
            (lastWrite k s.history).map fun w => { w with data := w.data ++ data } := by
          simp [lastWrite, hne]
        simp only [setBlob_self, hwrite]
        exact .continues data (hnext ▸ hne) (by rw [hnext]) (by rw [hnext])
          (by simp [opened, hne])
    · have hwrite : lastWrite k ([.chunk j offset total data] ++ s.history) =
          lastWrite k s.history := by simp [lastWrite, Ne.symm hkj]
      simp only [setBlob_other _ _ hkj, hwrite]
      exact .keeps rfl rfl rfl

/-- Every call makes one of these moves for every kind. -/
theorem call_moves (build : Build) (s : Life) (op : Op) (k : CredKind) :
    Moves build s op k ((next build s op).dev.cred.blob k)
      (lastWrite k (next build s op).history) := by
  cases op with
  | stage kind offset total data => exact stage_moves kind offset total data k
  | finalize save =>
    have hwrite : lastWrite k (next build s (.finalize save)).history = lastWrite k s.history := by
      simp only [next, marks]
      split <;> rfl
    rw [hwrite]
    obtain ⟨hbuf, hstaged, hexpected⟩ := credFinalize_staging save s.dev.cred k
    exact .keeps hbuf hstaged hexpected
  | deleteAll del => exact .clears rfl
  | sessionEnded => exact .keeps rfl rfl rfl
  | mgrStop =>
    simp only [next, call, mgrStop]
    split <;> exact .keeps rfl rfl rfl
  | mgrStart w =>
    have hwrite : lastWrite k (next build s (.mgrStart w)).history = lastWrite k s.history := by
      simp only [next, marks]
      split <;> rfl
    rw [hwrite]
    have hcred : (next build s (.mgrStart w)).dev.cred = _ := mgrStart_cred build w s.dev
    rw [hcred]
    split
    · rename_i hreload
      rw [settingsLoad_eq]
      simp only [loaded]
      split
      · exact .keeps rfl rfl rfl
      · rename_i value hstored
        split
        · rename_i hfits
          exact .reloads w value (if_pos hreload) hstored hfits rfl rfl rfl
        · exact .keeps rfl rfl rfl
    · exact .keeps rfl rfl rfl

lemma next_wf (wf : Wf s.dev.cred) (op : Op) : Wf (next build s op).dev.cred := by
  cases op with
  | stage kind offset total data => exact step_wf wf (.stage kind offset total data)
  | finalize save => exact step_wf wf (.finalize save)
  | deleteAll del => exact step_wf wf (.deleteAll del)
  | sessionEnded => exact wf
  | mgrStop =>
    simp only [next, call, mgrStop]
    split <;> exact wf
  | mgrStart w =>
    have hcred : (next build s (.mgrStart w)).dev.cred = _ := mgrStart_cred build w s.dev
    rw [hcred]
    split
    · exact step_wf wf (.reload w.read)
    · exact wf

/-- The counters of a blob with staged bytes are those of the recorded write. -/
def Counts (b : Blob) (write : Option Write) : Prop :=
  b.staged ≠ 0 → ∃ w, write = some w ∧ w.total = b.expected ∧ w.data.length = b.staged

/-- The staged bytes are the data of the recorded write. -/
def Holds (b : Blob) (write : Option Write) : Prop :=
  ∀ w, write = some w → b.staged ≠ 0 → w.data = b.buf.take b.staged

lemma Moves.counts {op : Op} {k : CredKind} {b : Blob} {write : Option Write}
    (h : Moves build s op k b write)
    (before : Counts (s.dev.cred.blob k) (lastWrite k s.history)) : Counts b write := by
  cases h with
  | keeps buf staged expected =>
    rw [Counts, staged, expected]
    exact before
  | clears staged => exact fun hne => absurd staged hne
  | begins total data buf staged expected =>
    exact fun _ => ⟨⟨total, data⟩, rfl, expected.symm, staged.symm⟩
  | continues data opened buf staged expected =>
    intro _
    obtain ⟨w, hw, htotal, hlen⟩ := before opened
    refine ⟨{ w with data := w.data ++ data }, by rw [hw]; rfl, htotal.trans expected.symm, ?_⟩
    simp only [List.length_append]
    rw [hlen, staged]
  | reloads w value reload stored fits buf staged expected =>
    rw [Counts, staged, expected]
    exact before

/-- A reload of the settings writes no different byte below a staged length, neither when it
reads the stored value nor when it fails. -/
def KeepsStaged (build : Build) (s : Life) (op : Op) : Prop :=
  ∀ w k value, Reloads build s.dev op = some w → s.dev.cred.settings k = some value →
    value.length ≤ cap k →
    Agrees ((w.read k).written value) (s.dev.cred.blob k).buf (s.dev.cred.blob k).staged

lemma Moves.holds {op : Op} {k : CredKind} {b : Blob} {write : Option Write}
    (h : Moves build s op k b write) (wf : Wf s.dev.cred) (keeps : KeepsStaged build s op)
    (before : Holds (s.dev.cred.blob k) (lastWrite k s.history)) : Holds b write := by
  have hinside : (s.dev.cred.blob k).staged ≤ (s.dev.cred.blob k).buf.length := by
    rw [(wf k).size]
    exact Nat.le_trans (wf k).staged_le (wf k).expected_le
  cases h with
  | keeps buf staged expected =>
    rw [Holds, staged, buf]
    exact before
  | clears staged => exact fun _ _ hne => absurd staged hne
  | begins total data buf staged expected =>
    rintro w hw -
    obtain rfl := Option.some.inj hw
    have htake := @Bytes.take_writeAt _ data _ (Nat.zero_le (s.dev.cred.blob k).buf.length)
    rw [Nat.zero_add, List.take_zero, List.nil_append] at htake
    rw [buf, staged, htake]
  | continues data opened buf staged expected =>
    rintro w hw -
    obtain ⟨w', hw', rfl⟩ := Option.map_eq_some_iff.mp hw
    rw [buf, staged, Bytes.take_writeAt hinside, before w' hw' opened]
  | reloads w value reload stored fits buf staged expected =>
    rw [Holds, staged, buf, take_of_agrees (keeps w k value reload stored fits)]
    exact before

end Call

/-- The part of the invariant that no call can break. -/
structure Counted (s : Life) : Prop where
  wf : Wf s.dev.cred
  counts : ∀ k, Counts (s.dev.cred.blob k) (lastWrite k s.history)

lemma next_counted {build : Build} {s : Life} (h : Counted s) (op : Op) :
    Counted (next build s op) :=
  ⟨next_wf h.wf op, fun k => (call_moves build s op k).counts (h.counts k)⟩

lemma init_cred_wf (build : Build) (connAttempts : UInt32) (settings : CredKind → Option Bytes)
    (read : CredKind → Read) (creds : List WifiConfig.Credential) :
    Wf (init build connAttempts settings read creds).cred ∧
      ∀ k, ((init build connAttempts settings read creds).cred.blob k).staged = 0 := by
  simp only [init]
  split
  · refine ⟨step_wf (boot_wf settings) (.reload read), fun k => ?_⟩
    simp only [settingsLoad_eq, loaded_staging]
    rfl
  · exact ⟨boot_wf settings, fun k => rfl⟩

lemma start_counted (build : Build) (connAttempts : UInt32) (settings : CredKind → Option Bytes)
    (read : CredKind → Read) (creds : List WifiConfig.Credential) :
    Counted (start build connAttempts settings read creds) := by
  obtain ⟨hwf, hstaged⟩ := init_cred_wf build connAttempts settings read creds
  exact ⟨hwf, fun k hne => absurd (hstaged k) hne⟩

/-- A finalize that returns zero has stored, for each kind it persisted, the data of the
accepted chunks of the last write, as many bytes as that write announced. -/
def StoresWhatWasSent (s : Life) : Op → Prop
  | .finalize save =>
    (credFinalize save s.dev.cred).1 = .ok () → ∀ k, fullyStaged s.dev.cred k →
      ∃ w, lastWrite k s.history = some w ∧
        (credFinalize save s.dev.cred).2.settings k = some w.data ∧ w.data.length = w.total
  | _ => True

/-- The write of a fully staged kind is complete. -/
lemma Counted.complete {s : Life} (h : Counted s) {k : CredKind}
    (full : fullyStaged s.dev.cred k) :
    ∃ w, lastWrite k s.history = some w ∧ w.data.length = w.total := by
  simp only [fullyStaged, decide_eq_true_eq] at full
  obtain ⟨w, hw, htotal, hlen⟩ := h.counts k full.1
  exact ⟨w, hw, by rw [hlen, htotal, full.2]⟩

/-- In a run in which no restart of the manager reads other bytes under a write that is under
way, whether its reads fail or not, a finalize stores exactly what was sent. -/
theorem finalize_stores_what_was_sent (build : Build) (connAttempts : UInt32)
    (settings : CredKind → Option Bytes) (read : CredKind → Read)
    (creds : List WifiConfig.Credential) (ops : List Op)
    (keeps : Each (next build) (KeepsStaged build) (start build connAttempts settings read creds)
      ops) :
    Each (next build) StoresWhatWasSent (start build connAttempts settings read creds) ops := by
  have hstart : ∀ k, Holds ((start build connAttempts settings read creds).dev.cred.blob k)
      (lastWrite k []) := fun k w hw => by simp [lastWrite] at hw
  refine each_of_each
    (I := fun s => Counted s ∧ ∀ k, Holds (s.dev.cred.blob k) (lastWrite k s.history))
    ?_ ?_ ⟨start_counted _ _ _ _ _, hstart⟩ keeps
  · rintro s op ⟨hcounted, hholds⟩ hkeeps
    refine ⟨next_counted hcounted op, fun k => ?_⟩
    exact (call_moves build s op k).holds hcounted.wf hkeeps (hholds k)
  · rintro s op ⟨hcounted, hholds⟩ -
    cases op with
    | finalize save =>
      intro hok k hfull
      obtain ⟨w, hw, hlen⟩ := hcounted.complete hfull
      refine ⟨w, hw, ?_, hlen⟩
      have hstaged : (s.dev.cred.blob k).staged ≠ 0 := by
        simp only [fullyStaged, decide_eq_true_eq] at hfull
        exact hfull.1
      rw [(credFinalize_ok hok hfull).1, hholds k w hw hstaged]
    | _ => trivial

/-- A certificate and a key, each in one chunk. -/
def pair (cert key : Bytes) : List Op :=
  [.stage 0 0 cert.length cert, .stage 1 0 key.length key]

def allSaved : Op := .finalize fun _ => true

def firstPair : List Op := pair [0x30, 0x02, 0xaa, 0xbb] [0x01] ++ [allSaved]

def sampleBuild : Build := ⟨true, true, true, false, 512, 16, false⟩

def sampleStart : Life := start sampleBuild 1 (fun _ => none) (fun _ => .whole) []

lemma keepsStaged_of_no_reload {build : Build} {s : Life} {op : Op}
    (none : Reloads build s.dev op = none) : KeepsStaged build s op := by
  intro w k value hreload
  rw [none] at hreload
  cases hreload

/-- The read of the certificate fails after one byte. -/
def interrupted : World where
  read
    | .deviceCert => .failed [0x30]
    | _ => .whole

/-- The first two bytes of a second certificate are those of the first. The manager is started
before the others arrive, and reads the key again and a byte of the first certificate. -/
def sharedStart : List Op :=
  firstPair ++ [.stage 0 0 4 [0x30, 0x02], .mgrStart interrupted, .stage 0 2 4 [0xcc, 0xdd],
    allSaved]

lemma sharedStart_keeps :
    Each (next sampleBuild) (KeepsStaged sampleBuild) sampleStart sharedStart := by
  refine ⟨keepsStaged_of_no_reload rfl, keepsStaged_of_no_reload rfl, keepsStaged_of_no_reload rfl,
    keepsStaged_of_no_reload rfl, ?_, keepsStaged_of_no_reload rfl, keepsStaged_of_no_reload rfl,
    trivial⟩
  intro w k value hreload hstored _
  obtain rfl : interrupted = w := Option.some.inj hreload
  cases k with
  | deviceCert =>
    have hwritten : (interrupted.read .deviceCert).written value = [0x30] := rfl
    rw [hwritten]
    decide +kernel
  | privateKey =>
    obtain rfl : [0x01] = value := Option.some.inj hstored
    decide +kernel
  | caCert => cases hstored

theorem finalize_stores_what_was_sent_pair :
    Each (next sampleBuild) (KeepsStaged sampleBuild) sampleStart sharedStart ∧
    Each (next sampleBuild) StoresWhatWasSent sampleStart sharedStart ∧
    (sharedStart.foldl (next sampleBuild) sampleStart).dev.cred.settings .deviceCert =
      some [0x30, 0x02, 0xcc, 0xdd] :=
  ⟨sharedStart_keeps, finalize_stores_what_was_sent _ _ _ _ _ _ sharedStart_keeps,
    by decide +kernel⟩

/-- A second certificate is sent in two chunks, and the manager is started between them. -/
def restartedRun : List Op :=
  firstPair ++ [.stage 0 0 4 [0x30, 0x02, 0xcc], .mgrStart {}, .stage 0 3 4 [0xdd], allSaved]

/-- The reload puts the first certificate under the second: the finalize that follows returns
zero and stores a mixture of the two. -/
theorem restart_mixes_certificates :
    ¬ Each (next sampleBuild) StoresWhatWasSent sampleStart restartedRun := by
  rintro ⟨-, -, -, -, -, -, h, -⟩
  obtain ⟨w, hw, hstored, -⟩ := h (by decide +kernel) .deviceCert (by decide +kernel)
  have hsent : some w = some ⟨4, [0x30, 0x02, 0xcc, 0xdd]⟩ := hw.symm.trans (by decide +kernel)
  obtain rfl := Option.some.inj hsent
  exact absurd hstored (by decide +kernel)

/-- A finalize that returns zero has stored only kinds whose whole write, from offset zero
through the announced total, was accepted since the last boundary. -/
def SessionsApart (s : Life) : Op → Prop
  | .finalize save =>
    (credFinalize save s.dev.cred).1 = .ok () → ∀ k, fullyStaged s.dev.cred k →
      ∃ w, lastWrite k (since isBoundary s.history) = some w ∧ w.data.length = w.total
  | _ => True

/-- A finalize that passes the checks and whose saves succeed finds no fully staged kind whose
write was begun before the last boundary. -/
def BegunInSession (s : Life) : Op → Prop
  | .finalize save =>
    Ready s.dev.cred → (∀ k, fullyStaged s.dev.cred k → save k) →
      ∀ k, fullyStaged s.dev.cred k → Begun k s.history
  | _ => True

lemma sessionsApart_iff {s : Life} (h : Counted s) (op : Op) :
    SessionsApart s op ↔ BegunInSession s op := by
  cases op with
  | finalize save =>
    have hok := credFinalize_ok_iff save s.dev.cred
    constructor
    · intro hapart hready hsaves k hfull
      obtain ⟨w, hw, -⟩ := hapart (hok.mpr ⟨hready, hsaves⟩) k hfull
      exact begun_of_lastWrite hw
    · intro hbegun hzero k hfull
      obtain ⟨hready, hsaves⟩ := hok.mp hzero
      rw [lastWrite_since (hbegun hready hsaves k hfull)]
      exact h.complete hfull
  | _ => exact Iff.rfl

/-- In every run, every kind that a finalize stores was completely staged in its own session
exactly when each finalize finds only writes that were begun in it. -/
theorem credential_sessions_apart_iff (build : Build) (connAttempts : UInt32)
    (settings : CredKind → Option Bytes) (read : CredKind → Read)
    (creds : List WifiConfig.Credential) (ops : List Op) :
    Each (next build) SessionsApart (start build connAttempts settings read creds) ops ↔
      Each (next build) BegunInSession (start build connAttempts settings read creds) ops :=
  each_iff_each (I := Counted) (fun _ op h _ => next_counted h op)
    (fun _ op h => sessionsApart_iff h op) (start_counted _ _ _ _ _) ops

/-- One session stages a certificate and a key and ends. The next stages another certificate
only and finalizes. -/
def twoSessions : List Op :=
  pair [0x30, 0x02, 0xaa, 0xbb] [0x01] ++
    [.sessionEnded, .stage 0 0 4 [0x30, 0x02, 0xcc, 0xdd], allSaved]

/-- The certificate of the second session is stored with the key of the first. -/
theorem leftover_key_stored :
    ¬ Each (next sampleBuild) SessionsApart sampleStart twoSessions ∧
      (twoSessions.foldl (next sampleBuild) sampleStart).dev.cred.settings .deviceCert =
        some [0x30, 0x02, 0xcc, 0xdd] ∧
      (twoSessions.foldl (next sampleBuild) sampleStart).dev.cred.settings .privateKey =
        some [0x01] := by
  refine ⟨?_, by decide +kernel, by decide +kernel⟩
  rintro ⟨-, -, -, -, h, -⟩
  obtain ⟨w, hw, -⟩ := h (by decide +kernel) .privateKey (by decide +kernel)
  exact absurd (Option.isSome_of_eq_some hw) (by decide +kernel)

end CredSessions
