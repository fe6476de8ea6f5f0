import PouchProv.CredRuns
import PouchProv.Requests

/-!
# What a credential status response reports

The response lists how many bytes of each kind are staged; the schema speaks of
the stored length. The two agree for a kind that is settled: the last operation
that touched its staging counter or its stored value left both equal. Writing,
a reboot and a failed deletion unsettle a kind, a finalize that saves it settles
it again.
-/

namespace CredStatus

open Cbor Codec Handlers ProvTypes Status CredStore Runs
open CredRuns (Wf step_wf boot_wf Ready saved credFinalize_ready credFinalize_refused
  credFinalize_staging persist_store foldl_saveOne)

inductive Op where
  | store (op : CredRuns.Op)
  | reboot

def step (s : Store) : Op → Store
  | .store op => CredRuns.step s op
  | .reboot => boot s.settings

/-- The chunk restarts the write of the kind or goes on with it. -/
def Writes (s : Store) (k : CredKind) (kind : Int) (offset total : Nat) (data : Bytes) : Prop :=
  kindValid kind = some k ∧ total ≤ cap k ∧ (offset = 0 ∨ Accepts s k offset total data)

/-- Whether a kind is settled after an operation, from the store before it. -/
def Settles (s : Store) (k : CredKind) (before : Prop) : Op → Prop
  | .store (.stage kind offset total data) => before ∧ ¬ Writes s k kind offset total data
  | .store (.finalize save) => before ∨ Ready s ∧ k ∈ saved save s kinds
  | .store (.deleteAll del) => del k ∨ s.settings k = none
  | .store (.reload _) => before
  | .reboot => s.settings k = none

/-- The store, and the kinds that are settled. -/
structure Tracked where
  store : Store
  settled : CredKind → Prop

def next (t : Tracked) (op : Op) : Tracked where
  store := step t.store op
  settled k := Settles t.store k (t.settled k) op

/-- After a boot the kinds of which nothing is stored are settled. -/
def start (settings : CredKind → Option Bytes) : Tracked where
  store := boot settings
  settled k := settings k = none

/-- As many bytes are staged as are stored, and no empty value is stored. -/
structure Agrees (s : Store) (k : CredKind) : Prop where
  staged : (s.blob k).staged = (s.settings k).elim 0 List.length
  nonempty : s.settings k ≠ some []

lemma agrees_of_none {s : Store} {k : CredKind} (none : s.settings k = none)
    (zero : (s.blob k).staged = 0) : Agrees s k :=
  ⟨by rw [zero, none]; rfl, by rw [none]; exact (Option.some_ne_none _).symm⟩

/-- What is counted and stored of the kind is as before. -/
lemma Agrees.of_eq {s s' : Store} {k : CredKind} (h : Agrees s k)
    (staged : (s'.blob k).staged = (s.blob k).staged) (settings : s'.settings k = s.settings k) :
    Agrees s' k :=
  ⟨by rw [staged, settings]; exact h.staged, by rw [settings]; exact h.nonempty⟩

/-- A chunk that does not write the kind leaves its blob. -/
lemma credStage_other {s : Store} {k : CredKind} {kind : Int} {offset total : Nat} {data : Bytes}
    (other : ¬ Writes s k kind offset total data) :
    (credStage kind offset total data s).2.blob k = s.blob k := by
  rcases credStage_cases kind offset total data s with ⟨-, h⟩ | ⟨j, hj, ⟨-, h⟩ |
    ⟨hcap, hrefused, h⟩ | ⟨haccepts, h⟩⟩
  · rw [h]
  · rw [h]
  · rw [h]
    by_cases hk : k = j
    · subst hk
      have hoffset : offset ≠ 0 := fun hzero => other ⟨hj, hcap, Or.inl hzero⟩
      rw [setBlob_self, opened, if_neg hoffset]
    · exact setBlob_other s _ hk
  · rw [h]
    refine setBlob_other s _ fun hk => ?_
    subst hk
    exact other ⟨hj, haccepts.1, Or.inr haccepts⟩

lemma credStage_settings (kind : Int) (offset total : Nat) (data : Bytes) (s : Store) :
    (credStage kind offset total data s).2.settings = s.settings := by
  rcases credStage_cases kind offset total data s with ⟨-, h⟩ | ⟨j, -, ⟨-, h⟩ | ⟨-, -, h⟩ |
    ⟨-, h⟩⟩
  all_goals
    rw [h]
    try rfl

/-- A finalize stores the staged bytes of the kinds it saves, and nothing else. -/
lemma credFinalize_settings (save : CredKind → Bool) (s : Store) (k : CredKind) :
    (Ready s ∧ k ∈ saved save s kinds ∧ (credFinalize save s).2.settings k =
        some ((s.blob k).buf.take (s.blob k).staged)) ∨
    (¬ (Ready s ∧ k ∈ saved save s kinds) ∧
      (credFinalize save s).2.settings k = s.settings k) := by
  by_cases hready : Ready s
  · have hset := (foldl_saveOne s (saved save s kinds) k).1
    rw [credFinalize_ready hready, persist_store]
    by_cases hmem : k ∈ saved save s kinds
    · exact Or.inl ⟨hready, hmem, by rw [hset, if_pos hmem]⟩
    · exact Or.inr ⟨fun h => hmem h.2, by rw [hset, if_neg hmem]⟩
  · obtain ⟨e, he⟩ := credFinalize_refused hready save
    exact Or.inr ⟨fun h => hready h.1, by rw [he]⟩

lemma fullyStaged_of_mem_saved {save : CredKind → Bool} {s : Store} {k : CredKind}
    (h : k ∈ saved save s kinds) : fullyStaged s k :=
  (List.mem_filter.mp (List.takeWhile_sublist _ |>.subset h)).2

/-- A finalize keeps what agrees, and what it saves agrees. -/
lemma credFinalize_agrees {s : Store} (wf : Wf s) {save : CredKind → Bool} {k : CredKind}
    (h : Agrees s k ∨ Ready s ∧ k ∈ saved save s kinds) :
    Agrees (credFinalize save s).2 k := by
  have hstaged := (credFinalize_staging save s k).2.1
  rcases credFinalize_settings save s k with ⟨-, hmem, hset⟩ | ⟨hnot, hset⟩
  · have hpos : (s.blob k).staged ≠ 0 := (of_decide_eq_true (fullyStaged_of_mem_saved hmem)).1
    have hlen : ((s.blob k).buf.take (s.blob k).staged).length = (s.blob k).staged := by
      have hin := (wf k).staged_le.trans (wf k).expected_le
      rw [List.length_take, (wf k).size]
      omega
    refine ⟨by rw [hstaged, hset]; exact hlen.symm, fun hempty => hpos ?_⟩
    rw [hset] at hempty
    rw [← hlen, Option.some.inj hempty]
    rfl
  · rcases h with hagrees | hsaved
    · exact hagrees.of_eq hstaged hset
    · exact absurd hsaved hnot

/-- Settled kinds agree, along with the counters that the proof needs. -/
structure Sound (t : Tracked) : Prop where
  wf : Wf t.store
  agrees : ∀ k, t.settled k → Agrees t.store k

theorem next_sound {t : Tracked} (h : Sound t) (op : Op) : Sound (next t op) := by
  cases op with
  | reboot => exact ⟨boot_wf _, fun k hnone => agrees_of_none hnone rfl⟩
  | store op =>
    refine ⟨step_wf h.wf op, fun k hsettled => ?_⟩
    cases op with
    | stage kind offset total data =>
      obtain ⟨hbefore, hother⟩ := hsettled
      exact (h.agrees k hbefore).of_eq (congrArg Blob.staged (credStage_other hother))
        (congrFun (credStage_settings kind offset total data t.store) k)
    | finalize save => exact credFinalize_agrees h.wf (hsettled.imp_left (h.agrees k))
    | deleteAll del =>
      refine agrees_of_none ?_ rfl
      change (if del k then none else t.store.settings k) = none
      rcases hsettled with hdel | hnone
      · rw [if_pos hdel]
      · rw [hnone, ite_self]
    | reload read =>
      refine (h.agrees k hsettled).of_eq ?_ ?_
      · simp only [next, step, CredRuns.step, settingsLoad_eq, loaded_staging]
      · simp only [next, step, CredRuns.step, settingsLoad_eq]

theorem run_sound (settings : CredKind → Option Bytes) (ops : List Op) :
    Sound (ops.foldl next (start settings)) := by
  have hstart : Sound (start settings) := ⟨boot_wf settings, fun k h => agrees_of_none h rfl⟩
  exact foldl_invariant (I := Sound) (fun _ op h => next_sound h op) hstart ops

/-- The map lists a kind exactly when bytes of it are staged, with their number. -/
lemma lookup_credStatusMap (s : Store) (k : CredKind) :
    (credStatusMap s).lookup (keyName k) =
      if (s.blob k).staged = 0 then none else some (s.blob k).staged := by
  rw [credStatusMap_eq]
  by_cases hcert : (s.blob .deviceCert).staged = 0 <;>
    by_cases hkey : (s.blob .privateKey).staged = 0 <;>
    by_cases hca : (s.blob .caCert).staged = 0 <;>
    cases k <;> simp [kinds, keyName, List.lookup_cons, hcert, hkey, hca]

lemma lookup_of_agrees {s : Store} {k : CredKind} (h : Agrees s k) :
    (credStatusMap s).lookup (keyName k) = (s.settings k).map List.length := by
  rw [lookup_credStatusMap, h.staged]
  cases hset : s.settings k with
  | none => rfl
  | some v =>
    have hne : v.length ≠ 0 := fun hzero =>
      h.nonempty (hset.trans (congrArg some (List.length_eq_zero_iff.mp hzero)))
    exact if_neg hne

lemma credStatusMap_keys (s : Store) :
    (∀ kv ∈ credStatusMap s, ∃ k, kv.1 = keyName k) ∧
      ((credStatusMap s).map Prod.fst).Nodup := by
  rw [credStatusMap_eq]
  constructor
  · rintro kv hkv
    obtain ⟨k, -, rfl⟩ := List.mem_map.mp (List.mem_filter.mp hkv).1
    exact ⟨k, rfl⟩
  · have hnames : (kinds.map keyName).Nodup := by decide
    refine List.Nodup.sublist (List.Sublist.map Prod.fst List.filter_sublist) ?_
    rw [List.map_map]
    exact hnames

/-- A status response with the given map. -/
def statusItem (m : List (String × Nat)) : Item :=
  .array [.uint 2, .uint 0, .map (m.flatMap fun kv => [text kv.1, .uint kv.2])]

lemma flatMap_u32 {m : List (String × Nat)} (small : ∀ kv ∈ m, kv.2 < 2 ^ 32) :
    (m.flatMap fun kv => [text kv.1, u32 kv.2]) = m.flatMap fun kv => [text kv.1, .uint kv.2] := by
  induction m with
  | nil => rfl
  | cons kv m ih =>
    have hhead : u32 kv.2 = .uint kv.2 :=
      congrArg Item.uint (Nat.mod_eq_of_lt (small kv List.mem_cons_self))
    rw [List.flatMap_cons, List.flatMap_cons, hhead,
      ih fun kv hkv => small kv (List.mem_cons_of_mem _ hkv)]

lemma credStatusMap_small {s : Store} (wf : Wf s) : ∀ kv ∈ credStatusMap s, kv.2 < 2 ^ 32 := by
  rw [credStatusMap_eq]
  rintro kv hkv
  obtain ⟨k, -, rfl⟩ := List.mem_map.mp (List.mem_filter.mp hkv).1
  have hcap : cap k < 2 ^ 32 := by cases k <;> decide
  exact Nat.lt_of_le_of_lt ((wf k).staged_le.trans (wf k).expected_le) hcap

lemma handleCred_getStatus {z : Zcbor} {req : Bytes}
    (isStatus : decodeWith z decodeCredReq req = some .getStatus) (save : CredKind → Bool)
    {s : Store} (wf : Wf s) :
    (handleCred z save s req).1 = .ok (encode (statusItem (credStatusMap s))) := by
  obtain ⟨m, hanswer, -⟩ := Requests.credStatus_answers s
  obtain ⟨x, hx, -, rfl⟩ := Requests.answer_ok_iff.mp hanswer
  have hcount : (credStatusMap s).length ≤ 8 := (Requests.credStatusMap_length s).trans (by omega)
  have hitem : x = statusItem (credStatusMap s) := by
    rw [encodeCredRsp, if_pos hcount, flatMap_u32 (credStatusMap_small wf)] at hx
    exact (Option.some.inj hx).symm
  simp only [handleCred, isStatus]
  rw [hanswer, hitem]

/-- After every run across reboots a status request is answered with a map of kinds that
lists each settled kind exactly when a credential of it is stored, with the length of what
is stored. -/
theorem status_reports_settled (settings : CredKind → Option Bytes) (ops : List Op) (z : Zcbor)
    (save : CredKind → Bool) {req : Bytes}
    (isStatus : decodeWith z decodeCredReq req = some .getStatus) :
    let t := ops.foldl next (start settings)
    ∃ m, (handleCred z save t.store req).1 = .ok (encode (statusItem m)) ∧
      (∀ kv ∈ m, ∃ k, kv.1 = keyName k) ∧ (m.map Prod.fst).Nodup ∧
      ∀ k, t.settled k → m.lookup (keyName k) = (t.store.settings k).map List.length := by
  intro t
  have hsound : Sound t := run_sound settings ops
  obtain ⟨hkeys, hnodup⟩ := credStatusMap_keys t.store
  exact ⟨credStatusMap t.store, handleCred_getStatus isStatus save hsound.wf, hkeys, hnodup,
    fun k hsettled => lookup_of_agrees (hsound.agrees k hsettled)⟩

def statusReq : Bytes := encode (.array [.uint 2])

/-- A certificate and a key are written and stored. -/
def provision : List Op :=
  [.store (.stage 0 0 4 [0x30, 0x02, 0xaa, 0xbb]), .store (.stage 1 0 1 [0x01]),
    .store (.finalize fun _ => true)]

theorem status_reports_provisioned :
    let t := provision.foldl next (start fun _ => none)
    (∀ k, t.settled k) ∧
    ∃ m, (handleCred (Zcbor.definite 32) (fun _ => true) t.store statusReq).1 =
        .ok (encode (statusItem m)) ∧
      m.lookup "0" = some 4 ∧ m.lookup "1" = some 1 ∧ m.lookup "2" = none := by
  intro t
  have hready : Ready ((provision.take 2).foldl next (start fun _ => none)).store := by
    constructor
    · decide +kernel
    · constructor <;> decide +kernel
  have hsettled : ∀ k, t.settled k := by
    rintro (_ | _ | _)
    · exact Or.inr ⟨hready, by decide +kernel⟩
    · exact Or.inr ⟨hready, by decide +kernel⟩
    · exact Or.inl ⟨⟨rfl, fun h => absurd h.1 (by decide)⟩, fun h => absurd h.1 (by decide)⟩
  have hreq : decodeWith (Zcbor.definite 32) decodeCredReq statusReq = some .getStatus := by
    decide +kernel
  obtain ⟨m, hrsp, -, -, hlookup⟩ := status_reports_settled (fun _ => none) provision
    (Zcbor.definite 32) (fun _ => true) hreq
  refine ⟨hsettled, m, hrsp, ?_, ?_, ?_⟩
  · exact (hlookup .deviceCert (hsettled _)).trans (by decide +kernel)
  · exact (hlookup .privateKey (hsettled _)).trans (by decide +kernel)
  · exact (hlookup .caCert (hsettled _)).trans (by decide +kernel)

/-- After a reboot the stored credentials are not listed; a certificate of which only the
first byte arrived is listed though nothing is stored. -/
theorem status_reports_staged :
    let rebooted := ((provision ++ [Op.reboot]).foldl next (start fun _ => none)).store
    let begun := ([Op.store (.stage 0 0 4 [0x30])].foldl next (start fun _ => none)).store
    rebooted.settings .deviceCert = some [0x30, 0x02, 0xaa, 0xbb] ∧
    (handleCred (Zcbor.definite 32) (fun _ => true) rebooted statusReq).1 =
      .ok (encode (statusItem [])) ∧
    begun.settings .deviceCert = none ∧
    (handleCred (Zcbor.definite 32) (fun _ => true) begun statusReq).1 =
      .ok (encode (statusItem [("0", 1)])) := by
  decide +kernel

end CredStatus
