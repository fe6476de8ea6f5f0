import PouchProv.Settings
import Mathlib.Logic.Function.Basic

/-!
# The cloud credential store

`cred_store.c`: DER blobs are staged chunk by chunk and persisted by a finalize
through the settings subsystem. One static buffer per kind holds both the bytes
being staged and the bytes last persisted or loaded; the counters `len`,
`staged` and `expected` say which part of it means what.

A save or a delete of the settings backend that fails leaves the stored value in
place.
-/

namespace CredStore

open Status Settings

inductive CredKind where
  | deviceCert | privateKey | caCert
  deriving DecidableEq, Repr

/-- The kinds in the order in which the loops of the source visit them. -/
def kinds : List CredKind := [.deviceCert, .privateKey, .caCert]

def cap : CredKind → Nat
  | .deviceCert => 2048
  | .privateKey => 512
  | .caCert => 2048

/-- The part of the setting's key that the settings subsystem passes to `credSet`. -/
def leaf : CredKind → String
  | .deviceCert => "cert"
  | .privateKey => "key"
  | .caCert => "ca"

/-- The enumerator of a kind. -/
def CredKind.index : CredKind → Int
  | .deviceCert => 0
  | .privateKey => 1
  | .caCert => 2

/-- `kind_valid`, as the conversion it licenses. -/
def kindValid : Int → Option CredKind
  | 0 => some .deviceCert
  | 1 => some .privateKey
  | 2 => some .caCert
  | _ => none

structure Blob where
  buf : Bytes
  len : Nat
  staged : Nat
  expected : Nat

/-- The blobs, and what the settings subsystem holds under each kind's key. -/
structure Store where
  blob : CredKind → Blob
  settings : CredKind → Option Bytes

def Store.setBlob (s : Store) (k : CredKind) (b : Blob) : Store :=
  { s with blob := Function.update s.blob k b }

/-- The state after a boot: zeroed statics over what the settings partition holds. -/
def boot (settings : CredKind → Option Bytes) : Store where
  blob k := ⟨List.replicate (cap k) 0, 0, 0, 0⟩
  settings := settings

/-- The loop over the length bytes, with `size_t` of 32 bits. -/
def derContent (content : Nat) (bytes : Bytes) : Nat :=
  bytes.foldl (fun content b => (content * 256 + b.toNat) % 2 ^ 32) content

def derSequenceLenOk (buf : Bytes) (len : Nat) : Bool :=
  if len < 4 ∨ buf[0]? ≠ some 0x30 then false
  else
    let lb := (buf.getD 1 0).toNat
    if lb < 0x80 then lb + 2 = len -- short form
    else
      let nbytes := lb % 0x80
      if nbytes = 0 ∨ nbytes > 4 ∨ len < 2 + nbytes then false
      else (derContent 0 ((buf.drop 2).take nbytes) + 2 + nbytes) % 2 ^ 32 = len

/-- The settings handler, for a value of any length. The callback writes into the buffer of
the blob itself. -/
def credSet (name : String) (len : Nat) (read : ReadCb) (s : Store) : Except Errno Unit × Store :=
  match kinds.find? (fun k => name = leaf k) with
  | none => (.error .enoent, s)
  | some k =>
    if len > cap k then (.error .einval, s)
    else
      let b := { s.blob k with buf := Bytes.writeAt (s.blob k).buf 0 (read.written (cap k)) }
      match read.result (cap k) with
      | .error e => (.error e, s.setBlob k b)
      | .ok rc => (.ok (), s.setBlob k { b with len := rc })

/-- Load one kind's key, if the settings subsystem holds it. -/
def loadKind (read : CredKind → Read) (s : Store) (k : CredKind) : Store :=
  match s.settings k with
  | none => s
  | some value => (credSet (leaf k) value.length ((read k).cb value) s).2

/-- `settings_load`, as far as the credential keys are concerned. -/
def settingsLoad (read : CredKind → Read) (s : Store) : Store :=
  kinds.foldl (loadKind read) s

def credStage (kind : Int) (offset total : Nat) (data : Bytes) (s : Store) :
    Except Errno Nat × Store :=
  match kindValid kind with
  | none => (.error .einval, s)
  | some k =>
    if total > cap k then (.error .emsgsize, s)
    else
      let b := if offset = 0 then { s.blob k with staged := 0, expected := total } else s.blob k
      -- Chunks must arrive in order and not exceed the announced total.
      if offset ≠ b.staged ∨ b.staged + data.length > b.expected then
        (.error .einval, s.setBlob k b)
      else
        (.ok (b.staged + data.length), s.setBlob k
          { b with buf := Bytes.writeAt b.buf b.staged data, staged := b.staged + data.length })

/-- A kind that the persist loop does not skip. -/
def fullyStaged (s : Store) (k : CredKind) : Bool :=
  (s.blob k).staged ≠ 0 ∧ (s.blob k).staged = (s.blob k).expected

/-- A successful `settings_save_one` of the staged bytes, and the length it sets. -/
def saveOne (s : Store) (k : CredKind) : Store where
  blob := Function.update s.blob k { s.blob k with len := (s.blob k).staged }
  settings := Function.update s.settings k (some ((s.blob k).buf.take (s.blob k).staged))

/-- The persist loop; `save` says which of the saves succeed. -/
def persist (save : CredKind → Bool) : List CredKind → Store → Except Errno Unit × Store
  | [], s => (.ok (), s)
  | k :: ks, s =>
    if fullyStaged s k then
      if save k then persist save ks (saveOne s k) else (.error .eio, s)
    else persist save ks s -- not (fully) provided this session

def credFinalize (save : CredKind → Bool) (s : Store) : Except Errno Unit × Store :=
  if fullyStaged s .deviceCert ∧ fullyStaged s .privateKey then
    if derSequenceLenOk (s.blob .deviceCert).buf (s.blob .deviceCert).staged then
      persist save kinds s
    else (.error .ebadmsg, s)
  else (.error .einval, s)

def credReceived (s : Store) (kind : Int) : Nat :=
  match kindValid kind with
  | none => 0
  | some k => (s.blob k).staged

def credPresent (s : Store) (k : CredKind) : Bool := (s.blob k).len > 0

/-- The bytes that the returned pointer and length describe. -/
def credGet (s : Store) (k : CredKind) : Option Bytes :=
  if credPresent s k then some ((s.blob k).buf.take (s.blob k).len) else none

def credDeleteAll (del : CredKind → Bool) (s : Store) : Store where
  blob k := { s.blob k with len := 0, staged := 0, expected := 0 }
  settings k := if del k then none else s.settings k

/-- The check reads no byte behind the length. -/
lemma derSequenceLenOk_take (buf : Bytes) (len : Nat) :
    derSequenceLenOk (buf.take len) len = derSequenceLenOk buf len := by
  by_cases hshort : len < 4
  · simp [derSequenceLenOk, hshort]
  · have hfirst : (buf.take len)[0]? = buf[0]? := List.getElem?_take_of_lt (by omega)
    have hsecond : (buf.take len).getD 1 0 = buf.getD 1 0 := by
      rw [List.getD_eq_getElem?_getD, List.getD_eq_getElem?_getD,
        List.getElem?_take_of_lt (by omega)]
    have hbytes : ∀ n, 2 + n ≤ len →
        ((buf.take len).drop 2).take n = (buf.drop 2).take n := by
      intro n hn
      rw [List.drop_take, List.take_take, Nat.min_eq_left (by omega)]
    simp only [derSequenceLenOk, hfirst, hsecond]
    by_cases hlong : len < 2 + (buf.getD 1 0).toNat % 0x80
    · simp only [hlong, or_true, if_true]
    · rw [hbytes _ (Nat.le_of_not_lt hlong)]

@[simp] theorem setBlob_settings (s : Store) (k : CredKind) (b : Blob) :
    (s.setBlob k b).settings = s.settings := rfl

@[simp] theorem setBlob_self (s : Store) (k : CredKind) (b : Blob) :
    (s.setBlob k b).blob k = b := by
  simp [Store.setBlob]

theorem setBlob_other (s : Store) {j k : CredKind} (b : Blob) (different : j ≠ k) :
    (s.setBlob k b).blob j = s.blob j := by
  simp [Store.setBlob, different]

lemma find_leaf (k : CredKind) : kinds.find? (fun j => leaf k = leaf j) = some k := by
  cases k <;> decide

lemma mem_kinds (k : CredKind) : k ∈ kinds := by
  cases k <;> decide

/-- The blob of a chunk that passes the kind and capacity checks. -/
def opened (s : Store) (k : CredKind) (offset total : Nat) : Blob :=
  if offset = 0 then { s.blob k with staged := 0, expected := total } else s.blob k

/-- The chunks that `credStage` copies into the buffer. -/
def Accepts (s : Store) (k : CredKind) (offset total : Nat) (data : Bytes) : Prop :=
  total ≤ cap k ∧
    (offset = 0 ∧ data.length ≤ total ∨
      offset ≠ 0 ∧ offset = (s.blob k).staged ∧ offset + data.length ≤ (s.blob k).expected)

/-- One case for each way through `credStage`: bad kind, too large, refused after a possible
restart of the write, and copied. -/
theorem credStage_cases (kind : Int) (offset total : Nat) (data : Bytes) (s : Store) :
    (kindValid kind = none ∧ credStage kind offset total data s = (.error .einval, s)) ∨
    ∃ k, kindValid kind = some k ∧
      ((cap k < total ∧ credStage kind offset total data s = (.error .emsgsize, s)) ∨
       (total ≤ cap k ∧ ¬ Accepts s k offset total data ∧
          credStage kind offset total data s =
            (.error .einval, s.setBlob k (opened s k offset total))) ∨
       (Accepts s k offset total data ∧
          credStage kind offset total data s =
            (.ok (offset + data.length), s.setBlob k
              { opened s k offset total with
                buf := Bytes.writeAt (s.blob k).buf offset data,
                staged := offset + data.length }))) := by
  cases hk : kindValid kind with
  | none => exact Or.inl ⟨rfl, by simp [credStage, hk]⟩
  | some k =>
    refine Or.inr ⟨k, rfl, ?_⟩
    by_cases hcap : cap k < total
    · exact Or.inl ⟨hcap, by simp [credStage, hk, hcap]⟩
    · refine Or.inr ?_
      by_cases hzero : offset = 0
      · subst hzero
        by_cases hfit : data.length ≤ total
        · exact Or.inr ⟨⟨by omega, Or.inl ⟨rfl, hfit⟩⟩, by
            simp [credStage, hk, hcap, opened, Nat.not_lt.mpr hfit]⟩
        · refine Or.inl ⟨by omega, ?_, ?_⟩
          · rintro ⟨_, h | h⟩
            · exact hfit h.2
            · exact h.1 rfl
          · simp [credStage, hk, hcap, opened, Nat.lt_of_not_le hfit]
      · by_cases hnext : offset = (s.blob k).staged ∧
          offset + data.length ≤ (s.blob k).expected
        · refine Or.inr ⟨⟨by omega, Or.inr ⟨hzero, hnext.1, hnext.2⟩⟩, ?_⟩
          have hlow : ¬ (offset ≠ (s.blob k).staged ∨
              (s.blob k).staged + data.length > (s.blob k).expected) := by
            rintro (h | h)
            · exact h hnext.1
            · have := hnext.2; omega
          simp only [credStage, hk, if_neg hcap, opened, if_neg hzero, if_neg hlow]
          rw [← hnext.1]
        · refine Or.inl ⟨by omega, ?_, ?_⟩
          · rintro ⟨_, h | h⟩
            · exact hzero h.1
            · exact hnext h.2
          · have hbad : offset ≠ (s.blob k).staged ∨
                (s.blob k).staged + data.length > (s.blob k).expected := by
              by_contra hok
              push Not at hok
              exact hnext ⟨hok.1, by omega⟩
            simp only [credStage, hk, if_neg hcap, opened, if_neg hzero, if_pos hbad]

/-- What loading one key does to the blob of that key. -/
def loaded (k : CredKind) (stored : Option Bytes) (read : Read) (b : Blob) : Blob :=
  match stored with
  | none => b
  | some value =>
    if value.length ≤ cap k then
      { b with
        buf := Bytes.writeAt b.buf 0 ((read.written value).take (cap k))
        len := if read = .whole then value.length else b.len }
    else b

lemma loadKind_eq (read : CredKind → Read) (s : Store) (k : CredKind) :
    loadKind read s k = s.setBlob k (loaded k (s.settings k) (read k) (s.blob k)) := by
  have hsame : s.setBlob k (s.blob k) = s := by simp [Store.setBlob]
  cases hv : s.settings k with
  | none => simp [loadKind, loaded, hv, hsame]
  | some value =>
    by_cases hfit : value.length ≤ cap k
    · have hshort : ¬ value.length > cap k := Nat.not_lt.mpr hfit
      cases hr : read k with
      | whole | failed =>
        simp [loadKind, credSet, find_leaf, loaded, hv, hr, hfit, hshort, Read.cb, Read.returns]
    · simp [loadKind, credSet, find_leaf, loaded, hv, hfit, Nat.lt_of_not_le hfit, hsame]

/-- A load leaves the counters of the write alone. -/
lemma loaded_staging (k : CredKind) (stored : Option Bytes) (read : Read) (b : Blob) :
    (loaded k stored read b).staged = b.staged ∧
      (loaded k stored read b).expected = b.expected := by
  cases stored with
  | none => exact ⟨rfl, rfl⟩
  | some value =>
    rw [loaded]
    split <;> exact ⟨rfl, rfl⟩

/-- A reload treats the kinds independently and leaves the settings alone. -/
theorem settingsLoad_eq (read : CredKind → Read) (s : Store) :
    settingsLoad read s =
      { s with blob := fun k => loaded k (s.settings k) (read k) (s.blob k) } := by
  simp only [settingsLoad, kinds, List.foldl_cons, List.foldl_nil, loadKind_eq, setBlob_settings]
  cases s with
  | mk blob settings =>
    simp only [Store.setBlob, Store.mk.injEq, and_true]
    funext k
    cases k <;> simp [Function.update]

end CredStore
