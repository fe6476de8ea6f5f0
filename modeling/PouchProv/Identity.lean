import PouchProv.Runs
import PouchProv.Settings

/-!
# The device identity

`identity.c` and the part of `pouch_prov_mgr_init` that calls it. The private key
and the certificate are two settings, written one after the other and mirrored in
statics; a boot clears the statics and keeps the settings. A call can lose the
power at each of its writes, and a load can fail to read either setting.

The crypto library is outside the repository. `Pki` holds two of its functions:
the public key of a private key, and the certificate written for a public key,
which also depends on random numbers. Every call may fail.
-/

namespace Identity

open Settings Status Runs

/-- `IDENTITY_CERT_MAX` -/
def certMax : Nat := 640

/-- `P256_PRIV_LEN` -/
def privLen : Nat := 32

structure Pki where
  publicKey : Bytes → Bytes
  writeCrtDer : (publicKey : Bytes) → (random : Nat) → Option Bytes

/-- The certificate was built for the public key of the private key. -/
def BuiltFor (pki : Pki) (cert key : Bytes) : Prop :=
  ∃ random, pki.writeCrtDer (pki.publicKey key) random = some cert

/-- What becomes of one `settings_save_one`. -/
inductive Save where
  | done | fails | powerLost
  deriving DecidableEq, Repr

/-- The answers of the platform to one call of `pouch_prov_identity_ensure`. -/
structure Env where
  cryptoInit : Bool
  generateKey : Bool
  exportKey : Bool
  newKey : { b : Bytes // b.length = privLen }
  saveKey : Save
  importKey : Bool
  setupCert : Bool
  random : Nat
  saveCert : Save

/-- The statics of `identity.c`, each buffer with its length as one byte string, the flag of
`manager.c`, and the settings `pnp/id/key` and `pnp/id/cert`. -/
structure State where
  certDer : Bytes
  privRaw : Bytes
  identityKey : Option Bytes
  initialized : Bool
  storedKey : Option Bytes
  storedCert : Option Bytes
  deriving DecidableEq, Repr

def blank : State := ⟨[], [], none, false, none, none⟩

def boot (s : State) : State :=
  { blank with storedKey := s.storedKey, storedCert := s.storedCert }

/-- `id_set` for one setting, on the bytes that its static holds. A value that does not fit is
refused. A read that fails keeps the length, whatever it has written. -/
def idSet (stored : Option Bytes) (size : Nat) (read : Read) (held : Bytes) : Bytes :=
  match stored with
  | none => held
  | some value =>
    if value.length > size then held
    else
      match read with
      | .whole => value
      | .failed written => (Bytes.writeAt held 0 (written.take size)).take held.length

/-- How the two settings are read. -/
structure Reads where
  cert : Read
  key : Read

def settingsLoad (reads : Reads) (s : State) : State :=
  { s with certDer := idSet s.storedCert certMax reads.cert s.certDer
           privRaw := idSet s.storedKey privLen reads.key s.privRaw }

/-- How a call ends early. -/
inductive Stop where
  | errno (e : Errno)
  | powerLost
  deriving DecidableEq, Repr

def generateKey (env : Env) (s : State) : Except Stop Unit × State :=
  if ¬ env.generateKey ∨ ¬ env.exportKey then (.error (.errno .eio), s)
  else
    let s := { s with privRaw := env.newKey.val }
    match env.saveKey with
    | .powerLost => (.error .powerLost, s)
    | .fails => (.error (.errno .eio), s)
    | .done =>
      let s := { s with storedKey := some s.privRaw }
      if env.importKey then (.ok (), { s with identityKey := some s.privRaw })
      else (.error (.errno .eio), { s with identityKey := none })

def buildSelfSignedCert (pki : Pki) (env : Env) (s : State) : Except Stop Unit × State :=
  match s.identityKey with
  | none => (.error (.errno .eio), s)
  | some key =>
    if ¬ env.setupCert then (.error (.errno .eio), s)
    else
      match pki.writeCrtDer (pki.publicKey key) env.random with
      | none => (.error (.errno .eio), s)
      | some der =>
        if der.length > certMax then (.error (.errno .eio), s)
        else
          let s := { s with certDer := der }
          match env.saveCert with
          | .powerLost => (.error .powerLost, s)
          | .fails => (.error (.errno .eio), s)
          | .done => (.ok (), { s with storedCert := some der })

/-- Restore the stored key, or generate one and force a new certificate. -/
def restoreKey (env : Env) (s : State) : Except Stop Unit × State :=
  if s.privRaw.length > 0 then
    if env.importKey then (.ok (), { s with identityKey := some s.privRaw })
    else (.error (.errno .eio), { s with identityKey := none })
  else
    match generateKey env s with
    | (.error e, s) => (.error e, s)
    | (.ok (), s) => (.ok (), { s with certDer := [] })

def certify (pki : Pki) (env : Env) (s : State) : Except Stop Unit × State :=
  if s.certDer.length = 0 then buildSelfSignedCert pki env s else (.ok (), s)

/-- The certificate, and the private key behind the key id, that are handed out. -/
structure Handed where
  certificate : Bytes
  privateKey : Option Bytes
  deriving DecidableEq, Repr

/-- `pouch_prov_identity_ensure` -/
def identityEnsure (pki : Pki) (env : Env) (s : State) : Except Stop Handed × State :=
  if ¬ env.cryptoInit then (.error (.errno .eio), s)
  else
    match restoreKey env s with
    | (.error e, s) => (.error e, s)
    | (.ok (), s) =>
      match certify pki env s with
      | (.error e, s) => (.error e, s)
      | (.ok (), s) => (.ok ⟨s.certDer, s.identityKey⟩, s)

/-- A boot, a call of `pouch_prov_mgr_init` with a configuration that is accepted or not, a
call of `pouch_prov_identity_ensure` alone, and a reload of the settings. -/
inductive Ev where
  | boot
  | mgrInit (accepted : Bool) (reads : Reads) (env : Env) (pouchInit : Bool)
  | ensure (env : Env)
  | reload (reads : Reads)

/-- The load of the settings that an event makes. -/
def loads (s : State) : Ev → Option Reads
  | .mgrInit accepted reads _ _ => if s.initialized ∨ ¬ accepted then none else some reads
  | .reload reads => some reads
  | _ => none

/-- The call of `pouch_prov_identity_ensure` that an event makes, with the state it finds. -/
def ensureCall (s : State) : Ev → Option (Env × State)
  | .mgrInit accepted reads env _ =>
    if s.initialized ∨ ¬ accepted then none else some (env, settingsLoad reads s)
  | .ensure env => some (env, s)
  | _ => none

/-- Without power the statics are lost. -/
def ends (r : Except Stop Handed × State) : State :=
  match r.1 with
  | .error .powerLost => boot r.2
  | _ => r.2

def pouchInit (r : Except Stop Handed × State) (ok : Bool) : State :=
  match r.1 with
  | .ok _ => if ok then { r.2 with initialized := true } else r.2
  | .error _ => ends r

def step (pki : Pki) (s : State) : Ev → State
  | .boot => boot s
  | .mgrInit accepted reads env ok =>
    if s.initialized ∨ ¬ accepted then s
    else pouchInit (identityEnsure pki env (settingsLoad reads s)) ok
  | .ensure env => ends (identityEnsure pki env s)
  | .reload reads => settingsLoad reads s

/-- Whatever a call of `pouch_prov_identity_ensure` hands out fits together. -/
def HandsMatching (pki : Pki) (s : State) (e : Ev) : Prop :=
  ∀ env found handed, ensureCall s e = some (env, found) →
    (identityEnsure pki env found).1 = .ok handed →
      ∃ key, handed.privateKey = some key ∧ BuiltFor pki handed.certificate key

/-- The call generates a key. -/
def Generates (env : Env) (s : State) : Prop :=
  s.privRaw = [] ∧ env.cryptoInit ∧ env.generateKey ∧ env.exportKey

/-- Both parts of a new identity are stored, and nothing between them fails. -/
structure Completes (pki : Pki) (env : Env) : Prop where
  savesKey : env.saveKey = .done
  imports : env.importKey = true
  setsUp : env.setupCert = true
  writes : ∃ der, pki.writeCrtDer (pki.publicKey env.newKey.val) env.random = some der ∧
    der.length ≤ certMax
  savesCert : env.saveCert = .done

/-- A call that generates a key although a key or a certificate is stored stores both parts of
the new identity. -/
def ReplacesAll (pki : Pki) (s : State) (e : Ev) : Prop :=
  ∀ env found, ensureCall s e = some (env, found) → Generates env found →
    (found.storedKey ≠ none ∨ found.storedCert ≠ none) → Completes pki env

/-- A read that fails has not changed what the static holds. -/
def Spares (stored : Option Bytes) (size : Nat) (read : Read) (held : Bytes) : Prop :=
  ∀ value written, stored = some value → value.length ≤ size → read = .failed written →
    Agrees written held held.length

def SparesHeld (s : State) (e : Ev) : Prop :=
  ∀ reads, loads s e = some reads →
    Spares s.storedCert certMax reads.cert s.certDer ∧
      Spares s.storedKey privLen reads.key s.privRaw

structure Admitted (pki : Pki) (s : State) (e : Ev) : Prop where
  replaces : ReplacesAll pki s e
  spares : SparesHeld s e

section Calls

variable {pki : Pki} {env : Env} {s : State}

theorem restoreKey_present (env : Env) (present : s.privRaw ≠ []) :
    (∃ e, restoreKey env s = (.error e, { s with identityKey := none })) ∨
      restoreKey env s = (.ok (), { s with identityKey := some s.privRaw }) := by
  have hlen : s.privRaw.length > 0 := List.length_pos_iff.mpr present
  cases himport : env.importKey with
  | false => exact Or.inl ⟨.errno .eio, by simp [restoreKey, hlen, himport]⟩
  | true => exact Or.inr (by simp [restoreKey, hlen, himport])

/-- Without a key in the statics one is generated. The statics hold it before it is stored. -/
theorem restoreKey_absent (absent : s.privRaw = []) (key : Bytes) (drawn : key = env.newKey.val) :
    (∃ e, restoreKey env s = (.error e, s)) ∨
      (env.generateKey ∧ env.exportKey) ∧
        ((∃ e, restoreKey env s = (.error e, { s with privRaw := key })) ∨
          (∃ e, restoreKey env s =
            (.error e, { s with privRaw := key, storedKey := some key, identityKey := none })) ∨
          restoreKey env s =
            (.ok (), { s with privRaw := key, storedKey := some key, identityKey := some key,
                              certDer := [] })) := by
  subst drawn
  by_cases hgen : env.generateKey ∧ env.exportKey
  · refine Or.inr ⟨hgen, ?_⟩
    cases hsave : env.saveKey with
    | powerLost => exact Or.inl ⟨.powerLost, by simp [restoreKey, generateKey, absent, hgen, hsave]⟩
    | fails => exact Or.inl ⟨.errno .eio, by simp [restoreKey, generateKey, absent, hgen, hsave]⟩
    | done =>
      cases himport : env.importKey with
      | false =>
        exact Or.inr (Or.inl ⟨.errno .eio,
          by simp [restoreKey, generateKey, absent, hgen, hsave, himport]⟩)
      | true =>
        exact Or.inr (Or.inr (by simp [restoreKey, generateKey, absent, hgen, hsave, himport]))
  · have hfail : ¬ env.generateKey ∨ ¬ env.exportKey := not_and_or.mp hgen
    exact Or.inl ⟨.errno .eio, by simp only [restoreKey, generateKey, absent, if_pos hfail]; rfl⟩

/-- A certificate is built for the imported key. The statics hold it before it is stored. -/
theorem certify_cases (pki : Pki) (env : Env) {key : Bytes} (imported : s.identityKey = some key) :
    (s.certDer ≠ [] ∧ certify pki env s = (.ok (), s)) ∨
      (∃ e, certify pki env s = (.error e, s)) ∨
      ∃ der, BuiltFor pki der key ∧
        ((∃ e, certify pki env s = (.error e, { s with certDer := der })) ∨
          certify pki env s = (.ok (), { s with certDer := der, storedCert := some der })) := by
  by_cases hcert : s.certDer = []
  · have hbuild : certify pki env s = buildSelfSignedCert pki env s := by simp [certify, hcert]
    rw [hbuild]
    right
    by_cases hsetup : env.setupCert
    · cases hder : pki.writeCrtDer (pki.publicKey key) env.random with
      | none =>
        exact Or.inl ⟨.errno .eio, by simp [buildSelfSignedCert, imported, hsetup, hder]⟩
      | some der =>
        by_cases hlen : der.length > certMax
        · exact Or.inl ⟨.errno .eio, by simp [buildSelfSignedCert, imported, hsetup, hder, hlen]⟩
        · refine Or.inr ⟨der, ⟨env.random, hder⟩, ?_⟩
          cases hsave : env.saveCert with
          | powerLost =>
            exact Or.inl ⟨.powerLost,
              by simp [buildSelfSignedCert, imported, hsetup, hder, hlen, hsave]⟩
          | fails =>
            exact Or.inl ⟨.errno .eio,
              by simp [buildSelfSignedCert, imported, hsetup, hder, hlen, hsave]⟩
          | done =>
            exact Or.inr (by simp [buildSelfSignedCert, imported, hsetup, hder, hlen, hsave])
    · exact Or.inl ⟨.errno .eio, by simp [buildSelfSignedCert, imported, hsetup]⟩
  · exact Or.inl ⟨hcert, by simp [certify, hcert]⟩

/-- A call that reaches the certificate ends as that part ends. -/
theorem identityEnsure_certify (pki : Pki) {s' : State} (crypto : env.cryptoInit)
    (restored : restoreKey env s = (.ok (), s')) :
    (identityEnsure pki env s).2 = (certify pki env s').2 ∧
      ∀ handed, (identityEnsure pki env s).1 = .ok handed →
        (certify pki env s').1 = .ok () ∧
          handed = ⟨(certify pki env s').2.certDer, (certify pki env s').2.identityKey⟩ := by
  simp only [identityEnsure, crypto, not_true_eq_false, if_false, restored]
  rcases certify pki env s' with ⟨e | ⟨⟩, s''⟩
  · exact ⟨rfl, fun handed h => by cases h⟩
  · exact ⟨rfl, fun handed h => ⟨rfl, by cases h; rfl⟩⟩

theorem identityEnsure_error {s' : State} {e : Stop} (crypto : env.cryptoInit)
    (failed : restoreKey env s = (.error e, s')) :
    identityEnsure pki env s = (.error e, s') := by
  simp [identityEnsure, crypto, failed]

end Calls

/-- The settings fit together, the statics fit together, and each fits the other. -/
structure Consistent (pki : Pki) (s : State) : Prop where
  stored : ∀ cert key, s.storedCert = some cert → s.storedKey = some key → BuiltFor pki cert key
  loaded : s.certDer ≠ [] → s.privRaw ≠ [] → BuiltFor pki s.certDer s.privRaw
  same : ∀ key, s.privRaw ≠ [] → s.storedKey = some key → key = s.privRaw
  unsaved : ∀ cert, s.privRaw ≠ [] → s.storedCert = some cert → BuiltFor pki cert s.privRaw
  alone : s.certDer ≠ [] → s.privRaw = [] → s.storedCert = some s.certDer

section Invariant

variable {pki : Pki} {env : Env} {s : State}

theorem blank_consistent : Consistent pki blank := by
  constructor <;> simp [blank]

theorem boot_consistent (h : Consistent pki s) : Consistent pki (boot s) where
  stored := h.stored
  loaded := fun hne => absurd rfl hne
  same := fun _ hne => absurd rfl hne
  unsaved := fun _ hne => absurd rfl hne
  alone := fun hne => absurd rfl hne

/-- What a load leaves in a static is the stored value or what was there. -/
theorem idSet_cases {stored : Option Bytes} {size : Nat} {read : Read} {held : Bytes}
    (spares : Spares stored size read held) :
    stored = some (idSet stored size read held) ∨ idSet stored size read held = held := by
  cases stored with
  | none => exact Or.inr rfl
  | some value =>
    by_cases hlong : value.length > size
    · exact Or.inr (by simp only [idSet, if_pos hlong])
    · cases read with
      | whole => exact Or.inl (by simp only [idSet, if_neg hlong])
      | failed written =>
        right
        have hsame := spares value written rfl (Nat.le_of_not_lt hlong) rfl
        simp only [idSet, if_neg hlong]
        rw [take_of_agrees hsame, List.take_length]

/-- Each static may take its stored value, with or without the other. -/
theorem reloaded_consistent (h : Consistent pki s) {cert key : Bytes}
    (hcert : s.storedCert = some cert ∨ cert = s.certDer)
    (hkey : s.storedKey = some key ∨ key = s.privRaw) :
    Consistent pki { s with certDer := cert, privRaw := key } := by
  -- a stored key is the one in the statics, if they hold one
  have hsame : s.privRaw ≠ [] → key = s.privRaw := by
    intro hpriv
    rcases hkey with hkey | hkey
    · exact h.same key hpriv hkey
    · exact hkey
  constructor
  · exact h.stored
  · intro hc hk
    rcases hcert with hcert | rfl
    · rcases hkey with hkey | rfl
      · exact h.stored cert key hcert hkey
      · exact h.unsaved cert hk hcert
    · by_cases hpriv : s.privRaw = []
      · rcases hkey with hkey | rfl
        · exact h.stored _ key (h.alone hc hpriv) hkey
        · exact absurd hpriv hk
      · rw [hsame hpriv]
        exact h.loaded hc hpriv
  · intro k hk hstored
    rcases hkey with hkey | rfl
    · exact Option.some.inj (hstored.symm.trans hkey)
    · exact h.same k hk hstored
  · intro c hk hstored
    rcases hkey with hkey | rfl
    · exact h.stored c key hstored hkey
    · exact h.unsaved c hk hstored
  · intro hc hk
    rcases hcert with hcert | rfl
    · exact hcert
    · have hpriv : s.privRaw = [] := by
        by_contra hpriv
        exact hpriv ((hsame hpriv).symm.trans hk)
      exact h.alone hc hpriv

theorem settingsLoad_consistent (h : Consistent pki s) {reads : Reads}
    (cert : Spares s.storedCert certMax reads.cert s.certDer)
    (key : Spares s.storedKey privLen reads.key s.privRaw) :
    Consistent pki (settingsLoad reads s) :=
  reloaded_consistent h (idSet_cases cert) (idSet_cases key)

/-- A certificate for the key in the statics, held and not stored. -/
theorem built_consistent (h : Consistent pki s) (present : s.privRaw ≠ []) {der : Bytes}
    (built : BuiltFor pki der s.privRaw) : Consistent pki { s with certDer := der } where
  stored := h.stored
  loaded := fun _ _ => built
  same := h.same
  unsaved := h.unsaved
  alone := fun _ absent => absurd absent present

/-- A certificate for the key in the statics, held and stored. Nothing is asked of the
certificates that it replaces. -/
theorem saved_consistent (present : s.privRaw ≠ []) {der : Bytes}
    (same : ∀ key, s.storedKey = some key → key = s.privRaw)
    (built : BuiltFor pki der s.privRaw) :
    Consistent pki { s with certDer := der, storedCert := some der } := by
  constructor
  · intro cert key hcert hkey
    cases hcert
    rw [same key hkey]
    exact built
  · exact fun _ _ => built
  · exact fun key _ hkey => same key hkey
  · intro cert _ hcert
    cases hcert
    exact built
  · exact fun _ absent => absurd absent present

theorem certify_consistent (h : Consistent pki s) (present : s.privRaw ≠ [])
    (imported : s.identityKey = some s.privRaw) : Consistent pki (certify pki env s).2 := by
  rcases certify_cases pki env imported with
    ⟨-, hr⟩ | ⟨e, hr⟩ | ⟨der, hbuilt, ⟨e, hr⟩ | hr⟩
  · rw [hr]
    exact h
  · rw [hr]
    exact h
  · rw [hr]
    exact built_consistent h present hbuilt
  · rw [hr]
    exact saved_consistent present (fun key => h.same key present) hbuilt

/-- What the certificate part leaves when it succeeds is built for the imported key, if the
certificate that it kept was. -/
theorem certify_built {key : Bytes} (imported : s.identityKey = some key)
    (kept : s.certDer ≠ [] → BuiltFor pki s.certDer key)
    (ok : (certify pki env s).1 = .ok ()) :
    (certify pki env s).2.identityKey = some key ∧
      BuiltFor pki (certify pki env s).2.certDer key := by
  rcases certify_cases pki env imported with
    ⟨hc, hr⟩ | ⟨e, hr⟩ | ⟨der, hbuilt, ⟨e, hr⟩ | hr⟩
  · rw [hr]
    exact ⟨imported, kept hc⟩
  · rw [hr] at ok
    cases ok
  · rw [hr] at ok
    cases ok
  · rw [hr]
    exact ⟨imported, hbuilt⟩

/-- The key id is no part of the invariant. -/
theorem withKey_consistent (h : Consistent pki s) (key : Option Bytes) :
    Consistent pki { s with identityKey := key } :=
  ⟨h.stored, h.loaded, h.same, h.unsaved, h.alone⟩

/-- A certificate is not held without a key unless it is stored. -/
theorem Consistent.certDer_nil (h : Consistent pki s) (absent : s.privRaw = [])
    (empty : s.storedCert = none) : s.certDer = [] := by
  by_contra hne
  have hstored := h.alone hne absent
  rw [empty] at hstored
  cases hstored

/-- A first key, with no certificate stored before it. -/
theorem firstKey_consistent (h : Consistent pki s) (absent : s.privRaw = [])
    (empty : s.storedCert = none) {key : Bytes} {stored : Option Bytes}
    (same : ∀ k, stored = some k → k = key) :
    Consistent pki { s with privRaw := key, storedKey := stored } := by
  have hcert := h.certDer_nil absent empty
  constructor
  · intro cert _ hstored
    rw [empty] at hstored
    cases hstored
  · exact fun hne => absurd hcert hne
  · exact fun k _ hk => same k hk
  · intro cert _ hstored
    rw [empty] at hstored
    cases hstored
  · exact fun hne => absurd hcert hne

theorem newKey_ne_nil (env : Env) : env.newKey.val ≠ [] := by
  intro h
  have hlen := env.newKey.property
  rw [h] at hlen
  cases hlen

/-- A call that finds a key keeps the invariant and hands out what fits together. -/
theorem ensure_present (h : Consistent pki s) (present : s.privRaw ≠ []) :
    Consistent pki (identityEnsure pki env s).2 ∧
      ∀ handed, (identityEnsure pki env s).1 = .ok handed →
        ∃ key, handed.privateKey = some key ∧ BuiltFor pki handed.certificate key := by
  by_cases hcrypto : env.cryptoInit
  · rcases restoreKey_present env present with ⟨e, hr⟩ | hr
    · rw [identityEnsure_error hcrypto hr]
      exact ⟨withKey_consistent h none, fun handed hok => by cases hok⟩
    · obtain ⟨hstate, hhanded⟩ := identityEnsure_certify pki hcrypto hr
      rw [hstate]
      refine ⟨certify_consistent (withKey_consistent h _) present rfl, fun handed hok => ?_⟩
      obtain ⟨hcert, rfl⟩ := hhanded handed hok
      exact ⟨_, certify_built rfl (fun hne => h.loaded hne present) hcert⟩
  · simp only [identityEnsure, hcrypto]
    exact ⟨h, fun handed hok => by cases hok⟩

/-- A call that generates a key hands out what fits together, whatever was stored. -/
theorem ensure_absent (absent : s.privRaw = []) {handed : Handed}
    (ok : (identityEnsure pki env s).1 = .ok handed) :
    Consistent pki (identityEnsure pki env s).2 ∧
      ∃ key, handed.privateKey = some key ∧ BuiltFor pki handed.certificate key := by
  have hcrypto : env.cryptoInit := by
    by_contra hcrypto
    simp [identityEnsure, hcrypto] at ok
  have hfailed : ∀ e s', restoreKey env s ≠ (.error e, s') := by
    intro e s' hr
    rw [identityEnsure_error hcrypto hr] at ok
    cases ok
  rcases restoreKey_absent absent _ rfl with ⟨e, hr⟩ | ⟨-, ⟨e, hr⟩ | ⟨e, hr⟩ | hr⟩
  · exact absurd hr (hfailed e _)
  · exact absurd hr (hfailed e _)
  · exact absurd hr (hfailed e _)
  · obtain ⟨hstate, hhanded⟩ := identityEnsure_certify pki hcrypto hr
    obtain ⟨hcert, rfl⟩ := hhanded handed ok
    rw [hstate]
    refine ⟨?_, _, certify_built rfl (fun hne => absurd rfl hne) hcert⟩
    -- the old certificate is gone: the call succeeded, so a new one was stored
    rcases certify_cases pki env
      (s := { s with privRaw := env.newKey.val, storedKey := some env.newKey.val,
                     identityKey := some env.newKey.val, certDer := [] }) rfl with
      ⟨hne, -⟩ | ⟨e, hc⟩ | ⟨der, hbuilt, ⟨e, hc⟩ | hc⟩
    · exact absurd rfl hne
    · rw [hc] at hcert
      cases hcert
    · rw [hc] at hcert
      cases hcert
    · rw [hc]
      exact saved_consistent (newKey_ne_nil env) (fun key hkey => (Option.some.inj hkey).symm)
        hbuilt

/-- A call that generates a key and stores both parts returns zero. -/
theorem ensure_completes (generates : Generates env s) (completes : Completes pki env) :
    ∃ handed, (identityEnsure pki env s).1 = .ok handed := by
  obtain ⟨habsent, hcrypto, hgen⟩ := generates
  obtain ⟨der, hder, hlen⟩ := completes.writes
  have hrestored : restoreKey env s =
      (.ok (), { s with privRaw := env.newKey.val, storedKey := some env.newKey.val,
                        identityKey := some env.newKey.val, certDer := [] }) := by
    simp [restoreKey, generateKey, habsent, hgen, completes.savesKey, completes.imports]
  simp [identityEnsure, hcrypto, hrestored, certify, buildSelfSignedCert, completes.setsUp, hder,
    Nat.not_lt.mpr hlen, completes.savesCert]

/-- Without a new key the call leaves the state alone. -/
theorem ensure_ungenerated (absent : s.privRaw = []) (not_generated : ¬ Generates env s) :
    (identityEnsure pki env s).2 = s := by
  by_cases hcrypto : env.cryptoInit
  · rcases restoreKey_absent absent _ rfl with ⟨e, hr⟩ | ⟨hgen, -⟩
    · rw [identityEnsure_error hcrypto hr]
    · exact absurd ⟨absent, hcrypto, hgen⟩ not_generated
  · simp [identityEnsure, hcrypto]

/-- The first key of the device may fail to be stored at any point. -/
theorem ensure_first (h : Consistent pki s) (absent : s.privRaw = []) (noKey : s.storedKey = none)
    (noCert : s.storedCert = none) : Consistent pki (identityEnsure pki env s).2 := by
  have hkept : ∀ k, s.storedKey = some k → k = env.newKey.val := by
    intro k hk
    rw [noKey] at hk
    cases hk
  have hnew : ∀ k, some env.newKey.val = some k → k = env.newKey.val :=
    fun k hk => (Option.some.inj hk).symm
  by_cases hcrypto : env.cryptoInit
  · rcases restoreKey_absent absent _ rfl with ⟨e, hr⟩ | ⟨-, ⟨e, hr⟩ | ⟨e, hr⟩ | hr⟩
    · rw [identityEnsure_error hcrypto hr]
      exact h
    · rw [identityEnsure_error hcrypto hr]
      exact firstKey_consistent h absent noCert hkept
    · rw [identityEnsure_error hcrypto hr]
      exact withKey_consistent (firstKey_consistent h absent noCert hnew) none
    · rw [(identityEnsure_certify pki hcrypto hr).1]
      have hkeyed := withKey_consistent (firstKey_consistent h absent noCert hnew)
        (some env.newKey.val)
      rw [← h.certDer_nil absent noCert]
      exact certify_consistent hkeyed (newKey_ne_nil env) rfl
  · simp only [identityEnsure, hcrypto]
    exact h

end Invariant

section WholeRuns

variable {pki : Pki}

theorem ends_consistent {r : Except Stop Handed × State} (h : Consistent pki r.2) :
    Consistent pki (ends r) := by
  rcases r with ⟨(e | e) | handed, s⟩
  · exact h
  · exact boot_consistent h
  · exact h

theorem pouchInit_consistent {r : Except Stop Handed × State} (h : Consistent pki r.2)
    (ok : Bool) : Consistent pki (pouchInit r ok) := by
  rcases r with ⟨e | handed, s⟩
  · exact ends_consistent h
  · cases ok with
    | false => exact h
    | true => exact ⟨h.stored, h.loaded, h.same, h.unsaved, h.alone⟩

/-- The state that a call finds satisfies the invariant. -/
theorem found_consistent {s found : State} {e : Ev} {env : Env} (h : Consistent pki s)
    (spares : SparesHeld s e) (call : ensureCall s e = some (env, found)) :
    Consistent pki found := by
  cases e with
  | boot => cases call
  | mgrInit accepted reads env' ok =>
    by_cases hskip : s.initialized ∨ ¬ accepted
    · simp only [ensureCall, if_pos hskip] at call
      cases call
    · obtain ⟨hcert, hkey⟩ := spares reads (if_neg hskip)
      simp only [ensureCall, if_neg hskip] at call
      cases call
      exact settingsLoad_consistent h hcert hkey
  | ensure env' =>
    cases call
    exact h
  | reload reads => cases call

/-- One admitted call. -/
theorem call_consistent {s found : State} {e : Ev} {env : Env} (h : Consistent pki s)
    (admitted : Admitted pki s e) (call : ensureCall s e = some (env, found)) :
    Consistent pki (identityEnsure pki env found).2 ∧
      ∀ handed, (identityEnsure pki env found).1 = .ok handed →
        ∃ key, handed.privateKey = some key ∧ BuiltFor pki handed.certificate key := by
  have hfound := found_consistent h admitted.spares call
  by_cases habsent : found.privRaw = []
  · refine ⟨?_, fun handed hok => (ensure_absent habsent hok).2⟩
    by_cases hempty : found.storedKey = none ∧ found.storedCert = none
    · exact ensure_first hfound habsent hempty.1 hempty.2
    · by_cases hgen : Generates env found
      · have hcompletes := admitted.replaces env found call hgen (not_and_or.mp hempty)
        obtain ⟨handed, hok⟩ := ensure_completes hgen hcompletes
        exact (ensure_absent habsent hok).1
      · rw [ensure_ungenerated habsent hgen]
        exact hfound
  · exact ensure_present hfound habsent

theorem step_consistent (s : State) (e : Ev) (h : Consistent pki s)
    (admitted : Admitted pki s e) : Consistent pki (step pki s e) := by
  cases e with
  | boot => exact boot_consistent h
  | mgrInit accepted reads env ok =>
    by_cases hskip : s.initialized ∨ ¬ accepted
    · simp only [step, if_pos hskip]
      exact h
    · have hcall : ensureCall s (.mgrInit accepted reads env ok) =
          some (env, settingsLoad reads s) := if_neg hskip
      simp only [step, if_neg hskip]
      exact pouchInit_consistent (call_consistent h admitted hcall).1 ok
  | ensure env => exact ends_consistent (call_consistent h admitted rfl).1
  | reload reads =>
    obtain ⟨hcert, hkey⟩ := admitted.spares reads rfl
    exact settingsLoad_consistent h hcert hkey

/-- From an empty settings store, as long as every call that replaces a stored identity stores
both parts of the new one, and no failing read changes what is held, the certificate and the
key that are handed out fit together. -/
theorem certificate_matches_key (pki : Pki) (es : List Ev)
    (admitted : Each (step pki) (Admitted pki) blank es) :
    Each (step pki) (HandsMatching pki) blank es := by
  refine each_of_each step_consistent ?_ blank_consistent admitted
  intro s e h hadmitted env found handed hcall hok
  exact (call_consistent h hadmitted hcall).2 handed hok

/-- A stand-in for the crypto library: a key is its own public key, and a certificate is a tag
byte and the public key. -/
def samplePki : Pki where
  publicKey := id
  writeCrtDer := fun key _ => some (0x30 :: key)

def sampleKey (b : UInt8) : Bytes := List.replicate privLen b

/-- Everything succeeds; a key that is generated is thirty-two times the byte. -/
def sampleEnv (b : UInt8) : Env where
  cryptoInit := true
  generateKey := true
  exportKey := true
  newKey := ⟨sampleKey b, List.length_replicate⟩
  saveKey := .done
  importKey := true
  setupCert := true
  random := 0
  saveCert := .done

def wholeReads : Reads := ⟨.whole, .whole⟩

/-- The first key cannot be stored, a retry stores a certificate for it, and after a boot the
key is gone. -/
def orphanedCert : List Ev :=
  [.mgrInit true wholeReads { sampleEnv 1 with saveKey := .fails } true,
    .mgrInit true wholeReads (sampleEnv 1) true, .boot]

/-- The certificate without a key is replaced in one call. -/
def replacedRun : List Ev := orphanedCert ++ [.mgrInit true wholeReads (sampleEnv 2) true, .boot]

/-- The certificate cannot be read, and some bytes arrive. -/
def certUnread : Reads := ⟨.failed [0x30, 0x01], .whole⟩

lemma sampleEnv_completes (b : UInt8) : Completes samplePki (sampleEnv b) := by
  refine ⟨rfl, rfl, rfl, ⟨0x30 :: sampleKey b, rfl, ?_⟩, rfl⟩
  simp [sampleKey, privLen, certMax]

/-- A load whose reads succeed changes nothing that is held but by what is stored. -/
lemma sparesHeld_whole {s : State} {e : Ev} (whole : ∀ reads ∈ loads s e, reads = wholeReads) :
    SparesHeld s e := by
  intro reads hloads
  obtain rfl := whole reads hloads
  constructor <;> exact fun value written _ _ hread => by cases hread

/-- After a boot the key of the new identity is found, and a certificate for it is built again
when the stored one cannot be read. -/
theorem certificate_matches_key_replaced :
    (identityEnsure samplePki (sampleEnv 3)
      (settingsLoad certUnread (replacedRun.foldl (step samplePki) blank))).1 =
        .ok ⟨0x30 :: sampleKey 2, some (sampleKey 2)⟩ ∧
    Each (step samplePki) (HandsMatching samplePki) blank
      (replacedRun ++ [.mgrInit true certUnread (sampleEnv 3) true]) := by
  refine ⟨by decide, certificate_matches_key samplePki _
    ⟨⟨?_, sparesHeld_whole ?_⟩, ⟨?_, sparesHeld_whole ?_⟩, ⟨?_, sparesHeld_whole ?_⟩,
      ⟨?_, sparesHeld_whole ?_⟩, ⟨?_, sparesHeld_whole ?_⟩, ⟨?_, ?_⟩, trivial⟩⟩
  · intro env found hcall _ hstored
    cases hcall
    exact absurd hstored (by decide)
  · rintro reads ⟨⟩
    rfl
  · intro env found hcall hgen _
    cases hcall
    exact absurd hgen.1 (by decide)
  · rintro reads ⟨⟩
    rfl
  · intro env found hcall
    cases hcall
  · rintro reads ⟨⟩
  · intro env found hcall _ _
    cases hcall
    exact sampleEnv_completes 2
  · rintro reads ⟨⟩
    rfl
  · intro env found hcall
    cases hcall
  · rintro reads ⟨⟩
  · intro env found hcall hgen _
    cases hcall
    exact absurd hgen.1 (by decide)
  · rintro reads ⟨⟩
    constructor <;> exact fun value written _ _ _ i _ hi => absurd hi (Nat.not_lt_zero i)

/-- The power is lost after the new key is stored and before its certificate is. -/
def splitRun : List Ev :=
  orphanedCert ++ [.mgrInit true wholeReads { sampleEnv 2 with saveCert := .powerLost } true]

/-- With a certificate stored and no key, the next boot generates and stores a new key. If the
power is lost before its certificate is stored, the boot after that finds the new key with the
old certificate, and hands them out together. -/
theorem power_loss_splits_identity :
    (identityEnsure samplePki (sampleEnv 3)
      (settingsLoad wholeReads (splitRun.foldl (step samplePki) blank))).1 =
        .ok ⟨0x30 :: sampleKey 1, some (sampleKey 2)⟩ ∧
    ¬ BuiltFor samplePki (0x30 :: sampleKey 1) (sampleKey 2) ∧
    ¬ Each (step samplePki) (HandsMatching samplePki) blank
      (splitRun ++ [.mgrInit true wholeReads (sampleEnv 3) true]) := by
  have hhanded : (identityEnsure samplePki (sampleEnv 3)
      (settingsLoad wholeReads (splitRun.foldl (step samplePki) blank))).1 =
        .ok ⟨0x30 :: sampleKey 1, some (sampleKey 2)⟩ := by
    decide
  have hmismatch : ¬ BuiltFor samplePki (0x30 :: sampleKey 1) (sampleKey 2) := by
    rintro ⟨random, h⟩
    have hdiffer : some (0x30 :: sampleKey 2) ≠ some (0x30 :: sampleKey 1) := by decide
    exact hdiffer h
  refine ⟨hhanded, hmismatch, ?_⟩
  rintro ⟨-, -, -, -, h, -⟩
  obtain ⟨key, hkey, hbuilt⟩ := h (sampleEnv 3) _ _ rfl hhanded
  obtain rfl := Option.some.inj hkey
  exact hmismatch hbuilt

end WholeRuns

end Identity
