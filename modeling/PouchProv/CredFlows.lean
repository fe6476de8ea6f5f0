import PouchProv.ClientFlows

/-!
# The transfer of credentials by the clients

What `bootstrapCredentials`, `credStatus` and `reprovision` leave at the device. The
counters of the device follow the loop over the pieces, whatever an earlier transfer
has left there, and a device that does not authorize the client refuses the first.
-/

namespace ClientFlows

open Handlers Auth Device Requests Calls
open CredPush (Pushed piece)
open CredStore (CredKind Store)
open Flow (Ends loop)
open ForwardCompat (Client)

section Credentials

variable {c : Client} {p : Peer} {v : View} {s : At c} {E : Stop c → At c → Prop}

lemma write_served {kind : CredKind} {der : Bytes} {off chunk : Nat} {st : Store}
    (fits : der.length ≤ CredStore.cap kind) (more : off < der.length) (n : Nat) {d : Dev}
    (h : View.Of { v with cred := Pushed st kind der off } d) :
    Serve p (p.world n) d (.credWrite kind off der.length (piece der off chunk))
      (· = .cred (.writeRsp .ok (off + (piece der off chunk).length)))
      fun _ => { v with cred := Pushed st kind der (off + (piece der off chunk).length) } := by
  have hvalid : CredStore.kindValid (ClientRequests.kindCode kind : Int) = some kind := by
    cases kind <;> rfl
  obtain ⟨st', hstage, hnext⟩ : ∃ st', CredStore.credStage (ClientRequests.kindCode kind) off
      der.length (piece der off chunk) d.cred = (.ok (off + (piece der off chunk).length), st') ∧
        Pushed st kind der (off + (piece der off chunk).length) st' :=
    ⟨_, CredPush.credStage_accepted hvalid (h.cred.accepts fits more), h.cred.next fits more⟩
  have hserve : serve p.board (p.world n) d
      (.credWrite kind off der.length (piece der off chunk)) =
        (.cred (.writeRsp .ok (off + (piece der off chunk).length)), { d with cred := st' }) := by
    simp only [serve, hstage]
  exact serve_of hserve rfl rfl (write_sent _ _)
    ⟨h.running, h.session, hnext, h.station, h.address⟩

/-- What every transfer needs. -/
structure Transfers (p : Peer) (v : View) (kind : CredKind) (der : Bytes) : Prop where
  fits : der.length ≤ CredStore.cap kind
  registered : p.board.build.cred = true
  opened : Opens p v.session
  stable : Stable v.station

lemma registered_cred (h : p.board.build.cred = true) :
    Endpoint.cred ∈ endpoints p.board.build := by
  simp [endpoints, h]

lemma pushPiece_ends (serves : Serves p) (speaks : Speaks c) {kind : CredKind}
    {der : Bytes} (h : Transfers p v kind der) {st : Store} {off : Nat} (more : off < der.length)
    (start : ∃ i, off = i * CredPush.defaultChunk)
    (meets : Meets p { v with cred := Pushed st kind der off } s) :
    Ends (pushPiece c p kind der CredPush.defaultChunk off) s
      (fun r s' => r = .inl (off + (piece der off CredPush.defaultChunk).length) ∧
        Meets p { v with
          cred := Pushed st kind der (off + (piece der off CredPush.defaultChunk).length) } s')
      E := by
  obtain ⟨i, rfl⟩ := start
  have hcap : CredStore.cap kind ≤ 2048 := by cases kind <;> decide
  have hfits := h.fits
  have hlength := CredPush.piece_length der (i * CredPush.defaultChunk) CredPush.defaultChunk
  have hcall : Ends (call c p (.credWrite kind (i * CredPush.defaultChunk) der.length
      (piece der (i * CredPush.defaultChunk) CredPush.defaultChunk)) .credWrite) s _ E :=
    call_ends (q := .credWrite kind _ _ _) serves speaks ⟨by omega, by omega, by omega⟩
      (CredPush.piecesFit_default h.fits i more) (registered_cred h.registered) meets h.stable
      (fun _ => h.opened) (fun d hd => write_served h.fits more s.sent hd) fun _ => rfl
  rw [pushPiece, if_pos more]
  refine hcall.bind ?_
  rintro (received : Int) s' ⟨r, rfl, ⟨_, hshows⟩, hmeets⟩
  obtain rfl : received = ((i * CredPush.defaultChunk +
    (piece der (i * CredPush.defaultChunk) CredPush.defaultChunk).length : Nat) : Int) := hshows
  simp only [ne_eq, not_true_eq_false, if_false]
  exact ⟨rfl, hmeets⟩

/-- A transfer from whatever the buffer of the kind held. -/
theorem pushCredential_ends (serves : Serves p) (speaks : Speaks c) (meets : Meets p v s)
    {kind : CredKind} {der : Bytes} (h : Transfers p v kind der) :
    Ends (pushCredential c p kind der CredPush.defaultChunk) s (fun _ s' =>
      Meets p { v with cred := Pushed s.dev.cred kind der der.length } s') E := by
  have hstart : Meets p { v with cred := Pushed s.dev.cred kind der 0 } s :=
    ⟨meets.ready, ⟨meets.dev.running, meets.dev.session,
      ⟨fun _ _ => rfl, rfl, (meets.ready.2.cred kind).size, fun h => absurd rfl h, by simp⟩,
      meets.dev.station, meets.dev.address⟩, meets.flag⟩
  refine Flow.ends_loop (I := fun rounds off s' => der.length < off + rounds ∧ off ≤ der.length ∧
    (off < der.length → ∃ i, off = i * CredPush.defaultChunk) ∧
    Meets p { v with cred := Pushed s.dev.cred kind der off } s') ?_ ?_
    ⟨by omega, Nat.zero_le _, fun _ => ⟨0, (Nat.zero_mul _).symm⟩, hstart⟩
  · rintro rounds off s' ⟨hrounds, hinside, hmultiple, hmeets⟩
    by_cases hmore : off < der.length
    · have hlength := CredPush.piece_length der off CredPush.defaultChunk
      have hpos : 0 < CredPush.defaultChunk := by decide
      refine (pushPiece_ends serves speaks h hmore (hmultiple hmore) hmeets).mono ?_
        fun _ _ h => h
      rintro r s'' ⟨rfl, hnext⟩
      refine ⟨by omega, CredPush.piece_inside _ hinside, ?_, hnext⟩
      intro hlater
      obtain ⟨i, rfl⟩ := hmultiple hmore
      refine ⟨i + 1, ?_⟩
      rw [Nat.add_mul]
      omega
    · obtain rfl : off = der.length := by omega
      rw [pushPiece, if_neg hmore]
      exact hmeets
  · rintro off s' ⟨hrounds, hinside, -, -⟩
    omega

/-- Credentials in DER. -/
structure Credentials where
  certificate : Bytes
  privateKey : Bytes
  ca : Option Bytes

/-- The buffers of the device have room for them, and the certificate is one sequence. -/
structure Credentials.Fit (k : Credentials) : Prop where
  certificate : 1 ≤ k.certificate.length ∧ k.certificate.length ≤ CredStore.cap .deviceCert
  privateKey : 1 ≤ k.privateKey.length ∧ k.privateKey.length ≤ CredStore.cap .privateKey
  ca : ∀ ca ∈ k.ca, 1 ≤ ca.length ∧ ca.length ≤ CredStore.cap .caCert
  sequence : CredStore.derSequenceLenOk k.certificate k.certificate.length = true

/-- The settings hold the credentials. The key of a CA that is not given gets what was staged
completely before, and otherwise keeps what it has. -/
structure Delivered (k : Credentials) (old new : Store) : Prop where
  certificate : new.settings .deviceCert = some k.certificate
  privateKey : new.settings .privateKey = some k.privateKey
  ca : new.settings .caCert = k.ca.or (CredPush.stored old .caCert)

/-- The store when all transfers are done. -/
structure Staged (k : Credentials) (old new : Store) : Prop where
  ready : CredRuns.Ready new
  certificate : CredPush.stored new .deviceCert = some k.certificate
  privateKey : CredPush.stored new .privateKey = some k.privateKey
  ca : CredPush.stored new .caCert = k.ca.or (CredPush.stored old .caCert)

/-- The certificate and the key are there; the CA is as it was. -/
lemma staged_two {k : Credentials} (fit : k.Fit) {s₀ s₁ s₂ : Store}
    (cert : Pushed s₀ .deviceCert k.certificate k.certificate.length s₁)
    (key : Pushed s₁ .privateKey k.privateKey k.privateKey.length s₂) :
    Staged { k with ca := none } s₀ s₂ := by
  have hcert : s₂.blob .deviceCert = s₁.blob .deviceCert := key.others _ (by decide)
  have hca : s₂.blob .caCert = s₁.blob .caCert := key.others _ (by decide)
  refine ⟨⟨?_, key.fullyStaged fit.privateKey.1, ?_⟩, ?_, key.stored fit.privateKey.1, ?_⟩
  · rw [CredPush.fullyStaged_congr hcert]
    exact cert.fullyStaged fit.certificate.1
  · have hpos := fit.certificate.1
    have hstaged := (cert.counters (by omega)).1
    rw [hcert, hstaged, ← CredStore.derSequenceLenOk_take, cert.whole]
    exact fit.sequence
  · rw [CredPush.stored_congr hcert key.settings]
    exact cert.stored fit.certificate.1
  · rw [CredPush.stored_congr hca key.settings,
      CredPush.stored_congr (cert.others _ (by decide)) cert.settings]
    rfl

lemma Staged.add_ca {k : Credentials} {ca : Bytes} {s₀ s₂ s₃ : Store} (given : k.ca = some ca)
    (fit : k.Fit) (h : Staged { k with ca := none } s₀ s₂)
    (pushed : Pushed s₂ .caCert ca ca.length s₃) : Staged k s₀ s₃ := by
  have hcert : s₃.blob .deviceCert = s₂.blob .deviceCert := pushed.others _ (by decide)
  have hkey : s₃.blob .privateKey = s₂.blob .privateKey := pushed.others _ (by decide)
  obtain ⟨hfirst, hsecond, hsequence⟩ := h.ready
  refine ⟨⟨?_, ?_, ?_⟩, ?_, ?_, ?_⟩
  · rwa [CredPush.fullyStaged_congr hcert]
  · rwa [CredPush.fullyStaged_congr hkey]
  · rwa [hcert]
  · rw [CredPush.stored_congr hcert pushed.settings]
    exact h.certificate
  · rw [CredPush.stored_congr hkey pushed.settings]
    exact h.privateKey
  · rw [pushed.stored (fit.ca ca given).1, given]
    rfl

lemma finalize_served {k : Credentials} {st : Store} {n : Nat} (saves : ∀ k, (p.world n).save k)
    {d : Dev} (h : View.Of { v with cred := Staged k st } d) :
    Serve p (p.world n) d .credFinalize (· = .cred (.finalizeRsp .ok))
      fun _ => { v with cred := Delivered k st } := by
  have hok : (CredStore.credFinalize (p.world n).save d.cred).1 = .ok () := by
    rw [CredRuns.credFinalize_ready h.cred.ready]
    exact (CredRuns.persist_ok_iff _ _ _).mpr fun k _ _ => saves k
  obtain ⟨armed, hemit⟩ := emit_frame p.board.build .cloudCredStored
    { d with cred := (CredStore.credFinalize (p.world n).save d.cred).2 }
  have hserve : serve p.board (p.world n) d .credFinalize = (.cred (.finalizeRsp .ok),
      { d with cred := (CredStore.credFinalize (p.world n).save d.cred).2
               autostop := armed }) := by
    simp only [serve, hok, hemit, statusMap]
    rfl
  have hsettings := CredPush.credFinalize_settings h.cred.ready saves
  refine serve_of hserve rfl rfl (status_sent 1 (by decide) .ok rfl)
    ⟨h.running, h.session, ⟨?_, ?_, ?_⟩, h.station, h.address⟩
  · exact (hsettings _).trans h.cred.certificate
  · exact (hsettings _).trans h.cred.privateKey
  · exact (hsettings _).trans h.cred.ca

theorem bootstrapCredentials_ends (serves : Serves p) (speaks : Speaks c)
    (saves : ∀ n k, (p.world n).save k) (registered : p.board.build.cred = true)
    {k : Credentials} (fit : k.Fit) (opened : Opens p v.session) (stable : Stable v.station)
    (meets : Meets p v s) :
    Ends (bootstrapCredentials c p k.certificate k.privateKey k.ca) s
      (fun _ s' => Meets p { v with cred := Delivered k s.dev.cred } s') E := by
  have hfinalize : ∀ s₃, Meets p { v with cred := Staged k s.dev.cred } s₃ →
      Ends (call c p .credFinalize .credFinalize) s₃
        (fun _ s' => Meets p { v with cred := Delivered k s.dev.cred } s') E := by
    intro s₃ hmeets
    have hcall : Ends (call c p .credFinalize .credFinalize) s₃ _ E :=
      call_ends (q := .credFinalize) serves speaks trivial (by decide)
        (registered_cred registered) hmeets stable (fun _ => opened)
        (fun d h => finalize_served (saves s₃.sent) h) fun _ => rfl
    refine hcall.mono ?_ fun _ _ h => h
    rintro x s' ⟨r, _, _, h⟩
    exact h
  rw [bootstrapCredentials]
  refine (pushCredential_ends serves speaks meets
    ⟨fit.certificate.2, registered, opened, stable⟩).bind ?_
  intro _ s₁ hcert
  refine (pushCredential_ends serves speaks hcert
    ⟨fit.privateKey.2, registered, opened, stable⟩).bind ?_
  intro _ s₂ hkey
  have htwo := staged_two fit hcert.dev.cred hkey.dev.cred
  cases hca : k.ca with
  | none =>
    have hstaged : Staged k s.dev.cred s₂.dev.cred := by
      rw [show k = { k with ca := none } by rw [← hca]]
      exact htwo
    exact hfinalize s₂ ⟨hkey.ready, ⟨hkey.dev.running, hkey.dev.session, hstaged,
      hkey.dev.station, hkey.dev.address⟩, hkey.flag⟩
  | some ca =>
    refine (pushCredential_ends serves speaks hkey
      ⟨(fit.ca ca hca).2, registered, opened, stable⟩).bind ?_
    intro _ s₃ hpushed
    exact hfinalize s₃ ⟨hpushed.ready, ⟨hpushed.dev.running, hpushed.dev.session,
      htwo.add_ca hca fit hpushed.dev.cred, hpushed.dev.station, hpushed.dev.address⟩,
      hpushed.flag⟩

/-- The status report changes nothing. -/
theorem credStatus_ends (serves : Serves p) (speaks : Speaks c)
    (registered : p.board.build.cred = true) (opened : Opens p v.session)
    (stable : Stable v.station) (meets : Meets p v s) :
    Ends (credStatus c p) s (fun _ s' => Meets p v s') E := by
  have hserved : ∀ d, v.Of d →
      Serve p (p.world s.sent) d .credGetStatus (fun _ => True) fun _ => v := by
    intro d h
    obtain ⟨m, hanswer, -⟩ := credStatus_answers d.cred
    exact ⟨trivial, rfl, sent_of_answer (r := .cred (.statusRsp .ok _)) hanswer, h⟩
  have hcall : Ends (call c p .credGetStatus .credStatus) s _ E :=
    call_ends (q := .credGetStatus) serves speaks trivial (by decide)
      (registered_cred registered) meets stable (fun _ => opened) hserved fun _ => rfl
  refine hcall.mono ?_ fun _ _ h => h
  rintro x s' ⟨r, _, _, h⟩
  exact h

lemma bootstrapCredentials_refused (serves : Serves p)
    (speaks : Speaks c) (registered : p.board.build.cred = true) {k : Credentials}
    (fit : k.Fit) (closed : Closed p v.session) (stable : Stable v.station) (meets : Meets p v s) :
    Ends (bootstrapCredentials c p k.certificate k.privateKey k.ca) s (fun _ _ => False)
      (fun stop s' => stop = .refused ∧ Meets p v s') := by
  have hpos : 0 < k.certificate.length := fit.certificate.1
  have hfits := fit.certificate.2
  have hcap : CredStore.cap .deviceCert = 2048 := rfl
  have hlength := CredPush.piece_length k.certificate 0 CredPush.defaultChunk
  have hsmall := CredPush.piecesFit_default fit.certificate.2 0
  rw [Nat.zero_mul] at hsmall
  have hcall : Ends (call c p (.credWrite .deviceCert 0 k.certificate.length
      (piece k.certificate 0 CredPush.defaultChunk)) .credWrite) s (fun _ _ => False) _ :=
    call_refused (q := .credWrite .deviceCert _ _ _) serves speaks
      ⟨by decide, by omega, by omega⟩ (hsmall hpos) (registered_cred registered)
      meets stable rfl closed
  rw [bootstrapCredentials, pushCredential, loop, pushPiece, if_pos hpos]
  exact hcall.stop.stop.stop

end Credentials

section Reprovision

variable {c : Client} {p : Peer} {v : View} {s : At c} {E : Stop c → At c → Prop}

/-- Every deletion succeeds. -/
def Wipes (p : Peer) : Prop :=
  ∀ n, (p.world n).wipe.wifi = true ∧ ∀ kind, (p.world n).wipe.cred kind = true

/-- There is no credential, and none that a finalize would store. -/
def Emptied (st : Store) : Prop :=
  ∀ kind, CredPush.stored st kind = none ∧ CredStore.credPresent st kind = false

/-- No network is stored. -/
def Forgotten (wc : WifiConfig.State) : Prop := wc.creds = []

lemma emptied_deleteAll {del : CredKind → Bool} (all : ∀ kind, del kind = true) (st : Store) :
    Emptied (CredStore.credDeleteAll del st) := by
  intro kind
  constructor
  · simp [CredPush.stored, CredStore.fullyStaged, CredStore.credDeleteAll, all kind]
  · simp [CredStore.credPresent, CredStore.credDeleteAll]

/-- The view of a client that has had everything wiped. -/
def emptied (v : View) : View := { v with cred := Emptied, station := Forgotten }

theorem reprovision_ends (serves : Serves p) (speaks : Speaks c) (wipes : Wipes p)
    (full : p.board.build.wifi = true ∧ p.board.build.cred = true) (opened : Opens p v.session)
    (stable : Stable v.station) (meets : Meets p v s) :
    Ends (reprovision c p) s (fun _ s' => Meets p (emptied v) s') E := by
  have hserved : ∀ d, v.Of d →
      Serve p (p.world s.sent) d (.ctrl .reprovision) (fun _ => True) fun _ => emptied v := by
    intro d h
    obtain ⟨hwifi, hcred⟩ := wipes s.sent
    have hserve : serve p.board (p.world s.sent) d (.ctrl .reprovision) =
        (.ctrl .reprovision .ok, { d with
          wifi := { d.wifi with wc := WifiConfig.wifiReprovision true d.wifi.wc }
          cred := CredStore.credDeleteAll (p.world s.sent).wipe.cred d.cred }) := by
      simp only [serve, full, hwifi, if_true]
    exact serve_of hserve trivial rfl rfl
      ⟨h.running, h.session, emptied_deleteAll hcred d.cred, rfl, h.address⟩
  have hcall : Ends (call c p (.ctrl .reprovision) (.ctrl .reprovision)) s _ E :=
    call_ends (q := .ctrl .reprovision) serves speaks trivial (by decide)
      (by simp [endpoint, endpoints]) meets stable (fun _ => opened) hserved fun _ => rfl
  refine hcall.mono ?_ fun _ _ h => h
  rintro _ s' ⟨_, -, -, h⟩
  exact h

end Reprovision

end ClientFlows
