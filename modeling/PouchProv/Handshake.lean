import PouchProv.AuthGate
import PouchProv.PythonResponses
import Mathlib.Logic.Function.Basic

/-!
# Agreement of the proof-of-possession handshake

Any number of devices and of client runs of `authorize` share one secret. All
messages go through an attacker: what a device receives and what a client run gets
as a response are arbitrary bytes. The log, newest first, records what the honest
parties did.

What is assumed of the HMAC and of the nonces is said about the steps of a run:
a proof that a party finds right was sent by an honest party before
(`Unforgeable`), messages with equal HMACs are equal (`CollisionFree`), and a
nonce that a device draws was not drawn before (`FreshNonce`). Each is asked only
of the messages and nonces that occur.
-/

namespace Handshake

open Bytes Codec Handlers Auth Device AuthGate ProvTypes Status Runs

/-- What honest parties do. A client run chooses a nonce, accepts a device proof, and sends
its own proof. A device draws a nonce for a challenge, queues its response to it, becomes
authorized under the nonces of its last challenge, and resets its session. -/
inductive Mark where
  | chose (run : Nat) (cliNonce : Bytes)
  | accepted (run : Nat) (devNonce cliNonce : Bytes)
  | emitted (run : Nat) (devNonce cliNonce : Bytes)
  | challenged (dev : Nat) (cliNonce devNonce : Bytes)
  | answered (dev : Nat) (cliNonce devNonce : Bytes)
  | authorized (dev : Nat) (cliNonce devNonce : Bytes)
  | reset (dev : Nat)
  deriving DecidableEq, Repr

def devMessage (cliNonce devNonce : Bytes) : Bytes := utf8 "dev" ++ cliNonce ++ devNonce

def cliMessage (devNonce cliNonce : Bytes) : Bytes := utf8 "cli" ++ devNonce ++ cliNonce

/-- The message whose HMAC was sent. -/
def Mark.message : Mark → Option Bytes
  | .answered _ cliNonce devNonce => some (devMessage cliNonce devNonce)
  | .emitted _ devNonce cliNonce => some (cliMessage devNonce cliNonce)
  | _ => none

/-- The devices: their secret and HMAC function are the same. -/
structure Fleet where
  pop : Bytes
  hmac : Option Bytes → Bytes → Bytes
  board : Nat → Board
  sharedPop : ∀ i, (board i).pop = some pop
  sharedHmac : ∀ i, (board i).hmac = hmac
  auth : ∀ i, (board i).build.auth

/-- The message decoders of a client. -/
structure Authorizer where
  decodeChallengeRsp : Bytes → Option (Bytes × Bytes)
  decodeProofRsp : Bytes → Bool

/-- The decoders of `codec.py`. -/
def pythonAuthorizer (py : Clients.Python) : Authorizer where
  decodeChallengeRsp data := (ClientResponses.Python.decodeAuthChallengeRsp py data).toOption
  decodeProofRsp data := (ClientResponses.Python.decodeAuthProofRsp py data).isOk

/-- One call of `authorize`. -/
inductive Run where
  | idle
  | challenged (cliNonce : Nonce)
  | proved
  | ended (returned : Bool)
  deriving DecidableEq, Repr

/-- The response to the request that a run is waiting for, or the failure of that request. -/
def reply (f : Fleet) (a : Authorizer) (r : Nat) (rsp : Option Bytes) : Run → Run × List Mark
  | .challenged cliNonce =>
    match rsp.bind a.decodeChallengeRsp with
    | none => (.ended false, [])
    | some (devNonce, devProof) =>
      if devProof ≠ f.hmac (some f.pop) (devMessage cliNonce devNonce) then (.ended false, [])
      else (.proved, [.emitted r devNonce cliNonce, .accepted r devNonce cliNonce])
  | .proved => (.ended (rsp.any a.decodeProofRsp), [])
  | run => (run, [])

structure Net where
  devs : Nat → Dev
  runs : Nat → Run
  log : List Mark

inductive Ev where
  | device (i : Nat) (e : Device.Ev)
  | start (r : Nat) (cliNonce : Nonce)
  | reply (r : Nat) (rsp : Option Bytes)

/-- What the session of a device has recorded since an earlier state. -/
def newObs (s s' : Session) : List Obs :=
  s'.history.take (s'.history.length - s.history.length)

/-- The device queued the response to the challenge, with its proof. -/
def answers (b : Board) (q q' : Rpc) (cliNonce devNonce : Bytes) : Bool :=
  match answer (encodeAuthRsp (.challengeRsp .ok devNonce
    (b.hmac b.pop (devMessage cliNonce devNonce)))) with
  | .ok m => q'.enqueued = q.enqueued ++ [⟨path .auth, m⟩]
  | .error _ => false

/-- The marks of one step, from what the session recorded in it. -/
def marksOf (b : Board) (i : Nat) (d : Dev) (q' : Rpc) (obs : List Obs) : List Mark :=
  obs.flatMap fun o => match o with
    | .challenge cliNonce devNonce =>
      (if answers b d.rpc q' cliNonce devNonce then [.answered i cliNonce devNonce] else []) ++
        [.challenged i cliNonce devNonce]
    | .proof _ _ _ true => [.authorized i d.session.auth.cliNonce d.session.auth.devNonce]
    | .reset => [.reset i]
    | _ => []

def deviceMarks (b : Board) (i : Nat) (d d' : Dev) : List Mark :=
  marksOf b i d d'.rpc (newObs d.session d'.session)

def step (f : Fleet) (a : Nat → Authorizer) (s : Net) : Ev → Net
  | .device i e =>
    let d := Device.step (f.board i) (s.devs i) e
    { s with devs := Function.update s.devs i d
             log := deviceMarks (f.board i) i (s.devs i) d ++ s.log }
  | .start r cliNonce =>
    match s.runs r with
    | .idle => { s with runs := Function.update s.runs r (.challenged cliNonce)
                        log := .chose r cliNonce :: s.log }
    | _ => s
  | .reply r rsp =>
    let (run, marks) := reply f (a r) r rsp (s.runs r)
    { s with runs := Function.update s.runs r run, log := marks ++ s.log }

def start (devs : Nat → Dev) : Net where
  devs i := { devs i with session := fresh }
  runs _ := .idle
  log := []

/-- The proof that a step compares, with the message whose HMAC it should be. -/
def compares (f : Fleet) (a : Nat → Authorizer) (s : Net) : Ev → Option (Bytes × Bytes)
  | .device i e =>
    match arrives (s.devs i) e with
    | some (.auth, req) =>
      match decodeWith (f.board i).zcbor decodeAuthReq req with
      | some (.proof p) =>
        if (s.devs i).session.auth.challenged then
          some (p, cliMessage (s.devs i).session.auth.devNonce (s.devs i).session.auth.cliNonce)
        else none
      | _ => none
    | _ => none
  | .start _ _ => none
  | .reply r rsp =>
    match s.runs r with
    | .challenged cliNonce =>
      (rsp.bind (a r).decodeChallengeRsp).map fun x => (x.2, devMessage cliNonce x.1)
    | _ => none

/-- The messages whose HMACs honest parties have sent. -/
def sentMessages (log : List Mark) : List Bytes := log.filterMap Mark.message

/-- The nonces that devices have drawn. -/
def drawn (log : List Mark) : List Bytes :=
  log.filterMap fun m => match m with
    | .challenged _ _ devNonce => some devNonce
    | _ => none

/-- Without the secret no HMAC is computed: one that is right was sent before. -/
def Unforgeable (f : Fleet) (a : Nat → Authorizer) (s : Net) (e : Ev) : Prop :=
  ∀ x ∈ compares f a s e, x.1 = f.hmac (some f.pop) x.2 →
    x.1 ∈ (sentMessages s.log).map (f.hmac (some f.pop))

def CollisionFree (f : Fleet) (a : Nat → Authorizer) (s : Net) (e : Ev) : Prop :=
  ∀ x ∈ compares f a s e, ∀ m ∈ sentMessages s.log,
    f.hmac (some f.pop) m = f.hmac (some f.pop) x.2 → m = x.2

/-- A nonce that a device draws was drawn by no device before. -/
def FreshNonce (f : Fleet) (s : Net) : Ev → Prop
  | .device i e =>
    ∀ n ∈ drawn (deviceMarks (f.board i) i (s.devs i) (Device.step (f.board i) (s.devs i) e)),
      n ∉ drawn s.log
  | _ => True

structure Symbolic (f : Fleet) (a : Nat → Authorizer) (s : Net) (e : Ev) : Prop where
  unforgeable : Unforgeable f a s e
  collisionFree : CollisionFree f a s e
  fresh : FreshNonce f s e

section Decidable

variable (f : Fleet) (a : Nat → Authorizer) (s : Net)

instance (e : Ev) : Decidable (Unforgeable f a s e) :=
  inferInstanceAs (Decidable (∀ x ∈ compares f a s e, _ → _))

instance (e : Ev) : Decidable (CollisionFree f a s e) :=
  inferInstanceAs (Decidable (∀ x ∈ compares f a s e, ∀ m ∈ sentMessages s.log, _ → _))

instance : (e : Ev) → Decidable (FreshNonce f s e)
  | .device i e => inferInstanceAs (Decidable (∀ n ∈ drawn (deviceMarks (f.board i) i (s.devs i)
      (Device.step (f.board i) (s.devs i) e)), n ∉ drawn s.log))
  | .start _ _ => isTrue trivial
  | .reply _ _ => isTrue trivial

instance (e : Ev) : Decidable (Symbolic f a s e) :=
  decidable_of_iff (Unforgeable f a s e ∧ CollisionFree f a s e ∧ FreshNonce f s e)
    ⟨fun ⟨hu, hc, hf⟩ => ⟨hu, hc, hf⟩, fun ⟨hu, hc, hf⟩ => ⟨hu, hc, hf⟩⟩

end Decidable

/-- A device becomes authorized under its nonces only if, since it drew its own nonce in the
session that is still open, a client run that had chosen the other one accepted a device proof
for the pair and sent its proof. A client run sends its proof only if a device has answered a
challenge with the pair. -/
structure Agreement (log : List Mark) : Prop where
  device : ∀ newer i cliNonce devNonce older,
    log = newer ++ .authorized i cliNonce devNonce :: older →
    ∃ r later between earlier,
      older = later ++ .emitted r devNonce cliNonce :: .accepted r devNonce cliNonce :: between ++
        .challenged i cliNonce devNonce :: earlier ∧
      .reset i ∉ later ++ between ∧
      .chose r cliNonce ∈ between ++ .challenged i cliNonce devNonce :: earlier
  client : ∀ newer r devNonce cliNonce older,
    log = newer ++ .emitted r devNonce cliNonce :: older →
    ∃ i, .answered i cliNonce devNonce ∈ older

/-- What a mark says about the part of the log before it. -/
def Justified : Mark → List Mark → Prop
  | .accepted r devNonce cliNonce, older =>
    .chose r cliNonce ∈ older ∧ ∃ j, .answered j cliNonce devNonce ∈ older
  | .emitted r devNonce cliNonce, older =>
    ∃ older', older = .accepted r devNonce cliNonce :: older'
  | .challenged _ cliNonce devNonce, older =>
    devNonce ∉ drawn older ∧ cliNonce.length = nonceLen ∧ devNonce.length = nonceLen
  | .answered i cliNonce devNonce, older =>
    ∃ older', older = .challenged i cliNonce devNonce :: older'
  | .authorized i cliNonce devNonce, older =>
    ∃ r later between earlier,
      older = later ++ .emitted r devNonce cliNonce :: .accepted r devNonce cliNonce :: between ++
        .challenged i cliNonce devNonce :: earlier ∧
      .reset i ∉ later ++ between ∧
      .chose r cliNonce ∈ between ++ .challenged i cliNonce devNonce :: earlier
  | _, _ => True

def Sound : List Mark → Prop
  | [] => True
  | m :: older => Justified m older ∧ Sound older

section Log

variable {log : List Mark}

theorem Sound.at_mark {newer older : List Mark} {m : Mark} (h : Sound (newer ++ m :: older)) :
    Justified m older ∧ Sound older := by
  induction newer with
  | nil => exact h
  | cons n newer ih => exact ih h.2

theorem Sound.agreement (h : Sound log) : Agreement log := by
  constructor
  · rintro newer i cliNonce devNonce older rfl
    exact h.at_mark.1
  · rintro newer r devNonce cliNonce older rfl
    obtain ⟨⟨older', rfl⟩, haccepted, -⟩ := h.at_mark
    obtain ⟨-, j, hj⟩ := haccepted
    exact ⟨j, List.mem_cons_of_mem _ hj⟩

/-- A device answers the challenge for which it has just drawn a nonce. -/
theorem Sound.challenged_of_answered (h : Sound log) {i : Nat} {cliNonce devNonce : Bytes}
    (ha : .answered i cliNonce devNonce ∈ log) : .challenged i cliNonce devNonce ∈ log := by
  obtain ⟨newer, older, rfl⟩ := List.append_of_mem ha
  obtain ⟨⟨older', rfl⟩, -⟩ := h.at_mark
  simp

theorem Sound.sizes_of_challenged (h : Sound log) {i : Nat} {cliNonce devNonce : Bytes}
    (hc : .challenged i cliNonce devNonce ∈ log) :
    cliNonce.length = nonceLen ∧ devNonce.length = nonceLen := by
  obtain ⟨newer, older, rfl⟩ := List.append_of_mem hc
  exact h.at_mark.1.2

/-- The run that sent a proof had accepted the proof of a device for the pair. -/
theorem Sound.accepted_of_emitted (h : Sound log) {newer older : List Mark} {r : Nat}
    {devNonce cliNonce : Bytes} (split : log = newer ++ .emitted r devNonce cliNonce :: older) :
    ∃ older', older = .accepted r devNonce cliNonce :: older' ∧ .chose r cliNonce ∈ older' ∧
      ∃ j, .challenged j cliNonce devNonce ∈ older' := by
  subst split
  obtain ⟨⟨older', rfl⟩, ⟨hchose, j, hj⟩, hsound⟩ := h.at_mark
  exact ⟨older', rfl, hchose, j, hsound.challenged_of_answered hj⟩

theorem Sound.sizes_of_emitted (h : Sound log) {r : Nat} {devNonce cliNonce : Bytes}
    (he : .emitted r devNonce cliNonce ∈ log) :
    cliNonce.length = nonceLen ∧ devNonce.length = nonceLen := by
  obtain ⟨newer, older, rfl⟩ := List.append_of_mem he
  obtain ⟨older', rfl, -, j, hj⟩ := h.accepted_of_emitted rfl
  exact h.at_mark.2.2.sizes_of_challenged hj

theorem mem_drawn {i : Nat} {cliNonce devNonce : Bytes}
    (h : .challenged i cliNonce devNonce ∈ log) : devNonce ∈ drawn log :=
  List.mem_filterMap.mpr ⟨_, h, rfl⟩

/-- A proof for the nonces of a challenge was sent after that challenge: the nonce that the
device drew for it is in no older mark. -/
theorem Sound.emitted_after {later earlier : List Mark} {i r : Nat} {cliNonce devNonce : Bytes}
    (h : Sound (later ++ .challenged i cliNonce devNonce :: earlier))
    (sent : .emitted r devNonce cliNonce ∈ later ++ .challenged i cliNonce devNonce :: earlier) :
    ∃ newer between,
      later = newer ++ .emitted r devNonce cliNonce :: .accepted r devNonce cliNonce :: between ∧
      .chose r cliNonce ∈ between ++ .challenged i cliNonce devNonce :: earlier := by
  rcases List.mem_append.mp sent with hlater | hrest
  · obtain ⟨newer, older, rfl⟩ := List.append_of_mem hlater
    rw [List.append_assoc, List.cons_append] at h
    obtain ⟨older', hold, hchose, -⟩ := h.accepted_of_emitted rfl
    cases older with
    | nil => cases hold
    | cons m between =>
      obtain ⟨rfl, rfl⟩ := List.cons.inj hold
      exact ⟨newer, between, rfl, hchose⟩
  · exfalso
    rcases List.mem_cons.mp hrest with heq | hearlier
    · cases heq
    · obtain ⟨⟨hfresh, -⟩, htail⟩ := h.at_mark
      obtain ⟨newer, older, rfl⟩ := List.append_of_mem hearlier
      obtain ⟨older', rfl, -, j, hj⟩ := htail.accepted_of_emitted rfl
      have hdrawn := List.mem_cons_of_mem (.accepted r devNonce cliNonce) hj
      exact hfresh (mem_drawn (List.mem_append_right _ (List.mem_cons_of_mem _ hdrawn)))

end Log

theorem devMessage_inj {a b c d : Bytes} (len : a.length = c.length)
    (h : devMessage a b = devMessage c d) : a = c ∧ b = d := by
  simp only [devMessage, List.append_assoc] at h
  exact List.append_inj (List.append_cancel_left h) len

theorem cliMessage_inj {a b c d : Bytes} (len : a.length = c.length)
    (h : cliMessage a b = cliMessage c d) : a = c ∧ b = d := by
  simp only [cliMessage, List.append_assoc] at h
  exact List.append_inj (List.append_cancel_left h) len

theorem devMessage_ne_cliMessage (a b c d : Bytes) : devMessage a b ≠ cliMessage c d := by
  intro h
  have hdev : (utf8 "dev").head? = some 0x64 := by decide
  have hcli : (utf8 "cli").head? = some 0x63 := by decide
  have hhead := congrArg List.head? h
  simp only [devMessage, cliMessage, List.append_assoc, List.head?_append, hdev, hcli,
    Option.some_or] at hhead
  exact absurd hhead (by decide)

section Sent

variable {log : List Mark}

theorem answered_of_sent (h : Sound log) {cliNonce devNonce : Bytes}
    (len : cliNonce.length = nonceLen) (sent : devMessage cliNonce devNonce ∈ sentMessages log) :
    ∃ i, .answered i cliNonce devNonce ∈ log := by
  obtain ⟨mark, hmark, hmessage⟩ := List.mem_filterMap.mp sent
  cases mark with
  | answered i cliNonce' devNonce' =>
    have hsizes := h.sizes_of_challenged (h.challenged_of_answered hmark)
    obtain ⟨rfl, rfl⟩ := devMessage_inj (hsizes.1.trans len.symm) (Option.some.inj hmessage)
    exact ⟨i, hmark⟩
  | emitted r devNonce' cliNonce' =>
    exact absurd (Option.some.inj hmessage).symm (devMessage_ne_cliMessage _ _ _ _)
  | _ => cases hmessage

theorem emitted_of_sent (h : Sound log) {devNonce cliNonce : Bytes}
    (len : devNonce.length = nonceLen) (sent : cliMessage devNonce cliNonce ∈ sentMessages log) :
    ∃ r, .emitted r devNonce cliNonce ∈ log := by
  obtain ⟨mark, hmark, hmessage⟩ := List.mem_filterMap.mp sent
  cases mark with
  | answered i cliNonce' devNonce' =>
    exact absurd (Option.some.inj hmessage) (devMessage_ne_cliMessage _ _ _ _)
  | emitted r devNonce' cliNonce' =>
    have hsizes := h.sizes_of_emitted hmark
    obtain ⟨rfl, rfl⟩ := cliMessage_inj (hsizes.2.trans len.symm) (Option.some.inj hmessage)
    exact ⟨r, hmark⟩
  | _ => cases hmessage

/-- A proof that is found right is the HMAC of the same message, sent by an honest party. -/
theorem Symbolic.sent {f : Fleet} {a : Nat → Authorizer} {s : Net} {e : Ev} {p m : Bytes}
    (h : Symbolic f a s e) (compared : compares f a s e = some (p, m))
    (right : p = f.hmac (some f.pop) m) : m ∈ sentMessages s.log := by
  obtain ⟨m', hm', hsame⟩ := List.mem_map.mp (h.unforgeable (p, m) compared right)
  have heq : m' = m := h.collisionFree (p, m) compared m' hm' (hsame.trans right)
  exact heq ▸ hm'

end Sent

/-- The nonces have their sizes, also before any challenge. -/
def Sized (s : Session) : Prop :=
  s.auth.cliNonce.length = nonceLen ∧ s.auth.devNonce.length = nonceLen

theorem handleAuth_sized (z : Zcbor) (c : Crypto) (pop : Option Bytes) (rand : Nonce) {s : Session}
    (h : Sized s) (req : Bytes) : Sized (handleAuth z c pop rand s req).2 := by
  rw [handleAuth]
  split
  · exact h
  · rw [handleChallenge]
    split
    · exact h
    · rename_i hlen
      simp only
      split
      · exact ⟨not_not.mp hlen, rand.property⟩
      · exact ⟨not_not.mp hlen, rand.property⟩
  · rw [handleProof]
    split
    · exact h
    · simp only
      split
      · exact h
      · split
        · exact h
        · split
          · exact h
          · exact h

theorem sessionReset_sized (build : Build) {s : Session} (h : Sized s) :
    Sized (sessionReset build s) := by
  simp only [Sized, sessionReset, Session.log]
  split
  · exact ⟨List.length_replicate, List.length_replicate⟩
  · exact h

theorem step_sized (b : Board) {d : Dev} (e : Device.Ev) (h : Sized d.session) :
    Sized (Device.step b d e).session := by
  have hmove := step_moves b d e
  generalize (Device.step b d e).session = s' at hmove ⊢
  cases hmove with
  | stays => exact h
  | resets => exact sessionReset_sized _ h
  | handles ep other admitted => exact h
  | stops admitted => exact sessionReset_sized b.build (s := d.session.log (.handler .ctrl)) h
  | auths req arrival w =>
    exact handleAuth_sized b.zcbor ⟨b.hmac, w.crypto⟩ b.pop w.rand
      (s := d.session.log (.handler .auth)) h req

theorem newObs_of_append {s s' : Session} (new : List Obs) (h : s'.history = new ++ s.history) :
    newObs s s' = new := by
  rw [newObs, h, List.length_append, Nat.add_sub_cancel]
  exact List.take_left

/-- The last challenge of the session is the same. -/
structure SameChallenge (s s' : Session) : Prop where
  challenged : s'.auth.challenged = s.auth.challenged
  cliNonce : s'.auth.cliNonce = s.auth.cliNonce
  devNonce : s'.auth.devNonce = s.auth.devNonce

/-- What a step of a device adds to the log. -/
inductive Adds (b : Board) (i : Nat) (d : Dev) (e : Device.Ev) (s' : Session) :
    List Mark → Prop where
  | nothing (same : SameChallenge d.session s') : Adds b i d e s' []
  | reset (closed : s'.auth.challenged = false) : Adds b i d e s' [.reset i]
  | challenge (answer : List Mark)
      (only : answer = [] ∨ answer = [.answered i s'.auth.cliNonce s'.auth.devNonce]) :
      Adds b i d e s' (answer ++ [.challenged i s'.auth.cliNonce s'.auth.devNonce])
  | authorizes (same : SameChallenge d.session s') (open_ : d.session.auth.challenged = true)
      (req p : Bytes) (arrival : arrives d e = some (.auth, req))
      (is_proof : decodeWith b.zcbor decodeAuthReq req = some (.proof p))
      (right : p = b.hmac b.pop (cliMessage d.session.auth.devNonce d.session.auth.cliNonce)) :
      Adds b i d e s' [.authorized i d.session.auth.cliNonce d.session.auth.devNonce]

theorem auth_adds {b : Board} (i : Nat) {d : Dev} {e : Device.Ev} {req : Bytes}
    (arrival : arrives d e = some (.auth, req)) {c : Crypto} (hmac : c.hmac = b.hmac)
    {s' : Session} (effect : Effect b.zcbor c b.pop (d.session.log (.handler .auth)) req s')
    (q' : Rpc) : Adds b i d e s' (marksOf b i d q' (newObs d.session s')) := by
  cases effect with
  | ignored =>
    rw [newObs_of_append [.handler .auth] rfl]
    exact .nothing ⟨rfl, rfl, rfl⟩
  | challenged nonce rand =>
    have hmarks : marksOf b i d q' [.hmac b.pop, .challenge nonce rand, .handler .auth] =
        (if answers b d.rpc q' nonce rand then [.answered i nonce rand] else []) ++
          [.challenged i nonce rand] := by
      simp [marksOf]
    rw [newObs_of_append [.hmac b.pop, .challenge nonce rand, .handler .auth] rfl, hmarks]
    refine .challenge _ ?_
    split
    · exact Or.inr rfl
    · exact Or.inl rfl
  | refused p unchallenged =>
    rw [newObs_of_append [.proof p false (some .invalidState) false, .handler .auth] rfl]
    exact .nothing ⟨rfl, rfl, rfl⟩
  | exhausted p is_proof challenged exceeded =>
    rw [newObs_of_append [.proof p false (some .unauthorized) false, .handler .auth] rfl]
    exact .nothing ⟨rfl, rfl, rfl⟩
  | failed p is_proof challenged within =>
    rw [newObs_of_append [.proof p false none false, .hmac b.pop, .handler .auth] rfl]
    exact .nothing ⟨rfl, rfl, rfl⟩
  | mismatch p is_proof challenged within =>
    rw [newObs_of_append [.proof p true (some .unauthorized) false, .hmac b.pop, .handler .auth]
      rfl]
    exact .nothing ⟨rfl, rfl, rfl⟩
  | accepted p is_proof challenged within matching =>
    rw [newObs_of_append [.proof p true (some .ok) true, .hmac b.pop, .handler .auth] rfl]
    refine .authorizes ⟨rfl, rfl, rfl⟩ challenged req p arrival is_proof ?_
    rw [matching, hmac]
    rfl

theorem deviceMarks_adds {b : Board} (auth : b.build.auth) (i : Nat) (d : Dev) (e : Device.Ev) :
    Adds b i d e (Device.step b d e).session (deviceMarks b i d (Device.step b d e)) := by
  have hmove := step_moves b d e
  rw [deviceMarks]
  generalize (Device.step b d e).rpc = q'
  generalize (Device.step b d e).session = s' at hmove ⊢
  cases hmove with
  | stays =>
    rw [newObs_of_append [] rfl]
    exact .nothing ⟨rfl, rfl, rfl⟩
  | resets =>
    rw [newObs_of_append [.reset] rfl]
    exact .reset (by simp [sessionReset, Session.log, auth, AuthState.zero])
  | handles ep other admitted =>
    rw [newObs_of_append [.handler ep] rfl]
    exact .nothing ⟨rfl, rfl, rfl⟩
  | stops admitted =>
    rw [newObs_of_append [.reset, .handler .ctrl] rfl]
    exact .reset (by simp [sessionReset, Session.log, auth, AuthState.zero])
  | auths req arrival w =>
    exact auth_adds i arrival rfl (handleAuth_effect b.zcbor ⟨b.hmac, w.crypto⟩ b.pop w.rand
      (d.session.log (.handler .auth)) req) q'

/-- The device was challenged with the pair in the session that is still open. -/
def Opened (log : List Mark) (i : Nat) (cliNonce devNonce : Bytes) : Prop :=
  ∃ later earlier, log = later ++ .challenged i cliNonce devNonce :: earlier ∧ .reset i ∉ later

structure Inv (s : Net) : Prop where
  sound : Sound s.log
  sized : ∀ i, Sized (s.devs i).session
  opened : ∀ i, (s.devs i).session.auth.challenged →
    Opened s.log i (s.devs i).session.auth.cliNonce (s.devs i).session.auth.devNonce
  waiting : ∀ r cliNonce, s.runs r = .challenged cliNonce → .chose r cliNonce ∈ s.log

theorem start_inv (devs : Nat → Dev) : Inv (start devs) where
  sound := trivial
  sized := fun _ => ⟨List.length_replicate, List.length_replicate⟩
  opened := fun _ h => (by cases h)
  waiting := fun _ _ h => (by cases h)

section Steps

variable {f : Fleet} {a : Nat → Authorizer} {s : Net}

theorem Opened.append {i : Nat} {cliNonce devNonce : Bytes} {marks log : List Mark}
    (h : Opened log i cliNonce devNonce) (quiet : .reset i ∉ marks) :
    Opened (marks ++ log) i cliNonce devNonce := by
  obtain ⟨later, earlier, rfl, hreset⟩ := h
  refine ⟨marks ++ later, earlier, (List.append_assoc _ _ _).symm, ?_⟩
  rw [List.mem_append]
  exact not_or.mpr ⟨quiet, hreset⟩

/-- The proof that a device accepts was sent by a client run after the device drew its nonce:
before that no honest party had seen the nonce. -/
theorem authorized_justified (h : Inv s) {i : Nat} {e : Device.Ev} {req p : Bytes}
    (symbolic : Symbolic f a s (.device i e)) (opened : (s.devs i).session.auth.challenged = true)
    (arrival : arrives (s.devs i) e = some (.auth, req))
    (is_proof : decodeWith (f.board i).zcbor decodeAuthReq req = some (.proof p))
    (right : p = (f.board i).hmac (f.board i).pop
      (cliMessage (s.devs i).session.auth.devNonce (s.devs i).session.auth.cliNonce)) :
    Justified (.authorized i (s.devs i).session.auth.cliNonce (s.devs i).session.auth.devNonce)
      s.log := by
  rw [f.sharedHmac, f.sharedPop] at right
  have hcompares : compares f a s (.device i e) = some (p,
      cliMessage (s.devs i).session.auth.devNonce (s.devs i).session.auth.cliNonce) := by
    simp only [compares, arrival, is_proof, opened, if_true]
  obtain ⟨r, hr⟩ := emitted_of_sent h.sound (h.sized i).2 (symbolic.sent hcompares right)
  obtain ⟨later, earlier, hlog, hreset⟩ := h.opened i opened
  have hsound := h.sound
  rw [hlog] at hr hsound
  obtain ⟨newer, between, rfl, hchose⟩ := hsound.emitted_after hr
  refine ⟨r, newer, between, earlier, hlog, ?_, hchose⟩
  intro hmem
  refine hreset ?_
  rcases List.mem_append.mp hmem with hnewer | hbetween
  · exact List.mem_append_left _ hnewer
  · exact List.mem_append_right _ (List.mem_cons_of_mem _ (List.mem_cons_of_mem _ hbetween))

theorem device_opened (h : Inv s) {i : Nat} {e : Device.Ev} {s' : Session} {marks : List Mark}
    (adds : Adds (f.board i) i (s.devs i) e s' marks) (hopen : s'.auth.challenged) :
    Opened (marks ++ s.log) i s'.auth.cliNonce s'.auth.devNonce := by
  cases adds with
  | nothing same =>
    rw [same.cliNonce, same.devNonce]
    exact h.opened i (same.challenged ▸ hopen)
  | reset closed =>
    rw [closed] at hopen
    cases hopen
  | challenge answer only =>
    refine ⟨answer, s.log, by rw [List.append_assoc]; rfl, ?_⟩
    rcases only with rfl | rfl
    · exact List.not_mem_nil
    · simp
  | authorizes same opened req p arrival is_proof right =>
    rw [same.cliNonce, same.devNonce]
    exact (h.opened i opened).append (by simp)

theorem adds_reset {b : Board} {i j : Nat} {d : Dev} {e : Device.Ev} {s' : Session}
    {marks : List Mark} (adds : Adds b i d e s' marks) (other : j ≠ i) : .reset j ∉ marks := by
  cases adds with
  | nothing same => exact List.not_mem_nil
  | reset closed => simpa using other
  | challenge answer only => rcases only with rfl | rfl <;> simp
  | authorizes same opened req p arrival is_proof right => simp

theorem device_sound (h : Inv s) {i : Nat} {e : Device.Ev} (symbolic : Symbolic f a s (.device i e))
    {marks : List Mark} (fresh : ∀ n ∈ drawn marks, n ∉ drawn s.log)
    (adds : Adds (f.board i) i (s.devs i) e (Device.step (f.board i) (s.devs i) e).session marks) :
    Sound (marks ++ s.log) := by
  cases adds with
  | nothing same => exact h.sound
  | reset closed => exact ⟨trivial, h.sound⟩
  | challenge answer only =>
    have hsized := step_sized (f.board i) e (h.sized i)
    have hfresh := fresh _ (mem_drawn (List.mem_append_right answer List.mem_cons_self))
    have hchallenged : Sound (.challenged i
        (Device.step (f.board i) (s.devs i) e).session.auth.cliNonce
        (Device.step (f.board i) (s.devs i) e).session.auth.devNonce :: s.log) :=
      ⟨⟨hfresh, hsized⟩, h.sound⟩
    rcases only with rfl | rfl
    · exact hchallenged
    · exact ⟨⟨s.log, rfl⟩, hchallenged⟩
  | authorizes same opened req p arrival is_proof right =>
    exact ⟨authorized_justified h symbolic opened arrival is_proof right, h.sound⟩

theorem device_inv (h : Inv s) {i : Nat} {e : Device.Ev} (symbolic : Symbolic f a s (.device i e)) :
    Inv (step f a s (.device i e)) := by
  have hadds := deviceMarks_adds (f.auth i) i (s.devs i) e
  refine ⟨device_sound h symbolic symbolic.fresh hadds, ?_, ?_, ?_⟩
  · intro j
    by_cases hj : j = i
    · subst hj
      simp only [step, Function.update_self]
      exact step_sized (f.board j) e (h.sized j)
    · simp only [step, Function.update_of_ne hj]
      exact h.sized j
  · intro j hopen
    by_cases hj : j = i
    · subst hj
      simp only [step, Function.update_self] at hopen ⊢
      exact device_opened h hadds hopen
    · simp only [step, Function.update_of_ne hj] at hopen ⊢
      exact (h.opened j hopen).append (adds_reset hadds hj)
  · intro r cliNonce hrun
    exact List.mem_append_right _ (h.waiting r cliNonce hrun)

/-- A step of a client run leaves the devices and the other runs alone. -/
theorem client_inv (h : Inv s) (r : Nat) (run : Run) (marks : List Mark)
    (sound : Sound (marks ++ s.log)) (quiet : ∀ i, .reset i ∉ marks)
    (waiting : ∀ cliNonce, run = .challenged cliNonce → .chose r cliNonce ∈ marks ++ s.log) :
    Inv { s with runs := Function.update s.runs r run, log := marks ++ s.log } where
  sound := sound
  sized := h.sized
  opened := fun i hopen => (h.opened i hopen).append (quiet i)
  waiting := by
    intro r' cliNonce hrun
    by_cases hr : r' = r
    · subst hr
      exact waiting cliNonce (Function.update_self r' run s.runs ▸ hrun)
    · simp only [Function.update_of_ne hr] at hrun
      exact List.mem_append_right _ (h.waiting r' cliNonce hrun)

theorem start_run_inv (h : Inv s) (r : Nat) (cliNonce : Nonce) :
    Inv (step f a s (.start r cliNonce)) := by
  simp only [step]
  split
  · refine client_inv h r (.challenged cliNonce) [.chose r cliNonce] ⟨trivial, h.sound⟩
      (by simp) ?_
    intro cliNonce' hsame
    cases hsame
    exact List.mem_cons_self
  · exact h

theorem reply_inv (h : Inv s) {r : Nat} {rsp : Option Bytes}
    (symbolic : Symbolic f a s (.reply r rsp)) : Inv (step f a s (.reply r rsp)) := by
  have hwaiting := h.waiting r
  simp only [step]
  cases hrun : s.runs r with
  | idle => exact client_inv h r .idle [] h.sound (by simp) (by simp)
  | proved =>
    exact client_inv h r (.ended (rsp.any (a r).decodeProofRsp)) [] h.sound (by simp) (by simp)
  | ended returned => exact client_inv h r (.ended returned) [] h.sound (by simp) (by simp)
  | challenged cliNonce =>
    have hended := client_inv h r (.ended false) [] h.sound (by simp) (by simp)
    simp only [reply]
    split
    · exact hended
    · rename_i devNonce devProof hdecoded
      split
      · exact hended
      · rename_i hright
        have hcompares : compares f a s (.reply r rsp) =
            some (devProof, devMessage cliNonce devNonce) := by
          simp only [compares, hrun, hdecoded, Option.map_some]
        -- The proof was sent by a device: the message of a client proof begins with another tag.
        have hanswered := answered_of_sent h.sound cliNonce.property
          (symbolic.sent hcompares (not_not.mp hright))
        refine client_inv h r .proved _ ?_ (by simp) (by simp)
        exact ⟨⟨_, rfl⟩, ⟨hwaiting cliNonce hrun, hanswered⟩, h.sound⟩

theorem step_inv (h : Inv s) {e : Ev} (symbolic : Symbolic f a s e) : Inv (step f a s e) := by
  cases e with
  | device i e => exact device_inv h symbolic
  | start r cliNonce => exact start_run_inv h r cliNonce
  | reply r rsp => exact reply_inv h symbolic

end Steps

/-- Mutual agreement of the handshake, for any number of interleaved runs of `authorize` and
device sessions under one secret. -/
theorem handshake_agreement (f : Fleet) (a : Nat → Authorizer) (devs : Nat → Dev) (es : List Ev)
    (symbolic : Each (step f a) (Symbolic f a) (start devs) es) :
    Always (step f a) (fun s => Agreement s.log) (start devs) es := by
  have hrun := always_of_each (I := Inv) (fun _ _ h hsymbolic => step_inv h hsymbolic)
    (start_inv devs) symbolic
  exact hrun.mono fun _ h => h.sound.agreement

/-- An HMAC that is long enough to tell the messages of a run apart. -/
def sampleFleet : Fleet where
  pop := utf8 "pop"
  hmac _ m := m.take proofLen
  board _ := { sampleBoard with hmac := fun _ m => m.take proofLen }
  sharedPop _ := rfl
  sharedHmac _ := rfl
  auth _ := rfl

def sampleNonce : Nonce := ⟨List.replicate nonceLen 1, by decide⟩

/-- One run of the Python client with one device. -/
def honestRun : List Ev :=
  let devNonce := zeroNonce.val
  let challengeRsp := Cbor.encode (.array [.uint 0, .uint 0, .bstr devNonce,
    .bstr (sampleFleet.hmac none (devMessage sampleNonce devNonce))])
  let proofReq := Cbor.encode (.array [.uint 1,
    .bstr (sampleFleet.hmac none (cliMessage devNonce sampleNonce))])
  [.start 0 sampleNonce] ++ (request .auth challengeReq).map (.device 0) ++
    [.reply 0 (some challengeRsp)] ++ (request .auth proofReq).map (.device 0)

def samplePythons : Nat → Authorizer := fun _ => pythonAuthorizer Clients.samplePython

theorem handshake_agreement_honest :
    .authorized 0 sampleNonce zeroNonce ∈
      (honestRun.foldl (step sampleFleet samplePythons) (start fun _ => sampleDevice)).log ∧
    Always (step sampleFleet samplePythons) (fun s => Agreement s.log) (start fun _ => sampleDevice)
      honestRun :=
  ⟨by decide +kernel, handshake_agreement sampleFleet samplePythons _ _ (by decide +kernel)⟩

end Handshake
