import PouchProv.Handlers
import PouchProv.Runs

/-!
# The provisioning session and its authorization

The session state of `dispatch.c` and `auth.c`: the authorized flag, the nonces
of the last challenge and the attempt counter. A history records, newest first,
what the session saw and did; no function of the model reads it.

The random generator and the crypto library are outside the repository. A nonce
is any sixteen bytes. `hmac` is any function of the key and the message; a key of
`none` stands for the null pointer that the code passes on when no secret is
configured, and what the library makes of it is left to the function. Each call
may also fail.
-/

namespace Auth

open Bytes Codec Handlers ProvTypes Status Runs

/-- The endpoints that a build can register. -/
inductive Endpoint where
  | ver | auth | ctrl | config | scan | cred
  deriving DecidableEq, Repr

def nonceLen : Nat := 16
def proofLen : Nat := 32
def maxAttempts : UInt8 := 3

abbrev Nonce := { b : Bytes // b.length = nonceLen }

def zeroNonce : Nonce := ⟨List.replicate nonceLen 0, rfl⟩

/-- What happens in a session: the handler of an endpoint is executed, a challenge is taken,
an HMAC is asked for, a proof is handled, the session is reset. A handled proof carries
whether it was compared with the expected one, the status it was answered with, if any, and
whether it set the authorized flag. -/
inductive Obs where
  | handler (ep : Endpoint)
  | challenge (cliNonce devNonce : Bytes)
  | hmac (pop : Option Bytes)
  | proof (p : Bytes) (compared : Bool) (status : Option ProvStatus) (authorizes : Bool)
  | reset
  deriving DecidableEq, Repr

/-- The statics of `auth.c`. -/
structure AuthState where
  cliNonce : Bytes
  devNonce : Bytes
  challenged : Bool
  attempts : UInt8
  deriving DecidableEq, Repr

def AuthState.zero : AuthState :=
  ⟨List.replicate nonceLen 0, List.replicate nonceLen 0, false, 0⟩

structure Session where
  authorized : Bool
  auth : AuthState
  history : List Obs
  deriving DecidableEq, Repr

def Session.log (s : Session) (o : Obs) : Session := { s with history := o :: s.history }

def fresh : Session := ⟨false, .zero, []⟩

def sessionAuthorized (pop : Option Bytes) (s : Session) : Bool := s.authorized || pop.isNone

/-- `pouch_prov_dispatch_reset`, without the active entry. -/
def sessionReset (build : Build) (s : Session) : Session :=
  Session.log { s with authorized := false, auth := if build.auth then .zero else s.auth } .reset

/-- The crypto library: a fixed function, and whether the calls of this request succeed. -/
structure Crypto where
  hmac : Option Bytes → Bytes → Bytes
  ok : Bool

def hmacProof (c : Crypto) (pop : Option Bytes) (tag : String) (first second : Bytes) :
    Option Bytes :=
  let out := c.hmac pop (utf8 tag ++ first ++ second)
  if c.ok ∧ out.length = proofLen then some out else none

/-- The accumulated difference of two proofs, in constant time. -/
def proofDiff (expected proof : Bytes) : UInt8 :=
  (expected.zip proof).foldl (fun d x => d ||| (x.1 ^^^ x.2)) 0

def respondProof (status : ProvStatus) : Except Errno Bytes :=
  answer (encodeAuthRsp (.proofRsp status))

def handleChallenge (c : Crypto) (pop : Option Bytes) (rand : Nonce) (s : Session)
    (nonce : Bytes) : Except Errno Bytes × Session :=
  if nonce.length ≠ nonceLen then (.error .ebadmsg, s)
  else
    let auth := { s.auth with cliNonce := nonce, devNonce := rand.val, challenged := true }
    let s := Session.log { s with auth := auth } (.challenge nonce rand.val)
    let s := s.log (.hmac pop)
    match hmacProof c pop "dev" nonce rand.val with
    | none => (.error .eio, s)
    | some proof => (answer (encodeAuthRsp (.challengeRsp .ok rand.val proof)), s)

def handleProof (c : Crypto) (pop : Option Bytes) (s : Session) (proof : Bytes) :
    Except Errno Bytes × Session :=
  if s.auth.challenged = false ∨ proof.length ≠ proofLen then
    (respondProof .invalidState, s.log (.proof proof false (some .invalidState) false))
  else
    let s := { s with auth := { s.auth with attempts := s.auth.attempts + 1 } }
    if s.auth.attempts > maxAttempts then
      (respondProof .unauthorized, s.log (.proof proof false (some .unauthorized) false))
    else
      let s := s.log (.hmac pop)
      match hmacProof c pop "cli" s.auth.devNonce s.auth.cliNonce with
      | none => (.error .eio, s.log (.proof proof false none false))
      | some expected =>
        if proofDiff expected proof ≠ 0 then
          (respondProof .unauthorized, s.log (.proof proof true (some .unauthorized) false))
        else
          (respondProof .ok,
            Session.log { s with authorized := true } (.proof proof true (some .ok) true))

def handleAuth (z : Zcbor) (c : Crypto) (pop : Option Bytes) (rand : Nonce) (s : Session)
    (req : Bytes) : Except Errno Bytes × Session :=
  match decodeWith z decodeAuthReq req with
  | none => (.error .ebadmsg, s)
  | some (.challenge nonce) => handleChallenge c pop rand s nonce
  | some (.proof proof) => handleProof c pop s proof

lemma foldl_diff_eq_zero_iff (xs : List (UInt8 × UInt8)) (d : UInt8) :
    xs.foldl (fun d x => d ||| (x.1 ^^^ x.2)) d = 0 ↔ d = 0 ∧ ∀ x ∈ xs, x.1 = x.2 := by
  induction xs generalizing d with
  | nil => simp
  | cons x xs ih =>
    rw [List.foldl_cons, ih, UInt8.or_eq_zero_iff, UInt8.xor_eq_zero_iff]
    simp [and_assoc]

/-- The difference is zero exactly for equal proofs. -/
theorem proofDiff_eq_zero_iff {expected proof : Bytes} (len : expected.length = proof.length) :
    proofDiff expected proof = 0 ↔ proof = expected := by
  rw [proofDiff, foldl_diff_eq_zero_iff]
  constructor
  · rintro ⟨-, hall⟩
    refine (List.ext_getElem len fun i h1 h2 => ?_).symm
    have hmem : (expected[i], proof[i]) ∈ expected.zip proof := by
      have hi : i < (expected.zip proof).length := by
        rw [List.length_zip]
        exact Nat.lt_min.mpr ⟨h1, h2⟩
      have := List.getElem_mem hi
      rwa [List.getElem_zip] at this
    exact hall _ hmem
  · rintro rfl
    refine ⟨rfl, fun x hx => ?_⟩
    obtain ⟨i, hi, rfl⟩ := List.getElem_of_mem hx
    rw [List.getElem_zip]

end Auth
