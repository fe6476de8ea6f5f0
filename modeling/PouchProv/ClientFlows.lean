import PouchProv.Calls
import PouchProv.Flow
import PouchProv.Pem
import PouchProv.PopGate

/-!
# The flows of the clients

`flows.py` with `auth.py`, `Flows.kt` with `Auth.kt` and `Flows.swift` with
`Auth.swift`, over calls at the device: the version, the handshake, the transfer of
credentials, the configuration of Wi-Fi and the end of a session. The three clients
differ in how they compare, and nowhere else here.

A flow is a program over the client and the device that it talks to. The polls of
`configureWifi` are counted: the deadline has passed when a given number of further
rounds have not shown a result.
-/

namespace ClientFlows

open Bytes Cbor Codec Handlers Auth Device Status Requests Calls
open ClientRequests (Request)
open ClientResponses (Decoder VersionInfo WifiStatus)
open CredPush (ReadsRequests piece)
open CredStore (CredKind Store)
open DeviceResponses (Response Shows Words Counts read)
open Flow (Ends loop)
open ForwardCompat (Client)
open ScanFlow (Number)
open WifiConfig (onConnectResult retryWorkHandler)

/-- What a client meets at the device: what happens there before each request, what the platform
does during it, and the lengths of the pieces in which it arrives. -/
structure Peer where
  board : Board
  between : Nat → List Ev
  world : Nat → World
  pieces : Nat → List Nat

def Peer.entry (p : Peer) (n : Nat) (ep : Endpoint) (msg : Bytes) : Entry where
  ep := ep
  pieces := (Exchange.cut (p.pieces n) msg).1
  last := (Exchange.cut (p.pieces n) msg).2
  world := p.world n

/-- What the platform of the client provides: HMAC-SHA256, a nonce for the handshake and readers
for files. -/
structure Platform where
  hmac : Bytes → Bytes → Bytes
  nonce : Nonce
  pem : Pem.Libraries

/-- The device and the client. `authorized` is the flag of `PouchProvDevice`. -/
structure At (c : Client) where
  dev : Dev
  sent : Nat
  blockSize : Option (Number c)
  authorized : Bool

/-- Why a flow stops. -/
inductive Stop (c : Client) where
  /-- The encoder of the client refuses its arguments. -/
  | encode
  /-- There is no response. -/
  | silent
  /-- The response does not decode, or has another status than ok. -/
  | refused
  /-- "unsupported device protocol" -/
  | protocol (proto : Number c)
  /-- "device requires a proof-of-possession" -/
  | secret
  /-- "device proof mismatch — wrong PoP or impostor device" -/
  | impostor
  /-- "cred write desync" -/
  | desync (received : Int) (sent : Nat)
  /-- "connection did not settle" -/
  | unsettled
  /-- A transfer that has not ended after as many pieces as it has bytes. -/
  | unfinished
  /-- Options that do not go together, or ask for nothing. -/
  | usage
  /-- A file that is neither PEM nor DER. -/
  | pem
  /-- "device does not support Wi-Fi provisioning" -/
  | unsupported
  /-- A connected station without a name. -/
  | nameless
  /-- "provisioning failed" -/
  | failed (reason : Option FailReason)

abbrev Prog (c : Client) := EStateM (Stop c) (At c)

section Flows

variable (c : Client) (p : Peer) (f : Platform)

/-- `ProvSession.request` -/
def request (q : Request) : Prog c Bytes := fun s =>
  match ScanFlow.requestBytes q c with
  | none => .error .encode s
  | some msg =>
    let d := (p.between s.sent).foldl (step p.board) s.dev
    let r := ask p.board d (p.entry s.sent (endpoint q) msg)
    let s := { s with dev := r.2, sent := s.sent + 1 }
    match r.1 with
    | none => .error .silent s
    | some rsp => .ok rsp s

/-- A request, and the decoder for its response. -/
def call (q : Request) (d : Decoder) : Prog c (d.Value (Number c) (Words c)) := do
  let rsp ← request c p q
  match read rsp d c with
  | none => throw .refused
  | some v => return v

/-- Whether a number of a response is the given one. -/
def equalsInt : (c : Client) → Number c → Int → Bool
  | .python py _, x, i => py.equalsInt x i
  | .kotlin _, (x : Int), i => x = i
  | .swift _, (x : Int), i => x = i

/-- `PROTO_VERSION` -/
def protoVersion : Int := 1

def getVersion : Prog c (VersionInfo (Number c) (Words c)) := do
  let info : VersionInfo (Number c) (Words c) ← call c p .ver .ver
  if ¬ equalsInt c info.proto protoVersion then throw (.protocol info.proto)
  modify fun s => { s with blockSize := some info.blockSize }
  return info

def deviceProof (hmac : Bytes → Bytes → Bytes) (pop : String) (cliNonce devNonce : Bytes) : Bytes :=
  hmac (utf8 pop) (utf8 "dev" ++ cliNonce ++ devNonce)

def clientProof (hmac : Bytes → Bytes → Bytes) (pop : String) (devNonce cliNonce : Bytes) : Bytes :=
  hmac (utf8 pop) (utf8 "cli" ++ devNonce ++ cliNonce)

/-- `hmac.compare_digest` and `constantTimeEquals`. -/
def sameProof : Client → Bytes → Bytes → Bool
  | .python _ _, a, b => a = b
  | .kotlin _, a, b => a.length = b.length ∧ proofDiff a b = 0
  | .swift _, a, b => a.length = b.length ∧ proofDiff a b = 0

def authorize (pop : String) : Prog c Unit := do
  let rsp : Bytes × Bytes ← call c p (.authChallenge f.nonce.val) .authChallenge
  if ¬ sameProof c rsp.2 (deviceProof f.hmac pop f.nonce.val rsp.1) then throw .impostor
  call c p (.authProof (clientProof f.hmac pop rsp.1 f.nonce.val)) .authProof

/-- A text that is neither missing nor empty. -/
def given (text : Option String) : Option String := text.filter (· ≠ "")

def authorizeIfNeeded (info : VersionInfo (Number c) (Words c)) (pop : Option String) :
    Prog c Unit :=
  if info.popRequired then
    match given pop with
    | none => throw .secret
    | some pop => authorize c p f pop
  else pure ()

/-- One round of the loop of `pushCredential`. -/
def pushPiece (kind : CredKind) (der : Bytes) (chunk off : Nat) : Prog c (Nat ⊕ Unit) :=
  if off < der.length then do
    let piece := piece der off chunk
    let received : Int ← call c p (.credWrite kind off der.length piece) .credWrite
    let off := off + piece.length
    if received ≠ off then throw (.desync received off)
    return .inl off
  else return .inr ()

def pushCredential (kind : CredKind) (der : Bytes) (chunk : Nat) : Prog c Unit :=
  loop .unfinished (pushPiece c p kind der chunk) (der.length + 1) 0

def bootstrapCredentials (certDer keyDer : Bytes) (caDer : Option Bytes) : Prog c Unit := do
  pushCredential c p .deviceCert certDer CredPush.defaultChunk
  pushCredential c p .privateKey keyDer CredPush.defaultChunk
  match caDer with
  | some caDer => pushCredential c p .caCert caDer CredPush.defaultChunk
  | none => pure ()
  call c p .credFinalize .credFinalize

def credStatus : Prog c (CredKind → Option Int) := call c p .credGetStatus .credStatus

/-- One poll of `configureWifi`. -/
def pollStatus (_ : Unit) : Prog c (Unit ⊕ WifiStatus (Number c)) := do
  let status : WifiStatus (Number c) ← call c p .configGetStatus .configStatus
  if status.state = .connected ∨ status.state = .failed then return .inr status
  return .inl ()

def configureWifi (ssid : Bytes) (password : Option Bytes) (waits : Nat) :
    Prog c (WifiStatus (Number c)) := do
  call c p (.configSet ssid password none none) .configSet
  call c p .configApply .configApply
  loop .unsettled (pollStatus c p) (waits + 1) ()

def reset : Prog c Unit := call c p (.ctrl .reset) (.ctrl .reset)

def reprovision : Prog c Unit := call c p (.ctrl .reprovision) (.ctrl .reprovision)

def endSession : Prog c Unit := call c p (.ctrl .end_) (.ctrl .end_)

end Flows

/-- The events that the network interface causes. -/
def isRadio : Ev → Bool
  | .connectResult _ _ => true
  | .retryWork _ => true
  | .scanResult _ => true
  | .scanDone => true
  | _ => false

/-- What the results of the driver and the retry timer keep. -/
def Stable (station : WifiConfig.State → Prop) : Prop :=
  ∀ wc, station wc → (∀ env status, station (onConnectResult env status wc).1) ∧
    ∀ env, station (retryWorkHandler env wc).1

/-- A view of the client and the device: the flag of the client, whether the manager runs, and what
is known of the session, of the credentials and of the station. -/
structure View where
  flag : Bool
  running : Bool
  session : Bool → AuthState → Prop
  cred : Store → Prop
  station : WifiConfig.State → Prop

/-- The view is right about the device. -/
structure View.Of (v : View) (d : Dev) : Prop where
  running : d.running = v.running
  session : v.session d.session.authorized d.session.auth
  cred : v.cred d.cred
  station : v.station d.wifi.wc
  address : d.wifi.ip4.length = 4

/-- The client talks to a device in the view that can take the next request. -/
structure Meets {c : Client} (p : Peer) (v : View) (s : At c) : Prop where
  ready : Ready p.board s.dev
  dev : v.Of s.dev
  flag : s.authorized = v.flag

/-- The device reads requests, has memory for its responses and reports what is in the range of
its types. Between requests only the network interface is active. -/
structure Serves (p : Peer) : Prop where
  reads : ReadsRequests p.board.zcbor
  sized : Sized p.board.build
  memory : ∀ n, (p.world n).memory = true
  measured : ∀ n, Measured (p.world n)
  radio : ∀ n, ∀ e ∈ p.between n, isRadio e = true

/-- What is known of the session opens the gate of the dispatcher. -/
def Opens (p : Peer) (session : Bool → AuthState → Prop) : Prop :=
  ∀ authorized auth, session authorized auth → (authorized || p.board.pop.isNone) = true

/-- The value is the response, for the decoder that was used. -/
def Reads (c : Client) (r : Response) {d : Decoder} (x : d.Value (Number c) (Words c)) : Prop :=
  ∃ h : r.decoder = d, Shows c r (h ▸ x)

section Device

variable {p : Peer} {v : View} {d : Dev}

lemma step_view {b : Board} {e : Ev} (radio : isRadio e = true) (stable : Stable v.station)
    (h : v.Of d) : v.Of (step b d e) := by
  cases e with
  | connectResult env status =>
    simp only [step]
    split
    · obtain ⟨armed, hemit⟩ := emitAll_frame b.build (onConnectResult env status d.wifi.wc).2
        { d with wifi := { d.wifi with wc := (onConnectResult env status d.wifi.wc).1 } }
      rw [hemit]
      exact ⟨h.running, h.session, h.cred, (stable _ h.station).1 env status, h.address⟩
    · exact h
  | retryWork env =>
    simp only [step]
    split
    · obtain ⟨armed, hemit⟩ := emitAll_frame b.build (retryWorkHandler env d.wifi.wc).2
        { d with wifi := { d.wifi with wc := (retryWorkHandler env d.wifi.wc).1 } }
      rw [hemit]
      exact ⟨h.running, h.session, h.cred, (stable _ h.station).2 env, h.address⟩
    · exact h
  | scanResult | scanDone =>
    simp only [step]
    split
    · exact ⟨h.running, h.session, h.cred, h.station, h.address⟩
    · exact h
  | _ => cases radio

lemma inside_of_radio {e : Ev} (radio : isRadio e = true) : Exchange.inside e = true := by
  cases e with
  | downlinkStart streamId path contentType => cases radio
  | downlinkData streamId data isLast w => cases radio
  | uplinkFlush => cases radio
  | _ => rfl

/-- Before a request the device is still as the client has left it. -/
lemma between_view (serves : Serves p) (n : Nat) (stable : Stable v.station)
    (ready : Ready p.board d) (h : v.Of d) :
    Ready p.board ((p.between n).foldl (step p.board) d) ∧
      v.Of ((p.between n).foldl (step p.board) d) := by
  have hradio := serves.radio n
  generalize p.between n = es at hradio
  induction es generalizing d with
  | nil => exact ⟨ready, h⟩
  | cons e es ih =>
    have he := hradio e List.mem_cons_self
    have hnext := (call_answered serves.reads serves.sized ready (a := .event e)
      (inside_of_radio he)).2
    exact ih hnext (step_view he stable h) fun e h => hradio e (List.mem_cons_of_mem _ h)

lemma cut_joined (ns : List Nat) (msg : Bytes) :
    (Exchange.cut ns msg).1.flatten ++ (Exchange.cut ns msg).2 = msg := by
  induction ns generalizing msg with
  | nil => rfl
  | cons n ns ih =>
    rw [Exchange.cut]
    dsimp only
    rw [List.flatten_cons, List.append_assoc, ih, List.take_append_drop]

lemma view_quiet : v.Of (quiet d) ↔ v.Of d := by
  constructor
  · intro h
    exact ⟨h.running, h.session, h.cred, h.station, h.address⟩
  · intro h
    exact ⟨h.running, h.session, h.cred, h.station, h.address⟩

lemma settle_eq {r : Response} (sent : (message r).isSome) : settle r = r := if_pos sent

/-- With the gate open, the response is the one of the handler. -/
lemma respond_served {b : Board} {w : World} {q : Request}
    (gate : requireAuth (endpoint q) = true → sessionAuthorized b.pop d.session = true)
    (sent : (message (serve b w
      { d with session := d.session.log (.handler (endpoint q)) } q).1).isSome) :
    respond b w q d = serve b w { d with session := d.session.log (.handler (endpoint q)) } q := by
  rw [respond, if_neg fun h => h.2 (gate h.1)]
  exact Prod.ext (settle_eq sent) rfl

end Device

section Call

variable {c : Client} {p : Peer} {v : View} {s : At c}

/-- The handler answers with success and leaves the device in a view. -/
structure Serve (p : Peer) (w : World) (d : Dev) (q : Request) (P : Response → Prop)
    (v' : Response → View) : Prop where
  response : P (serve p.board w d q).1
  status : (serve p.board w d q).1.status = .ok
  sent : (message (serve p.board w d q).1).isSome
  left : (v' (serve p.board w d q).1).Of (serve p.board w d q).2

lemma serve_of {w : World} {d d' : Dev} {q : Request} {r : Response} {P : Response → Prop}
    {v' : Response → View} (h : Calls.serve p.board w d q = (r, d')) (response : P r)
    (status : r.status = .ok) (sent : (message r).isSome) (left : (v' r).Of d') :
    Serve p w d q P v' := by
  refine ⟨?_, ?_, ?_, ?_⟩ <;> rw [h]
  · exact response
  · exact status
  · exact sent
  · exact left

/-- A request arrives at a device in the view, and what the device responds at the client. -/
lemma request_arrives {q : Request} (serves : Serves p) (speaks : Speaks c)
    (bounds : q.InBounds) (fits : (encode q.item).length ≤ msgMax)
    (registered : endpoint q ∈ endpoints p.board.build) (meets : Meets p v s)
    (stable : Stable v.station) :
    ∃ d data dev, v.Of d ∧ request c p q s = .ok data { s with dev := dev, sent := s.sent + 1 } ∧
      DeviceResponses.Gets c (respond p.board (p.world s.sent) q d).1 data ∧
      quiet dev = quiet (respond p.board (p.world s.sent) q d).2 ∧ Ready p.board dev := by
  have hbytes : ScanFlow.requestBytes q c = some (encode q.item) :=
    ScanFlow.requestBytes_eq speaks.writes bounds
  obtain ⟨hready, hview⟩ := between_view serves s.sent stable meets.ready meets.dev
  have hmsg : (p.entry s.sent (endpoint q) (encode q.item)).msg = encode q.item :=
    cut_joined (p.pieces s.sent) (encode q.item)
  have hadmitted : Admitted p.board
      (.call c q (p.entry s.sent (endpoint q) (encode q.item))) :=
    ⟨speaks, bounds, fits, registered, rfl, hbytes.trans (congrArg some hmsg.symm),
      serves.memory s.sent, serves.measured s.sent⟩
  obtain ⟨⟨data, hask, hgets, -, hquiet⟩, hnext⟩ :=
    call_answered serves.reads serves.sized hready hadmitted
  refine ⟨_, data, _, hview, ?_, hgets, hquiet, hnext⟩
  simp only [request, hbytes, hask]

/-- A call that the device serves in the view: the client gets the response, and the device is in
the view that the handler leaves. -/
theorem call_ends {P : Response → Prop} {v' : Response → View} {E : Stop c → At c → Prop}
    {q : Request} (serves : Serves p) (speaks : Speaks c) (bounds : q.InBounds)
    (fits : (encode q.item).length ≤ msgMax) (registered : endpoint q ∈ endpoints p.board.build)
    (meets : Meets p v s) (stable : Stable v.station)
    (gate : requireAuth (endpoint q) = true → Opens p v.session)
    (served : ∀ d, v.Of d → Serve p (p.world s.sent) d q P v')
    (flag : ∀ r, (v' r).flag = v.flag) :
    Ends (call c p q (decoder q)) s
      (fun x s' => ∃ r, P r ∧ Reads c r x ∧ Meets p (v' r) s') E := by
  obtain ⟨d, data, dev, hview, hrequest, hgets, hquiet, hready⟩ :=
    request_arrives serves speaks bounds fits registered meets stable
  obtain ⟨hP, hok, hsent, hleft⟩ := served
    { d with session := d.session.log (.handler (endpoint q)) }
    ⟨hview.running, hview.session, hview.cred, hview.station, hview.address⟩
  have hrespond : respond p.board (p.world s.sent) q d = _ :=
    respond_served (fun h => gate h _ _ hview.session) hsent
  rw [hrespond] at hgets hquiet
  have hdec := serve_decoder p.board (p.world s.sent)
    { d with session := d.session.log (.handler (endpoint q)) } q
  generalize serve p.board (p.world s.sent)
    { d with session := d.session.log (.handler (endpoint q)) } q = r at *
  rw [DeviceResponses.Gets, if_pos hok] at hgets
  obtain ⟨x, hread, hshows⟩ := hgets
  have hmeets : Meets p (v' r.1) { s with dev := dev, sent := s.sent + 1 } :=
    ⟨hready, view_quiet.mp (hquiet ▸ view_quiet.mpr hleft), meets.flag.trans (flag _).symm⟩
  rw [call]
  refine Flow.ends_bind.mpr ?_
  rw [Ends, hrequest]
  generalize decoder q = dec at hdec
  subst hdec
  dsimp only
  rw [hread]
  exact ⟨r.1, hP, ⟨rfl, hshows⟩, hmeets⟩

lemma read_refused {status : ProvStatus} {data : Bytes} {d : Decoder}
    (h : DeviceResponses.Refuses status data d c) : read data d c = none := by
  cases c <;> exact congrArg Except.toOption h

/-- A session that is not authorized, at a device with a secret. -/
def Closed (p : Peer) (session : Bool → AuthState → Prop) : Prop :=
  ∀ authorized auth, session authorized auth → (authorized || p.board.pop.isNone) = false

/-- Behind the closed gate nothing happens. -/
theorem call_refused {q : Request} (serves : Serves p) (speaks : Speaks c)
    (bounds : q.InBounds) (fits : (encode q.item).length ≤ msgMax)
    (registered : endpoint q ∈ endpoints p.board.build) (meets : Meets p v s)
    (stable : Stable v.station) (gated : requireAuth (endpoint q) = true)
    (closed : Closed p v.session) :
    Ends (call c p q (decoder q)) s (fun _ _ => False)
      (fun stop s' => stop = .refused ∧ Meets p v s') := by
  obtain ⟨d, data, dev, hview, hrequest, hgets, hquiet, hready⟩ :=
    request_arrives serves speaks bounds fits registered meets stable
  have hclosed : ¬ sessionAuthorized p.board.pop d.session = true := by
    rw [sessionAuthorized, closed _ _ hview.session]
    exact Bool.false_ne_true
  rw [respond, if_pos ⟨gated, hclosed⟩] at hgets hquiet
  have hrefuses : DeviceResponses.Refuses .unauthorized data (decoder q) c := hgets
  rw [call]
  refine Flow.ends_bind.mpr ?_
  rw [Ends, hrequest]
  dsimp only
  rw [read_refused hrefuses]
  exact ⟨rfl, hready, view_quiet.mp (hquiet ▸ view_quiet.mpr hview), meets.flag⟩

end Call

lemma nonce_fits (nonce : Nonce) :
    (encode (Request.authChallenge nonce.val).item).length ≤ msgMax := by
  have hlength : nonce.val.length = 16 := nonce.property
  have hheads : (head 0 0).length = 1 ∧ (head 4 2).length = 1 ∧ (head 2 16).length = 1 := by decide
  simp only [Request.item, encode, encodeAll, List.length_append, List.length_cons,
    List.length_nil, hlength, hheads, msgMax]
  decide

lemma proof_fits {proof : Bytes} (h : proof.length = 32) :
    (encode (Request.authProof proof).item).length ≤ msgMax := by
  have hheads : (head 0 1).length = 1 ∧ (head 4 2).length = 1 ∧ (head 2 32).length = 2 := by decide
  simp only [Request.item, encode, encodeAll, List.length_append, List.length_cons,
    List.length_nil, h, hheads, msgMax]
  decide

lemma sent_of_answer {r : Response} {m : Bytes} (h : answer r.encoded = .ok m) :
    (message r).isSome := by
  obtain ⟨x, hx, hfits, -⟩ := answer_ok_iff.mp h
  rw [message, hx, cborEncode_some hfits]
  rfl

lemma status_sent {r : Response} (op : Nat) (hop : op < 3) (status : ProvStatus)
    (h : r.encoded = some (.array [.uint op, encodeProvStatus status])) : (message r).isSome := by
  have hlength := statusPair_length (Nat.le_of_lt_succ hop) status
  rw [message, h, cborEncode_some (Nat.le_trans (Nat.le_of_eq hlength) (by decide))]
  rfl

lemma challenge_sent (status : ProvStatus) {devNonce devProof : Bytes}
    (nonce : devNonce.length = 16) (proof : devProof.length = 32) :
    (message (.auth (.challengeRsp status devNonce devProof))).isSome := by
  have hencoded : (Response.auth (.challengeRsp status devNonce devProof)).encoded =
      some (.array [.uint 0, encodeProvStatus status, .bstr devNonce, .bstr devProof]) :=
    if_pos ⟨nonce, proof⟩
  rw [message, hencoded, cborEncode_some ?_]
  · rfl
  · have hheads : (head 0 0).length = 1 ∧ (head 4 4).length = 1 ∧ (head 2 16).length = 1 ∧
        (head 2 32).length = 2 := by decide
    simp only [encode, encodeAll, List.length_append, List.length_cons, List.length_nil,
      encodeProvStatus_length, nonce, proof, hheads, msgMax]
    decide

lemma write_sent (status : ProvStatus) (received : Nat) :
    (message (.cred (.writeRsp status received))).isSome := by
  have hencoded : (Response.cred (.writeRsp status received)).encoded =
      some (.array [.uint 0, encodeProvStatus status, u32 received]) := rfl
  have hlength := u32_length_le received
  rw [message, hencoded, cborEncode_some ?_]
  · rfl
  · have hheads : (head 0 0).length = 1 ∧ (head 4 3).length = 1 := by decide
    simp only [encode, encodeAll, List.length_append, List.length_cons, List.length_nil,
      encodeProvStatus_length, hheads, msgMax]
    omega

section Session

variable {c : Client} {p : Peer} {v : View} {s : At c} {E : Stop c → At c → Prop}

lemma equalsInt_counts {n : Nat} {x : Number c} (h : Counts n c x) (i : Int) :
    equalsInt c x i = decide (i = (n : Int)) := by
  cases c with
  | python py dicts => exact h.1 i
  | kotlin | swift =>
    obtain rfl : x = (n : Int) := h
    exact decide_eq_decide.mpr eq_comm

/-- The version response of the device. -/
def versionRsp (p : Peer) : Response := .ver ⟨.ok, verInfo p.board.build p.board.pop⟩

theorem getVersion_ends (serves : Serves p) (speaks : Speaks c) (meets : Meets p v s)
    (stable : Stable v.station) :
    Ends (getVersion c p) s (fun info s' => Shows c (versionRsp p) info ∧ Meets p v s') E := by
  obtain ⟨m, hfits⟩ := PopGate.verRsp_fits p.board.build p.board.pop
  have hsent : (message (versionRsp p)).isSome := sent_of_answer hfits
  have hserved : ∀ d, v.Of d →
      Serve p (p.world s.sent) d .ver (· = versionRsp p) fun _ => v :=
    fun d h => ⟨rfl, rfl, hsent, h⟩
  have hcall : Ends (call c p .ver .ver) s _ E := call_ends (q := .ver) serves speaks trivial
    (by decide) (by simp [endpoint, endpoints]) meets stable (fun h => absurd h (by decide))
    hserved fun _ => rfl
  rw [getVersion]
  refine hcall.bind ?_
  rintro info s' ⟨r, rfl, ⟨_, hshows⟩, hmeets⟩
  have hshows : Shows c (versionRsp p) info := hshows
  have hproto : equalsInt c info.proto protoVersion = true := by
    rw [equalsInt_counts hshows.1]
    rfl
  rw [hproto]
  exact ⟨hshows, hmeets.ready, ⟨hmeets.dev.running, hmeets.dev.session, hmeets.dev.cred,
    hmeets.dev.station, hmeets.dev.address⟩, hmeets.flag⟩

/-- The two sides compute the same proofs, and the crypto library of the device works. -/
structure Shares (f : Platform) (p : Peer) : Prop where
  hmac : ∀ key msg, p.board.hmac (some key) msg = f.hmac key msg
  length : ∀ key msg, (f.hmac key msg).length = proofLen
  crypto : ∀ n, (p.world n).crypto = true

lemma hmacProof_shared {f : Platform} (shares : Shares f p) (n : Nat) (key : Bytes) (tag : String)
    (first second : Bytes) :
    hmacProof ⟨p.board.hmac, (p.world n).crypto⟩ (some key) tag first second =
      some (f.hmac key (utf8 tag ++ first ++ second)) := by
  simp only [hmacProof, shares.hmac, shares.length, shares.crypto, and_self, if_true]

lemma sameProof_iff {a b : Bytes} : sameProof c a b = true ↔ a = b := by
  have hdiff : a.length = b.length → (proofDiff a b = 0 ↔ b = a) := proofDiff_eq_zero_iff
  cases c with
  | python py dicts => exact decide_eq_true_iff
  | _ =>
    simp only [sameProof, decide_eq_true_eq]
    constructor
    · rintro ⟨hlength, hzero⟩
      exact ((hdiff hlength).mp hzero).symm
    · rintro rfl
      exact ⟨rfl, (hdiff rfl).mpr rfl⟩

/-- The session of a challenge. -/
def challenged (f : Platform) (rand : Nonce) (v : View) : View :=
  { v with session := fun authorized auth =>
      (∃ old, v.session authorized old ∧ auth.attempts = old.attempts) ∧ auth.challenged = true ∧
        auth.cliNonce = f.nonce.val ∧ auth.devNonce = rand.val }

/-- The response to a challenge. -/
def challengeRsp (f : Platform) (key : Bytes) (rand : Nonce) : Response :=
  .auth (.challengeRsp .ok rand.val (f.hmac key (utf8 "dev" ++ f.nonce.val ++ rand.val)))

lemma challenge_served {f : Platform} (shares : Shares f p) {key : Bytes}
    (configured : p.board.pop = some key) (n : Nat) {d : Dev} (h : v.Of d) :
    Serve p (p.world n) d (.authChallenge f.nonce.val)
      (· = challengeRsp f key (p.world n).rand) fun _ => challenged f (p.world n).rand v := by
  have hserve : serve p.board (p.world n) d (.authChallenge f.nonce.val) =
      (challengeRsp f key (p.world n).rand, { d with session := (Session.log
        { d.session with auth := { d.session.auth with
            cliNonce := f.nonce.val, devNonce := (p.world n).rand.val, challenged := true } }
        (.challenge f.nonce.val (p.world n).rand.val)).log (.hmac (some key)) }) := by
    simp only [serve, challenge, configured, hmacProof_shared shares]
    rfl
  refine serve_of hserve rfl rfl ?_ ?_
  · exact challenge_sent .ok (p.world n).rand.property (shares.length _ _)
  · exact ⟨h.running, ⟨⟨_, h.session, rfl⟩, rfl, rfl, rfl⟩, h.cred, h.station, h.address⟩

/-- The device authorizes a client that has its secret. -/
lemma proof_served {f : Platform} (shares : Shares f p) {pop : String}
    (configured : p.board.pop = some (utf8 pop)) {rand : Nonce}
    (left : ∀ authorized auth, v.session authorized auth → auth.attempts < maxAttempts) (n : Nat)
    {d : Dev} (h : (challenged f rand v).Of d) :
    Serve p (p.world n) d (.authProof (clientProof f.hmac pop rand.val f.nonce.val))
      (· = .auth (.proofRsp .ok))
      fun _ => { v with session := fun authorized _ => authorized } := by
  obtain ⟨⟨old, hold, hattempts⟩, hchallenged, hcli, hdev⟩ := h.session
  have hleft : ¬ d.session.auth.attempts + 1 > maxAttempts := by
    have hlow := left _ _ hold
    rw [← hattempts] at hlow
    simp only [maxAttempts, UInt8.lt_iff_toNat_lt, UInt8.toNat_add, gt_iff_lt] at hlow ⊢
    simp at hlow ⊢
    omega
  have hserve : serve p.board (p.world n) d
      (.authProof (clientProof f.hmac pop rand.val f.nonce.val)) =
        (.auth (.proofRsp .ok), { d with session :=
          ⟨true, { d.session.auth with attempts := d.session.auth.attempts + 1 },
            .proof (clientProof f.hmac pop rand.val f.nonce.val) true (some .ok) true ::
              .hmac (some (utf8 pop)) :: d.session.history⟩ }) := by
    simp only [serve, prove, hchallenged, Bool.true_eq_false, if_false, if_neg hleft, configured,
      Session.log, hmacProof_shared shares, hcli, hdev, clientProof, if_true]
  refine serve_of hserve rfl rfl ?_ ?_
  · exact status_sent 1 (by decide) .ok rfl
  · exact ⟨h.running, rfl, h.cred, h.station, h.address⟩

theorem authorize_ends {f : Platform} (serves : Serves p) (speaks : Speaks c)
    (shares : Shares f p) (registered : p.board.build.auth = true) {pop : String}
    (configured : p.board.pop = some (utf8 pop)) (meets : Meets p v s) (stable : Stable v.station)
    (left : ∀ authorized auth, v.session authorized auth → auth.attempts < maxAttempts) :
    Ends (authorize c p f pop) s
      (fun _ s' => Meets p { v with session := fun authorized _ => authorized } s') E := by
  have hregistered : Endpoint.auth ∈ endpoints p.board.build := by simp [endpoints, registered]
  have hchallenge : Ends (call c p (.authChallenge f.nonce.val) .authChallenge) s _ E :=
    call_ends (q := .authChallenge f.nonce.val) serves speaks f.nonce.property
      (nonce_fits f.nonce) hregistered meets stable (fun h => absurd h Bool.false_ne_true)
      (fun d h => challenge_served shares configured s.sent h) fun _ => rfl
  rw [authorize]
  refine hchallenge.bind ?_
  rintro rsp s₁ ⟨r, rfl, ⟨_, hshows⟩, hmeets⟩
  have hrsp : rsp = ((p.world s.sent).rand.val, deviceProof f.hmac pop f.nonce.val
    (p.world s.sent).rand.val) := hshows
  have hsame : sameProof c rsp.2 (deviceProof f.hmac pop f.nonce.val rsp.1) = true := by
    rw [sameProof_iff, hrsp]
  rw [hsame, hrsp]
  have hproof : Ends (call c p (.authProof (clientProof f.hmac pop (p.world s.sent).rand.val
      f.nonce.val)) .authProof) s₁ _ E :=
    call_ends (q := .authProof _) serves speaks (shares.length _ _)
      (proof_fits (shares.length _ _)) hregistered hmeets stable
      (fun h => absurd h Bool.false_ne_true)
      (fun d h => proof_served shares configured left s₁.sent h) fun _ => rfl
  refine hproof.mono ?_ fun _ _ h => h
  rintro x s' ⟨r, _, _, h⟩
  exact h

/-- With another secret than the one of the device, the client stops after the challenge. -/
theorem authorize_impostor {f : Platform} (serves : Serves p) (speaks : Speaks c)
    (shares : Shares f p) (registered : p.board.build.auth = true) {key : Bytes}
    (configured : p.board.pop = some key) {pop : String}
    (wrong : ∀ rand : Nonce, f.hmac key (utf8 "dev" ++ f.nonce.val ++ rand.val) ≠
      deviceProof f.hmac pop f.nonce.val rand.val)
    (meets : Meets p v s) (stable : Stable v.station) :
    Ends (authorize c p f pop) s (fun _ _ => False)
      (fun stop s' => stop = .impostor ∧ ∃ rand, Meets p (challenged f rand v) s') := by
  have hregistered : Endpoint.auth ∈ endpoints p.board.build := by simp [endpoints, registered]
  have hchallenge : Ends (call c p (.authChallenge f.nonce.val) .authChallenge) s _
      (fun stop s' => stop = .impostor ∧ ∃ rand, Meets p (challenged f rand v) s') :=
    call_ends (q := .authChallenge f.nonce.val) serves speaks f.nonce.property
      (nonce_fits f.nonce) hregistered meets stable (fun h => absurd h Bool.false_ne_true)
      (fun d h => challenge_served shares configured s.sent h) fun _ => rfl
  rw [authorize]
  refine hchallenge.bind ?_
  rintro rsp s₁ ⟨r, rfl, ⟨_, hshows⟩, hmeets⟩
  have hrsp : rsp = ((p.world s.sent).rand.val,
    f.hmac key (utf8 "dev" ++ f.nonce.val ++ (p.world s.sent).rand.val)) := hshows
  have hdiffers : sameProof c rsp.2 (deviceProof f.hmac pop f.nonce.val rsp.1) = false := by
    rw [Bool.eq_false_iff, ne_eq, sameProof_iff, hrsp]
    exact wrong (p.world s.sent).rand
  rw [hdiffers]
  exact ⟨rfl, _, hmeets⟩

end Session

section End

variable {c : Client} {p : Peer} {v : View} {s : At c} {E : Stop c → At c → Prop}

/-- Nobody is authorized any more, and the manager does not run. -/
def ended (v : View) : View :=
  { v with running := false, session := fun authorized _ => authorized = false }

theorem endSession_ends (serves : Serves p) (speaks : Speaks c) (runs : v.running = true)
    (opened : Opens p v.session) (stable : Stable v.station) (meets : Meets p v s) :
    Ends (endSession c p) s (fun _ s' => Meets p (ended v) s') E := by
  have hserved : ∀ d, v.Of d →
      Serve p (p.world s.sent) d (.ctrl .end_) (fun _ => True) fun _ => ended v := by
    intro d h
    have hruns : d.running = true := h.running.trans runs
    have hserve : serve p.board (p.world s.sent) d (.ctrl .end_) = (.ctrl .end_ .ok,
        Device.endSession p.board.build { d with running := false, autostop := false }) := by
      simp only [serve, mgrStop, hruns, not_true_eq_false, if_false]
    exact serve_of hserve trivial rfl rfl ⟨rfl, rfl, h.cred, h.station, h.address⟩
  have hcall : Ends (call c p (.ctrl .end_) (.ctrl .end_)) s _ E :=
    call_ends (q := .ctrl .end_) serves speaks trivial (by decide) (by simp [endpoint, endpoints])
      meets stable (fun _ => opened) hserved fun _ => rfl
  refine hcall.mono ?_ fun _ _ h => h
  rintro _ s' ⟨_, -, -, h⟩
  exact h

lemma endSession_refused (serves : Serves p) (speaks : Speaks c)
    (closed : Closed p v.session) (stable : Stable v.station) (meets : Meets p v s) :
    Ends (endSession c p) s (fun _ _ => False)
      (fun stop s' => stop = .refused ∧ Meets p v s') :=
  call_refused (q := .ctrl .end_) serves speaks trivial (by decide) (by simp [endpoint, endpoints])
    meets stable rfl closed

end End

end ClientFlows
