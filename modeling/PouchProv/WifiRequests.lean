import PouchProv.WifiRuns
import PouchProv.Requests

/-!
# Config requests and the Wi-Fi state machine

The config endpoint with everything that reaches the modules behind it: requests,
driver results, the retry timer, and the resets of the control endpoint and of
the manager. A request is answered from the state that it finds.

The parameters of a network travel from a set request into the staged copy, from
there into the credential store and the snapshot of an attempt, and into each
connect request. `Holds` says what a copy has kept of the request.
-/

namespace WifiRequests

open Bytes Cbor Codec Handlers ProvTypes Status Runs WifiConfig
open WifiRuns (applying doApply_cases doSet_frame step_retry)

/-- The answers of the interface to one status request. An address has four bytes. -/
structure Query where
  iface : Bool := true
  status : Option IfaceStatus := none
  addr : Option { b : Bytes // b.length = 4 } := none

def Query.env (q : Query) : StatusEnv := ⟨q.iface, q.status, q.addr.map Subtype.val⟩

inductive Ev where
  | request (req : Bytes) (q : Query) (env : Env)
  | result (env : Env) (status : WifiStatus)
  | retry (env : Env)
  | reset
  | reprovision (deleted : Bool)

/-- What the event is for the Wi-Fi state machine. -/
def action (z : Zcbor) : Ev → Option WifiConfig.Ev
  | .request req _ env =>
    match decodeWith z decodeConfigReq req with
    | some (.set cfg) => some (.set cfg)
    | some .apply => some (.apply env)
    | _ => none
  | .result env status => some (.result env status)
  | .retry env => some (.retry env)
  | .reset => some .reset
  | .reprovision deleted => some (.reprovision deleted)

/-- The state of the state machine changes, and the address buffer stays. -/
def drive (w : Wifi) (ev : WifiConfig.Ev) : Wifi × List Out :=
  ({ w with wc := (WifiConfig.step w.wc ev).1 }, (WifiConfig.step w.wc ev).2)

def step (z : Zcbor) (w : Wifi) : Ev → Wifi × List Out
  | .request req q env => (handleConfig z q.env env w req).2
  | .result env status => drive w (.result env status)
  | .retry env => drive w (.retry env)
  | .reset => drive w .reset
  | .reprovision deleted => drive w (.reprovision deleted)

def next (z : Zcbor) (w : Wifi) (e : Ev) : Wifi := (step z w e).1

/-- What a request is answered. -/
def response (z : Zcbor) (w : Wifi) : Ev → Option (Except Errno Bytes)
  | .request req q env => some (handleConfig z q.env env w req).1
  | _ => none

/-- The response with a status of ok and nothing else. -/
def okRsp (op : Nat) : Bytes := encode (.array [.uint op, .uint 0])

/-- The event is a set request for these parameters, and is answered with ok. -/
def SetsOk (z : Zcbor) (cfg : WifiCfg) (w : Wifi) (e : Ev) : Prop :=
  action z e = some (.set cfg) ∧ response z w e = some (.ok (okRsp 1))

/-- The event is an apply request, and is answered with ok. -/
def AppliesOk (z : Zcbor) (w : Wifi) (e : Ev) : Prop :=
  (∃ env, action z e = some (.apply env)) ∧ response z w e = some (.ok (okRsp 2))

/-- The event is no config request other than a status query. -/
def Quiet (z : Zcbor) (e : Ev) : Prop :=
  (∀ cfg, action z e ≠ some (.set cfg)) ∧ ∀ env, action z e ≠ some (.apply env)

section Step

variable {z : Zcbor} {w : Wifi} {e : Ev}

/-- A set is a request that decodes as one. -/
lemma action_set {cfg : WifiCfg} (h : action z e = some (.set cfg)) :
    ∃ req q env, e = .request req q env ∧ decodeWith z decodeConfigReq req = some (.set cfg) := by
  cases e with
  | request req q env =>
    refine ⟨req, q, env, rfl, ?_⟩
    rw [action] at h
    split at h <;> simp_all
  | result env status => simp [action] at h
  | retry env => simp [action] at h
  | reset => simp [action] at h
  | reprovision deleted => simp [action] at h

/-- An apply is a request that decodes as one. -/
lemma action_apply {env : Env} (h : action z e = some (.apply env)) :
    ∃ req q, e = .request req q env ∧ decodeWith z decodeConfigReq req = some .apply := by
  cases e with
  | request req q env' =>
    rw [action] at h
    split at h <;> simp_all
  | result env status => simp [action] at h
  | retry env => simp [action] at h
  | reset => simp [action] at h
  | reprovision deleted => simp [action] at h

/-- An event does to the state machine what its action says. -/
lemma step_of_action {ev : WifiConfig.Ev} (h : action z e = some ev) :
    (step z w e).1.wc = (WifiConfig.step w.wc ev).1 ∧
      (step z w e).2 = (WifiConfig.step w.wc ev).2 := by
  cases e with
  | request req q env =>
    cases hdec : decodeWith z decodeConfigReq req with
    | none => simp [action, hdec] at h
    | some r =>
      cases r with
      | getStatus => simp [action, hdec] at h
      | set cfg =>
        obtain rfl : WifiConfig.Ev.set cfg = ev := by simpa [action, hdec] using h
        simp [step, handleConfig, hdec, WifiConfig.step]
      | apply =>
        obtain rfl : WifiConfig.Ev.apply env = ev := by simpa [action, hdec] using h
        simp [step, handleConfig, hdec, WifiConfig.step]
  | result | retry | reset | reprovision =>
    obtain rfl := Option.some.inj h
    exact ⟨rfl, rfl⟩

/-- An event without an action is a status query or no request at all. -/
lemma step_of_none (h : action z e = none) : (step z w e).1.wc = w.wc ∧ (step z w e).2 = [] := by
  cases e with
  | request req q env =>
    cases hdec : decodeWith z decodeConfigReq req with
    | none => simp [step, handleConfig, hdec]
    | some r =>
      cases r with
      | getStatus =>
        refine ⟨?_, by simp [step, handleConfig, hdec]⟩
        simp only [step, handleConfig, hdec, encodeStatus]
        split
        · rfl
        · split <;> rfl
      | set cfg => simp [action, hdec] at h
      | apply => simp [action, hdec] at h
  | result | retry | reset | reprovision => exact absurd h (Option.some_ne_none _)

/-- A property of the state machine that each of its steps keeps. -/
lemma next_keeps {P : State → Prop} (h : P w.wc)
    (keep : ∀ ev, action z e = some ev → P (WifiConfig.step w.wc ev).1) :
    P (next z w e).wc := by
  cases hact : action z e with
  | none => rwa [next, (step_of_none hact).1]
  | some ev =>
    rw [next, (step_of_action hact).1]
    exact keep ev hact

end Step

/-- A bare status is answered as ok exactly when it is ok. -/
lemma answer_eq_okRsp_iff {op : Nat} (hop : op ≤ 2) (st : ProvStatus) :
    answer (some (.array [.uint op, encodeProvStatus st])) = .ok (okRsp op) ↔ st = .ok := by
  have hfits : (encode (.array [.uint op, encodeProvStatus st])).length ≤ msgMax := by
    rw [statusPair_length hop]
    decide
  have hok (st : ProvStatus) : (Item.array [.uint op, encodeProvStatus st]).Ok :=
    ⟨Nat.lt_of_le_of_lt hop (by decide), encodeProvStatus_ok st, trivial⟩
  rw [answer, cborEncode_some hfits]
  constructor
  · intro h
    have hsame := encode_inj (hok st) (hok .ok) (Nat.lt_of_le_of_lt hfits (by decide))
      (Except.ok.inj h)
    cases st <;> simp [encodeProvStatus, ProvStatus.code] at hsame ⊢
  · rintro rfl
    rfl

section Answers

variable {z : Zcbor} {w : Wifi} {e : Ev}

/-- A set request, and how it is answered. -/
lemma setsOk_iff {cfg : WifiCfg} :
    SetsOk z cfg w e ↔ action z e = some (.set cfg) ∧ (doSet cfg w.wc).1 = .ok := by
  refine and_congr_right fun h => ?_
  obtain ⟨req, q, env, rfl, hdec⟩ := action_set h
  simp only [response, handleConfig, hdec, Option.some.injEq]
  exact answer_eq_okRsp_iff (by omega) _

/-- An apply request, and how it is answered. -/
lemma response_apply_iff {env : Env} (h : action z e = some (.apply env)) :
    response z w e = some (.ok (okRsp 2)) ↔ (doApply env w.wc).1 = .ok := by
  obtain ⟨req, q, rfl, hdec⟩ := action_apply h
  simp only [response, handleConfig, hdec, Option.some.injEq]
  exact answer_eq_okRsp_iff (by omega) _

end Answers

/-- The credential store, the attempt in flight, its retry timer and the station state are
as before. -/
structure Unharmed (before after : State) : Prop where
  creds : after.creds = before.creds
  inflight : after.inflight = before.inflight
  retryWork : after.retryWork = before.retryWork
  staState : after.staState = before.staState

/-- An apply deletes no credential: it is turned away first, the deletion fails, or there
is nothing to delete. -/
def DeletesNothing (env : Env) (wc : State) : Prop :=
  ¬ env.iface ∨ wc.staged.ssid = [] ∨ ¬ env.deleteBySsid ∨
    ∀ c ∈ wc.creds, c.ssid ≠ wc.staged.ssid

lemma deleteBySsid_eq_self_iff (ok : Bool) (ssid : Bytes) (creds : List Credential) :
    deleteBySsid ok ssid creds = creds ↔ ¬ ok ∨ ∀ c ∈ creds, c.ssid ≠ ssid := by
  cases ok with
  | false => simp [deleteBySsid]
  | true => simp [deleteBySsid, List.filter_eq_self]

/-- A refused apply is turned away before it touches anything, or only after the old
credential is deleted. -/
lemma doApply_refused {env : Env} {wc : State} (refused : (doApply env wc).1 ≠ .ok) :
    ((¬ env.iface ∨ wc.staged.ssid = []) ∧ (doApply env wc).2.1 = wc) ∨
    (env.iface ∧ wc.staged.ssid ≠ [] ∧ (doApply env wc).2.1 =
      { wc with creds := deleteBySsid env.deleteBySsid wc.staged.ssid wc.creds }) := by
  by_cases hready : ¬ env.iface ∨ wc.staged.ssid.length = 0
  · refine Or.inl ⟨by simpa using hready, ?_⟩
    simp only [doApply, if_pos hready]
  · obtain ⟨hiface, hssid⟩ := not_or.mp hready
    cases hset : env.setPersonal with
    | false =>
      refine Or.inr ⟨not_not.mp hiface, by simpa using hssid, ?_⟩
      simp only [doApply, if_neg hready, hset, Bool.false_eq_true, not_false_eq_true, if_true]
    | true =>
      refine absurd ?_ refused
      simp only [doApply, if_neg hready, hset, not_true_eq_false, if_false]
      split <;> rfl

/-- An apply request that is not answered with ok leaves the credential store, the attempt
in flight, its retry timer and the station state alone exactly when it deletes no
credential: the old entry is removed before the new one is known to be written. -/
theorem refused_apply_harmless_iff {z : Zcbor} {w : Wifi} {e : Ev} {env : Env}
    (isApply : action z e = some (.apply env))
    (refused : response z w e ≠ some (.ok (okRsp 2))) :
    Unharmed w.wc (next z w e).wc ↔ DeletesNothing env w.wc := by
  rw [ne_eq, response_apply_iff isApply] at refused
  have hnext : (next z w e).wc = (doApply env w.wc).2.1 := (step_of_action isApply).1
  rw [hnext]
  rcases doApply_refused refused with ⟨hearly, heq⟩ | ⟨hiface, hssid, heq⟩
  · rw [heq]
    exact ⟨fun _ => hearly.elim Or.inl fun h => Or.inr (Or.inl h), fun _ => ⟨rfl, rfl, rfl, rfl⟩⟩
  · rw [heq]
    have hdelete := deleteBySsid_eq_self_iff env.deleteBySsid w.wc.staged.ssid w.wc.creds
    constructor
    · rintro ⟨hcreds, -, -, -⟩
      exact Or.inr (Or.inr (hdelete.mp hcreds))
    · rintro (h | h | h)
      · exact absurd hiface h
      · exact absurd h hssid
      · exact ⟨hdelete.mpr h, rfl, rfl, rfl⟩

/-- A set request for a network with a passphrase and perhaps a channel. -/
def setReq (ssid pass : String) (ch : List Nat) : Bytes :=
  encode (.array [.uint 1, .map ([text "ssid", .bstr (utf8 ssid), text "pass",
    .bstr (utf8 pass)] ++ ch.flatMap fun n => [text "ch", .uint n])])

def applyReq : Bytes := encode (.array [.uint 2])

def statusReq : Bytes := encode (.array [.uint 0])

/-- The endpoint after initialisation, over an empty credential store. -/
def fresh (attemptsMax : UInt32) : Wifi := ⟨WifiRuns.start attemptsMax [], [0, 0, 0, 0]⟩

def zcbor : Zcbor := Zcbor.definite 32

/-- The station is connected to the network `a`, and a new passphrase for it is set. -/
def changing : Wifi :=
  [.request (setReq "a" "passphrase" []) {} {}, .request applyReq {} {}, .result {} ⟨0, .success⟩,
    .request (setReq "a" "new passphrase" []) {} {}].foldl (next zcbor) (fresh 3)

lemma action_of_set {z : Zcbor} {req : Bytes} {cfg : WifiCfg}
    (h : decodeWith z decodeConfigReq req = some (.set cfg)) (q : Query) (env : Env) :
    action z (.request req q env) = some (.set cfg) := by
  simp only [action, h]

lemma action_applyReq (q : Query) (env : Env) :
    action zcbor (.request applyReq q env) = some (.apply env) := by
  have hdec : decodeWith zcbor decodeConfigReq applyReq = some .apply := by decide +kernel
  simp only [action, hdec]

/-- Without an interface the apply is turned away and the stored passphrase stays. -/
theorem refused_apply_harmless_no_iface :
    Unharmed changing.wc
      (next zcbor changing (.request applyReq {} { iface := false })).wc :=
  (refused_apply_harmless_iff (action_applyReq {} { iface := false }) (by decide +kernel)).mpr
    (Or.inl (by decide))

/-- The store cannot write the new passphrase, and the old one is gone. -/
theorem refused_apply_loses_passphrase :
    let e : Ev := .request applyReq {} { setPersonal := false }
    changing.wc.creds = [⟨[0x61], .psk, none, utf8 "passphrase", 0⟩] ∧
    changing.wc.staState = .connected ∧
    action zcbor e = some (.apply { setPersonal := false }) ∧
    response zcbor changing e = some (.ok (encode (.array [.uint 2, .uint 3]))) ∧
    (next zcbor changing e).wc.creds = [] ∧
    ¬ Unharmed changing.wc (next zcbor changing e).wc := by
  intro e
  have hbefore : changing.wc.creds = [⟨[0x61], .psk, none, utf8 "passphrase", 0⟩] := by
    decide +kernel
  have hafter : (next zcbor changing e).wc.creds = [] := by decide +kernel
  refine ⟨hbefore, by decide +kernel, action_applyReq _ _, by decide +kernel, hafter, ?_⟩
  rintro ⟨hcreds, -, -, -⟩
  rw [hbefore, hafter] at hcreds
  exact absurd hcreds (List.cons_ne_nil _ _).symm

/-- The parameters hold what was requested, with the channel cut to a byte. -/
structure Holds (cfg : WifiCfg) (p : Params) : Prop where
  ssid : p.ssid = cfg.ssid
  pass : p.pass = cfg.pass.getD []
  bssid : (if p.hasBssid then some p.bssid else none) = cfg.bssid
  channel : p.channel = UInt8.ofNat (cfg.ch.getD 0)

/-- A credential with the requested parameters; its channel is zero for any channel. -/
structure Stores (cfg : WifiCfg) (c : Credential) : Prop where
  ssid : c.ssid = cfg.ssid
  pass : c.pass = cfg.pass.getD []
  bssid : c.bssid = cfg.bssid
  channel : c.channel.toNat = cfg.ch.getD 0

/-- The channel that a connect request asks for, unless it leaves the channel open. -/
def asked (r : ConnectReq) : Option Nat :=
  if r.channel = wifiChannelAny then none else some r.channel.toNat

/-- A connect request with the requested parameters. -/
structure Asks (cfg : WifiCfg) (r : ConnectReq) : Prop where
  ssid : r.ssid = cfg.ssid
  psk : r.psk.getD [] = cfg.pass.getD []
  bssid : r.bssid = cfg.bssid.getD (List.replicate wifiMacAddrLen 0)
  channel : asked r = cfg.ch.filter (· ≠ 0)

lemma toNat_ofNat_eq_iff (n : Nat) : (UInt8.ofNat n).toNat = n ↔ n < 256 := by
  rw [UInt8.toNat_ofNat']
  omega

namespace Holds

variable {cfg : WifiCfg} {p : Params}

lemma stores_iff (h : Holds cfg p) : Stores cfg (credentialOf p) ↔ cfg.ch.getD 0 < 256 := by
  rw [← toNat_ofNat_eq_iff, ← h.channel]
  exact ⟨fun hs => hs.channel, fun hch => ⟨h.ssid, h.pass, h.bssid, hch⟩⟩

lemma toNat_channel (h : Holds cfg p) (small : cfg.ch.getD 0 < 256) :
    p.channel.toNat = cfg.ch.getD 0 := by
  rw [h.channel]
  exact (toNat_ofNat_eq_iff _).mpr small

/-- The number 255 is sent as any other, and means any channel. -/
lemma asked_iff (h : Holds cfg p) (small : cfg.ch.getD 0 < 256) :
    asked (connectReq p) = cfg.ch.filter (· ≠ 0) ↔ cfg.ch.getD 0 ≠ 255 := by
  have hch := h.toNat_channel small
  have hpos : p.channel > 0 ↔ cfg.ch.getD 0 ≠ 0 := by
    rw [← hch, gt_iff_lt, UInt8.lt_iff_toNat_lt, UInt8.toNat_zero]
    exact Nat.pos_iff_ne_zero
  have hany : p.channel = wifiChannelAny ↔ cfg.ch.getD 0 = 255 := by
    rw [← hch, ← UInt8.toNat_inj]
    rfl
  cases hgiven : cfg.ch with
  | none => simp [asked, connectReq, hpos, hgiven]
  | some ch =>
    rw [hgiven, Option.getD_some] at hch hpos hany
    by_cases hz : ch = 0
    · simp [asked, connectReq, hpos, hz, Option.filter]
    · by_cases h255 : ch = 255
      · simp [asked, connectReq, hpos, hany, h255, Option.filter]
      · simp [asked, connectReq, hpos, hany, hz, h255, hch, Option.filter]

lemma asks_iff (h : Holds cfg p) (small : cfg.ch.getD 0 < 256) :
    Asks cfg (connectReq p) ↔ cfg.ch.getD 0 ≠ 255 := by
  rw [← h.asked_iff small]
  refine ⟨fun hasks => hasks.channel, fun hasked => ⟨h.ssid, ?_, ?_, hasked⟩⟩
  · rw [← h.pass, connectReq]
    cases p.pass <;> simp
  · rw [← h.bssid, connectReq]
    cases p.hasBssid <;> rfl

/-- The snapshot of an attempt holds what the staged parameters hold. -/
lemma applying {wc : State} (env : Env) (h : Holds cfg wc.staged) :
    Holds cfg (applying env wc).inflight := by
  refine ⟨h.ssid, h.pass, ?_, h.channel⟩
  rw [← h.bssid]
  cases hb : wc.staged.hasBssid <;> simp [WifiRuns.applying, beginAttempt, hb]

end Holds

lemma optField_value {α : Type} {key : String} {value : Item → Option α} {kvs : List Item}
    {a : α} (h : (optField key value kvs).1 = some a) : ∃ v, value v = some a := by
  rw [optField] at h
  cases kvs with
  | nil => simp [field] at h
  | cons k vs =>
    cases vs with
    | nil => simp [field] at h
    | cons v rest =>
      cases hv : value v with
      | none => simp [field, hv] at h
      | some a' =>
        refine ⟨v, ?_⟩
        cases hk : keyIs key k <;> simp [field, hv, hk] at h ⊢
        exact h

lemma decodeWifiConfig_bssid {x : Item} {cfg : WifiCfg} (h : decodeWifiConfig x = some cfg) :
    ∀ b ∈ cfg.bssid, b.length = wifiMacAddrLen := by
  unfold decodeWifiConfig at h
  split at h
  · simp only [Option.bind_eq_bind, Option.bind_eq_some_iff] at h
    obtain ⟨_, -, h⟩ := h
    split at h
    · obtain rfl := Option.some.inj h
      rintro b hb
      obtain ⟨v, hv⟩ := optField_value hb
      simpa [wifiMacAddrLen] using bstrOf_fits hv
    · simp at h
  · simp at h

lemma decodeConfigReq_bssid {x : Item} {cfg : WifiCfg}
    (h : decodeConfigReq x = some (.set cfg)) : ∀ b ∈ cfg.bssid, b.length = wifiMacAddrLen := by
  unfold decodeConfigReq at h
  split at h
  · simp at h
  · obtain ⟨cfg', hcfg, heq⟩ := Option.map_eq_some_iff.mp h
    obtain rfl := ConfigReq.set.inj heq
    exact decodeWifiConfig_bssid hcfg
  · simp at h
  · simp at h

lemma doSet_holds {cfg : WifiCfg} {wc : State} (ok : (doSet cfg wc).1 = .ok)
    (mac : ∀ b ∈ cfg.bssid, b.length = wifiMacAddrLen) :
    Holds cfg (doSet cfg wc).2.staged ∧ cfg.ssid ≠ [] := by
  rw [doSet] at ok ⊢
  split at ok
  · simp at ok
  · split at ok
    · simp at ok
    · rename_i hssid hpass
      rw [if_neg hssid, if_neg hpass]
      refine ⟨⟨rfl, rfl, ?_, ?_⟩, fun h => hssid (Or.inl (by rw [h]; rfl))⟩
      · cases hb : cfg.bssid with
        | none => simp
        | some b => simp [mac b hb]
      · cases cfg.ch <;> rfl

/-- A set request that is answered with ok stages what it asks for. -/
lemma SetsOk.holds {z : Zcbor} {w : Wifi} {e : Ev} {cfg : WifiCfg} (h : SetsOk z cfg w e) :
    Holds cfg (next z w e).wc.staged ∧ cfg.ssid ≠ [] := by
  obtain ⟨hact, hok⟩ := setsOk_iff.mp h
  obtain ⟨req, q, env, rfl, hdec⟩ := action_set hact
  obtain ⟨x, -, hx⟩ := Option.bind_eq_some_iff.mp hdec
  have hnext : (next z w (.request req q env)).wc = (doSet cfg w.wc).2 := (step_of_action hact).1
  rw [hnext]
  exact doSet_holds hok (decodeConfigReq_bssid hx)

/-- A step that is neither a set nor an apply leaves the staged parameters or clears them. -/
lemma step_staged {wc : State} {ev : WifiConfig.Ev} (noSet : ∀ cfg, ev ≠ .set cfg)
    (noApply : ∀ env, ev ≠ .apply env) :
    (WifiConfig.step wc ev).1.staged = wc.staged ∨ (WifiConfig.step wc ev).1.staged.ssid = [] := by
  cases ev with
  | set cfg => exact absurd rfl (noSet cfg)
  | apply env => exact absurd rfl (noApply env)
  | result env status =>
    left
    simp only [WifiConfig.step, onConnectResult]
    repeat' split
    all_goals rfl
  | retry env =>
    left
    simp only [WifiConfig.step, retryWorkHandler]
    repeat' split
    all_goals rfl
  | reset => exact Or.inr rfl
  | reprovision deleted => exact Or.inr rfl

/-- The staged parameters are the given ones, or there are none. -/
def Staged (p : Params) (wc : State) : Prop := wc.staged = p ∨ wc.staged.ssid = []

lemma Quiet.staged {z : Zcbor} {e : Ev} (quiet : Quiet z e) {p : Params} {w : Wifi}
    (h : Staged p w.wc) : Staged p (next z w e).wc := by
  refine next_keeps h fun ev hact => ?_
  have hset : ∀ cfg, ev ≠ .set cfg := fun cfg hev => quiet.1 cfg (hev ▸ hact)
  have happly : ∀ env, ev ≠ .apply env := fun env hev => quiet.2 env (hev ▸ hact)
  rcases step_staged hset happly with hsame | hcleared
  · rw [Staged, hsame]
    exact h
  · exact Or.inr hcleared

/-- Until the next set or apply the staged parameters are those that were set, or gone. -/
lemma quiet_staged {z : Zcbor} {p : Params} {w : Wifi} (h : Staged p w.wc) {es : List Ev}
    (quiet : ∀ e ∈ es, Quiet z e) : Staged p (es.foldl (next z) w).wc := by
  induction es generalizing w with
  | nil => exact h
  | cons e es ih =>
    exact ih ((quiet e List.mem_cons_self).staged h) fun e he => quiet e (List.mem_cons_of_mem _ he)

/-- The attempt in flight is of the given parameters, or there is none. -/
def Flies (p : Params) (wc : State) : Prop := wc.inflight = p ∨ wc.inflight.ssid = []

/-- Every connect request among the outputs is for the given parameters. -/
def ConnectsTo (p : Params) (o : Out) : Prop :=
  ∀ r accepted, o = .connect r accepted → r = connectReq p

lemma connectFromInflight_connectsTo (env : Env) (wc : State) :
    ∀ o ∈ (connectFromInflight env wc).2, ConnectsTo wc.inflight o := by
  rw [connectFromInflight]
  split
  · rintro o ho r accepted rfl
    exact (Out.connect.inj (List.mem_singleton.mp ho)).1
  · simp

lemma finalFailure_connectsTo (env : Env) (wc : State) (p : Params) :
    ∀ o ∈ (finalFailure env wc).2, ConnectsTo p o := by
  rintro o ho r accepted rfl
  exact absurd (List.mem_singleton.mp ho) Out.noConfusion

/-- A retry connects as the first request of its attempt did. -/
lemma retryWorkHandler_connectsTo {env : Env} {p : Params} {wc : State} (h : Flies p wc) :
    Flies p (retryWorkHandler env wc).1 ∧
      ∀ o ∈ (retryWorkHandler env wc).2, ConnectsTo p o := by
  rcases h with rfl | hidle
  · simp only [retryWorkHandler]
    split
    · exact ⟨Or.inl rfl, by simp⟩
    · have hconn := connectFromInflight_connectsTo env { wc with retryWork := false }
      split
      · exact ⟨Or.inl rfl, hconn⟩
      · refine ⟨Or.inr rfl, fun o ho => ?_⟩
        rcases List.mem_append.mp ho with ho | ho
        · exact hconn o ho
        · exact finalFailure_connectsTo env _ _ o ho
  · have hz : wc.inflight.ssid.length = 0 := by rw [hidle]; rfl
    simp only [retryWorkHandler, if_pos hz]
    exact ⟨Or.inr hidle, by simp⟩

/-- A connect result issues no request. -/
lemma onConnectResult_connectsTo {env : Env} {status : WifiStatus} {p : Params} {wc : State}
    (h : Flies p wc) :
    Flies p (onConnectResult env status wc).1 ∧
      ∀ o ∈ (onConnectResult env status wc).2, ConnectsTo p o := by
  simp only [onConnectResult]
  split
  · exact ⟨h, by simp⟩
  · split
    · refine ⟨Or.inr rfl, ?_⟩
      rintro o ho r accepted rfl
      exact absurd (List.mem_singleton.mp ho) Out.noConfusion
    · split
      · split
        · exact ⟨h, by simp⟩
        · exact ⟨Or.inr rfl, finalFailure_connectsTo env _ p⟩
      · exact ⟨Or.inr rfl, finalFailure_connectsTo env _ p⟩

/-- An apply that is answered with ok takes the snapshot and connects from it. -/
lemma doApply_ok {env : Env} {wc : State} (ok : (doApply env wc).1 = .ok) :
    let r := connectFromInflight env (applying env wc)
    let failed := finalFailure env { applying env wc with lastConnStatus := .wrongPassword }
    (doApply env wc).2 = if r.1 then (applying env wc, .event .wifiCredRecv :: r.2)
      else (failed.1, .event .wifiCredRecv :: r.2 ++ failed.2) := by
  simp only [doApply] at ok ⊢
  split at ok
  · simp at ok
  · rename_i hready
    rw [if_neg hready]
    split at ok
    · simp at ok
    · rename_i hset
      rw [if_neg hset]
      exact apply_ite Prod.snd _ _ _

/-- Without an interface it connects to nothing, so any parameters will do. -/
lemma doApply_connectsTo {env : Env} {wc : State} (ok : (doApply env wc).1 = .ok) {p : Params}
    (same : env.connectIface → p = (applying env wc).inflight) :
    Flies p (doApply env wc).2.1 ∧ ∀ o ∈ (doApply env wc).2.2, ConnectsTo p o := by
  have hevent : ConnectsTo p (.event .wifiCredRecv) := fun _ _ h => absurd h Out.noConfusion
  rw [doApply_ok ok]
  cases hiface : env.connectIface with
  | true =>
    have hconn := connectFromInflight_connectsTo env (applying env wc)
    rw [← same hiface] at hconn
    split
    · exact ⟨Or.inl (same hiface).symm, List.forall_mem_cons.mpr ⟨hevent, hconn⟩⟩
    · refine ⟨Or.inr rfl, List.forall_mem_append.mpr ⟨?_, finalFailure_connectsTo env _ _⟩⟩
      exact List.forall_mem_cons.mpr ⟨hevent, hconn⟩
  | false =>
    have hnone : connectFromInflight env (applying env wc) = (false, []) := by
      simp [connectFromInflight, hiface]
    rw [hnone]
    exact ⟨Or.inr rfl,
      List.forall_mem_cons.mpr ⟨hevent, finalFailure_connectsTo env _ _⟩⟩

/-- With an interface there is a connect request. -/
lemma doApply_connects {env : Env} {wc : State} (ok : (doApply env wc).1 = .ok)
    (iface : env.connectIface) :
    .connect (connectReq (applying env wc).inflight) env.connect ∈ (doApply env wc).2.2 := by
  have hconn : (connectFromInflight env (applying env wc)).2 =
      [.connect (connectReq (applying env wc).inflight) env.connect] := by
    simp [connectFromInflight, iface]
  rw [doApply_ok ok]
  simp only [hconn]
  split <;> simp

lemma doApply_staged {env : Env} {wc : State} (ok : (doApply env wc).1 = .ok) :
    wc.staged.ssid ≠ [] := by
  rcases doApply_cases env wc with ⟨hno, -⟩ | ⟨-, hssid, -⟩ | ⟨-, hssid, -⟩
  · exact absurd ok hno
  · exact List.length_pos_iff.mp hssid
  · exact List.length_pos_iff.mp hssid

/-- A step that is no apply answered with ok keeps the snapshot and connects from it. -/
lemma step_connectsTo {z : Zcbor} {w : Wifi} {e : Ev} {p : Params} (h : Flies p w.wc)
    (other : ¬ AppliesOk z w e) :
    Flies p (step z w e).1.wc ∧ ∀ o ∈ (step z w e).2, ConnectsTo p o := by
  cases hact : action z e with
  | none =>
    obtain ⟨hwc, houts⟩ := step_of_none (w := w) hact
    rw [hwc, houts]
    exact ⟨h, by simp⟩
  | some ev =>
    obtain ⟨hwc, houts⟩ := step_of_action (w := w) hact
    rw [hwc, houts]
    cases ev with
    | set cfg =>
      obtain ⟨staged, heq⟩ := doSet_frame cfg w.wc
      refine ⟨?_, by simp [WifiConfig.step]⟩
      simp only [WifiConfig.step, heq]
      exact h
    | apply env =>
      have hrefused : (doApply env w.wc).1 ≠ .ok :=
        fun hok => other ⟨⟨env, hact⟩, (response_apply_iff hact).mpr hok⟩
      rcases doApply_cases env w.wc with ⟨-, hnone, creds, heq, -⟩ | ⟨hok, -⟩ | ⟨hok, -⟩
      · simp only [WifiConfig.step, heq, hnone]
        exact ⟨h, by simp⟩
      · exact absurd hok hrefused
      · exact absurd hok hrefused
    | result env status => exact onConnectResult_connectsTo h
    | retry env =>
      rcases step_retry w.wc env with ⟨-, heq⟩ | ⟨-, heq⟩
      · rw [heq]
        exact ⟨h, by simp⟩
      · rw [heq]
        exact retryWorkHandler_connectsTo h
    | reset | reprovision => exact ⟨Or.inr rfl, by simp [WifiConfig.step]⟩

/-- The apply finds an interface when it connects. -/
def Connects (z : Zcbor) (e : Ev) : Prop :=
  ∃ env, action z e = some (.apply env) ∧ env.connectIface

/-- Let a set request be answered with ok, and the next config request other than a status
query be an apply that is answered with ok. The credential of that apply, and every connect
request up to the next such apply, have the parameters of the set exactly when the channel
fits in a byte and, if there is a connect request at all, is not the one that stands for any
channel. -/
theorem applied_as_set_iff {z : Zcbor} {w : Wifi} {cfg : WifiCfg} {set apply : Ev}
    {between later : List Ev} (isSet : SetsOk z cfg w set)
    (quiet : ∀ e ∈ between, Quiet z e)
    (isApply : AppliesOk z (between.foldl (next z) (next z w set)) apply)
    (others : Each (next z) (fun w e => ¬ AppliesOk z w e)
      (next z (between.foldl (next z) (next z w set)) apply) later) :
    let before := between.foldl (next z) (next z w set)
    (Stores cfg (credentialOf before.wc.staged) ∧
      ∀ r accepted, .connect r accepted ∈ outputs (step z) before (apply :: later) →
        Asks cfg r) ↔
      cfg.ch.getD 0 < 256 ∧ (Connects z apply → cfg.ch.getD 0 ≠ 255) := by
  intro before
  obtain ⟨hset, -⟩ := isSet.holds
  obtain ⟨⟨env, hact⟩, hresp⟩ := isApply
  have hok : (doApply env before.wc).1 = .ok := (response_apply_iff hact).mp hresp
  -- An apply that succeeds found parameters, so they are still those of the set.
  have hholds : Holds cfg before.wc.staged := by
    rcases quiet_staged (Or.inl rfl) quiet with hsame | hcleared
    · rw [hsame]
      exact hset
    · exact absurd hcleared (doApply_staged hok)
  obtain ⟨hwc, houts⟩ := step_of_action (w := before) hact
  have hconnects : ∀ p, (env.connectIface → p = (applying env before.wc).inflight) →
      ∀ o ∈ outputs (step z) before (apply :: later), ConnectsTo p o := by
    intro p hp
    obtain ⟨hfly, hfirst⟩ := doApply_connectsTo hok hp
    have hstart : Flies p (next z before apply).wc := by
      rw [next, hwc]
      exact hfly
    refine List.forall_mem_append.mpr ⟨?_, ?_⟩
    · rw [houts]
      exact hfirst
    · exact outputs_of_each (I := fun w => Flies _ w.wc)
        (fun _ _ hflies hother => step_connectsTo hflies hother) hstart others
  have hsnapshot := hholds.applying env
  constructor
  · rintro ⟨hstores, hasks⟩
    have hsmall := hholds.stores_iff.mp hstores
    refine ⟨hsmall, ?_⟩
    rintro ⟨env', hact', hiface⟩
    cases hact.symm.trans hact'
    refine (hsnapshot.asks_iff hsmall).mp (hasks _ env.connect ?_)
    refine List.mem_append_left _ ?_
    rw [houts]
    exact doApply_connects hok hiface
  · rintro ⟨hsmall, hopen⟩
    refine ⟨hholds.stores_iff.mpr hsmall, fun r accepted hmem => ?_⟩
    by_cases hiface : env.connectIface
    · rw [hconnects _ (fun _ => rfl) _ hmem r accepted rfl]
      exact (hsnapshot.asks_iff hsmall).mpr (hopen ⟨env, hact, hiface⟩)
    · -- without an interface nothing is asked: the request would be any request
      have hempty := hconnects Params.zero (fun h => absurd h hiface) _ hmem r accepted rfl
      have hother := hconnects { Params.zero with ssid := [0] } (fun h => absurd h hiface) _ hmem
        r accepted rfl
      have hssid := congrArg ConnectReq.ssid (hempty.symm.trans hother)
      exact absurd hssid (List.cons_ne_nil _ _).symm

/-- With a channel of a byte, a set of another passphrase before the retry changes nothing. -/
theorem applied_as_set_retry :
    let cfg : WifiCfg := ⟨[0x61], some (utf8 "passphrase"), none, some 11⟩
    let apply : Ev := .request applyReq {} {}
    let later : List Ev :=
      [.request (setReq "a" "other" []) {} {}, .result {} ⟨-1, .fail⟩, .retry {}]
    let before := next zcbor (fresh 3) (.request (setReq "a" "passphrase" [11]) {} {})
    (outputs (step zcbor) before (apply :: later)).countP WifiRuns.isConnect = 2 ∧
    Stores cfg (credentialOf before.wc.staged) ∧
    ∀ r accepted, .connect r accepted ∈ outputs (step zcbor) before (apply :: later) →
      Asks cfg r := by
  intro cfg apply later before
  have hset : SetsOk zcbor cfg (fresh 3) (.request (setReq "a" "passphrase" [11]) {} {}) :=
    ⟨action_of_set (by decide +kernel) _ _, by decide +kernel⟩
  have happly : AppliesOk zcbor before apply := ⟨⟨_, action_applyReq _ _⟩, by decide +kernel⟩
  have hother : action zcbor (.request (setReq "a" "other" []) {} {}) =
      some (.set ⟨[0x61], some (utf8 "other"), none, none⟩) :=
    action_of_set (by decide +kernel) _ _
  have hquiet : ∀ e ∈ ([] : List Ev), Quiet zcbor e := by simp
  have hlater : Each (next zcbor) (fun w e => ¬ AppliesOk zcbor w e)
      (next zcbor before apply) later := by
    refine ⟨?_, ?_, ?_, trivial⟩
    · rintro ⟨⟨env, h⟩, -⟩
      exact absurd (hother.symm.trans h) (by simp)
    · rintro ⟨⟨env, h⟩, -⟩
      exact absurd h (by simp [action])
    · rintro ⟨⟨env, h⟩, -⟩
      exact absurd h (by simp [action])
  exact ⟨by decide +kernel, (applied_as_set_iff hset hquiet happly hlater).mpr
    ⟨by decide, fun _ => by decide⟩⟩

/-- Channel 257 is stored, and asked for, as channel 1, and channel 255 is asked for as any
channel. -/
theorem applied_as_set_wide_channel :
    let cfg (ch : Nat) : WifiCfg := ⟨[0x61], some (utf8 "passphrase"), none, some ch⟩
    let set (ch : Nat) : Ev := .request (setReq "a" "passphrase" [ch]) {} {}
    let apply : Ev := .request applyReq {} {}
    let before (ch : Nat) := next zcbor (fresh 3) (set ch)
    let req (ch : UInt8) : ConnectReq :=
      ⟨[0x61], some (utf8 "passphrase"), .psk, ch, List.replicate 6 0⟩
    (SetsOk zcbor (cfg 257) (fresh 3) (set 257) ∧ AppliesOk zcbor (before 257) apply ∧
      (credentialOf (before 257).wc.staged).channel = 1 ∧
      outputs (step zcbor) (before 257) [apply] =
        [.event .wifiCredRecv, .connect (req 1) true]) ∧
    SetsOk zcbor (cfg 255) (fresh 3) (set 255) ∧ AppliesOk zcbor (before 255) apply ∧
      outputs (step zcbor) (before 255) [apply] =
        [.event .wifiCredRecv, .connect (req wifiChannelAny) true] := by
  intro cfg set apply before req
  refine ⟨⟨⟨action_of_set (by decide +kernel) _ _, by decide +kernel⟩,
    ⟨⟨_, action_applyReq _ _⟩, by decide +kernel⟩, by decide +kernel, by decide +kernel⟩,
    ⟨action_of_set (by decide +kernel) _ _, by decide +kernel⟩,
    ⟨⟨_, action_applyReq _ _⟩, by decide +kernel⟩, by decide +kernel⟩

end WifiRequests
