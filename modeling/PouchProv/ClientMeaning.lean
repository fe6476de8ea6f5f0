import PouchProv.ClientResponses

/-!
# What a response means to the two apps

The decoders of `Messages.kt` and `Messages.swift` as one relation between the value that was
read and the value that is returned. The apps differ in how they take a number and in the kind
that a text names; the rest of the relation is common (`Kotlin.decodeRsp_ok_iff`,
`Swift.decodeRsp_ok_iff`).
-/

namespace ClientResponses

open Bytes Cbor Clients ClientReader Status
open CredStore (CredKind)
open ProvTypes (StaState)

/-- How an app takes a number, and the kind of credential that it finds in a text. -/
structure Taking where
  number : Int64 → Int
  kind : String → Option CredKind

def Kotlin.taking (t : Texts) : Taking where
  number := narrow
  kind s := (Kotlin.stringToInt t s).toOption.bind credKindFrom

def Swift.taking : Taking where
  number := Int64.toInt
  kind s := (Swift.stringToInt s).bind credKindFrom

def Taking.intOf (c : Taking) (v : CborValue) : Option Int := v.int64Value.map c.number

def textsValue (v : CborValue) : Option (List String) :=
  (arrayValue v).bind fun xs => xs.mapM textValue

/-- What the entry under a key holds. -/
def field {α : Type} (view : CborValue → Option α) (kvs : List (CborValue × CborValue))
    (key : String) : Option α :=
  (lookup key kvs).bind view

section Meaning

variable (c : Taking)

structure InfoYields (kvs : List (CborValue × CborValue)) (y : VersionInfo Int String) : Prop where
  proto : field c.intOf kvs "proto" = some y.proto
  caps : field textsValue kvs "caps" = some y.caps
  blockSize : field c.intOf kvs "blk" = some y.blockSize
  lib : field textValue kvs "lib" = some y.lib
  popRequired : (field boolValue kvs "pop").getD false = y.popRequired

def VerYields (rest : List CborValue) (y : VersionInfo Int String) : Prop :=
  ∃ kvs, rest[0]? = some (.map kvs) ∧ InfoYields c kvs y

def ChallengeYields (rest : List CborValue) (y : Bytes × Bytes) : Prop :=
  rest[0]? = some (.bytes y.1) ∧ rest[1]? = some (.bytes y.2) ∧ y.1.length = 16 ∧ y.2.length = 32

/-- The status of a station in a state, from the element that follows the state. -/
def DetailYields (state : StaState) (detail : Option CborValue) (y : WifiStatus Int) : Prop :=
  match detail with
  | none => ⟨state, none, none, none, none⟩ = y
  | some (.int code) =>
    ∃ reason, failReasonFrom (c.number code) = some reason ∧
      ⟨state, some reason, none, none, none⟩ = y
  | some (.map kvs) =>
    ∃ ip4, field bytesValue kvs "ip4" = some ip4 ∧ ∃ ssid, field bytesValue kvs "ssid" = some ssid ∧
      ⟨state, none, some ip4, some ssid, field c.intOf kvs "rssi"⟩ = y
  | some _ => False

def ConfigYields (rest : List CborValue) (y : WifiStatus Int) : Prop :=
  ∃ code state, rest[0]? = some (.int code) ∧ staStateFrom (c.number code) = some state ∧
    DetailYields c state rest[1]? y

def ScanStatusYields (rest : List CborValue) (y : Bool × Int) : Prop :=
  ∃ total, rest[0]? = some (.bool y.1) ∧ rest[1]? = some (.int total) ∧ c.number total = y.2

structure EntryYields (kvs : List (CborValue × CborValue)) (y : ScanEntry Int) : Prop where
  ssid : field bytesValue kvs "ssid" = some y.ssid
  bssid : field bytesValue kvs "bssid" = some y.bssid
  channel : field c.intOf kvs "ch" = some y.channel
  rssi : field c.intOf kvs "rssi" = some y.rssi
  auth : field c.intOf kvs "auth" = some y.auth

def ScanResultsYields (rest : List CborValue) (y : List (ScanEntry Int)) : Prop :=
  ∃ es, rest[0]? = some (.array es) ∧
    List.Forall₂ (fun e entry => ∃ kvs, e = .map kvs ∧ EntryYields c kvs entry) es y

def CredWriteYields (rest : List CborValue) (y : Int) : Prop :=
  ∃ received, rest[0]? = some (.int received) ∧ c.number received = y

/-- The kind and the length in an entry of the status of the credentials. -/
def Taking.statusEntry (kv : CborValue × CborValue) : Option (CredKind × Int) :=
  (textValue kv.1).bind fun key => (c.kind key).bind fun kind =>
    (c.intOf kv.2).map fun len => (kind, len)

/-- The last entry of a kind has this length. -/
def LastIs {E : Type} (entry : E → Option (CredKind × Int)) (kvs : List E) (kind : CredKind)
    (n : Int) : Prop :=
  ∃ before kv after, kvs = before ++ kv :: after ∧ entry kv = some (kind, n) ∧
    ∀ later ∈ after, ∀ m, entry later ≠ some (kind, m)

def CredStatusYields (rest : List CborValue) (y : CredKind → Option Int) : Prop :=
  ∃ kvs entries, rest[0]? = some (.map kvs) ∧ kvs.mapM c.statusEntry = some entries ∧
    associate entries = y

def Yields : (d : Decoder) → List CborValue → d.Value Int String → Prop
  | .ver => VerYields c
  | .authChallenge => ChallengeYields
  | .configStatus => ConfigYields c
  | .scanStatus => ScanStatusYields c
  | .scanResults => ScanResultsYields c
  | .credWrite => CredWriteYields c
  | .credStatus => CredStatusYields c
  | .authProof | .configSet | .configApply | .scanStart | .credFinalize | .ctrl _ =>
    fun _ _ => True

/-- A response with the op, a status of zero, and something behind them. -/
def Responds (op : Int) (behind : List CborValue → Prop) (v : CborValue) : Prop :=
  ∃ o s rest, v = .array (.int o :: .int s :: rest) ∧ c.number o = op ∧ c.number s = 0 ∧
    behind rest

def Means (d : Decoder) (v : CborValue) (y : d.Value Int String) : Prop :=
  Responds c d.op (fun rest => Yields c d rest y) v

end Meaning

/-- Numbers of 31 bits are taken as they are. -/
def Taking.KeepsSmall (c : Taking) : Prop :=
  ∀ n : Nat, n < 2 ^ 31 → c.number (Int64.ofNat n) = n

lemma Swift.keepsSmall : Swift.taking.KeepsSmall :=
  fun _ h => Int64.toInt_ofNat_of_lt (by omega)

lemma Kotlin.keepsSmall (t : Texts) : (Kotlin.taking t).KeepsSmall :=
  fun n h => (narrow_ofNat h).trans (Swift.keepsSmall n h)

lemma int_of_intOf {c : Taking} {v : CborValue} {n : Int} (h : c.intOf v = some n) :
    ∃ w, v = .int w ∧ c.number w = n := by
  cases v with
  | int w => exact ⟨w, rfl, Option.some.inj h⟩
  | _ => cases h

lemma eq_ok_iff {ε α : Type} {x : Except ε α} {a : α} : x = .ok a ↔ x.toOption = some a := by
  cases x <;> simp

lemma ok_of_toOption {ε α : Type} {x : Except ε α} (h : x.toOption.isSome) : ∃ a, x = .ok a :=
  (Option.isSome_iff_exists.mp h).imp fun _ => eq_ok_iff.mpr

lemma checkResponse_ok_iff {c : Taking} {opValue : CborValue → Option Int}
    {statusValue : CborValue → Except Refusal Int} (hop : ∀ v, opValue v = c.intOf v)
    (hstatus : ∀ v, (statusValue v).toOption = c.intOf v) {expectOp : Int} {context : String}
    {v : CborValue} {msg : List CborValue} :
    checkResponse opValue statusValue expectOp context v = .ok msg ↔
      ∃ op status rest, v = .array (.int op :: .int status :: rest) ∧ c.number op = expectOp ∧
        c.number status = 0 ∧ msg = .int op :: .int status :: rest := by
  constructor
  · intro h
    obtain ⟨op, status, rest, rfl, hop', hcode⟩ := checkResponse_ok h
    rw [hop] at hop'
    have hstatus' := (hstatus status).symm.trans (eq_ok_iff.mp hcode)
    obtain ⟨o, rfl, ho⟩ := int_of_intOf hop'
    obtain ⟨s, rfl, hs⟩ := int_of_intOf hstatus'
    refine ⟨o, s, rest, rfl, ho, hs, ?_⟩
    have hknown : known "status" statusFrom 0 = .ok .ok := rfl
    rw [checkResponse, if_neg (not_not.mpr ((hop _).trans hop')), hcode, ok_bind, hknown,
      ok_bind] at h
    exact (Except.ok.inj h).symm
  · rintro ⟨o, s, rest, rfl, ho, hs, rfl⟩
    have hop' : opValue (.int o) = some expectOp := (hop _).trans (congrArg some ho)
    have hcode : statusValue (.int s) = .ok 0 :=
      eq_ok_iff.mpr ((hstatus _).trans (congrArg some hs))
    have hknown : known "status" statusFrom 0 = .ok .ok := rfl
    rw [checkResponse, if_neg (not_not.mpr hop'), hcode, ok_bind, hknown, ok_bind]
    rfl

lemma bind_eq_ok_iff {ε α β : Type} {x : Except ε α} {f : α → Except ε β} {b : β} :
    (x >>= f) = .ok b ↔ ∃ a, x = .ok a ∧ f a = .ok b := by
  constructor
  · exact bind_ok
  · rintro ⟨a, rfl, h⟩
    exact h

/-- The result of a decoder is what stands behind the op and the status of the value read. -/
def Answers {α : Type} (c : Taking) (reading : Except String CborValue) (op : Int)
    (yields : List CborValue → α → Prop) (result : Except Refusal α) : Prop :=
  ∀ y, result = .ok y ↔
    ∃ v, reading = .ok v ∧ Responds c op (fun rest => yields rest y) v

/-- What all decoders of both apps begin with. -/
lemma answers_of_body {c : Taking} {opValue : CborValue → Option Int}
    {statusValue : CborValue → Except Refusal Int} (hop : ∀ v, opValue v = c.intOf v)
    (hstatus : ∀ v, (statusValue v).toOption = c.intOf v) (reading : Except String CborValue)
    {op : Int} {context : String} {α : Type} {f : List CborValue → Except Refusal α}
    {Y : List CborValue → α → Prop}
    (body : ∀ o s rest y, f (.int o :: .int s :: rest) = .ok y ↔ Y rest y) :
    Answers c reading op Y ((match reading with
      | .error e => .error (.decode (context ++ ": bad CBOR: " ++ e))
      | .ok v => checkResponse opValue statusValue op context v) >>= f) := by
  intro y
  rw [bind_eq_ok_iff]
  cases reading with
  | error e => simp
  | ok v =>
    simp only [checkResponse_ok_iff hop hstatus]
    constructor
    · rintro ⟨msg, ⟨o, s, rest, rfl, ho, hs, rfl⟩, hf⟩
      exact ⟨_, rfl, o, s, rest, rfl, ho, hs, (body o s rest y).mp hf⟩
    · rintro ⟨_, ⟨⟩, o, s, rest, hv, ho, hs, hf⟩
      exact ⟨_, ⟨o, s, rest, hv, ho, hs, rfl⟩, (body o s rest y).mpr hf⟩

lemma mapM_eq_some_iff {α β : Type} {f : α → Option β} {xs : List α} {ys : List β} :
    xs.mapM f = some ys ↔ List.Forall₂ (fun x y => f x = some y) xs ys := by
  induction xs generalizing ys with
  | nil =>
    rw [List.forall₂_nil_left_iff]
    exact ⟨fun h => (Option.some.inj h).symm, fun h => congrArg some h.symm⟩
  | cons x xs ih =>
    rw [List.mapM_cons, List.forall₂_cons_left_iff]
    simp only [Option.bind_eq_bind, Option.bind_eq_some_iff, Option.pure_def, ih]
    constructor
    · rintro ⟨y, hy, ys', hys, heq⟩
      exact ⟨y, ys', hy, hys, (Option.some.inj heq).symm⟩
    · rintro ⟨y, ys', hy, hys, rfl⟩
      exact ⟨y, hy, ys', hys, rfl⟩

lemma exists_mapM_iff {α β : Type} {f : α → Option β} {xs : List α} :
    (∃ ys, xs.mapM f = some ys) ↔ ∀ x ∈ xs, (f x).isSome := by
  induction xs with
  | nil => exact ⟨fun _ _ h => absurd h List.not_mem_nil, fun _ => ⟨[], rfl⟩⟩
  | cons x xs ih =>
    rw [List.forall_mem_cons, ← ih]
    simp only [mapM_eq_some_iff, List.forall₂_cons_left_iff, Option.isSome_iff_exists]
    constructor
    · rintro ⟨_, y, ys, hy, hys, -⟩
      exact ⟨⟨y, hy⟩, ys, hys⟩
    · rintro ⟨⟨y, hy⟩, ys, hys⟩
      exact ⟨_, y, ys, hy, hys, rfl⟩

section Associate

variable {E : Type} {entry : E → Option (CredKind × Int)} {kvs : List E} {kind : CredKind} {n : Int}

lemma not_lastIs_nil : ¬ LastIs entry [] kind n := by
  rintro ⟨before, kv, after, heq, -⟩
  exact absurd heq (by simp)

lemma lastIs_append_singleton {kv : E} :
    LastIs entry (kvs ++ [kv]) kind n ↔ entry kv = some (kind, n) ∨
      (∀ m, entry kv ≠ some (kind, m)) ∧ LastIs entry kvs kind n := by
  constructor
  · rintro ⟨before, x, after, heq, hx, hafter⟩
    cases after using List.reverseRecOn with
    | nil =>
      obtain ⟨-, hlast⟩ := List.append_inj' heq rfl
      obtain rfl := List.singleton_inj.mp hlast
      exact .inl hx
    | append_singleton after y =>
      rw [← List.cons_append, ← List.append_assoc] at heq
      obtain ⟨hkvs, hlast⟩ := List.append_inj' heq rfl
      obtain rfl := List.singleton_inj.mp hlast
      have hother := hafter kv (List.mem_append_right _ List.mem_cons_self)
      have hbefore := fun later h => hafter later (List.mem_append_left _ h)
      exact .inr ⟨hother, before, x, after, hkvs, hx, hbefore⟩
  · rintro (hkv | ⟨hother, before, x, after, rfl, hx, hafter⟩)
    · exact ⟨kvs, kv, [], rfl, hkv, by simp⟩
    · refine ⟨before, x, after ++ [kv], by simp, hx, ?_⟩
      intro later hlater
      obtain hlater | hlater := List.mem_append.mp hlater
      · exact hafter later hlater
      · obtain rfl := List.mem_singleton.mp hlater
        exact hother

/-- The map that is built from the entries has the last one of each kind. -/
lemma associate_eq_some_iff {entries : List (CredKind × Int)}
    (h : kvs.mapM entry = some entries) :
    associate entries kind = some n ↔ LastIs entry kvs kind n := by
  induction kvs using List.reverseRecOn generalizing entries with
  | nil =>
    obtain rfl := Option.some.inj h
    exact ⟨fun h => absurd h (by simp [associate]), fun h => absurd h not_lastIs_nil⟩
  | append_singleton kvs kv ih =>
    rw [List.mapM_append] at h
    obtain ⟨es, hes, h⟩ := Option.bind_eq_some_iff.mp h
    obtain ⟨last, hlast, h⟩ := Option.bind_eq_some_iff.mp h
    obtain rfl := Option.some.inj h
    obtain ⟨e, rfl, he⟩ : ∃ e, last = [e] ∧ entry kv = some e := by
      obtain ⟨e, _, he, hnil, rfl⟩ :=
        List.forall₂_cons_left_iff.mp (mapM_eq_some_iff.mp hlast)
      exact ⟨e, by rw [List.forall₂_nil_left_iff.mp hnil], he⟩
    rw [lastIs_append_singleton, ← ih hes, he, associate, List.reverse_append,
      List.reverse_singleton, List.singleton_append, List.lookup_cons]
    obtain ⟨kind', m⟩ := e
    by_cases hkind : kind = kind'
    · subst hkind
      simp
    · have hbeq : (kind == kind') = false := beq_false_of_ne hkind
      simp [hbeq, associate, Ne.symm hkind]

end Associate

lemma mapValue_eq_some_iff {v : CborValue} {kvs : List (CborValue × CborValue)} :
    mapValue v = some kvs ↔ v = .map kvs := by
  cases v <;> simp [mapValue]

lemma arrayValue_eq_some_iff {v : CborValue} {xs : List CborValue} :
    arrayValue v = some xs ↔ v = .array xs := by
  cases v <;> simp [arrayValue]

lemma bytesValue_eq_some_iff {v : CborValue} {b : Bytes} :
    bytesValue v = some b ↔ v = .bytes b := by
  cases v <;> simp [bytesValue]

lemma boolValue_eq_some_iff {v : CborValue} {b : Bool} :
    boolValue v = some b ↔ v = .bool b := by
  cases v <;> simp [boolValue]

lemma intOf_eq_some_iff {c : Taking} {v : CborValue} {n : Int} :
    c.intOf v = some n ↔ ∃ w, v = .int w ∧ c.number w = n := by
  constructor
  · exact int_of_intOf
  · rintro ⟨w, rfl, rfl⟩
    rfl

namespace Kotlin

variable {t : Texts} {data : Bytes}

lemma toOption_toInt (v : CborValue) : (toInt v).toOption = (taking t).intOf v := by
  rw [toInt, toOption_map, toOption_cast]
  rfl

lemma toOption_cast_get {α : Type} (view : CborValue → Option α) (null : view .null = none)
    (kvs : List (CborValue × CborValue)) (key : String) :
    view (get kvs key) = field view kvs key := by
  rw [get, field]
  cases lookup key kvs with
  | none => exact null
  | some v => rfl

/-- The decoder `result` of the app. -/
def Answers {α : Type} (t : Texts) (data : Bytes) (op : Int) (yields : List CborValue → α → Prop)
    (result : Except Refusal α) : Prop :=
  ClientResponses.Answers (taking t) (ClientReader.decode (ClientReader.Kotlin.rules t) data) op
    yields result

lemma answers_of_body {op : Int} {context : String} {α : Type}
    {f : List CborValue → Except Refusal α} {Y : List CborValue → α → Prop}
    (body : ∀ o s rest y, f (.int o :: .int s :: rest) = .ok y ↔ Y rest y) :
    Answers t data op Y (decode t data op context >>= f) :=
  ClientResponses.answers_of_body (fun _ => rfl) toOption_toInt _ body

lemma configDetail_ok_iff {state : StaState} {detail : Option CborValue} {y : WifiStatus Int} :
    configDetail state detail = .ok y ↔ DetailYields (taking t) state detail y := by
  rw [eq_ok_iff]
  match detail with
  | none => exact Option.some_inj
  | some (.int code) =>
    simp only [configDetail, DetailYields, toOption_bind, toOption_known, toOption_pure,
      Option.bind_eq_some_iff, Option.some.injEq, taking]
  | some (.map kvs) =>
    have hrssi : (get kvs "rssi").int64Value.map narrow = field (taking t).intOf kvs "rssi" :=
      toOption_cast_get (taking t).intOf rfl kvs "rssi"
    simp only [configDetail, DetailYields, toOption_bind, toOption_cast, toOption_pure,
      toOption_cast_get bytesValue rfl, Option.bind_eq_some_iff, Option.some.injEq, hrssi]
  | some (.bytes _) | some (.text _) | some (.array _) | some (.bool _) | some .null =>
    simp [configDetail, DetailYields]

lemma scanEntry_ok_iff {e : CborValue} {y : ScanEntry Int} :
    scanEntry e = .ok y ↔ ∃ kvs, e = .map kvs ∧ EntryYields (taking t) kvs y := by
  simp only [eq_ok_iff, scanEntry, toOption_bind, toOption_cast, toOption_pure,
    toOption_toInt (t := t), toOption_cast_get bytesValue rfl, Option.bind_eq_some_iff,
    toOption_cast_get (taking t).intOf rfl, mapValue_eq_some_iff, Option.some.injEq]
  constructor
  · rintro ⟨kvs, rfl, ssid, hssid, bssid, hbssid, channel, hchannel, rssi, hrssi, auth, hauth, rfl⟩
    exact ⟨kvs, rfl, hssid, hbssid, hchannel, hrssi, hauth⟩
  · rintro ⟨kvs, rfl, h⟩
    exact ⟨kvs, rfl, _, h.ssid, _, h.bssid, _, h.channel, _, h.rssi, _, h.auth, rfl⟩

lemma toOption_statusEntry (kv : CborValue × CborValue) :
    (statusEntry t kv).toOption = (taking t).statusEntry kv := by
  simp only [statusEntry, Taking.statusEntry, toOption_bind, toOption_cast, toOption_known,
    toOption_toInt (t := t), toOption_pure, taking]
  cases textValue kv.1 with
  | none => rfl
  | some key =>
    simp only [Option.bind_some]
    cases (stringToInt t key).toOption with
    | none => rfl
    | some code =>
      simp only [Option.bind_some]
      cases credKindFrom code with
      | none => rfl
      | some kind =>
        simp only [Option.bind_some]
        exact Option.map_eq_bind.symm

lemma decodeVerRsp_answers :
    Answers t data 0 (VerYields (taking t)) (decodeVerRsp t data) := by
  refine answers_of_body fun o s rest y => ?_
  simp only [eq_ok_iff, VerYields, toOption_bind, toOption_element, toOption_cast, toOption_pure,
    toOption_mapM, List.getElem?_cons_succ, Option.bind_eq_some_iff, mapValue_eq_some_iff,
    toOption_toInt (t := t), toOption_cast_get (taking t).intOf rfl,
    toOption_cast_get textValue rfl, toOption_cast_get boolValue rfl, Option.some.injEq]
  constructor
  · rintro ⟨_, hinfo, kvs, rfl, proto, hproto, xs, hxs, caps, hcaps, blk, hblk, lib, hlib, rfl⟩
    refine ⟨kvs, hinfo, hproto, ?_, hblk, hlib, rfl⟩
    rw [← toOption_cast_get textsValue rfl, textsValue, hxs]
    exact hcaps
  · rintro ⟨kvs, hinfo, h⟩
    have hcaps := h.caps
    rw [← toOption_cast_get textsValue rfl, textsValue] at hcaps
    obtain ⟨xs, hxs, htexts⟩ := Option.bind_eq_some_iff.mp hcaps
    exact ⟨_, hinfo, kvs, rfl, _, h.proto, xs, hxs, _, htexts, _, h.blockSize, _, h.lib,
      by rw [h.popRequired]⟩

lemma decodeAuthChallengeRsp_answers :
    Answers t data 0 ChallengeYields (decodeAuthChallengeRsp t data) := by
  refine answers_of_body fun o s rest y => ?_
  simp only [eq_ok_iff, ChallengeYields, toOption_bind, toOption_element, toOption_cast,
    List.getElem?_cons_succ, Option.bind_eq_some_iff, bytesValue_eq_some_iff]
  constructor
  · rintro ⟨_, hnonce, nonce, rfl, _, hproof, proof, rfl, h⟩
    split at h
    · cases h
    · rename_i hsizes
      obtain rfl := Option.some.inj h
      obtain ⟨hsize, hsize'⟩ := not_or.mp hsizes
      exact ⟨hnonce, hproof, not_not.mp hsize, not_not.mp hsize'⟩
  · rintro ⟨hnonce, hproof, hsize, hsize'⟩
    refine ⟨_, hnonce, _, rfl, _, hproof, _, rfl, ?_⟩
    rw [if_neg (by omega)]
    rfl

lemma decodeConfigStatusRsp_answers :
    Answers t data 0 (ConfigYields (taking t)) (decodeConfigStatusRsp t data) := by
  refine answers_of_body fun o s rest y => ?_
  simp only [bind_eq_ok_iff, configDetail_ok_iff (t := t), ConfigYields]
  simp only [eq_ok_iff, toOption_element, toOption_known, toOption_toInt (t := t),
    List.getElem?_cons_succ, intOf_eq_some_iff]
  constructor
  · rintro ⟨v, hv, _, ⟨code, rfl, rfl⟩, state, hstate, hdetail⟩
    exact ⟨code, state, hv, hstate, hdetail⟩
  · rintro ⟨code, state, hv, hstate, hdetail⟩
    exact ⟨_, hv, _, ⟨code, rfl, rfl⟩, state, hstate, hdetail⟩

lemma decodeScanStatusRsp_answers :
    Answers t data 1 (ScanStatusYields (taking t)) (decodeScanStatusRsp t data) := by
  refine answers_of_body fun o s rest y => ?_
  simp only [eq_ok_iff, ScanStatusYields, toOption_bind, toOption_element, toOption_cast,
    toOption_pure, toOption_toInt (t := t), List.getElem?_cons_succ, Option.bind_eq_some_iff,
    boolValue_eq_some_iff, intOf_eq_some_iff, Option.some.injEq]
  constructor
  · rintro ⟨_, hfinished, finished, rfl, _, htotal, _, ⟨total, rfl, rfl⟩, rfl⟩
    exact ⟨total, hfinished, htotal, rfl⟩
  · rintro ⟨total, hfinished, htotal, hy⟩
    exact ⟨_, hfinished, _, rfl, _, htotal, _, ⟨total, rfl, hy⟩, rfl⟩

lemma decodeScanResultsRsp_answers :
    Answers t data 2 (ScanResultsYields (taking t)) (decodeScanResultsRsp t data) := by
  refine answers_of_body fun o s rest y => ?_
  simp only [eq_ok_iff, ScanResultsYields, toOption_bind, toOption_element, toOption_cast,
    toOption_mapM, List.getElem?_cons_succ, Option.bind_eq_some_iff, arrayValue_eq_some_iff,
    mapM_eq_some_iff]
  simp only [← eq_ok_iff, scanEntry_ok_iff (t := t)]
  constructor
  · rintro ⟨_, hlist, es, rfl, hentries⟩
    exact ⟨es, hlist, hentries⟩
  · rintro ⟨es, hlist, hentries⟩
    exact ⟨_, hlist, es, rfl, hentries⟩

lemma decodeCredWriteRsp_answers :
    Answers t data 0 (CredWriteYields (taking t)) (decodeCredWriteRsp t data) := by
  refine answers_of_body fun o s rest y => ?_
  simp only [eq_ok_iff, CredWriteYields, toOption_bind, toOption_element, toOption_toInt (t := t),
    List.getElem?_cons_succ, Option.bind_eq_some_iff, intOf_eq_some_iff]
  constructor
  · rintro ⟨_, hreceived, received, rfl, hy⟩
    exact ⟨received, hreceived, hy⟩
  · rintro ⟨received, hreceived, hy⟩
    exact ⟨_, hreceived, received, rfl, hy⟩

lemma decodeCredStatusRsp_answers :
    Answers t data 2 (CredStatusYields (taking t)) (decodeCredStatusRsp t data) := by
  refine answers_of_body fun o s rest y => ?_
  simp only [eq_ok_iff, CredStatusYields, toOption_bind, toOption_element, toOption_cast,
    toOption_mapM, toOption_statusEntry, toOption_pure, List.getElem?_cons_succ,
    Option.bind_eq_some_iff, mapValue_eq_some_iff, Option.some.injEq]
  constructor
  · rintro ⟨_, hmap, kvs, rfl, entries, hentries, rfl⟩
    exact ⟨kvs, entries, hmap, hentries, rfl⟩
  · rintro ⟨kvs, entries, hmap, hentries, rfl⟩
    exact ⟨_, hmap, kvs, rfl, entries, hentries, rfl⟩

/-- What the app accepts, and the value that it returns. -/
theorem decodeRsp_ok_iff {d : Decoder} {y : d.Value Int String} :
    decodeRsp t data d = .ok y ↔
      ∃ v, ClientReader.decode (ClientReader.Kotlin.rules t) data = .ok v ∧
        Means (taking t) d v y := by
  cases d with
  | ver => exact decodeVerRsp_answers y
  | authChallenge => exact decodeAuthChallengeRsp_answers y
  | configStatus => exact decodeConfigStatusRsp_answers y
  | scanStatus => exact decodeScanStatusRsp_answers y
  | scanResults => exact decodeScanResultsRsp_answers y
  | credWrite => exact decodeCredWriteRsp_answers y
  | credStatus => exact decodeCredStatusRsp_answers y
  | authProof | configSet | configApply | scanStart | credFinalize | ctrl op =>
    exact answers_of_body (Y := fun _ _ => True) (fun _ _ _ _ => iff_of_true rfl trivial) y

end Kotlin

namespace Swift

variable {t : Texts} {data : Bytes}

lemma lookup_bind {α : Type} (view : CborValue → Option α) (kvs : List (CborValue × CborValue))
    (key : String) : (lookup key kvs).bind view = field view kvs key := rfl

lemma get_bind {α : Type} (view : CborValue → Option α) (kvs : List (CborValue × CborValue))
    (key : String) : (get (.map kvs) key).bind view = field view kvs key := rfl

@[inherit_doc Kotlin.Answers]
def Answers {α : Type} (t : Texts) (data : Bytes) (op : Int) (yields : List CborValue → α → Prop)
    (result : Except Refusal α) : Prop :=
  ClientResponses.Answers taking (ClientReader.decode (ClientReader.Swift.rules t) data) op yields
    result

lemma answers_of_body {op : Int} {context : String} {α : Type}
    {f : List CborValue → Except Refusal α} {Y : List CborValue → α → Prop}
    (body : ∀ o s rest y, f (.int o :: .int s :: rest) = .ok y ↔ Y rest y) :
    Answers t data op Y (decodeResponse t data op context >>= f) :=
  ClientResponses.answers_of_body (fun _ => rfl) (fun _ => toOption_demand _ _) _ body

lemma decodeVerRsp_answers :
    Answers t data 0 (VerYields taking) (decodeVerRsp t data) := by
  refine answers_of_body fun o s rest y => ?_
  simp only [eq_ok_iff, VerYields, toOption_bind, toOption_demand, toOption_mapM, toOption_pure,
    List.getElem?_cons_succ]
  cases rest[0]? with
  | none => simp
  | some info =>
    cases info with
    | map kvs =>
      simp only [Option.bind_some, get_bind, Option.bind_eq_bind, Option.pure_def,
        Option.bind_eq_some_iff, Option.some.injEq, CborValue.map.injEq, exists_eq_left']
      constructor
      · rintro ⟨_, ⟨proto, hproto, xs, hxs, blk, hblk, lib, hlib, rfl⟩, caps, hcaps, rfl⟩
        refine ⟨hproto, ?_, hblk, hlib, rfl⟩
        obtain ⟨v, hv, hxs⟩ := Option.bind_eq_some_iff.mp hxs
        rw [field, hv, Option.bind_some, textsValue, hxs]
        exact hcaps
      · intro h
        obtain ⟨v, hv, hcaps⟩ := Option.bind_eq_some_iff.mp h.caps
        obtain ⟨xs, hxs, htexts⟩ := Option.bind_eq_some_iff.mp hcaps
        refine ⟨_, ⟨_, h.proto, xs, ?_, _, h.blockSize, _, h.lib, rfl⟩, _, htexts, ?_⟩
        · rw [field, hv]
          exact hxs
        · exact congrArg (VersionInfo.mk _ _ _ _) h.popRequired
    | _ => simp [get, mapValue]

lemma decodeAuthChallengeRsp_answers :
    Answers t data 0 ChallengeYields (decodeAuthChallengeRsp t data) := by
  refine answers_of_body fun o s rest y => ?_
  simp only [eq_ok_iff, ChallengeYields, toOption_bind, toOption_demand, List.getElem?_cons_succ,
    Option.bind_eq_bind, Option.pure_def, Option.bind_eq_some_iff, bytesValue_eq_some_iff,
    Option.some.injEq]
  constructor
  · rintro ⟨_, ⟨nonce, ⟨_, hnonce, rfl⟩, proof, ⟨_, hproof, rfl⟩, rfl⟩, h⟩
    split at h
    · cases h
    · rename_i hsizes
      obtain rfl := Option.some.inj h
      obtain ⟨hsize, hsize'⟩ := not_or.mp hsizes
      exact ⟨hnonce, hproof, not_not.mp hsize, not_not.mp hsize'⟩
  · rintro ⟨hnonce, hproof, hsize, hsize'⟩
    refine ⟨_, ⟨_, ⟨_, hnonce, rfl⟩, _, ⟨_, hproof, rfl⟩, rfl⟩, ?_⟩
    rw [if_neg (not_or.mpr ⟨not_not.mpr hsize, not_not.mpr hsize'⟩)]
    rfl

lemma configDetail_ok_iff {state : StaState} {detail : Option CborValue} {y : WifiStatus Int} :
    configDetail state detail = .ok y ↔ DetailYields taking state detail y := by
  rw [eq_ok_iff]
  match detail with
  | none => exact Option.some_inj
  | some (.int code) =>
    simp only [configDetail, DetailYields, toOption_bind, toOption_known, toOption_pure,
      Option.bind_eq_some_iff, Option.some.injEq, taking]
  | some (.map kvs) =>
    simp only [configDetail, DetailYields, toOption_bind, toOption_demand, toOption_pure,
      Option.bind_eq_bind, Option.pure_def, lookup_bind, Option.bind_eq_some_iff,
      Option.some.injEq]
    constructor
    · rintro ⟨_, ⟨ip4, hip4, ssid, hssid, rfl⟩, rfl⟩
      exact ⟨ip4, hip4, ssid, hssid, rfl⟩
    · rintro ⟨ip4, hip4, ssid, hssid, rfl⟩
      exact ⟨_, ⟨ip4, hip4, ssid, hssid, rfl⟩, rfl⟩
  | some (.bytes _) | some (.text _) | some (.array _) | some (.bool _) | some .null =>
    simp [configDetail, DetailYields]

lemma decodeConfigStatusRsp_answers :
    Answers t data 0 (ConfigYields taking) (decodeConfigStatusRsp t data) := by
  refine answers_of_body fun o s rest y => ?_
  simp only [bind_eq_ok_iff, configDetail_ok_iff, ConfigYields]
  simp only [eq_ok_iff, toOption_demand, toOption_known, List.getElem?_cons_succ,
    Option.bind_eq_some_iff, show intValue = taking.intOf from rfl, intOf_eq_some_iff]
  constructor
  · rintro ⟨_, ⟨_, hv, code, rfl, rfl⟩, state, hstate, hdetail⟩
    exact ⟨code, state, hv, hstate, hdetail⟩
  · rintro ⟨code, state, hv, hstate, hdetail⟩
    exact ⟨_, ⟨_, hv, code, rfl, rfl⟩, state, hstate, hdetail⟩

lemma decodeScanStatusRsp_answers :
    Answers t data 1 (ScanStatusYields taking) (decodeScanStatusRsp t data) := by
  refine answers_of_body fun o s rest y => ?_
  simp only [eq_ok_iff, ScanStatusYields, toOption_demand, List.getElem?_cons_succ,
    Option.bind_eq_bind, Option.pure_def, Option.bind_eq_some_iff, boolValue_eq_some_iff,
    show intValue = taking.intOf from rfl, intOf_eq_some_iff, Option.some.injEq]
  constructor
  · rintro ⟨finished, ⟨_, hfinished, rfl⟩, _, ⟨_, htotal, total, rfl, rfl⟩, rfl⟩
    exact ⟨total, hfinished, htotal, rfl⟩
  · rintro ⟨total, hfinished, htotal, hy⟩
    exact ⟨_, ⟨_, hfinished, rfl⟩, _, ⟨_, htotal, total, rfl, hy⟩, rfl⟩

lemma scanEntry_ok_iff {e : CborValue} {y : ScanEntry Int} :
    scanEntry e = .ok y ↔ ∃ kvs, e = .map kvs ∧ EntryYields taking kvs y := by
  rw [eq_ok_iff, scanEntry, toOption_demand]
  cases e with
  | map kvs =>
    simp only [get_bind, Option.bind_eq_bind, Option.pure_def, Option.bind_eq_some_iff,
      Option.some.injEq, CborValue.map.injEq, exists_eq_left']
    constructor
    · rintro ⟨ssid, hssid, bssid, hbssid, channel, hchannel, rssi, hrssi, auth, hauth, rfl⟩
      exact ⟨hssid, hbssid, hchannel, hrssi, hauth⟩
    · intro h
      exact ⟨_, h.ssid, _, h.bssid, _, h.channel, _, h.rssi, _, h.auth, rfl⟩
  | _ => simp [get, mapValue]

lemma decodeScanResultsRsp_answers :
    Answers t data 2 (ScanResultsYields taking) (decodeScanResultsRsp t data) := by
  refine answers_of_body fun o s rest y => ?_
  simp only [eq_ok_iff, ScanResultsYields, toOption_bind, toOption_demand, toOption_mapM,
    List.getElem?_cons_succ, Option.bind_eq_some_iff, arrayValue_eq_some_iff, mapM_eq_some_iff]
  simp only [← eq_ok_iff, scanEntry_ok_iff]
  constructor
  · rintro ⟨es, ⟨_, hlist, rfl⟩, hentries⟩
    exact ⟨es, hlist, hentries⟩
  · rintro ⟨es, hlist, hentries⟩
    exact ⟨es, ⟨_, hlist, rfl⟩, hentries⟩

lemma decodeCredWriteRsp_answers :
    Answers t data 0 (CredWriteYields taking) (decodeCredWriteRsp t data) := by
  refine answers_of_body fun o s rest y => ?_
  simp only [eq_ok_iff, CredWriteYields, toOption_demand, List.getElem?_cons_succ,
    Option.bind_eq_some_iff, show intValue = taking.intOf from rfl, intOf_eq_some_iff]
  constructor
  · rintro ⟨_, hreceived, received, rfl, hy⟩
    exact ⟨received, hreceived, hy⟩
  · rintro ⟨received, hreceived, hy⟩
    exact ⟨_, hreceived, received, rfl, hy⟩

lemma toOption_statusEntry (kv : CborValue × CborValue) :
    (statusEntry kv).toOption = taking.statusEntry kv := by
  simp only [statusEntry, Taking.statusEntry, toOption_bind, toOption_demand, toOption_known,
    toOption_pure, Option.bind_eq_bind, Option.pure_def]
  cases textValue kv.1 with
  | none => rfl
  | some key =>
    change _ = ((stringToInt key).bind credKindFrom).bind fun kind =>
      (intValue kv.2).map fun len => (kind, len)
    simp only [Option.bind_some]
    cases stringToInt key with
    | none => rfl
    | some code =>
      simp only [Option.bind_some]
      cases intValue kv.2 with
      | none => cases credKindFrom code <;> rfl
      | some len =>
        simp only [Option.bind_some]
        cases credKindFrom code <;> rfl

lemma decodeCredStatusRsp_answers :
    Answers t data 2 (CredStatusYields taking) (decodeCredStatusRsp t data) := by
  refine answers_of_body fun o s rest y => ?_
  simp only [eq_ok_iff, CredStatusYields, toOption_bind, toOption_demand, toOption_mapM,
    toOption_statusEntry, toOption_pure, List.getElem?_cons_succ, Option.bind_eq_some_iff,
    mapValue_eq_some_iff, Option.some.injEq]
  constructor
  · rintro ⟨kvs, ⟨_, hmap, rfl⟩, entries, hentries, rfl⟩
    exact ⟨kvs, entries, hmap, hentries, rfl⟩
  · rintro ⟨kvs, entries, hmap, hentries, rfl⟩
    exact ⟨kvs, ⟨_, hmap, rfl⟩, entries, hentries, rfl⟩

@[inherit_doc Kotlin.decodeRsp_ok_iff]
theorem decodeRsp_ok_iff {d : Decoder} {y : d.Value Int String} :
    decodeRsp t data d = .ok y ↔
      ∃ v, ClientReader.decode (ClientReader.Swift.rules t) data = .ok v ∧ Means taking d v y := by
  cases d with
  | ver => exact decodeVerRsp_answers y
  | authChallenge => exact decodeAuthChallengeRsp_answers y
  | configStatus => exact decodeConfigStatusRsp_answers y
  | scanStatus => exact decodeScanStatusRsp_answers y
  | scanResults => exact decodeScanResultsRsp_answers y
  | credWrite => exact decodeCredWriteRsp_answers y
  | credStatus => exact decodeCredStatusRsp_answers y
  | authProof | configSet | configApply | scanStart | credFinalize | ctrl op =>
    exact answers_of_body (Y := fun _ _ => True) (fun _ _ _ _ => iff_of_true rfl trivial) y

end Swift

end ClientResponses
