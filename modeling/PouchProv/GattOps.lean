import PouchProv.Runs

/-!
# GATT operations and their callbacks

`write` and `setNotify` of the Swift and the Kotlin `GattClient`. An operation holds
the operation lock from its call to its return. Each attempt puts a new slot (`OneShot`
in Swift, a `CompletableDeferred` in Kotlin) where the callbacks of its kind find it,
issues its request and waits for the slot, with a timeout. A callback says neither
which request it answers nor which slot it means: it completes the slot that is
there.

The platform calls back once for every issued request, in the order of issue, whether
the wait for it is still on or not. The clocks are not modelled: a wait may time out
at any moment, and the event of a step says whether the deadline for retries has passed.
A caller that is cancelled while it waits ends its wait likewise in Kotlin, and goes on
waiting in Swift.
-/

namespace GattOps

open Runs

inductive Client where
  | swift
  | kotlin
  deriving DecidableEq, Repr

/-- The two callbacks: of a characteristic write, and of a change of the CCC descriptor. -/
inductive Kind where
  | write
  | ccc
  deriving DecidableEq, Repr

/-- `write`, and `setNotify` with `enable` true and false. -/
inductive Op where
  | write
  | enable
  | disable
  deriving DecidableEq, Repr

def Op.kind : Op → Kind
  | .write => .write
  | .enable => .ccc
  | .disable => .ccc

inductive Status where
  | success
  | insufficientEncryption
  | insufficientAuthentication
  | unlikelyError
  | other
  deriving DecidableEq, Repr

inductive Verdict where
  | returns
  | retries
  | throws
  deriving DecidableEq, Repr

/-- What an operation does with the status of a callback. -/
def verdict (op : Op) (status : Status) (beforeDeadline : Bool) : Verdict :=
  match op, status with
  | .write, .success => .returns
  -- the write has in practice been delivered: it is not sent again
  | .write, .unlikelyError => .returns
  | .write, .other => .throws
  | .write, _ => if beforeDeadline then .retries else .throws
  | .enable, .success => .returns
  | .enable, .other => .throws
  | .enable, _ => if beforeDeadline then .retries else .throws
  | .disable, _ => .returns

/-- A slot. Beside the status stands the number of the request whose callback set it. -/
structure OneShot where
  result : Option (Nat × Status)
  timedOut : Bool
  deriving DecidableEq, Repr

namespace OneShot

def fresh : OneShot := ⟨none, false⟩

def complete (slot : OneShot) (request : Nat) (status : Status) : OneShot :=
  if slot.result.isSome || slot.timedOut then slot
  else { slot with result := some (request, status) }

end OneShot

/-- An issued request. Its number is that of the attempt that issued it. -/
structure Request where
  number : Nat
  kind : Kind
  deriving DecidableEq, Repr

/-- Where the holder of the lock is: before its next attempt, between setting the slot and
issuing the request, or waiting for the slot. -/
inductive Phase where
  | entered
  | slotSet (attempt : Nat)
  | waiting (attempt : Nat)
  deriving DecidableEq, Repr

structure Running where
  op : Op
  phase : Phase
  deriving DecidableEq, Repr

/-- A finished call: its last attempt (the last one before it, if it made none), the request on
whose callback it returned (none after a timeout or without a request), and whether it returned
normally. -/
structure Returned where
  op : Op
  attempt : Nat
  callback : Option Nat
  ok : Bool
  deriving DecidableEq, Repr

structure Gatt where
  running : Option Running
  writeSlot : Option OneShot
  notifySlot : Option OneShot
  /-- Requests that are yet to be called back, in the order of issue. -/
  outstanding : List Request
  attempts : Nat
  /-- Newest first. -/
  returned : List Returned
  deriving DecidableEq, Repr

inductive Ev where
  | call (op : Op)
  | leave
  | setSlot
  | issue (accepted beforeDeadline : Bool)
  | callback (status : Status)
  | timeout
  | resume (beforeDeadline : Bool)
  deriving DecidableEq, Repr

def start : Gatt := ⟨none, none, none, [], 0, []⟩

namespace Gatt

def slot (s : Gatt) : Kind → Option OneShot
  | .write => s.writeSlot
  | .ccc => s.notifySlot

def setSlot (s : Gatt) (kind : Kind) (slot : Option OneShot) : Gatt :=
  match kind with
  | .write => { s with writeSlot := slot }
  | .ccc => { s with notifySlot := slot }

def finish (s : Gatt) (op : Op) (attempt : Nat) (callback : Option Nat) (ok : Bool) : Gatt :=
  { s with running := none, returned := ⟨op, attempt, callback, ok⟩ :: s.returned }

/-- A new slot for the next attempt. -/
def install (s : Gatt) (op : Op) : Gatt :=
  let attempt := s.attempts + 1
  { s.setSlot op.kind (some .fresh) with
    attempts := attempt, running := some ⟨op, .slotSet attempt⟩ }

def request (s : Gatt) (op : Op) (attempt : Nat) : Gatt :=
  { s with
    outstanding := s.outstanding ++ [⟨attempt, op.kind⟩]
    running := some ⟨op, .waiting attempt⟩ }

/-- Kotlin: the platform does not take the request, so no callback will come. Disabling
ignores that and waits all the same. -/
def refuse (s : Gatt) (op : Op) (attempt : Nat) (beforeDeadline : Bool) : Gatt :=
  match op with
  | .write => s.finish .write attempt none false
  | .enable =>
    if beforeDeadline then { s with running := some ⟨.enable, .entered⟩ }
    else s.finish .enable attempt none false
  | .disable => { s with running := some ⟨.disable, .waiting attempt⟩ }

/-- The platform calls back for its oldest request. -/
def callback (s : Gatt) (status : Status) : Gatt :=
  match s.outstanding with
  | [] => s
  | r :: rest =>
    let s := { s with outstanding := rest }
    s.setSlot r.kind ((s.slot r.kind).map (·.complete r.number status))

/-- Disabling ignores the timeout, the other operations throw. In Swift a slot that is
completed does not time out any more; `withTimeout` may still throw then. A deferred is not
marked as timed out, but no one waits for it again. -/
def expire (client : Client) (s : Gatt) (op : Op) (attempt : Nat) : Gatt :=
  match s.slot op.kind with
  | some slot =>
    if client = .swift ∧ slot.result.isSome then s
    else
      (s.setSlot op.kind (some { slot with timedOut := true })).finish op attempt none
        (op = .disable)
  | none => s

def resume (s : Gatt) (op : Op) (attempt : Nat) (beforeDeadline : Bool) : Gatt :=
  match s.slot op.kind with
  | some ⟨some (request, status), _⟩ =>
    match verdict op status beforeDeadline with
    | .returns => s.finish op attempt (some request) true
    | .retries => { s with running := some ⟨op, .entered⟩ }
    | .throws => s.finish op attempt (some request) false
  | _ => s

end Gatt

/-- A call while the lock is taken waits outside: it enters with a later event. CoreBluetooth
refuses no request. -/
def step (client : Client) (s : Gatt) : Ev → Gatt
  | .call op =>
    match s.running with
    | none => { s with running := some ⟨op, .entered⟩ }
    | some _ => s
  | .leave =>
    -- no such characteristic, not connected, or cancelled in the delay before a retry
    match s.running with
    | some ⟨op, .entered⟩ => s.finish op s.attempts none false
    | _ => s
  | .setSlot =>
    match s.running with
    | some ⟨op, .entered⟩ => s.install op
    | _ => s
  | .issue accepted beforeDeadline =>
    match s.running with
    | some ⟨op, .slotSet attempt⟩ =>
      if client = .swift ∨ accepted then s.request op attempt
      else s.refuse op attempt beforeDeadline
    | _ => s
  | .callback status => s.callback status
  | .timeout =>
    match s.running with
    | some ⟨op, .waiting attempt⟩ => s.expire client op attempt
    | _ => s
  | .resume beforeDeadline =>
    match s.running with
    | some ⟨op, .waiting attempt⟩ => s.resume op attempt beforeDeadline
    | _ => s

/-- The attempt whose slot is the one that counts: set, and not yet given up. -/
def Running.attempt : Running → Option (Kind × Nat)
  | ⟨op, .slotSet attempt⟩ => some (op.kind, attempt)
  | ⟨op, .waiting attempt⟩ => some (op.kind, attempt)
  | ⟨_, .entered⟩ => none

def Gatt.underway (s : Gatt) : Option (Kind × Nat) := s.running.bind Running.attempt

/-- The slot of the attempt under way is completed, if at all, by its own callback. -/
def OwnResult (s : Gatt) : Prop :=
  ∀ kind attempt slot request status, s.underway = some (kind, attempt) →
    s.slot kind = some slot → slot.result = some (request, status) → request = attempt

/-- Every call that returned on a callback returned on that of its own request. -/
def OwnReturns (s : Gatt) : Prop :=
  ∀ x ∈ s.returned, ∀ request ∈ x.callback, request = x.attempt

/-- However many of its callbacks the platform delivers now, and whatever they report, none
completes an operation that did not issue its request. -/
def Safe (client : Client) (s : Gatt) : Prop :=
  ∀ statuses : List Status, OwnResult ((statuses.map Ev.callback).foldl (step client) s)

/-- A slot is set only when no earlier request of its kind is outstanding. -/
def InTurn (s : Gatt) : Ev → Prop
  | .setSlot => ∀ op, s.running = some ⟨op, .entered⟩ → ∀ r ∈ s.outstanding, r.kind ≠ op.kind
  | _ => True

section Slots
variable (s : Gatt) (kind : Kind) (x : Option OneShot)

@[simp] lemma slot_setSlot : (s.setSlot kind x).slot kind = x := by
  cases kind <;> rfl

lemma slot_setSlot_of_ne {other : Kind} (ne : other ≠ kind) :
    (s.setSlot kind x).slot other = s.slot other := by
  cases kind <;> cases other <;> first | rfl | exact absurd rfl ne

@[simp] lemma running_setSlot : (s.setSlot kind x).running = s.running := by
  cases kind <;> rfl

@[simp] lemma outstanding_setSlot : (s.setSlot kind x).outstanding = s.outstanding := by
  cases kind <;> rfl

@[simp] lemma attempts_setSlot : (s.setSlot kind x).attempts = s.attempts := by
  cases kind <;> rfl

@[simp] lemma returned_setSlot : (s.setSlot kind x).returned = s.returned := by
  cases kind <;> rfl

end Slots

namespace OneShot

variable (slot : OneShot) (request : Nat) (status : Status)

@[simp] lemma timedOut_complete : (slot.complete request status).timedOut = slot.timedOut := by
  unfold complete
  split <;> rfl

lemma complete_of_done {x : Nat × Status} (done : slot.result = some x) :
    slot.complete request status = slot := by
  simp [complete, done]

lemma result_complete (pending : slot.result = none) (on : slot.timedOut = false) :
    (slot.complete request status).result = some (request, status) := by
  simp [complete, pending, on]

end OneShot

section Callback
variable {s : Gatt} {status : Status}

lemma callback_nil (none_out : s.outstanding = []) : s.callback status = s := by
  simp [Gatt.callback, none_out]

@[simp] lemma running_callback : (s.callback status).running = s.running := by
  unfold Gatt.callback
  split <;> simp

@[simp] lemma underway_callback : (s.callback status).underway = s.underway := by
  simp [Gatt.underway]

@[simp] lemma outstanding_callback : (s.callback status).outstanding = s.outstanding.tail := by
  unfold Gatt.callback
  split <;> simp [*]

@[simp] lemma attempts_callback : (s.callback status).attempts = s.attempts := by
  unfold Gatt.callback
  split <;> simp

@[simp] lemma returned_callback : (s.callback status).returned = s.returned := by
  unfold Gatt.callback
  split <;> simp

variable {r : Request} {rest : List Request}

lemma slot_callback (out : s.outstanding = r :: rest) :
    (s.callback status).slot r.kind = (s.slot r.kind).map (·.complete r.number status) := by
  simp only [Gatt.callback, out, slot_setSlot]
  cases r.kind <;> rfl

lemma slot_callback_of_ne (out : s.outstanding = r :: rest) {kind : Kind}
    (ne : kind ≠ r.kind) : (s.callback status).slot kind = s.slot kind := by
  simp only [Gatt.callback, out, slot_setSlot_of_ne _ _ _ ne]
  cases kind <;> rfl

end Callback

/-- No attempt is under way behind the step, and what has returned in it has returned on the
result of the slot. -/
structure Rests (s s' : Gatt) : Prop where
  idle : s'.underway = none
  outstanding : s'.outstanding = s.outstanding
  attempts : s'.attempts = s.attempts
  returned : OwnResult s → OwnReturns s → OwnReturns s'

lemma own_returns_finish {s : Gatt} {op : Op} {attempt : Nat} {callback : Option Nat} {ok : Bool}
    (own : ∀ request ∈ callback, request = attempt) (returns : OwnReturns s) :
    OwnReturns (s.finish op attempt callback ok) := by
  intro x hx
  rcases List.mem_cons.mp hx with rfl | earlier
  · exact own
  · exact returns x earlier

lemma rests_finish {s : Gatt} {op : Op} {attempt : Nat} {callback : Option Nat} {ok : Bool}
    (own : OwnResult s → ∀ request ∈ callback, request = attempt) :
    Rests s (s.finish op attempt callback ok) where
  idle := rfl
  outstanding := rfl
  attempts := rfl
  returned result := own_returns_finish (own result)

lemma rests_entered (s : Gatt) (op : Op) : Rests s { s with running := some ⟨op, .entered⟩ } where
  idle := rfl
  outstanding := rfl
  attempts := rfl
  returned _ returns := returns

lemma rests_expire {client : Client} {s : Gatt} {op : Op} {attempt : Nat} :
    s.expire client op attempt = s ∨ Rests s (s.expire client op attempt) := by
  unfold Gatt.expire
  split
  · split
    · exact .inl rfl
    · right
      exact {
        idle := rfl
        outstanding := outstanding_setSlot ..
        attempts := attempts_setSlot ..
        returned := fun _ returns =>
          own_returns_finish (by simp) (by simpa [OwnReturns] using returns) }
  · exact .inl rfl

lemma rests_resume {s : Gatt} {op : Op} {attempt : Nat} {beforeDeadline : Bool}
    (running : s.running = some ⟨op, .waiting attempt⟩) :
    s.resume op attempt beforeDeadline = s ∨ Rests s (s.resume op attempt beforeDeadline) := by
  unfold Gatt.resume
  split
  · rename_i request status _ hslot
    have own (result : OwnResult s) : ∀ x ∈ some request, x = attempt := by
      rintro _ ⟨⟩
      exact result op.kind attempt _ request status (by simp [Gatt.underway, running,
        Running.attempt]) hslot rfl
    right
    split
    · exact rests_finish own
    · exact rests_entered s op
    · exact rests_finish own
  · exact .inl rfl

/-- The steps other than setting a slot and calling back. -/
inductive Proceeds (s : Gatt) : Gatt → Prop
  | stays : Proceeds s s
  | requests {op : Op} {attempt : Nat} (running : s.running = some ⟨op, .slotSet attempt⟩) :
      Proceeds s (s.request op attempt)
  | refused {attempt : Nat} (running : s.running = some ⟨.disable, .slotSet attempt⟩) :
      Proceeds s { s with running := some ⟨.disable, .waiting attempt⟩ }
  | rests {s' : Gatt} (rests : Rests s s') : Proceeds s s'

lemma proceeds_of_rests {s s' : Gatt} (h : s' = s ∨ Rests s s') : Proceeds s s' := by
  rcases h with rfl | rests
  · exact .stays
  · exact .rests rests

lemma proceeds_issue (client : Client) (s : Gatt) (accepted beforeDeadline : Bool) :
    Proceeds s (step client s (.issue accepted beforeDeadline)) := by
  simp only [step]
  split
  · rename_i op attempt running
    split
    · exact .requests running
    · cases op with
      | write => exact .rests (rests_finish (by simp))
      | enable =>
        cases beforeDeadline with
        | true => exact .rests (rests_entered s .enable)
        | false => exact .rests (rests_finish (by simp))
      | disable => exact .refused running
  · exact .stays

theorem step_cases (client : Client) (s : Gatt) (e : Ev) :
    (e = .setSlot ∧ ∃ op, s.running = some ⟨op, .entered⟩ ∧ step client s e = s.install op) ∨
    (∃ status, e = .callback status ∧ step client s e = s.callback status) ∨
    (InTurn s e ∧ Proceeds s (step client s e)) := by
  cases e with
  | call op =>
    refine .inr (.inr ⟨trivial, ?_⟩)
    simp only [step]
    split
    · exact .rests (rests_entered s op)
    · exact .stays
  | leave =>
    refine .inr (.inr ⟨trivial, ?_⟩)
    simp only [step]
    split
    · exact .rests (rests_finish (by simp))
    · exact .stays
  | setSlot =>
    simp only [step]
    split
    · rename_i op running
      exact .inl ⟨trivial, op, running, rfl⟩
    · rename_i other
      refine .inr (.inr ⟨fun op running => absurd running (other op), .stays⟩)
  | issue accepted beforeDeadline =>
    exact .inr (.inr ⟨trivial, proceeds_issue client s accepted beforeDeadline⟩)
  | callback status => exact .inr (.inl ⟨status, rfl, rfl⟩)
  | timeout =>
    refine .inr (.inr ⟨trivial, ?_⟩)
    simp only [step]
    split
    · exact proceeds_of_rests rests_expire
    · exact .stays
  | resume beforeDeadline =>
    refine .inr (.inr ⟨trivial, ?_⟩)
    simp only [step]
    split
    · rename_i running
      exact proceeds_of_rests (rests_resume running)
    · exact .stays

/-- Requests are numbered in the order of issue, and the attempt under way has the highest
number and a slot that has not timed out. -/
structure Inv (s : Gatt) : Prop where
  ordered : s.outstanding.Pairwise (fun a b => a.number < b.number)
  bounded : ∀ r ∈ s.outstanding, r.number ≤ s.attempts
  newest : ∀ kind attempt, s.underway = some (kind, attempt) →
    attempt = s.attempts ∧ ∃ slot, s.slot kind = some slot ∧ slot.timedOut = false
  unissued : ∀ op attempt, s.running = some ⟨op, .slotSet attempt⟩ →
    ∀ r ∈ s.outstanding, r.number < attempt

lemma start_inv : Inv start where
  ordered := List.Pairwise.nil
  bounded := by simp [start]
  newest := by simp [start, Gatt.underway]
  unissued := by simp [start]

lemma underway_of_slotSet {s : Gatt} {op : Op} {attempt : Nat}
    (running : s.running = some ⟨op, .slotSet attempt⟩) :
    s.underway = some (op.kind, attempt) := by
  simp [Gatt.underway, running, Running.attempt]

lemma install_inv {s : Gatt} (inv : Inv s) (op : Op) : Inv (s.install op) where
  ordered := by simpa [Gatt.install] using inv.ordered
  bounded := by
    intro r hr
    have old := inv.bounded r (by simpa [Gatt.install] using hr)
    exact Nat.le_succ_of_le old
  newest := by
    rintro kind attempt ⟨⟩
    exact ⟨rfl, .fresh, slot_setSlot .., rfl⟩
  unissued := by
    rintro _ _ ⟨⟩ r hr
    exact Nat.lt_succ_of_le (inv.bounded r (by simpa [Gatt.install] using hr))

lemma callback_inv {s : Gatt} (inv : Inv s) (status : Status) : Inv (s.callback status) where
  ordered := by simpa using inv.ordered.tail
  bounded := by
    intro r hr
    rw [outstanding_callback] at hr
    simpa using inv.bounded r (List.mem_of_mem_tail hr)
  newest := by
    intro kind attempt under
    rw [underway_callback] at under
    obtain ⟨newest, slot, hslot, on⟩ := inv.newest kind attempt under
    refine ⟨by simpa using newest, ?_⟩
    cases out : s.outstanding with
    | nil => exact ⟨slot, by rw [callback_nil out, hslot], on⟩
    | cons r rest =>
      by_cases same : kind = r.kind
      · subst same
        refine ⟨slot.complete r.number status, ?_, by simpa using on⟩
        rw [slot_callback out, hslot, Option.map_some]
      · exact ⟨slot, by rw [slot_callback_of_ne out same, hslot], on⟩
  unissued := by
    intro op attempt running r hr
    rw [outstanding_callback] at hr
    exact inv.unissued op attempt (by simpa using running) r (List.mem_of_mem_tail hr)

lemma request_inv {s : Gatt} (inv : Inv s) {op : Op} {attempt : Nat}
    (running : s.running = some ⟨op, .slotSet attempt⟩) : Inv (s.request op attempt) := by
  obtain ⟨newest, hslot⟩ := inv.newest op.kind attempt (underway_of_slotSet running)
  have unissued := inv.unissued op attempt running
  constructor
  · refine List.pairwise_append.mpr ⟨inv.ordered, List.pairwise_singleton .., ?_⟩
    intro r hr own hown
    rw [List.mem_singleton.mp hown]
    exact unissued r hr
  · intro r hr
    rcases List.mem_append.mp hr with old | own
    · exact inv.bounded r old
    · rw [List.mem_singleton.mp own]
      exact Nat.le_of_eq newest
  · rintro kind number ⟨⟩
    exact ⟨newest, hslot⟩
  · rintro _ _ ⟨⟩

lemma proceeds_inv {s s' : Gatt} (inv : Inv s) (h : Proceeds s s') : Inv s' := by
  cases h with
  | stays => exact inv
  | requests running => exact request_inv inv running
  | refused running =>
    refine ⟨inv.ordered, inv.bounded, ?_, ?_⟩
    · rintro kind number ⟨⟩
      exact inv.newest .ccc _ (underway_of_slotSet running)
    · rintro _ _ ⟨⟩
  | rests rests =>
    refine ⟨?_, ?_, ?_, ?_⟩
    · rw [rests.outstanding]
      exact inv.ordered
    · rw [rests.outstanding, rests.attempts]
      exact inv.bounded
    · simp [rests.idle]
    · intro op attempt running
      have under := underway_of_slotSet running
      rw [rests.idle] at under
      cases under

theorem step_inv {client : Client} (s : Gatt) (e : Ev) (inv : Inv s) : Inv (step client s e) := by
  obtain ⟨-, op, -, installs⟩ | ⟨status, -, calls⟩ | ⟨-, proceeds⟩ := step_cases client s e
  · rw [installs]
    exact install_inv inv op
  · rw [calls]
    exact callback_inv inv status
  · exact proceeds_inv inv proceeds

/-- While the slot under way is open, no callback of its kind is outstanding but its own. -/
structure Clear (s : Gatt) : Prop where
  own : OwnResult s
  alone : ∀ kind attempt slot, s.underway = some (kind, attempt) → s.slot kind = some slot →
    slot.result = none → ∀ r ∈ s.outstanding, r.kind = kind → r.number = attempt

lemma clear_of_idle {s : Gatt} (idle : s.underway = none) : Clear s where
  own := by simp [OwnResult, idle]
  alone := by simp [idle]

/-- A callback leaves the slot under way alone, or completes it. -/
lemma callback_slot_cases {s : Gatt} (inv : Inv s) {kind : Kind} {attempt : Nat}
    (under : s.underway = some (kind, attempt)) {status : Status} {slot' : OneShot}
    (hslot' : (s.callback status).slot kind = some slot') :
    s.slot kind = some slot' ∨
    ∃ slot r, s.slot kind = some slot ∧ slot.result = none ∧ r ∈ s.outstanding ∧
      r.kind = kind ∧ slot'.result = some (r.number, status) := by
  obtain ⟨-, slot, hslot, on⟩ := inv.newest kind attempt under
  cases out : s.outstanding with
  | nil =>
    rw [callback_nil out] at hslot'
    exact .inl hslot'
  | cons r rest =>
    by_cases same : kind = r.kind
    · subst same
      rw [slot_callback out, hslot, Option.map_some, Option.some_inj] at hslot'
      subst hslot'
      cases done : slot.result with
      | none => exact .inr ⟨slot, r, hslot, done, List.mem_cons_self, rfl,
          slot.result_complete _ _ done on⟩
      | some x =>
        rw [slot.complete_of_done _ _ done]
        exact .inl hslot
    · rw [slot_callback_of_ne out same] at hslot'
      exact .inl hslot'

theorem callback_clear {s : Gatt} (inv : Inv s) (clear : Clear s) (status : Status) :
    Clear (s.callback status) := by
  constructor
  · intro kind attempt slot' request status' under hslot' result
    rw [underway_callback] at under
    obtain hold | ⟨slot, r, hslot, pending, hr, hkind, completed⟩ :=
      callback_slot_cases inv under hslot'
    · exact clear.own kind attempt slot' request status' under hold result
    · -- the callback completes the slot under way: it is its own
      rw [completed] at result
      cases result
      exact clear.alone kind attempt slot under hslot pending r hr hkind
  · intro kind attempt slot' under hslot' pending q hq
    rw [underway_callback] at under
    rw [outstanding_callback] at hq
    obtain hold | ⟨_, r, -, -, -, -, completed⟩ := callback_slot_cases inv under hslot'
    · exact clear.alone kind attempt slot' under hold pending q (List.mem_of_mem_tail hq)
    · rw [completed] at pending
      cases pending

lemma safe_of_clear {client : Client} {s : Gatt} (inv : Inv s) (clear : Clear s) :
    Safe client s := by
  intro statuses
  induction statuses generalizing s with
  | nil => exact clear.own
  | cons status statuses ih => exact ih (callback_inv inv status) (callback_clear inv clear status)

/-- A foreign callback of the kind of the open slot comes before the slot's own, whatever
callbacks of the other kind come first. -/
lemma foreign_completes {client : Client} {s : Gatt} (inv : Inv s) {kind : Kind} {attempt : Nat}
    {slot : OneShot} (under : s.underway = some (kind, attempt)) (hslot : s.slot kind = some slot)
    (pending : slot.result = none) {r : Request} (hr : r ∈ s.outstanding) (hkind : r.kind = kind)
    (foreign : r.number ≠ attempt) : ¬ Safe client s := by
  obtain ⟨newest, _, hslot', on⟩ := inv.newest kind attempt under
  cases hslot.symm.trans hslot'
  induction out : s.outstanding generalizing s with
  | nil => simp [out] at hr
  | cons q rest ih =>
    intro safe
    rw [out] at hr
    by_cases same : q.kind = kind
    · subst same
      have completed : (s.callback .success).slot q.kind =
          some (slot.complete q.number .success) := by
        rw [slot_callback out, hslot, Option.map_some]
      have own : q.number = attempt :=
        safe [.success] q.kind attempt _ q.number .success (by simpa [step] using under) completed
          (slot.result_complete _ _ pending on)
      rcases List.mem_cons.mp hr with rfl | later
      · exact foreign own
      · have ordered := inv.ordered
        rw [out] at ordered
        have above := (List.pairwise_cons.mp ordered).1 r later
        have bound := inv.bounded r (by simp [out, later])
        omega
    · have hr' : r ∈ rest := by
        rcases List.mem_cons.mp hr with rfl | later
        · exact absurd hkind same
        · exact later
      have kept : (s.callback .success).slot kind = some slot := by
        rw [slot_callback_of_ne out (Ne.symm same), hslot]
      refine ih (callback_inv inv .success) (by simpa using under) kept (by simpa [out] using hr')
        (by simpa using newest) kept (by simp [out]) ?_
      intro statuses
      exact safe (.success :: statuses)

theorem safe_iff_clear {client : Client} {s : Gatt} (inv : Inv s) :
    Safe client s ↔ Clear s := by
  constructor
  · intro safe
    refine ⟨safe [], ?_⟩
    intro kind attempt slot under hslot pending r hr hkind
    by_contra foreign
    exact foreign_completes inv under hslot pending hr hkind foreign safe
  · exact safe_of_clear inv

lemma install_clear_iff {s : Gatt} (inv : Inv s) (op : Op) :
    Clear (s.install op) ↔ ∀ r ∈ s.outstanding, r.kind ≠ op.kind := by
  constructor
  · intro clear r hr hkind
    have own := clear.alone op.kind (s.attempts + 1) .fresh rfl (slot_setSlot ..) rfl r
      (by simpa [Gatt.install] using hr) hkind
    have old := inv.bounded r hr
    omega
  · intro none_out
    constructor
    · rintro kind attempt slot request status ⟨⟩ hslot result
      have fresh : some OneShot.fresh = some slot := (slot_setSlot ..).symm.trans hslot
      cases fresh
      cases result
    · rintro kind attempt slot ⟨⟩ - - r hr hkind
      exact absurd hkind (none_out r (by simpa [Gatt.install] using hr))

lemma request_clear {s : Gatt} (clear : Clear s) {op : Op} {attempt : Nat}
    (running : s.running = some ⟨op, .slotSet attempt⟩) : Clear (s.request op attempt) := by
  have under := underway_of_slotSet running
  constructor
  · rintro kind number slot request status ⟨⟩ hslot result
    exact clear.own op.kind attempt slot request status under hslot result
  · rintro kind number slot ⟨⟩ hslot pending r hr hkind
    rcases List.mem_append.mp hr with old | own
    · exact clear.alone op.kind attempt slot under hslot pending r old hkind
    · rw [List.mem_singleton.mp own]

lemma proceeds_clear {s s' : Gatt} (clear : Clear s) (h : Proceeds s s') : Clear s' := by
  cases h with
  | stays => exact clear
  | requests running => exact request_clear clear running
  | refused running =>
    have under := underway_of_slotSet running
    constructor
    · rintro kind number slot request status ⟨⟩ hslot result
      exact clear.own .ccc _ slot request status under hslot result
    · rintro kind number slot ⟨⟩ hslot pending
      exact clear.alone .ccc _ slot under hslot pending
  | rests rests => exact clear_of_idle rests.idle

lemma proceeds_own_returns {s s' : Gatt} (own : OwnResult s) (returns : OwnReturns s)
    (h : Proceeds s s') : OwnReturns s' := by
  cases h with
  | stays => exact returns
  | requests running => exact returns
  | refused running => exact returns
  | rests rests => exact rests.returned own returns

theorem step_exact {client : Client} (s : Gatt) (e : Ev) (inv : Inv s)
    (good : Safe client s ∧ OwnReturns s) :
    Safe client (step client s e) ∧ OwnReturns (step client s e) ↔ InTurn s e := by
  obtain ⟨safe, returns⟩ := good
  have clear := (safe_iff_clear inv).mp safe
  rw [safe_iff_clear (step_inv s e inv)]
  obtain ⟨rfl, op, running, installs⟩ | ⟨status, rfl, calls⟩ | ⟨turn, proceeds⟩ :=
    step_cases client s e
  · rw [installs, install_clear_iff inv op]
    have kept : OwnReturns (s.install op) := by simpa [OwnReturns, Gatt.install] using returns
    simp [InTurn, running, kept]
  · rw [calls]
    have kept : OwnReturns (s.callback status) := by simpa [OwnReturns] using returns
    exact ⟨fun _ => trivial, fun _ => ⟨callback_clear inv clear status, kept⟩⟩
  · exact ⟨fun _ => turn, fun _ =>
      ⟨proceeds_clear clear proceeds, proceeds_own_returns clear.own returns proceeds⟩⟩

lemma start_good (client : Client) : Safe client start ∧ OwnReturns start := by
  constructor
  · exact safe_of_clear start_inv (clear_of_idle rfl)
  · simp [OwnReturns, start]

/-- At every moment of a run the callbacks that are still to come complete only the operations
that issued their requests, and the operations that have returned on a callback have returned
on their own, exactly when no slot was set while an earlier request of its kind was
outstanding. -/
theorem own_callback_iff (client : Client) (es : List Ev) :
    Always (step client) (fun s => Safe client s ∧ OwnReturns s) start es ↔
      Each (step client) InTurn start es :=
  always_iff_each step_inv step_exact start_inv (start_good client) es

/-- Notifications are disabled and the wait times out, which is ignored. The next enable sets
its slot, and the late callback of the disable completes it: the enable returns as if it had
succeeded while its own request is outstanding. A write that timed out does the same to the
next write, here with a failure. -/
theorem late_callback_completes_next :
    (∀ client : Client,
      let s := [.call .disable, .setSlot, .issue true true, .timeout, .call .enable, .setSlot,
        .issue true true, .callback .success, .resume true].foldl (step client) start
      s.returned = [⟨.enable, 2, some 1, true⟩, ⟨.disable, 1, none, true⟩] ∧
        s.outstanding = [⟨2, .ccc⟩] ∧ ¬ OwnReturns s) ∧
    ∀ client : Client,
      let s := [.call .write, .setSlot, .issue true true, .timeout, .call .write, .setSlot,
        .issue true true, .callback .other, .resume true].foldl (step client) start
      s.returned = [⟨.write, 2, some 1, false⟩, ⟨.write, 1, none, false⟩] ∧
        s.outstanding = [⟨2, .write⟩] ∧ ¬ OwnReturns s := by
  -- no request is refused and no completed slot times out, so the clients do not differ
  constructor
  · intro client
    cases client <;>
      exact ⟨rfl, rfl, fun own => absurd (own _ List.mem_cons_self 1 rfl) (by decide)⟩
  · intro client
    cases client <;>
      exact ⟨rfl, rfl, fun own => absurd (own _ List.mem_cons_self 1 rfl) (by decide)⟩

end GattOps
