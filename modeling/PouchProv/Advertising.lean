import PouchProv.Device
import PouchProv.Runs

/-!
# Advertising

`adv.c` with the calls that `manager.c` makes to it, over the device and a Bluetooth
controller. The controller stops to advertise when a central connects. It is asked to
advertise again when the connection object of a link that has gone is recycled. What
it answers to each call is part of the event.

Only a call of `pouch_prov_mgr_stop` stops the manager (`step_stops`): by the
application, by the timer or by a request that ends provisioning.
-/

namespace Advertising

open Bytes Device Status Runs

/-- `ADV_FLAG_PROVISIONING` -/
def flagProvisioning : UInt8 := 2

/-- What the firmware image and the chip fix: the version in `POUCH_GATT_ADV_DATA_INIT`, the prefix
of device names and the address, least byte first. -/
structure Chip where
  version : UInt8
  stem : List Char
  address : Fin 6 → UInt8

/-- The service data and the name that are on the air. -/
structure Advert where
  version : UInt8
  flags : UInt8
  name : List Char
  deriving DecidableEq, Repr

/-- The variables of `adv.c`, and what the controller sends. -/
structure Radio where
  flags : UInt8
  name : List Char
  enabled : Bool
  air : Option Advert

def btLeAdvStart (chip : Chip) (works : Bool) (r : Radio) : Except Errno Unit × Radio :=
  if r.air.isSome then (.error .ealready, r)
  else if works then (.ok (), { r with air := some ⟨chip.version, r.flags, r.name⟩ })
  else (.error .eio, r)

def btLeAdvStop (works : Bool) (r : Radio) : Except Errno Unit × Radio :=
  if r.air.isNone then (.error .ealready, r)
  else if works then (.ok (), { r with air := none })
  else (.error .eio, r)

def hexDigit (n : Nat) : Char :=
  if n < 10 then Char.ofNat (48 + n) else Char.ofNat (87 + n)

/-- `%02x` -/
def hex (b : UInt8) : List Char := [hexDigit (b.toNat / 16), hexDigit (b.toNat % 16)]

/-- The buffer has room for six characters after the prefix. -/
def deviceName (chip : Chip) : List Char :=
  (chip.stem ++ hex (chip.address 2) ++ hex (chip.address 1) ++ hex (chip.address 0)).take
    (chip.stem.length + 6)

def advStart (chip : Chip) (works : Bool) (r : Radio) : Except Errno Unit × Radio :=
  let r := { r with flags := r.flags ||| flagProvisioning, name := deviceName chip }
  match btLeAdvStart chip works r with
  | (.error .ealready, r) => (.ok (), { r with enabled := true })
  | (.ok (), r) => (.ok (), { r with enabled := true })
  | (.error e, r) => (.error e, r)

def advStop (works : Bool) (r : Radio) : Except Errno Unit × Radio :=
  let r := { r with enabled := false, flags := r.flags &&& ~~~flagProvisioning }
  match btLeAdvStop works r with
  | (.error .ealready, r) => (.ok (), r)
  | (rc, r) => (rc, r)

def recycled (chip : Chip) (works : Bool) (r : Radio) : Radio :=
  if r.enabled then (btLeAdvStart chip works r).2 else r

/-- The device, its radio and the links to it: `up` are connected, and `gone` wait to be recycled.
`ended` is `MGR_EVENT_ENDED`, for which `pouch_prov_mgr_wait` waits. The notices are the events
that the manager has emitted itself, newest first. -/
structure Life where
  dev : Dev
  radio : Radio
  up : Nat
  gone : Nat
  ended : Bool
  notices : List Event

/-- What happens to a device with the manager and the link as they are. -/
def inner : Device.Ev → Bool
  | .mgrStart _ => false
  | .sessionEnded => false
  | _ => true

inductive Ev where
  | start (w : World) (works : Bool)
  | device (e : Device.Ev) (inside : inner e = true) (works : Bool)
  | connect
  | disconnect
  | recycle (works : Bool)

section Step

variable (b : Board) (chip : Chip)

def mgrStart (w : World) (works : Bool) (l : Life) : Except Errno Unit × Life :=
  if l.dev.running then (.error .ealready, l)
  else if ¬ w.bt then (.error .eio, l)
  else
    let (rc, radio) := advStart chip works l.radio
    let l := { l with
      dev := (Device.mgrStart b.build { w with adv := rc.isOk } l.dev).2
      radio := radio
      ended := false }
    match rc with
    | .error e => (.error e, l)
    | .ok () => (.ok (), { l with notices := .started :: l.notices })

def mgrStop (works : Bool) (l : Life) : Except Errno Unit × Life :=
  if ¬ l.dev.running then (.error .ealready, l)
  else (.ok (), { l with
    dev := (Device.mgrStop b.build l.dev).2
    radio := (advStop works l.radio).2
    ended := true
    notices := .ended :: l.notices })

/-- The device at the call of `pouch_prov_mgr_stop` with which a request ends provisioning. -/
def ctrlStop (w : World) (req : Bytes) (d : Dev) : Option Dev :=
  if Auth.sessionAuthorized b.pop d.session then
    let (_, wifi, cred, stops) := Handlers.handleCtrl b.zcbor b.build w.wipe d.wifi d.cred req
    if stops then
      some { d with session := d.session.log (.handler .ctrl), wifi := wifi, cred := cred }
    else none
  else none

/-- The device at the call of `pouch_prov_mgr_stop` that an event makes, if it makes one: the
application stops the manager, or the timer does, or a client. -/
def stopCall (d : Dev) : Device.Ev → Option Dev
  | .mgrStop => some d
  | .autostop => if d.autostop then some { d with autostop := false } else none
  | .downlinkData streamId data isLast w =>
    let a := receive data d.active
    if d.active.endpoint = some .ctrl ∧ streamId = 0 ∧ isLast ∧ ¬ a.overflow then
      ctrlStop b w a.buf { d with active := { a with endpoint := none } }
    else none
  | _ => none

/-- An event inside the device. -/
def deviceEvent (e : Device.Ev) (works : Bool) (l : Life) : Life :=
  let stopped := match stopCall b l.dev e with
    | some d => (mgrStop b works { l with dev := d }).2
    | none => l
  { stopped with dev := Device.step b l.dev e }

def step (l : Life) : Ev → Life
  | .start w works => (mgrStart b chip w works l).2
  | .device e _ works => deviceEvent b e works l
  | .connect =>
    if l.radio.air.isSome then { l with radio := { l.radio with air := none }, up := l.up + 1 }
    else l
  | .disconnect =>
    if l.up = 0 then l
    else { l with dev := Device.step b l.dev .sessionEnded, up := l.up - 1, gone := l.gone + 1 }
  | .recycle works =>
    if l.gone = 0 then l
    else { l with radio := recycled chip works l.radio, gone := l.gone - 1 }

end Step

/-- The device after `pouch_prov_mgr_init`. -/
def boot (build : Handlers.Build) (connAttempts : UInt32)
    (settings : CredStore.CredKind → Option Bytes) (read : CredStore.CredKind → Settings.Read)
    (creds : List WifiConfig.Credential) : Life where
  dev := init build connAttempts settings read creds
  radio := ⟨0, [], false, none⟩
  up := 0
  gone := 0
  ended := false
  notices := []

section Running

variable {b : Board}

/-- What an event of the device does besides answering: it makes a call of
`pouch_prov_mgr_stop`, or leaves the manager as it is. -/
def Stops (b : Board) (call : Option Dev) (d d' : Dev) : Prop :=
  match call with
  | some dc => dc.running = d.running ∧ ∃ q, d' = { (Device.mgrStop b.build dc).2 with rpc := q }
  | none => d'.running = d.running

lemma runHandler_running {w : World} {ep : Auth.Endpoint} (other : ep ≠ .ctrl) (req : Bytes)
    (d : Dev) : (runHandler b w ep req d).2.running = d.running := by
  cases ep with
  | ver => rfl
  | auth => rfl
  | ctrl => exact absurd rfl other
  | config =>
    simp only [runHandler]
    obtain ⟨armed, hemit⟩ := emitAll_frame b.build
      (Handlers.handleConfig b.zcbor w.status w.wifi d.wifi req).2.2
      { d with wifi := (Handlers.handleConfig b.zcbor w.status w.wifi d.wifi req).2.1 }
    rw [hemit]
  | scan => rfl
  | cred =>
    simp only [runHandler]
    split
    · obtain ⟨armed, hemit⟩ := emit_frame b.build .cloudCredStored
        { d with cred := (Handlers.handleCred b.zcbor w.save d.cred req).2.1 }
      rw [hemit]
    · rfl

lemma respondStatus_running (memory : Bool) (ep : Auth.Endpoint) (op : Nat) (status : ProvStatus)
    (d : Dev) : (respondStatus memory ep op status d).running = d.running := by
  obtain ⟨q, hq⟩ := respondStatus_frame memory ep op status d
  rw [hq]

lemma handleRequest_running {w : World} {ep : Auth.Endpoint} (other : ep ≠ .ctrl) (req : Bytes)
    (d : Dev) : (handleRequest b w ep req d).running = d.running := by
  rw [handleRequest]
  split
  · exact respondStatus_running _ _ _ _ d
  · dsimp only
    obtain ⟨q, hq⟩ := reply_frame w.memory ep req
      (runHandler b w ep req { d with session := d.session.log (.handler ep) }).1
      (runHandler b w ep req { d with session := d.session.log (.handler ep) }).2
    rw [hq]
    exact runHandler_running other req { d with session := d.session.log (.handler ep) }

/-- The control handler stops the manager before it is answered. -/
lemma handleRequest_ctrl (w : World) (req : Bytes) (d : Dev) :
    Stops b (ctrlStop b w req d) d (handleRequest b w .ctrl req d) := by
  rw [ctrlStop, handleRequest]
  by_cases hauth : Auth.sessionAuthorized b.pop d.session = true
  · rw [if_pos hauth, if_neg fun h => h.2 hauth]
    dsimp only
    obtain ⟨q, hq⟩ := reply_frame w.memory .ctrl req
      (runHandler b w .ctrl req { d with session := d.session.log (.handler .ctrl) }).1
      (runHandler b w .ctrl req { d with session := d.session.log (.handler .ctrl) }).2
    rw [hq]
    simp only [runHandler]
    split
    · exact ⟨rfl, q, rfl⟩
    · rfl
  · rw [if_neg hauth, if_pos ⟨rfl, hauth⟩]
    exact respondStatus_running _ _ _ _ d

lemma downlinkData_stops (w : World) (streamId : Nat) (data : Bytes) (isLast : Bool) (d : Dev) :
    Stops b (stopCall b d (.downlinkData streamId data isLast w)) d
      (downlinkData b w streamId data isLast d) := by
  simp only [downlinkData, stopCall]
  by_cases hctrl : d.active.endpoint = some .ctrl ∧ streamId = 0 ∧ isLast = true ∧
      ¬ (receive data d.active).overflow = true
  · obtain ⟨hendpoint, hstream, hlast, hfits⟩ := hctrl
    rw [if_pos ⟨hendpoint, hstream, hlast, hfits⟩]
    simp only [hendpoint, hstream, hlast, ne_eq, not_true_eq_false, if_false]
    rw [if_neg hfits]
    exact handleRequest_ctrl w (receive data d.active).buf
      { d with active := { receive data d.active with endpoint := none } }
  · rw [if_neg hctrl, Stops]
    cases hendpoint : d.active.endpoint with
    | none => rfl
    | some ep =>
      dsimp only
      split
      · rfl
      · rename_i hstream
        split
        · rfl
        · rename_i hlast
          split
          · exact respondStatus_running _ _ _ _ _
          · rename_i hfits
            refine handleRequest_running ?_ _ _
            rintro rfl
            exact hctrl ⟨hendpoint, not_not.mp hstream, not_not.mp hlast, hfits⟩

/-- Within the device only a call of `pouch_prov_mgr_stop` stops the manager, and nothing starts
it. -/
lemma step_stops {e : Device.Ev} (inside : inner e = true) (d : Dev) :
    Stops b (stopCall b d e) d (Device.step b d e) := by
  cases e with
  | downlinkStart streamId path contentType =>
    change (downlinkStart b.build streamId path contentType d).running = d.running
    rw [downlinkStart]
    dsimp only
    split
    · rfl
    · split <;> rfl
  | downlinkData streamId data isLast w => exact downlinkData_stops w streamId data isLast d
  | uplinkFlush => rfl
  | sessionEnded => cases inside
  | mgrStart w => cases inside
  | mgrStop => exact ⟨rfl, _, rfl⟩
  | mgrReset w => rfl
  | autostop =>
    rw [stopCall, Device.step]
    split
    · exact ⟨rfl, _, rfl⟩
    · rfl
  | connectResult env status =>
    change (Device.step b d (.connectResult env status)).running = d.running
    simp only [Device.step]
    split
    · obtain ⟨armed, hemit⟩ := emitAll_frame b.build
        (WifiConfig.onConnectResult env status d.wifi.wc).2
        { d with wifi := { d.wifi with wc := (WifiConfig.onConnectResult env status d.wifi.wc).1 } }
      rw [hemit]
    · rfl
  | retryWork env =>
    change (Device.step b d (.retryWork env)).running = d.running
    simp only [Device.step]
    split
    · obtain ⟨armed, hemit⟩ := emitAll_frame b.build (WifiConfig.retryWorkHandler env d.wifi.wc).2
        { d with wifi := { d.wifi with wc := (WifiConfig.retryWorkHandler env d.wifi.wc).1 } }
      rw [hemit]
    · rfl
  | scanResult r =>
    change (Device.step b d (.scanResult r)).running = d.running
    simp only [Device.step]
    split <;> rfl
  | scanDone =>
    change (Device.step b d .scanDone).running = d.running
    simp only [Device.step]
    split <;> rfl

end Running

/-- What a device in provisioning mode advertises. -/
structure Advert.Provisioning (chip : Chip) (a : Advert) : Prop where
  version : a.version = chip.version
  flag : a.flags &&& flagProvisioning ≠ 0
  name : a.name = deviceName chip

/-- The calls that an event makes to the controller succeed. A start may fail. -/
def Works : Ev → Prop
  | .device _ _ works => works = true
  | .recycle works => works = true
  | _ => True

/-- What is on the air belongs to a manager that runs, and one that runs without a link is on the
air. -/
structure OnAir (chip : Chip) (l : Life) : Prop where
  running : ∀ a ∈ l.radio.air, l.dev.running = true ∧ a.Provisioning chip
  found : l.dev.running = true → l.up = 0 → l.gone = 0 → l.radio.air.isSome

/-- The variables of `adv.c` follow the manager. -/
structure Follows (chip : Chip) (l : Life) : Prop where
  enabled : l.radio.enabled = l.dev.running
  flag : l.dev.running = true → l.radio.flags &&& flagProvisioning ≠ 0
  name : l.dev.running = true → l.radio.name = deviceName chip

section Air

variable {b : Board} {chip : Chip} {l : Life}

lemma flag_set (flags : UInt8) : (flags ||| flagProvisioning) &&& flagProvisioning ≠ 0 := by
  intro h
  have hbit := congrArg (fun x : UInt8 => x.toBitVec.getLsbD 1) h
  simp [flagProvisioning] at hbit

lemma advStart_silent {r : Radio} (silent : r.air = none) (works : Bool) :
    advStart chip works r = if works then
      (.ok (), { flags := r.flags ||| flagProvisioning, name := deviceName chip, enabled := true
                 air := some ⟨chip.version, r.flags ||| flagProvisioning, deviceName chip⟩ })
    else
      (.error .eio, { r with flags := r.flags ||| flagProvisioning, name := deviceName chip }) := by
  cases works <;> simp [advStart, btLeAdvStart, silent]

lemma advStop_radio (works : Bool) (r : Radio) :
    (advStop works r).2 = { r with
      enabled := false, flags := r.flags &&& ~~~flagProvisioning
      air := if works then none else r.air } := by
  cases hair : r.air with
  | none | some => cases works <;> simp [advStop, btLeAdvStop, hair]

/-- A start of a manager that does not run. -/
lemma mgrStart_life (b : Board) (chip : Chip) (w : World) (works : Bool) (l : Life) :
    (mgrStart b chip w works l).2 = l ∨
      l.dev.running = false ∧ ∃ d : Dev, (mgrStart b chip w works l).2 = { l with
        dev := { d with running := (advStart chip works l.radio).1.isOk }
        radio := (advStart chip works l.radio).2
        ended := false
        notices := if (advStart chip works l.radio).1.isOk then .started :: l.notices
          else l.notices } := by
  cases hruns : l.dev.running with
  | true => exact .inl (by simp [mgrStart, hruns])
  | false =>
    cases hbt : w.bt with
    | false => exact .inl (by simp [mgrStart, hruns, hbt])
    | true =>
      refine .inr ⟨rfl, (Device.mgrStart b.build
        { w with adv := (advStart chip works l.radio).1.isOk } l.dev).2, ?_⟩
      cases hadv : (advStart chip works l.radio).1 with
      | ok u =>
        simp [mgrStart, Device.mgrStart, hruns, hbt, hadv, Except.isOk, Except.toBool]
      | error e =>
        simp [mgrStart, Device.mgrStart, hruns, hbt, hadv, Except.isOk, Except.toBool, endSession,
          dispatchReset]

/-- What goes on inside a device leaves the manager running, or stops it. -/
lemma deviceEvent_life {e : Device.Ev} (inside : inner e = true) (works : Bool) :
    (∃ d : Dev, d.running = l.dev.running ∧ deviceEvent b e works l = { l with dev := d }) ∨
      l.dev.running = true ∧ ∃ d : Dev, d.running = false ∧ deviceEvent b e works l = { l with
        dev := d
        radio := (advStop works l.radio).2
        ended := true
        notices := .ended :: l.notices } := by
  have hstops := step_stops (b := b) inside l.dev
  rw [deviceEvent]
  cases hcall : stopCall b l.dev e with
  | none =>
    rw [hcall] at hstops
    exact .inl ⟨_, hstops, rfl⟩
  | some dc =>
    rw [hcall] at hstops
    obtain ⟨hsame, q, hstep⟩ := hstops
    cases hruns : l.dev.running with
    | false =>
      have hidle : (mgrStop b works { l with dev := dc }).2 = { l with dev := dc } := by
        simp [mgrStop, hsame, hruns]
      refine .inl ⟨Device.step b l.dev e, ?_, by simp only [hidle]⟩
      rw [hstep]
      simp [Device.mgrStop, hsame, hruns]
    | true =>
      have hstopped : (mgrStop b works { l with dev := dc }).2 = { l with
          dev := (Device.mgrStop b.build dc).2
          radio := (advStop works l.radio).2
          ended := true
          notices := .ended :: l.notices } := by
        simp [mgrStop, hsame, hruns]
      refine .inr ⟨rfl, Device.step b l.dev e, ?_, by simp only [hstopped]⟩
      rw [hstep]
      simp [Device.mgrStop, hsame, hruns, endSession, dispatchReset]

lemma recycled_enabled (chip : Chip) {r : Radio} (enabled : r.enabled = true) :
    (recycled chip true r).air = some (r.air.getD ⟨chip.version, r.flags, r.name⟩) := by
  cases hair : r.air <;> simp [recycled, btLeAdvStart, enabled, hair]

lemma recycled_frame (chip : Chip) (works : Bool) (r : Radio) :
    ∃ air, recycled chip works r = { r with air := air } := by
  rw [recycled]
  split
  · rw [btLeAdvStart]
    split
    · exact ⟨r.air, rfl⟩
    · split
      · exact ⟨_, rfl⟩
      · exact ⟨r.air, rfl⟩
  · exact ⟨r.air, rfl⟩

lemma OnAir.silent (h : OnAir chip l) (stopped : l.dev.running = false) : l.radio.air = none := by
  cases hair : l.radio.air with
  | none => rfl
  | some a =>
    have hruns := (h.running a hair).1
    rw [stopped] at hruns
    cases hruns

theorem step_follows (h : Follows chip l) (air : OnAir chip l) (e : Ev) :
    Follows chip (step b chip l e) := by
  cases e with
  | start w starts =>
    rcases mgrStart_life b chip w starts l with hsame | ⟨hstopped, d, hstart⟩
    · rw [step, hsame]
      exact h
    · rw [step, hstart, advStart_silent (air.silent hstopped)]
      cases starts with
      | true => exact ⟨rfl, fun _ => flag_set _, fun _ => rfl⟩
      | false =>
        exact ⟨h.enabled.trans hstopped, fun h => absurd h Bool.false_ne_true,
          fun h => absurd h Bool.false_ne_true⟩
  | device e inside works =>
    rcases deviceEvent_life (b := b) (l := l) inside works with
      ⟨d, hruns, hevent⟩ | ⟨-, d, hstopped, hevent⟩
    · rw [step, hevent]
      exact ⟨h.enabled.trans hruns.symm, fun hd => h.flag (hruns ▸ hd),
        fun hd => h.name (hruns ▸ hd)⟩
    · rw [step, hevent, advStop_radio]
      exact ⟨hstopped.symm, fun hd => absurd (hd.symm.trans hstopped) Bool.noConfusion,
        fun hd => absurd (hd.symm.trans hstopped) Bool.noConfusion⟩
  | connect | disconnect =>
    rw [step]
    split <;> exact ⟨h.enabled, h.flag, h.name⟩
  | recycle works =>
    rw [step]
    split
    · exact h
    · obtain ⟨air, hair⟩ := recycled_frame chip works l.radio
      rw [hair]
      exact ⟨h.enabled, h.flag, h.name⟩

theorem step_onAir (h : Follows chip l) (air : OnAir chip l) {e : Ev} (works : Works e) :
    OnAir chip (step b chip l e) := by
  cases e with
  | start w starts =>
    rcases mgrStart_life b chip w starts l with hsame | ⟨hstopped, d, hstart⟩
    · rw [step, hsame]
      exact air
    · rw [step, hstart, advStart_silent (air.silent hstopped)]
      cases starts with
      | true =>
        refine ⟨?_, fun _ _ _ => rfl⟩
        rintro a ⟨⟩
        exact ⟨rfl, rfl, flag_set _, rfl⟩
      | false =>
        refine ⟨fun a ha => ?_, fun h => absurd h Bool.false_ne_true⟩
        exact absurd (air.silent hstopped ▸ ha) (Option.not_mem_none a)
  | device e inside stops =>
    obtain rfl : stops = true := works
    rcases deviceEvent_life (b := b) (l := l) inside true with
      ⟨d, hruns, hevent⟩ | ⟨-, d, hstopped, hevent⟩
    · rw [step, hevent]
      exact ⟨fun a ha => ⟨hruns.trans (air.running a ha).1, (air.running a ha).2⟩,
        fun hd => air.found (hruns ▸ hd)⟩
    · rw [step, hevent, advStop_radio]
      exact ⟨fun a ha => absurd ha (Option.not_mem_none a),
        fun hd => absurd (hd.symm.trans hstopped) Bool.noConfusion⟩
  | connect =>
    rw [step]
    split
    · exact ⟨fun a ha => absurd ha (Option.not_mem_none a),
        fun _ hup => absurd hup (Nat.succ_ne_zero _)⟩
    · exact air
  | disconnect =>
    rw [step]
    split
    · exact air
    · exact ⟨air.running, fun _ _ hgone => absurd hgone (Nat.succ_ne_zero _)⟩
  | recycle resumes =>
    obtain rfl : resumes = true := works
    rw [step]
    split
    · exact air
    · cases henabled : l.radio.enabled with
      | false =>
        have hstopped : l.dev.running = false := h.enabled.symm.trans henabled
        have hkept : recycled chip true l.radio = l.radio := by
          rw [recycled, if_neg (Bool.eq_false_iff.mp henabled)]
        rw [hkept]
        exact ⟨air.running, fun hd => absurd (hd.symm.trans hstopped) Bool.noConfusion⟩
      | true =>
        have hruns : l.dev.running = true := h.enabled.symm.trans henabled
        have hair := recycled_enabled chip henabled
        refine ⟨fun a ha => ⟨hruns, ?_⟩, fun _ _ _ => ?_⟩
        · obtain rfl := Option.some.inj (hair.symm.trans ha)
          cases hold : l.radio.air with
          | none => exact ⟨rfl, h.flag hruns, h.name hruns⟩
          | some a => exact (air.running a hold).2
        · change (recycled chip true l.radio).air.isSome
          rw [hair]
          rfl

/-- A device that has not been started is silent. -/
lemma boot_onAir (chip : Chip) (build : Handlers.Build) (connAttempts : UInt32)
    (settings : CredStore.CredKind → Option Bytes) (read : CredStore.CredKind → Settings.Read)
    (creds : List WifiConfig.Credential) :
    Follows chip (boot build connAttempts settings read creds) ∧
      OnAir chip (boot build connAttempts settings read creds) := by
  refine ⟨⟨rfl, ?_, ?_⟩, ?_, ?_⟩
  · exact fun h => absurd h Bool.false_ne_true
  · exact fun h => absurd h Bool.false_ne_true
  · rintro a ⟨⟩
  · exact fun h => absurd h Bool.false_ne_true

end Air

/-- In every order of starts, stops, requests and links, with a controller that does what it is
asked to: a device is on the air only while its manager runs, and then with the flag of
provisioning, and a manager that runs is on the air unless a link is up or has not been recycled. -/
theorem on_air_while_provisioning (b : Board) (chip : Chip) (connAttempts : UInt32)
    (settings : CredStore.CredKind → Option Bytes) (read : CredStore.CredKind → Settings.Read)
    (creds : List WifiConfig.Credential) {es : List Ev} (works : ∀ e ∈ es, Works e) :
    Always (step b chip) (OnAir chip) (boot b.build connAttempts settings read creds) es := by
  refine (always_of_each (I := fun l => Follows chip l ∧ OnAir chip l)
    (C := fun _ e => Works e) ?_ (boot_onAir chip _ _ _ _ _)
    (each_of_mem _ works)).mono fun l h => h.2
  rintro l e ⟨hfollows, hair⟩ hworks
  exact ⟨step_follows hfollows hair e, step_onAir hfollows hair hworks⟩

/-- A device that is started, is connected to and left, and is stopped. -/
def sampleRun : List Ev :=
  [.start {} true, .connect, .disconnect, .recycle true, .device .mgrStop rfl true]

def sampleChip : Chip := ⟨0x11, "PVN-".toList, fun _ => 0xa5⟩

def sampleBoard : Board where
  build := ⟨true, true, true, false, 512, 16, false⟩
  pop := none
  zcbor := .definite 64
  hmac _ _ := []

theorem on_air_while_provisioning_sample :
    Always (step sampleBoard sampleChip) (OnAir sampleChip)
      (boot sampleBoard.build 1 (fun _ => none) (fun _ => .whole) []) sampleRun := by
  refine on_air_while_provisioning sampleBoard sampleChip 1 (fun _ => none) (fun _ => .whole) [] ?_
  simp only [sampleRun, List.mem_cons, List.not_mem_nil, or_false, forall_eq_or_imp, forall_eq]
  exact ⟨trivial, trivial, trivial, rfl, rfl⟩

/-- The application is told in turn that the manager has started and that it has ended. A wait for
the end returns only when the manager has ended and has not been started again. -/
structure Notified (l : Life) : Prop where
  only : ∀ n ∈ l.notices, n = .started ∨ n = .ended
  alternate : l.notices.IsChain (· ≠ ·)
  first : ∀ n ∈ l.notices.getLast?, n = .started
  current : l.dev.running = true ↔ l.notices.head? = some .started
  waits : l.ended = true → l.dev.running = false ∧ l.notices.head? = some .ended

section Notices

variable {b : Board} {chip : Chip} {l : Life}

/-- One more notice, other than the last. -/
lemma Notified.add {n : Event} (h : Notified l) (own : n = .started ∨ n = .ended)
    (new : l.notices.head? ≠ some n) (begins : l.notices = [] → n = .started) {l' : Life}
    (notices : l'.notices = n :: l.notices) (running : l'.dev.running = true ↔ n = .started)
    (waits : l'.ended = true → n = .ended) : Notified l' := by
  constructor
  · rw [notices]
    intro m hm
    rcases List.mem_cons.mp hm with rfl | hm
    · exact own
    · exact h.only m hm
  · rw [notices]
    cases hold : l.notices with
    | nil => exact .singleton n
    | cons m ms =>
      refine .cons_cons ?_ (hold ▸ h.alternate)
      rintro rfl
      exact new (congrArg List.head? hold)
  · rw [notices]
    cases hold : l.notices with
    | nil =>
      rintro m ⟨⟩
      exact begins hold
    | cons m ms =>
      rw [List.getLast?_cons_cons, ← hold]
      exact h.first
  · rw [notices, List.head?_cons, Option.some.injEq]
    exact running
  · intro hended
    obtain rfl := waits hended
    refine ⟨Bool.eq_false_iff.mpr fun hruns => ?_, by rw [notices]; rfl⟩
    cases running.mp hruns

/-- Nothing that the application is told about has happened. -/
lemma Notified.keep (h : Notified l) {l' : Life} (notices : l'.notices = l.notices)
    (running : l'.dev.running = l.dev.running) (ended : l'.ended = true → l.ended = true) :
    Notified l' := by
  refine ⟨notices ▸ h.only, notices ▸ h.alternate, notices ▸ h.first, ?_, ?_⟩
  · rw [notices, running]
    exact h.current
  · rw [notices, running]
    exact fun hended => h.waits (ended hended)

theorem step_notified (h : Notified l) (e : Ev) : Notified (step b chip l e) := by
  cases e with
  | start w works =>
    rcases mgrStart_life b chip w works l with hsame | ⟨hstopped, d, hstart⟩
    · rw [step, hsame]
      exact h
    · rw [step, hstart]
      cases (advStart chip works l.radio).1.isOk with
      | true =>
        refine h.add (.inl rfl) ?_ (fun _ => rfl) rfl ⟨fun _ => rfl, fun _ => rfl⟩
          fun hended => absurd hended Bool.false_ne_true
        intro hhead
        rw [h.current.mpr hhead] at hstopped
        cases hstopped
      | false =>
        exact h.keep rfl hstopped.symm fun hended => absurd hended Bool.false_ne_true
  | device e inside works =>
    rcases deviceEvent_life (b := b) (l := l) inside works with
      ⟨d, hruns, hevent⟩ | ⟨hruns, d, hstopped, hevent⟩
    · rw [step, hevent]
      exact h.keep rfl hruns id
    · rw [step, hevent]
      have hhead := h.current.mp hruns
      refine h.add (.inr rfl) ?_ ?_ rfl ?_ fun _ => rfl
      · rw [hhead]
        exact fun hsame => Event.noConfusion (Option.some.inj hsame)
      · intro hnone
        rw [hnone] at hhead
        cases hhead
      · rw [hstopped]
        exact ⟨fun h => absurd h Bool.false_ne_true, fun h => Event.noConfusion h⟩
  | connect | disconnect | recycle =>
    rw [step]
    split <;> exact h.keep rfl rfl id

end Notices

/-- The application is told every start and every end of the manager once and in order, whoever
ends it and whatever the controller answers. -/
theorem starts_and_ends_alternate (b : Board) (chip : Chip) (connAttempts : UInt32)
    (settings : CredStore.CredKind → Option Bytes) (read : CredStore.CredKind → Settings.Read)
    (creds : List WifiConfig.Credential) (es : List Ev) :
    Always (step b chip) Notified (boot b.build connAttempts settings read creds) es := by
  refine always_of_steps (I := Notified) (fun l e h => step_notified h e) ?_ es
  refine ⟨?_, .nil, ?_, ?_, ?_⟩
  · rintro n ⟨⟩
  · rintro n ⟨⟩
  · exact ⟨fun h => absurd h Bool.false_ne_true, fun h => absurd h (Option.some_ne_none _).symm⟩
  · exact fun h => absurd h Bool.false_ne_true

end Advertising
