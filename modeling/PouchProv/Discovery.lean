import PouchProv.Advertising
import Mathlib.Data.List.Sort

/-!
# Discovery

How the clients find a device: `discover` and `_scan_for` of `ble.py`, and `scan` of
`PouchProvManager` in Kotlin and Swift. The scanner of the operating system hands them
advertisements. Here these come from any number of devices that start, stop and are
connected to in the meantime, and from whatever else is near.
-/

namespace Discovery

open Bytes Advertising Runs
open Device (Board)

/-- An advertisement, as the scanner of the operating system reports it. A phone always knows the
signal strength. -/
structure Sighting (A : Type) where
  address : A
  deviceName : Option (List Char)
  localName : Option (List Char)
  rssi : Option Int
  serviceData : Option Bytes

structure Discovered (A : Type) where
  name : Option (List Char)
  address : A
  rssi : Int
  provisioning : Bool
  pouchVersion : Nat
  gattVersion : Nat

variable {A : Type}

/-- The version and the flags of service data that is long enough. -/
def Sighting.service (s : Sighting A) : Option (UInt8 × UInt8) :=
  match s.serviceData with
  | some (version :: flags :: _) => some (version, flags)
  | _ => none

def isProvisioning (flags : UInt8) : Bool := flags &&& flagProvisioning ≠ 0

/-- The checks that an advertisement passes, and the device that a client makes of it. The clients
differ in the name that they show. -/
def describe (all : Bool) (name : Option (List Char)) (s : Sighting A) : Option (Discovered A) :=
  match s.service with
  | none => none
  | some (version, flags) =>
    if ¬ all ∧ ¬ isProvisioning flags then none
    else some {
      name := name
      address := s.address
      rssi := s.rssi.getD 0
      provisioning := isProvisioning flags
      pouchVersion := version.toNat / 16
      gattVersion := version.toNat % 16 }

lemma describe_some {all : Bool} {name : Option (List Char)} {s : Sighting A} {d : Discovered A}
    (h : describe all name s = some d) :
    ∃ version flags, s.service = some (version, flags) ∧
      d = ⟨name, s.address, s.rssi.getD 0, isProvisioning flags, version.toNat / 16,
        version.toNat % 16⟩ := by
  rw [describe] at h
  split at h
  · cases h
  · split at h <;> cases h
    exact ⟨_, _, ‹_›, rfl⟩

namespace Python

/-- A name that is neither missing nor empty. -/
def given (name : Option (List Char)) : Option (List Char) := name.filter (· ≠ [])

/-- One round of the loop of `discover`. -/
def discovered (provisioningOnly : Bool) (s : Sighting A) : Option (Discovered A) :=
  describe (!provisioningOnly)
    ((given s.deviceName).or ((given s.localName).or (some ['?']))) s

/-- `discover`, over the devices that the scanner reports, each with its latest advertisement. Their
addresses differ, so that none is found twice. -/
def discover (provisioningOnly : Bool) (devices : List (Sighting A)) : List (Discovered A) :=
  (devices.filterMap (discovered provisioningOnly)).insertionSort fun d d' => -d.rssi ≤ -d'.rssi

/-- One round of the loop of `_scan_for`. -/
def better (name : Option (List Char)) (best : Option (Sighting A) × Int) (s : Sighting A) :
    Option (Sighting A) × Int :=
  match s.service with
  | none => best
  | some (_, flags) =>
    if ¬ isProvisioning flags then best
    else if name.isSome ∧ name ≠ s.deviceName ∧ name ≠ s.localName then best
    else
      let rssi := s.rssi.getD (-999)
      if rssi > best.2 then (some s, rssi) else best

def scanFor (name : Option (List Char)) (devices : List (Sighting A)) : Option (Sighting A) :=
  (devices.foldl (better name) (none, -999)).1

section Scanner

variable [DecidableEq A]

/-- The scanner keeps the latest advertisement of each address. -/
def record (devices : List (Sighting A)) (s : Sighting A) : List (Sighting A) :=
  if s.address ∈ devices.map Sighting.address then
    devices.map fun d => if d.address = s.address then s else d
  else devices ++ [s]

def latest (sightings : List (Sighting A)) : List (Sighting A) := sightings.foldl record []

end Scanner

end Python

namespace Phone

/-- The set `seen`, and what has been emitted. -/
structure Scan (A : Type) where
  seen : List A
  emitted : List (Discovered A)

/-- The checks of `onScanResult`, up to the set, and the device that it builds. -/
def discovered (includeAll : Bool) (s : Sighting A) : Option (Discovered A) :=
  describe includeAll (s.localName.or s.deviceName) s

variable [DecidableEq A]

/-- `onScanResult` in Kotlin, and the handler of `startScan` in Swift. -/
def onScanResult (includeAll : Bool) (scan : Scan A) (s : Sighting A) : Scan A :=
  match discovered includeAll s with
  | none => scan
  | some d =>
    if s.address ∈ scan.seen then scan
    else ⟨s.address :: scan.seen, scan.emitted ++ [d]⟩

def scan (includeAll : Bool) (sightings : List (Sighting A)) : List (Discovered A) :=
  (sightings.foldl (onScanResult includeAll) ⟨[], []⟩).emitted

end Phone

/-- The programs that look for devices. -/
inductive Scanner where
  | python
  | kotlin
  | swift

/-- What a client lists that looks for devices in provisioning mode. -/
def listed [DecidableEq A] (sightings : List (Sighting A)) : Scanner → List (Discovered A)
  | .python => Python.discover true (Python.latest sightings)
  | .kotlin => Phone.scan false sightings
  | .swift => Phone.scan false sightings

/-- The signal strength is known. -/
def Sighting.audible (s : Sighting A) : Bool := (s.rssi.getD (-999)) > -999

section Strongest

open Python

/-- The head of a list that is sorted by signal strength. -/
lemma head_insert (d : Discovered A) (ds : List (Discovered A)) :
    ((d :: ds).insertionSort fun d d' => -d.rssi ≤ -d'.rssi).head? =
      match (ds.insertionSort fun d d' => -d.rssi ≤ -d'.rssi).head? with
      | none => some d
      | some d' => if d'.rssi ≤ d.rssi then some d else some d' := by
  rw [List.insertionSort_cons]
  cases ds.insertionSort fun d d' => -d.rssi ≤ -d'.rssi with
  | nil => rfl
  | cons d' ds' =>
    have hiff : -d.rssi ≤ -d'.rssi ↔ d'.rssi ≤ d.rssi := by omega
    simp only [List.orderedInsert_cons, List.head?_cons, hiff]
    split <;> rfl

lemma discover_cons_none {s : Sighting A} (h : discovered true s = none)
    (devices : List (Sighting A)) : discover true (s :: devices) = discover true devices := by
  simp only [discover, List.filterMap_cons, h]

lemma discover_cons_some {s : Sighting A} {d : Discovered A} (h : discovered true s = some d)
    (devices : List (Sighting A)) :
    (discover true (s :: devices)).head? =
      match (discover true devices).head? with
      | none => some d
      | some d' => if d'.rssi ≤ d.rssi then some d else some d' := by
  simp only [discover, List.filterMap_cons, h]
  exact head_insert d _

/-- A round of `_scan_for` passes over what `discover` leaves out. -/
lemma better_eq (s : Sighting A) (best : Option (Sighting A) × Int) :
    better none best s =
      match discovered true s with
      | none => best
      | some _ => if s.rssi.getD (-999) > best.2 then (some s, s.rssi.getD (-999)) else best := by
  rw [better, discovered, describe]
  cases s.service with
  | none => rfl
  | some service =>
    obtain ⟨version, flags⟩ := service
    cases hflag : isProvisioning flags <;> simp [hflag]

lemma discovered_rssi {s : Sighting A} {d : Discovered A} (h : discovered true s = some d)
    (audible : s.audible = true) : d.rssi = s.rssi.getD (-999) := by
  obtain ⟨version, flags, -, rfl⟩ := describe_some h
  cases hrssi : s.rssi with
  | none => simp [Sighting.audible, hrssi] at audible
  | some rssi => rfl

/-- A device without a signal strength is never the best. -/
lemma foldl_audible (devices : List (Sighting A)) (best : Option (Sighting A) × Int)
    (low : -999 ≤ best.2) :
    devices.foldl (better none) best =
      (devices.filter Sighting.audible).foldl (better none) best := by
  induction devices generalizing best with
  | nil => rfl
  | cons s devices ih =>
    rw [List.foldl_cons]
    cases haudible : s.audible with
    | false =>
      have hweak : ¬ s.rssi.getD (-999) > best.2 := by
        simp only [Sighting.audible, decide_eq_false_iff_not] at haudible
        omega
      have hkept : better none best s = best := by
        rw [better_eq]
        split
        · rfl
        · exact if_neg hweak
      rw [hkept, List.filter_cons_of_neg (Bool.eq_false_iff.mp haudible)]
      exact ih best low
    | true =>
      rw [List.filter_cons_of_pos haudible, List.foldl_cons]
      refine ih _ ?_
      rw [better_eq]
      split
      · exact low
      · split
        · exact low.trans (Int.le_of_lt ‹_›)
        · exact low

/-- What the loop of `_scan_for` has found, from any point on. -/
lemma foldl_better (devices : List (Sighting A)) (audible : ∀ s ∈ devices, s.audible = true)
    (best : Option (Sighting A) × Int) :
    (devices.foldl (better none) best).1.bind (discovered true) =
      match (discover true devices).head? with
      | none => best.1.bind (discovered true)
      | some d => if d.rssi > best.2 then some d else best.1.bind (discovered true) := by
  induction devices generalizing best with
  | nil => rfl
  | cons s devices ih =>
    obtain ⟨hs, hdevices⟩ := List.forall_mem_cons.mp audible
    rw [List.foldl_cons, ih hdevices, better_eq]
    cases hd : discovered true s with
    | none => rw [discover_cons_none hd]
    | some d =>
      rw [discover_cons_some hd, ← discovered_rssi hd hs]
      -- the device is the best so far, or it is not, and so for the strongest one after it
      cases (discover true devices).head? with
      | none =>
        dsimp only
        split
        · exact hd
        · rfl
      | some d' =>
        dsimp only
        grind

end Strongest

/-- Without a name, the command line connects to the device that `discover` lists first, of those
with a known signal strength. -/
theorem autoselect_heads_discover [DecidableEq A] (sightings : List (Sighting A)) :
    (Python.scanFor none (Python.latest sightings)).bind (Python.discovered true) =
      (Python.discover true ((Python.latest sightings).filter Sighting.audible)).head? := by
  rw [Python.scanFor, foldl_audible _ _ le_rfl]
  have haudible : ∀ s ∈ (Python.latest sightings).filter Sighting.audible, s.audible = true :=
    fun s hs => (List.mem_filter.mp hs).2
  revert haudible
  generalize (Python.latest sightings).filter Sighting.audible = devices
  intro haudible
  rw [foldl_better _ haudible]
  cases hhead : (Python.discover true devices).head? with
  | none => rfl
  | some d =>
    obtain ⟨s, hs, hd⟩ := List.mem_filterMap.mp
      ((List.mem_insertionSort _).mp (List.mem_of_head? hhead))
    have hstrong := haudible s hs
    rw [Sighting.audible, ← discovered_rssi hd hstrong, decide_eq_true_iff] at hstrong
    exact if_pos hstrong

/-- The name that a client shows. -/
def Scanner.name (s : Sighting A) : Scanner → Option (List Char)
  | .python => (Python.given s.deviceName).or ((Python.given s.localName).or (some ['?']))
  | .kotlin => s.localName.or s.deviceName
  | .swift => s.localName.or s.deviceName

section Listed

variable [DecidableEq A] {sightings : List (Sighting A)}

/-- The scanner of the command line has one of the advertisements of each address. -/
structure Latest (sightings devices : List (Sighting A)) : Prop where
  once : (devices.map Sighting.address).Nodup
  real : ∀ s ∈ devices, s ∈ sightings
  all : ∀ s ∈ sightings, s.address ∈ devices.map Sighting.address

lemma Latest.record {devices : List (Sighting A)} (h : Latest sightings devices)
    (s : Sighting A) : Latest (sightings ++ [s]) (Python.record devices s) := by
  rw [Python.record]
  split
  · rename_i hknown
    have haddresses : (devices.map fun d => if d.address = s.address then s else d).map
        Sighting.address = devices.map Sighting.address := by
      rw [List.map_map]
      refine List.map_congr_left fun d _ => ?_
      simp only [Function.comp_apply]
      split
      · exact Eq.symm ‹_›
      · rfl
    constructor
    · rw [haddresses]
      exact h.once
    · intro d' hd'
      obtain ⟨d, hd, rfl⟩ := List.mem_map.mp hd'
      split
      · exact List.mem_append_right _ List.mem_cons_self
      · exact List.mem_append_left _ (h.real d hd)
    · rw [haddresses]
      exact List.forall_mem_append.mpr ⟨h.all, List.forall_mem_singleton.mpr hknown⟩
  · rename_i hnew
    constructor
    · rw [List.map_append]
      exact h.once.append (List.nodup_singleton _) (List.disjoint_singleton.mpr hnew)
    · intro d hd
      rcases List.mem_append.mp hd with hd | hd
      · exact List.mem_append_left _ (h.real d hd)
      · exact List.mem_append_right _ hd
    · rw [List.map_append]
      refine List.forall_mem_append.mpr ⟨fun s' hs' => ?_, fun s' hs' => ?_⟩
      · exact List.mem_append_left _ (h.all s' hs')
      · exact List.mem_append_right _ (List.mem_map_of_mem hs')

lemma latest_spec (sightings : List (Sighting A)) :
    Latest sightings (Python.latest sightings) := by
  induction sightings using List.reverseRecOn with
  | nil =>
    exact ⟨List.nodup_nil, fun _ h => absurd h List.not_mem_nil,
      fun _ h => absurd h List.not_mem_nil⟩
  | append_singleton sightings s ih =>
    rw [Python.latest, List.foldl_concat]
    exact ih.record s

/-- What a phone has seen and what it has shown, after some advertisements. -/
structure Scanned (sightings : List (Sighting A)) (scan : Phone.Scan A) : Prop where
  seen : scan.seen = (scan.emitted.map Discovered.address).reverse
  once : scan.seen.Nodup
  real : ∀ d ∈ scan.emitted, ∃ s ∈ sightings, Phone.discovered false s = some d
  all : ∀ s ∈ sightings, (Phone.discovered false s).isSome → s.address ∈ scan.seen

lemma Scanned.onScanResult {scan : Phone.Scan A} (h : Scanned sightings scan) (s : Sighting A) :
    Scanned (sightings ++ [s]) (Phone.onScanResult false scan s) := by
  have hreal : ∀ d ∈ scan.emitted, ∃ s' ∈ sightings ++ [s], Phone.discovered false s' = some d := by
    intro d hd
    obtain ⟨s', hs', hd⟩ := h.real d hd
    exact ⟨s', List.mem_append_left _ hs', hd⟩
  rw [Phone.onScanResult]
  split
  · rename_i hnone
    refine ⟨h.seen, h.once, hreal, List.forall_mem_append.mpr ⟨h.all, ?_⟩⟩
    rw [List.forall_mem_singleton, hnone]
    exact fun hsome => absurd hsome Bool.false_ne_true
  · rename_i d hd
    have haddress : d.address = s.address := by
      obtain ⟨version, flags, -, rfl⟩ := describe_some hd
      rfl
    split
    · rename_i hknown
      exact ⟨h.seen, h.once, hreal,
        List.forall_mem_append.mpr ⟨h.all, List.forall_mem_singleton.mpr fun _ => hknown⟩⟩
    · rename_i hnew
      have hlast : s ∈ sightings ++ [s] := List.mem_append_right _ List.mem_cons_self
      refine ⟨?_, List.nodup_cons.mpr ⟨hnew, h.once⟩, ?_, ?_⟩
      · simp [h.seen, haddress]
      · exact List.forall_mem_append.mpr ⟨hreal, List.forall_mem_singleton.mpr ⟨s, hlast, hd⟩⟩
      · refine List.forall_mem_append.mpr ⟨fun s' hs' hsome => ?_, ?_⟩
        · exact List.mem_cons_of_mem _ (h.all s' hs' hsome)
        · exact List.forall_mem_singleton.mpr fun _ => List.mem_cons_self

lemma scan_spec (sightings : List (Sighting A)) :
    Scanned sightings (sightings.foldl (Phone.onScanResult false) ⟨[], []⟩) := by
  induction sightings using List.reverseRecOn with
  | nil =>
    exact ⟨rfl, List.nodup_nil, fun _ h => absurd h List.not_mem_nil,
      fun _ h => absurd h List.not_mem_nil⟩
  | append_singleton sightings s ih =>
    rw [List.foldl_concat]
    exact ih.onScanResult s

/-- What every client lists: each address once, and from advertisements that pass the checks. -/
structure Lists (sightings : List (Sighting A)) (scanner : Scanner) (ds : List (Discovered A)) :
    Prop where
  once : (ds.map Discovered.address).Nodup
  real : ∀ d ∈ ds, ∃ s ∈ sightings, describe false (scanner.name s) s = some d
  all : ∀ s ∈ sightings, (∀ s' ∈ sightings, s'.address = s.address →
    (describe false (scanner.name s') s').isSome) → s.address ∈ ds.map Discovered.address

lemma lists_discover (sightings : List (Sighting A)) :
    Lists sightings .python (Python.discover true (Python.latest sightings)) := by
  have hlatest := latest_spec sightings
  have hperm := List.perm_insertionSort (fun d d' : Discovered A => -d.rssi ≤ -d'.rssi)
    ((Python.latest sightings).filterMap (Python.discovered true))
  constructor
  · refine ((hperm.map _).nodup_iff).mpr ?_
    refine List.pairwise_map.mpr (List.pairwise_filterMap.mpr ?_)
    refine (List.pairwise_map.mp hlatest.once).imp ?_
    intro s s' hdiffer d hd d' hd'
    obtain ⟨version, flags, -, rfl⟩ := describe_some hd
    obtain ⟨version', flags', -, rfl⟩ := describe_some hd'
    exact hdiffer
  · intro d hd
    obtain ⟨s, hs, hd⟩ := List.mem_filterMap.mp (hperm.mem_iff.mp hd)
    exact ⟨s, hlatest.real s hs, hd⟩
  · intro s hs hpasses
    obtain ⟨s', hs', haddress⟩ := List.mem_map.mp (hlatest.all s hs)
    obtain ⟨d, hd⟩ := Option.isSome_iff_exists.mp (hpasses s' (hlatest.real s' hs') haddress)
    refine List.mem_map.mpr ⟨d, hperm.mem_iff.mpr (List.mem_filterMap.mpr ⟨s', hs', hd⟩), ?_⟩
    obtain ⟨version, flags, -, rfl⟩ := describe_some hd
    exact haddress

lemma lists_scan (sightings : List (Sighting A)) {scanner : Scanner}
    (phone : ∀ s : Sighting A, scanner.name s = s.localName.or s.deviceName) :
    Lists sightings scanner (Phone.scan false sightings) := by
  have hscan := scan_spec sightings
  constructor
  · have honce := hscan.once
    rw [hscan.seen, List.nodup_reverse] at honce
    exact honce
  · intro d hd
    obtain ⟨s, hs, hd⟩ := hscan.real d hd
    exact ⟨s, hs, phone s ▸ hd⟩
  · intro s hs hpasses
    have hsome := hpasses s hs rfl
    rw [phone] at hsome
    have hseen := hscan.all s hs hsome
    rw [hscan.seen, List.mem_reverse] at hseen
    exact hseen

theorem listed_lists (sightings : List (Sighting A)) (scanner : Scanner) :
    Lists sightings scanner (listed sightings scanner) := by
  cases scanner with
  | python => exact lists_discover sightings
  | kotlin | swift => exact lists_scan sightings fun _ => rfl

end Listed

/-- A device, as it is switched on. -/
structure Site where
  board : Board
  chip : Chip
  connAttempts : UInt32
  settings : CredStore.CredKind → Option Bytes
  read : CredStore.CredKind → Settings.Read
  creds : List WifiConfig.Credential

def Site.boot (site : Site) : Life :=
  Advertising.boot site.board.build site.connAttempts site.settings site.read site.creds

/-- The devices with this firmware, at the addresses `D`, and what a client that scans has heard of
them and of the other addresses `O`. -/
structure Scene (D O : Type) where
  life : D → Life
  heard : List (Sighting (D ⊕ O))

/-- A device may be received at any time, `cached` being the name by which the operating system of
the client knows it. -/
inductive SceneEv (D O : Type) where
  | live (a : D) (e : Advertising.Ev)
  | hear (a : D) (cached : Option (List Char)) (rssi : Option Int)
  | other (s : Sighting O)

/-- The calls to the controller succeed. -/
def SceneEv.Works {D O : Type} : SceneEv D O → Prop
  | .live _ e => Advertising.Works e
  | _ => True

/-- The advertisement of a device, as it is received. -/
def sighting {D O : Type} (a : D) (cached : Option (List Char)) (rssi : Option Int) (ad : Advert) :
    Sighting (D ⊕ O) :=
  ⟨.inl a, cached, some ad.name, rssi, some [ad.version, ad.flags]⟩

namespace Scene

variable {D O : Type} [DecidableEq D] (site : D → Site)

def step (s : Scene D O) : SceneEv D O → Scene D O
  | .live a e => { s with
      life := Function.update s.life a
        (Advertising.step (site a).board (site a).chip (s.life a) e) }
  | .hear a cached rssi =>
    match (s.life a).radio.air with
    | none => s
    | some ad => { s with heard := s.heard ++ [sighting a cached rssi ad] }
  | .other o => { s with
      heard := s.heard ++ [⟨.inr o.address, o.deviceName, o.localName, o.rssi, o.serviceData⟩] }

/-- All devices are switched on, and the scan begins. -/
def after (es : List (SceneEv D O)) : Scene D O :=
  es.foldl (step site) ⟨fun a => (site a).boot, []⟩

end Scene

/-- What a client shows of a device, for an advertisement that it has received. -/
structure Discovered.Shows {A : Type} (scanner : Scanner) (chip : Chip)
    (cached : Option (List Char)) (rssi : Option Int) (d : Discovered A) : Prop where
  provisioning : d.provisioning = true
  version : (d.pouchVersion, d.gattVersion) = (chip.version.toNat / 16, chip.version.toNat % 16)
  strength : d.rssi = rssi.getD 0
  name : d.name = match scanner with
    | .python => (Python.given cached).or (some (deviceName chip))
    | .kotlin => some (deviceName chip)
    | .swift => some (deviceName chip)

/-- What a scan finds. A device that is received while its manager runs without a link is listed.
Each address is listed once. A device that is listed has been received while its manager ran, and
is shown as it was then. -/
structure Finds {D O : Type} [DecidableEq D] [DecidableEq O] (site : D → Site)
    (es : List (SceneEv D O)) (scanner : Scanner) : Prop where
  once : ((listed (Scene.after site es).heard scanner).map Discovered.address).Nodup
  found : ∀ es₁ a cached rssi es₂, es = es₁ ++ .hear a cached rssi :: es₂ →
    ((Scene.after site es₁).life a).dev.running = true →
    ((Scene.after site es₁).life a).up = 0 → ((Scene.after site es₁).life a).gone = 0 →
    .inl a ∈ (listed (Scene.after site es).heard scanner).map Discovered.address
  real : ∀ d ∈ listed (Scene.after site es).heard scanner, ∀ a, d.address = .inl a →
    ∃ es₁ cached rssi es₂, es = es₁ ++ .hear a cached rssi :: es₂ ∧
      ((Scene.after site es₁).life a).dev.running = true ∧
      d.Shows scanner (site a).chip cached rssi

section Described

variable {D O : Type} {chip : Chip} {ad : Advert}

lemma deviceName_length (chip : Chip) : (deviceName chip).length = chip.stem.length + 6 := by
  simp [deviceName, hex]

lemma given_deviceName (chip : Chip) :
    Python.given (some (deviceName chip)) = some (deviceName chip) := by
  have hsome : deviceName chip ≠ [] := by
    intro hnil
    have hlength := deviceName_length chip
    rw [hnil, List.length_nil] at hlength
    omega
  simp [Python.given, hsome]

/-- Every client makes a device of what a device in provisioning mode advertises. -/
lemma describe_sighting (h : ad.Provisioning chip) (name : Option (List Char)) (a : D)
    (cached : Option (List Char)) (rssi : Option Int) :
    describe false name (sighting a cached rssi ad : Sighting (D ⊕ O)) =
      some ⟨name, .inl a, rssi.getD 0, true, chip.version.toNat / 16,
        chip.version.toNat % 16⟩ := by
  have hflag : isProvisioning ad.flags = true := decide_eq_true h.flag
  simp [describe, Sighting.service, sighting, hflag, h.version]

lemma shows_sighting (h : ad.Provisioning chip) {scanner : Scanner} {a : D}
    {cached : Option (List Char)} {rssi : Option Int} {d : Discovered (D ⊕ O)}
    (described : describe false
      (scanner.name (sighting a cached rssi ad : Sighting (D ⊕ O)))
      (sighting a cached rssi ad) = some d) :
    d.Shows scanner chip cached rssi := by
  rw [describe_sighting h] at described
  obtain rfl := Option.some.inj described
  refine ⟨rfl, rfl, rfl, ?_⟩
  cases scanner with
  | python => simp [Scanner.name, sighting, h.name, given_deviceName]
  | kotlin | swift => simp [Scanner.name, sighting, h.name]

end Described

namespace Scene

variable {D O : Type} [DecidableEq D] {site : D → Site} {es : List (SceneEv D O)}

/-- Every device is as its own events alone would have it. -/
def Sound (site : D → Site) (s : Scene D O) : Prop :=
  ∀ a, Follows (site a).chip (s.life a) ∧ OnAir (site a).chip (s.life a)

lemma Sound.step {s : Scene D O} (h : s.Sound site) {e : SceneEv D O} (works : e.Works) :
    (s.step site e).Sound site := by
  cases e with
  | live a e =>
    intro a'
    by_cases hsame : a' = a
    · subst hsame
      simp only [Scene.step, Function.update_self]
      exact ⟨step_follows (h a').1 (h a').2 e, step_onAir (h a').1 (h a').2 works⟩
    · simp only [Scene.step, Function.update_of_ne hsame]
      exact h a'
  | hear a cached rssi =>
    rw [Scene.step]
    split <;> exact h
  | other o => exact h

lemma after_sound (works : ∀ e ∈ es, e.Works) : (after site es).Sound site :=
  (always_of_each (I := Sound site) (C := fun _ e => e.Works) (fun _ _ h hworks => h.step hworks)
    (fun _ => boot_onAir _ _ _ _ _ _) (each_of_mem _ works)).final

lemma after_concat (es : List (SceneEv D O)) (e : SceneEv D O) :
    after site (es ++ [e]) = (after site es).step site e := by
  rw [after, List.foldl_concat, after]

/-- A device that is on the air can be heard. -/
lemma heard_hear {a : D} {ad : Advert} (air : ((after site es).life a).radio.air = some ad)
    (cached : Option (List Char)) (rssi : Option Int) :
    sighting a cached rssi ad ∈ (after site (es ++ [.hear a cached rssi])).heard := by
  rw [after_concat, step, air]
  exact List.mem_append_right _ List.mem_cons_self

/-- What has been heard is not forgotten. -/
lemma heard_append {s : Sighting (D ⊕ O)} (heard : s ∈ (after site es).heard)
    (later : List (SceneEv D O)) : s ∈ (after site (es ++ later)).heard := by
  rw [after, List.foldl_append]
  refine foldl_invariant (I := fun t : Scene D O => s ∈ t.heard) ?_ heard later
  intro t e h
  cases e with
  | live a e => exact h
  | hear a cached rssi =>
    rw [step]
    split
    · exact h
    · exact List.mem_append_left _ h
  | other o => exact List.mem_append_left _ h

/-- A device that has been heard was on the air. -/
lemma heard_real {s : Sighting (D ⊕ O)} (heard : s ∈ (after site es).heard) {a : D}
    (address : s.address = .inl a) :
    ∃ es₁ cached rssi es₂ ad, es = es₁ ++ .hear a cached rssi :: es₂ ∧
      ((after site es₁).life a).radio.air = some ad ∧ s = sighting a cached rssi ad := by
  induction es using List.reverseRecOn with
  | nil => exact absurd heard List.not_mem_nil
  | append_singleton es e ih =>
    have hpast : s ∈ (after site es).heard → ∃ es₁ cached rssi es₂ ad,
        es ++ [e] = es₁ ++ .hear a cached rssi :: es₂ ∧
          ((after site es₁).life a).radio.air = some ad ∧ s = sighting a cached rssi ad := by
      intro h
      obtain ⟨es₁, cached, rssi, es₂, ad, hes, hair, hs⟩ := ih h
      exact ⟨es₁, cached, rssi, es₂ ++ [e], ad, by simp [hes], hair, hs⟩
    rw [after_concat] at heard
    cases e with
    | live a' e => exact hpast heard
    | hear a' cached rssi =>
      rw [step] at heard
      split at heard
      · exact hpast heard
      · rename_i ad hair
        rcases List.mem_append.mp heard with hold | hnew
        · exact hpast hold
        · obtain rfl := List.mem_singleton.mp hnew
          obtain rfl := Sum.inl.inj address
          exact ⟨es, cached, rssi, [], ad, rfl, hair, rfl⟩
    | other o =>
      rcases List.mem_append.mp heard with hold | hnew
      · exact hpast hold
      · obtain rfl := List.mem_singleton.mp hnew
        cases address

end Scene

/-- Whatever the devices do while a client scans, in every order, and whatever else is near. -/
theorem scan_finds_provisioning {D O : Type} [DecidableEq D] [DecidableEq O] (site : D → Site)
    {es : List (SceneEv D O)} (works : ∀ e ∈ es, e.Works) (scanner : Scanner) :
    Finds site es scanner := by
  have hlists := listed_lists (Scene.after site es).heard scanner
  have hsound : ∀ es₁ es₂, es = es₁ ++ es₂ → (Scene.after site es₁).Sound site := by
    rintro es₁ es₂ rfl
    exact Scene.after_sound fun e he => works e (List.mem_append_left _ he)
  constructor
  · exact hlists.once
  · intro es₁ a cached rssi es₂ hes hruns hup hgone
    obtain ⟨ad, hair⟩ := Option.isSome_iff_exists.mp
      ((hsound es₁ _ hes a).2.found hruns hup hgone)
    have hheard : sighting a cached rssi ad ∈ (Scene.after site es).heard := by
      rw [hes, List.append_cons]
      exact Scene.heard_append (Scene.heard_hear hair cached rssi) es₂
    refine hlists.all _ hheard fun s hs haddress => ?_
    obtain ⟨es₁, cached, rssi, es₂, ad, hes, hair, rfl⟩ := Scene.heard_real hs haddress
    rw [describe_sighting ((hsound es₁ _ hes a).2.running ad hair).2]
    rfl
  · intro d hd a haddress
    obtain ⟨s, hs, hdescribed⟩ := hlists.real d hd
    have hs' : s.address = .inl a := by
      obtain ⟨version, flags, -, rfl⟩ := describe_some hdescribed
      exact haddress
    obtain ⟨es₁, cached, rssi, es₂, ad, hes, hair, rfl⟩ := Scene.heard_real hs hs'
    obtain ⟨hruns, hprovisioning⟩ := (hsound es₁ _ hes a).2.running ad hair
    exact ⟨es₁, cached, rssi, es₂, hes, hruns, shows_sighting hprovisioning hdescribed⟩

/-- A device that is heard before it is started and afterwards. -/
def sampleSite : Site := ⟨sampleBoard, sampleChip, 1, fun _ => none, fun _ => .whole, []⟩

def sampleScan : List (SceneEv Unit Empty) :=
  [.hear () none none, .live () (.start {} true), .hear () none (some (-40))]

theorem scan_finds_provisioning_sample :
    Finds (fun _ => sampleSite) sampleScan .python ∧
      .inl () ∈ (listed (Scene.after (fun _ => sampleSite) sampleScan).heard .python).map
        Discovered.address := by
  have hworks : ∀ e ∈ sampleScan, e.Works := by
    simp only [sampleScan, List.mem_cons, List.not_mem_nil, or_false, forall_eq_or_imp, forall_eq]
    exact ⟨trivial, trivial, trivial⟩
  have hfinds := scan_finds_provisioning (fun _ => sampleSite) hworks .python
  exact ⟨hfinds, hfinds.found [.hear () none none, .live () (.start {} true)] () none (some (-40))
    [] rfl rfl rfl rfl⟩

end Discovery
