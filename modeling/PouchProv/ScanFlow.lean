import PouchProv.CborRoundTrip
import PouchProv.CredPush
import PouchProv.ForwardCompat
import PouchProv.ScanRuns

/-!
# The scan flow

`scan` of `flows.py`, `Flows.kt` and `Flows.swift`, with every request answered by
`pouch_prov_handle_scan` and the driver free to report between the requests. The
client goes on from the number of entries that it has; the device ends a page at
the requested count, at its page limit or at the end of the cache. After `i` pages
the client has the first `i * m` entries of the cache, for `m` the lesser of the
count and the limit (`collect_ok`).

The codecs are assumed to implement the schema: the device reads the requests of
the clients, and the clients read the responses to a scan as what they are.
-/

namespace ScanFlow

open Bytes Cbor Codec Handlers Status ClientReader ClientRequests
open Clients (CborValue Python utf8Decode_utf8)
open CborRoundTrip (Decodes Keyed AllKeyed inTurn decode_encode kotlin_takes swift_takes)
open ClientCbor (item items item_int)
open CredPush (ReadsRequests)
open ClientResponses (Dicts)
open ForwardCompat (Client)
open ProvTypes (ScanRsp)
open Requests (answer_ok_iff)
open ScanRuns (Typed entryItem encodeScanEntry_typed mapM_typed magnitude)

/-- `encode_results`, with a limit in place of `PAGE_MAX`. -/
def encodeResults (limit : Nat) (sc : Scan) (start want : Nat) : Except Errno Bytes :=
  answer (encodeScanRsp (.resultsRsp .ok ((sc.entries.drop start).take (min want limit))))

/-- The handler with that limit. -/
def handleScanWith (limit : Nat) (z : Zcbor) (env : ScanEnv) (sc : Scan) (req : Bytes) :
    Except Errno Bytes × Scan :=
  match decodeWith z decodeScanReq req with
  | some (.getResults start count) => (encodeResults limit sc start count, sc)
  | _ => handleScan z env sc req

theorem handleScanWith_pageMax (z : Zcbor) (env : ScanEnv) (sc : Scan) (req : Bytes) :
    handleScanWith pageMax z env sc req = handleScan z env sc req := by
  rw [handleScanWith]
  split
  · rename_i start count hreq
    simp only [handleScan, hreq, encodeResults, page]
  · rfl

/-- What a flow meets: the reader and the page limit of the device, what the driver answers to
the start, what it reports before each request, and whether a poll ends behind the deadline. -/
structure Peer where
  z : Zcbor
  limit : Nat
  env : ScanEnv
  driver : Nat → Scan → Scan
  late : Nat → Bool

/-- The entries that a device can hold: no more than `SCAN_MAX`, which is an `int`, with fields
in the range of their types. -/
structure Cached (build : Build) (es : List ProvTypes.ScanEntry) : Prop where
  size : es.length ≤ build.scanCache
  max : build.scanCache < 2 ^ 31
  typed : ∀ e ∈ es, Typed e

/-- How many requests were sent, and the cache. -/
structure At where
  sent : Nat
  sc : Scan
  deriving DecidableEq

/-- The numbers in an entry: what `cbor2` returned, or an `Int`. -/
def Number : Client → Type
  | .python py _ => py.Obj
  | .kotlin _ => Int
  | .swift _ => Int

abbrev Entry (c : Client) : Type := ClientResponses.ScanEntry (Number c)

def requestBytes (r : Request) : Client → Option Bytes
  | .python py _ => r.python py
  | .kotlin _ => r.kotlin
  | .swift _ => r.swift

def decodeScanStartRsp (data : Bytes) : Client → Option Unit
  | .python py _ => (ClientResponses.Python.decodeScanStartRsp py data).toOption
  | .kotlin t => (ClientResponses.Kotlin.decodeScanStartRsp t data).toOption
  | .swift t => (ClientResponses.Swift.decodeScanStartRsp t data).toOption

def decodeScanStatusRsp (data : Bytes) : Client → Option (Bool × Int)
  | .python py _ => (ClientResponses.Python.decodeScanStatusRsp py data).toOption
  | .kotlin t => (ClientResponses.Kotlin.decodeScanStatusRsp t data).toOption
  | .swift t => (ClientResponses.Swift.decodeScanStatusRsp t data).toOption

def decodeScanResultsRsp (data : Bytes) : (c : Client) → Option (List (Entry c))
  | .python py dicts => (ClientResponses.Python.decodeScanResultsRsp py dicts data).toOption
  | .kotlin t => (ClientResponses.Kotlin.decodeScanResultsRsp t data).toOption
  | .swift t => (ClientResponses.Swift.decodeScanResultsRsp t data).toOption

/-- Why a flow ends without a result. A flow that runs out of fuel is not over. -/
inductive Stop where
  | encode
  | refused
  | decode
  | timeout
  | unfinished
  deriving DecidableEq, Repr

section Flow

variable (c : Client) (p : Peer)

/-- `session.request` and the decoder of its response. -/
def ask {α : Type} (r : Request) (decode : Bytes → Option α) (s : At) : Except Stop (α × At) :=
  match requestBytes r c with
  | none => .error .encode
  | some req =>
    match handleScanWith p.limit p.z p.env (p.driver s.sent s.sc) req with
    | (.error _, _) => .error .refused
    | (.ok rsp, sc) =>
      match decode rsp with
      | none => .error .decode
      | some a => .ok (a, ⟨s.sent + 1, sc⟩)

/-- The first loop of `scan`: the total of the status that says finished. -/
def poll : Nat → At → Except Stop (Int × At)
  | 0, _ => .error .unfinished
  | fuel + 1, s => do
    let ((finished, total), s) ← ask c p .scanGetStatus (decodeScanStatusRsp · c) s
    if finished then .ok (total, s)
    else if p.late s.sent then .error .timeout
    else poll fuel s

/-- The second loop. -/
def collect (total : Int) : Nat → List (Entry c) → At → Except Stop (List (Entry c))
  | 0, _, _ => .error .unfinished
  | fuel + 1, results, s =>
    if results.length < total then do
      let (page, s) ← ask c p (.scanGetResults results.length 6) (decodeScanResultsRsp · c) s
      if page.isEmpty then .ok results else collect total fuel (results ++ page) s
    else .ok results

def scan (polls pages : Nat) (s : At) : Except Stop (List (Entry c)) := do
  let ((), s) ← ask c p (.scanStart none none) (decodeScanStartRsp · c) s
  let (total, s) ← poll c p polls s
  collect c p total pages [] s

end Flow

section Python

variable {py : Python} (dicts : Dicts py)

mutual

/-- The object is what the item says. -/
def Means : Item → py.Obj → Prop
  | .uint n, o => (∀ i, py.equalsInt o i = decide (i = (n : Int))) ∧ py.int o = some (n : Int)
  | .nint n, o => py.int o = some (-1 - (n : Int))
  | .bstr b, o => py.bytes o = some b
  | .tstr b, o => ∃ s, dicts.text o = some s ∧ utf8 s = b
  | .array xs, o => ∃ os, py.list o = some os ∧ AllMean xs os
  | .map kvs, o => ∃ es, dicts.entries o = some es ∧ AllMean kvs (inTurn es)
  | .prim info _, o => (info = 20 → py.truthy o = false) ∧ (info = 21 → py.truthy o = true)
  | .tag _ _, _ => True

def AllMean : List Item → List py.Obj → Prop
  | [], [] => True
  | x :: xs, o :: os => Means x o ∧ AllMean xs os
  | _, _ => False

end

/-- `cbor2` reads the responses to scan requests as what they are. -/
def ReadsScan : Prop :=
  ∀ (r : ScanRsp) (x : Item), encodeScanRsp r = some x → (encode x).length ≤ msgMax →
    ∃ o n, py.loads (encode x) = some (o, n) ∧ Means dicts x o

end Python

/-- `cbor2` writes what the Python client gives it. -/
def WritesRequests : Client → Prop
  | .python py _ => Writes py
  | _ => True

/-- The CBOR library of the client writes and reads what it should. -/
def Understands : Client → Prop
  | .python py dicts => Writes py ∧ ReadsScan dicts
  | .kotlin t => Decodes t
  | .swift t => Decodes t

/-- The number is the given one. An `Int` of Kotlin has 32 bits, and a security type of
`2 ^ 31` or more wraps in it. -/
def Holds (i : Int) : (c : Client) → Number c → Prop
  | .python py _, x => py.int x = some i
  | .kotlin _, x => x = i.bmod (2 ^ 32)
  | .swift _, x => x = i

/-- The entry of the client is the entry of the cache. -/
structure Shows (c : Client) (e : ProvTypes.ScanEntry) (r : Entry c) : Prop where
  ssid : r.ssid = e.ssid
  bssid : r.bssid = e.bssid
  channel : Holds e.ch c r.channel
  rssi : Holds e.rssi c r.rssi
  auth : Holds e.auth c r.auth

def statusValue (finished : Bool) (total : Nat) : CborValue :=
  .array [.int 1, .int 0, .bool finished, .int (Int64.ofNat total)]

def entryValue (e : ProvTypes.ScanEntry) : CborValue :=
  .map [(.text "ssid", .bytes e.ssid), (.text "bssid", .bytes e.bssid),
    (.text "ch", .int (Int64.ofNat e.ch)), (.text "rssi", .int (Int64.ofInt e.rssi)),
    (.text "auth", .int (Int64.ofNat e.auth))]

def resultsValue (es : List ProvTypes.ScanEntry) : CborValue :=
  .array [.int 2, .int 0, .array (es.map entryValue)]

lemma status_item (finished : Bool) {total : Nat} (fits : total < 2 ^ 32) :
    encodeScanRsp (.statusRsp .ok finished total) = some (item (statusValue finished total)) := by
  have htotal : item (.int (Int64.ofNat total)) = u32 total := by
    rw [item_int (by omega), u32, Nat.mod_eq_of_lt fits]
  simp only [encodeScanRsp, statusValue, item, items] at htotal ⊢
  rw [htotal]
  rfl

lemma rssi_toInt {i : Int} (h : magnitude i < 2 ^ 7) : (Int64.ofInt i).toInt = i := by
  rw [magnitude] at h
  split at h <;> exact Int64.toInt_ofInt_of_le (by omega) (by omega)

lemma rssi_item {i : Int} (h : magnitude i < 2 ^ 7) : item (.int (Int64.ofInt i)) = i32 i := by
  rw [item, rssi_toInt h, i32]
  rw [magnitude] at h
  split at h
  · rename_i hpos
    rw [if_pos hpos, if_pos hpos, Nat.mod_eq_of_lt (by omega)]
  · rename_i hneg
    rw [if_neg hneg, if_neg hneg, Nat.mod_eq_of_lt (by omega)]

lemma entry_item {e : ProvTypes.ScanEntry} (typed : Typed e) :
    item (entryValue e) = entryItem e := by
  have hch := typed.ch
  have hauth := typed.auth
  simp only [entryValue, item.eq_7, ClientCbor.pairItems, rssi_item typed.rssi]
  rw [item_int (by omega), item_int (by omega), entryItem, u32, u32, Nat.mod_eq_of_lt (by omega),
    Nat.mod_eq_of_lt hauth]
  rfl

lemma entries_items {es : List ProvTypes.ScanEntry} (typed : ∀ e ∈ es, Typed e) :
    items (es.map entryValue) = es.map entryItem := by
  induction es with
  | nil => rfl
  | cons e es ih =>
    rw [List.map_cons, items, entry_item (typed e List.mem_cons_self),
      ih fun e he => typed e (List.mem_cons_of_mem _ he), List.map_cons]

lemma results_item {es : List ProvTypes.ScanEntry} (few : es.length ≤ 8)
    (typed : ∀ e ∈ es, Typed e) :
    encodeScanRsp (.resultsRsp .ok es) = some (item (resultsValue es)) := by
  simp only [encodeScanRsp, if_pos few, mapM_typed typed, Option.map_some, resultsValue, item,
    items, entries_items typed]
  rfl

lemma statusValue_keyed (finished : Bool) (total : Nat) : Keyed (statusValue finished total) :=
  ⟨trivial, trivial, trivial, trivial, trivial⟩

lemma entryValue_keyed (e : ProvTypes.ScanEntry) : Keyed (entryValue e) :=
  ⟨by simp [DistinctKeys, sameKey], ⟨_, rfl⟩, trivial, ⟨_, rfl⟩, trivial, ⟨_, rfl⟩, trivial,
    ⟨_, rfl⟩, trivial, ⟨_, rfl⟩, trivial, trivial⟩

lemma resultsValue_keyed (es : List ProvTypes.ScanEntry) : Keyed (resultsValue es) := by
  have hall : AllKeyed (es.map entryValue) := by
    induction es with
    | nil => trivial
    | cons e es ih => exact ⟨entryValue_keyed e, ih⟩
  exact ⟨trivial, trivial, hall, trivial⟩

section Decoders

variable {t : Texts}

lemma narrow_bmod (v : Int64) : narrow v = v.toInt.bmod (2 ^ 32) := by
  rw [narrow, Int64.toInt_toInt32]

lemma kotlin_reads (decodes : Decodes t) {v : CborValue} (keyed : Keyed v)
    (short : (encode (item v)).length < 2 ^ 31) {d : ClientResponses.Decoder}
    {y : d.Value Int String}
    (means : ClientResponses.Means (ClientResponses.Kotlin.taking t) d v y) :
    ClientResponses.Kotlin.decodeRsp t (encode (item v)) d = .ok y :=
  ClientResponses.Kotlin.decodeRsp_ok_iff.mpr ⟨v, decode_encode (kotlin_takes decodes) keyed short,
    means⟩

lemma swift_reads (decodes : Decodes t) {v : CborValue} (keyed : Keyed v)
    (short : (encode (item v)).length < 2 ^ 31) {d : ClientResponses.Decoder}
    {y : d.Value Int String} (means : ClientResponses.Means ClientResponses.Swift.taking d v y) :
    ClientResponses.Swift.decodeRsp t (encode (item v)) d = .ok y :=
  ClientResponses.Swift.decodeRsp_ok_iff.mpr ⟨v, decode_encode (swift_takes decodes) keyed short,
    means⟩

lemma status_means {c : ClientResponses.Taking} (keeps : c.KeepsSmall) (finished : Bool)
    {total : Nat} (fits : total < 2 ^ 31) :
    ClientResponses.Means c .scanStatus (statusValue finished total)
      ((finished, (total : Int)) : Bool × Int) :=
  ⟨1, 0, _, rfl, keeps _ (show 1 < 2 ^ 31 by decide), keeps _ (show 0 < 2 ^ 31 by decide),
    _, rfl, rfl, keeps _ fits⟩

/-- The entry that an app makes. -/
def appEntry (c : ClientResponses.Taking) (e : ProvTypes.ScanEntry) :
    ClientResponses.ScanEntry Int :=
  ⟨e.ssid, e.bssid, c.number (Int64.ofNat e.ch), c.number (Int64.ofInt e.rssi),
    c.number (Int64.ofNat e.auth)⟩

lemma results_yield (c : ClientResponses.Taking) (es : List ProvTypes.ScanEntry) :
    ClientResponses.ScanResultsYields c [.array (es.map entryValue)] (es.map (appEntry c)) := by
  refine ⟨_, rfl, ?_⟩
  rw [List.forall₂_map_left_iff, List.forall₂_map_right_iff, List.forall₂_same]
  exact fun e _ => ⟨_, rfl, rfl, rfl, rfl, rfl, rfl⟩

lemma results_mean {c : ClientResponses.Taking} (keeps : c.KeepsSmall)
    (es : List ProvTypes.ScanEntry) :
    ClientResponses.Means c .scanResults (resultsValue es) (es.map (appEntry c)) :=
  ⟨2, 0, _, rfl, keeps _ (show 2 < 2 ^ 31 by decide), keeps _ (show 0 < 2 ^ 31 by decide),
    results_yield c es⟩

lemma kotlinEntry_shows {e : ProvTypes.ScanEntry} (typed : Typed e) :
    Shows (.kotlin t) e (appEntry (ClientResponses.Kotlin.taking t) e) where
  ssid := rfl
  bssid := rfl
  channel := by
    have hch := typed.ch
    exact (narrow_bmod _).trans (congrArg (Int.bmod · (2 ^ 32))
      (Int64.toInt_ofNat_of_lt (by omega)))
  rssi := (narrow_bmod _).trans (congrArg (Int.bmod · (2 ^ 32)) (rssi_toInt typed.rssi))
  auth := by
    have hauth := typed.auth
    exact (narrow_bmod _).trans (congrArg (Int.bmod · (2 ^ 32))
      (Int64.toInt_ofNat_of_lt (by omega)))

lemma swiftEntry_shows {e : ProvTypes.ScanEntry} (typed : Typed e) :
    Shows (.swift t) e (appEntry ClientResponses.Swift.taking e) where
  ssid := rfl
  bssid := rfl
  channel := by
    have hch := typed.ch
    exact Int64.toInt_ofNat_of_lt (by omega)
  rssi := rssi_toInt typed.rssi
  auth := by
    have hauth := typed.auth
    exact Int64.toInt_ofNat_of_lt (by omega)

end Decoders

section PythonDecoders

variable {py : Python} {dicts : Dicts py}

lemma allMean_cons {x : Item} {xs : List Item} {os : List py.Obj}
    (h : AllMean dicts (x :: xs) os) :
    ∃ o os', os = o :: os' ∧ Means dicts x o ∧ AllMean dicts xs os' := by
  cases os with
  | nil => exact h.elim
  | cons o os => exact ⟨o, os, rfl, h⟩

lemma allMean_entry {k v : Item} {kvs : List Item} {es : List (py.Obj × py.Obj)}
    (h : AllMean dicts (k :: v :: kvs) (inTurn es)) :
    ∃ k' v' es', es = (k', v') :: es' ∧ Means dicts k k' ∧ Means dicts v v' ∧
      AllMean dicts kvs (inTurn es') := by
  cases es with
  | nil => exact h.elim
  | cons kv es => exact ⟨kv.1, kv.2, es, rfl, h.1, h.2.1, h.2.2⟩

lemma means_text {s : String} {o : py.Obj} (h : Means dicts (text s) o) :
    dicts.text o = some s := by
  obtain ⟨s', htext, heq⟩ := h
  rw [htext, ← utf8Decode_utf8 s', heq, utf8Decode_utf8]

lemma means_i32 {i : Int} {o : py.Obj} (small : magnitude i < 2 ^ 7) (h : Means dicts (i32 i) o) :
    py.int o = some i := by
  rw [magnitude] at small
  rw [i32] at h
  split at h
  · rename_i hpos
    rw [if_pos hpos] at small
    rw [Nat.mod_eq_of_lt (by omega)] at h
    rw [h.2, Int.toNat_of_nonneg hpos]
  · rename_i hneg
    rw [if_neg hneg] at small
    rw [Nat.mod_eq_of_lt (by omega)] at h
    have hint : py.int o = _ := h
    rw [hint]
    congr 1
    omega

lemma means_u32 {n : Nat} {o : py.Obj} (small : n < 2 ^ 32) (h : Means dicts (u32 n) o) :
    py.int o = some (n : Int) := by
  rw [u32, Nat.mod_eq_of_lt small] at h
  exact h.2

lemma python_entry {e : ProvTypes.ScanEntry} (typed : Typed e) {o : py.Obj}
    (means : Means dicts (entryItem e) o) :
    ∃ r, ClientResponses.Python.scanEntry py dicts o = .ok r ∧ Shows (.python py dicts) e r := by
  obtain ⟨es, hes, hall⟩ := means
  obtain ⟨k₁, ssid, es, rfl, hk₁, hssid, hall⟩ := allMean_entry hall
  obtain ⟨k₂, bssid, es, rfl, hk₂, hbssid, hall⟩ := allMean_entry hall
  obtain ⟨k₃, ch, es, rfl, hk₃, hch, hall⟩ := allMean_entry hall
  obtain ⟨k₄, rssi, es, rfl, hk₄, hrssi, hall⟩ := allMean_entry hall
  obtain ⟨k₅, auth, es, rfl, hk₅, hauth, hall⟩ := allMean_entry hall
  have hssid : py.bytes ssid = some e.ssid := hssid
  have hbssid : py.bytes bssid = some e.bssid := hbssid
  have hsmall := typed.ch
  refine ⟨⟨e.ssid, e.bssid, ch, rssi, auth⟩, ?_, rfl, rfl, means_u32 (by omega) hch,
    means_i32 typed.rssi hrssi, means_u32 typed.auth hauth⟩
  simp [ClientResponses.Python.scanEntry, ClientResponses.Python.getItem,
    ClientResponses.Python.get, hes, means_text hk₁, means_text hk₂, means_text hk₃,
    means_text hk₄, means_text hk₅, hssid,
    hbssid, ClientResponses.Python.attempt]
  rfl

lemma python_entries {es : List ProvTypes.ScanEntry} (typed : ∀ e ∈ es, Typed e)
    {os : List py.Obj} (means : AllMean dicts (es.map entryItem) os) :
    ∃ rs, os.mapM (ClientResponses.Python.scanEntry py dicts) = .ok rs ∧
      List.Forall₂ (Shows (.python py dicts)) es rs := by
  induction es generalizing os with
  | nil =>
    cases os with
    | nil => exact ⟨[], rfl, .nil⟩
    | cons o os => exact means.elim
  | cons e es ih =>
    obtain ⟨o, os, rfl, hfirst, hrest⟩ := allMean_cons means
    obtain ⟨r, hr, hshows⟩ := python_entry (typed e List.mem_cons_self) hfirst
    obtain ⟨rs, hrs, hall⟩ := ih (fun e he => typed e (List.mem_cons_of_mem _ he)) hrest
    refine ⟨r :: rs, ?_, .cons hshows hall⟩
    rw [List.mapM_cons, hr, hrs]
    rfl

/-- A response is a list with the op, the status zero and the rest. -/
lemma python_response {op : Nat} {xs : List Item} {o : py.Obj} {n : Nat} {data : Bytes}
    (loads : py.loads data = some (o, n))
    (means : Means dicts (.array (.uint op :: .uint 0 :: xs)) o) :
    ∃ op' status os, (∀ context, ClientResponses.Python.decode py data op context =
      .ok (op' :: status :: os)) ∧ AllMean dicts xs os := by
  obtain ⟨objs, hlist, hall⟩ := means
  obtain ⟨o₁, objs, rfl, hop, hall⟩ := allMean_cons hall
  obtain ⟨o₂, os, rfl, hstatus, hall⟩ := allMean_cons hall
  exact ⟨o₁, o₂, os, ClientResponses.Python.decode_head (s := .ok) loads hlist (by simp [hop.1])
    hstatus.1, hall⟩

end PythonDecoders

section Responses

variable {c : Client}

lemma status_read (understands : Understands c) (finished : Bool) {total : Nat}
    (fits : total < 2 ^ 31) {x : Item}
    (hx : encodeScanRsp (.statusRsp .ok finished total) = some x)
    (short : (encode x).length ≤ msgMax) :
    decodeScanStatusRsp (encode x) c = some (finished, (total : Int)) := by
  have hsmall : (encode x).length < 2 ^ 31 := Nat.lt_of_le_of_lt short (by decide)
  have hvalue := status_item finished (show total < 2 ^ 32 by omega)
  cases c with
  | python py dicts =>
    obtain ⟨o, n, hloads, hmeans⟩ := understands.2 _ _ hx short
    obtain rfl := Option.some.inj hx
    obtain ⟨op, status, os, hmsg, hall⟩ := python_response hloads hmeans
    obtain ⟨flag, os, rfl, hflag, hall⟩ := allMean_cons hall
    obtain ⟨count, os, rfl, hcount, hall⟩ := allMean_cons hall
    have htruth : py.truthy flag = finished := by
      cases finished with
      | false => exact hflag.1 rfl
      | true => exact hflag.2 rfl
    have hint : py.int count = some (total : Int) := means_u32 (by omega) hcount
    have hmsg : ClientResponses.Python.decode py _ 1 "scan" = _ := hmsg "scan"
    rw [decodeScanStatusRsp, ClientResponses.Python.decodeScanStatusRsp, hmsg, ← htruth]
    exact congrArg (fun o => (ClientResponses.Python.attempt o >>= fun n =>
      Except.ok (py.truthy flag, n)).toOption) hint
  | kotlin t =>
    obtain rfl := Option.some.inj (hvalue.symm.trans hx)
    exact congrArg Except.toOption (kotlin_reads understands
      (statusValue_keyed finished total) hsmall
      (status_means (ClientResponses.Kotlin.keepsSmall t) finished fits))
  | swift t =>
    obtain rfl := Option.some.inj (hvalue.symm.trans hx)
    exact congrArg Except.toOption (swift_reads understands
      (statusValue_keyed finished total) hsmall
      (status_means ClientResponses.Swift.keepsSmall finished fits))

lemma map_shows {made : ProvTypes.ScanEntry → Entry c}
    (each : ∀ {e}, Typed e → Shows c e (made e)) {es : List ProvTypes.ScanEntry}
    (typed : ∀ e ∈ es, Typed e) : List.Forall₂ (Shows c) es (es.map made) := by
  rw [List.forall₂_map_right_iff, List.forall₂_same]
  exact fun e he => each (typed e he)

lemma results_read (understands : Understands c) {es : List ProvTypes.ScanEntry}
    (few : es.length ≤ 8) (typed : ∀ e ∈ es, Typed e) {x : Item}
    (hx : encodeScanRsp (.resultsRsp .ok es) = some x) (short : (encode x).length ≤ msgMax) :
    ∃ rs, decodeScanResultsRsp (encode x) c = some rs ∧ List.Forall₂ (Shows c) es rs := by
  have hsmall : (encode x).length < 2 ^ 31 := Nat.lt_of_le_of_lt short (by decide)
  cases c with
  | python py dicts =>
    obtain ⟨o, n, hloads, hmeans⟩ := understands.2 _ _ hx short
    simp only [encodeScanRsp, if_pos few, mapM_typed typed, Option.map_some] at hx
    obtain rfl := Option.some.inj hx
    obtain ⟨op, status, os, hmsg, hall⟩ := python_response hloads hmeans
    obtain ⟨list, os, rfl, hlist, hall⟩ := allMean_cons hall
    obtain ⟨entries, hentries, hall⟩ := hlist
    obtain ⟨rs, hrs, hshows⟩ := python_entries typed hall
    have hmsg : ClientResponses.Python.decode py _ 2 "scan" = _ := hmsg "scan"
    have hiter := ClientResponses.Python.attempt_some (dicts.iter_list hentries)
    refine ⟨rs, ?_, hshows⟩
    rw [decodeScanResultsRsp, ClientResponses.Python.decodeScanResultsRsp, hmsg]
    exact congrArg Except.toOption
      ((congrArg (· >>= List.mapM (ClientResponses.Python.scanEntry py dicts)) hiter).trans hrs)
  | kotlin t =>
    obtain rfl := Option.some.inj ((results_item few typed).symm.trans hx)
    exact ⟨_, congrArg Except.toOption (kotlin_reads understands (resultsValue_keyed es) hsmall
      (results_mean (ClientResponses.Kotlin.keepsSmall t) es)),
      map_shows (c := .kotlin t) kotlinEntry_shows typed⟩
  | swift t =>
    obtain rfl := Option.some.inj ((results_item few typed).symm.trans hx)
    exact ⟨_, congrArg Except.toOption (swift_reads understands (resultsValue_keyed es) hsmall
      (results_mean ClientResponses.Swift.keepsSmall es)),
      map_shows (c := .swift t) swiftEntry_shows typed⟩

end Responses

section Loops

variable {c : Client} {p : Peer}

lemma Understands.writes (understands : Understands c) : WritesRequests c := by
  cases c with
  | python py dicts => exact understands.1
  | kotlin t => trivial
  | swift t => trivial

lemma requestBytes_eq (writes : WritesRequests c) {r : Request} (bounds : r.InBounds) :
    requestBytes r c = some (encode r.item) := by
  cases c with
  | python py dicts => exact python_bytes writes bounds
  | kotlin t => exact kotlin_bytes bounds
  | swift t => exact swift_bytes bounds

lemma handle_status {z : Zcbor} (reads : ReadsRequests z) (limit : Nat) (env : ScanEnv)
    (sc : Scan) :
    handleScanWith limit z env sc (encode Request.scanGetStatus.item) =
      (answer (encodeScanRsp (.statusRsp .ok sc.finished sc.entries.length)), sc) := by
  have hread := reads .scanGetStatus trivial (by decide)
  have hdecode : decodeWith z decodeScanReq (encode Request.scanGetStatus.item) =
      some .getStatus := by
    rw [decodeWith]
    exact congrArg (Option.bind · decodeScanReq) hread
  simp only [handleScanWith, handleScan, hdecode]

lemma handle_results {z : Zcbor} (reads : ReadsRequests z) (limit : Nat) (env : ScanEnv)
    (sc : Scan) {start : Nat} (small : start < 2 ^ 31) :
    handleScanWith limit z env sc (encode (Request.scanGetResults start 6).item) =
      (encodeResults limit sc start 6, sc) := by
  have hlength : (encode (Request.scanGetResults start 6).item).length ≤ msgMax := by
    have hstart := head_length_le 0 (show start < 2 ^ 32 by omega)
    have hheads : (head 4 3).length = 1 ∧ (head 0 2).length = 1 ∧ (head 0 6).length = 1 := by
      decide
    simp only [Request.item, encode, encodeAll, List.length_append, List.length_cons,
      List.length_nil, Nat.reduceAdd, hheads, msgMax]
    omega
  have hread := reads (.scanGetResults start 6) ⟨small, by decide⟩ hlength
  have hdecode : decodeWith z decodeScanReq (encode (Request.scanGetResults start 6).item) =
      some (.getResults start 6) := by
    have huint : ∀ n < 2 ^ 32, uint32 (.uint n) = some n := fun n hn => if_pos hn
    rw [decodeWith, hread]
    simp [Request.item, decodeScanReq, huint start (by omega), huint 6 (by decide)]
  simp only [handleScanWith, hdecode]

lemma ask_ok {α : Type} {r : Request} {decode : Bytes → Option α} {s s' : At} {a : α}
    (writes : WritesRequests c) (bounds : r.InBounds) (h : ask c p r decode s = .ok (a, s')) :
    ∃ rsp, handleScanWith p.limit p.z p.env (p.driver s.sent s.sc) (encode r.item) =
      (.ok rsp, s'.sc) ∧ decode rsp = some a ∧ s'.sent = s.sent + 1 := by
  rw [ask, requestBytes_eq writes bounds] at h
  simp only [] at h
  split at h
  · cases h
  · rename_i rsp sc hrsp
    split at h
    · cases h
    · rename_i a' hdecode
      cases h
      exact ⟨rsp, hrsp, hdecode, rfl⟩

/-- The total is the number of entries in the cache when the status said finished. -/
lemma poll_total (understands : Understands c) (reads : ReadsRequests p.z) {fuel : Nat} {s s' : At}
    {total : Int} (h : poll c p fuel s = .ok (total, s')) (fits : s'.sc.entries.length < 2 ^ 31) :
    total = s'.sc.entries.length := by
  induction fuel generalizing s with
  | zero => cases h
  | succ fuel ih =>
    rw [poll] at h
    obtain ⟨⟨⟨finished, total'⟩, s₁⟩, hask, h⟩ := bind_ok h
    dsimp only at h
    split at h
    · cases h
      obtain ⟨rsp, hrsp, hdecode, -⟩ := ask_ok (r := .scanGetStatus) understands.writes trivial hask
      rw [handle_status reads] at hrsp
      obtain ⟨hanswer, hsc⟩ := Prod.mk.inj hrsp
      obtain ⟨x, hx, hshort, rfl⟩ := answer_ok_iff.mp hanswer
      rw [hsc] at hx
      rw [status_read understands _ fits hx hshort] at hdecode
      exact (Prod.mk.inj (Option.some.inj hdecode)).2.symm
    · split at h
      · cases h
      · exact ih h

/-- A page of a cache that the driver leaves alone. -/
lemma ask_page (understands : Understands c) (reads : ReadsRequests p.z) {s : At}
    {es : List ProvTypes.ScanEntry} (cached : (p.driver s.sent s.sc).entries = es)
    (typed : ∀ e ∈ es, Typed e) {start : Nat} (small : start < 2 ^ 31)
    (encodable : ∃ rsp, encodeResults p.limit (p.driver s.sent s.sc) start 6 = .ok rsp) :
    ∃ page s', ask c p (.scanGetResults start 6) (decodeScanResultsRsp · c) s = .ok (page, s') ∧
      List.Forall₂ (Shows c) ((es.drop start).take (min 6 p.limit)) page ∧
      s'.sent = s.sent + 1 ∧ s'.sc.entries = es := by
  obtain ⟨rsp, hrsp⟩ := encodable
  have hhandle := handle_results reads p.limit p.env (p.driver s.sent s.sc) small
  rw [hrsp] at hhandle
  obtain ⟨x, hx, hshort, rfl⟩ := answer_ok_iff.mp hrsp
  rw [cached] at hx
  have hfew : ((es.drop start).take (min 6 p.limit)).length ≤ 8 := by
    have hle := List.length_take_le (min 6 p.limit) (es.drop start)
    omega
  have htyped : ∀ e ∈ (es.drop start).take (min 6 p.limit), Typed e := fun e he =>
    typed e (List.mem_of_mem_drop (List.mem_of_mem_take he))
  obtain ⟨page, hpage, hshows⟩ := results_read understands hfew htyped hx hshort
  refine ⟨page, ⟨s.sent + 1, p.driver s.sent s.sc⟩, ?_, hshows, rfl, cached⟩
  have hbounds : (Request.scanGetResults start 6).InBounds := ⟨small, by decide⟩
  simp only [ask, requestBytes_eq understands.writes hbounds, hhandle, hpage]

/-- After `i` pages the results are the first `i * m` entries; a page more of a cache that is
not at its end adds at least one. -/
theorem collect_ok (understands : Understands c) (reads : ReadsRequests p.z)
    (positive : 0 < p.limit) {es : List ProvTypes.ScanEntry} (few : es.length < 2 ^ 31)
    (typed : ∀ e ∈ es, Typed e) {from_ : Nat}
    (unchanged : ∀ k sc, from_ ≤ k → (p.driver k sc).entries = sc.entries)
    (encodable : ∀ i sc, i * min 6 p.limit < es.length → sc.entries = es →
      ∃ rsp, encodeResults p.limit sc (i * min 6 p.limit) 6 = .ok rsp)
    {fuel i : Nat} {results : List (Entry c)} {s : At} (later : from_ ≤ s.sent)
    (cached : s.sc.entries = es)
    (collected : List.Forall₂ (Shows c) (es.take (i * min 6 p.limit)) results)
    (enough : es.length - i * min 6 p.limit < fuel) :
    ∃ results', collect c p es.length fuel results s = .ok results' ∧
      List.Forall₂ (Shows c) es results' := by
  have hm : 0 < min 6 p.limit := by omega
  induction fuel generalizing i results s with
  | zero => exact absurd enough (Nat.not_lt_zero _)
  | succ fuel ih =>
    have hlength : results.length = min (i * min 6 p.limit) es.length := by
      rw [← collected.length_eq, List.length_take]
    rw [collect]
    by_cases hmore : i * min 6 p.limit < es.length
    · have hstart : results.length = i * min 6 p.limit := by omega
      have hlt : (results.length : Int) < es.length := by omega
      have hsmall : results.length < 2 ^ 31 := by omega
      have hdriver : (p.driver s.sent s.sc).entries = es := (unchanged _ _ later).trans cached
      obtain ⟨page, s', hask, hpage, hsent, hcached⟩ :=
        ask_page understands reads hdriver typed hsmall
          (by rw [hstart]; exact encodable i _ hmore hdriver)
      have hnonempty : page.isEmpty = false := by
        have hcount := hpage.length_eq
        rw [List.length_take, List.length_drop] at hcount
        rw [List.isEmpty_eq_false_iff, ← List.length_pos_iff]
        omega
      rw [hstart] at hpage
      have hnext : es.take ((i + 1) * min 6 p.limit) = es.take (i * min 6 p.limit) ++
          (es.drop (i * min 6 p.limit)).take (min 6 p.limit) := by
        rw [Nat.add_one_mul, List.take_add]
      have hcollected : List.Forall₂ (Shows c) (es.take ((i + 1) * min 6 p.limit))
          (results ++ page) := by
        rw [hnext]
        exact List.rel_append collected hpage
      rw [if_pos hlt, hask, ok_bind]
      simp only [hnonempty]
      exact ih (by omega) hcached hcollected (by rw [Nat.add_one_mul]; omega)
    · have hend : es.take (i * min 6 p.limit) = es := List.take_of_length_le (by omega)
      rw [if_neg (by omega)]
      rw [hend] at collected
      exact ⟨results, rfl, collected⟩

end Loops

/-- Data items as the objects of `cbor2`, of which `True` is the true one. -/
abbrev scanCodec : Python :=
  Clients.itemPython Clients.samplePrimitives Clients.intOf fun x => x matches .prim 21 _

abbrev scanDicts : Dicts scanCodec := ForwardCompat.itemDicts _ _ _

lemma uint_means (n : Nat) : Means scanDicts (.uint n) (.uint n) := by
  refine ⟨fun i => ?_, rfl⟩
  simp only [scanCodec, Clients.itemPython, Clients.intOf, Option.some.injEq]
  exact decide_eq_decide.mpr eq_comm

lemma text_means (s : String) : Means scanDicts (text s) (text s) :=
  ⟨s, utf8Decode_utf8 s, rfl⟩

lemma i32_means (i : Int) : Means scanDicts (i32 i) (i32 i) := by
  rw [i32]
  split
  · exact uint_means _
  · rfl

lemma bool_means (b : Bool) : Means scanDicts (.bool b) (.bool b) := by
  cases b with
  | false => exact ⟨fun _ => rfl, fun h => absurd h (by decide)⟩
  | true => exact ⟨fun h => absurd h (by decide), fun _ => rfl⟩

lemma entry_means {e : ProvTypes.ScanEntry} {x : Item} (h : encodeScanEntry e = some x) :
    Means scanDicts x x := by
  rw [encodeScanEntry] at h
  split at h
  · cases h
    exact ⟨_, rfl, text_means _, rfl, text_means _, rfl, text_means _, uint_means _, text_means _,
      i32_means _, text_means _, uint_means _, trivial⟩
  · cases h

lemma entries_mean {es : List ProvTypes.ScanEntry} {xs : List Item}
    (h : es.mapM encodeScanEntry = some xs) : AllMean scanDicts xs xs := by
  induction es generalizing xs with
  | nil =>
    cases h
    trivial
  | cons e es ih =>
    rw [List.mapM_cons] at h
    obtain ⟨x, hx, h⟩ := Option.bind_eq_some_iff.mp h
    obtain ⟨ys, hys, h⟩ := Option.bind_eq_some_iff.mp h
    cases h
    exact ⟨entry_means hx, ih hys⟩

lemma scanDicts_reads : ReadsScan scanDicts := by
  intro r x hx short
  have hok : x.Ok := (encodeScanRsp_response hx).2
  have hloads := Clients.referencePython_loads Clients.samplePrimitives hok
    (Nat.lt_of_le_of_lt short (by decide)) []
  rw [List.append_nil] at hloads
  refine ⟨x, _, hloads, ?_⟩
  cases r with
  | startRsp status =>
    cases hx
    exact ⟨_, rfl, uint_means _, uint_means _, trivial⟩
  | statusRsp status finished total =>
    cases hx
    exact ⟨_, rfl, uint_means _, uint_means _, bool_means _, uint_means _, trivial⟩
  | resultsRsp status es =>
    rw [encodeScanRsp] at hx
    split at hx
    · obtain ⟨xs, hxs, rfl⟩ := Option.map_eq_some_iff.mp hx
      exact ⟨_, rfl, uint_means _, uint_means _, ⟨xs, rfl, entries_mean hxs⟩, trivial⟩
    · cases hx

/-- Seven networks are reported and the scan is done before the second request. -/
def samplePeer : Peer where
  z := Zcbor.definite 768
  limit := pageMax
  env := {}
  driver k sc :=
    if k = 1 then
      scanDone (ScanRuns.collect ScanRuns.sampleBuild (List.replicate 7 (ScanRuns.network 4)) sc)
    else sc
  late _ := false

def sampleCache : Scan :=
  scanDone
    (ScanRuns.collect ScanRuns.sampleBuild (List.replicate 7 (ScanRuns.network 4)) ⟨[], false⟩)

lemma sample_cached : Cached ScanRuns.sampleBuild sampleCache.entries := by
  refine ⟨by decide, by decide, fun e he => ?_⟩
  rw [sampleCache, ScanRuns.collect_entries] at he
  obtain ⟨r, -, rfl⟩ := List.mem_map.mp (List.mem_of_mem_take he)
  exact ScanRuns.entryOf_typed r

lemma sample_unchanged (k : Nat) (sc : Scan) (hk : 2 ≤ k) :
    (samplePeer.driver k sc).entries = sc.entries := by
  have hlate : k ≠ 1 := by omega
  exact congrArg Scan.entries (if_neg hlate)

lemma sample_encodable (i : Nat) (hi : i * min 6 samplePeer.limit < sampleCache.entries.length) :
    ∃ rsp, encodeResults samplePeer.limit sampleCache (i * min 6 samplePeer.limit) 6 = .ok rsp := by
  have hsize : sampleCache.entries.length = 7 := by decide +kernel
  have hlimit : min 6 samplePeer.limit = 6 := by decide
  have hpages : i = 0 ∨ i = 1 := by
    rw [hsize, hlimit] at hi
    omega
  apply ClientResponses.ok_of_toOption
  rcases hpages with rfl | rfl
  · decide +kernel
  · decide +kernel

/-- Once a status has said finished, the flow returns exactly the entries that the cache held
then, each once and in the order of the cache, if the driver leaves them alone from then on and
every page that is requested can be encoded. -/
theorem scan_collects_cache (c : Client) (understands : Understands c) (p : Peer)
    (reads : ReadsRequests p.z) (positive : 0 < p.limit) (build : Build) {polls pages : Nat}
    {s s₁ s₂ : At} {total : Int}
    (started : ask c p (.scanStart none none) (decodeScanStartRsp · c) s = .ok ((), s₁))
    (finished : poll c p polls s₁ = .ok (total, s₂)) (cached : Cached build s₂.sc.entries)
    (unchanged : ∀ k sc, s₂.sent ≤ k → (p.driver k sc).entries = sc.entries)
    (encodable : ∀ i, i * min 6 p.limit < s₂.sc.entries.length →
      ∃ rsp, encodeResults p.limit s₂.sc (i * min 6 p.limit) 6 = .ok rsp)
    (enough : s₂.sc.entries.length < pages) :
    ∃ results, scan c p polls pages s = .ok results ∧
      List.Forall₂ (Shows c) s₂.sc.entries results := by
  have hfew : s₂.sc.entries.length < 2 ^ 31 := Nat.lt_of_le_of_lt cached.size cached.max
  have htotal := poll_total understands reads finished hfew
  have hencodable : ∀ i sc, i * min 6 p.limit < s₂.sc.entries.length →
      sc.entries = s₂.sc.entries →
      ∃ rsp, encodeResults p.limit sc (i * min 6 p.limit) 6 = .ok rsp := by
    intro i sc hi hsame
    rw [encodeResults, hsame]
    exact encodable i hi
  have hnone : List.Forall₂ (Shows c) (s₂.sc.entries.take (0 * min 6 p.limit)) [] := by simp
  have henough : s₂.sc.entries.length - 0 * min 6 p.limit < pages := by omega
  obtain ⟨results, hcollect, hshows⟩ := collect_ok understands reads positive hfew cached.typed
    unchanged hencodable (Nat.le_refl _) rfl hnone henough
  refine ⟨results, ?_, hshows⟩
  simp only [scan, started, ok_bind, finished]
  rw [htotal]
  exact hcollect

theorem scan_collects_seven :
    (∃ results, scan (.python scanCodec scanDicts) samplePeer 1 8 ⟨0, Scan.zero⟩ = .ok results ∧
      List.Forall₂ (Shows (.python scanCodec scanDicts)) sampleCache.entries results) ∧
    ∃ results, scan (.kotlin ClientResponses.referenceTexts) samplePeer 1 8 ⟨0, Scan.zero⟩ =
        .ok results ∧
      List.Forall₂ (Shows (.kotlin ClientResponses.referenceTexts)) sampleCache.entries
        results := by
  have hpython : poll (.python scanCodec scanDicts) samplePeer 1 ⟨1, ⟨[], false⟩⟩ =
      .ok (7, ⟨2, sampleCache⟩) := by decide +kernel
  have hkotlin : poll (.kotlin ClientResponses.referenceTexts) samplePeer 1 ⟨1, ⟨[], false⟩⟩ =
      .ok (7, ⟨2, sampleCache⟩) := by decide +kernel
  constructor
  · exact scan_collects_cache (.python scanCodec scanDicts)
      ⟨item_writes _ _ _, scanDicts_reads⟩ samplePeer CredPush.definite_readsRequests (by decide)
      ScanRuns.sampleBuild (by decide +kernel) hpython sample_cached sample_unchanged
      sample_encodable (by decide)
  · exact scan_collects_cache (.kotlin ClientResponses.referenceTexts)
      CborRoundTrip.referenceTexts_decodes samplePeer CredPush.definite_readsRequests
      (by decide) ScanRuns.sampleBuild (by decide +kernel) hkotlin sample_cached sample_unchanged
      sample_encodable (by decide)

end ScanFlow
