import PouchProv.Requests
import Mathlib.Algebra.Group.Int.Defs
import Mathlib.Algebra.GroupWithZero.Nat
import Mathlib.Algebra.Order.BigOperators.Group.List
import Mathlib.Algebra.Order.Group.Nat

/-!
# Scans

`wifi_scan.c` with the driver around it: every scan that the driver accepts
reports its results and then that it is done, and the events do not say which
scan they belong to. The cache is emptied by each start request, before the
driver is asked.

The first part is about the pages in which the cache is read, the second about
the runs that fill it.
-/

namespace ScanRuns

open Bytes Cbor Codec Handlers ProvTypes Status WifiConfig Runs
open Requests (answer_ok_iff encodeProvStatus_length)

/-- The cache entry of a driver result. -/
def entryOf (r : ScanResult) : ScanEntry :=
  ⟨r.ssid.take wifiSsidMaxLen, r.mac.val, r.channel.toNat, r.rssi.toInt, r.security.toNat⟩

/-- The cache after results that follow a start. -/
def collect (build : Build) (rs : List ScanResult) (sc : Scan) : Scan :=
  rs.foldl (fun sc r => onResult build r sc) sc

/-- One more result is one more entry, as long as there is room. -/
lemma onResult_take (build : Build) (rs : List ScanResult) (r : ScanResult) (finished : Bool) :
    onResult build r ⟨(rs.map entryOf).take build.scanCache, finished⟩ =
      ⟨((rs ++ [r]).map entryOf).take build.scanCache, finished⟩ := by
  have hlen : ((rs.map entryOf).take build.scanCache).length = min build.scanCache rs.length := by
    simp
  rw [onResult, List.map_append, List.map_singleton]
  split
  · rename_i hfull
    have hfull' : build.scanCache ≤ (rs.map entryOf).length := by
      simp only [hlen] at hfull
      simp only [List.length_map]
      omega
    rw [List.take_append_of_le_length hfull']
  · rename_i hroom
    have hroom' : (rs.map entryOf).length + 1 ≤ build.scanCache := by
      simp only [hlen] at hroom
      simp only [List.length_map]
      omega
    have hbefore : (rs.map entryOf).take build.scanCache = rs.map entryOf :=
      List.take_of_length_le (by omega)
    have hafter : (rs.map entryOf ++ [entryOf r]).take build.scanCache =
        rs.map entryOf ++ [entryOf r] :=
      List.take_of_length_le (by rw [List.length_append]; exact hroom')
    rw [hbefore, hafter]
    rfl

/-- The cache holds the first results, up to its size. -/
theorem collect_entries (build : Build) (rs : List ScanResult) (finished : Bool) :
    collect build rs ⟨[], finished⟩ = ⟨(rs.map entryOf).take build.scanCache, finished⟩ := by
  have hgeneral (seen : List ScanResult) :
      collect build rs ⟨(seen.map entryOf).take build.scanCache, finished⟩ =
        ⟨((seen ++ rs).map entryOf).take build.scanCache, finished⟩ := by
    induction rs generalizing seen with
    | nil => rw [List.append_nil]; rfl
    | cons r rs ih =>
      have hrest := ih (seen ++ [r])
      rw [List.append_assoc, List.singleton_append] at hrest
      rw [collect, List.foldl_cons, onResult_take]
      exact hrest
  simpa using hgeneral []

/-- The number behind a header that holds a signed value. -/
def magnitude (i : Int) : Nat := if 0 ≤ i then i.toNat else (-1 - i).toNat

lemma magnitude_lt {i : Int} (low : -2 ^ 7 ≤ i) (high : i < 2 ^ 7) : magnitude i < 2 ^ 7 := by
  rw [magnitude]
  split <;> omega

/-- The bytes of an entry: its header and its five keys, the address, and what depends on
the content. -/
def entrySize (e : ScanEntry) : Nat :=
  32 + headLength e.ssid.length + e.ssid.length + headLength e.ch + headLength (magnitude e.rssi) +
    headLength e.auth

def pageSize (es : List ScanEntry) : Nat := 4 + (es.map entrySize).sum

/-- An entry whose fields are in the range of the driver's types. -/
structure Typed (e : ScanEntry) : Prop where
  ssid : e.ssid.length ≤ 32
  bssid : e.bssid.length = 6
  ch : e.ch < 2 ^ 8
  rssi : magnitude e.rssi < 2 ^ 7
  auth : e.auth < 2 ^ 32

lemma entryOf_typed (r : ScanResult) : Typed (entryOf r) where
  ssid := List.length_take_le _ _
  bssid := r.mac.property
  ch := r.channel.toNat_lt
  rssi := magnitude_lt r.rssi.le_toInt r.rssi.toInt_lt
  auth := r.security.toNat_lt

/-- The item that the encoder makes of an entry. -/
def entryItem (e : ScanEntry) : Item :=
  .map [text "ssid", .bstr e.ssid, text "bssid", .bstr e.bssid, text "ch", u32 e.ch,
    text "rssi", i32 e.rssi, text "auth", u32 e.auth]

lemma encodeScanEntry_typed {e : ScanEntry} (h : Typed e) :
    encodeScanEntry e = some (entryItem e) :=
  if_pos ⟨h.ssid, h.bssid⟩

lemma encode_u32_length {n : Nat} (h : n < 2 ^ 32) : (encode (u32 n)).length = headLength n := by
  rw [u32, Nat.mod_eq_of_lt h, encode, head_length]

lemma encode_i32_length {i : Int} (h : magnitude i < 2 ^ 32) :
    (encode (i32 i)).length = headLength (magnitude i) := by
  rw [magnitude] at h ⊢
  rw [i32]
  split
  · rename_i hpos
    rw [if_pos hpos] at h
    rw [Nat.mod_eq_of_lt h, encode, head_length]
  · rename_i hneg
    rw [if_neg hneg] at h
    rw [Nat.mod_eq_of_lt h, encode, head_length]

lemma entryItem_length {e : ScanEntry} (h : Typed e) :
    (encode (entryItem e)).length = entrySize e := by
  have hkeys : (encode (text "ssid")).length = 5 ∧ (encode (text "bssid")).length = 6 ∧
      (encode (text "ch")).length = 3 ∧ (encode (text "rssi")).length = 5 ∧
      (encode (text "auth")).length = 5 := by decide
  have hch := encode_u32_length (Nat.lt_of_lt_of_le h.ch (by decide))
  have hrssi := encode_i32_length (Nat.lt_of_lt_of_le h.rssi (by decide))
  have hauth := encode_u32_length h.auth
  have hmap : headLength 5 = 1 ∧ headLength 6 = 1 := by decide
  simp only [entryItem, encode, encodeAll, List.length_append, List.length_cons, List.length_nil,
    head_length, hkeys, hch, hrssi, hauth, h.bssid, entrySize]
  simp [hmap]
  omega

lemma mapM_typed {es : List ScanEntry} (h : ∀ e ∈ es, Typed e) :
    es.mapM encodeScanEntry = some (es.map entryItem) := by
  induction es with
  | nil => rfl
  | cons e es ih =>
    simp [List.mapM_cons, encodeScanEntry_typed (h e List.mem_cons_self),
      ih fun e he => h e (List.mem_cons_of_mem _ he)]

lemma encodeAll_entries_length {es : List ScanEntry} (h : ∀ e ∈ es, Typed e) :
    (encodeAll (es.map entryItem)).length = (es.map entrySize).sum := by
  induction es with
  | nil => rfl
  | cons e es ih =>
    rw [List.map_cons, encodeAll, List.length_append, entryItem_length (h e List.mem_cons_self),
      ih fun e he => h e (List.mem_cons_of_mem _ he), List.map_cons, List.sum_cons]

/-- A page of typed entries is encoded, in as many bytes as its size says. -/
lemma resultsRsp_size {es : List ScanEntry} (short : es.length ≤ pageMax)
    (h : ∀ e ∈ es, Typed e) :
    ∃ x, encodeScanRsp (.resultsRsp .ok es) = some x ∧ (encode x).length = pageSize es := by
  have hcount : es.length ≤ 8 := Nat.le_trans short (by decide)
  have hsmall : es.length < 24 := Nat.lt_of_le_of_lt short (by decide)
  simp only [encodeScanRsp, if_pos hcount, mapM_typed h, Option.map_some]
  refine ⟨_, rfl, ?_⟩
  have hheads : (head 4 3).length = 1 ∧ (head 0 2).length = 1 := by decide
  simp only [encode, encodeAll, List.length_append, List.length_cons, List.length_nil,
    List.length_map, encodeProvStatus_length, head_length_small 4 hsmall, hheads,
    encodeAll_entries_length h, pageSize]
  omega

/-- The cache entries from `start` up to the least of `start + count`, `start + PAGE_MAX` and
the total. -/
def requested (start count : Nat) (sc : Scan) : List ScanEntry :=
  (sc.entries.take (min (start + count) (min (start + pageMax) sc.entries.length))).drop start

lemma page_eq_requested (start count : Nat) (sc : Scan) :
    page start count sc = requested start count sc := by
  rw [page, requested, List.drop_take, List.take_eq_take_iff, List.length_drop]
  omega

/-- The response has a status of ok and the given entries. -/
def Sends (es : List ScanEntry) (rsp : Except Errno Bytes) : Prop :=
  ∃ x, encodeScanRsp (.resultsRsp .ok es) = some x ∧ rsp = .ok (encode x)

/-- For every cache that driver results fill, and for every start and count, the results
request is answered with the requested entries exactly when their encoding fits a
message. -/
theorem page_sent_iff (z : Zcbor) (build : Build) (env : ScanEnv) (rs : List ScanResult)
    (finished : Bool) {req : Bytes} {start count : Nat}
    (isResults : decodeWith z decodeScanReq req = some (.getResults start count)) :
    let sc := collect build rs ⟨[], finished⟩
    Sends (requested start count sc) (handleScan z env sc req).1 ↔
      pageSize (requested start count sc) ≤ msgMax := by
  intro sc
  have htyped : ∀ e ∈ requested start count sc, Typed e := by
    intro e he
    have hmem : e ∈ sc.entries := List.mem_of_mem_take (List.mem_of_mem_drop he)
    rw [show sc = _ from collect_entries build rs finished] at hmem
    obtain ⟨r, -, rfl⟩ := List.mem_map.mp (List.mem_of_mem_take hmem)
    exact entryOf_typed r
  have hshort : (requested start count sc).length ≤ pageMax := by
    rw [← page_eq_requested, page]
    exact Nat.le_trans (List.length_take_le _ _) (Nat.min_le_right _ _)
  obtain ⟨x, hx, hsize⟩ := resultsRsp_size hshort htyped
  have hrsp : (handleScan z env sc req).1 = answer (some x) := by
    simp only [handleScan, isResults, page_eq_requested, hx]
  rw [hrsp, ← hsize]
  constructor
  · rintro ⟨y, -, hanswer⟩
    obtain ⟨x', hsame, hfits, -⟩ := answer_ok_iff.mp hanswer
    obtain rfl := Option.some.inj hsame
    exact hfits
  · intro hfits
    exact ⟨x, hx, answer_ok_iff.mpr ⟨x, rfl, hfits, rfl⟩⟩

/-- The results from zero on, six at most. -/
def resultsReq : Bytes := encode (.array [.uint 2, .uint 0, .uint 6])

def zcbor : Zcbor := Zcbor.definite 32

/-- A build with a cache of sixteen entries. -/
def sampleBuild : Build where
  auth := true
  wifi := true
  cred := true
  identity := false
  blockSize := 256
  scanCache := 16
  autostop := false

/-- An open network on channel 6 whose name has the given length. -/
def network (length : Nat) : ScanResult :=
  ⟨List.replicate length 0x61, ⟨[2, 0, 0, 0, 0, 1], rfl⟩, 6, -60, 0⟩

lemma decode_resultsReq : decodeWith zcbor decodeScanReq resultsReq = some (.getResults 0 6) := by
  decide +kernel

theorem page_sent_short_names :
    let sc := collect sampleBuild (List.replicate 7 (network 21)) ⟨[], true⟩
    (requested 0 6 sc).length = 6 ∧
      Sends (requested 0 6 sc) (handleScan zcbor {} sc resultsReq).1 :=
  ⟨by decide +kernel, (page_sent_iff zcbor sampleBuild {} (List.replicate 7 (network 21)) true
    decode_resultsReq).mpr (by decide +kernel)⟩

/-- Six networks with names of full length make a page that cannot be sent. -/
theorem page_not_sent_long_names :
    let sc := collect sampleBuild (List.replicate 6 (network 32)) ⟨[], true⟩
    sc.entries.length = 6 ∧ pageSize (requested 0 6 sc) = 424 ∧
      (handleScan zcbor {} sc resultsReq).1 = .error .enomem := by
  decide +kernel

/-- A scan that the driver accepted: the results it has reported, and whether it is done. -/
structure Accepted where
  results : List ScanResult
  ended : Bool
  deriving DecidableEq

/-- The cache, and the accepted scans in their order. -/
structure Scanning where
  sc : Scan
  scans : List Accepted

inductive Ev where
  | request (req : Bytes) (env : ScanEnv)
  | result (i : Nat) (r : ScanResult)
  | done (i : Nat)

/-- The request is a start. -/
def starts (z : Zcbor) (req : Bytes) : Bool :=
  match decodeWith z decodeScanReq req with
  | some (.start _) => true
  | _ => false

/-- A start reaches the driver, which takes it. -/
def Takes (z : Zcbor) (req : Bytes) (env : ScanEnv) : Prop :=
  starts z req ∧ env.iface ∧ env.request

instance (z : Zcbor) (req : Bytes) (env : ScanEnv) : Decidable (Takes z req env) :=
  inferInstanceAs (Decidable (_ ∧ _ ∧ _))

/-- A result or the end of a scan comes only from a scan that was accepted and is not over. -/
def step (z : Zcbor) (build : Build) (s : Scanning) : Ev → Scanning
  | .request req env =>
    ⟨(handleScan z env s.sc req).2,
      if Takes z req env then s.scans ++ [⟨[], false⟩] else s.scans⟩
  | .result i r =>
    match s.scans[i]? with
    | some ⟨rs, false⟩ => ⟨onResult build r s.sc, s.scans.set i ⟨rs ++ [r], false⟩⟩
    | _ => s
  | .done i =>
    match s.scans[i]? with
    | some ⟨rs, false⟩ => ⟨scanDone s.sc, s.scans.set i ⟨rs, true⟩⟩
    | _ => s

def start : Scanning := ⟨Scan.zero, []⟩

/-- Every start that reaches the driver is taken, and finds no scan that is still going on. -/
def InTurn (z : Zcbor) (s : Scanning) : Ev → Prop
  | .request req env =>
    starts z req → env.iface → env.request ∧ ∀ a ∈ s.scans, a.ended
  | _ => True

/-- Only the last scan can be going on; the cache and its flag are those of that scan. -/
inductive Tidy (build : Build) : Scanning → Prop where
  | unused : Tidy build start
  | last (old : List Accepted) (a : Accepted) (closed : ∀ b ∈ old, b.ended) :
      Tidy build ⟨⟨(a.results.map entryOf).take build.scanCache, a.ended⟩, old ++ [a]⟩

/-- A request that starts nothing leaves the cache. -/
lemma handleScan_other {z : Zcbor} {env : ScanEnv} {sc : Scan} {req : Bytes}
    (other : ¬ (starts z req ∧ env.iface)) : (handleScan z env sc req).2 = sc := by
  rw [starts] at other
  simp only [handleScan]
  cases hdec : decodeWith z decodeScanReq req with
  | none => rfl
  | some r =>
    cases r with
    | start params =>
      have hiface : ¬ env.iface := fun h => other ⟨by simp [hdec], h⟩
      simp [doStart, hiface]
    | getStatus => rfl
    | getResults from_ count => rfl

/-- A start that is taken empties the cache. -/
lemma handleScan_takes {z : Zcbor} {env : ScanEnv} {sc : Scan} {req : Bytes}
    (takes : Takes z req env) : (handleScan z env sc req).2 = ⟨[], false⟩ := by
  obtain ⟨hstarts, hiface, hrequest⟩ := takes
  rw [starts] at hstarts
  simp only [handleScan]
  cases hdec : decodeWith z decodeScanReq req with
  | none => simp [hdec] at hstarts
  | some r =>
    cases r with
    | start params => simp [doStart, hiface, hrequest]
    | getStatus => simp [hdec] at hstarts
    | getResults from_ count => simp [hdec] at hstarts

/-- Of tidy scans only the last can still report. -/
lemma getElem?_running {old : List Accepted} {a : Accepted} (closed : ∀ b ∈ old, b.ended) {i : Nat}
    {rs : List ScanResult} (h : (old ++ [a])[i]? = some ⟨rs, false⟩) :
    i = old.length ∧ a = ⟨rs, false⟩ := by
  rcases Nat.lt_trichotomy i old.length with hlt | rfl | hgt
  · rw [List.getElem?_append_left hlt] at h
    exact absurd (closed _ (List.mem_of_getElem? h)) Bool.noConfusion
  · simpa using h
  · rw [List.getElem?_eq_none (by simp; omega)] at h
    exact absurd h (Option.some_ne_none _).symm

/-- A report is of a scan that is going on, or does nothing. -/
lemma step_result (z : Zcbor) (build : Build) (s : Scanning) (i : Nat) (r : ScanResult) :
    step z build s (.result i r) = s ∨
      ∃ rs, s.scans[i]? = some ⟨rs, false⟩ ∧ step z build s (.result i r) =
        ⟨onResult build r s.sc, s.scans.set i ⟨rs ++ [r], false⟩⟩ := by
  simp only [step]
  split
  · rename_i rs hget
    exact Or.inr ⟨rs, hget, rfl⟩
  · exact Or.inl rfl

lemma step_done (z : Zcbor) (build : Build) (s : Scanning) (i : Nat) :
    step z build s (.done i) = s ∨
      ∃ rs, s.scans[i]? = some ⟨rs, false⟩ ∧ step z build s (.done i) =
        ⟨scanDone s.sc, s.scans.set i ⟨rs, true⟩⟩ := by
  simp only [step]
  split
  · rename_i rs hget
    exact Or.inr ⟨rs, hget, rfl⟩
  · exact Or.inl rfl

theorem step_tidy {z : Zcbor} {build : Build} {s : Scanning} (h : Tidy build s) {e : Ev}
    (turn : InTurn z s e) : Tidy build (step z build s e) := by
  cases e with
  | request req env =>
    by_cases hstart : starts z req ∧ env.iface
    · obtain ⟨hrequest, hended⟩ := turn hstart.1 hstart.2
      have htakes : Takes z req env := ⟨hstart.1, hstart.2, hrequest⟩
      simp only [step, if_pos htakes, handleScan_takes htakes]
      simpa using (.last s.scans ⟨[], false⟩ hended : Tidy build _)
    · have hnot : ¬ Takes z req env := fun h => hstart ⟨h.1, h.2.1⟩
      simp only [step, if_neg hnot, handleScan_other hstart]
      exact h
  | result i r =>
    rcases step_result z build s i r with heq | ⟨rs, hget, heq⟩
    · rwa [heq]
    · rw [heq]
      cases h with
      | unused => exact absurd hget (Option.some_ne_none _).symm
      | last old a closed =>
        obtain ⟨rfl, rfl⟩ := getElem?_running closed hget
        rw [onResult_take, List.set_append_right _ _ (Nat.le_refl _), Nat.sub_self]
        exact .last old ⟨rs ++ [r], false⟩ closed
  | done i =>
    rcases step_done z build s i with heq | ⟨rs, hget, heq⟩
    · rwa [heq]
    · rw [heq]
      cases h with
      | unused => exact absurd hget (Option.some_ne_none _).symm
      | last old a closed =>
        obtain ⟨rfl, rfl⟩ := getElem?_running closed hget
        rw [List.set_append_right _ _ (Nat.le_refl _), Nat.sub_self]
        exact .last old ⟨rs, true⟩ closed

/-- A status request is answered with the flag set. -/
def ReportsFinished (z : Zcbor) (s : Scanning) : Prop :=
  ∃ req env total, decodeWith z decodeScanReq req = some .getStatus ∧
    (handleScan z env s.sc req).1 =
      .ok (encode (.array [.uint 1, .uint 0, .bool true, u32 total]))

/-- The last scan that the driver took is over, and the cache holds its first results. -/
def Complete (build : Build) (s : Scanning) : Prop :=
  ∃ a, s.scans.getLast? = some a ∧ a.ended ∧
    s.sc.entries = (a.results.map entryOf).take build.scanCache

/-- The event is a start request. -/
def IsStart (z : Zcbor) : Ev → Prop
  | .request req _ => starts z req
  | _ => False

/-- Nothing but a start request changes the cache. -/
def Stable (z : Zcbor) (build : Build) (s : Scanning) : Prop :=
  ∀ later : List Ev, (∀ e ∈ later, ¬ IsStart z e) → (later.foldl (step z build) s).sc = s.sc

lemma finished_of_reports {z : Zcbor} {s : Scanning} (h : ReportsFinished z s) :
    s.sc.finished = true := by
  obtain ⟨req, env, total, hdec, hrsp⟩ := h
  simp only [handleScan, hdec] at hrsp
  obtain ⟨x, hx, hfits, hsame⟩ := answer_ok_iff.mp hrsp
  have hreported : encodeScanRsp (.statusRsp .ok true total) =
      some (.array [.uint 1, .uint 0, .bool true, u32 total]) := rfl
  have heq := encode_inj (encodeScanRsp_response hx).2 (encodeScanRsp_response hreported).2
    (Nat.lt_of_le_of_lt hfits (by decide)) hsame.symm
  rw [heq] at hx
  cases hflag : s.sc.finished with
  | true => rfl
  | false => simp [encodeScanRsp, hflag, Item.bool] at hx

/-- With every scan over only a start request does anything. -/
lemma step_closed {z : Zcbor} {build : Build} {s : Scanning} (closed : ∀ a ∈ s.scans, a.ended)
    {e : Ev} (other : ¬ IsStart z e) : step z build s e = s := by
  cases e with
  | request req env =>
    have hstart : ¬ (starts z req ∧ env.iface) := fun h => other h.1
    have htakes : ¬ Takes z req env := fun h => other h.1
    simp only [step, if_neg htakes, handleScan_other hstart]
  | result i r =>
    rcases step_result z build s i r with heq | ⟨rs, hget, -⟩
    · exact heq
    · exact absurd (closed _ (List.mem_of_getElem? hget)) Bool.noConfusion
  | done i =>
    rcases step_done z build s i with heq | ⟨rs, hget, -⟩
    · exact heq
    · exact absurd (closed _ (List.mem_of_getElem? hget)) Bool.noConfusion

lemma stable_of_closed {z : Zcbor} {build : Build} {s : Scanning}
    (closed : ∀ a ∈ s.scans, a.ended) : Stable z build s := by
  intro later hother
  have hsame : later.foldl (step z build) s = s := by
    induction later with
    | nil => rfl
    | cons e later ih =>
      rw [List.foldl_cons, step_closed closed (hother e List.mem_cons_self)]
      exact ih fun e he => hother e (List.mem_cons_of_mem _ he)
  rw [hsame]

/-- If every start request that reaches the driver is taken and finds the earlier scans over,
then whenever a status response says finished, the last scan is over, the cache holds the
first of its results, and it stays so up to the next start request. -/
theorem finished_complete_stable (z : Zcbor) (build : Build) {es : List Ev}
    (turns : Each (step z build) (InTurn z) start es) :
    Always (step z build)
      (fun s => ReportsFinished z s → Complete build s ∧ Stable z build s) start es := by
  have htidy := always_of_each (I := Tidy build) (fun _ _ h turn => step_tidy h turn) .unused turns
  refine htidy.mono fun s h hreports => ?_
  have hfinished := finished_of_reports hreports
  cases h with
  | unused => exact absurd hfinished Bool.noConfusion
  | last old a closed =>
    refine ⟨⟨a, List.getLast?_concat, hfinished, rfl⟩, stable_of_closed ?_⟩
    rintro b hb
    rcases List.mem_append.mp hb with hold | hlast
    · exact closed b hold
    · rw [List.mem_singleton.mp hlast]
      exact hfinished

def startReq : Bytes := encode (.array [.uint 0, .map []])

def statusReq : Bytes := encode (.array [.uint 1])

/-- One scan after the other, the first of them without an interface. -/
def inTurn : List Ev :=
  [.request startReq { iface := false }, .request startReq {}, .result 0 (network 4), .done 0,
    .request startReq {}, .result 1 (network 5), .done 1]

theorem finished_complete_in_turn :
    Always (step zcbor sampleBuild)
      (fun s => ReportsFinished zcbor s → Complete sampleBuild s ∧ Stable zcbor sampleBuild s)
      start inTurn := by
  refine finished_complete_stable zcbor sampleBuild ?_
  have hclosed : ∀ a ∈ ((inTurn.take 4).foldl (step zcbor sampleBuild) start).scans,
      a.ended := by decide +kernel
  exact ⟨fun _ h => absurd h (by decide), fun _ _ => ⟨rfl, by simp [start, step, Takes]⟩, trivial,
    trivial, fun _ _ => ⟨rfl, hclosed⟩, trivial, trivial, trivial⟩

/-- A start that the driver rejects leaves a finished scan with an empty cache; and with two
scans at once the end of the first counts as the end of the second, whose result then still
comes. -/
theorem finished_not_complete :
    let rejected := [Ev.request startReq {}, .result 0 (network 4), .done 0,
      .request startReq { request := false }].foldl (step zcbor sampleBuild) start
    let overlap := [Ev.request startReq {}, .request startReq {}, .done 0].foldl
      (step zcbor sampleBuild) start
    ReportsFinished zcbor rejected ∧ ¬ Complete sampleBuild rejected ∧
    ReportsFinished zcbor overlap ∧ ¬ Complete sampleBuild overlap ∧
    ¬ Stable zcbor sampleBuild overlap := by
  intro rejected overlap
  have hdec : decodeWith zcbor decodeScanReq statusReq = some .getStatus := by decide +kernel
  refine ⟨⟨statusReq, {}, 0, hdec, by decide +kernel⟩, ?_,
    ⟨statusReq, {}, 0, hdec, by decide +kernel⟩, ?_, ?_⟩
  · rintro ⟨a, hlast, -, hentries⟩
    have hscan : rejected.scans.getLast? = some ⟨[network 4], true⟩ := by decide +kernel
    obtain rfl := Option.some.inj (hscan.symm.trans hlast)
    exact absurd hentries (by decide +kernel)
  · rintro ⟨a, hlast, hended, -⟩
    have hscan : overlap.scans.getLast? = some ⟨[], false⟩ := by decide +kernel
    obtain rfl := Option.some.inj (hscan.symm.trans hlast)
    exact absurd hended Bool.noConfusion
  · intro hstable
    exact absurd (hstable [.result 1 (network 5)] (by simp [IsStart])) (by decide +kernel)

end ScanRuns
