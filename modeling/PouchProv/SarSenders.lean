import PouchProv.Sar
import Mathlib.Algebra.Group.Int.Defs

/-!
# The senders of the three clients

`SarSender.send` exists in Python, Kotlin and Swift. The ports cut the payload
with the integers of their language and then run the same loop, in which the
fragment index is the sequence number, a byte.

The sender stands alone here: any acks reach it, and writes may fail. The first
part is about what it writes of payloads of any length, the second about the
window of the receiver.
-/

namespace SarSenders

open Sar Runs

inductive Port where
  | python | kotlin | swift
  deriving DecidableEq, Repr

/-- The end of the range of `Int`; Python has none. -/
def Port.intEnd : Port → Option Nat
  | .python => none
  | .kotlin => some (2 ^ 31)
  | .swift => some (2 ^ 63)

/-- A sender of the port, with a `maxlen` of its type. -/
structure Sender (p : Port) extends SarSender where
  inRange : ∀ n ∈ p.intEnd, maxlen < n

/-- A payload of the port, with a length of its type. -/
structure Payload (p : Port) where
  bytes : Bytes
  inRange : ∀ n ∈ p.intEnd, bytes.length < n

/-- The starts of the fragments: from zero, in steps of `frag`, below the length. -/
def starts (frag : Nat) (data : Bytes) : List Nat :=
  (List.range ((data.length + frag - 1) / frag)).map (· * frag)

/-- The sum of two `Int` values of Kotlin that are not negative. -/
def kotlinAdd (a b : Nat) : Int :=
  if a + b < 2 ^ 31 then (a + b : Nat) else (a + b : Nat) - 2 ^ 32

/-- `copyOfRange`, which throws where the range is not one. -/
def copyOfRange (data : Bytes) (lo : Nat) (hi : Int) : Option Bytes :=
  if (lo : Int) ≤ hi ∧ lo ≤ data.length then some ((data.drop lo).take (hi.toNat - lo)) else none

def kotlinFrags (frag : Nat) (data : Bytes) : Option (List Bytes) :=
  if data.isEmpty then some [[]]
  else (starts frag data).mapM fun lo =>
    copyOfRange data lo (min (kotlinAdd lo frag) data.length)

/-- A sum beyond the range of `Int` is a trap. -/
def swiftFrags (frag : Nat) (data : Bytes) : Option (List Bytes) :=
  if data.isEmpty then some [[]]
  else (starts frag data).mapM fun lo =>
    if lo + frag < 2 ^ 63 then some ((data.drop lo).take (min (lo + frag) data.length - lo))
    else none

/-- The fragments of `send`, unless cutting them fails before anything is written. -/
def sendFrags (p : Port) (c : SarSender) (data : Bytes) : Option (List Bytes) :=
  match p with
  | .python => some (c.frags data)
  | .kotlin => kotlinFrags c.frag data
  | .swift => swiftFrags c.frag data

lemma slices_eq_map_starts (frag : Nat) (data : Bytes) :
    slices frag data = (starts frag data).map fun lo => (data.drop lo).take frag := by
  rw [slices, starts, List.map_map]
  rfl

/-- Cutting piece by piece gives the slices, if every piece that is cut is one. -/
lemma mapM_slices {frag : Nat} {data : Bytes} {cut : Nat → Option Bytes}
    (sound : ∀ lo ∈ starts frag data, ∀ b, cut lo = some b → b = (data.drop lo).take frag)
    {frags : List Bytes} (h : (starts frag data).mapM cut = some frags) :
    frags = slices frag data := by
  rw [slices_eq_map_starts]
  generalize starts frag data = los at sound h
  induction los generalizing frags with
  | nil => exact (Option.some.inj h).symm
  | cons lo los ih =>
    simp only [List.mapM_cons, Option.bind_eq_bind, Option.bind_eq_some_iff] at h
    obtain ⟨b, hb, bs, hbs, heq⟩ := h
    obtain rfl := Option.some.inj heq
    rw [List.map_cons, sound lo List.mem_cons_self b hb,
      ih (fun lo hlo => sound lo (List.mem_cons_of_mem _ hlo)) hbs]

lemma take_min_sub (frag lo : Nat) (data : Bytes) :
    (data.drop lo).take (min (lo + frag) data.length - lo) = (data.drop lo).take frag := by
  rw [List.take_eq_take_iff, List.length_drop]
  omega

lemma slices_ne_nil {frag : Nat} (positive : 0 < frag) {data : Bytes} (nonempty : data ≠ []) :
    slices frag data ≠ [] := by
  intro h
  have hjoin := flatten_slices positive data
  rw [h] at hjoin
  exact nonempty hjoin.symm

lemma frags_of_ne_nil (c : SarSender) {data : Bytes} (nonempty : data ≠ []) :
    c.frags data = slices c.frag data :=
  if_neg (slices_ne_nil (Nat.sub_pos_of_lt c.large) nonempty)

lemma frags_nil (c : SarSender) : c.frags [] = [[]] := by
  have hpos : 0 < c.frag := Nat.sub_pos_of_lt c.large
  have hslices : slices c.frag [] = [] := by
    have hzero : (([] : Bytes).length + c.frag - 1) / c.frag = 0 := by
      rw [List.length_nil, Nat.zero_add]
      exact Nat.div_eq_of_lt (by omega)
    rw [slices, hzero]
    rfl
  exact if_pos hslices

lemma kotlinFrags_eq {c : SarSender} {data : Bytes} (small : c.maxlen < 2 ^ 31)
    (short : data.length < 2 ^ 31) {frags : List Bytes}
    (h : kotlinFrags c.frag data = some frags) : frags = c.frags data := by
  have hfrag : c.frag < 2 ^ 31 := Nat.lt_of_le_of_lt (Nat.sub_le _ _) small
  rw [kotlinFrags] at h
  cases data with
  | nil => rw [frags_nil, ← Option.some.inj h]
  | cons x xs =>
    rw [frags_of_ne_nil c (List.cons_ne_nil x xs)]
    refine mapM_slices (fun lo _ b hb => ?_) h
    rw [copyOfRange] at hb
    split at hb
    · rename_i hrange
      obtain ⟨hle, hlo⟩ := hrange
      -- A sum that wraps is negative, and below every start.
      have hsum : lo + c.frag < 2 ^ 31 := by
        by_contra hwrap
        rw [kotlinAdd, if_neg hwrap] at hle
        omega
      have hmin : (min (kotlinAdd lo c.frag) ((x :: xs).length : Int)).toNat =
          min (lo + c.frag) (x :: xs).length := by
        rw [kotlinAdd, if_pos hsum]
        omega
      rw [hmin, take_min_sub] at hb
      exact (Option.some.inj hb).symm
    · exact absurd hb (Option.some_ne_none _).symm

lemma swiftFrags_eq {c : SarSender} {data : Bytes} {frags : List Bytes}
    (h : swiftFrags c.frag data = some frags) : frags = c.frags data := by
  rw [swiftFrags] at h
  cases data with
  | nil => rw [frags_nil, ← Option.some.inj h]
  | cons x xs =>
    rw [frags_of_ne_nil c (List.cons_ne_nil x xs)]
    refine mapM_slices (fun lo _ b hb => ?_) h
    split at hb
    · rw [take_min_sub] at hb
      exact (Option.some.inj hb).symm
    · exact absurd hb (Option.some_ne_none _).symm

/-- Each port cuts the payload into the same fragments, or fails. -/
theorem sendFrags_eq {p : Port} (c : Sender p) (data : Payload p) {frags : List Bytes}
    (h : sendFrags p c.toSarSender data.bytes = some frags) :
    frags = c.frags data.bytes := by
  cases p with
  | python => exact (Option.some.inj h).symm
  | kotlin => exact kotlinFrags_eq (c.inRange _ rfl) (data.inRange _ rfl) h
  | swift => exact swiftFrags_eq h

/-- A call of `send` and the data packets that it has written. -/
structure Call where
  sending : Sending
  outcome : Outcome Unit
  data : List Bytes
  deriving DecidableEq, Repr

/-- An ack, with the number of its writes that succeed if one fails; or none in time. -/
inductive Ev where
  | ack (pkt : Bytes) (written : Option Nat)
  | timeout

/-- A packet with a fragment, not the one that closes the transfer. -/
def isData (pkt : Bytes) : Bool := pkt.headD 0 &&& flagFin = 0

def step (frags : List Bytes) (s : Call) : Ev → Call
  | .ack pkt written =>
    if s.outcome = .running then
      let (pkts, sending, o) := onAck frags pkt s.sending
      ⟨sending, afterWrites written pkts o, s.data ++ (writes written pkts).filter isData⟩
    else s
  | .timeout =>
    if s.outcome = .running then { s with outcome := .raised "timed out waiting for ack" } else s

def begin : Call := ⟨⟨0, false⟩, .running, []⟩

/-- A call of `send`, from the cutting on. -/
def send (p : Port) (c : SarSender) (data : Bytes) (es : List Ev) : Call :=
  match sendFrags p c data with
  | some frags => es.foldl (step frags) begin
  | none => { begin with outcome := .raised "payload not cut" }

/-- The packet that the loop writes in its round `i`: the fragment index is a byte. -/
def packetAt (frags : List Bytes) (i : Nat) : Bytes :=
  [flags frags.length (UInt8.ofNat i), UInt8.ofNat i] ++ frags.getD (i % 256) []

/-- The packets of the rounds from `n` on. -/
def rounds (frags : List Bytes) (n m : Nat) : List Bytes :=
  (List.range m).map fun j => packetAt frags (n + j)

/-- After `n` rounds: the sequence number counts them modulo 256, and the last fragment has
gone out only if its index is a byte. -/
structure After (frags : List Bytes) (n : Nat) (s : Sending) : Prop where
  seq : s.seq = UInt8.ofNat n
  sentLast : s.sentLast = true ↔ frags.length ≤ 256 ∧ n = frags.length
  bound : frags.length ≤ 256 → n ≤ frags.length

lemma toNat_ofNat_mod (n : Nat) : (UInt8.ofNat n).toNat = n % 256 := UInt8.toNat_ofNat'

/-- One more round. -/
lemma After.succ {frags : List Bytes} {n : Nat} {s : Sending} (h : After frags n s)
    (more : s.sentLast = false) :
    frags[s.seq.toNat]? = some (frags.getD (n % 256) []) ∧
      After frags (n + 1)
        { seq := s.seq + 1, sentLast := decide (s.seq.toNat = frags.length - 1) } := by
  have hseq : s.seq.toNat = n % 256 := by rw [h.seq, toNat_ofNat_mod]
  have hopen : ¬ (frags.length ≤ 256 ∧ n = frags.length) := fun hend => by
    rw [h.sentLast.mpr hend] at more
    exact Bool.noConfusion more
  have hlt : n % 256 < frags.length := by
    by_cases hfew : frags.length ≤ 256
    · have hle := h.bound hfew
      have hne : n ≠ frags.length := fun heq => hopen ⟨hfew, heq⟩
      have hmod := Nat.mod_le n 256
      omega
    · have hmod := Nat.mod_lt n (show 256 > 0 by decide)
      omega
  refine ⟨?_, ?_, ?_, ?_⟩
  · rw [hseq]
    simp [hlt]
  · rw [h.seq]
    exact (UInt8.ofNat_add n 1).symm
  · rw [decide_eq_true_iff, hseq]
    by_cases hfew : frags.length ≤ 256
    · have hle := h.bound hfew
      omega
    · omega
  · intro hfew
    have hle := h.bound hfew
    have hne : n ≠ frags.length := fun heq => hopen ⟨hfew, heq⟩
    omega

lemma rounds_succ (frags : List Bytes) (n m : Nat) :
    rounds frags n (m + 1) = packetAt frags n :: rounds frags (n + 1) m := by
  rw [rounds, List.range_succ_eq_map, List.map_cons, List.map_map, rounds]
  congr 1
  refine List.map_congr_left fun j _ => ?_
  change packetAt frags (n + (j + 1)) = packetAt frags (n + 1 + j)
  congr 1
  omega

/-- The inner loop does not raise. It writes the packets of some rounds: at least one if it is
entered, and none beyond a target that is still ahead. -/
lemma pump_rounds {frags : List Bytes} (target : UInt8) (fuel : Nat) {n : Nat} {s : Sending}
    (h : After frags n s) :
    ∃ m s', pump frags target fuel s = (rounds frags n m, .ok s') ∧ After frags (n + m) s' ∧
      (0 < fuel → s.seq ≠ target → s.sentLast = false → 0 < m) ∧
      (n ≤ target.toNat → n + m ≤ target.toNat) := by
  induction fuel generalizing n s with
  | zero => exact ⟨0, s, rfl, h, fun hfuel => absurd hfuel (Nat.lt_irrefl 0), id⟩
  | succ fuel ih =>
    by_cases hgo : s.seq ≠ target ∧ s.sentLast = false
    · obtain ⟨hfrag, hnext⟩ := h.succ hgo.2
      obtain ⟨m, s', hrest, hs', -, hahead⟩ := ih hnext
      refine ⟨m + 1, s', ?_, by rwa [Nat.add_right_comm] at hs', fun _ _ _ => Nat.succ_pos m, ?_⟩
      · rw [pump, if_pos hgo, hfrag, rounds_succ, packetAt, ← h.seq]
        simp only [hrest]
      · intro hle
        have hne : n ≠ target.toNat := by
          rintro rfl
          exact hgo.1 (h.seq.trans UInt8.ofNat_toNat)
        have htail := hahead (by omega)
        omega
    · rw [pump, if_neg hgo]
      exact ⟨0, s, rfl, h, fun _ hseq hmore => absurd ⟨hseq, hmore⟩ hgo, id⟩

lemma isData_rounds (frags : List Bytes) (n m : Nat) :
    ∀ pkt ∈ rounds frags n m, isData pkt = true := by
  rintro pkt hpkt
  obtain ⟨j, -, rfl⟩ := List.mem_map.mp hpkt
  exact decide_eq_true (flags_fin frags.length _)

lemma rounds_take (frags : List Bytes) (n m k : Nat) :
    (rounds frags n m).take k = rounds frags n (min k m) := by
  rw [rounds, ← List.map_take, List.take_range, rounds]

lemma rounds_append (frags : List Bytes) (m k : Nat) :
    rounds frags 0 m ++ rounds frags m k = rounds frags 0 (m + k) := by
  simp only [rounds, List.range_add, List.map_append, List.map_map, Nat.zero_add]
  rfl

/-- An ack leads to some rounds, or to the packet that closes the transfer. -/
lemma onAck_rounds {frags : List Bytes} (ack : Bytes) {n : Nat} {s : Sending}
    (h : After frags n s) :
    ∃ m pkts s' o, onAck frags ack s = (pkts, s', o) ∧ After frags (n + m) s' ∧
      (pkts = rounds frags n m ∨ m = 0 ∧ pkts = [[flagFin, codeAck]]) := by
  unfold onAck
  split
  · split
    · exact ⟨0, _, _, _, rfl, h, Or.inl rfl⟩
    · split
      · split
        · exact ⟨0, _, _, _, rfl, h, Or.inr ⟨rfl, rfl⟩⟩
        · exact ⟨0, _, _, _, rfl, h, Or.inl rfl⟩
      · rename_i ackSeq window _ _
        obtain ⟨m, s', hpump, hs', -⟩ := pump_rounds (ackSeq + window + 1) 256 h
        simp only [hpump]
        exact ⟨m, _, _, _, rfl, hs', Or.inl rfl⟩
  · exact ⟨0, _, _, _, rfl, h, Or.inl rfl⟩

/-- The data packets of a round that reach the channel. -/
lemma filter_writes_rounds (frags : List Bytes) (n m : Nat) (written : Option Nat) :
    ∃ k ≤ m, (writes written (rounds frags n m)).filter isData = rounds frags n k ∧
      (written = none → k = m) := by
  have hfilter (k : Nat) : (rounds frags n k).filter isData = rounds frags n k :=
    List.filter_eq_self.mpr (isData_rounds frags n k)
  cases written with
  | none => exact ⟨m, Nat.le_refl m, hfilter m, fun _ => rfl⟩
  | some k =>
    refine ⟨min k m, Nat.min_le_right k m, ?_, fun h => absurd h (Option.some_ne_none k)⟩
    rw [writes, rounds_take, hfilter]

lemma filter_writes_fin (written : Option Nat) :
    (writes written [[flagFin, codeAck]]).filter isData = [] := by
  have hfin : isData [flagFin, codeAck] = false := by decide
  cases written with
  | none => simp [writes, hfin]
  | some k => cases k <;> simp [writes, hfin]

lemma afterWrites_running {written : Option Nat} {pkts : List Bytes} {o : Outcome Unit}
    (h : afterWrites written pkts o = .running) : written = none ∨ pkts = [] := by
  by_contra hno
  obtain ⟨hwritten, hpkts⟩ := not_or.mp hno
  have hfails : written.isSome ∧ pkts ≠ [] := ⟨Option.isSome_iff_ne_none.mpr hwritten, hpkts⟩
  cases o with
  | running => simp [afterWrites, hfails] at h
  | returned a => simp [afterWrites] at h
  | raised message => simp [afterWrites, hfails] at h

/-- What a call has written are the packets of its first rounds. -/
def Progress (frags : List Bytes) (s : Call) : Prop :=
  ∃ n, s.data = rounds frags 0 n ∧ (frags.length ≤ 256 → n ≤ frags.length) ∧
    (s.outcome = .running → After frags n s.sending)

lemma begin_progress {frags : List Bytes} (nonempty : frags ≠ []) : Progress frags begin := by
  have hlen : frags.length ≠ 0 := fun h => nonempty (List.length_eq_zero_iff.mp h)
  refine ⟨0, rfl, fun _ => Nat.zero_le _, fun _ => ⟨rfl, ?_, fun _ => Nat.zero_le _⟩⟩
  exact ⟨fun h => absurd h Bool.noConfusion, fun h => absurd h.2.symm hlen⟩

theorem step_progress {frags : List Bytes} (s : Call) (e : Ev) (h : Progress frags s) :
    Progress frags (step frags s e) := by
  cases e with
  | timeout =>
    simp only [step]
    split
    · obtain ⟨n, hdata, hbound, -⟩ := h
      exact ⟨n, hdata, hbound, fun hrun => by cases hrun⟩
    · exact h
  | ack pkt written =>
    simp only [step]
    split
    · rename_i hrunning
      obtain ⟨n, hdata, -, hsending⟩ := h
      obtain ⟨m, pkts, s', o, hack, hs', hpkts⟩ := onAck_rounds pkt (hsending hrunning)
      simp only [hack, hdata]
      rcases hpkts with rfl | ⟨rfl, rfl⟩
      · obtain ⟨k, hk, hwritten, hall⟩ := filter_writes_rounds frags n m written
        rw [hwritten, rounds_append]
        refine ⟨n + k, rfl, fun hfew => ?_, fun hrun => ?_⟩
        · have hend := hs'.bound hfew
          omega
        · have hk : k = m := by
            rcases afterWrites_running hrun with hnone | hempty
            · exact hall hnone
            · have hm : m = 0 := by simpa [rounds] using hempty
              omega
          rw [hk]
          exact hs'
      · rw [filter_writes_fin, List.append_nil]
        exact ⟨n, rfl, hs'.bound, fun _ => hs'⟩
    · exact h

/-- FIRST on the first fragment, LAST on the final one. -/
def frameFlags (count i : Nat) : UInt8 :=
  (if i = 0 then flagFirst else 0) ||| (if i = count - 1 then flagLast else 0)

/-- The fragments in order, each behind its flags and its sequence number. -/
def framed (frags : List Bytes) : List Bytes :=
  frags.mapIdx fun i frag => [frameFlags frags.length i, UInt8.ofNat i] ++ frag

/-- The data packets are framed fragments from the first on, and their payloads join up to the
start of the data. -/
structure InOrder (frags : List Bytes) (data : Bytes) (pkts : List Bytes) : Prop where
  packets : pkts <+: framed frags
  payload : (pkts.map (List.drop headerLen)).flatten <+: data

/-- As long as the index is a byte, the loop writes the framed fragments. -/
lemma packetAt_eq_framed {frags : List Bytes} {i : Nat} (byte : i < 256)
    (inside : i < frags.length) : (framed frags)[i]? = some (packetAt frags i) := by
  have hmod : i % 256 = i := Nat.mod_eq_of_lt byte
  have hseq : (UInt8.ofNat i).toNat = i := by rw [toNat_ofNat_mod, hmod]
  simp [framed, packetAt, frameFlags, flags, hseq, hmod, inside]

lemma rounds_eq_take {frags : List Bytes} {n : Nat} (bytes : n ≤ 256)
    (inside : n ≤ frags.length) : rounds frags 0 n = (framed frags).take n := by
  refine List.ext_getElem? fun i => ?_
  by_cases hi : i < n
  · rw [List.getElem?_take_of_lt hi, packetAt_eq_framed (by omega) (by omega)]
    simp [rounds, hi]
  · rw [List.getElem?_take_eq_none (by omega)]
    simp [rounds, hi]

/-- The packet of round 256 carries FIRST again. -/
lemma rounds_wrapped {frags : List Bytes} {n : Nat} (many : 256 < frags.length)
    (wrapped : 256 < n) : ¬ rounds frags 0 n <+: framed frags := by
  rintro ⟨rest, hrest⟩
  have hwritten : (rounds frags 0 n ++ rest)[256]? = some (packetAt frags 256) := by
    rw [List.getElem?_append_left (by simpa [rounds] using wrapped)]
    simp [rounds, wrapped]
  have hframed : (framed frags)[256]? =
      some ([frameFlags frags.length 256, 0] ++ frags.getD 256 []) := by
    simp [framed, many]
  have hne : ¬ 0 = frags.length - 1 := by omega
  rw [hrest, hframed] at hwritten
  have hflags : frameFlags frags.length 256 = flags frags.length 0 :=
    (List.cons.inj (Option.some.inj hwritten)).1
  have hfirst : flags frags.length 0 = flagFirst := by simp [flags, hne]
  have hlater : frameFlags frags.length 256 = if 256 = frags.length - 1 then flagLast else 0 := by
    simp [frameFlags]
  rw [hfirst, hlater] at hflags
  split at hflags <;> exact absurd hflags (by decide)

lemma framed_payload (frags : List Bytes) :
    (framed frags).map (List.drop headerLen) = frags := by
  refine List.ext_getElem? fun i => ?_
  cases h : frags[i]? <;> simp [framed, headerLen, h]

/-- A call writes the packets of its first rounds, no more than there are small fragments. -/
lemma send_rounds {p : Port} (c : Sender p) (data : Payload p) (es : List Ev) :
    ∃ n, (send p c.toSarSender data.bytes es).data = rounds (c.frags data.bytes) 0 n ∧
      ((c.frags data.bytes).length ≤ 256 → n ≤ (c.frags data.bytes).length) := by
  rw [send]
  cases hfrags : sendFrags p c.toSarSender data.bytes with
  | none => exact ⟨0, rfl, fun _ => Nat.zero_le _⟩
  | some frags =>
    obtain rfl := sendFrags_eq c data hfrags
    obtain ⟨n, hdata, hbound, -⟩ := foldl_invariant (I := Progress (c.frags data.bytes))
      step_progress (begin_progress (c.frags_ne_nil data.bytes)) es
    exact ⟨n, hdata, hbound⟩

lemma inOrder_iff {p : Port} (c : Sender p) (data : Payload p) (es : List Ev) :
    let s := send p c.toSarSender data.bytes es
    InOrder (c.frags data.bytes) data.bytes s.data ↔
      (c.frags data.bytes).length ≤ 256 ∨ s.data.length ≤ 256 := by
  intro s
  obtain ⟨n, hdata, hbound⟩ := send_rounds c data es
  have hlen : s.data.length = n := by
    rw [show s.data = _ from hdata]
    simp [rounds]
  rw [show s.data = _ from hdata] at hlen ⊢
  rw [hlen]
  constructor
  · rintro ⟨hpackets, -⟩
    by_contra hno
    obtain ⟨hmany, hwrapped⟩ := not_or.mp hno
    exact rounds_wrapped (Nat.lt_of_not_le hmany) (Nat.lt_of_not_le hwrapped) hpackets
  · intro h
    have hbytes : n ≤ 256 ∧ n ≤ (c.frags data.bytes).length := by
      by_cases hfew : (c.frags data.bytes).length ≤ 256
      · have hle := hbound hfew
        omega
      · rcases h with h | h <;> omega
    have hpackets : rounds (c.frags data.bytes) 0 n <+: framed (c.frags data.bytes) := by
      rw [rounds_eq_take hbytes.1 hbytes.2]
      exact List.take_prefix n _
    refine ⟨hpackets, ?_⟩
    have hpayload := (hpackets.map (List.drop headerLen)).flatten
    rwa [framed_payload, SarSender.flatten_frags] at hpayload

/-- A call that goes on after `n` rounds. -/
structure Going (frags : List Bytes) (n : Nat) (s : Call) : Prop where
  running : s.outcome = .running
  data : s.data = rounds frags 0 n
  after : After frags n s.sending

/-- Of more than 256 fragments the last is never reached: an ack of the packet before makes the
sender write another. -/
lemma ack_going {frags : List Bytes} (many : 256 < frags.length) {n : Nat} {s : Call}
    (h : Going frags n s) :
    ∃ m > 0, Going frags (n + m) (step frags s (.ack [codeAck, s.sending.seq - 1, 1] none)) := by
  have hseq : s.sending.seq ≠ s.sending.seq - 1 + 1 + 1 := by simp
  have hmore : s.sending.sentLast = false := by
    rw [Bool.eq_false_iff]
    intro hlast
    have hfew := (h.after.sentLast.mp hlast).1
    omega
  obtain ⟨m, s', hpump, hs', hpositive, -⟩ :=
    pump_rounds (s.sending.seq - 1 + 1 + 1) 256 h.after
  have hfilter : (rounds frags n m).filter isData = rounds frags n m :=
    List.filter_eq_self.mpr (isData_rounds frags n m)
  have hack : onAck frags [codeAck, s.sending.seq - 1, 1] s.sending =
      (rounds frags n m, s', .running) := by
    simp only [onAck, ne_eq, not_true_eq_false, if_false, hmore, Bool.false_eq_true, hpump]
  refine ⟨m, hpositive (by decide) hseq hmore, ?_⟩
  rw [step, if_pos h.running, hack]
  constructor
  · simp [afterWrites]
  · simp only [writes, hfilter, h.data, rounds_append]
  · exact hs'

lemma going_on {frags : List Bytes} (many : 256 < frags.length) (k : Nat) :
    ∃ (es : List Ev) (n : Nat), k ≤ n ∧ Going frags n (es.foldl (step frags) begin) := by
  induction k with
  | zero =>
    have hopen : ¬ (frags.length ≤ 256 ∧ 0 = frags.length) := by omega
    exact ⟨[], 0, Nat.le_refl 0, rfl, rfl, rfl, by simpa [begin] using hopen, by omega⟩
  | succ k ih =>
    obtain ⟨es, n, hk, hgoing⟩ := ih
    obtain ⟨m, hm, hnext⟩ := ack_going many hgoing
    rw [← List.foldl_concat (step frags) begin] at hnext
    exact ⟨_, n + m, by omega, hnext⟩

/-- Of every payload, with every port: with every sequence of acks and write failures the data
packets are the framed fragments in order, and their payloads the start of the data, exactly
when there are at most 256 fragments or no more than 256 packets have been written; and with all
such sequences they are exactly when there are at most 256 fragments or cutting them fails. -/
theorem sends_in_order_iff {p : Port} (c : Sender p) (data : Payload p) :
    (∀ es, let s := send p c.toSarSender data.bytes es
      InOrder (c.frags data.bytes) data.bytes s.data ↔
        (c.frags data.bytes).length ≤ 256 ∨ s.data.length ≤ 256) ∧
    ((∀ es, InOrder (c.frags data.bytes) data.bytes
        (send p c.toSarSender data.bytes es).data) ↔
      (c.frags data.bytes).length ≤ 256 ∨ sendFrags p c.toSarSender data.bytes = none) := by
  have hexact := fun es => inOrder_iff c data es
  refine ⟨hexact, fun hall => ?_, ?_⟩
  · by_contra hno
    obtain ⟨hmany, hcut⟩ := not_or.mp hno
    obtain ⟨frags, hfrags⟩ := Option.ne_none_iff_exists'.mp hcut
    obtain rfl := sendFrags_eq c data hfrags
    obtain ⟨es, n, hn, hgoing⟩ := going_on (Nat.lt_of_not_le hmany) 257
    have hsent : (send p c.toSarSender data.bytes es).data = rounds (c.frags data.bytes) 0 n := by
      rw [send, hfrags]
      exact hgoing.data
    have hinOrder := hall es
    rw [hsent] at hinOrder
    exact rounds_wrapped (Nat.lt_of_not_le hmany) hn hinOrder.packets
  · rintro (hfew | hcut) es
    · exact (hexact es).mpr (.inl hfew)
    · refine (hexact es).mpr (.inr ?_)
      rw [send, hcut]
      exact Nat.zero_le _

/-- Packets with one byte of payload. -/
def tiny : Sender .python := ⟨⟨3, by decide⟩, by simp [Port.intEnd]⟩

/-- 257 fragments for such packets. -/
def long : Payload .python := ⟨(List.range 257).map UInt8.ofNat, by simp [Port.intEnd]⟩

/-- Acks for full windows of 127. -/
def fullWindows : List Ev :=
  [.ack [0, 0xFF, 127] none, .ack [0, 126, 127] none, .ack [0, 253, 127] none]

lemma fullWindows_sent :
    let s := send .python tiny.toSarSender long.bytes fullWindows
    (s.outcome, s.data.length) = (.running, 381) := by
  decide +kernel

/-- The third of the acks makes the sender write the fragments 254 and 255, and then those
from 0 on. -/
theorem sends_again_from_start :
    let s := send .python tiny.toSarSender long.bytes fullWindows
    (tiny.frags long.bytes).length = 257 ∧ s.outcome = .running ∧ s.data.length = 381 ∧
    s.data[256]? = some [flagFirst, 0, 0] ∧
    ¬ InOrder (tiny.frags long.bytes) long.bytes s.data := by
  have hmany : (tiny.frags long.bytes).length = 257 := by decide +kernel
  have hfirst : packetAt (tiny.frags long.bytes) 256 = [flagFirst, 0, 0] := by decide +kernel
  obtain ⟨hrunning, hlength⟩ := Prod.mk.inj fullWindows_sent
  obtain ⟨n, hdata, -⟩ := send_rounds tiny long fullWindows
  have hn : n = 381 := by
    rw [hdata] at hlength
    simpa [rounds] using hlength
  have hmore : 256 < n := by omega
  refine ⟨hmany, hrunning, hlength, ?_, fun h => ?_⟩
  · rw [hdata, ← hfirst]
    simp [rounds, hmore]
  · have hlong : 256 < (tiny.frags long.bytes).length := by omega
    refine rounds_wrapped hlong hmore ?_
    rw [← hdata]
    exact h.packets

/-- The index that an ack confirms; `0xFF` stands before the first. -/
def ackIndex (seq : UInt8) : Int := if seq = 0xFF then -1 else seq.toNat

lemma neg_one_le_ackIndex (seq : UInt8) : -1 ≤ ackIndex seq := by
  rw [ackIndex]
  split <;> omega

/-- An ack of the receiver: what it confirms, its window, and how its writes end. -/
structure WindowAck where
  seq : UInt8
  window : UInt8
  written : Option Nat

def WindowAck.packet (a : WindowAck) : Bytes := [codeAck, a.seq, a.window]

def ackStep (frags : List Bytes) (s : Call) (a : WindowAck) : Call :=
  step frags s (.ack a.packet a.written)

/-- Every fragment that is written for the ack has an index inside the window. -/
def Respects (frags : List Bytes) (s : Call) (a : WindowAck) : Prop :=
  s.outcome = .running → ∀ flags seq payload,
    flags :: seq :: payload ∈ (onAck frags a.packet s.sending).1 →
      isData (flags :: seq :: payload) →
      (seq.toNat : Int) ≤ ackIndex a.seq + a.window.toNat

/-- The window does not end before the fragments already sent, unless these are all. -/
def NotBehind (s : Call) (a : WindowAck) : Prop :=
  s.outcome = .running → s.sending.sentLast = true ∨
    (s.sending.seq.toNat : Int) ≤ ackIndex a.seq + a.window.toNat + 1

instance (s : Call) (a : WindowAck) : Decidable (NotBehind s a) :=
  inferInstanceAs (Decidable (_ → _ ∨ _))

/-- The target of an ack is the end of its window, modulo 256. -/
lemma target_toNat (a : WindowAck) :
    ((a.seq + a.window + 1).toNat : Int) = (ackIndex a.seq + a.window.toNat + 1) % 256 := by
  have hone : (1 : UInt8).toNat = 1 := rfl
  rw [UInt8.toNat_add, UInt8.toNat_add, hone, ackIndex]
  split
  · rename_i hnone
    have hff : a.seq.toNat = 255 := by rw [hnone]; rfl
    omega
  · omega

/-- Before the last fragment an ack leads to rounds of the loop. -/
lemma onAck_pump {frags : List Bytes} {s : Sending} (more : s.sentLast = false) (a : WindowAck)
    {pkts : List Bytes} {s' : Sending}
    (h : pump frags (a.seq + a.window + 1) 256 s = (pkts, .ok s')) :
    onAck frags a.packet s = (pkts, s', .running) := by
  simp only [onAck, WindowAck.packet, more, h, ne_eq, not_true_eq_false, if_false,
    Bool.false_eq_true]

/-- After the last fragment an ack closes the transfer or does nothing. -/
lemma onAck_sentLast {frags : List Bytes} {s : Sending} (last : s.sentLast = true)
    (a : WindowAck) : ∀ pkt ∈ (onAck frags a.packet s).1, isData pkt = false := by
  simp only [onAck, WindowAck.packet, last, ne_eq, not_true_eq_false, if_false, if_true]
  split
  · rintro pkt hpkt
    rw [List.mem_singleton.mp hpkt]
    decide
  · simp

lemma seq_of_mem_rounds {frags : List Bytes} {n m : Nat} {flags seq : UInt8} {payload : Bytes}
    (h : flags :: seq :: payload ∈ rounds frags n m) : ∃ j < m, seq = UInt8.ofNat (n + j) := by
  obtain ⟨j, hj, heq⟩ := List.mem_map.mp h
  exact ⟨j, List.mem_range.mp hj, (List.cons.inj (List.cons.inj heq).2).1.symm⟩

/-- One ack is answered inside its window exactly when the window is not behind. -/
lemma respects_iff {frags : List Bytes} (few : frags.length ≤ 255) {s : Call}
    (h : Progress frags s) (a : WindowAck) : Respects frags s a ↔ NotBehind s a := by
  refine forall_congr' fun hrunning => ?_
  obtain ⟨n, -, hbound, hsending⟩ := h
  have hafter := hsending hrunning
  have hn : n ≤ 255 := Nat.le_trans (hbound (by omega)) few
  have hseq : s.sending.seq.toNat = n := by
    rw [hafter.seq, toNat_ofNat_small hn]
  have htarget := target_toNat a
  have hlow := neg_one_le_ackIndex a.seq
  rw [hseq]
  cases hlast : s.sending.sentLast with
  | true =>
    refine iff_of_true (fun flags seq payload hmem hdata => ?_) (Or.inl rfl)
    exact absurd (onAck_sentLast hlast a _ hmem ▸ hdata) Bool.noConfusion
  | false =>
    obtain ⟨m, s', hpump, hs', hfirst, hahead⟩ :=
      pump_rounds (a.seq + a.window + 1) 256 hafter
    rw [onAck_pump hlast a hpump]
    have hm : n + m ≤ 255 := Nat.le_trans (hs'.bound (by omega)) few
    constructor
    · intro hrespects
      refine Or.inr ?_
      by_contra hbehind
      have hne : s.sending.seq ≠ a.seq + a.window + 1 := by
        intro heq
        rw [← heq, hseq] at htarget
        omega
      have hpos := hfirst (by decide) hne hlast
      have hmem : packetAt frags n ∈ rounds frags n m :=
        List.mem_map.mpr ⟨0, List.mem_range.mpr hpos, rfl⟩
      have hindex := hrespects _ _ _ hmem (isData_rounds frags n m _ hmem)
      rw [toNat_ofNat_small hn] at hindex
      omega
    · rintro (hno | hle) flags seq payload hmem -
      · exact absurd hno Bool.noConfusion
      · obtain ⟨j, hj, rfl⟩ := seq_of_mem_rounds hmem
        rw [toNat_ofNat_small (by omega)]
        omega

/-- For a payload of at most 255 fragments and every sequence of acks: each ack is answered
with fragments inside its window only, exactly when no window ends before the fragments
already sent while there are more to send. -/
theorem window_respected_iff (c : SarSender) (data : Bytes)
    (few : (c.frags data).length ≤ 255) (acks : List WindowAck) :
    Each (ackStep (c.frags data)) (Respects (c.frags data)) begin acks ↔
      Each (ackStep (c.frags data)) NotBehind begin acks :=
  each_iff_each (I := Progress (c.frags data)) (fun s _ h _ => step_progress s _ h)
    (fun _ a h => respects_iff few h a) (begin_progress (c.frags_ne_nil data)) acks

/-- With a constant window every ack is answered inside it. -/
theorem window_respected_constant :
    (tiny.frags [7, 8, 9, 10]).length ≤ 255 ∧
    Each (ackStep (tiny.frags [7, 8, 9, 10])) (Respects (tiny.frags [7, 8, 9, 10])) begin
      [⟨0xFF, 2, none⟩, ⟨0, 2, none⟩, ⟨1, 2, none⟩, ⟨3, 2, none⟩] :=
  have few : (tiny.frags [7, 8, 9, 10]).length ≤ 255 := by decide +kernel
  ⟨few, (window_respected_iff tiny.toSarSender [7, 8, 9, 10] few _).mpr (by decide +kernel)⟩

/-- The ack confirms nothing yet or a fragment that was sent, and no less than the ack before;
its window is one of a receiver. -/
def WellFormed (before : Int) (s : Call) (a : WindowAck) : Prop :=
  a.window ≤ 127 ∧ before ≤ ackIndex a.seq ∧ ackIndex a.seq < s.sending.seq.toNat

/-- A window of five, then one of two: the sender, already past its end, goes on to the last
fragment. -/
theorem window_overrun :
    let frags := tiny.frags [7, 8, 9, 10, 11, 12, 13, 14]
    let s := ackStep frags begin ⟨0xFF, 5, none⟩
    frags.length = 8 ∧ WellFormed (-1) begin ⟨0xFF, 5, none⟩ ∧ WellFormed (-1) s ⟨1, 2, none⟩ ∧
    (onAck frags (WindowAck.packet ⟨1, 2, none⟩) s.sending).1 =
      [[0, 5, 12], [0, 6, 13], [flagLast, 7, 14]] ∧
    ¬ Respects frags s ⟨1, 2, none⟩ := by
  intro frags s
  have hwritten : (onAck frags (WindowAck.packet ⟨1, 2, none⟩) s.sending).1 =
      [[0, 5, 12], [0, 6, 13], [flagLast, 7, 14]] := by decide +kernel
  refine ⟨by decide +kernel, ⟨by decide, by decide, by decide⟩,
    ⟨by decide, by decide, by decide +kernel⟩, hwritten, fun h => ?_⟩
  have hindex := h (by decide +kernel) 0 5 [12] (by rw [hwritten]; simp) (by decide)
  exact absurd hindex (by decide)

end SarSenders
