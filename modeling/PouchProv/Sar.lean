import PouchProv.Bytes
import PouchProv.Runs
import Mathlib.Data.List.Infix

/-!
# Segmentation and reassembly

`SarSender.send` and `SarReceiver.receive` of `sar.py`, and one transfer between
them over two channels. A channel is the list of all packets that were ever
written to it. A delivery takes any of them, so packets can be late, lost,
repeated and out of order.

Sequence numbers are bytes, as on the wire: adding to one wraps as the mask of
the source does.
-/

namespace Sar

open Runs

def flagFirst : UInt8 := 0x01
def flagLast : UInt8 := 0x02
def flagFin : UInt8 := 0x04

def codeAck : UInt8 := 0

def headerLen : Nat := 2

/-- How far a call has come. An exception is given by its text. -/
inductive Outcome (α : Type) where
  | running
  | returned (a : α)
  | raised (message : String)
  deriving DecidableEq, Repr

/-- A `SarSender` that the constructor accepts. -/
structure SarSender where
  maxlen : Nat
  large : headerLen < maxlen

def SarSender.frag (c : SarSender) : Nat := c.maxlen - headerLen

/-- `data[i : i + frag]` for `i` in `range(0, len(data), frag)` -/
def slices (frag : Nat) (data : Bytes) : List Bytes :=
  (List.range ((data.length + frag - 1) / frag)).map fun k => (data.drop (k * frag)).take frag

/-- The fragments of a payload: an empty payload is one empty fragment. -/
def SarSender.frags (c : SarSender) (data : Bytes) : List Bytes :=
  if slices c.frag data = [] then [[]] else slices c.frag data

/-- The local variables of `send` that outlive one ack. -/
structure Sending where
  seq : UInt8
  sentLast : Bool
  deriving DecidableEq, Repr

def flags (count : Nat) (seq : UInt8) : UInt8 :=
  (if seq.toNat = 0 then flagFirst else 0) ||| (if seq.toNat = count - 1 then flagLast else 0)

/-- The inner loop: the packets that it writes, and the variables that it leaves, if it does
not raise. It stops when `seq` reaches `target`, so it never takes 256 rounds. -/
def pump (frags : List Bytes) (target : UInt8) : Nat → Sending → List Bytes × Except String Sending
  | 0, s => ([], .ok s)
  | fuel + 1, s =>
    if s.seq ≠ target ∧ s.sentLast = false then
      match frags[s.seq.toNat]? with
      | none => ([], .error "list index out of range")
      | some frag =>
        let rest := pump frags target fuel
          { seq := s.seq + 1, sentLast := decide (s.seq.toNat = frags.length - 1) }
        (([flags frags.length s.seq, s.seq] ++ frag) :: rest.1, rest.2)
    else ([], .ok s)

/-- One round of `send`, for an ack that was received. -/
def onAck (frags : List Bytes) (ack : Bytes) (s : Sending) : List Bytes × Sending × Outcome Unit :=
  match ack with
  | [code, ackSeq, window] =>
    if code ≠ codeAck then ([], s, .raised s!"receiver NACK (code {code})")
    else
      let target := ackSeq + window + 1
      if s.sentLast then
        if ackSeq = s.seq - 1 then ([[flagFin, codeAck]], s, .returned ())
        else ([], s, .running)
      else
        match pump frags target 256 s with
        | (written, .ok s) => (written, s, .running)
        | (written, .error message) => (written, s, .raised message)
  | _ =>
    let n := ack.length
    ([], s, .raised s!"bad ack length {n}")

/-- A `SarReceiver` that the constructor accepts. -/
structure SarReceiver where
  window : Nat
  range : 1 ≤ window ∧ window ≤ 127

/-- The local variables of `receive`. -/
structure Receiving where
  chunks : List Bytes
  expected : UInt8
  last : UInt8
  ended : Bool
  deriving DecidableEq, Repr

def Receiving.start : Receiving := ⟨[], 0, 0xFF, false⟩

def ackPacket (c : SarReceiver) (seq : UInt8) : Bytes := [codeAck, seq, UInt8.ofNat c.window]

/-- One round of `receive`, for a packet that was received. -/
def onPacket (c : SarReceiver) (pkt : Bytes) (r : Receiving) :
    List Bytes × Receiving × Outcome Bytes :=
  match pkt with
  | flags :: seq :: payload =>
    if flags &&& flagFin ≠ 0 then
      if r.ended = false then ([], r, .raised "FIN before LAST fragment")
      else if seq = codeAck then ([], r, .returned r.chunks.flatten)
      else ([], r, .raised s!"transfer failed (FIN code {seq})")
    else if seq ≠ r.expected then ([ackPacket c r.last], r, .running)
    else if r.ended then ([], r, .raised "fragment after LAST")
    else
      let r := { chunks := r.chunks ++ [payload]
                 last := seq
                 expected := seq + 1
                 ended := r.ended || flags &&& flagLast ≠ 0 }
      ([ackPacket c r.last], r, .running)
  | _ => ([], r, .raised "short packet")

structure Transfer where
  sending : Sending
  sent : Outcome Unit
  receiving : Receiving
  received : Outcome Bytes
  /-- What the sender wrote. -/
  packets : List Bytes
  /-- What the receiver wrote. -/
  acks : List Bytes
  deriving DecidableEq, Repr

/-- Both calls have begun: the receiver acks at once, the sender waits for an ack. -/
def start (c : SarReceiver) : Transfer where
  sending := ⟨0, false⟩
  sent := .running
  receiving := .start
  received := .running
  packets := []
  acks := [ackPacket c 0xFF]

/-- A delivery names the packet by its place in the channel. `written` is how many of the
packets of one round reach the channel before a write raises, if one does. -/
inductive Ev where
  | ack (i : Nat) (written : Option Nat)
  | ackTimeout
  | packet (i : Nat) (written : Option Nat)
  | reack (written : Option Nat)
  | dataTimeout
  deriving DecidableEq, Repr

/-- The packets of a round up to the write that raises. -/
def writes (written : Option Nat) (pkts : List Bytes) : List Bytes :=
  match written with
  | none => pkts
  | some k => pkts.take k

/-- A write that raises ends the call with the exception of the transport, except for the
best-effort write with which `send` returns. -/
def afterWrites {α : Type} (written : Option Nat) (pkts : List Bytes) : Outcome α → Outcome α
  | .returned a => .returned a
  | o => if written.isSome ∧ pkts ≠ [] then .raised "write failed" else o

def deliverAck (frags : List Bytes) (t : Transfer) (ack : Bytes) (written : Option Nat) :
    Transfer :=
  let (pkts, s, o) := onAck frags ack t.sending
  { t with sending := s, sent := afterWrites written pkts o
           packets := t.packets ++ writes written pkts }

def deliverPacket (c : SarReceiver) (t : Transfer) (pkt : Bytes) (written : Option Nat) :
    Transfer :=
  let (acks, r, o) := onPacket c pkt t.receiving
  { t with receiving := r, received := afterWrites written acks o
           acks := t.acks ++ writes written acks }

def step (frags : List Bytes) (c : SarReceiver) (t : Transfer) : Ev → Transfer
  | .ack i written =>
    match t.sent, t.acks[i]? with
    | .running, some ack => deliverAck frags t ack written
    | _, _ => t
  | .ackTimeout =>
    if t.sent = .running then { t with sent := .raised "timed out waiting for ack" } else t
  | .packet i written =>
    match t.received, t.packets[i]? with
    | .running, some pkt => deliverPacket c t pkt written
    | _, _ => t
  | .reack written =>
    if t.received = .running then
      let acks := [ackPacket c t.receiving.last]
      { t with received := afterWrites written acks .running
               acks := t.acks ++ writes written acks }
    else t
  | .dataTimeout =>
    if t.received = .running then { t with received := .raised "timed out waiting for data" }
    else t

theorem flatten_slices_take (frag : Nat) (data : Bytes) (m : Nat) :
    ((List.range m).map fun k => (data.drop (k * frag)).take frag).flatten =
      data.take (m * frag) := by
  induction m with
  | zero => simp
  | succ m ih =>
    rw [List.range_succ, List.map_append, List.flatten_append, ih, Nat.succ_mul, List.take_add]
    simp

theorem flatten_slices {frag : Nat} (positive : 0 < frag) (data : Bytes) :
    (slices frag data).flatten = data := by
  rw [slices, flatten_slices_take]
  apply List.take_of_length_le
  have hround := Nat.lt_div_mul_add positive (a := data.length + frag - 1)
  omega

/-- The fragments join up to the payload. -/
theorem SarSender.flatten_frags (c : SarSender) (data : Bytes) : (c.frags data).flatten = data := by
  have hpos : 0 < c.frag := Nat.sub_pos_of_lt c.large
  have hjoin := flatten_slices hpos data
  by_cases hempty : slices c.frag data = []
  · rw [hempty] at hjoin
    rw [SarSender.frags, if_pos hempty, ← hjoin]
    rfl
  · rw [SarSender.frags, if_neg hempty, hjoin]

theorem SarSender.frags_ne_nil (c : SarSender) (data : Bytes) : c.frags data ≠ [] := by
  by_cases hempty : slices c.frag data = []
  · rw [SarSender.frags, if_pos hempty]
    exact List.cons_ne_nil _ _
  · rw [SarSender.frags, if_neg hempty]
    exact hempty

theorem flags_fin (count : Nat) (seq : UInt8) : flags count seq &&& flagFin = 0 := by
  unfold flags
  split <;> split <;> decide

theorem flags_last (count : Nat) (seq : UInt8) :
    flags count seq &&& flagLast ≠ 0 ↔ seq.toNat = count - 1 := by
  unfold flags
  constructor
  · intro h
    by_contra hlast
    rw [if_neg hlast] at h
    split at h <;> exact h (by decide)
  · intro hlast
    rw [if_pos hlast]
    split <;> decide

theorem toNat_succ {b : UInt8} (small : b.toNat < 255) : (b + 1).toNat = b.toNat + 1 := by
  rw [UInt8.toNat_add]
  exact Nat.mod_eq_of_lt (by have h1 : (1 : UInt8).toNat = 1 := rfl; omega)

theorem toNat_ofNat_small {k : Nat} (small : k ≤ 255) : (UInt8.ofNat k).toNat = k := by
  rw [UInt8.toNat_ofNat']
  exact Nat.mod_eq_of_lt (by omega)

/-- One data packet of the transfer. -/
def IsFragment (frags : List Bytes) (pkt : Bytes) : Prop :=
  ∃ seq frag, frags[seq.toNat]? = some frag ∧ pkt = [flags frags.length seq, seq] ++ frag

/-- The variables of `send`: `seq` fragments were written, and `sentLast` says whether these
are all. -/
def Sent (frags : List Bytes) (s : Sending) : Prop :=
  if s.sentLast then s.seq.toNat = frags.length else s.seq.toNat < frags.length

/-- The variables of `receive`: the chunks are the first fragments. -/
structure Accepted (frags : List Bytes) (r : Receiving) : Prop where
  chunks : r.chunks <+: frags
  expected : r.expected = UInt8.ofNat r.chunks.length
  last : r.last = r.expected - 1
  ended : r.ended = true ↔ r.chunks.length = frags.length

section Sides

variable {frags : List Bytes} (few : frags.length ≤ 255)
include few

theorem pump_writes (target : UInt8) (fuel : Nat) {s : Sending} (h : Sent frags s) :
    (∀ pkt ∈ (pump frags target fuel s).1, IsFragment frags pkt) ∧
      ∃ s', (pump frags target fuel s).2 = .ok s' ∧ Sent frags s' := by
  induction fuel generalizing s with
  | zero => exact ⟨fun pkt hpkt => absurd hpkt List.not_mem_nil, s, rfl, h⟩
  | succ fuel ih =>
    by_cases hgo : s.seq ≠ target ∧ s.sentLast = false
    · have hlt : s.seq.toNat < frags.length := by simpa [Sent, hgo.2] using h
      have hfrag := List.getElem?_eq_getElem hlt
      have hsucc : (s.seq + 1).toNat = s.seq.toNat + 1 := toNat_succ (by omega)
      have hnext : Sent frags
          { seq := s.seq + 1, sentLast := decide (s.seq.toNat = frags.length - 1) } := by
        by_cases hlast : s.seq.toNat = frags.length - 1
        · simp only [Sent, hlast, decide_true, if_true, hsucc]
          omega
        · simp only [Sent, hlast, decide_false, Bool.false_eq_true, if_false, hsucc]
          omega
      obtain ⟨hrest, hend⟩ := ih hnext
      rw [pump, if_pos hgo, hfrag]
      refine ⟨?_, hend⟩
      intro pkt hpkt
      rcases List.mem_cons.mp hpkt with rfl | hpkt
      · exact ⟨s.seq, _, hfrag, rfl⟩
      · exact hrest pkt hpkt
    · rw [pump, if_neg hgo]
      exact ⟨fun pkt hpkt => absurd hpkt List.not_mem_nil, s, rfl, h⟩

/-- The sender reads an ack for `k` fragments. It ends the transfer only if these are all. -/
theorem onAck_writes (c : SarReceiver) {s : Sending} (h : Sent frags s) {k : Nat}
    (bound : k ≤ frags.length) {pkts : List Bytes} {s' : Sending} {o : Outcome Unit}
    (round : onAck frags (ackPacket c (UInt8.ofNat k - 1)) s = (pkts, s', o)) :
    Sent frags s' ∧ (∀ pkt ∈ pkts, IsFragment frags pkt ∨
        pkt = [flagFin, codeAck] ∧ k = frags.length) ∧
      (o = .returned () → k = frags.length) := by
  by_cases hlast : s.sentLast = true
  · have hseq : s.seq.toNat = frags.length := by simpa [Sent, hlast] using h
    by_cases hack : UInt8.ofNat k - 1 = s.seq - 1
    · have hk : k = frags.length := by
        have heq : UInt8.ofNat k = s.seq := (UInt8.sub_left_inj 1).mp hack
        rw [← hseq, ← heq, toNat_ofNat_small (by omega)]
      simp only [onAck, ackPacket, hlast, hack, ne_eq, not_true_eq_false, if_false, if_true]
        at round
      cases round
      refine ⟨h, ?_, fun _ => hk⟩
      intro pkt hpkt
      exact Or.inr ⟨List.mem_singleton.mp hpkt, hk⟩
    · simp only [onAck, ackPacket, hlast, hack, ne_eq, not_true_eq_false, if_false, if_true]
        at round
      cases round
      exact ⟨h, fun pkt hpkt => absurd hpkt List.not_mem_nil, fun ho => by cases ho⟩
  · obtain ⟨hpkts, s'', hend, hs''⟩ :=
      pump_writes few (UInt8.ofNat k - 1 + UInt8.ofNat c.window + 1) 256 h
    simp only [onAck, ackPacket, hlast, ne_eq, not_true_eq_false, if_false] at round
    rcases hr : pump frags (UInt8.ofNat k - 1 + UInt8.ofNat c.window + 1) 256 s with ⟨written, r⟩
    rw [hr] at round hpkts hend
    subst hend
    cases round
    exact ⟨hs'', fun pkt hpkt => Or.inl (hpkts pkt hpkt), fun ho => by cases ho⟩

/-- The fragment with the expected number is the next one in order. -/
theorem Accepted.push {r : Receiving} (h : Accepted frags r) (unended : r.ended = false)
    {frag : Bytes} (hfrag : frags[r.expected.toNat]? = some frag) :
    Accepted frags ⟨r.chunks ++ [frag], r.expected + 1, r.expected,
      r.ended || flags frags.length r.expected &&& flagLast ≠ 0⟩ := by
  have hlen := h.chunks.length_le
  have hplace : r.expected.toNat = r.chunks.length := by
    rw [h.expected, toNat_ofNat_small (by omega)]
  rw [hplace] at hfrag
  obtain ⟨hinside, rfl⟩ := List.getElem?_eq_some_iff.mp hfrag
  have hflag := flags_last frags.length r.expected
  rw [hplace] at hflag
  constructor
  · exact List.concat_get_prefix h.chunks hinside
  · rw [List.length_append, List.length_singleton, h.expected]
    exact (UInt8.ofNat_add _ 1).symm
  · exact (UInt8.add_sub_cancel _ _).symm
  · rw [unended, Bool.false_or, decide_eq_true_iff, List.length_append, List.length_singleton]
    refine hflag.trans ?_
    omega

/-- The receiver reads a packet of the transfer. -/
theorem onPacket_accepts (c : SarReceiver) {r : Receiving} (h : Accepted frags r) {pkt : Bytes}
    (from_sender : IsFragment frags pkt ∨ pkt = [flagFin, codeAck] ∧ r.chunks = frags)
    {acks : List Bytes} {r' : Receiving} {o : Outcome Bytes}
    (round : onPacket c pkt r = (acks, r', o)) :
    Accepted frags r' ∧ r.chunks.length ≤ r'.chunks.length ∧
      (∀ ack ∈ acks, ack = ackPacket c r'.last) ∧
      (∀ blob, o = .returned blob → blob = frags.flatten) := by
  rcases from_sender with ⟨seq, frag, hfrag, rfl⟩ | ⟨rfl, hall⟩
  · have hfin : ¬ flags frags.length seq &&& flagFin ≠ 0 := not_not.mpr (flags_fin _ _)
    simp only [List.cons_append, List.nil_append, onPacket, if_neg hfin] at round
    by_cases hseq : seq = r.expected
    · by_cases hended : r.ended = true
      · simp only [hseq, hended, ne_eq, not_true_eq_false, if_false, if_true] at round
        cases round
        exact ⟨h, Nat.le_refl _, fun ack hack => absurd hack List.not_mem_nil,
          fun blob ho => by cases ho⟩
      · subst hseq
        simp only [ne_eq, not_true_eq_false, if_false, if_neg hended] at round
        cases round
        refine ⟨h.push few (Bool.eq_false_iff.mpr hended) hfrag, ?_, ?_, fun blob ho => by cases ho⟩
        · simp
        · exact fun ack hack => List.mem_singleton.mp hack
    · simp only [ne_eq, hseq, not_false_eq_true, if_true] at round
      cases round
      exact ⟨h, Nat.le_refl _, fun ack hack => List.mem_singleton.mp hack,
        fun blob ho => by cases ho⟩
  · have hended : r.ended = true := h.ended.mpr (congrArg List.length hall)
    have hfin : flagFin &&& flagFin ≠ 0 := by decide
    simp only [onPacket, if_pos hfin, hended, Bool.true_eq_false, if_false, if_true] at round
    cases round
    exact ⟨h, Nat.le_refl _, fun ack hack => absurd hack List.not_mem_nil,
      fun blob ho => by cases ho; rw [hall]⟩

end Sides

/-- What holds of a transfer at any time. An ack on its way counts no more fragments than are
accepted now, and a FIN is on its way only when all are. -/
structure Exact (frags : List Bytes) (c : SarReceiver) (t : Transfer) : Prop where
  sending : Sent frags t.sending
  receiving : Accepted frags t.receiving
  packets : ∀ pkt ∈ t.packets, IsFragment frags pkt ∨
    pkt = [flagFin, codeAck] ∧ t.receiving.chunks = frags
  acks : ∀ ack ∈ t.acks, ∃ k ≤ t.receiving.chunks.length, ack = ackPacket c (UInt8.ofNat k - 1)
  sent : t.sent = .returned () → t.receiving.chunks = frags
  received : ∀ blob, t.received = .returned blob → blob = frags.flatten

theorem mem_of_mem_writes {written : Option Nat} {pkts : List Bytes} {pkt : Bytes}
    (h : pkt ∈ writes written pkts) : pkt ∈ pkts := by
  cases written with
  | none => exact h
  | some k => exact List.mem_of_mem_take h

theorem afterWrites_returned {α : Type} {written : Option Nat} {pkts : List Bytes}
    {o : Outcome α} {a : α} (h : afterWrites written pkts o = .returned a) : o = .returned a := by
  cases o with
  | returned b => exact h
  | running | raised =>
    simp only [afterWrites] at h
    split at h <;> cases h

section Whole

variable {frags : List Bytes} {c : SarReceiver} {t : Transfer}

theorem start_exact (nonempty : frags ≠ []) : Exact frags c (start c) where
  sending := List.length_pos_iff.mpr nonempty
  receiving := ⟨ List.nil_prefix, rfl, rfl,
    ⟨fun h => (by cases h), fun h => absurd (List.length_eq_zero_iff.mp h.symm) nonempty⟩⟩
  packets := fun pkt hpkt => absurd hpkt List.not_mem_nil
  acks := fun ack hack => ⟨0, Nat.le_refl _, List.mem_singleton.mp hack⟩
  sent := fun h => by cases h
  received := fun blob h => by cases h

theorem deliverAck_exact (few : frags.length ≤ 255) (h : Exact frags c t) {ack : Bytes}
    (inChannel : ack ∈ t.acks) (written : Option Nat) :
    Exact frags c (deliverAck frags t ack written) := by
  obtain ⟨k, hk, rfl⟩ := h.acks ack inChannel
  rcases hround : onAck frags (ackPacket c (UInt8.ofNat k - 1)) t.sending with ⟨pkts, s, o⟩
  have hlen := h.receiving.chunks.length_le
  obtain ⟨hs, hpkts, ho⟩ := onAck_writes few c h.sending (Nat.le_trans hk hlen) hround
  have hfull : k = frags.length → t.receiving.chunks = frags := by
    rintro rfl
    exact h.receiving.chunks.eq_of_length_le hk
  simp only [deliverAck, hround]
  refine ⟨hs, h.receiving, ?_, h.acks, ?_, h.received⟩
  · intro pkt hpkt
    rcases List.mem_append.mp hpkt with hold | hnew
    · exact h.packets pkt hold
    · rcases hpkts pkt (mem_of_mem_writes hnew) with hfrag | ⟨hfin, hall⟩
      · exact Or.inl hfrag
      · exact Or.inr ⟨hfin, hfull hall⟩
  · exact fun hreturned => hfull (ho (afterWrites_returned hreturned))

theorem deliverPacket_exact (few : frags.length ≤ 255) (h : Exact frags c t) {pkt : Bytes}
    (inChannel : pkt ∈ t.packets) (written : Option Nat) :
    Exact frags c (deliverPacket c t pkt written) := by
  rcases hround : onPacket c pkt t.receiving with ⟨acks, r, o⟩
  obtain ⟨hr, hgrow, hacks, ho⟩ := onPacket_accepts few c h.receiving (h.packets pkt inChannel)
    hround
  -- chunks are only added, so what was complete stays complete
  have hstays : t.receiving.chunks = frags → r.chunks = frags := by
    intro hall
    rw [hall] at hgrow
    exact hr.chunks.eq_of_length_le hgrow
  simp only [deliverPacket, hround]
  refine ⟨h.sending, hr, ?_, ?_, fun hreturned => hstays (h.sent hreturned), ?_⟩
  · intro p hp
    rcases h.packets p hp with hfrag | ⟨hfin, hall⟩
    · exact Or.inl hfrag
    · exact Or.inr ⟨hfin, hstays hall⟩
  · intro ack hack
    rcases List.mem_append.mp hack with hold | hnew
    · obtain ⟨k, hk, heq⟩ := h.acks ack hold
      exact ⟨k, Nat.le_trans hk hgrow, heq⟩
    · refine ⟨r.chunks.length, Nat.le_refl _, ?_⟩
      rw [hacks ack (mem_of_mem_writes hnew), hr.last, hr.expected]
  · exact fun blob hreturned => ho blob (afterWrites_returned hreturned)

theorem step_exact (few : frags.length ≤ 255) (t : Transfer) (e : Ev) (h : Exact frags c t) :
    Exact frags c (step frags c t e) := by
  cases e with
  | ack i written =>
    simp only [step]
    split
    · next ack _ hack => exact deliverAck_exact few h (List.mem_of_getElem? hack) written
    · exact h
  | ackTimeout =>
    simp only [step]
    split
    · exact ⟨h.sending, h.receiving, h.packets, h.acks, fun ho => (by cases ho), h.received⟩
    · exact h
  | packet i written =>
    simp only [step]
    split
    · next pkt _ hpkt => exact deliverPacket_exact few h (List.mem_of_getElem? hpkt) written
    · exact h
  | reack written =>
    simp only [step]
    split
    · refine ⟨h.sending, h.receiving, h.packets, ?_, h.sent, ?_⟩
      · intro ack hack
        rcases List.mem_append.mp hack with hold | hnew
        · exact h.acks ack hold
        · refine ⟨t.receiving.chunks.length, Nat.le_refl _, ?_⟩
          rw [List.mem_singleton.mp (mem_of_mem_writes hnew), h.receiving.last,
            h.receiving.expected]
      · intro blob hreturned
        have hrunning : Outcome.running = .returned blob := afterWrites_returned hreturned
        cases hrunning
    · exact h
  | dataTimeout =>
    simp only [step]
    split
    · exact ⟨h.sending, h.receiving, h.packets, h.acks, h.sent, fun blob ho => by cases ho⟩
    · exact h

end Whole

/-- For a payload of at most 255 fragments, whatever the channels do: a blob that `receive`
returns is the payload, and when `send` returns the receiver has accepted every fragment in
order. -/
theorem transfer_exact (tx : SarSender) (rx : SarReceiver) (data : Bytes)
    (few : (tx.frags data).length ≤ 255) (es : List Ev) :
    Always (step (tx.frags data) rx)
      (fun t => (∀ blob, t.received = .returned blob → blob = data) ∧
        (t.sent = .returned () → t.receiving.chunks = tx.frags data)) (start rx) es := by
  have hexact := always_of_steps (step_exact (c := rx) few)
    (start_exact (tx.frags_ne_nil data)) es
  refine hexact.mono fun t h => ⟨?_, h.sent⟩
  intro blob hreturned
  rw [h.received blob hreturned, tx.flatten_frags]

/-- Three fragments through a window of one: the first fragment arrives twice, an old ack
makes the sender run ahead of the window, and the fragments arrive out of order. -/
def sampleRun : List Ev :=
  [.ack 0 none, .packet 0 none, .packet 0 none, .ack 1 none, .ack 0 none, .packet 2 none,
    .packet 1 none, .packet 2 none, .reack none, .ack 5 none, .packet 3 none]

theorem transfer_exact_sample :
    ((sampleRun.foldl (step (SarSender.frags ⟨3, by decide⟩ [7, 8, 9]) ⟨1, by decide⟩)
      (start ⟨1, by decide⟩)).received = .returned [7, 8, 9]) ∧
    Always (step (SarSender.frags ⟨3, by decide⟩ [7, 8, 9]) ⟨1, by decide⟩)
      (fun t => (∀ blob, t.received = .returned blob → blob = [7, 8, 9]) ∧
        (t.sent = .returned () → t.receiving.chunks = SarSender.frags ⟨3, by decide⟩ [7, 8, 9]))
      (start ⟨1, by decide⟩) sampleRun :=
  ⟨by decide +kernel, transfer_exact ⟨3, by decide⟩ ⟨1, by decide⟩ [7, 8, 9] (by decide +kernel) _⟩

end Sar
