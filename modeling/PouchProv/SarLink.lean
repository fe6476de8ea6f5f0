import PouchProv.SarSenders

/-!
# Transfers over a reliable link

A SAR transfer between a sender and a receiver whose channels neither lose,
repeat nor reorder packets, as GATT writes and notifications do. The two ends move
in any order, and the receiver may repeat its last ack at any time.

The sender keeps exactly the window of the receiver in flight (`onAck_window`), so
that there is always something to deliver until both calls have returned.
-/

namespace SarLink

open Sar SarSenders Runs

/-- Both calls and the packets on their way, oldest first, with the number of packets that
were taken from the channels so far. -/
structure Link where
  sending : Sending
  sent : Outcome Unit
  receiving : Receiving
  received : Outcome Bytes
  packets : List Bytes
  acks : List Bytes
  taken : Nat
  deriving DecidableEq

def start (c : SarReceiver) : Link where
  sending := ⟨0, false⟩
  sent := .running
  receiving := .start
  received := .running
  packets := []
  acks := [ackPacket c 0xFF]
  taken := 0

/-- The sender takes the oldest ack, the receiver takes the oldest packet, or the re-ack
interval of the receiver elapses. -/
inductive Ev where
  | ack
  | packet
  | reack
  deriving DecidableEq, Repr

def takeAck (frags : List Bytes) (s : Link) : Link :=
  match s.sent, s.acks with
  | .running, ack :: acks =>
    let r := onAck frags ack s.sending
    { s with sending := r.2.1, sent := r.2.2, packets := s.packets ++ r.1, acks := acks
             taken := s.taken + 1 }
  | _, _ => s

def takePacket (c : SarReceiver) (s : Link) : Link :=
  match s.received, s.packets with
  | .running, pkt :: packets =>
    let r := onPacket c pkt s.receiving
    { s with receiving := r.2.1, received := r.2.2, packets := packets, acks := s.acks ++ r.1
             taken := s.taken + 1 }
  | _, _ => s

def step (frags : List Bytes) (c : SarReceiver) (s : Link) : Ev → Link
  | .ack => takeAck frags s
  | .packet => takePacket c s
  | .reack =>
    if s.received = .running then { s with acks := s.acks ++ [ackPacket c s.receiving.last] }
    else s

/-- Neither call has anything to take. -/
def Idle (s : Link) : Prop :=
  (s.sent = .running → s.acks = []) ∧ (s.received = .running → s.packets = [])

section Window

variable {frags : List Bytes}

/-- The inner loop ends at its target or behind the last fragment. -/
lemma pump_ends {target : UInt8} {fuel n : Nat} {s s' : Sending} {pkts : List Bytes}
    (few : frags.length ≤ 255) (h : After frags n s) (enough : frags.length < n + fuel)
    (run : pump frags target fuel s = (pkts, .ok s')) : s'.seq = target ∨ s'.sentLast = true := by
  induction fuel generalizing n s pkts with
  | zero =>
    have hbound := h.bound (by omega)
    omega
  | succ fuel ih =>
    by_cases hgo : s.seq ≠ target ∧ s.sentLast = false
    · obtain ⟨hfrag, hnext⟩ := h.succ hgo.2
      simp only [pump, if_pos hgo, hfrag] at run
      exact ih hnext (by omega) (Prod.ext rfl (Prod.mk.inj run).2)
    · rw [pump, if_neg hgo] at run
      obtain rfl : s = s' := Except.ok.inj (congrArg Prod.snd run)
      by_cases hseq : s.seq = target
      · exact .inl hseq
      · exact .inr (by simpa [hseq] using hgo)

/-- The ack for the first `k` fragments. -/
def ackFor (c : SarReceiver) (k : Nat) : Bytes := ackPacket c (UInt8.ofNat k - 1)

lemma target_eq (c : SarReceiver) (k : Nat) :
    UInt8.ofNat k - 1 + UInt8.ofNat c.window + 1 = UInt8.ofNat (k + c.window) := by
  rw [UInt8.add_assoc, UInt8.add_comm (UInt8.ofNat c.window), ← UInt8.add_assoc,
    UInt8.sub_add_cancel, ← UInt8.ofNat_add]

/-- A loop that ends at the end of a window, which may have wrapped, or at the end of the
payload, ends at the first of both. -/
lemma window_end {n k w m e : Nat} (few : n ≤ 255) (small : w ≤ 127) (known : k ≤ m)
    (inside : m ≤ k + w) (grown : m ≤ e) (bound : e ≤ n) (ends : e = (k + w) % 256 ∨ e = n)
    (ahead : m ≤ (k + w) % 256 → e ≤ (k + w) % 256) : e = min n (k + w) := by
  omega

/-- An ack for `k` fragments, none of which is new to the sender and whose window is not
behind what was sent: the sender writes up to the end of the window or of the payload. -/
lemma onAck_window (few : frags.length ≤ 255) (c : SarReceiver) {m k : Nat} {s : Sending}
    (h : After frags m s) (known : k ≤ m) (inside : m ≤ k + c.window) (more : m < frags.length) :
    ∃ s', onAck frags (ackFor c k) s =
        (rounds frags m (min frags.length (k + c.window) - m), s', .running) ∧
      After frags (min frags.length (k + c.window)) s' := by
  have hlast : s.sentLast = false := by
    rw [← Bool.not_eq_true, h.sentLast]
    omega
  obtain ⟨d, s', hpump, hafter, -, hahead⟩ := pump_rounds (UInt8.ofNat (k + c.window)) 256 h
  have hround : onAck frags (ackFor c k) s = (rounds frags m d, s', .running) := by
    simp only [onAck, ackFor, ackPacket, hlast, target_eq, hpump, ne_eq, not_true_eq_false,
      if_false, Bool.false_eq_true]
  have hend := pump_ends few h (by omega) hpump
  have hbound := hafter.bound (by omega)
  have htarget : (UInt8.ofNat (k + c.window)).toNat = (k + c.window) % 256 := UInt8.toNat_ofNat'
  rw [htarget] at hahead
  have hd : m + d = min frags.length (k + c.window) := by
    refine window_end few c.range.2 known inside (Nat.le_add_right m d) hbound ?_ hahead
    refine hend.imp (fun hseq => ?_) fun hsent => (hafter.sentLast.mp hsent).2
    rw [← htarget, ← hseq, hafter.seq, toNat_ofNat_small (by omega)]
  rw [← hd, Nat.add_sub_cancel_left]
  exact ⟨s', hround, hafter⟩

lemma onAck_closes {m k : Nat} {s : Sending} (few : frags.length ≤ 255) (c : SarReceiver)
    (h : After frags m s) (all : m = frags.length) (bound : k ≤ frags.length) :
    onAck frags (ackFor c k) s =
      if k = frags.length then ([[flagFin, codeAck]], s, .returned ()) else ([], s, .running) := by
  have hlast : s.sentLast = true := h.sentLast.mpr ⟨by omega, all⟩
  have hack : UInt8.ofNat k - 1 = s.seq - 1 ↔ k = frags.length := by
    rw [UInt8.sub_left_inj, h.seq, all]
    refine ⟨fun heq => ?_, congrArg UInt8.ofNat⟩
    rw [← toNat_ofNat_small (show k ≤ 255 by omega), heq, toNat_ofNat_small (by omega)]
  simp only [onAck, ackFor, ackPacket, hlast, hack, ne_eq, not_true_eq_false, if_false, if_true]

end Window

/-- Where a transfer stands after `reacks` repeated acks. While the sender runs it has sent `m`
fragments; those that the receiver has not taken yet are on their way, and so are the acks
for `counts` fragments, in order, the newest of them for all that was taken. Without an ack
on its way the window is full. -/
inductive Stands (frags : List Bytes) (c : SarReceiver) (reacks : Nat) (s : Link) : Prop where
  | moving (m : Nat) (counts : List Nat)
      (sent : s.sent = .running) (received : s.received = .running)
      (sending : After frags m s.sending) (receiving : Accepted frags s.receiving)
      (behind : s.receiving.chunks.length ≤ m)
      (packets : s.packets =
        rounds frags s.receiving.chunks.length (m - s.receiving.chunks.length))
      (acks : s.acks = counts.map (ackFor c))
      (ascending : counts.Pairwise (· ≤ ·))
      (window : ∀ k ∈ counts, k ≤ s.receiving.chunks.length ∧ m ≤ k + c.window)
      (newest : counts.getLast? = some s.receiving.chunks.length ∨ counts = [] ∧
        m = min frags.length (s.receiving.chunks.length + c.window) ∧
          s.receiving.chunks.length < frags.length)
      (account : s.taken + counts.length ≤ 2 * s.receiving.chunks.length + 1 + reacks)
  | closing (sent : s.sent = .returned ()) (received : s.received = .running)
      (chunks : s.receiving.chunks = frags) (ended : s.receiving.ended = true)
      (packets : s.packets = [[flagFin, codeAck]])
      (account : s.taken ≤ 2 * frags.length + 1 + reacks)
  | through (sent : s.sent = .returned ()) (received : s.received = .returned frags.flatten)
      (packets : s.packets = []) (account : s.taken ≤ 2 * frags.length + 2 + reacks)

section Steps

variable {frags : List Bytes} {c : SarReceiver} {reacks : Nat} {s : Link}

lemma rounds_join (frags : List Bytes) {k m m' : Nat} (hkm : k ≤ m) (hmm : m ≤ m') :
    rounds frags k (m - k) ++ rounds frags m (m' - m) = rounds frags k (m' - k) := by
  have hsplit : m' - k = m - k + (m' - m) := by omega
  rw [hsplit]
  simp only [rounds, List.range_add, List.map_append, List.map_map, List.append_cancel_left_eq]
  refine List.map_congr_left fun j _ => congrArg (packetAt frags) ?_
  change m + j = k + (m - k + j)
  omega

/-- The newest of the acks on their way, after the oldest one was taken. -/
lemma newest_tail {k n : Nat} {counts : List Nat} (h : (k :: counts).getLast? = some n)
    {full : Prop} (last : k = n → full) : counts.getLast? = some n ∨ counts = [] ∧ full := by
  cases counts with
  | nil => exact .inr ⟨rfl, last (by simpa using h)⟩
  | cons j counts => exact .inl (by simpa using h)

lemma start_stands (nonempty : frags ≠ []) : Stands frags c 0 (start c) := by
  have hpos := List.length_pos_iff.mpr nonempty
  refine .moving 0 [0] rfl rfl ⟨rfl, ?_, fun _ => Nat.zero_le _⟩ ?_ (Nat.le_refl 0) rfl rfl
    (List.pairwise_singleton _ _) ?_ (.inl rfl) (Nat.le_refl 1)
  · simp only [start, Bool.false_eq_true, false_iff]
    omega
  · exact (start_exact (c := c) nonempty).receiving
  · simp [start, Receiving.start]

/-- Idle is only a transfer that is over. -/
lemma Stands.complete (h : Stands frags c reacks s) (idle : Idle s) :
    s.sent = .returned () ∧ s.received = .returned frags.flatten := by
  cases h with
  | moving m counts sent received _ _ behind packets acks _ _ newest _ =>
    have hnone := idle.1 sent
    have hempty := idle.2 received
    rw [acks, List.map_eq_nil_iff] at hnone
    subst hnone
    rcases newest with hlast | ⟨-, hm, hless⟩
    · simp at hlast
    · -- The window is full, so that a packet is on its way.
      have hlen := congrArg List.length packets
      rw [hempty, rounds, List.length_map, List.length_range, List.length_nil] at hlen
      have hwindow := c.range
      omega
  | closing _ received _ _ packets _ =>
    rw [idle.2 received] at packets
    cases packets
  | through sent received _ _ => exact ⟨sent, received⟩

/-- The newest ack bounds what was sent. -/
lemma sent_le_window {n k m w : Nat} {counts : List Nat} (window : ∀ j ∈ counts, m ≤ j + w)
    (newest : counts.getLast? = some k ∨ counts = [] ∧ m = min n (k + w) ∧ k < n) :
    m ≤ k + w := by
  rcases newest with hlast | ⟨-, hm, -⟩
  · exact window k (List.mem_of_getLast? hlast)
  · omega

lemma takeAck_stands (few : frags.length ≤ 255) (h : Stands frags c reacks s) :
    Stands frags c reacks (takeAck frags s) := by
  cases h with
  | moving m counts sent received sending receiving behind packets acks ascending window newest
      account =>
    cases counts with
    | nil =>
      simp only [takeAck, sent, acks, List.map_nil]
      exact .moving m [] sent received sending receiving behind packets acks ascending window
        newest account
    | cons k counts =>
      obtain ⟨hk, hkw⟩ := window k List.mem_cons_self
      obtain ⟨hfirst, hrest⟩ := List.pairwise_cons.mp ascending
      have hbound := sending.bound (by omega)
      have hchunks := receiving.chunks.length_le
      have hlast : (k :: counts).getLast? = some s.receiving.chunks.length :=
        newest.resolve_right fun hnone => List.cons_ne_nil _ _ hnone.1
      have haccount : s.taken + 1 + counts.length ≤
          2 * s.receiving.chunks.length + 1 + reacks := by
        rw [List.length_cons] at account
        omega
      simp only [takeAck, sent, acks, List.map_cons]
      by_cases hm : m < frags.length
      · obtain ⟨s', hround, hafter⟩ := onAck_window few c sending (by omega) hkw hm
        have hgrow : m ≤ min frags.length (k + c.window) := by omega
        rw [hround]
        refine .moving (min frags.length (k + c.window)) counts rfl received hafter receiving
          (Nat.le_trans behind hgrow) ?_ rfl hrest ?_ ?_ haccount
        · rw [packets, rounds_join frags behind hgrow]
        · intro j hj
          have hle := hfirst j hj
          exact ⟨(window j (List.mem_cons_of_mem _ hj)).1, by omega⟩
        · refine newest_tail hlast fun heq => ?_
          rw [heq]
          exact ⟨rfl, Nat.lt_of_le_of_lt behind hm⟩
      · have hall : m = frags.length := by omega
        rw [onAck_closes few c sending hall (by omega)]
        by_cases hclose : k = frags.length
        · rw [if_pos hclose]
          have hfull : s.receiving.chunks.length = frags.length := by omega
          have hnone : m - s.receiving.chunks.length = 0 := by omega
          refine .closing rfl received (receiving.chunks.eq_of_length hfull)
            (receiving.ended.mpr hfull) ?_ ?_
          · simp [packets, hnone, rounds]
          · change s.taken + 1 ≤ _
            omega
        · rw [if_neg hclose]
          refine .moving m counts rfl received sending receiving behind ?_ rfl hrest ?_ ?_ haccount
          · simpa using packets
          · exact fun j hj => window j (List.mem_cons_of_mem _ hj)
          · refine newest_tail hlast fun heq => ?_
            rw [heq] at hclose hkw
            change m = min frags.length (s.receiving.chunks.length + c.window) ∧
              s.receiving.chunks.length < frags.length
            omega
  | closing sent received chunks ended packets account =>
    simp only [takeAck, sent]
    exact .closing sent received chunks ended packets account
  | through sent received packets account =>
    simp only [takeAck, sent]
    exact .through sent received packets account

/-- The receiver takes the next fragment in order. -/
lemma onPacket_next (few : frags.length ≤ 255) (c : SarReceiver) {r : Receiving}
    (h : Accepted frags r) (more : r.chunks.length < frags.length) :
    ∃ r', onPacket c (packetAt frags r.chunks.length) r =
        ([ackFor c (r.chunks.length + 1)], r', .running) ∧
      Accepted frags r' ∧ r'.chunks.length = r.chunks.length + 1 := by
  have hopen : r.ended = false := by
    rw [← Bool.not_eq_true, h.ended]
    omega
  have hplace : r.expected.toNat = r.chunks.length := by
    rw [h.expected, toNat_ofNat_small (by omega)]
  have hfrag : frags[r.expected.toNat]? = some (frags.getD (r.chunks.length % 256) []) := by
    have hmod : r.chunks.length % 256 = r.chunks.length := Nat.mod_eq_of_lt (by omega)
    rw [hplace, hmod, List.getElem?_eq_getElem more]
    simp [more]
  refine ⟨_, ?_, h.push few hopen hfrag, ?_⟩
  · have hfin : ¬ flags frags.length r.expected &&& flagFin ≠ 0 := not_not.mpr (flags_fin _ _)
    have hack : ackFor c (r.chunks.length + 1) = ackPacket c r.expected := by
      rw [ackFor, UInt8.ofNat_add, h.expected]
      exact congrArg (ackPacket c) (UInt8.add_sub_cancel _ _)
    rw [packetAt, ← h.expected, hack]
    simp only [List.cons_append, List.nil_append, onPacket, if_neg hfin, hopen, ne_eq,
      not_true_eq_false, if_false, Bool.false_eq_true]
  · exact List.length_append.trans rfl

lemma takePacket_stands (few : frags.length ≤ 255) (h : Stands frags c reacks s) :
    Stands frags c reacks (takePacket c s) := by
  cases h with
  | moving m counts sent received sending receiving behind packets acks ascending window newest
      account =>
    have hbound := sending.bound (by omega)
    by_cases hnone : s.receiving.chunks.length = m
    · have hempty : s.packets = [] := by rw [packets, hnone, Nat.sub_self]; rfl
      simp only [takePacket, received, hempty]
      exact .moving m counts sent received sending receiving behind packets acks ascending window
        newest account
    · obtain ⟨r', hround, hr', hlen⟩ :=
        onPacket_next few c receiving (show s.receiving.chunks.length < frags.length by omega)
      have hsplit : m - s.receiving.chunks.length = m - r'.chunks.length + 1 := by omega
      have hsent := sent_le_window (fun j hj => (window j hj).2) newest
      simp only [takePacket, received, packets, hsplit, rounds_succ, hround]
      rw [← hlen]
      have hbehind : r'.chunks.length ≤ m := by omega
      refine .moving m (counts ++ [r'.chunks.length]) sent rfl sending hr' hbehind rfl ?_ ?_ ?_
        (.inl (by simp)) ?_
      · rw [acks, List.map_append]
        rfl
      · refine List.pairwise_append.mpr ⟨ascending, List.pairwise_singleton _ _, ?_⟩
        intro j hj k hk
        obtain rfl := List.mem_singleton.mp hk
        have hle := (window j hj).1
        omega
      · intro j hj
        change j ≤ r'.chunks.length ∧ m ≤ j + c.window
        rcases List.mem_append.mp hj with hold | hnew
        · have hle := window j hold
          omega
        · rw [List.mem_singleton.mp hnew]
          omega
      · simp only [List.length_append, List.length_singleton]
        omega
  | closing sent received chunks ended packets account =>
    have hfin : flagFin &&& flagFin ≠ 0 := by decide
    simp only [takePacket, received, packets, onPacket, if_pos hfin, ended, Bool.true_eq_false,
      if_false, if_true, chunks]
    refine .through sent rfl rfl ?_
    change s.taken + 1 ≤ _
    omega
  | through sent received packets account =>
    simp only [takePacket, received]
    exact .through sent received packets account

/-- A repeated ack counts what was taken so far. -/
lemma reack_stands (h : Stands frags c reacks s) :
    Stands frags c (reacks + 1) (step frags c s .reack) := by
  cases h with
  | moving m counts sent received sending receiving behind packets acks ascending window newest
      account =>
    have hack : ackPacket c s.receiving.last = ackFor c s.receiving.chunks.length := by
      rw [receiving.last, receiving.expected, ackFor]
    have hsent := sent_le_window (fun j hj => (window j hj).2) newest
    simp only [step, received, if_true]
    refine .moving m (counts ++ [s.receiving.chunks.length]) sent rfl sending receiving behind
      packets ?_ ?_ ?_ (.inl (by simp)) ?_
    · rw [acks, hack, List.map_append]
      rfl
    · refine List.pairwise_append.mpr ⟨ascending, List.pairwise_singleton _ _, ?_⟩
      intro j hj k hk
      obtain rfl := List.mem_singleton.mp hk
      exact (window j hj).1
    · intro j hj
      rcases List.mem_append.mp hj with hold | hnew
      · exact window j hold
      · rw [List.mem_singleton.mp hnew]
        exact ⟨Nat.le_refl _, hsent⟩
    · simp only [List.length_append, List.length_singleton]
      omega
  | closing sent received chunks ended packets account =>
    simp only [step, received, if_true]
    exact .closing sent rfl chunks ended packets (Nat.le_succ_of_le account)
  | through sent received packets account =>
    simp only [step, received, reduceCtorEq, if_false]
    exact .through sent received packets (Nat.le_succ_of_le account)

/-- What holds along every run. -/
lemma run_stands (few : frags.length ≤ 255) (es : List Ev) (h : Stands frags c reacks s) :
    Stands frags c (reacks + es.count .reack) (es.foldl (step frags c) s) := by
  induction es generalizing reacks s with
  | nil => exact h
  | cons e es ih =>
    cases e with
    | ack => simpa [step] using ih (takeAck_stands few h)
    | packet => simpa [step] using ih (takePacket_stands few h)
    | reack =>
      have hrest := ih (reack_stands h)
      rwa [Nat.add_right_comm, Nat.add_assoc, ← List.count_cons_self] at hrest

lemma Stands.not_raised (h : Stands frags c reacks s) :
    (∀ message, s.sent ≠ .raised message) ∧ ∀ message, s.received ≠ .raised message := by
  cases h <;> simp_all

lemma Stands.taken_le (h : Stands frags c reacks s) :
    s.taken ≤ 2 * frags.length + 2 + reacks := by
  cases h with
  | moving m counts _ _ _ receiving _ _ _ _ _ _ account =>
    have hlen := receiving.chunks.length_le
    omega
  | closing _ _ _ _ _ account => omega
  | through _ _ _ account => exact account

end Steps

/-- For a payload of at most 255 fragments and whatever the order in which the two ends move:
neither call raises, they take at most two packets for each fragment and two more, besides
the repeated acks, and where nothing is left to take both have returned, `receive` with the
payload. -/
theorem reliable_transfer_completes {p : Port} (tx : Sender p) (rx : SarReceiver)
    (data : Payload p) {frags : List Bytes}
    (cut : sendFrags p tx.toSarSender data.bytes = some frags) (few : frags.length ≤ 255)
    (es : List Ev) :
    ((∀ message, (es.foldl (step frags rx) (start rx)).sent ≠ .raised message) ∧
      ∀ message, (es.foldl (step frags rx) (start rx)).received ≠ .raised message) ∧
    (es.foldl (step frags rx) (start rx)).taken ≤ 2 * frags.length + 2 + es.count .reack ∧
    (Idle (es.foldl (step frags rx) (start rx)) →
      (es.foldl (step frags rx) (start rx)).sent = .returned () ∧
        (es.foldl (step frags rx) (start rx)).received = .returned data.bytes) := by
  obtain rfl := sendFrags_eq tx data cut
  have hstands := run_stands few es (start_stands (c := rx) (tx.frags_ne_nil data.bytes))
  rw [Nat.zero_add] at hstands
  refine ⟨hstands.not_raised, hstands.taken_le, fun hidle => ?_⟩
  obtain ⟨hsent, hreceived⟩ := hstands.complete hidle
  exact ⟨hsent, hreceived.trans (congrArg Outcome.returned (tx.flatten_frags data.bytes))⟩

/-- Three fragments through a window of two, with an ack repeated in between. -/
def sampleRun : List Ev :=
  [.ack, .packet, .reack, .packet, .ack, .ack, .ack, .packet, .ack, .packet]

theorem reliable_transfer_completes_three :
    Idle (sampleRun.foldl (step [[7], [8], [9]] ⟨2, by decide⟩) (start ⟨2, by decide⟩)) ∧
    (sampleRun.foldl (step [[7], [8], [9]] ⟨2, by decide⟩) (start ⟨2, by decide⟩)).received =
      .returned [7, 8, 9] := by
  have hidle : Idle
      (sampleRun.foldl (step [[7], [8], [9]] ⟨2, by decide⟩) (start ⟨2, by decide⟩)) := by
    constructor
    · exact fun h => absurd h (by decide)
    · exact fun _ => by decide
  have hcut : sendFrags .python ⟨3, by decide⟩ [7, 8, 9] = some [[7], [8], [9]] := by decide
  have hall := reliable_transfer_completes ⟨⟨3, by decide⟩, by simp [Port.intEnd]⟩
    ⟨2, by decide⟩ ⟨[7, 8, 9], by simp [Port.intEnd]⟩ hcut (by decide) sampleRun
  exact ⟨hidle, (hall.2.2 hidle).2⟩

end SarLink
