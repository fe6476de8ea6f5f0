import PouchProv.SarLink

/-!
# The SAR endpoints of the mock device

`_DeviceSarSender` and `_DeviceSarReceiver` of `mock.py`, and the calls `sar_read`
and `sar_write` of `tofu.py` over them. The channel of the mock is synchronous: a
write of the client runs the endpoint at once, and what the endpoint notifies
waits in the queue of the client.

The device counts its fragments without a mask, and puts the count into a byte.
-/

namespace MockSar

open Sar SarSenders SarLink

/-- `_DeviceSarSender`; a cycle begins with the fragments of the payload. -/
structure DeviceSarSender where
  frags : List Bytes
  seq : Nat
  finished : Bool

/-- `_open` -/
def DeviceSarSender.fresh (frag : Nat) (data : Bytes) : DeviceSarSender :=
  ⟨slices frag data, 0, false⟩

/-- The loop of `_on_ack`: what is notified, and the counter that it leaves. -/
def notifyUpTo (frags : List Bytes) (target : Nat) : Nat → Nat → List Bytes × Except String Nat
  | 0, seq => ([], .ok seq)
  | fuel + 1, seq =>
    if seq ≠ target ∧ seq < frags.length then
      if 255 < seq then ([], .error "bytes must be in range(0, 256)")
      else
        let rest := notifyUpTo frags target fuel (seq + 1)
        (packetAt frags seq :: rest.1, rest.2)
    else ([], .ok seq)

def DeviceSarSender.onAck (ack : Bytes) (d : DeviceSarSender) :
    List Bytes × Except String DeviceSarSender :=
  match ack with
  | [code, ackSeq, window] =>
    if code ≠ codeAck then ([], .error "AssertionError")
    else if d.finished then ([], .ok d)
    else if d.frags.length ≤ d.seq then
      if ackSeq = UInt8.ofNat d.seq - 1 then
        ([[flagFin, codeAck]], .ok { d with finished := true })
      else ([], .ok d)
    else
      let r := notifyUpTo d.frags (ackSeq + window + 1).toNat d.frags.length d.seq
      (r.1, r.2.map fun seq => { d with seq := seq })
  | _ => ([], .error "wrong number of values to unpack")

/-- A call of `receive`, with what waits in its queue. -/
structure Reading where
  device : DeviceSarSender
  queue : List Bytes
  receiving : Receiving

/-- The client writes acks. -/
def Reading.write : List Bytes → Reading → Except String Reading
  | [], s => .ok s
  | ack :: acks, s =>
    match s.device.onAck ack with
    | (_, .error message) => .error message
    | (pkts, .ok device) => Reading.write acks { s with device := device, queue := s.queue ++ pkts }

/-- The loop of `receive`. `patience` is how often the re-ack interval can elapse before the
deadline; without a packet and without time left the call raises. -/
def receive (c : SarReceiver) : Nat → Nat → Reading → Outcome Bytes
  | 0, _, _ => .running
  | fuel + 1, patience, s =>
    match s.queue with
    | [] =>
      if patience = 0 then .raised "timed out waiting for data"
      else
        match s.write [ackPacket c s.receiving.last] with
        | .error message => .raised message
        | .ok s => receive c fuel (patience - 1) s
    | pkt :: queue =>
      let r := onPacket c pkt s.receiving
      match r.2.2 with
      | .running =>
        match Reading.write r.1 { s with queue := queue, receiving := r.2.1 } with
        | .error message => .raised message
        | .ok s => receive c fuel patience s
      | o => o

/-- `sar_read` -/
def sarRead (c : SarReceiver) (frag : Nat) (data : Bytes) (fuel patience : Nat) :
    Outcome Bytes :=
  match Reading.write [ackPacket c 0xFF] ⟨.fresh frag data, [], .start⟩ with
  | .error message => .raised message
  | .ok s => receive c fuel patience s

/-- `_DeviceSarReceiver`, with what it has handed to `on_data`. -/
structure DeviceSarReceiver where
  window : Nat
  chunks : List Bytes
  expected : UInt8
  ended : Bool
  delivered : List Bytes

def DeviceSarReceiver.fresh (window : Nat) : DeviceSarReceiver := ⟨window, [], 0, false, []⟩

def DeviceSarReceiver.ack (d : DeviceSarReceiver) (seq : UInt8) : Bytes :=
  [codeAck, seq, UInt8.ofNat d.window]

def DeviceSarReceiver.onWrite (pkt : Bytes) (d : DeviceSarReceiver) :
    Except String (List Bytes × DeviceSarReceiver) :=
  match pkt with
  | [] => .error "index out of range"
  | flags :: rest =>
    if flags &&& flagFin ≠ 0 then
      if d.ended = false then .error "FIN before LAST"
      else
        match rest with
        | [] => .error "index out of range"
        | code :: _ =>
          if code = codeAck then
            .ok ([], { d with delivered := d.delivered ++ [d.chunks.flatten] })
          else .ok ([], d)
    else
      match rest with
      | [] => .error "index out of range"
      | seq :: payload =>
        if seq ≠ d.expected then .error "mock expects in-order"
        else .ok ([d.ack seq], { d with
          chunks := d.chunks ++ [payload]
          expected := seq + 1
          ended := d.ended || flags &&& flagLast ≠ 0 })

/-- A call of `send`, with the acks that wait in its queue. -/
structure Writing where
  sending : Sending
  acks : List Bytes
  device : DeviceSarReceiver

/-- The client writes packets. -/
def Writing.write : List Bytes → Writing → Except String Writing
  | [], s => .ok s
  | pkt :: pkts, s =>
    match s.device.onWrite pkt with
    | .error message => .error message
    | .ok r => Writing.write pkts { s with device := r.2, acks := s.acks ++ r.1 }

/-- The loop of `send`. The last write may fail without harm. -/
def send (frags : List Bytes) : Nat → Writing → Outcome Unit × DeviceSarReceiver
  | 0, s => (.running, s.device)
  | fuel + 1, s =>
    match s.acks with
    | [] => (.raised "timed out waiting for ack", s.device)
    | ack :: acks =>
      let r := onAck frags ack s.sending
      match Writing.write r.1 { s with sending := r.2.1, acks := acks }, r.2.2 with
      | .ok s, .running => send frags fuel s
      | .ok s, o => (o, s.device)
      | .error _, .returned () => (.returned (), s.device)
      | .error message, _ => (.raised message, s.device)

/-- `sar_write` -/
def sarWrite (tx : SarSender) (window : Nat) (data : Bytes) (fuel : Nat) :
    Outcome Unit × DeviceSarReceiver :=
  let device := DeviceSarReceiver.fresh window
  send (tx.frags data) fuel ⟨⟨0, false⟩, [device.ack 0xFF], device⟩

section Read

variable {frags : List Bytes}

lemma notifyUpTo_rounds (few : frags.length ≤ 255) (target : Nat) {fuel seq : Nat}
    (bound : seq ≤ frags.length) (enough : frags.length ≤ seq + fuel) :
    ∃ d, notifyUpTo frags target fuel seq = (rounds frags seq d, .ok (seq + d)) ∧
      seq + d ≤ frags.length ∧ (seq + d = target ∨ seq + d = frags.length) ∧
      (seq ≤ target → seq + d ≤ target) := by
  induction fuel generalizing seq with
  | zero => exact ⟨0, rfl, bound, .inr (by omega), id⟩
  | succ fuel ih =>
    by_cases hgo : seq ≠ target ∧ seq < frags.length
    · obtain ⟨d, hrest, hbound, hend, hahead⟩ := ih (show seq + 1 ≤ _ by omega) (by omega)
      refine ⟨d + 1, ?_, by omega, by omega, fun hle => ?_⟩
      · rw [notifyUpTo, if_pos hgo, if_neg (by omega), hrest, rounds_succ, Nat.add_right_comm,
          Nat.add_assoc]
      · have hnext := hahead (by omega)
        omega
    · rw [notifyUpTo, if_neg hgo]
      exact ⟨0, rfl, bound, by omega, id⟩

/-- The device fills the window like the client does. -/
lemma device_window (few : frags.length ≤ 255) (c : SarReceiver) {k m : Nat} (known : k ≤ m)
    (inside : m ≤ k + c.window) (more : m < frags.length) :
    DeviceSarSender.onAck (ackFor c k) ⟨frags, m, false⟩ =
      (rounds frags m (min frags.length (k + c.window) - m),
        .ok ⟨frags, min frags.length (k + c.window), false⟩) := by
  obtain ⟨d, hloop, hbound, hend, hahead⟩ :=
    notifyUpTo_rounds few ((k + c.window) % 256) (Nat.le_of_lt more)
      (Nat.le_add_left frags.length m)
  have hd := window_end few c.range.2 known inside (Nat.le_add_right m d) hbound hend hahead
  have htarget : (UInt8.ofNat k - 1 + UInt8.ofNat c.window + 1).toNat = (k + c.window) % 256 := by
    rw [target_eq]
    exact UInt8.toNat_ofNat'
  simp only [DeviceSarSender.onAck, ackFor, ackPacket, htarget, hloop, ← hd, ne_eq,
    not_true_eq_false, if_false, Bool.false_eq_true, if_neg (Nat.not_le.mpr more), Except.map,
    Nat.add_sub_cancel_left]

lemma device_closes (few : frags.length ≤ 255) (c : SarReceiver) {k : Nat}
    (bound : k ≤ frags.length) :
    DeviceSarSender.onAck (ackFor c k) ⟨frags, frags.length, false⟩ =
      if k = frags.length then
        ([[flagFin, codeAck]], .ok ⟨frags, frags.length, true⟩)
      else ([], .ok ⟨frags, frags.length, false⟩) := by
  have hack : UInt8.ofNat k - 1 = UInt8.ofNat frags.length - 1 ↔ k = frags.length := by
    rw [UInt8.sub_left_inj]
    refine ⟨fun heq => ?_, congrArg UInt8.ofNat⟩
    rw [← toNat_ofNat_small (show k ≤ 255 by omega), heq, toNat_ofNat_small few]
  simp only [DeviceSarSender.onAck, ackFor, ackPacket, hack, ne_eq, not_true_eq_false, if_false,
    Bool.false_eq_true, Nat.le_refl, if_true]

/-- The client has taken `k` fragments, and the rest of the window waits in its queue. -/
structure Feeds (frags : List Bytes) (c : SarReceiver) (k : Nat) (s : Reading) : Prop where
  device : s.device = ⟨frags, min frags.length (k + c.window), false⟩
  queue : s.queue = rounds frags k (min frags.length (k + c.window) - k)
  receiving : Accepted frags s.receiving
  taken : s.receiving.chunks.length = k

lemma write_feeds (few : frags.length ≤ 255) (c : SarReceiver) {k m : Nat} {s : Reading}
    (device : s.device = ⟨frags, m, false⟩) (queue : s.queue = rounds frags k (m - k))
    (receiving : Accepted frags s.receiving) (taken : s.receiving.chunks.length = k)
    (known : k ≤ m) (bound : m ≤ frags.length) (inside : m ≤ k + c.window) :
    ∃ s', Reading.write [ackFor c k] s = .ok s' ∧
      (k < frags.length → Feeds frags c k s') ∧
      (k = frags.length → s'.queue = [[flagFin, codeAck]] ∧ s'.receiving = s.receiving) := by
  by_cases hmore : m < frags.length
  · refine ⟨{ s with
      device := ⟨frags, min frags.length (k + c.window), false⟩
      queue := rounds frags k (min frags.length (k + c.window) - k) }, ?_, fun _ => ?_, ?_⟩
    · have hgrow : m ≤ min frags.length (k + c.window) := by omega
      simp only [Reading.write, device, device_window few c known inside hmore, queue,
        rounds_join frags known hgrow]
    · exact ⟨rfl, rfl, receiving, taken⟩
    · intro hk
      omega
  · obtain rfl : m = frags.length := by omega
    have hfull : min frags.length (k + c.window) = frags.length := by omega
    by_cases hk : k = frags.length
    · refine ⟨{ s with device := ⟨frags, frags.length, true⟩, queue := [[flagFin, codeAck]] }, ?_,
        fun hless => absurd hk (Nat.ne_of_lt hless), fun _ => ⟨rfl, rfl⟩⟩
      have hempty : s.queue = [] := by rw [queue, hk, Nat.sub_self]; rfl
      simp only [Reading.write, device, device_closes few c known, if_pos hk, hempty,
        List.nil_append]
    · refine ⟨s, ?_, fun _ => ⟨by rw [device, hfull], by rw [queue, hfull], receiving, taken⟩,
        fun heq => absurd heq hk⟩
      simp only [Reading.write, device, device_closes few c known, if_neg hk, List.append_nil]
      rw [← device]

/-- From any fragment on the call returns, after one packet for each fragment left and the
packet that closes the transfer. -/
lemma receive_feeds (few : frags.length ≤ 255) (c : SarReceiver) {k fuel patience : Nat}
    {s : Reading} (h : Feeds frags c k s) (more : k < frags.length)
    (enough : frags.length < k + fuel) :
    receive c fuel patience s = .returned frags.flatten := by
  induction fuel generalizing k s with
  | zero => omega
  | succ fuel ih =>
    have hwindow := c.range
    obtain ⟨r', hround, hr', hlen⟩ := onPacket_next few c h.receiving (by rw [h.taken]; exact more)
    rw [h.taken] at hround hlen
    have hsplit : min frags.length (k + c.window) - k =
        min frags.length (k + c.window) - (k + 1) + 1 := by omega
    obtain ⟨s', hwrite, hgoes, hcloses⟩ := write_feeds few c
      (s := { s with
        queue := rounds frags (k + 1) (min frags.length (k + c.window) - (k + 1))
        receiving := r' })
      h.device rfl hr' hlen (by omega) (by omega) (by omega)
    simp only [receive, h.queue, hsplit, rounds_succ, hround, hwrite]
    by_cases hlast : k + 1 < frags.length
    · exact ih (hgoes hlast) hlast (by omega)
    · obtain ⟨hqueue, hreceiving⟩ := hcloses (by omega)
      have hended : r'.ended = true := hr'.ended.mpr (by omega)
      have hall : r'.chunks = frags := hr'.chunks.eq_of_length (by omega)
      have hfin : flagFin &&& flagFin ≠ 0 := by decide
      obtain ⟨fuel, rfl⟩ : ∃ n, fuel = n + 1 := ⟨fuel - 1, by omega⟩
      simp only [receive, hqueue, hreceiving, onPacket, if_pos hfin, hended, Bool.true_eq_false,
        if_false, if_true, hall]

end Read

/-- A payload that is not empty and has at most 255 fragments is read as it is, whatever the
window of the client and however often it may still repeat an ack. -/
theorem sarRead_exact {frag : Nat} (positive : 0 < frag) (c : SarReceiver) {data : Bytes}
    (nonempty : data ≠ []) (few : (slices frag data).length ≤ 255) {fuel : Nat}
    (enough : (slices frag data).length < fuel) (patience : Nat) :
    sarRead c frag data fuel patience = .returned data := by
  have hpos : 0 < (slices frag data).length :=
    List.length_pos_iff.mpr (slices_ne_nil positive nonempty)
  obtain ⟨s, hwrite, hfeeds, -⟩ := write_feeds few c (k := 0) (m := 0)
    (s := ⟨.fresh frag data, [], .start⟩) rfl rfl
    (start_exact (c := c) (slices_ne_nil positive nonempty)).receiving rfl (Nat.le_refl 0)
    (Nat.zero_le _) (Nat.zero_le _)
  have hfirst : ackFor c 0 = ackPacket c 0xFF := rfl
  rw [hfirst] at hwrite
  rw [sarRead, hwrite]
  simp only []
  rw [receive_feeds few c (hfeeds hpos) hpos (by omega), flatten_slices positive]

section Write

variable {frags : List Bytes}

/-- The endpoint after the first `m` fragments. -/
def DeviceSarReceiver.after (frags : List Bytes) (window m : Nat) : DeviceSarReceiver :=
  ⟨window, frags.take m, UInt8.ofNat m, decide (m = frags.length), []⟩

lemma onWrite_next (few : frags.length ≤ 255) (c : SarReceiver) {m : Nat}
    (more : m < frags.length) :
    DeviceSarReceiver.onWrite (packetAt frags m) (.after frags c.window m) =
      .ok ([ackFor c (m + 1)], .after frags c.window (m + 1)) := by
  have hfin : ¬ flags frags.length (UInt8.ofNat m) &&& flagFin ≠ 0 := not_not.mpr (flags_fin _ _)
  have hmod : m % 256 = m := Nat.mod_eq_of_lt (by omega)
  have hlast : decide (flags frags.length (UInt8.ofNat m) &&& flagLast ≠ 0) =
      decide (m + 1 = frags.length) := by
    rw [decide_eq_decide, flags_last, toNat_ofNat_small (by omega)]
    omega
  have hack : UInt8.ofNat (m + 1) - 1 = UInt8.ofNat m := by
    rw [UInt8.ofNat_add]
    exact UInt8.add_sub_cancel _ _
  have htake : frags.take m ++ [frags.getD m []] = frags.take (m + 1) := by
    rw [List.take_add_one, List.getElem?_eq_getElem more]
    simp [more]
  simp only [packetAt, hmod, DeviceSarReceiver.onWrite, DeviceSarReceiver.after, List.cons_append,
    List.nil_append, if_neg hfin, ne_eq, not_true_eq_false, if_false, DeviceSarReceiver.ack,
    ackFor, ackPacket, hack, htake, Nat.ne_of_lt more, decide_false, Bool.false_or, ← hlast]
  rw [UInt8.ofNat_add]
  rfl

lemma write_rounds (few : frags.length ≤ 255) (c : SarReceiver) {m d : Nat}
    (bound : m + d ≤ frags.length) {s : Writing} (device : s.device = .after frags c.window m) :
    Writing.write (rounds frags m d) s =
      .ok { s with
        device := .after frags c.window (m + d)
        acks := s.acks ++ (List.range' (m + 1) d).map (ackFor c) } := by
  induction d generalizing m s with
  | zero =>
    simp only [rounds, List.range_zero, List.map_nil, Writing.write, List.range'_zero,
      List.append_nil, Nat.add_zero, ← device]
  | succ d ih =>
    have hnext := onWrite_next few c (show m < frags.length by omega)
    rw [rounds_succ, Writing.write, device, hnext]
    simp only []
    rw [ih (m := m + 1) (by omega) rfl, List.range'_succ, List.map_cons, Nat.add_assoc m 1 d,
      Nat.add_comm 1 d]
    simp only [List.append_assoc, List.singleton_append]

/-- The sender is about to read the ack for `j` fragments of the `m` that it has sent. -/
structure Delivers (frags : List Bytes) (c : SarReceiver) (j m : Nat) (s : Writing) : Prop where
  sending : After frags m s.sending
  acks : s.acks = (List.range' j (m + 1 - j)).map (ackFor c)
  device : s.device = .after frags c.window m
  known : j ≤ m
  bound : m ≤ frags.length
  inside : m ≤ j + c.window

lemma send_delivers (few : frags.length ≤ 255) (c : SarReceiver) {j m fuel : Nat}
    {s : Writing} (h : Delivers frags c j m s) (enough : frags.length < j + fuel) :
    (send frags fuel s).1 = .returned () ∧ (send frags fuel s).2.delivered = [frags.flatten] := by
  induction fuel generalizing j m s with
  | zero =>
    have hbound := h.bound
    have hknown := h.known
    omega
  | succ fuel ih =>
    have hknown := h.known
    have hinside := h.inside
    have hwindow := c.range
    have hacks : s.acks = ackFor c j :: (List.range' (j + 1) (m - j)).map (ackFor c) := by
      rw [h.acks, show m + 1 - j = m - j + 1 by omega, List.range'_succ, List.map_cons]
    by_cases hm : m < frags.length
    · obtain ⟨sending, hround, hafter⟩ := onAck_window few c h.sending h.known h.inside hm
      have hwrite := write_rounds few c (m := m) (d := min frags.length (j + c.window) - m)
        (by omega) (s := { s with
          sending := sending, acks := (List.range' (j + 1) (m - j)).map (ackFor c) }) h.device
      have hend : m + (min frags.length (j + c.window) - m) = min frags.length (j + c.window) := by
        omega
      simp only [send, hacks, hround, hwrite, hend]
      refine ih (j := j + 1) (m := min frags.length (j + c.window))
        ⟨hafter, ?_, rfl, by omega, by omega, by omega⟩ (by omega)
      have hjoin := List.range'_append_1 (s := j + 1) (m := m - j)
        (n := min frags.length (j + c.window) - m)
      rw [show j + 1 + (m - j) = m + 1 by omega] at hjoin
      rw [← List.map_append, hjoin,
        show m - j + (min frags.length (j + c.window) - m) =
          min frags.length (j + c.window) + 1 - (j + 1) by omega]
    · obtain rfl : m = frags.length := by have hbound := h.bound; omega
      have hround := onAck_closes few c h.sending rfl h.known
      by_cases hj : j = frags.length
      · rw [if_pos hj] at hround
        have hfin : flagFin &&& flagFin ≠ 0 := by decide
        simp only [send, hacks, hround, Writing.write, h.device, DeviceSarReceiver.onWrite,
          DeviceSarReceiver.after, if_pos hfin, decide_true, Bool.true_eq_false, if_false, if_true,
          List.take_length, List.nil_append, and_self]
      · rw [if_neg hj] at hround
        simp only [send, hacks, hround, Writing.write]
        refine ih (j := j + 1) (m := frags.length)
          ⟨h.sending, ?_, h.device, by omega, Nat.le_refl _, by omega⟩ (by omega)
        rw [show frags.length + 1 - (j + 1) = frags.length - j by omega]

end Write

/-- A payload of at most 255 fragments is handed to the device once and as it is. -/
theorem sarWrite_exact (tx : SarSender) (c : SarReceiver) {data : Bytes}
    (few : (tx.frags data).length ≤ 255) {fuel : Nat} (enough : (tx.frags data).length < fuel) :
    (sarWrite tx c.window data fuel).1 = .returned () ∧
      (sarWrite tx c.window data fuel).2.delivered = [data] := by
  have hpos : 0 < (tx.frags data).length := List.length_pos_iff.mpr (tx.frags_ne_nil data)
  have hstart : Delivers (tx.frags data) c 0 0
      ⟨⟨0, false⟩, [(DeviceSarReceiver.fresh c.window).ack 0xFF], .fresh c.window⟩ := by
    refine ⟨⟨rfl, ?_, fun _ => Nat.zero_le _⟩, rfl, ?_, Nat.le_refl 0, Nat.zero_le _,
      Nat.zero_le _⟩
    · simp only [Bool.false_eq_true, false_iff]
      omega
    · have hopen : decide (0 = (tx.frags data).length) = false := decide_eq_false (by omega)
      rw [DeviceSarReceiver.after, hopen]
      rfl
  have hsend := send_delivers few c hstart (Nat.lt_of_lt_of_eq enough (Nat.zero_add fuel).symm)
  rw [tx.flatten_frags] at hsend
  exact hsend

end MockSar
