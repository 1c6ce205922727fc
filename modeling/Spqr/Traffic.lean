/-
Module: Spqr.Traffic
Purpose: How many datagrams a transfer sends: packets by the chunks of the file and the
  timeouts, acknowledgments by the packets received.
Trusted boundary: none
Main exports:
  Traffic, Traffic.step, Traffic.Reaches, Counted, traffic_bounded
-/
import Spqr.Integrity

namespace Spqr

open Labelled Transfer

variable {cfg : Settings} {file : List UInt8} {stream : Stream}

/-! ### A transfer with counters -/

/-- A transfer, what both ends have sent, and what made them. -/
structure Traffic where
  transfer : Transfer
  packets : ℕ
  acks : ℕ
  timeouts : ℕ
  receptions : ℕ

namespace Traffic

/-- The counters after an event that leads to this state. The channel's own copies do not
count. -/
def count (t : Traffic) (after : Transfer) : Event → Traffic
  | .packet _ _ =>
      { t with
        transfer := after
        acks := t.acks + (after.acks.length - t.transfer.acks.length)
        receptions := t.receptions + 1 }
  | .ack _ _ =>
      { t with
        transfer := after
        packets := t.packets + (after.packets.length - t.transfer.packets.length) }
  | .timeout _ =>
      { t with
        transfer := after
        packets := t.packets + (after.packets.length - t.transfer.packets.length)
        timeouts := t.timeouts + 1 }
  | _ => { t with transfer := after }

/-- The state after an event, if the event can happen. -/
def step (cfg : Settings) (stream : Stream) (t : Traffic) (event : Event) :
    Option Traffic :=
  (t.transfer.step cfg stream event).map fun after => t.count after event

/-- The step relation. -/
def Step (cfg : Settings) (stream : Stream) (before : Traffic) (event : Event)
    (after : Traffic) : Prop :=
  before.step cfg stream event = some after

/-- The counters when the window has been sent for the first time. -/
def start (initial : Transfer) : Traffic := ⟨initial, initial.packets.length, 0, 0, 0⟩

/-- The states that a transfer of `file` can reach. -/
def Reaches (cfg : Settings) (stream : Stream) (file : List UInt8) (events : List Event)
    (t : Traffic) : Prop :=
  ∃ send initial, Transfer.start cfg file send = some initial ∧
    Run (Step cfg stream) (start initial) events t

end Traffic

/-! ### One reaction -/

theorem Carries.length_le {chunks : List ℕ} {packets : List Packet} {from_ n : ℕ}
    (carries : Carries cfg file chunks packets)
    (sub : chunks.Sublist (List.range' from_ n)) : packets.length ≤ n := by
  rw [← List.Forall₂.length_eq carries]
  simpa using sub.length_le

/-- `receive_data_from_sender` answers a packet once at most. -/
theorem receiveDataFromSender_length {send : SendResult} {r r' : Receiver} {packet : Packet}
    {acks : List AckPacket}
    (reacts : receiveDataFromSender cfg stream.fwrite send r packet = some (r', acks)) :
    acks.length ≤ 1 := by
  rcases reaction_cases reacts with ⟨-, -, rfl⟩ | ⟨-, -, rfl⟩ | ⟨-, -, -, -, rfl⟩ |
    ⟨-, -, -, processed, -, ⟨-, -, rfl⟩ | ⟨-, acknowledged⟩⟩
  · exact Nat.zero_le _
  · exact Nat.le_refl _
  · exact SendResult.length_emit _ _
  · exact Nat.zero_le _
  · obtain ⟨-, rfl⟩ := Prod.mk.inj acknowledged
    exact SendResult.length_emit _ _

/-- `main_receiver` adds its last acknowledgments when it returns. -/
theorem mainReceiver_length {send : SendResult} {r r' : Receiver} {packet : Packet}
    {acks : List AckPacket}
    (reacts : mainReceiver cfg stream.fwrite stream.closes send r packet = some (r', acks)) :
    acks.length ≤ 1 + (if r'.result.isSome then MAX_RETRIES else 0) := by
  have last : ∀ closes ret sizeReceived,
      (finalAcks closes ret sizeReceived).length ≤ MAX_RETRIES := by
    intro closes ret sizeReceived
    unfold finalAcks
    split
    · exact Nat.zero_le _
    · rw [List.length_replicate]
  unfold mainReceiver at reacts
  split at reacts
  · cases reacts
  rename_i taken
  have single := receiveDataFromSender_length taken
  split at reacts
  · obtain ⟨rfl, rfl⟩ := Prod.mk.inj (Option.some.inj reacts)
    omega
  · rename_i ret returned
    obtain ⟨rfl, rfl⟩ := Prod.mk.inj (Option.some.inj reacts)
    rw [List.length_append, returned, Option.isSome_some, if_pos rfl]
    exact Nat.add_le_add single (last _ _ _)

/-- The most that one timeout makes the sender send. -/
def burst (cfg : Settings) (file : List UInt8) : ℕ :=
  max 1 (min (packetCount file) cfg.WINDOW_SIZE)

/-- An acknowledgment moves the window on, and what it sends are the chunks that come in. -/
theorem Genuine.acknowledged_length {s : Transfer} {base : ℕ}
    (genuine : Genuine cfg file stream s) (window : SenderWindow cfg file base s.sender)
    {ack : AckPacket} (member : ack ∈ s.acks) {send : ℕ → SendResult} {sender : Sender}
    {packets : List Packet}
    (reacts : receiveAck cfg s.sender ack send = some (sender, packets)) :
    ∃ base', SenderWindow cfg file base' sender ∧ base + packets.length ≤ base' := by
  unfold receiveAck at reacts
  split at reacts
  · have inside : ¬ ack.ends s.sender.sizeFile →
        0 ≤ ack.seqNum ∧ ack.seqNum < cfg.WINDOW_SIZE := by
      intro goesOn
      rcases genuine.acks ack member with ⟨_, named⟩ | ⟨final, _⟩
      · exact named.seqNum_mem
      · exact absurd (final.ends _) goesOn
    have nonzero : (sizeofAckPacket : ℤ) ≠ 0 := by decide
    rcases window.waitAck_cases inside nonzero send with ⟨_, runs⟩ | ⟨_, _, runs⟩ |
      ⟨_, _, s', packets', base', runs, refilled⟩
    · obtain ⟨rfl, rfl⟩ := Prod.mk.inj (Option.some.inj (reacts.symm.trans runs))
      exact ⟨base, window.of_window ⟨rfl, rfl, rfl, rfl, rfl, rfl, rfl⟩, le_rfl⟩
    · obtain ⟨rfl, rfl⟩ := Prod.mk.inj (Option.some.inj (reacts.symm.trans runs))
      exact ⟨base, window.of_window ⟨rfl, rfl, rfl, rfl, rfl, rfl, rfl⟩, le_rfl⟩
    · obtain ⟨rfl, rfl⟩ := Prod.mk.inj (Option.some.inj (reacts.symm.trans runs))
      obtain ⟨chunks, sub, carries, _⟩ := refilled.carried
      have sent := carries.length_le sub
      have lower := refilled.lower
      exact ⟨base', refilled.window, by omega⟩
  · obtain ⟨rfl, rfl⟩ := Prod.mk.inj (Option.some.inj reacts)
    exact ⟨base, window.of_window ⟨rfl, rfl, rfl, rfl, rfl, rfl, rfl⟩, le_rfl⟩
  · cases reacts

/-- A timeout leaves the window where it is. -/
theorem SenderWindow.expired_length {s : Sender} {base : ℕ}
    (window : SenderWindow cfg file base s) {send : ℕ → SendResult} {sender : Sender}
    {packets : List Packet} (reacts : expire cfg s send = some (sender, packets)) :
    SenderWindow cfg file base sender ∧ packets.length ≤ burst cfg file := by
  unfold expire at reacts
  split at reacts
  · rcases window.waitAckTimeout_cases send with ⟨_, runs⟩ | ⟨_, runs⟩
    · obtain ⟨rfl, rfl⟩ := Prod.mk.inj (Option.some.inj (reacts.symm.trans runs))
      exact ⟨window.of_window ⟨rfl, rfl, rfl, rfl, rfl, rfl, rfl⟩, Nat.zero_le _⟩
    · obtain ⟨rfl, rfl⟩ := Prod.mk.inj (Option.some.inj (reacts.symm.trans runs))
      refine ⟨window.resend send, ?_⟩
      have size := window.windowSize
      have chosen := List.length_filter_le (fun j =>
        retransmits s.lastAckConfirmedBytes (s.window j) && send j = .sent)
        (List.range s.windowSize)
      rw [List.length_range] at chosen
      rw [List.length_map, burst]
      omega
  · have single : 1 ≤ burst cfg file := Nat.le_max_left _ _
    simp only [mainSenderReturn] at reacts
    split_ifs at reacts <;>
      obtain ⟨rfl, rfl⟩ := Prod.mk.inj (Option.some.inj reacts)
    · exact ⟨window.of_window ⟨rfl, rfl, rfl, rfl, rfl, rfl, rfl⟩, Nat.zero_le _⟩
    · exact ⟨window.of_window ⟨rfl, rfl, rfl, rfl, rfl, rfl, rfl⟩, single⟩
    · exact ⟨window.of_window ⟨rfl, rfl, rfl, rfl, rfl, rfl, rfl⟩, Nat.zero_le _⟩
  · cases reacts

/-! ### The invariant -/

/-- Every packet sent is the first one of a chunk that the window has reached, or was sent
at a timeout; every acknowledgment answers a packet or is one of the last. -/
structure Counted (cfg : Settings) (file : List UInt8) (stream : Stream) (t : Traffic) :
    Prop where
  genuine : Genuine cfg file stream t.transfer
  packets : ∃ base, SenderWindow cfg file base t.transfer.sender ∧
    t.packets ≤ base + t.transfer.sender.windowSize + t.timeouts * burst cfg file
  acks : t.acks ≤
    t.receptions + if t.transfer.receiver.result.isSome then MAX_RETRIES else 0

namespace Counted

variable {t t' : Traffic}

theorem start (fits : packetCount file < 2 ^ 31) {send : ℕ → SendResult}
    {initial : Transfer} (started : Transfer.start cfg file send = some initial) :
    Counted cfg file stream (Traffic.start initial) := by
  have genuine : Genuine cfg file stream initial := .start fits started
  obtain ⟨sender, packets, runs, begun⟩ := mainSenderStart_spec cfg fits send
  rw [Transfer.start, runs] at started
  obtain rfl := Option.some.inj started
  obtain ⟨chunks, sub, carries, _⟩ := begun.carried
  rw [List.range_eq_range'] at sub
  have sent := carries.length_le sub
  refine ⟨genuine, ⟨0, begun.window, ?_⟩, Nat.zero_le _⟩
  simp only [Traffic.start]
  omega

/-- Every event keeps the invariant. -/
theorem step (counted : Counted cfg file stream t) {event : Event}
    (taken : Traffic.Step cfg stream t event t') : Counted cfg file stream t' := by
  obtain ⟨after, moves, rfl⟩ := Option.map_eq_some_iff.mp taken
  have genuine := counted.genuine.step moves
  obtain ⟨base, window, packets⟩ := counted.packets
  have acks := counted.acks
  rcases step_cases moves with
    ⟨k, send, packet, receiver, answers, rfl, _, running, reacts, rfl⟩ |
    ⟨k, send, ack, sender, fresh, rfl, found, reacts, rfl⟩ |
    ⟨send, sender, again, rfl, reacts, rfl⟩ | ⟨k, rfl, rfl⟩ | ⟨k, rfl, rfl⟩ |
    ⟨k, packet, rfl, _, rfl⟩ | ⟨k, ack, rfl, _, rfl⟩
  · refine ⟨genuine, ⟨base, window, packets⟩, ?_⟩
    have answered := mainReceiver_length reacts
    simp only [running, Option.isSome_none, Bool.false_eq_true, if_false] at acks
    simp only [Traffic.count, List.length_append]
    omega
  · obtain ⟨base', window', moved⟩ := counted.genuine.acknowledged_length window
      (List.mem_of_getElem? found) reacts
    have size := window.windowSize
    have size' := window'.windowSize
    refine ⟨genuine, ⟨base', window', ?_⟩, acks⟩
    simp only [Traffic.count, List.length_append]
    omega
  · obtain ⟨window', bounded⟩ := window.expired_length reacts
    have size := window.windowSize
    have size' := window'.windowSize
    refine ⟨genuine, ⟨base, window', ?_⟩, acks⟩
    simp only [Traffic.count, List.length_append, Nat.add_one_mul]
    omega
  all_goals exact ⟨genuine, ⟨base, window, packets⟩, acks⟩

theorem reaches (fits : packetCount file < 2 ^ 31) {events : List Event}
    (run : Traffic.Reaches cfg stream file events t) : Counted cfg file stream t := by
  obtain ⟨send, initial, started, run⟩ := run
  exact run.invariant (.start fits started) fun counted taken => counted.step taken

end Counted

/-- Whatever the channel loses, repeats, delays or reorders: the sender sends no more
packets than the file has chunks and one window for each timeout, and the receiver answers
no packet twice and adds no more than its last acknowledgments. -/
theorem traffic_bounded (fits : packetCount file < 2 ^ 31) {events : List Event}
    {t : Traffic} (reaches : Traffic.Reaches cfg stream file events t) :
    t.packets ≤ packetCount file +
        t.timeouts * max 1 (min (packetCount file) cfg.WINDOW_SIZE) ∧
      t.acks ≤ t.receptions + MAX_RETRIES := by
  have counted := Counted.reaches fits reaches
  obtain ⟨base, window, packets⟩ := counted.packets
  have acks := counted.acks
  have within := window.within
  constructor
  · rw [burst] at packets
    omega
  · split at acks <;> omega

/-- The only packet is lost once: it is sent twice, and answered ten times more than it
is received. -/
theorem traffic_bounded_single :
    ∃ t, Traffic.Reaches settings .roomy [7]
        [.losePacket 0, .timeout fun _ => .sent, .packet 0 .sent] t ∧
      t.packets = 2 ∧ t.acks = 11 ∧
      t.packets ≤ packetCount [7] +
        t.timeouts * max 1 (min (packetCount [7]) settings.WINDOW_SIZE) ∧
      t.acks ≤ t.receptions + MAX_RETRIES := by
  have computed : ((Transfer.start settings [7] fun _ => .sent).bind fun initial =>
      (stepAll (Traffic.step settings .roomy) (fun _ _ => True)
        (Traffic.start initial)
        [.losePacket 0, .timeout fun _ => .sent, .packet 0 .sent]).map fun t =>
          (t.packets, t.acks)) = some (2, 11) := by decide +kernel
  obtain ⟨initial, started, computed⟩ := Option.bind_eq_some_iff.mp computed
  obtain ⟨t, runs, counts⟩ := Option.map_eq_some_iff.mp computed
  obtain ⟨packets, acks⟩ := Prod.mk.inj counts
  have reaches : Traffic.Reaches settings .roomy [7]
      [.losePacket 0, .timeout fun _ => .sent, .packet 0 .sent] t :=
    ⟨_, initial, started, (run_of_stepAll _ _ runs).mono fun taken => taken.1⟩
  exact ⟨t, reaches, packets, acks, traffic_bounded (by decide) reaches⟩

end Spqr
