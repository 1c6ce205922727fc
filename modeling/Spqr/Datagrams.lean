/-
Module: Spqr.Datagrams
Purpose: `receive_data_from_sender` and `wait_ack` fed with arbitrary datagrams:
  when every index and every length they use is in bounds.
Trusted boundary: none
Main exports:
  Arrival, Receiver.take, receiveAll, Receiver.Admits, Sender.take, waitAckAll,
  Sender.Admits, datagrams_within_bounds
-/
import Spqr.Wire
import Spqr.Integrity

namespace Spqr

open Labelled

variable {cfg : Settings} {file : List UInt8} {fwrite : ℕ → ℕ}

/-! ### `receive_data_from_sender` -/

/-- What `recvfrom` returns in `receive_data_from_sender`: a datagram of any
length, or an error; and what becomes of the acknowledgment. -/
structure Arrival where
  datagram : Option (List UInt8)
  send : SendResult

/-- `new_packet` after the `recvfrom`. An error leaves it as it was. -/
def Receiver.fill (r : Receiver) (datagram : Option (List UInt8)) : Packet :=
  match datagram with
  | none => r.newPacket
  | some bytes => r.newPacket.recvfrom bytes

/-- One `recvfrom` of `receive_data_from_sender`, whatever it returns. -/
def Receiver.take (cfg : Settings) (fwrite : ℕ → ℕ) (r : Receiver)
    (arrival : Arrival) : Option Receiver :=
  (receiveDataFromSender cfg fwrite arrival.send r
    (r.fill arrival.datagram)).map Prod.fst

/-- `receive_data_from_sender` until it returns or nothing more arrives. -/
def receiveAll (cfg : Settings) (fwrite : ℕ → ℕ) (r : Receiver)
    (arrivals : List Arrival) : Option Receiver :=
  feed (Receiver.take cfg fwrite) (fun r => r.result.isSome) r arrivals

/-- The `k`-th slot from the head is reached by the inner loop: it holds a
packet, and so do those before it, whose writes are complete. -/
def Receiver.Reached (cfg : Settings) (fwrite : ℕ → ℕ) (r : Receiver) (k : ℕ) :
    Prop :=
  (∀ j ≤ k, (r.window ((r.i + j) % cfg.WINDOW_SIZE)).received = true) ∧
    ∀ j < k, (r.window ((r.i + j) % cfg.WINDOW_SIZE)).size.toNat ≤
      fwrite (r.written.length + j)

/-- Every packet that the inner loop reaches has a size that its payload can
have. -/
def Receiver.SizesFit (cfg : Settings) (fwrite : ℕ → ℕ) (n : ℕ) (r : Receiver) :
    Prop :=
  ∀ k < n, r.Reached cfg fwrite k →
    0 ≤ (r.window ((r.i + k) % cfg.WINDOW_SIZE)).size ∧
      (r.window ((r.i + k) % cfg.WINDOW_SIZE)).size ≤ PACKET_SIZE

/-- The struct is turned away, or it names a slot of the window and, unless it is
a duplicate, the packets that it lets the inner loop write have sizes that fit. -/
def Receiver.Admits (cfg : Settings) (fwrite : ℕ → ℕ) (r : Receiver)
    (arrival : Arrival) : Prop :=
  let newPacket := r.fill arrival.datagram
  newPacket.seqNum = SEQ_NUM_ERROR ∨ (cfg.WINDOW_SIZE : ℤ) ≤ newPacket.seqNum ∨
    0 ≤ newPacket.seqNum ∧
      (¬ r.duplicate newPacket →
        (r.store newPacket).SizesFit cfg fwrite cfg.WINDOW_SIZE)

/-- The packet at the head is the first that the inner loop reaches. -/
theorem Receiver.reached_zero {r : Receiver} (inside : r.i < cfg.WINDOW_SIZE) :
    r.Reached cfg fwrite 0 ↔ (r.window r.i).received = true := by
  simp [Reached, Nat.mod_eq_of_lt inside]

/-- The write of one packet leaves the other slots. -/
theorem Receiver.consume_slot {r : Receiver} (inside : r.i < cfg.WINDOW_SIZE)
    {j : ℕ} (below : j + 1 < cfg.WINDOW_SIZE) :
    (r.consume cfg).window (((r.consume cfg).i + j) % cfg.WINDOW_SIZE) =
      r.window ((r.i + (j + 1)) % cfg.WINDOW_SIZE) := by
  have slot : ((r.consume cfg).i + j) % cfg.WINDOW_SIZE =
      (r.i + (j + 1)) % cfg.WINDOW_SIZE := by
    rw [consume, Nat.mod_add_mod, Nat.add_assoc, Nat.add_comm 1 j]
  have other : (r.i + (j + 1)) % cfg.WINDOW_SIZE ≠ r.i := by
    have distinct : (r.i + (j + 1)) % cfg.WINDOW_SIZE ≠ r.i % cfg.WINDOW_SIZE :=
      RoundRobin.mod_ne (by omega) (by omega)
    rwa [Nat.mod_eq_of_lt inside] at distinct
  rw [slot, consume]
  exact Function.update_of_ne other _ _

/-- After a complete write the loop goes on from the next slot. -/
theorem Receiver.reached_succ {r : Receiver} (inside : r.i < cfg.WINDOW_SIZE)
    {k : ℕ} (below : k + 1 < cfg.WINDOW_SIZE) :
    r.Reached cfg fwrite (k + 1) ↔
      (r.window r.i).received = true ∧
        (r.window r.i).size.toNat ≤ fwrite r.written.length ∧
        (r.consume cfg).Reached cfg fwrite k := by
  have written (j : ℕ) : (r.consume cfg).written.length + j =
      r.written.length + (j + 1) := by
    simp only [consume, List.length_append, List.length_singleton]
    omega
  have head : (r.i + 0) % cfg.WINDOW_SIZE = r.i := Nat.mod_eq_of_lt inside
  constructor
  · rintro ⟨received, complete⟩
    have first := received 0 (by omega)
    have whole := complete 0 (by omega)
    rw [head] at first whole
    refine ⟨first, whole, ?_, ?_⟩
    · intro j upto
      rw [consume_slot inside (by omega)]
      exact received (j + 1) (by omega)
    · intro j before
      rw [consume_slot inside (by omega), written]
      exact complete (j + 1) (by omega)
  · rintro ⟨received, complete, receivedRest, completeRest⟩
    constructor
    · intro j upto
      cases j with
      | zero => rwa [head]
      | succ j =>
          rw [← consume_slot inside (by omega)]
          exact receivedRest j (by omega)
    · intro j before
      cases j with
      | zero => rwa [head]
      | succ j =>
          rw [← consume_slot inside (by omega), ← written]
          exact completeRest j (by omega)

/-- The inner loop is defined exactly when the sizes fit. -/
theorem processAvailable_isSome (fwrite : ℕ → ℕ) :
    ∀ (n : ℕ) (r : Receiver), r.i < cfg.WINDOW_SIZE → n ≤ cfg.WINDOW_SIZE →
      ((processAvailable cfg fwrite n r).isSome ↔ r.SizesFit cfg fwrite n) := by
  intro n
  induction n with
  | zero => simp [processAvailable, Receiver.SizesFit]
  | succ n inductionHypothesis =>
      intro r inside enough
      have head : (r.i + 0) % cfg.WINDOW_SIZE = r.i := Nat.mod_eq_of_lt inside
      rw [processAvailable, if_pos inside]
      simp only
      by_cases received : (r.window r.i).received = true
      · by_cases fits : 0 ≤ (r.window r.i).size ∧ (r.window r.i).size ≤ PACKET_SIZE
        · rw [if_pos received, if_pos fits]
          by_cases short : fwrite r.written.length < (r.window r.i).size.toNat
          · -- nothing after a short write is reached
            rw [if_pos short]
            apply iff_of_true rfl
            rintro (_ | k) below reached
            · rwa [head]
            · have := ((Receiver.reached_succ inside (by omega)).mp reached).2.1
              omega
          · rw [if_neg short, inductionHypothesis _
              (Nat.mod_lt _ cfg.windowPos) (by omega)]
            constructor
            · rintro rest (_ | k) below reached
              · rwa [head]
              · rw [← Receiver.consume_slot inside (by omega)]
                exact rest k (by omega)
                  ((Receiver.reached_succ inside (by omega)).mp reached).2.2
            · intro all k below reached
              rw [Receiver.consume_slot inside (by omega)]
              exact all (k + 1) (by omega)
                ((Receiver.reached_succ inside (by omega)).mpr
                  ⟨received, by omega, reached⟩)
        · rw [if_pos received, if_neg fits]
          refine iff_of_false (by simp) fun all => fits ?_
          have := all 0 (by omega) ((Receiver.reached_zero inside).mpr received)
          rwa [head] at this
      · rw [if_neg received]
        refine iff_of_true rfl fun k _ reached => absurd ?_ received
        have := reached.1 0 (by omega)
        rwa [head] at this

/-- What stays in bounds at each `recvfrom`, whatever arrives. -/
structure Receiver.Bounded (cfg : Settings) (r : Receiver) : Prop where
  head : r.i < cfg.WINDOW_SIZE
  newPacket : r.newPacket.Fits

namespace Receiver.Bounded

variable {r : Receiver}

theorem initial : Receiver.Bounded cfg Receiver.initial :=
  ⟨cfg.windowPos, .zero⟩

theorem processAvailable {n : ℕ} {r' : Receiver} (bounded : r.Bounded cfg)
    (runs : Spqr.processAvailable cfg fwrite n r = some r') : r'.Bounded cfg := by
  apply processAvailable_invariant _ _ bounded runs
  · intro r bounded _ _
    exact ⟨Nat.mod_lt _ cfg.windowPos, bounded.newPacket⟩
  · intro r _ bounded _
    exact ⟨bounded.head, bounded.newPacket⟩

theorem loopCondition (bounded : r.Bounded cfg) : r.loopCondition.Bounded cfg := by
  unfold Receiver.loopCondition
  split
  · exact ⟨bounded.head, .zero⟩
  · exact ⟨bounded.head, bounded.newPacket⟩

theorem fill (bounded : r.Bounded cfg) (datagram : Option (List UInt8)) :
    (r.fill datagram).Fits := by
  cases datagram with
  | none => exact bounded.newPacket
  | some bytes => exact bounded.newPacket.recvfrom bytes

theorem take (bounded : r.Bounded cfg) {arrival : Arrival} {after : Receiver}
    (taken : r.take cfg fwrite arrival = some after) : after.Bounded cfg := by
  obtain ⟨⟨_, acks⟩, reacts, rfl⟩ := Option.map_eq_some_iff.mp taken
  have filled := bounded.fill arrival.datagram
  generalize r.fill arrival.datagram = newPacket at reacts filled
  have noted : (r.noteFirst newPacket).Bounded cfg := by
    unfold Receiver.noteFirst
    split
    · exact ⟨bounded.head, bounded.newPacket⟩
    · exact bounded
  have stored : ((r.noteFirst newPacket).store newPacket).Bounded cfg :=
    ⟨noted.head, noted.newPacket⟩
  rcases reaction_cases reacts with ⟨-, rfl, -⟩ | ⟨-, rfl, -⟩ | ⟨-, -, -, rfl, -⟩ |
    ⟨-, -, -, processed, runs, ⟨-, rfl, -⟩ | ⟨-, acknowledged⟩⟩
  · exact ⟨bounded.head, bounded.newPacket⟩
  · exact bounded.loopCondition
  · exact ⟨noted.head, filled⟩
  · exact stored.processAvailable runs
  · have kept := stored.processAvailable runs
    obtain ⟨rfl, -⟩ := Prod.mk.inj acknowledged
    apply loopCondition
    split
    · exact kept
    · exact ⟨kept.head, kept.newPacket⟩

/-- Whether the first packet is still to come makes no difference here. -/
theorem noteFirst_store (r : Receiver) (newPacket : Packet) (n : ℕ) :
    ((r.noteFirst newPacket).store newPacket).SizesFit cfg fwrite n ↔
      (r.store newPacket).SizesFit cfg fwrite n := by
  unfold Receiver.noteFirst
  split <;> rfl

theorem noteFirst_duplicate (r : Receiver) (newPacket : Packet) :
    (r.noteFirst newPacket).duplicate newPacket ↔ r.duplicate newPacket := by
  unfold Receiver.noteFirst
  split <;> rfl

/-- The reaction is defined exactly when the receiver admits what arrives. -/
theorem take_isSome (bounded : r.Bounded cfg) {arrival : Arrival} :
    (r.take cfg fwrite arrival).isSome ↔ r.Admits cfg fwrite arrival := by
  rw [Receiver.take, Option.isSome_map, Receiver.Admits]
  generalize r.fill arrival.datagram = newPacket
  simp only [receiveDataFromSender]
  by_cases error : newPacket.seqNum = SEQ_NUM_ERROR
  · simp [error]
  by_cases past : (cfg.WINDOW_SIZE : ℤ) ≤ newPacket.seqNum
  · simp [error, past]
  by_cases negative : newPacket.seqNum < 0
  · simp [error, past, negative]
  rw [if_neg error, if_neg past, if_neg negative]
  by_cases duplicate : r.duplicate newPacket
  · rw [if_pos ((noteFirst_duplicate r newPacket).mpr duplicate)]
    simp [duplicate, not_lt.mp negative]
  · rw [if_neg fun twice => duplicate ((noteFirst_duplicate r newPacket).mp twice),
      ← noteFirst_store, ← processAvailable_isSome fwrite _ _ _ le_rfl]
    · cases Spqr.processAvailable cfg fwrite cfg.WINDOW_SIZE
        ((r.noteFirst newPacket).store newPacket) with
      | none => simp [error, past, duplicate]
      | some processed =>
          simp only [error, past, duplicate, not_lt.mp negative]
          split_ifs <;> simp
    · rw [show ((r.noteFirst newPacket).store newPacket).i = r.i from
        (r.noteFirst_fields newPacket).2.1]
      exact bounded.head

end Receiver.Bounded

/-! ### `wait_ack` -/

/-- What `recvfrom` returns in `wait_ack`, and what becomes of the packets sent
then. -/
structure AckArrival where
  datagram : Option (List UInt8)
  send : ℕ → SendResult

/-- One `recvfrom` of `wait_ack`, whatever it returns. -/
def Sender.take (cfg : Settings) (s : Sender) (arrival : AckArrival) :
    Option Sender :=
  match arrival.datagram with
  | none => (waitAckTimeout cfg arrival.send s).map Prod.fst
  | some bytes =>
      (waitAck cfg arrival.send (min bytes.length sizeofAckPacket : ℕ) s
        (s.newAck.recvfrom bytes)).map Prod.fst

/-- `wait_ack` until it returns or nothing more arrives. -/
def waitAckAll (cfg : Settings) (s : Sender) (arrivals : List AckArrival) :
    Option Sender :=
  feed (Sender.take cfg) (fun s => s.phase != .waitAck) s arrivals

/-- The struct ends the transfer, or it names a slot of the window. -/
def Sender.Admits (cfg : Settings) (s : Sender) (arrival : AckArrival) : Prop :=
  ∀ bytes, arrival.datagram = some bytes →
    let newAck := s.newAck.recvfrom bytes
    newAck.ends s.sizeFile ∨
      0 ≤ newAck.seqNum ∧ newAck.seqNum < cfg.WINDOW_SIZE

/-- What stays in bounds at each `recvfrom`, whatever arrives. -/
structure Sender.Bounded (cfg : Settings) (s : Sender) : Prop where
  windowSize : s.windowSize ≤ cfg.WINDOW_SIZE
  head : 0 < s.noPacketsToSend → s.i < s.windowSize

/-- The refill loop never leaves the window. -/
theorem refill_bounded (send : ℕ → SendResult) :
    ∀ (budget k : ℕ) (n : ℤ) (s : Sender), s.windowSize ≤ cfg.WINDOW_SIZE →
      (0 < budget → s.i < s.windowSize) →
      ∃ s' packets, refill cfg send k n budget s = some (s', packets) ∧
        s'.Bounded cfg := by
  intro budget
  induction budget with
  | zero =>
      intro k n s fits _
      exact ⟨_, _, rfl, fits, by simp⟩
  | succ budget inductionHypothesis =>
      intro k n s fits head
      have inside := head budget.succ_pos
      rw [refill_succ, if_pos (by omega)]
      split_ifs
      · exact ⟨_, _, rfl, fits, fun _ => inside⟩
      · simp only
        split_ifs
        · exact ⟨_, _, rfl, fits, fun _ => inside⟩
        · obtain ⟨s', packets, runs, bounded⟩ :=
            inductionHypothesis (k + 1) ((send k).value n)
              (s.load budget (send k)).advance fits
              fun _ => Nat.mod_lt _ (Nat.zero_lt_of_lt inside)
          rw [runs]
          exact ⟨_, _, rfl, bounded⟩
      · exact ⟨_, _, rfl, fits, fun _ => inside⟩

namespace Sender.Bounded

variable {s : Sender}

/-- Under the condition the reaction is defined, and in bounds it stays. -/
theorem take_some (bounded : s.Bounded cfg) {arrival : AckArrival}
    (admits : s.Admits cfg arrival) :
    ∃ after, s.take cfg arrival = some after ∧ after.Bounded cfg := by
  unfold Sender.take
  cases datagram : arrival.datagram with
  | none =>
      simp only [waitAckTimeout, if_pos bounded.windowSize]
      split
      · exact ⟨_, rfl, bounded.windowSize, bounded.head⟩
      · exact ⟨_, rfl, bounded.windowSize, bounded.head⟩
  | some bytes =>
      have guard := admits bytes datagram
      simp only at guard ⊢
      generalize s.newAck.recvfrom bytes = newAck at guard
      simp only [waitAck_eq]
      split_ifs with ends outside marked
      · exact ⟨_, rfl, bounded.windowSize, bounded.head⟩
      · rcases guard with ending | inside
        · exact absurd ending ends
        · omega
      · exact ⟨_, rfl, bounded.windowSize, bounded.head⟩
      · generalize acked : Sender.mark _ newAck.seqNum.toNat = s'
        have kept : s'.Bounded cfg := by
          rw [← acked]
          exact ⟨bounded.windowSize, bounded.head⟩
        obtain ⟨s', packets, runs, bounded'⟩ :=
          refill_bounded arrival.send s'.noPacketsToSend 0
            (min bytes.length sizeofAckPacket : ℕ) s' kept.windowSize kept.head
        exact ⟨s', congrArg (Option.map Prod.fst) runs, bounded'⟩

/-- The reaction is defined exactly when the sender admits what arrives. -/
theorem take_isSome (bounded : s.Bounded cfg) {arrival : AckArrival} :
    (s.take cfg arrival).isSome ↔ s.Admits cfg arrival := by
  constructor
  · intro defined bytes datagram
    simp only [Sender.take, datagram] at defined
    simp only
    generalize s.newAck.recvfrom bytes = newAck at defined
    by_contra outside
    obtain ⟨goesOn, wrong⟩ := not_or.mp outside
    rw [waitAck_eq, if_neg goesOn, if_pos (by omega)] at defined
    simp at defined
  · intro admits
    obtain ⟨after, taken, _⟩ := bounded.take_some admits
    rw [taken]
    rfl

theorem take (bounded : s.Bounded cfg) {arrival : AckArrival} {after : Sender}
    (taken : s.take cfg arrival = some after) : after.Bounded cfg := by
  have admits := bounded.take_isSome.mp (Option.isSome_of_mem taken)
  obtain ⟨after', taken', bounded'⟩ := bounded.take_some admits
  rwa [Option.some.inj (taken.symm.trans taken')]

end Sender.Bounded

/-- Without a window there is nothing to send. -/
theorem windowSizeOf_pos {sizeFile : ℕ} (left : 0 < noPacketsOf sizeFile) :
    0 < windowSizeOf cfg (noPacketsOf sizeFile) := by
  have below : noPacketsOf sizeFile < 2 ^ 31 := by
    have := Int.bmod_lt (x := if sizeFile % PACKET_SIZE ≠ 0 then
      ((sizeFile / PACKET_SIZE : ℕ) : ℤ) + 1 else (sizeFile / PACKET_SIZE : ℕ))
      (m := 2 ^ 32) (by norm_num)
    rw [noPacketsOf]
    norm_num at this ⊢
    omega
  have := cfg.windowPos
  unfold windowSizeOf
  split_ifs <;> omega

/-- Whatever the file, `wait_ack` starts in bounds. -/
theorem Sender.Bounded.start {send : ℕ → SendResult} {s : Sender}
    {packets : List Packet}
    (started : mainSenderStart cfg file send = some (s, packets)) :
    s.Bounded cfg := by
  unfold mainSenderStart at started
  dsimp only at started
  split at started
  · simp at started
  · rename_i filled runs
    split_ifs at started with fits
    cases started
    obtain ⟨windowSize, i, noPacketsToSend, -⟩ := fillWindow_kept runs
    refine ⟨fits, fun left => ?_⟩
    simp only [noPacketsToSend, windowSize, i] at left ⊢
    exact windowSizeOf_pos (by simpa [Sender.opened] using left)

/-! ### Datagrams of the peer -/

/-- A packet that was sent whole is taken for what it is. -/
theorem Receiver.Bounded.take_encode {r : Receiver} (bounded : r.Bounded cfg)
    {packet : Packet} (fits : packet.Fits) (send : SendResult) :
    r.take cfg fwrite ⟨some packet.encode, send⟩ =
      (receiveDataFromSender cfg fwrite send r packet).map Prod.fst := by
  rw [Receiver.take, Receiver.fill, fits.recvfrom_encode bounded.newPacket]

/-- So is an acknowledgment. -/
theorem Sender.take_encode (s : Sender) {ack : AckPacket} (fits : ack.Fits)
    (send : ℕ → SendResult) :
    s.take cfg ⟨some ack.encode, send⟩ =
      (waitAck cfg send sizeofAckPacket s ack).map Prod.fst := by
  simp only [Sender.take, fits.recvfrom_encode, ack.length_encode, Nat.min_self]

/-! ### Every sequence of datagrams -/

/-- On any sequence of datagrams, both functions stay in bounds exactly as long
as they take only what they admit. -/
theorem datagrams_within_bounds :
    (∀ arrivals : List Arrival,
      (receiveAll cfg fwrite Receiver.initial arrivals).isSome ↔
        Meets (Receiver.take cfg fwrite) (fun r => r.result.isSome)
          (Receiver.Admits cfg fwrite) Receiver.initial arrivals) ∧
    ∀ (file : List UInt8) (send : ℕ → SendResult) (s : Sender)
      (packets : List Packet),
      mainSenderStart cfg file send = some (s, packets) →
      ∀ arrivals : List AckArrival,
        (waitAckAll cfg s arrivals).isSome ↔
          Meets (Sender.take cfg) (fun s => s.phase != .waitAck)
            (Sender.Admits cfg) s arrivals := by
  constructor
  · exact feed_isSome_iff (Receiver.Bounded cfg)
      (fun bounded _ taken => bounded.take taken)
      (fun bounded _ => bounded.take_isSome) .initial
  · intro file send s packets started
    exact feed_isSome_iff (Sender.Bounded cfg)
      (fun bounded _ taken => bounded.take taken)
      (fun bounded _ => bounded.take_isSome) (.start started)

/-- Four packets through a window of two slots. A datagram of three bytes leaves the
rest of the packet before it in `new_packet`, and one of four bytes confirms slot 1
with the position of the acknowledgment before it. -/
theorem datagrams_within_bounds_short :
    Meets (Receiver.take narrow fun _ => PACKET_SIZE) (fun r => r.result.isSome)
        (Receiver.Admits narrow fun _ => PACKET_SIZE) Receiver.initial
        [⟨some (filledPacket (chunk fourPackets 1) 1 4 3000).encode, .sent⟩,
          ⟨some [9, 9, 9], .dropped⟩, ⟨none, .sent⟩,
          ⟨some (filledPacket (chunk fourPackets 0) 0 4 1500).encode, .sent⟩] ∧
      ∃ s packets, mainSenderStart narrow fourPackets (fun _ => .sent) =
          some (s, packets) ∧
        Meets (Sender.take narrow) (fun s => s.phase != .waitAck)
          (Sender.Admits narrow) s
          [⟨some (AckPacket.encode ⟨0, 1500, 1500⟩), fun _ => .sent⟩,
            ⟨none, fun _ => .sent⟩, ⟨some [1, 0, 0, 0], fun _ => .sent⟩,
            ⟨some [1, 0], fun _ => .dropped⟩] := by
  constructor
  · apply (datagrams_within_bounds.1 _).mp
    decide +kernel
  · have computed : (mainSenderStart narrow fourPackets (fun _ => .sent)).map
        (fun started => (waitAckAll narrow started.1
          [⟨some (AckPacket.encode ⟨0, 1500, 1500⟩), fun _ => .sent⟩,
            ⟨none, fun _ => .sent⟩, ⟨some [1, 0, 0, 0], fun _ => .sent⟩,
            ⟨some [1, 0], fun _ => .dropped⟩]).isSome) = some true := by
      decide +kernel
    obtain ⟨⟨s, packets⟩, started, defined⟩ := Option.map_eq_some_iff.mp computed
    exact ⟨s, packets, started,
      ((@datagrams_within_bounds narrow fun _ => PACKET_SIZE).2 _ _ _ _ started
        _).mp defined⟩

/-- The text `EXIT` reaches `wait_ack`: it is read as slot `0x54495845`. A packet
for slot -1 and one with 1501 bytes are out of bounds at the receiver. -/
theorem exit_out_of_bounds :
    (∃ s packets, mainSenderStart settings [7] (fun _ => .sent) = some (s, packets) ∧
      (s.newAck.recvfrom "EXIT".toUTF8.toList).seqNum = 0x54495845 ∧
      waitAckAll settings s
        [⟨some "EXIT".toUTF8.toList, fun _ => .sent⟩] = none) ∧
    receiveAll settings (fun _ => PACKET_SIZE) Receiver.initial
      [⟨some (Packet.encode { Packet.zero with seqNum := -1 }), .sent⟩] = none ∧
    receiveAll settings (fun _ => PACKET_SIZE) Receiver.initial
      [⟨some (Packet.encode
        { Packet.zero with
          noPacketsToSend := 1, noBytesToSend := 1501, size := 1501 }),
        .sent⟩] = none := by
  refine ⟨?_, ?_, ?_⟩
  · have computed : (mainSenderStart settings [7] (fun _ => .sent)).map
        (fun started => ((started.1.newAck.recvfrom "EXIT".toUTF8.toList).seqNum,
          (waitAckAll settings started.1
            [⟨some "EXIT".toUTF8.toList, fun _ => .sent⟩]).isSome)) =
        some (0x54495845, false) := by
      decide +kernel
    obtain ⟨⟨s, packets⟩, started, values⟩ := Option.map_eq_some_iff.mp computed
    obtain ⟨seqNum, undefined⟩ := Prod.mk.inj values
    exact ⟨s, packets, started, seqNum, by simpa using undefined⟩
  · have computed : (receiveAll settings (fun _ => PACKET_SIZE) Receiver.initial
        [⟨some (Packet.encode { Packet.zero with seqNum := -1 }),
          .sent⟩]).isSome = false := by
      decide +kernel
    simpa using computed
  · have computed : (receiveAll settings (fun _ => PACKET_SIZE) Receiver.initial
        [⟨some (Packet.encode
          { Packet.zero with
            noPacketsToSend := 1, noBytesToSend := 1501, size := 1501 }),
          .sent⟩]).isSome = false := by
      decide +kernel
    simpa using computed

end Spqr
