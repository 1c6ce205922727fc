/-
Module: Spqr.Integrity
Purpose: What every run of a transfer preserves, whatever the channel does, and
  the integrity of the transfers that succeed.
Trusted boundary: none
Main exports:
  GenuineReceiver, GenuineSender, Genuine, Genuine.step, Genuine.reaches,
  integrity, scrambled
-/
import Spqr.ReceiverWindow
import Spqr.SenderWindow
import Spqr.Transfer

namespace Spqr

open Labelled Transfer

variable {cfg : Settings} {file : List UInt8} {fwrite : ℕ → ℕ} {stream : Stream}

/-! ### The two ends -/

/-- `main_receiver` has left its loop without an error packet. -/
def Receiver.Finished (r : Receiver) : Prop :=
  r.result = some EXIT_SUCCESS ∨ r.result = some WRITE_BYTE_ERROR

/-- It has got past `fclose` as well, and sends its last acknowledgments. -/
def Receiver.Concluded (closes : Bool) (r : Receiver) : Prop :=
  closes = true ∧ r.Finished

/-- One of the last acknowledgments of `main_receiver`. -/
structure AckPacket.Final (ack : AckPacket) : Prop where
  seqNum : ack.seqNum = SEQ_NUM_ERROR
  size : ack.size = 0
  writeByte : 0 ≤ ack.writeByte

/-- The receiver's side of a transfer of `file`. -/
structure GenuineReceiver (cfg : Settings) (file : List UInt8)
    (fwrite : ℕ → ℕ) (r : Receiver) : Prop where
  order : r.result ≠ some WRITE_BYTE_ERROR → ∃ chunks, SlotOrder cfg file chunks r
  short : r.result = some WRITE_BYTE_ERROR → ∃ k, fwrite k < PACKET_SIZE
  live : r.result = none → r.isFirst = false → 0 < r.noPacketsToReceive
  done : r.result = some EXIT_SUCCESS →
    r.isFirst = false ∧ r.noPacketsToReceive ≤ 0
  codes : ∀ ret, r.result = some ret →
    ret = EXIT_SUCCESS ∨ ret = TRANSFER_ERROR ∨ ret = WRITE_BYTE_ERROR

namespace GenuineReceiver

variable {r : Receiver}

theorem initial : GenuineReceiver cfg file fwrite Receiver.initial where
  order := fun _ => ⟨[], .initial cfg file⟩
  short := by simp [Receiver.initial]
  live := by simp [Receiver.initial]
  done := by simp [Receiver.initial]
  codes := by simp [Receiver.initial]

theorem of_reacted {chunks : List ℕ}
    (reacted : Reacted cfg file fwrite chunks r) :
    GenuineReceiver cfg file fwrite r := by
  cases reacted with
  | running more order begun result left =>
      exact ⟨fun _ => ⟨_, order⟩, by simp [result], fun _ _ => left,
        by simp [result], by simp [result]⟩
  | finished more order begun result left =>
      refine ⟨fun _ => ⟨_, order⟩, ?_, by simp [result], fun _ => ⟨begun, left⟩,
        by simp [result]⟩
      simp [result, EXIT_SUCCESS, WRITE_BYTE_ERROR]
  | short k incomplete begun result size =>
      refine ⟨fun other => absurd result other, fun _ => ⟨k, incomplete⟩,
        by simp [result], ?_, by simp [result]⟩
      simp [result, EXIT_SUCCESS, WRITE_BYTE_ERROR]

/-- The error packet ends the loop and leaves the rest alone. -/
theorem aborted (inv : GenuineReceiver cfg file fwrite r)
    (running : r.result = none) :
    GenuineReceiver cfg file fwrite { r with result := some TRANSFER_ERROR } where
  order := by
    intro _
    obtain ⟨chunks, order⟩ := inv.order (by simp [running])
    exact ⟨chunks, order.of_fields rfl rfl rfl rfl rfl rfl (fun _ => ⟨_, _, rfl⟩)⟩
  short := by simp [TRANSFER_ERROR, WRITE_BYTE_ERROR]
  live := by simp
  done := by simp [TRANSFER_ERROR, EXIT_SUCCESS]
  codes := by simp

/-- With a disk that takes everything, `main_receiver` succeeds only when its
loop did. -/
theorem success_of_ret (inv : GenuineReceiver cfg file fwrite r)
    (complete : Complete fwrite) {closes : Bool}
    (success : r.ret closes = some EXIT_SUCCESS) :
    closes = true ∧ r.result = some EXIT_SUCCESS := by
  unfold Receiver.ret at success
  split_ifs at success with closed
  refine ⟨closed, ?_⟩
  obtain ⟨ret, result, value⟩ := Option.map_eq_some_iff.mp success
  rcases inv.codes ret result with rfl | rfl | rfl
  · exact result
  · exact absurd value (by decide)
  · obtain ⟨k, incomplete⟩ := inv.short result
    exact absurd (complete k) (Nat.not_le.mpr incomplete)

/-- When every byte was written and counted, the file is the one that was
sent. -/
theorem file_eq (inv : GenuineReceiver cfg file fwrite r)
    (success : r.result = some EXIT_SUCCESS) : r.file = file := by
  obtain ⟨chunks, order⟩ := inv.order (by
    simp [success, EXIT_SUCCESS, WRITE_BYTE_ERROR])
  obtain ⟨begun, left⟩ := inv.done success
  have count := order.count
  rw [begun] at count
  simp only [Bool.false_eq_true, if_false] at count
  exact order.complete (by omega)

theorem destination_eq (inv : GenuineReceiver cfg file fwrite r)
    (closes : stream.closes = true) (success : r.result = some EXIT_SUCCESS) :
    r.destination stream = some file := by
  rw [Receiver.destination, if_neg, Receiver.stored, if_pos, inv.file_eq success]
  · simp [closes, success, EXIT_SUCCESS, WRITE_BYTE_ERROR]
  · simp [success, EXIT_SUCCESS, TRANSFER_ERROR]

end GenuineReceiver

/-- What the receiver sends in reaction to chunk `g`: at most one acknowledgment
of it, and the last ones once it has concluded. -/
structure Answers (cfg : Settings) (file : List UInt8) (closes : Bool) (g : ℕ)
    (r : Receiver) (regular final : List AckPacket) : Prop where
  single : regular.length ≤ 1
  named : ∀ ack ∈ regular, Acknowledges cfg file g ack
  last : ∀ ack ∈ final, ack.Final
  concluded : r.Concluded closes ↔ final ≠ []

/-- Everything `main_receiver` can do with a genuine packet. -/
theorem mainReceiver_genuine {r : Receiver} {g : ℕ} {packet : Packet}
    (inv : GenuineReceiver cfg file fwrite r) (running : r.result = none)
    (genuine : IsChunk cfg file g packet)
    (count : r.isFirst = true → packet.noPacketsToSend = packetCount file)
    (closes : Bool) (send : SendResult) :
    ∃ r' regular final,
      mainReceiver cfg fwrite closes send r packet = some (r', regular ++ final) ∧
      GenuineReceiver cfg file fwrite r' ∧ r'.isFirst = false ∧
      (r'.result = none ∨ r'.Finished) ∧
      Answers cfg file closes g r' regular final := by
  obtain ⟨chunks, order⟩ := inv.order (by simp [running])
  obtain ⟨r', acks, reacts, single, named, reacted⟩ :=
    order.receive running (inv.live running) genuine count fwrite send
  have begun : r'.isFirst = false := by cases reacted <;> assumption
  simp only [mainReceiver, reacts]
  cases result : r'.result with
  | none =>
      refine ⟨r', acks, [], by simp, .of_reacted reacted, begun, .inl result,
        single, named, by simp, ?_⟩
      simp [Receiver.Concluded, Receiver.Finished, result]
  | some ret =>
      have finished : r'.Finished ∧ 0 ≤ r'.sizeReceived := by
        cases reacted with
        | running more order begun result' left => simp [result] at result'
        | finished more order begun result' left =>
            exact ⟨.inl result', order.size.1⟩
        | short k incomplete begun result' size =>
            exact ⟨.inr result', size.1⟩
      have code : ret ≠ TRANSFER_ERROR := by
        rintro rfl
        rcases finished.1 with success | short
        · rw [result] at success
          exact absurd success (by decide)
        · rw [result] at short
          exact absurd short (by decide)
      refine ⟨r', acks, _, rfl, .of_reacted reacted, begun, .inr finished.1,
        single, named, ?_, ?_⟩
      · intro ack member
        unfold finalAcks at member
        split_ifs at member
        · simp at member
        · rw [(List.mem_replicate.mp member).2]
          exact ⟨rfl, rfl, finished.2⟩
      · rw [finalAcks, Receiver.Concluded]
        cases closes <;> simp [code, finished.1, MAX_RETRIES]

/-- The sender's side of a transfer of `file`. -/
structure GenuineSender (cfg : Settings) (file : List UInt8) (s : Sender) :
    Prop where
  window : ∃ base, SenderWindow cfg file base s
  drained : ∀ ret, s.phase = .drain ret → 0 ≤ ret
  /-- Only giving up makes `main_sender` fail. -/
  returned : ∀ ret, s.phase = .returned ret →
    ret = if MAX_ERRORS ≤ s.maxErrors then TRANSFER_ERROR else EXIT_SUCCESS

theorem GenuineSender.of_waiting {s : Sender} {base : ℕ}
    (window : SenderWindow cfg file base s) (waiting : s.phase = .waitAck) :
    GenuineSender cfg file s where
  window := ⟨base, window⟩
  drained := by simp [waiting]
  returned := by simp [waiting]

theorem GenuineSender.of_drain {s : Sender} {base : ℕ} {ret : ℤ}
    (window : SenderWindow cfg file base s) (draining : s.phase = .drain ret)
    (nonneg : 0 ≤ ret) : GenuineSender cfg file s where
  window := ⟨base, window⟩
  drained := by
    intro ret' same
    rw [draining] at same
    exact SenderPhase.drain.inj same ▸ nonneg
  returned := by simp [draining]

/-- An acknowledgment of a chunk does not end the transfer. -/
theorem Acknowledges.not_ends {g : ℕ} {ack : AckPacket}
    (named : Acknowledges cfg file g ack) : ¬ ack.ends file.length := by
  have := named.seqNum
  have := named.writeByte
  simp only [AckPacket.ends, SEQ_NUM_ERROR, WRITE_BYTE_ERROR]
  omega

theorem Acknowledges.seqNum_mem {g : ℕ} {ack : AckPacket}
    (named : Acknowledges cfg file g ack) :
    0 ≤ ack.seqNum ∧ ack.seqNum < cfg.WINDOW_SIZE := by
  rw [named.seqNum]
  exact ⟨by omega, by exact_mod_cast Nat.mod_lt g cfg.windowPos⟩

theorem Acknowledges.seqNum_ne_error {g : ℕ} {ack : AckPacket}
    (named : Acknowledges cfg file g ack) : ack.seqNum ≠ SEQ_NUM_ERROR := by
  have := named.seqNum_mem.1
  simp only [SEQ_NUM_ERROR]
  omega

theorem Acknowledges.toNat_seqNum {g : ℕ} {ack : AckPacket}
    (named : Acknowledges cfg file g ack) :
    ack.seqNum.toNat = g % cfg.WINDOW_SIZE := by
  rw [named.seqNum, Int.toNat_natCast]

theorem AckPacket.Final.ends {ack : AckPacket} (final : ack.Final)
    (sizeFile : ℕ) : ack.ends sizeFile := .inl final.seqNum

/-! ### The whole transfer -/

/-- Nothing in flight was altered or forged, and a sender that has left
`wait_ack` in good order has heard from a receiver that had concluded. -/
structure Genuine (cfg : Settings) (file : List UInt8) (stream : Stream)
    (s : Transfer) : Prop where
  sender : GenuineSender cfg file s.sender
  receiver : GenuineReceiver cfg file stream.fwrite s.receiver
  packets : ∀ packet ∈ s.packets,
    packet = errorPacket ∨ ∃ g, IsChunk cfg file g packet
  acks : ∀ ack ∈ s.acks,
    (∃ g, Acknowledges cfg file g ack) ∨
      (ack.Final ∧ s.receiver.Concluded stream.closes)
  /-- Until the first packet arrives nothing is acknowledged, and every packet
  names the number of packets of the file. -/
  quiet : s.receiver.isFirst = true →
    s.acks = [] ∧
    (∀ packet ∈ s.packets, packet = errorPacket ∨
      packet.noPacketsToSend = packetCount file) ∧
    ∀ j < s.sender.windowSize,
      (s.sender.window j).noPacketsToSend = packetCount file
  ended : s.sender.phase ≠ .waitAck → s.sender.maxErrors < MAX_ERRORS →
    s.receiver.Concluded stream.closes

namespace Genuine

variable {s : Transfer}

theorem start (fits : packetCount file < 2 ^ 31) {send : ℕ → SendResult}
    (started : Transfer.start cfg file send = some s) :
    Genuine cfg file stream s := by
  obtain ⟨sender, packets, runs, begun⟩ :=
    mainSenderStart_spec cfg fits send
  rw [Transfer.start, runs] at started
  obtain rfl := Option.some.inj started
  refine ⟨.of_waiting begun.window begun.phase, .initial, ?_, by simp, ?_, ?_⟩
  · obtain ⟨chunks, _, carries, _⟩ := begun.carried
    intro packet member
    obtain ⟨g, _, genuine⟩ := Carries.of_mem carries member
    exact .inr ⟨g, genuine⟩
  · exact fun _ =>
      ⟨rfl, fun packet member => .inr (begun.count packet member),
        begun.announced⟩
  · exact fun left => absurd begun.phase left

/-- Losing, repeating and reordering datagrams forges none. -/
theorem of_subset (inv : Genuine cfg file stream s) {packets : List Packet}
    {acks : List AckPacket} (fewerPackets : packets ⊆ s.packets)
    (fewerAcks : acks ⊆ s.acks) :
    Genuine cfg file stream { s with packets := packets, acks := acks } where
  sender := inv.sender
  receiver := inv.receiver
  packets := fun packet member => inv.packets packet (fewerPackets member)
  acks := fun ack member => inv.acks ack (fewerAcks member)
  quiet := by
    intro first
    obtain ⟨silent, announced, slots⟩ := inv.quiet first
    refine ⟨?_, fun packet member => announced packet (fewerPackets member),
      slots⟩
    rw [silent] at fewerAcks
    exact List.subset_nil.mp fewerAcks
  ended := inv.ended

/-- The packets that can arrive first announce the number of packets. -/
theorem announced (inv : Genuine cfg file stream s) {packet : Packet} {g : ℕ}
    (member : packet ∈ s.packets) (chunk : IsChunk cfg file g packet)
    (first : s.receiver.isFirst = true) :
    packet.noPacketsToSend = packetCount file :=
  ((inv.quiet first).2.1 packet member).resolve_left chunk.ne_errorPacket

/-- The receiver's reaction to a packet in flight is defined and keeps the
invariant. -/
theorem receive (inv : Genuine cfg file stream s)
    (running : s.receiver.result = none) {packet : Packet}
    (member : packet ∈ s.packets) (send : SendResult) :
    ∃ receiver acks,
      mainReceiver cfg stream.fwrite stream.closes send s.receiver packet = some (receiver, acks) ∧
      Genuine cfg file stream
        { s with receiver := receiver, acks := s.acks ++ acks } := by
  have going : ¬ s.receiver.Concluded stream.closes := by
    simp [Receiver.Concluded, Receiver.Finished, running]
  rcases inv.packets packet member with rfl | ⟨g, genuine⟩
  · refine ⟨_, _, rfl, ⟨inv.sender, inv.receiver.aborted running, inv.packets,
      ?_, ?_, ?_⟩⟩
    · intro ack old
      rw [List.nil_append, finalAcks, if_pos (.inr rfl), List.append_nil] at old
      rcases inv.acks ack old with named | ⟨_, concluded⟩
      · exact .inl named
      · exact absurd concluded going
    · intro first
      obtain ⟨silent, rest⟩ := inv.quiet first
      exact ⟨by simpa [finalAcks] using silent, rest⟩
    · intro left active
      exact absurd (inv.ended left active) going
  · obtain ⟨receiver, regular, final, reacts, inv', begun, _, answers⟩ :=
      mainReceiver_genuine inv.receiver running genuine
        (inv.announced member genuine) stream.closes send
    refine ⟨receiver, _, reacts, ⟨inv.sender, inv', inv.packets, ?_, ?_, ?_⟩⟩
    · intro ack new
      rcases List.mem_append.mp new with old | new
      · rcases inv.acks ack old with named | ⟨_, concluded⟩
        · exact .inl named
        · exact absurd concluded going
      rcases List.mem_append.mp new with named | last
      · exact .inl ⟨g, answers.named ack named⟩
      · exact .inr ⟨answers.last ack last,
          answers.concluded.mpr (List.ne_nil_of_mem last)⟩
    · intro first
      rw [begun] at first
      exact absurd first (by decide)
    · intro left active
      exact absurd (inv.ended left active) going

/-- So is the sender's reaction to an acknowledgment. -/
theorem acknowledged (inv : Genuine cfg file stream s) {ack : AckPacket}
    (member : ack ∈ s.acks) (running : ∀ ret, s.sender.phase ≠ .returned ret)
    (send : ℕ → SendResult) :
    ∃ sender packets,
      receiveAck cfg s.sender ack send = some (sender, packets) ∧
      (∀ packet ∈ packets, ∃ g, IsChunk cfg file g packet) ∧
      Genuine cfg file stream
        { s with sender := sender, packets := s.packets ++ packets } := by
  obtain ⟨base, window⟩ := inv.sender.window
  have begun : s.receiver.isFirst ≠ true := by
    intro first
    rw [(inv.quiet first).1] at member
    simp at member
  cases phase : s.sender.phase with
  | returned ret => exact absurd phase (running ret)
  | drain ret =>
      refine ⟨mainSenderDrain s.sender ack, [], by rw [receiveAck, phase],
        by simp, ?_⟩
      have nonneg : 0 ≤ ack.writeByte := by
        rcases inv.acks ack member with ⟨_, named⟩ | ⟨final, _⟩
        · exact named.writeByte.1
        · exact final.writeByte
      refine ⟨.of_drain (window.of_window ⟨rfl, rfl, rfl, rfl, rfl, rfl, rfl⟩)
        rfl nonneg, inv.receiver, ?_, inv.acks, fun first => absurd first begun, ?_⟩
      · simpa using inv.packets
      · intro _ active
        exact inv.ended (by simp [phase]) active
  | waitAck =>
      have inside : ¬ ack.ends s.sender.sizeFile →
          0 ≤ ack.seqNum ∧ ack.seqNum < cfg.WINDOW_SIZE := by
        intro goesOn
        rcases inv.acks ack member with ⟨_, named⟩ | ⟨final, _⟩
        · exact named.seqNum_mem
        · exact absurd (final.ends _) goesOn
      have nonzero : (sizeofAckPacket : ℤ) ≠ 0 := by decide
      rcases window.waitAck_cases inside nonzero send with
        ⟨ends, runs⟩ | ⟨goesOn, acked, runs⟩ |
        ⟨goesOn, unacked, s', packets, base', runs, refilled⟩
      · refine ⟨_, _, by rw [receiveAck, phase]; exact runs, by simp, ?_⟩
        refine ⟨.of_drain
          (window.of_window ⟨rfl, rfl, rfl, rfl, rfl, rfl, rfl⟩) rfl le_rfl,
          inv.receiver, by simpa using inv.packets, inv.acks,
          fun first => absurd first begun, ?_⟩
        intro _ _
        rcases inv.acks ack member with ⟨_, named⟩ | ⟨_, concluded⟩
        · rw [window.sizeFile] at ends
          exact absurd ends named.not_ends
        · exact concluded
      · refine ⟨_, _, by rw [receiveAck, phase]; exact runs, by simp, ?_⟩
        refine ⟨.of_waiting
          (window.of_window ⟨rfl, rfl, rfl, rfl, rfl, rfl, rfl⟩) phase,
          inv.receiver, by simpa using inv.packets, inv.acks,
          fun first => absurd first begun, fun left => absurd phase left⟩
      · have chunks : ∀ packet ∈ packets, ∃ g, IsChunk cfg file g packet := by
          intro packet new
          obtain ⟨chunks, _, carries, _⟩ := refilled.carried
          obtain ⟨g, _, genuine⟩ := Carries.of_mem carries new
          exact ⟨g, genuine⟩
        refine ⟨_, _, by rw [receiveAck, phase]; exact runs, chunks, ?_⟩
        have waiting : s'.phase = .waitAck := refilled.phase.trans phase
        refine ⟨.of_waiting refilled.window waiting, inv.receiver, ?_, inv.acks,
          fun first => absurd first begun, fun left => absurd waiting left⟩
        intro packet new
        rcases List.mem_append.mp new with old | new
        · exact inv.packets packet old
        · exact .inr (chunks packet new)

/-- And its reaction to a timeout. -/
theorem expired (inv : Genuine cfg file stream s)
    (running : ∀ ret, s.sender.phase ≠ .returned ret)
    (send : ℕ → SendResult) :
    ∃ sender packets, expire cfg s.sender send = some (sender, packets) ∧
      ((∃ ret, sender.phase = .returned ret) ∨
        ∀ packet ∈ packets, ∃ g, IsChunk cfg file g packet) ∧
      Genuine cfg file stream
        { s with sender := sender, packets := s.packets ++ packets } := by
  obtain ⟨base, window⟩ := inv.sender.window
  cases phase : s.sender.phase with
  | returned ret => exact absurd phase (running ret)
  | drain ret =>
      refine ⟨(mainSenderReturn s.sender ret).1, (mainSenderReturn s.sender ret).2,
        by rw [expire, phase], .inl ?_, ?_⟩
      · simp only [mainSenderReturn]
        split_ifs <;> exact ⟨_, rfl⟩
      have nonneg := inv.sender.drained ret phase
      have noWriteError : ret ≠ WRITE_BYTE_ERROR := by
        simp only [WRITE_BYTE_ERROR]
        omega
      have window' : SenderWindow cfg file base
          { s.sender with rcvTimeout := 0 } :=
        window.of_window ⟨rfl, rfl, rfl, rfl, rfl, rfl, rfl⟩
      rw [mainSenderReturn, if_neg noWriteError]
      by_cases gaveUp : MAX_ERRORS ≤ s.sender.maxErrors
      · simp only [if_pos gaveUp]
        refine ⟨⟨⟨base, window'.of_window ⟨rfl, rfl, rfl, rfl, rfl, rfl, rfl⟩⟩,
          by simp, by simp [gaveUp]⟩, inv.receiver, ?_, inv.acks, ?_, ?_⟩
        · intro packet new
          rcases List.mem_append.mp new with old | new
          · exact inv.packets packet old
          · exact .inl (List.mem_singleton.mp new)
        · intro first
          obtain ⟨silent, announced, slots⟩ := inv.quiet first
          refine ⟨silent, ?_, slots⟩
          intro packet new
          rcases List.mem_append.mp new with old | new
          · exact announced packet old
          · exact .inl (List.mem_singleton.mp new)
        · intro _ active
          exact absurd active (Nat.not_lt.mpr gaveUp)
      · simp only [if_neg gaveUp, List.append_nil]
        exact ⟨⟨⟨base, window'.of_window ⟨rfl, rfl, rfl, rfl, rfl, rfl, rfl⟩⟩,
          by simp, by simp [gaveUp]⟩, inv.receiver, inv.packets, inv.acks,
          inv.quiet, fun _ active => inv.ended (by simp [phase]) active⟩
  | waitAck =>
      rcases window.waitAckTimeout_cases send with ⟨last, runs⟩ | ⟨_, runs⟩
      · refine ⟨_, _, by rw [expire, phase]; exact runs, .inr (by simp), ?_⟩
        rw [List.append_nil]
        exact ⟨.of_drain (window.of_window ⟨rfl, rfl, rfl, rfl, rfl, rfl, rfl⟩)
          rfl le_rfl, inv.receiver, inv.packets, inv.acks, inv.quiet,
          fun _ active => absurd active (Nat.not_lt.mpr last)⟩
      · have resent : ∀ packet ∈ ((List.range s.sender.windowSize).filter fun j =>
              retransmits s.sender.lastAckConfirmedBytes (s.sender.window j) &&
                send j = .sent).map s.sender.window,
            ∃ j < s.sender.windowSize, s.sender.window j = packet := by
          intro packet new
          obtain ⟨j, chosen, rfl⟩ := List.mem_map.mp new
          exact ⟨j, List.mem_range.mp (List.mem_of_mem_filter chosen), rfl⟩
        have chunks : ∀ packet ∈ ((List.range s.sender.windowSize).filter fun j =>
              retransmits s.sender.lastAckConfirmedBytes (s.sender.window j) &&
                send j = .sent).map s.sender.window,
            ∃ g, IsChunk cfg file g packet := by
          intro packet new
          obtain ⟨j, inside, rfl⟩ := resent packet new
          obtain ⟨g, _, _, _, genuine⟩ := window.slotAt inside
          exact ⟨g, genuine⟩
        refine ⟨_, _, by rw [expire, phase]; exact runs, .inr chunks, ?_⟩
        refine ⟨.of_waiting (window.resend send) phase, inv.receiver, ?_, inv.acks,
          ?_, fun left => absurd phase left⟩
        · intro packet new
          rcases List.mem_append.mp new with old | new
          · exact inv.packets packet old
          · exact .inr (chunks packet new)
        · intro first
          obtain ⟨silent, announced, slots⟩ := inv.quiet first
          refine ⟨silent, ?_, ?_⟩
          · intro packet new
            rcases List.mem_append.mp new with old | new
            · exact announced packet old
            · obtain ⟨j, inside, rfl⟩ := resent packet new
              exact .inr (slots j inside)
          · intro j inside
            obtain ⟨sent, eq⟩ := s.sender.resend_window send j
            rw [eq]
            exact slots j inside

/-- Every event keeps the invariant. -/
theorem step {s' : Transfer} {event : Event} (inv : Genuine cfg file stream s)
    (taken : Step cfg stream s event s') : Genuine cfg file stream s' := by
  rcases step_cases taken with
    ⟨k, send, packet, receiver, acks, rfl, found, running, reacts, rfl⟩ |
    ⟨k, send, ack, sender, packets, rfl, found, reacts, rfl⟩ |
    ⟨send, sender, packets, rfl, reacts, rfl⟩ | ⟨k, rfl, rfl⟩ | ⟨k, rfl, rfl⟩ |
    ⟨k, packet, rfl, found, rfl⟩ | ⟨k, ack, rfl, found, rfl⟩
  · obtain ⟨receiver', acks', reacts', inv'⟩ :=
      inv.receive running (List.mem_of_getElem? found) send
    obtain ⟨rfl, rfl⟩ := Prod.mk.inj (Option.some.inj (reacts'.symm.trans reacts))
    exact inv'.of_subset List.eraseIdx_subset (List.Subset.refl _)
  · have running : ∀ ret, s.sender.phase ≠ .returned ret := by
      intro ret phase
      simp [receiveAck, phase] at reacts
    obtain ⟨sender', packets', reacts', _, inv'⟩ :=
      inv.acknowledged (List.mem_of_getElem? found) running send
    obtain ⟨rfl, rfl⟩ := Prod.mk.inj (Option.some.inj (reacts'.symm.trans reacts))
    exact inv'.of_subset (List.Subset.refl _) List.eraseIdx_subset
  · have running : ∀ ret, s.sender.phase ≠ .returned ret := by
      intro ret phase
      simp [expire, phase] at reacts
    obtain ⟨sender', packets', reacts', _, inv'⟩ := inv.expired running send
    obtain ⟨rfl, rfl⟩ := Prod.mk.inj (Option.some.inj (reacts'.symm.trans reacts))
    exact inv'
  · exact inv.of_subset List.eraseIdx_subset (List.Subset.refl _)
  · exact inv.of_subset (List.Subset.refl _) List.eraseIdx_subset
  · exact inv.of_subset (by simp [List.mem_of_getElem? found])
      (List.Subset.refl _)
  · exact inv.of_subset (List.Subset.refl _)
      (by simp [List.mem_of_getElem? found])

/-- So it holds along every run. -/
theorem reaches {allowed : Transfer → Event → Prop} {events : List Event}
    (fits : packetCount file < 2 ^ 31)
    (run : Reaches cfg stream allowed file events s) :
    Genuine cfg file stream s :=
  run.invariant _ (Genuine.start fits) (fun inv taken _ => inv.step taken)

/-- A sender that succeeds has had a receiver that did, on a disk that takes
every `fwrite`. -/
theorem delivered (inv : Genuine cfg file stream s) (complete : Complete stream.fwrite)
    (success : s.sender.phase = .returned EXIT_SUCCESS) :
    s.receiver.result = some EXIT_SUCCESS ∧
      s.receiver.destination stream = some file := by
  have active : s.sender.maxErrors < MAX_ERRORS := by
    by_contra gaveUp
    have code := inv.sender.returned _ success
    rw [if_pos (Nat.not_lt.mp gaveUp)] at code
    exact absurd code (by decide)
  obtain ⟨closes, finished⟩ := inv.ended (by simp [success]) active
  have result : s.receiver.result = some EXIT_SUCCESS := by
    rcases finished with result | short
    · exact result
    · obtain ⟨k, incomplete⟩ := inv.receiver.short short
      exact absurd (complete k) (Nat.not_le.mpr incomplete)
  exact ⟨result, inv.receiver.destination_eq closes result⟩

end Genuine

/-! ### Integrity -/

/-- Whatever the channel loses, repeats, delays or reorders: a receiver that
succeeds has written the file that was sent, and a sender that succeeds has had
a receiver that did. -/
theorem integrity {allowed : Transfer → Event → Prop} {events : List Event}
    {s : Transfer} (fits : packetCount file < 2 ^ 31)
    (complete : Complete stream.fwrite)
    (reaches : Reaches cfg stream allowed file events s) :
    (s.receiver.ret stream.closes = some EXIT_SUCCESS →
      s.receiver.destination stream = some file) ∧
    (s.sender.phase = .returned EXIT_SUCCESS →
      s.receiver.result = some EXIT_SUCCESS ∧
        s.receiver.destination stream = some file) := by
  have inv := Genuine.reaches fits reaches
  constructor
  · intro success
    obtain ⟨closes, result⟩ := inv.receiver.success_of_ret complete success
    exact inv.receiver.destination_eq closes result
  · exact inv.delivered complete

/-- Four packets through a window of two slots: the first two arrive in the wrong
order, an acknowledgment is dropped, a packet is sent again and repeated, and both
slots are used again. -/
def scrambled : List Event :=
  [.packet 1 .sent, .packet 0 .dropped, .ack 0 fun _ => .sent, .timeout fun _ => .sent,
    .duplicatePacket 0, .packet 0 .sent, .packet 0 .sent, .ack 1 fun _ => .sent,
    .packet 1 .sent, .packet 0 .sent, .ack 3 fun _ => .sent, .timeout fun _ => .sent]

theorem scrambled_returns :
    ∃ s, Reaches narrow .roomy (fun _ _ => True) fourPackets scrambled s ∧
      s.sender.phase = .returned EXIT_SUCCESS := by
  have computed : (((Transfer.start narrow fourPackets (fun _ => .sent)).bind fun initial =>
      initial.steps narrow .roomy (fun _ _ => True) scrambled).map fun s =>
        s.sender.phase) = some (.returned EXIT_SUCCESS) := by decide +kernel
  obtain ⟨s, run, success⟩ := Option.map_eq_some_iff.mp computed
  exact ⟨s, reaches_of_steps run, success⟩

theorem integrity_fourPackets :
    ∃ s, Reaches narrow .roomy (fun _ _ => True) fourPackets scrambled s ∧
      s.receiver.destination .roomy = some fourPackets := by
  obtain ⟨s, reaches, success⟩ := scrambled_returns
  exact ⟨s, reaches,
    ((integrity fourPackets_fits (fun _ => le_rfl) reaches).2 success).2⟩

end Spqr
