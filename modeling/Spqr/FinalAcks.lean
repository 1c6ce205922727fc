/-
Module: Spqr.FinalAcks
Purpose: What the final acknowledgments of `main_receiver` make `main_sender`
  return, with files of any size and a channel that loses, duplicates, delays and
  reorders.
Trusted boundary: none
Main exports:
  Transfer.heard, IsFinalAck, Packet.Regular, Transfer.Regular,
  Transfer.Regular.step, Sender.Decided, Sender.GivenUp, final_ack_decides_iff
-/
import Spqr.ReceiverWindow
import Spqr.SenderWindow
import Spqr.Transfer

namespace Spqr

open Labelled

variable {cfg : Settings} {file : List UInt8} {fwrite : ℕ → ℕ} {stream : Stream}

/-! ### What the sender hears -/

namespace Transfer

/-- The acknowledgment that this event hands to the sender, and where it waits. -/
def hearing (s : Transfer) : Event → List (SenderPhase × AckPacket)
  | .ack k _ => (s.acks[k]?).toList.map fun ack => (s.sender.phase, ack)
  | _ => []

/-- All that the sender receives in the course of these events. -/
def heard (cfg : Settings) (stream : Stream) :
    Transfer → List Event → List (SenderPhase × AckPacket)
  | _, [] => []
  | s, event :: events =>
      match s.step cfg stream event with
      | none => []
      | some after => s.hearing event ++ heard cfg stream after events

theorem heard_append {first middle : Transfer} {events : List Event}
    (run : Run (Step cfg stream) first events middle) (later : List Event) :
    first.heard cfg stream (events ++ later) =
      first.heard cfg stream events ++ middle.heard cfg stream later := by
  induction run generalizing later with
  | refl => rfl
  | @tail before after events event prior final ih =>
      have taken : before.step cfg stream event = some after := final
      have here : before.heard cfg stream (event :: later) =
          before.hearing event ++ after.heard cfg stream later := by
        simp only [heard, taken]
      have last : before.heard cfg stream [event] = before.hearing event := by
        simp only [heard, taken, List.append_nil]
      rw [List.append_assoc, List.singleton_append, ih, here, ih, last,
        List.append_assoc]

theorem heard_tail {first before after : Transfer} {events : List Event} {event : Event}
    (prior : Run (Step cfg stream) first events before)
    (final : Step cfg stream before event after) :
    first.heard cfg stream (events ++ [event]) =
      first.heard cfg stream events ++ before.hearing event := by
  have taken : before.step cfg stream event = some after := final
  rw [heard_append prior]
  simp only [heard, taken, List.append_nil]

end Transfer

/-- One of the acknowledgments that `main_receiver` sends at its end, for a file
received whole. -/
def IsFinalAck (file : List UInt8) (ack : AckPacket) : Prop :=
  ack.seqNum = SEQ_NUM_ERROR ∧ ack.writeByte = file.length

instance (file : List UInt8) (ack : AckPacket) : Decidable (IsFinalAck file ack) :=
  inferInstanceAs (Decidable (_ ∧ _))

/-! ### Positions inside the file -/

/-- A packet with a slot of the window and a position in the file. -/
structure Packet.Regular (cfg : Settings) (file : List UInt8) (packet : Packet) : Prop where
  slot : 0 ≤ packet.seqNum ∧ packet.seqNum < cfg.WINDOW_SIZE
  position : 0 ≤ packet.noBytesToSend ∧ packet.noBytesToSend ≤ file.length

structure Sender.Regular (cfg : Settings) (file : List UInt8) (s : Sender) : Prop where
  slots : ∀ j, (s.window j).Regular cfg file
  sizeFile : s.sizeFile = file.length
  position : s.counter + s.unread.length = file.length

structure Receiver.Regular (file : List UInt8) (r : Receiver) : Prop where
  slots : ∀ j, 0 ≤ (r.window j).noBytesToSend ∧ (r.window j).noBytesToSend ≤ file.length
  position : 0 ≤ r.sizeReceived ∧ r.sizeReceived ≤ file.length

/-- An acknowledgment of a packet, or one that the receiver has sent at its end. -/
def AckPacket.Regular (file : List UInt8) (closes : Bool) (r : Receiver)
    (ack : AckPacket) : Prop :=
  (0 ≤ ack.seqNum ∧ 0 ≤ ack.writeByte ∧ ack.writeByte ≤ file.length) ∨
    (ack.seqNum = SEQ_NUM_ERROR ∧ r.ret closes = some EXIT_SUCCESS ∧
      ack.writeByte = r.sizeReceived)

structure Transfer.Regular (cfg : Settings) (file : List UInt8) (closes : Bool)
    (s : Transfer) : Prop where
  sender : s.sender.Regular cfg file
  receiver : s.receiver.Regular file
  packets : ∀ packet ∈ s.packets, packet.seqNum = SEQ_NUM_ERROR ∨ packet.Regular cfg file
  acks : ∀ ack ∈ s.acks, ack.Regular file closes s.receiver

theorem Packet.Regular.zero : Packet.zero.Regular cfg file := by
  have positive := cfg.windowPos
  constructor
  · simp only [Packet.zero]
    omega
  · simp only [Packet.zero]
    omega

theorem Packet.Regular.of_fields {packet other : Packet} (regular : packet.Regular cfg file)
    (seqNum : other.seqNum = packet.seqNum)
    (position : other.noBytesToSend = packet.noBytesToSend) : other.Regular cfg file := by
  constructor
  · rw [seqNum]
    exact regular.slot
  · rw [position]
    exact regular.position

/-! ### The sender -/

namespace Sender.Regular

variable {s s' : Sender} {packets : List Packet}

/-- What a packet filled from the unread bytes looks like. -/
theorem filledPacket (regular : s.Regular cfg file) (count : ℤ) {seqNum : ℤ}
    (slot : 0 ≤ seqNum ∧ seqNum < cfg.WINDOW_SIZE) :
    (filledPacket (s.unread.take PACKET_SIZE) seqNum count
      (s.counter + (s.unread.take PACKET_SIZE).length)).Regular cfg file := by
  have position := regular.position
  have length := List.length_take_le PACKET_SIZE s.unread
  have within : (s.unread.take PACKET_SIZE).length ≤ s.unread.length :=
    List.length_take_le' PACKET_SIZE s.unread
  constructor
  · exact slot
  · simp only [Spqr.filledPacket]
    omega

/-- Reading on keeps track of the position. -/
theorem read (regular : s.Regular cfg file) :
    s.counter + (s.unread.take PACKET_SIZE).length + (s.unread.drop PACKET_SIZE).length =
      file.length := by
  have position := regular.position
  rw [List.length_take, List.length_drop]
  omega

theorem opened : (Sender.opened cfg file).Regular cfg file where
  slots _ := .zero
  sizeFile := rfl
  position := by simp [Sender.opened]

/-- Filling the window. Induction on the slots that remain. -/
theorem fillWindow {count : ℤ} :
    ∀ {iterations i seqNum : ℕ} {s s' : Sender}, s.Regular cfg file →
      s.windowSize ≤ cfg.WINDOW_SIZE → (0 < iterations → seqNum < s.windowSize) →
      Spqr.fillWindow cfg count iterations i seqNum s = some s' → s'.Regular cfg file := by
  intro iterations
  induction iterations with
  | zero =>
      intro i seqNum s s' regular _ _ fills
      obtain rfl := Option.some.inj fills
      exact regular
  | succ iterations ih =>
      intro i seqNum s s' regular within slot fills
      have slot := slot iterations.succ_pos
      simp only [fillWindow_succ] at fills
      split_ifs at fills with atEnd inside
      · obtain rfl := Option.some.inj fills
        exact regular
      · have range : (0 : ℤ) ≤ seqNum ∧ (seqNum : ℤ) < cfg.WINDOW_SIZE := by omega
        have filled := regular.filledPacket count range
        refine ih ?_ ?_ ?_ fills
        rotate_left
        · exact within
        · intro _
          exact Nat.mod_lt _ (Nat.zero_lt_of_lt slot)
        constructor
        · intro j
          by_cases here : j = i
          · simp only [here, Function.update_self]
            exact filled
          · simp only [Function.update_of_ne here]
            exact regular.slots j
        · exact regular.sizeFile
        · exact regular.read

/-- Sending slots changes no position. Induction on the slots. -/
theorem sendSlots (send : ℕ → SendResult) (select stop : Packet → Bool) (slots : List ℕ) :
    ∀ {window : ℕ → Packet}, (∀ j, (window j).Regular cfg file) →
      (∀ j, ((Spqr.sendSlots send select stop slots window).1 j).Regular cfg file) ∧
      ∀ packet ∈ (Spqr.sendSlots send select stop slots window).2,
        packet.Regular cfg file := by
  induction slots with
  | nil =>
      intro window regular
      exact ⟨regular, by simp [Spqr.sendSlots]⟩
  | cons slot slots ih =>
      intro window regular
      have updated : ∀ j, (Function.update window slot
          { window slot with sent := true } j).Regular cfg file := by
        intro j
        by_cases here : j = slot
        · rw [here, Function.update_self]
          exact (regular slot).of_fields rfl rfl
        · rw [Function.update_of_ne here]
          exact regular j
      simp only [Spqr.sendSlots]
      split_ifs
      · refine ⟨updated, ?_⟩
        intro packet member
        obtain rfl := List.mem_singleton.mp member
        exact regular slot
      · refine ⟨(ih updated).1, ?_⟩
        intro packet member
        cases List.mem_cons.mp member with
        | inl first =>
            rw [first]
            exact regular slot
        | inr later => exact (ih updated).2 packet later
      · exact ih regular

theorem load (regular : s.Regular cfg file) (inside : s.i < cfg.WINDOW_SIZE) (budget : ℕ)
    (result : SendResult) :
    (s.nextPacket budget).Regular cfg file ∧ (s.load budget result).Regular cfg file := by
  have next : (s.nextPacket budget).Regular cfg file :=
    regular.filledPacket _ (by omega)
  refine ⟨next, ?_⟩
  constructor
  · intro j
    by_cases here : j = s.i
    · simp only [Sender.load, here, Function.update_self]
      split_ifs
      · exact next.of_fields rfl rfl
      · exact next
    · simp only [Sender.load, Function.update_of_ne here]
      exact regular.slots j
  · exact regular.sizeFile
  · exact regular.read

/-- Refilling keeps the positions, the phase and the error count. -/
theorem refill {send : ℕ → SendResult} {budget k : ℕ} {n : ℤ} (regular : s.Regular cfg file)
    (runs : Spqr.refill cfg send k n budget s = some (s', packets)) :
    s'.Regular cfg file ∧ (∀ packet ∈ packets, packet.Regular cfg file) ∧
      s'.phase = s.phase ∧ s'.maxErrors = s.maxErrors := by
  obtain ⟨⟨kept, phase, errors⟩, sent⟩ :=
    @refill_invariant cfg send
      (fun x => x.Regular cfg file ∧ x.phase = s.phase ∧ x.maxErrors = s.maxErrors)
      (fun packet => packet.Regular cfg file)
      (fun _ ⟨regular, same⟩ => ⟨⟨regular.slots, regular.sizeFile, regular.position⟩, same⟩)
      (fun budget result ⟨regular, same⟩ inside =>
        ⟨(regular.load inside budget result).1, (regular.load inside budget result).2, same⟩)
      (fun ⟨regular, same⟩ => ⟨⟨regular.slots, regular.sizeFile, regular.position⟩, same⟩)
      _ _ _ _ _ _ ⟨regular, rfl, rfl⟩ runs
  exact ⟨kept, sent, phase, errors⟩

theorem mainSenderStart {send : ℕ → SendResult}
    (started : Spqr.mainSenderStart cfg file send = some (s, packets)) :
    s.Regular cfg file ∧ (∀ packet ∈ packets, packet.Regular cfg file) ∧
      s.phase = .waitAck := by
  unfold Spqr.mainSenderStart at started
  dsimp only at started
  split at started
  · cases started
  · rename_i filled fills
    split_ifs at started with within
    obtain ⟨rfl, rfl⟩ := Prod.mk.inj (Option.some.inj started)
    obtain ⟨windowSize, -, -, phase⟩ := fillWindow_kept fills
    rw [windowSize] at within
    have regular := fillWindow opened within (fun more => more) fills
    obtain ⟨slots, sent⟩ := sendSlots send (fun packet => packet.ack == false)
      (fun packet => packet.size == 0) (List.range filled.windowSize) regular.slots
    exact ⟨⟨slots, regular.sizeFile, regular.position⟩, sent, phase⟩

/-- The errors are counted from zero after each acknowledgment, and one that ends
the transfer leads to the drain loop. -/
theorem waitAck (regular : s.Regular cfg file) {send : ℕ → SendResult} {n : ℤ}
    {ack : AckPacket} (reacts : Spqr.waitAck cfg send n s ack = some (s', packets)) :
    s'.Regular cfg file ∧ (∀ packet ∈ packets, packet.Regular cfg file) ∧
      s'.maxErrors = 0 ∧
      s'.phase = if ack.ends s.sizeFile then .drain 0 else s.phase := by
  simp only [waitAck_eq] at reacts
  split_ifs at reacts with ends outside acked
  · obtain ⟨rfl, rfl⟩ := Prod.mk.inj (Option.some.inj reacts)
    rw [if_pos ends]
    exact ⟨⟨regular.slots, regular.sizeFile, regular.position⟩, by simp, rfl, rfl⟩
  · obtain ⟨rfl, rfl⟩ := Prod.mk.inj (Option.some.inj reacts)
    rw [if_neg ends]
    exact ⟨⟨regular.slots, regular.sizeFile, regular.position⟩, by simp, rfl, rfl⟩
  · have marked : ((s.noteAck ack).mark ack.seqNum.toNat).Regular cfg file := by
      constructor
      · intro j
        by_cases here : j = ack.seqNum.toNat
        · simp only [Sender.mark, here, Function.update_self]
          exact (regular.slots _).of_fields rfl rfl
        · simp only [Sender.mark, Function.update_of_ne here]
          exact regular.slots j
      · exact regular.sizeFile
      · exact regular.position
    obtain ⟨kept, sent, phase, errors⟩ := marked.refill reacts
    rw [if_neg ends]
    exact ⟨kept, sent, errors, phase⟩

/-- A timeout is counted, and the last one leads to the drain loop. -/
theorem waitAckTimeout (regular : s.Regular cfg file) {send : ℕ → SendResult}
    (reacts : Spqr.waitAckTimeout cfg send s = some (s', packets)) :
    s'.Regular cfg file ∧ (∀ packet ∈ packets, packet.Regular cfg file) ∧
      (s'.phase = s.phase ∨ (s'.phase = .drain 0 ∧ MAX_ERRORS ≤ s'.maxErrors)) := by
  simp only [Spqr.waitAckTimeout] at reacts
  split_ifs at reacts with last within
  · obtain ⟨rfl, rfl⟩ := Prod.mk.inj (Option.some.inj reacts)
    exact ⟨⟨regular.slots, regular.sizeFile, regular.position⟩, by simp, .inr ⟨rfl, last⟩⟩
  · obtain ⟨rfl, rfl⟩ := Prod.mk.inj (Option.some.inj reacts)
    obtain ⟨slots, sent⟩ := sendSlots send (retransmits s.lastAckConfirmedBytes)
      (fun _ => false) (List.range s.windowSize) regular.slots
    exact ⟨⟨slots, regular.sizeFile, regular.position⟩, sent, .inl rfl⟩

end Sender.Regular

/-! ### The receiver -/

namespace Receiver.Regular

variable {r r' : Receiver}

theorem initial : Receiver.initial.Regular file where
  slots j := by simp [Receiver.initial, Packet.zero]
  position := by simp [Receiver.initial]

theorem noteFirst (regular : r.Regular file) (packet : Packet) :
    (r.noteFirst packet).Regular file := by
  unfold Receiver.noteFirst
  split_ifs
  · exact ⟨regular.slots, regular.position⟩
  · exact regular

theorem loopCondition (regular : r.Regular file) : r.loopCondition.Regular file := by
  unfold Receiver.loopCondition
  split_ifs
  · exact ⟨regular.slots, regular.position⟩
  · exact ⟨regular.slots, regular.position⟩

/-- A slot gets a packet whose position is in the file. -/
theorem update (regular : r.Regular file) {slot : ℕ} {packet : Packet}
    (position : 0 ≤ packet.noBytesToSend ∧ packet.noBytesToSend ≤ file.length) :
    ∀ j, 0 ≤ (Function.update r.window slot packet j).noBytesToSend ∧
      (Function.update r.window slot packet j).noBytesToSend ≤ file.length := by
  intro j
  by_cases here : j = slot
  · rw [here, Function.update_self]
    exact position
  · rw [Function.update_of_ne here]
    exact regular.slots j

theorem processAvailable {n : ℕ} (regular : r.Regular file)
    (runs : Spqr.processAvailable cfg fwrite n r = some r') : r'.Regular file := by
  apply processAvailable_invariant _ _ regular runs
  · intro r regular _ _
    exact ⟨regular.update (regular.slots r.i), regular.slots r.i⟩
  · intro r numWrite regular _
    exact ⟨regular.slots, regular.slots r.i⟩

/-- A reaction keeps the positions, and acknowledges with one of them. -/
theorem receive (regular : r.Regular file) {packet : Packet} {send : SendResult}
    {acks : List AckPacket}
    (genuine : packet.seqNum = SEQ_NUM_ERROR ∨ packet.Regular cfg file)
    (reacts : receiveDataFromSender cfg fwrite send r packet = some (r', acks)) :
    r'.Regular file ∧ ∀ ack ∈ acks, 0 ≤ ack.seqNum ∧ 0 ≤ ack.writeByte ∧
      ack.writeByte ≤ file.length := by
  have error : SEQ_NUM_ERROR < 0 := by decide
  have positive := cfg.windowPos
  rcases reaction_cases reacts with ⟨-, rfl, rfl⟩ | ⟨past, -⟩ | ⟨nonneg, -, -, rfl, rfl⟩ |
    ⟨nonneg, -, -, processed, runs, ⟨-, rfl, rfl⟩ | ⟨-, acknowledged⟩⟩
  · exact ⟨⟨regular.slots, regular.position⟩, by simp⟩
  · exfalso
    cases genuine with
    | inl last => omega
    | inr genuine => exact absurd genuine.slot.2 (by omega)
  · have noted := regular.noteFirst packet
    refine ⟨⟨noted.slots, noted.position⟩, ?_⟩
    intro ack member
    rw [SendResult.mem_emit member]
    exact ⟨nonneg, noted.position⟩
  · have genuine := genuine.resolve_left (by omega)
    have noted := regular.noteFirst packet
    have stored : ((r.noteFirst packet).store packet).Regular file :=
      ⟨noted.update genuine.position, noted.position⟩
    exact ⟨stored.processAvailable runs, by simp⟩
  · have genuine := genuine.resolve_left (by omega)
    have noted := regular.noteFirst packet
    have stored : ((r.noteFirst packet).store packet).Regular file :=
      ⟨noted.update genuine.position, noted.position⟩
    have regular := stored.processAvailable runs
    obtain ⟨rfl, rfl⟩ := Prod.mk.inj acknowledged
    constructor
    · apply loopCondition
      split_ifs
      · exact regular
      · exact ⟨regular.update (regular.slots _), regular.position⟩
    · intro ack member
      rw [SendResult.mem_emit member]
      exact ⟨nonneg, regular.position⟩

end Receiver.Regular

/-- With its result the receiver sends its final acknowledgments. -/
theorem AckPacket.Regular.mainReceiver {r r' : Receiver} (regular : r.Regular file)
    {packet : Packet} {closes : Bool} {send : SendResult} {acks : List AckPacket}
    (genuine : packet.seqNum = SEQ_NUM_ERROR ∨ packet.Regular cfg file)
    (reacts : Spqr.mainReceiver cfg fwrite closes send r packet = some (r', acks)) :
    r'.Regular file ∧ ∀ ack ∈ acks, ack.Regular file closes r' := by
  unfold Spqr.mainReceiver at reacts
  split at reacts
  · cases reacts
  · rename_i received sent receives
    obtain ⟨kept, genuine⟩ := regular.receive genuine receives
    split at reacts
    · obtain ⟨rfl, rfl⟩ := Prod.mk.inj (Option.some.inj reacts)
      exact ⟨kept, fun ack member => .inl (genuine ack member)⟩
    · rename_i ret result
      obtain ⟨rfl, rfl⟩ := Prod.mk.inj (Option.some.inj reacts)
      refine ⟨kept, ?_⟩
      intro ack member
      cases List.mem_append.mp member with
      | inl early => exact .inl (genuine ack early)
      | inr last =>
          unfold finalAcks at last
          split_ifs at last with none
          · cases last
          · rw [List.eq_of_mem_replicate last]
            obtain ⟨closed, failed⟩ := not_or.mp none
            have returned : received.ret closes = some EXIT_SUCCESS := by
              rw [Receiver.ret, if_pos (Bool.of_not_eq_false closed), result,
                Option.map_some, mainReceiverRet, if_neg failed]
            exact .inr ⟨rfl, returned, rfl⟩

/-! ### Both ends -/

namespace Transfer.Regular

variable {before after : Transfer} {event : Event}

theorem start {send : ℕ → SendResult} {first : Transfer} (closes : Bool)
    (started : Transfer.start cfg file send = some first) :
    first.Regular cfg file closes := by
  obtain ⟨⟨sender, packets⟩, opens, rfl⟩ := Option.map_eq_some_iff.mp started
  obtain ⟨regular, sent, -⟩ := Sender.Regular.mainSenderStart opens
  constructor
  · exact regular
  · exact .initial
  · exact fun packet member => .inr (sent packet member)
  · simp

/-- The sender's reactions keep the positions. -/
theorem sender_reacts {s s' : Sender} {packets : List Packet} (regular : s.Regular cfg file)
    (reacts : (∃ ack send, receiveAck cfg s ack send = some (s', packets)) ∨
      ∃ send, expire cfg s send = some (s', packets)) :
    s'.Regular cfg file ∧
      ∀ packet ∈ packets, packet.seqNum = SEQ_NUM_ERROR ∨ packet.Regular cfg file := by
  rcases reacts with ⟨ack, send, receives⟩ | ⟨send, expires⟩
  · unfold receiveAck at receives
    split at receives
    · obtain ⟨kept, sent, -⟩ := regular.waitAck receives
      exact ⟨kept, fun packet member => .inr (sent packet member)⟩
    · obtain ⟨rfl, rfl⟩ := Prod.mk.inj (Option.some.inj receives)
      exact ⟨⟨regular.slots, regular.sizeFile, regular.position⟩, by simp⟩
    · cases receives
  · unfold expire at expires
    split at expires
    · obtain ⟨kept, sent, -⟩ := regular.waitAckTimeout expires
      exact ⟨kept, fun packet member => .inr (sent packet member)⟩
    · simp only [mainSenderReturn, Option.some.injEq] at expires
      split_ifs at expires
      · obtain ⟨rfl, rfl⟩ := Prod.mk.inj expires
        exact ⟨⟨regular.slots, regular.sizeFile, regular.position⟩, by simp⟩
      · obtain ⟨rfl, rfl⟩ := Prod.mk.inj expires
        refine ⟨⟨regular.slots, regular.sizeFile, regular.position⟩, ?_⟩
        intro packet member
        obtain rfl := List.mem_singleton.mp member
        exact .inl rfl
      · obtain ⟨rfl, rfl⟩ := Prod.mk.inj expires
        exact ⟨⟨regular.slots, regular.sizeFile, regular.position⟩, by simp⟩
    · cases expires

/-- Every step keeps the positions of both ends and of all that is on its way. -/
theorem step (regular : before.Regular cfg file stream.closes)
    (taken : Step cfg stream before event after) : after.Regular cfg file stream.closes := by
  obtain ⟨sender, receiver, packets, acks⟩ := regular
  have grown : ∀ {sent : List Packet},
      (∀ packet ∈ sent, packet.seqNum = SEQ_NUM_ERROR ∨ packet.Regular cfg file) →
      ∀ packet ∈ before.packets ++ sent,
        packet.seqNum = SEQ_NUM_ERROR ∨ packet.Regular cfg file := by
    intro sent genuine packet member
    cases List.mem_append.mp member with
    | inl old => exact packets packet old
    | inr new => exact genuine packet new
  rcases step_cases taken with
    ⟨k, send, packet, received, sent, -, found, running, reacts, rfl⟩ |
    ⟨k, send, ack, reacted, sent, -, -, reacts, rfl⟩ | ⟨send, reacted, sent, -, reacts, rfl⟩ |
    ⟨k, -, rfl⟩ | ⟨k, -, rfl⟩ | ⟨k, packet, -, found, rfl⟩ | ⟨k, ack, -, found, rfl⟩
  · obtain ⟨kept, genuine⟩ := AckPacket.Regular.mainReceiver receiver
      (packets packet (List.mem_of_getElem? found)) reacts
    refine ⟨sender, kept, fun packet member => packets packet (List.mem_of_mem_eraseIdx member),
      ?_⟩
    intro ack member
    cases List.mem_append.mp member with
    | inl old =>
        cases acks ack old with
        | inl early => exact .inl early
        | inr last =>
            have returned := last.2.1
            simp [Receiver.ret, running] at returned
    | inr new => exact genuine ack new
  · obtain ⟨kept, genuine⟩ := sender_reacts sender (.inl ⟨ack, send, reacts⟩)
    exact ⟨kept, receiver, grown genuine,
      fun ack member => acks ack (List.mem_of_mem_eraseIdx member)⟩
  · obtain ⟨kept, genuine⟩ := sender_reacts sender (.inr ⟨send, reacts⟩)
    exact ⟨kept, receiver, grown genuine, acks⟩
  · exact ⟨sender, receiver, fun packet member => packets packet
      (List.mem_of_mem_eraseIdx member), acks⟩
  · exact ⟨sender, receiver, packets, fun ack member => acks ack
      (List.mem_of_mem_eraseIdx member)⟩
  · refine ⟨sender, receiver, grown ?_, acks⟩
    intro copy member
    obtain rfl := List.mem_singleton.mp member
    exact packets copy (List.mem_of_getElem? found)
  · refine ⟨sender, receiver, packets, ?_⟩
    intro copy member
    cases List.mem_append.mp member with
    | inl old => exact acks copy old
    | inr new =>
        obtain rfl := List.mem_singleton.mp new
        exact acks copy (List.mem_of_getElem? found)

/-- An acknowledgment ends the transfer exactly when the receiver has sent it at its
end. -/
theorem ends_iff {s : Transfer} {closes : Bool} (regular : s.Regular cfg file closes)
    {ack : AckPacket} (member : ack ∈ s.acks) :
    ack.ends s.sender.sizeFile ↔ ack.seqNum = SEQ_NUM_ERROR := by
  have position := regular.receiver.position
  have error : WRITE_BYTE_ERROR < 0 := by decide
  constructor
  · intro ends
    rw [AckPacket.ends, regular.sender.sizeFile] at ends
    have genuine := regular.acks ack member
    unfold AckPacket.Regular at genuine
    omega
  · exact .inl

theorem writeByte_ne {s : Transfer} {closes : Bool} (regular : s.Regular cfg file closes)
    {ack : AckPacket} (member : ack ∈ s.acks) : ack.writeByte ≠ WRITE_BYTE_ERROR := by
  have position := regular.receiver.position
  have error : WRITE_BYTE_ERROR < 0 := by decide
  have genuine := regular.acks ack member
  unfold AckPacket.Regular at genuine
  omega

end Transfer.Regular

/-! ### What the sender makes of them -/

/-- `wait_ack` has returned at an acknowledgment. -/
structure Sender.Decided (s : Sender) : Prop where
  errors : s.maxErrors = 0
  phase : (∃ ret, s.phase = .drain ret ∧ ret ≠ WRITE_BYTE_ERROR) ∨
    s.phase = .returned EXIT_SUCCESS

/-- `wait_ack` has returned at a timeout. -/
structure Sender.GivenUp (s : Sender) : Prop where
  errors : MAX_ERRORS ≤ s.maxErrors
  phase : (∃ ret, s.phase = .drain ret) ∨ s.phase = .returned TRANSFER_ERROR

/-- One of these ended `wait_ack`. -/
def Ended (heard : List (SenderPhase × AckPacket)) : Prop :=
  ∃ h ∈ heard, h.1 = .waitAck ∧ h.2.seqNum = SEQ_NUM_ERROR

theorem ended_append {early late : List (SenderPhase × AckPacket)} :
    Ended (early ++ late) ↔ Ended early ∨ Ended late := by
  simp only [Ended, List.mem_append, or_and_right, exists_or]

theorem ended_single {phase : SenderPhase} {ack : AckPacket} :
    Ended [(phase, ack)] ↔ phase = .waitAck ∧ ack.seqNum = SEQ_NUM_ERROR := by
  simp [Ended]

/-- Where the sender is after what it has heard. -/
def Sender.Settled (s : Sender) (heard : List (SenderPhase × AckPacket)) : Prop :=
  (s.phase = .waitAck ∧ ¬ Ended heard) ∨ (s.Decided ∧ Ended heard) ∨
    (s.GivenUp ∧ ¬ Ended heard)

theorem Sender.Decided.phase_ne {s : Sender} (decided : s.Decided) : s.phase ≠ .waitAck := by
  rcases decided.phase with ⟨ret, phase, -⟩ | phase
  · simp [phase]
  · simp [phase]

theorem Sender.GivenUp.phase_ne {s : Sender} (givenUp : s.GivenUp) : s.phase ≠ .waitAck := by
  rcases givenUp.phase with ⟨ret, phase⟩ | phase
  · simp [phase]
  · simp [phase]

namespace Sender.Settled

variable {s s' : Sender} {packets : List Packet} {heard : List (SenderPhase × AckPacket)}

/-- An acknowledgment in `wait_ack` decides, if it ends the transfer. Later ones
change nothing. -/
theorem receiveAck (settled : s.Settled heard) (regular : s.Regular cfg file)
    {ack : AckPacket} {send : ℕ → SendResult}
    (ends_iff : ack.ends s.sizeFile ↔ ack.seqNum = SEQ_NUM_ERROR)
    (fine : ack.writeByte ≠ WRITE_BYTE_ERROR)
    (receives : Transfer.receiveAck cfg s ack send = some (s', packets)) :
    s'.Settled (heard ++ [(s.phase, ack)]) := by
  rw [Sender.Settled, ended_append, ended_single]
  unfold Transfer.receiveAck at receives
  split at receives
  · rename_i waiting
    have early : ¬ Ended heard := by
      rcases settled with ⟨-, early⟩ | ⟨decided, -⟩ | ⟨givenUp, -⟩
      · exact early
      · exact absurd waiting decided.phase_ne
      · exact absurd waiting givenUp.phase_ne
    obtain ⟨-, -, errors, phase⟩ := regular.waitAck receives
    by_cases ends : ack.ends s.sizeFile
    · rw [if_pos ends] at phase
      have decided : s'.Decided := ⟨errors, .inl ⟨0, phase, by decide⟩⟩
      exact .inr (.inl ⟨decided, .inr ⟨waiting, ends_iff.mp ends⟩⟩)
    · rw [if_neg ends] at phase
      refine .inl ⟨phase.trans waiting, ?_⟩
      rintro (old | ⟨-, new⟩)
      · exact early old
      · exact ends (ends_iff.mpr new)
  · rename_i ret draining
    obtain ⟨rfl, rfl⟩ := Prod.mk.inj (Option.some.inj receives)
    rcases settled with ⟨waiting, -⟩ | ⟨decided, ended⟩ | ⟨givenUp, early⟩
    · simp [draining] at waiting
    · exact .inr (.inl ⟨⟨decided.errors, .inl ⟨_, rfl, fine⟩⟩, .inl ended⟩)
    · refine .inr (.inr ⟨⟨givenUp.errors, .inl ⟨_, rfl⟩⟩, ?_⟩)
      rintro (old | ⟨waiting, -⟩)
      · exact early old
      · exact givenUp.phase_ne waiting
  · cases receives

/-- A timeout in `wait_ack` may give up. One in the drain loop returns what has been
settled. -/
theorem expire (settled : s.Settled heard) (regular : s.Regular cfg file)
    {send : ℕ → SendResult} (expires : Transfer.expire cfg s send = some (s', packets)) :
    s'.Settled heard := by
  unfold Transfer.expire at expires
  split at expires
  · rename_i waiting
    rcases settled with ⟨-, early⟩ | ⟨decided, -⟩ | ⟨givenUp, -⟩
    · obtain ⟨-, -, phase | ⟨phase, errors⟩⟩ := regular.waitAckTimeout expires
      · exact .inl ⟨phase.trans waiting, early⟩
      · exact .inr (.inr ⟨⟨errors, .inl ⟨0, phase⟩⟩, early⟩)
    · exact absurd waiting decided.phase_ne
    · exact absurd waiting givenUp.phase_ne
  · rename_i ret draining
    rcases settled with ⟨waiting, -⟩ | ⟨decided, ended⟩ | ⟨givenUp, early⟩
    · simp [draining] at waiting
    · have fine : ret ≠ WRITE_BYTE_ERROR := by
        rcases decided.phase with ⟨_, phase, fine⟩ | phase
        · rw [draining, SenderPhase.drain.injEq] at phase
          rwa [phase]
        · simp [draining] at phase
      have few : ¬ MAX_ERRORS ≤ s.maxErrors := by
        rw [decided.errors]
        decide
      simp only [mainSenderReturn, if_neg fine, if_neg few] at expires
      obtain ⟨rfl, rfl⟩ := Prod.mk.inj (Option.some.inj expires)
      exact .inr (.inl ⟨⟨decided.errors, .inr rfl⟩, ended⟩)
    · simp only [mainSenderReturn, if_pos givenUp.errors, Option.some.injEq] at expires
      split_ifs at expires
      · obtain ⟨rfl, rfl⟩ := Prod.mk.inj expires
        exact .inr (.inr ⟨⟨givenUp.errors, .inr rfl⟩, early⟩)
      · obtain ⟨rfl, rfl⟩ := Prod.mk.inj expires
        exact .inr (.inr ⟨⟨givenUp.errors, .inr rfl⟩, early⟩)
  · cases expires

end Sender.Settled

/-- A state of a transfer, after what the sender has heard. -/
structure Transfer.Accords (cfg : Settings) (file : List UInt8) (closes : Bool)
    (s : Transfer) (heard : List (SenderPhase × AckPacket)) : Prop where
  regular : s.Regular cfg file closes
  settled : s.sender.Settled heard
  /-- Final acknowledgments are all alike. -/
  final : ∀ h ∈ heard, h.2.seqNum = SEQ_NUM_ERROR →
    s.receiver.ret closes = some EXIT_SUCCESS ∧ h.2.writeByte = s.receiver.sizeReceived

namespace Transfer.Accords

variable {before after : Transfer} {event : Event} {heard : List (SenderPhase × AckPacket)}

theorem start {send : ℕ → SendResult} {first : Transfer}
    (started : Transfer.start cfg file send = some first) :
    first.Accords cfg file stream.closes [] := by
  have regular := Transfer.Regular.start stream.closes started
  obtain ⟨⟨sender, packets⟩, opens, rfl⟩ := Option.map_eq_some_iff.mp started
  obtain ⟨-, -, waiting⟩ := Sender.Regular.mainSenderStart opens
  exact ⟨regular, .inl ⟨waiting, by simp [Ended]⟩, by simp⟩

theorem step (accords : before.Accords cfg file stream.closes heard)
    (taken : Step cfg stream before event after) :
    after.Accords cfg file stream.closes (heard ++ before.hearing event) := by
  obtain ⟨regular, settled, final⟩ := accords
  have kept := regular.step taken
  rcases step_cases taken with
    ⟨k, send, packet, received, sent, rfl, -, running, -, rfl⟩ |
    ⟨k, send, ack, reacted, sent, rfl, found, reacts, rfl⟩ |
    ⟨send, reacted, sent, rfl, reacts, rfl⟩ |
    ⟨k, rfl, rfl⟩ | ⟨k, rfl, rfl⟩ | ⟨k, packet, rfl, -, rfl⟩ | ⟨k, ack, rfl, -, rfl⟩
  · refine ⟨kept, ?_, ?_⟩
    · simp only [hearing, List.append_nil]
      exact settled
    · simp only [hearing, List.append_nil]
      intro h member last
      have returned := (final h member last).1
      simp [Receiver.ret, running] at returned
  · have member := List.mem_of_getElem? found
    have hears : before.hearing (.ack k send) = [(before.sender.phase, ack)] := by
      simp [hearing, found]
    rw [hears]
    refine ⟨kept, ?_, ?_⟩
    · exact settled.receiveAck regular.sender (regular.ends_iff member)
        (regular.writeByte_ne member) reacts
    · intro h heardHere last
      cases List.mem_append.mp heardHere with
      | inl old => exact final h old last
      | inr new =>
          obtain rfl := List.mem_singleton.mp new
          cases regular.acks ack member with
          | inl early =>
              have error : SEQ_NUM_ERROR < 0 := by decide
              simp only at last
              omega
          | inr genuine => exact genuine.2
  · refine ⟨kept, ?_, ?_⟩
    · simp only [hearing, List.append_nil]
      exact settled.expire regular.sender reacts
    · simp only [hearing, List.append_nil]
      exact final
  all_goals
    refine ⟨kept, ?_, ?_⟩
    · simp only [hearing, List.append_nil]
      exact settled
    · simp only [hearing, List.append_nil]
      exact final

/-- Induction on the run. -/
theorem run {send : ℕ → SendResult} {first last : Transfer} {events : List Event}
    (started : Transfer.start cfg file send = some first)
    (run : Run (Step cfg stream) first events last) :
    last.Accords cfg file stream.closes (first.heard cfg stream events) := by
  induction run with
  | refl => exact start started
  | tail prior final ih =>
      rw [heard_tail prior final]
      exact ih.step final

end Transfer.Accords

/-- `main_sender`, to which a final acknowledgment gets through before it returns,
reports the success of `main_receiver` if and only if one of them gets through
while `wait_ack` still listens. -/
theorem final_ack_decides_iff {send : ℕ → SendResult} {first last : Transfer}
    {events : List Event} {ret : ℤ} (started : Transfer.start cfg file send = some first)
    (run : Run (Transfer.Step cfg stream) first events last)
    (returned : last.sender.phase = .returned ret)
    (through : ∃ h ∈ first.heard cfg stream events, IsFinalAck file h.2) :
    last.receiver.ret stream.closes = some EXIT_SUCCESS ∧
    (ret = EXIT_SUCCESS ↔ ∃ h ∈ first.heard cfg stream events,
      IsFinalAck file h.2 ∧ h.1 = .waitAck) := by
  obtain ⟨-, settled, final⟩ := Transfer.Accords.run started run
  obtain ⟨h, member, seqNum, writeByte⟩ := through
  obtain ⟨success, received⟩ := final h member seqNum
  refine ⟨success, ?_⟩
  rcases settled with ⟨waiting, -⟩ | ⟨decided, ended⟩ | ⟨givenUp, early⟩
  · rw [returned] at waiting
    cases waiting
  · have result : ret = EXIT_SUCCESS := by
      rcases decided.phase with ⟨_, phase, -⟩ | phase
      · rw [returned] at phase
        cases phase
      · rw [returned] at phase
        exact SenderPhase.returned.inj phase
    constructor
    · intro _
      obtain ⟨e, heardThen, waiting, last⟩ := ended
      have whole : e.2.writeByte = file.length := by
        rw [(final e heardThen last).2, ← received, writeByte]
      exact ⟨e, heardThen, ⟨last, whole⟩, waiting⟩
    · intro _
      exact result
  · have result : ret = TRANSFER_ERROR := by
      rcases givenUp.phase with ⟨_, phase⟩ | phase
      · rw [returned] at phase
        cases phase
      · rw [returned] at phase
        exact SenderPhase.returned.inj phase
    constructor
    · intro success
      rw [result] at success
      cases success
    · rintro ⟨e, heardThen, ⟨last, -⟩, waiting⟩
      exact absurd ⟨e, heardThen, waiting, last⟩ early

/-! ### A file of one byte -/

/-- What both ends return after these events, and what the sender hears. -/
def singleByte (events : List Event) : Option (Option ℤ × SenderPhase × List AckPacket) :=
  (Transfer.start settings [7] fun _ => .sent).bind fun first =>
    (first.steps settings .roomy (fun _ _ => True) events).map fun last =>
      (last.receiver.ret true, last.sender.phase,
        (first.heard settings .roomy events).map Prod.snd)

theorem run_of_singleByte {events : List Event} {result : Option ℤ} {phase : SenderPhase}
    {acks : List AckPacket} (computed : singleByte events = some (result, phase, acks)) :
    ∃ first last, Transfer.start settings [7] (fun _ => .sent) = some first ∧
      Run (Transfer.Step settings .roomy) first events last ∧
      last.receiver.ret true = result ∧ last.sender.phase = phase ∧
      (first.heard settings .roomy events).map Prod.snd = acks := by
  obtain ⟨first, started, rest⟩ := Option.bind_eq_some_iff.mp computed
  obtain ⟨last, steps, reads⟩ := Option.map_eq_some_iff.mp rest
  simp only [Prod.mk.injEq] at reads
  exact ⟨first, last, started, (run_of_stepAll _ _ steps).mono And.left, reads⟩

/-- The final acknowledgment of one byte. -/
theorem through_of_heard {heard : List (SenderPhase × AckPacket)}
    (acks : heard.map Prod.snd = [⟨SEQ_NUM_ERROR, 0, 1⟩]) :
    ∃ h ∈ heard, IsFinalAck [7] h.2 := by
  have member : (⟨SEQ_NUM_ERROR, 0, 1⟩ : AckPacket) ∈ heard.map Prod.snd := by
    rw [acks]
    exact List.mem_singleton_self _
  obtain ⟨h, there, ack⟩ := List.mem_map.mp member
  refine ⟨h, there, ?_⟩
  rw [ack]
  exact ⟨rfl, rfl⟩

theorem final_ack_decides_in_time :
    ∃ first last, Transfer.start settings [7] (fun _ => .sent) = some first ∧
      Run (Transfer.Step settings .roomy) first
        [.packet 0 .sent, .ack 1 fun _ => .dropped, .timeout fun _ => .dropped] last ∧
      last.receiver.ret true = some EXIT_SUCCESS ∧
      (EXIT_SUCCESS = EXIT_SUCCESS ↔ ∃ h ∈ first.heard settings .roomy
        [.packet 0 .sent, .ack 1 fun _ => .dropped, .timeout fun _ => .dropped],
        IsFinalAck [7] h.2 ∧ h.1 = .waitAck) := by
  have computed : singleByte
      [.packet 0 .sent, .ack 1 fun _ => .dropped, .timeout fun _ => .dropped] =
      some (some EXIT_SUCCESS, .returned EXIT_SUCCESS, [⟨SEQ_NUM_ERROR, 0, 1⟩]) := by
    decide +kernel
  obtain ⟨first, last, started, run, -, returned, acks⟩ := run_of_singleByte computed
  exact ⟨first, last, started, run,
    final_ack_decides_iff started run returned (through_of_heard acks)⟩

/-- All acknowledgments of this transfer are late: `wait_ack` has given up before the
first of them arrives. -/
def tooLate : List Event :=
  .packet 0 .sent :: List.replicate MAX_ERRORS (.timeout fun _ => .dropped) ++
    [.ack 1 fun _ => .dropped, .timeout fun _ => .dropped]

/-- A final acknowledgment that arrives in the drain loop does not help. -/
theorem final_ack_ignored :
    ∃ first last, Transfer.start settings [7] (fun _ => .sent) = some first ∧
      Run (Transfer.Step settings .roomy) first tooLate last ∧
      last.receiver.ret true = some EXIT_SUCCESS ∧
      (∃ h ∈ first.heard settings .roomy tooLate, IsFinalAck [7] h.2) ∧
      last.sender.phase = .returned TRANSFER_ERROR := by
  have computed : singleByte tooLate = some (some EXIT_SUCCESS, .returned TRANSFER_ERROR,
      [⟨SEQ_NUM_ERROR, 0, 1⟩]) := by
    decide +kernel
  obtain ⟨first, last, started, run, success, returned, acks⟩ := run_of_singleByte computed
  exact ⟨first, last, started, run, success, through_of_heard acks, returned⟩

end Spqr
