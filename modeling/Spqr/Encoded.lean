/-
Module: Spqr.Encoded
Purpose: A transfer whose channel holds bytes: each datagram is the memory of a
  struct, written by one end and read into a struct by the other.
Trusted boundary: x86-64 layout of `packet_t` and `ack_packet_t`
Main exports:
  EncodedTransfer, EncodedTransfer.step, Transfer.encode, Marshalled,
  encoded_reaches
-/
import Spqr.Lib.Simulation
import Spqr.Datagrams
import Spqr.FailedReceive

namespace Spqr

open Labelled Transfer

variable {cfg : Settings} {file : List UInt8} {stream : Stream}

/-! ### Both ends with bytes between them -/

/-- Both ends of a transfer and the bytes of the datagrams between them. -/
structure EncodedTransfer where
  sender : Sender
  receiver : Receiver
  /-- Sent by `main_sender` and not yet received. -/
  packets : List (List UInt8)
  /-- Sent by `main_receiver` and not yet received. -/
  acks : List (List UInt8)

namespace EncodedTransfer

/-- Both functions at their first `recvfrom`. -/
def start (cfg : Settings) (file : List UInt8) (send : ℕ → SendResult) :
    Option EncodedTransfer :=
  (mainSenderStart cfg file send).map fun (sender, packets) =>
    { sender := sender
      receiver := Receiver.initial
      packets := packets.map Packet.encode
      acks := [] }

/-- The sender's `recvfrom` returns these bytes. -/
def receiveAck (cfg : Settings) (s : Sender) (datagram : List UInt8)
    (send : ℕ → SendResult) : Option (Sender × List Packet) :=
  match s.phase with
  | .waitAck =>
      waitAck cfg send (min datagram.length sizeofAckPacket : ℕ) s
        (s.newAck.recvfrom datagram)
  | .drain _ => some (mainSenderDrain s (AckPacket.zero.recvfrom datagram), [])
  | .returned _ => none

/-- The state after an event, if the event can happen. -/
def step (cfg : Settings) (stream : Stream) (e : EncodedTransfer) :
    Event → Option EncodedTransfer
  | .packet k send => do
      let datagram ← e.packets[k]?
      guard e.receiver.result.isNone
      let (receiver, acks) ←
        mainReceiver cfg stream.fwrite stream.closes send e.receiver
          (e.receiver.newPacket.recvfrom datagram)
      pure { e with
        receiver := receiver
        packets := e.packets.eraseIdx k
        acks := e.acks ++ acks.map AckPacket.encode }
  | .ack k send => do
      let datagram ← e.acks[k]?
      let (sender, packets) ← receiveAck cfg e.sender datagram send
      pure { e with
        sender := sender
        packets := e.packets ++ packets.map Packet.encode
        acks := e.acks.eraseIdx k }
  | .timeout send => do
      let (sender, packets) ← expire cfg e.sender send
      pure { e with sender := sender, packets := e.packets ++ packets.map Packet.encode }
  | .losePacket k => some { e with packets := e.packets.eraseIdx k }
  | .loseAck k => some { e with acks := e.acks.eraseIdx k }
  | .duplicatePacket k => do
      let datagram ← e.packets[k]?
      pure { e with packets := e.packets ++ [datagram] }
  | .duplicateAck k => do
      let datagram ← e.acks[k]?
      pure { e with acks := e.acks ++ [datagram] }

/-- The states that a transfer of `file` can reach. -/
def Reaches (cfg : Settings) (stream : Stream) (file : List UInt8) (events : List Event)
    (e : EncodedTransfer) : Prop :=
  ∃ send initial, start cfg file send = some initial ∧
    Run (fun before event after => before.step cfg stream event = some after) initial
      events e

end EncodedTransfer

/-- The same transfer with the memory of its structs in flight. -/
def Transfer.encode (s : Transfer) : EncodedTransfer where
  sender := s.sender
  receiver := s.receiver
  packets := s.packets.map Packet.encode
  acks := s.acks.map AckPacket.encode

/-! ### The values that are sent fit their types -/

/-- A file whose packet count fits an `int32_t` has offsets that fit an `int64_t`. -/
theorem length_lt_of_packetCount (fits : packetCount file < 2 ^ 31) :
    file.length < 2 ^ 63 := by
  simp only [packetCount, PACKET_SIZE] at fits
  omega

theorem Int32.of_lt {n : ℕ} (below : n < 2 ^ 31) : Int32 n :=
  ⟨by omega, by exact_mod_cast below⟩

theorem Int64.of_lt {n : ℕ} (below : n < 2 ^ 63) : Int64 n :=
  ⟨by omega, by exact_mod_cast below⟩

/-- A chunk number names a slot that an `int32_t` holds. -/
theorem int32_slot {g : ℕ} (fits : packetCount file < 2 ^ 31)
    (inside : g < packetCount file) : Int32 (g % cfg.WINDOW_SIZE : ℕ) :=
  .of_lt ((Nat.mod_le g _).trans_lt (inside.trans fits))

/-- A packet of the file fits when its `no_packets_to_send` does. -/
theorem IsChunk.fits {g : ℕ} {packet : Packet} (chunk : IsChunk cfg file g packet)
    (fits : packetCount file < 2 ^ 31) (numbered : Int32 packet.noPacketsToSend) :
    packet.Fits where
  payload := by
    rw [chunk.payload, padded, List.length_append, List.length_replicate, chunk_length]
    omega
  seqNum := by
    rw [chunk.seqNum]
    exact int32_slot fits chunk.inside
  noPacketsToSend := numbered
  noBytesToSend := by
    rw [chunk.noBytesToSend]
    exact .of_lt ((chunkEnd_le file g).trans_lt (length_lt_of_packetCount fits))
  size := by
    rw [chunk.size]
    apply Int64.of_lt
    rw [chunk_length, PACKET_SIZE]
    omega

/-- The acknowledgment of a packet of the file fits. -/
theorem Acknowledges.fits {g : ℕ} {ack : AckPacket}
    (named : Acknowledges cfg file g ack) (fits : packetCount file < 2 ^ 31) :
    ack.Fits where
  seqNum := by
    rw [named.seqNum]
    exact int32_slot fits named.inside
  size := by
    rw [named.size]
    exact .of_lt ((chunkEnd_le file g).trans_lt (length_lt_of_packetCount fits))
  writeByte := by
    have := length_lt_of_packetCount fits
    have := named.writeByte
    exact ⟨by omega, by omega⟩

/-- So do the last acknowledgments, which report how much was written. -/
theorem finalAcks_fits {closes : Bool} {ret sizeReceived : ℤ} {ack : AckPacket}
    (fits : packetCount file < 2 ^ 31)
    (size : 0 ≤ sizeReceived ∧ sizeReceived ≤ file.length)
    (member : ack ∈ finalAcks closes ret sizeReceived) : ack.Fits := by
  have := length_lt_of_packetCount fits
  unfold finalAcks at member
  split at member
  · simp at member
  · rw [(List.mem_replicate.mp member).2]
    refine ⟨?_, ?_, ?_⟩
    · exact ⟨by norm_num [SEQ_NUM_ERROR], by norm_num [SEQ_NUM_ERROR]⟩
    · exact ⟨by norm_num [AckPacket.zero], by norm_num [AckPacket.zero]⟩
    · exact ⟨by dsimp only; omega, by dsimp only; omega⟩

/-! ### The numbers of the sender's packets -/

/-- The packets left to send, in every slot and in the budget of the refill loop. -/
structure Sender.Numbered (s : Sender) : Prop where
  budget : s.noPacketsToSend < 2 ^ 31
  slots : ∀ j < s.windowSize, Int32 (s.window j).noPacketsToSend

/-- The refill loop counts down. Induction on the budget. -/
theorem refill_numbered {send : ℕ → SendResult} :
    ∀ {budget k : ℕ} {n : ℤ} {s s' : Sender} {packets : List Packet}, budget < 2 ^ 31 →
      (∀ j < s.windowSize, Int32 (s.window j).noPacketsToSend) →
      refill cfg send k n budget s = some (s', packets) →
      s'.Numbered ∧ ∀ packet ∈ packets, Int32 packet.noPacketsToSend := by
  intro budget
  induction budget with
  | zero =>
      intro k n s s' packets _ slots runs
      obtain ⟨rfl, rfl⟩ := Prod.mk.inj (Option.some.inj runs)
      exact ⟨⟨by norm_num, slots⟩, by simp⟩
  | succ budget inductionHypothesis =>
      intro k n s s' packets below slots runs
      have next : Int32 (s.nextPacket budget).noPacketsToSend := .of_lt (by omega)
      have loaded : ∀ j < (s.load budget (send k)).windowSize,
          Int32 ((s.load budget (send k)).window j).noPacketsToSend := by
        intro j inside
        by_cases here : j = s.i
        · subst here
          simp only [Sender.load, Function.update_self]
          split <;> exact next
        · simp only [Sender.load, Function.update_of_ne here]
          exact slots j inside
      simp only [refill_succ] at runs
      split_ifs at runs
      · obtain ⟨rfl, rfl⟩ := Prod.mk.inj (Option.some.inj runs)
        exact ⟨⟨by dsimp only; omega, slots⟩, by simp⟩
      · obtain ⟨rfl, rfl⟩ := Prod.mk.inj (Option.some.inj runs)
        refine ⟨⟨by dsimp only [Sender.load]; omega, loaded⟩, fun packet member => ?_⟩
        rw [SendResult.mem_emit member]
        exact next
      · split at runs
        · cases runs
        · rename_i rest
          obtain ⟨rfl, rfl⟩ := Prod.mk.inj (Option.some.inj runs)
          obtain ⟨kept, later⟩ := inductionHypothesis
            (s := (s.load budget (send k)).advance) (by omega) loaded rest
          refine ⟨kept, fun packet member => ?_⟩
          cases List.mem_append.mp member with
          | inl first =>
              rw [SendResult.mem_emit first]
              exact next
          | inr other => exact later packet other
      · obtain ⟨rfl, rfl⟩ := Prod.mk.inj (Option.some.inj runs)
        exact ⟨⟨below, slots⟩, by simp⟩

/-- At the start the budget is the number of packets of the file. -/
theorem mainSenderStart_budget (fits : packetCount file < 2 ^ 31)
    {send : ℕ → SendResult} {s : Sender} {packets : List Packet}
    (started : mainSenderStart cfg file send = some (s, packets)) :
    s.noPacketsToSend = packetCount file := by
  unfold mainSenderStart at started
  dsimp only at started
  split at started
  · simp at started
  · rename_i filled runs
    split_ifs at started
    cases started
    obtain ⟨-, -, budget, -⟩ := fillWindow_kept runs
    rw [budget, Sender.opened, noPacketsOf_eq fits, Int.toNat_natCast]

/-! ### What the channel and the structs hold -/

/-- Every struct in flight, and every struct that `recvfrom` may fill, holds values of
its types. -/
structure Marshalled (cfg : Settings) (file : List UInt8) (stream : Stream)
    (s : Transfer) : Prop where
  genuine : Genuine cfg file stream s
  receiver : s.receiver.Bounded cfg
  sender : s.sender.Numbered
  packets : ∀ packet ∈ s.packets, packet.Fits
  acks : ∀ ack ∈ s.acks, ack.Fits

namespace Marshalled

variable {s : Transfer}

theorem start (fits : packetCount file < 2 ^ 31) {send : ℕ → SendResult}
    (started : Transfer.start cfg file send = some s) :
    Marshalled cfg file stream s := by
  have genuine : Genuine cfg file stream s := .start fits started
  obtain ⟨sender, packets, runs, begun⟩ := mainSenderStart_spec cfg fits send
  rw [Transfer.start, runs] at started
  obtain rfl := Option.some.inj started
  refine ⟨genuine, .initial, ⟨?_, ?_⟩, ?_, by simp⟩
  · rwa [mainSenderStart_budget fits runs]
  · intro j inside
    rw [begun.announced j inside]
    exact .of_lt fits
  · intro packet member
    obtain ⟨_, _, carries, _⟩ := begun.carried
    obtain ⟨_, _, chunk⟩ := carries.of_mem member
    apply chunk.fits fits
    rw [begun.count packet member]
    exact .of_lt fits

/-- The receiver's reaction to a packet. -/
theorem receive (inv : Marshalled cfg file stream s) (fits : packetCount file < 2 ^ 31)
    (running : s.receiver.result = none) {packet : Packet} (member : packet ∈ s.packets)
    {send : SendResult} {receiver : Receiver} {acks : List AckPacket}
    (reacts : mainReceiver cfg stream.fwrite stream.closes send s.receiver packet =
      some (receiver, acks)) :
    receiver.Bounded cfg ∧ ∀ ack ∈ acks, ack.Fits := by
  unfold mainReceiver at reacts
  split at reacts
  · simp at reacts
  rename_i r regular taken
  have read : s.receiver.take cfg stream.fwrite ⟨some packet.encode, send⟩ = some r := by
    rw [inv.receiver.take_encode (inv.packets packet member), taken]
    rfl
  have bounded : r.Bounded cfg := inv.receiver.take read
  have answered : (∀ ack ∈ regular, ack.Fits) ∧ (∀ ret, r.result = some ret →
      ∀ ack ∈ finalAcks stream.closes ret r.sizeReceived, ack.Fits) := by
    rcases inv.genuine.packets packet member with rfl | ⟨g, chunk⟩
    · obtain ⟨rfl, rfl⟩ := Prod.mk.inj (Option.some.inj taken)
      refine ⟨by simp, ?_⟩
      rintro ret result ack final
      obtain rfl := Option.some.inj result
      simp [finalAcks] at final
    · obtain ⟨chunks, order⟩ := inv.genuine.receiver.order (by simp [running])
      obtain ⟨r', acks', taken', _, named, reacted⟩ :=
        order.receive running (inv.genuine.receiver.live running) chunk
          (inv.genuine.announced member chunk) stream.fwrite send
      obtain ⟨rfl, rfl⟩ := Prod.mk.inj (Option.some.inj (taken'.symm.trans taken))
      refine ⟨fun ack regular => (named ack regular).fits fits, ?_⟩
      intro ret _ ack final
      refine finalAcks_fits fits ?_ final
      cases reacted with
      | running more order => exact order.size
      | finished more order => exact order.size
      | short k incomplete begun result size => exact size
  split at reacts
  · obtain ⟨rfl, rfl⟩ := Prod.mk.inj (Option.some.inj reacts)
    exact ⟨bounded, answered.1⟩
  · rename_i ret result
    obtain ⟨rfl, rfl⟩ := Prod.mk.inj (Option.some.inj reacts)
    refine ⟨bounded, fun ack member => ?_⟩
    rcases List.mem_append.mp member with first | last
    · exact answered.1 ack first
    · exact answered.2 ret result ack last

/-- The sender's reaction to an acknowledgment. -/
theorem acknowledged (inv : Marshalled cfg file stream s)
    (fits : packetCount file < 2 ^ 31) {ack : AckPacket} (member : ack ∈ s.acks)
    {send : ℕ → SendResult} {sender : Sender} {packets : List Packet}
    (reacts : receiveAck cfg s.sender ack send = some (sender, packets)) :
    sender.Numbered ∧ ∀ packet ∈ packets, packet.Fits := by
  have running : ∀ ret, s.sender.phase ≠ .returned ret := by
    intro ret phase
    simp [receiveAck, phase] at reacts
  obtain ⟨_, _, reacts', chunks, _⟩ := inv.genuine.acknowledged member running send
  obtain ⟨rfl, rfl⟩ := Prod.mk.inj (Option.some.inj (reacts.symm.trans reacts'))
  suffices numbered : sender.Numbered ∧ ∀ packet ∈ packets, Int32 packet.noPacketsToSend by
    refine ⟨numbered.1, fun packet new => ?_⟩
    obtain ⟨g, chunk⟩ := chunks packet new
    exact chunk.fits fits (numbered.2 packet new)
  unfold receiveAck at reacts
  split at reacts
  · simp only [waitAck_eq] at reacts
    split_ifs at reacts
    · obtain ⟨rfl, rfl⟩ := Prod.mk.inj (Option.some.inj reacts)
      exact ⟨⟨inv.sender.budget, inv.sender.slots⟩, by simp⟩
    · obtain ⟨rfl, rfl⟩ := Prod.mk.inj (Option.some.inj reacts)
      exact ⟨⟨inv.sender.budget, inv.sender.slots⟩, by simp⟩
    · refine refill_numbered inv.sender.budget (fun j inside => ?_) reacts
      simp only [Sender.mark, Function.update_apply]
      split
      · rename_i here
        subst here
        exact inv.sender.slots _ inside
      · exact inv.sender.slots j inside
  · obtain ⟨rfl, rfl⟩ := Prod.mk.inj (Option.some.inj reacts)
    exact ⟨⟨inv.sender.budget, inv.sender.slots⟩, by simp⟩
  · simp at reacts

/-- And its reaction to a timeout. -/
theorem expired (inv : Marshalled cfg file stream s) (fits : packetCount file < 2 ^ 31)
    {send : ℕ → SendResult} {sender : Sender} {packets : List Packet}
    (reacts : expire cfg s.sender send = some (sender, packets)) :
    sender.Numbered ∧ ∀ packet ∈ packets, packet.Fits := by
  unfold expire at reacts
  split at reacts
  · obtain ⟨base, window⟩ := inv.genuine.sender.window
    rcases window.waitAckTimeout_cases send with ⟨_, runs⟩ | ⟨_, runs⟩
    · obtain ⟨rfl, rfl⟩ := Prod.mk.inj (Option.some.inj (runs.symm.trans reacts))
      exact ⟨⟨inv.sender.budget, inv.sender.slots⟩, by simp⟩
    · obtain ⟨rfl, rfl⟩ := Prod.mk.inj (Option.some.inj (runs.symm.trans reacts))
      refine ⟨⟨inv.sender.budget, fun j inside => ?_⟩, fun packet member => ?_⟩
      · obtain ⟨sent, same⟩ := s.sender.resend_window send j
        rw [same]
        exact inv.sender.slots j inside
      · obtain ⟨j, chosen, rfl⟩ := List.mem_map.mp member
        have inside := List.mem_range.mp (List.mem_of_mem_filter chosen)
        obtain ⟨g, _, _, _, chunk⟩ := window.slotAt inside
        exact chunk.fits fits (inv.sender.slots j inside)
  · simp only [mainSenderReturn] at reacts
    split_ifs at reacts <;>
      obtain ⟨rfl, rfl⟩ := Prod.mk.inj (Option.some.inj reacts)
    · exact ⟨⟨inv.sender.budget, inv.sender.slots⟩, by simp⟩
    · refine ⟨⟨inv.sender.budget, inv.sender.slots⟩, fun packet member => ?_⟩
      rw [List.mem_singleton.mp member]
      exact errorPacket_fits
    · exact ⟨⟨inv.sender.budget, inv.sender.slots⟩, by simp⟩
  · simp at reacts

/-- Every event keeps the invariant. -/
theorem step (inv : Marshalled cfg file stream s) (fits : packetCount file < 2 ^ 31)
    {event : Event} {s' : Transfer} (taken : Step cfg stream s event s') :
    Marshalled cfg file stream s' := by
  have genuine := inv.genuine.step taken
  rcases step_cases taken with
    ⟨k, send, packet, receiver, acks, rfl, found, running, reacts, rfl⟩ |
    ⟨k, send, ack, sender, packets, rfl, found, reacts, rfl⟩ |
    ⟨send, sender, packets, rfl, reacts, rfl⟩ | ⟨k, rfl, rfl⟩ | ⟨k, rfl, rfl⟩ |
    ⟨k, packet, rfl, found, rfl⟩ | ⟨k, ack, rfl, found, rfl⟩
  · obtain ⟨bounded, fit⟩ :=
      inv.receive fits running (List.mem_of_getElem? found) reacts
    refine ⟨genuine, bounded, inv.sender, ?_, ?_⟩
    · exact fun packet member => inv.packets packet (List.eraseIdx_subset member)
    · exact fun ack member => (List.mem_append.mp member).elim (inv.acks ack) (fit ack)
  · obtain ⟨numbered, fit⟩ :=
      inv.acknowledged fits (List.mem_of_getElem? found) reacts
    refine ⟨genuine, inv.receiver, numbered, ?_, ?_⟩
    · exact fun packet member =>
        (List.mem_append.mp member).elim (inv.packets packet) (fit packet)
    · exact fun ack member => inv.acks ack (List.eraseIdx_subset member)
  · obtain ⟨numbered, fit⟩ := inv.expired fits reacts
    refine ⟨genuine, inv.receiver, numbered, ?_, inv.acks⟩
    exact fun packet member =>
      (List.mem_append.mp member).elim (inv.packets packet) (fit packet)
  · exact ⟨genuine, inv.receiver, inv.sender,
      fun packet member => inv.packets packet (List.eraseIdx_subset member), inv.acks⟩
  · exact ⟨genuine, inv.receiver, inv.sender, inv.packets,
      fun ack member => inv.acks ack (List.eraseIdx_subset member)⟩
  · refine ⟨genuine, inv.receiver, inv.sender, fun packet' member => ?_, inv.acks⟩
    rcases List.mem_append.mp member with old | copy
    · exact inv.packets packet' old
    · rw [List.mem_singleton.mp copy]
      exact inv.packets packet (List.mem_of_getElem? found)
  · refine ⟨genuine, inv.receiver, inv.sender, inv.packets, fun ack' member => ?_⟩
    rcases List.mem_append.mp member with old | copy
    · exact inv.acks ack' old
    · rw [List.mem_singleton.mp copy]
      exact inv.acks ack (List.mem_of_getElem? found)

end Marshalled

/-! ### The two transfers -/

/-- What the sender reads from the bytes of an acknowledgment. -/
theorem EncodedTransfer.receiveAck_encode {s : Sender} {ack : AckPacket}
    (fits : ack.Fits) (send : ℕ → SendResult) :
    EncodedTransfer.receiveAck cfg s ack.encode send =
      Transfer.receiveAck cfg s ack send := by
  cases phase : s.phase with
  | waitAck =>
      simp only [EncodedTransfer.receiveAck, Transfer.receiveAck, phase, ack.length_encode,
        Nat.min_self, fits.recvfrom_encode]
  | drain ret =>
      simp only [EncodedTransfer.receiveAck, Transfer.receiveAck, phase,
        fits.recvfrom_encode]
  | returned ret => simp only [EncodedTransfer.receiveAck, Transfer.receiveAck, phase]

/-- One event takes the bytes where it takes the structs. -/
theorem Marshalled.commutes (fits : packetCount file < 2 ^ 31) :
    Commutes (fun s event => s.step cfg stream event)
      (fun e event => e.step cfg stream event) Transfer.encode
      (Marshalled cfg file stream) where
  square := by
    intro s event inv
    cases event with
    | packet k send =>
        simp only [EncodedTransfer.step, Transfer.step, Transfer.encode, List.getElem?_map]
        cases found : s.packets[k]? with
        | none => rfl
        | some packet =>
            have whole := (inv.packets packet (List.mem_of_getElem? found)).recvfrom_encode
              inv.receiver.newPacket
            simp [whole, Transfer.encode, List.eraseIdx_map, Option.map_bind]
    | ack k send =>
        simp only [EncodedTransfer.step, Transfer.step, Transfer.encode, List.getElem?_map]
        cases found : s.acks[k]? with
        | none => rfl
        | some ack =>
            have whole : EncodedTransfer.receiveAck cfg s.sender ack.encode send =
                Transfer.receiveAck cfg s.sender ack send :=
              EncodedTransfer.receiveAck_encode (inv.acks ack (List.mem_of_getElem? found)) send
            simp [whole, Transfer.encode, List.eraseIdx_map, Option.map_bind]
    | timeout send =>
        simp [EncodedTransfer.step, Transfer.step, Transfer.encode, Option.map_bind]
    | losePacket k =>
        simp [EncodedTransfer.step, Transfer.step, Transfer.encode, List.eraseIdx_map]
    | loseAck k =>
        simp [EncodedTransfer.step, Transfer.step, Transfer.encode, List.eraseIdx_map]
    | duplicatePacket k =>
        simp [EncodedTransfer.step, Transfer.step, Transfer.encode, Option.bind_map]
    | duplicateAck k =>
        simp [EncodedTransfer.step, Transfer.step, Transfer.encode, Option.bind_map]
  preserved := fun inv taken => inv.step fits taken

theorem EncodedTransfer.start_eq (send : ℕ → SendResult) :
    EncodedTransfer.start cfg file send =
      (Transfer.start cfg file send).map Transfer.encode := by
  simp [EncodedTransfer.start, Transfer.start, Transfer.encode, Function.comp_def]

theorem Marshalled.reaches (fits : packetCount file < 2 ^ 31) {events : List Event}
    {s : Transfer} (run : Transfer.Reaches cfg stream (fun _ _ => True) file events s) :
    Marshalled cfg file stream s :=
  run.invariant _ (.start fits) fun inv taken _ => inv.step fits taken

/-- Whatever the channel loses, repeats, delays or reorders: with bytes between them the
two ends go through exactly the states that they go through with structs between them,
and the fields of every struct in flight, of the one that the receiver's `recvfrom` fills
and the counters of the sender stay in the ranges of their types. -/
theorem encoded_reaches (fits : packetCount file < 2 ^ 31) {events : List Event}
    {e : EncodedTransfer} :
    (EncodedTransfer.Reaches cfg stream file events e ↔
      ∃ s, Transfer.Reaches cfg stream (fun _ _ => True) file events s ∧
        e = s.encode) ∧
    ∀ s, Transfer.Reaches cfg stream (fun _ _ => True) file events s →
      (∀ packet ∈ s.packets, packet.Fits) ∧ (∀ ack ∈ s.acks, ack.Fits) ∧
        s.receiver.newPacket.Fits ∧ s.sender.Numbered := by
  refine ⟨⟨?_, ?_⟩, fun s run => ?_⟩
  · rintro ⟨send, initial, started, run⟩
    rw [EncodedTransfer.start_eq] at started
    obtain ⟨first, begun, rfl⟩ := Option.map_eq_some_iff.mp started
    obtain ⟨s, structs, rfl⟩ :=
      ((Marshalled.commutes fits).run_iff (.start fits begun)).mp run
    exact ⟨s, ⟨send, first, begun, structs.mono fun taken => ⟨taken, trivial⟩⟩, rfl⟩
  · rintro ⟨s, ⟨send, first, begun, run⟩, rfl⟩
    refine ⟨send, first.encode, by rw [EncodedTransfer.start_eq, begun]; rfl, ?_⟩
    apply ((Marshalled.commutes fits).run_iff (.start fits begun)).mpr
    exact ⟨s, run.mono fun taken => taken.1, rfl⟩
  · have inv := Marshalled.reaches fits run
    exact ⟨inv.packets, inv.acks, inv.receiver.newPacket, inv.sender⟩

theorem encoded_reaches_fourPackets :
    ∃ s e, Transfer.Reaches narrow .roomy (fun _ _ => True) fourPackets scrambled s ∧
      EncodedTransfer.Reaches narrow .roomy fourPackets scrambled e ∧
      e = s.encode ∧ e.sender.phase = .returned EXIT_SUCCESS ∧
      s.receiver.newPacket.Fits := by
  obtain ⟨s, reaches, success⟩ := scrambled_returns
  exact ⟨s, s.encode, reaches, (encoded_reaches fourPackets_fits).1.mpr ⟨s, reaches, rfl⟩,
    rfl, success,
    ((@encoded_reaches _ _ _ fourPackets_fits _ s.encode).2 s reaches).2.2.1⟩

end Spqr
