/-
Module: Spqr.InStep
Purpose: While every acknowledgment that marks a slot is for the packet that is
  in the slot, the sender's window never runs ahead of what the receiver has.
Trusted boundary: none
Main exports:
  Timely, InStep, InStep.receive, InStep.mark, InStep.step
-/
import Spqr.InOrder
import Spqr.Integrity

namespace Spqr

open Labelled Transfer

variable {cfg : Settings} {file : List UInt8} {stream : Stream}

/-- An acknowledgment that marks a slot of the sender's window is for the packet
in that slot. `wait_ack` itself looks at the slot number only. -/
def Timely (s : Transfer) : Event → Prop
  | .ack k _ => ∀ ack ∈ s.acks[k]?, s.sender.phase = .waitAck →
      ¬ ack.ends s.sender.sizeFile →
      (s.sender.window ack.seqNum.toNat).ack = false →
      ack.size = (s.sender.window ack.seqNum.toNat).noBytesToSend
  | _ => True

/-- The sender's window starts at `base`, the receiver has written `n` chunks,
and every flag and acknowledgment is for a chunk that the receiver has. -/
structure InStep (cfg : Settings) (file : List UInt8) (base n : ℕ)
    (s : Transfer) : Prop where
  window : SenderWindow cfg file base s.sender
  order : InOrder cfg file n (base + s.sender.windowSize) s.receiver
  idle : (s.receiver.window s.receiver.i).received = false
  behind : base ≤ n
  acked : ∀ g, base ≤ g → g < base + s.sender.windowSize →
    (s.sender.window (g % cfg.WINDOW_SIZE)).ack = true →
    s.receiver.Has cfg file g
  acks : ∀ ack ∈ s.acks, ∀ g, Acknowledges cfg file g ack →
    s.receiver.Has cfg file g
  packets : ∀ packet ∈ s.packets, ∀ g, IsChunk cfg file g packet →
    g < base + s.sender.windowSize

namespace InStep

variable {base n : ℕ} {s : Transfer}

theorem start (fits : packetCount file < 2 ^ 31) {send : ℕ → SendResult}
    (started : Transfer.start cfg file send = some s) :
    InStep cfg file 0 0 s := by
  obtain ⟨sender, packets, runs, begun⟩ := mainSenderStart_spec cfg fits send
  rw [Transfer.start, runs] at started
  obtain rfl := Option.some.inj started
  refine ⟨begun.window, ?_, rfl, le_rfl, ?_, by simp, ?_⟩
  · have := begun.window.windowSize_le
    exact .initial cfg file _ (by simpa using this)
  · intro g _ high acked
    rw [Nat.zero_add] at high
    rw [begun.unacked g high] at acked
    exact absurd acked (by decide)
  · obtain ⟨chunks, sub, carries, _⟩ := begun.carried
    intro packet member g genuine
    obtain ⟨g', inside, genuine'⟩ := Carries.of_mem carries member
    rw [genuine.unique genuine', Nat.zero_add]
    exact List.mem_range.mp (sub.subset inside)

theorem of_subset (inv : InStep cfg file base n s) {packets : List Packet}
    {acks : List AckPacket} (fewerPackets : packets ⊆ s.packets)
    (fewerAcks : acks ⊆ s.acks) :
    InStep cfg file base n { s with packets := packets, acks := acks } where
  window := inv.window
  order := inv.order
  idle := inv.idle
  behind := inv.behind
  acked := inv.acked
  acks := fun ack member => inv.acks ack (fewerAcks member)
  packets := fun packet member => inv.packets packet (fewerPackets member)

/-- Only the window of the sender matters, up to its `sent` flags. -/
theorem of_sender (inv : InStep cfg file base n s) {sender : Sender}
    {packets : List Packet} (window : SenderWindow cfg file base sender)
    (slots : ∀ j, ∃ sent,
      sender.window j = { s.sender.window j with sent := sent })
    (size : sender.windowSize = s.sender.windowSize)
    (inside : ∀ packet ∈ packets, ∀ g, IsChunk cfg file g packet →
      g < base + s.sender.windowSize) :
    InStep cfg file base n { s with sender := sender, packets := packets } where
  window := window
  order := by
    simp only [size]
    exact inv.order
  idle := inv.idle
  behind := inv.behind
  acked := by
    intro g low high acked
    obtain ⟨_, eq⟩ := slots (g % cfg.WINDOW_SIZE)
    simp only [size, eq] at high acked
    exact inv.acked g low high acked
  acks := inv.acks
  packets := by
    simp only [size]
    exact inside

/-- The receiver's reaction to a chunk: it has it from now on, and says so. -/
theorem receiveChunk (inv : InStep cfg file base n s)
    (genuine : Genuine cfg file stream s)
    (running : s.receiver.result = none) {packet : Packet} {g : ℕ}
    (member : packet ∈ s.packets) (chunk : IsChunk cfg file g packet)
    {send : SendResult} {receiver : Receiver} {acks : List AckPacket}
    (reacts : mainReceiver cfg stream.fwrite stream.closes send s.receiver packet =
      some (receiver, acks))
    (noShort : receiver.result ≠ some WRITE_BYTE_ERROR) :
    ∃ n' answer, n ≤ n' ∧
      InStep cfg file base n'
        { s with receiver := receiver, acks := s.acks ++ acks } ∧
      Acknowledges cfg file g answer ∧
      (∀ h, receiver.Has cfg file h ↔ s.receiver.Has cfg file h ∨ h = g) ∧
      acks = send.emit answer ++
        (receiver.result.map fun ret =>
          finalAcks stream.closes ret receiver.sizeReceived).getD [] := by
  have inside := inv.packets packet member g chunk
  rw [mainReceiver] at reacts
  split at reacts
  · simp at reacts
  rename_i receiver' regular loop
  obtain ⟨rfl, rfl⟩ : receiver' = receiver ∧ acks = regular ++
      (receiver.result.map fun ret =>
        finalAcks stream.closes ret receiver.sizeReceived).getD [] := by
    split at reacts <;>
      · rename_i result
        obtain ⟨rfl, rfl⟩ := Prod.mk.inj (Option.some.inj reacts)
        exact ⟨rfl, by simp [result]⟩
  obtain ⟨n', answer, later, order, idle, has, named, rfl⟩ :=
    inv.order.receive running inv.idle chunk inside
      (genuine.announced member chunk) loop noShort
  refine ⟨n', answer, later, ⟨inv.window, order, idle,
    inv.behind.trans later, ?_, ?_, inv.packets⟩, named, has, rfl⟩
  · intro h low high acked
    exact (has h).mpr (.inl (inv.acked h low high acked))
  · intro ack new h named'
    rcases List.mem_append.mp new with old | new
    · exact (has h).mpr (.inl (inv.acks ack old h named'))
    rcases List.mem_append.mp new with regular | last
    · rw [SendResult.mem_emit regular] at named'
      have same := named'.size.symm.trans named.size
      exact (has h).mpr (.inr
        (chunkEnd_inj named'.inside named.inside (by exact_mod_cast same)))
    · refine absurd ?_ named'.seqNum_ne_error
      cases result : receiver'.result with
      | none => simp [result] at last
      | some ret =>
          simp only [result, Option.map_some, Option.getD_some, finalAcks] at last
          split at last
          · simp at last
          · rw [(List.mem_replicate.mp last).2]

/-- Its reaction when an `fwrite` comes up short. -/
theorem receive_short (inv : InStep cfg file base n s)
    (genuine : Genuine cfg file stream s)
    (running : s.receiver.result = none) {packet : Packet} {g : ℕ}
    (member : packet ∈ s.packets) (chunk : IsChunk cfg file g packet)
    {send : SendResult} {receiver : Receiver} {acks : List AckPacket}
    (reacts : mainReceiver cfg stream.fwrite stream.closes send s.receiver packet =
      some (receiver, acks))
    (short : receiver.result = some WRITE_BYTE_ERROR) :
    (∃ m < packetCount file, stream.fwrite m < (Spqr.chunk file m).length) ∧
      receiver.file.length < file.length := by
  rw [mainReceiver] at reacts
  split at reacts
  · simp at reacts
  rename_i receiver' regular loop
  obtain rfl : receiver' = receiver := by
    split at reacts <;>
      exact congrArg Prod.fst (Option.some.inj reacts)
  exact inv.order.receive_short running chunk
    (inv.packets packet member g chunk) (genuine.announced member chunk) loop
    short

/-- Its reaction to the error packet of a sender that has given up. -/
theorem receiveError (inv : InStep cfg file base n s) :
    InStep cfg file base n
      { s with receiver := { s.receiver with result := some TRANSFER_ERROR } } where
  window := inv.window
  order := inv.order.of_fields (inv.order.order.of_fields rfl rfl rfl rfl rfl
    rfl (fun _ => ⟨_, _, rfl⟩)) rfl (fun _ => ⟨_, _, rfl⟩)
  idle := inv.idle
  behind := inv.behind
  acked := fun g low high acked =>
    (inv.acked g low high acked).of_fields rfl (fun _ => ⟨_, _, rfl⟩)
  acks := fun ack member g named =>
    (inv.acks ack member g named).of_fields rfl (fun _ => ⟨_, _, rfl⟩)
  packets := inv.packets

/-- The receiver's reaction to a packet in flight. -/
theorem receive (inv : InStep cfg file base n s)
    (genuine : Genuine cfg file stream s)
    (running : s.receiver.result = none) {packet : Packet}
    (member : packet ∈ s.packets) {send : SendResult} {receiver : Receiver}
    {acks : List AckPacket}
    (reacts : mainReceiver cfg stream.fwrite stream.closes send s.receiver packet =
      some (receiver, acks))
    (noShort : receiver.result ≠ some WRITE_BYTE_ERROR) :
    ∃ n', n ≤ n' ∧ InStep cfg file base n'
      { s with receiver := receiver, acks := s.acks ++ acks } := by
  rcases genuine.packets packet member with rfl | ⟨g, chunk⟩
  · obtain ⟨rfl, rfl⟩ := Prod.mk.inj (Option.some.inj reacts)
    refine ⟨n, le_rfl, ?_⟩
    rw [finalAcks, if_pos (.inr rfl), List.append_nil, List.append_nil]
    exact inv.receiveError
  · obtain ⟨n', _, later, inv', _⟩ :=
      inv.receiveChunk genuine running member chunk reacts noShort
    exact ⟨n', later, inv'⟩

/-- A timely acknowledgment names a chunk of the window. -/
theorem chunk_of_timely (inv : InStep cfg file base n s) {g : ℕ}
    {ack : AckPacket} (named : Acknowledges cfg file g ack)
    (timely : ack.size = (s.sender.window ack.seqNum.toNat).noBytesToSend) :
    base ≤ g ∧ g < base + s.sender.windowSize := by
  have inside : g % cfg.WINDOW_SIZE < s.sender.windowSize := by
    have := Nat.mod_lt g cfg.windowPos
    have := Nat.mod_le g cfg.WINDOW_SIZE
    have := named.inside
    have := inv.window.windowSize
    omega
  obtain ⟨h, low, high, residue, genuine⟩ := inv.window.slotAt inside
  rw [named.toNat_seqNum, genuine.noBytesToSend, named.size] at timely
  rw [chunkEnd_inj named.inside genuine.inside (by exact_mod_cast timely)]
  exact ⟨low, high⟩

/-- Marking the slot of such a chunk, and refilling the window. -/
theorem mark (inv : InStep cfg file base n s) {g : ℕ} {ack : AckPacket}
    (member : ack ∈ s.acks) (named : Acknowledges cfg file g ack)
    (timely : ack.size = (s.sender.window ack.seqNum.toNat).noBytesToSend)
    {send : ℕ → SendResult} {base' : ℕ} {sender : Sender}
    {packets : List Packet}
    (refilled : Refilled cfg file base base' send
      ((s.sender.noteAck ack).mark ack.seqNum.toNat) sender packets) :
    InStep cfg file base' n
      { s with sender := sender, packets := s.packets ++ packets } := by
  obtain ⟨low, high⟩ := inv.chunk_of_timely named timely
  have size : sender.windowSize = s.sender.windowSize :=
    refilled.window.windowSize.trans inv.window.windowSize.symm
  have lower := refilled.lower
  have upper : base' ≤ base + s.sender.windowSize := refilled.upper
  -- the marked flag is for a chunk that the receiver has, as were the others
  have acked : ∀ h, base ≤ h → h < base + s.sender.windowSize →
      (((s.sender.noteAck ack).mark ack.seqNum.toNat).window
        (h % cfg.WINDOW_SIZE)).ack = true → s.receiver.Has cfg file h := by
    intro h low' high' flag
    by_cases same : h % cfg.WINDOW_SIZE = g % cfg.WINDOW_SIZE
    · have bound := inv.window.windowSize_le
      rw [RoundRobin.eq_of_mod_eq low' low (by omega) (by omega) same]
      exact inv.acks ack member g named
    · simp only [Sender.mark, Sender.noteAck, named.toNat_seqNum,
        Function.update_of_ne same] at flag
      exact inv.acked h low' high' flag
  have behind : base' ≤ n := by
    by_contra ahead
    refine inv.order.not_has inv.idle (acked n inv.behind ?_ ?_)
    · omega
    · exact refilled.passed n inv.behind (Nat.not_le.mp ahead)
  refine ⟨refilled.window, ?_, inv.idle, behind, ?_, inv.acks, ?_⟩
  · apply inv.order.mono (by simp only [size]; omega)
    have := refilled.window.windowSize_le
    simp only
    omega
  · intro h low' high' flag
    simp only [size] at high' flag
    by_cases old : h < base + s.sender.windowSize
    · rw [refilled.kept h low' old] at flag
      exact acked h (lower.trans low') old flag
    · rw [refilled.fresh h (Nat.not_lt.mp old) high'] at flag
      exact absurd flag (by decide)
  · intro packet new h genuine
    simp only [size]
    rcases List.mem_append.mp new with old | new
    · exact (inv.packets packet old h genuine).trans_le (by omega)
    · obtain ⟨chunks, sub, carries, _⟩ := refilled.carried
      obtain ⟨h', inside, genuine'⟩ := Carries.of_mem carries new
      rw [genuine.unique genuine']
      have := List.mem_range'_1.mp (sub.subset inside)
      simp only [Sender.mark, Sender.noteAck] at this
      omega

/-- The sender's reaction to a timely acknowledgment. -/
theorem acknowledged (inv : InStep cfg file base n s)
    (genuine : Genuine cfg file stream s) {ack : AckPacket}
    (member : ack ∈ s.acks)
    (timely : s.sender.phase = .waitAck → ¬ ack.ends s.sender.sizeFile →
      (s.sender.window ack.seqNum.toNat).ack = false →
      ack.size = (s.sender.window ack.seqNum.toNat).noBytesToSend)
    {send : ℕ → SendResult} {sender : Sender} {packets : List Packet}
    (reacts : receiveAck cfg s.sender ack send = some (sender, packets)) :
    ∃ base', base ≤ base' ∧ InStep cfg file base' n
      { s with sender := sender, packets := s.packets ++ packets } := by
  have unmoved : ∀ sender' : Sender, sender'.window = s.sender.window →
      SenderWindow cfg file base sender' →
      InStep cfg file base n
        { s with sender := sender', packets := s.packets ++ [] } := by
    intro sender' same window
    rw [List.append_nil]
    exact inv.of_sender window (fun j => ⟨_, by rw [same]⟩)
      (window.windowSize.trans inv.window.windowSize.symm) inv.packets
  cases phase : s.sender.phase with
  | returned ret => simp [receiveAck, phase] at reacts
  | drain ret =>
      rw [receiveAck, phase] at reacts
      obtain ⟨rfl, rfl⟩ := Prod.mk.inj (Option.some.inj reacts)
      exact ⟨base, le_rfl, unmoved _ rfl
        (inv.window.of_window ⟨rfl, rfl, rfl, rfl, rfl, rfl, rfl⟩)⟩
  | waitAck =>
      rw [receiveAck, phase] at reacts
      have regular : ¬ ack.ends s.sender.sizeFile →
          ∃ g, Acknowledges cfg file g ack := by
        intro goesOn
        rcases genuine.acks ack member with named | ⟨final, _⟩
        · exact named
        · exact absurd (final.ends _) goesOn
      have inside : ¬ ack.ends s.sender.sizeFile →
          0 ≤ ack.seqNum ∧ ack.seqNum < cfg.WINDOW_SIZE := by
        intro goesOn
        obtain ⟨_, named⟩ := regular goesOn
        exact named.seqNum_mem
      have nonzero : (sizeofAckPacket : ℤ) ≠ 0 := by decide
      rcases inv.window.waitAck_cases inside nonzero send with
        ⟨_, runs⟩ | ⟨_, _, runs⟩ |
        ⟨goesOn, unacked, s', packets', base', runs, refilled⟩ <;>
        obtain ⟨rfl, rfl⟩ :=
          Prod.mk.inj (Option.some.inj (runs.symm.trans reacts))
      · exact ⟨base, le_rfl, unmoved _ rfl
          (inv.window.of_window ⟨rfl, rfl, rfl, rfl, rfl, rfl, rfl⟩)⟩
      · exact ⟨base, le_rfl, unmoved _ rfl
          (inv.window.of_window ⟨rfl, rfl, rfl, rfl, rfl, rfl, rfl⟩)⟩
      · obtain ⟨g, named⟩ := regular goesOn
        exact ⟨base', refilled.lower,
          inv.mark member named (timely phase goesOn unacked) refilled⟩

/-- A timeout of the sender. -/
theorem expired (inv : InStep cfg file base n s) {send : ℕ → SendResult}
    {sender : Sender} {packets : List Packet}
    (reacts : expire cfg s.sender send = some (sender, packets)) :
    InStep cfg file base n
      { s with sender := sender, packets := s.packets ++ packets } := by
  cases phase : s.sender.phase with
  | returned ret => simp [expire, phase] at reacts
  | drain ret =>
      rw [expire, phase] at reacts
      obtain rfl : (mainSenderReturn s.sender ret).1 = sender :=
        congrArg Prod.fst (Option.some.inj reacts)
      obtain rfl : (mainSenderReturn s.sender ret).2 = packets :=
        congrArg Prod.snd (Option.some.inj reacts)
      have onlyError : ∀ packet ∈ (mainSenderReturn s.sender ret).2,
          packet = errorPacket := by
        intro packet new
        simp only [mainSenderReturn] at new
        split_ifs at new
        · simp at new
        · exact List.mem_singleton.mp new
        · simp at new
      have same :
          (mainSenderReturn s.sender ret).1.window = s.sender.window ∧
          SenderWindow cfg file base (mainSenderReturn s.sender ret).1 := by
        unfold mainSenderReturn
        simp only
        split_ifs <;> exact ⟨rfl, inv.window.of_window
          ⟨rfl, rfl, rfl, rfl, rfl, rfl, rfl⟩⟩
      refine inv.of_sender same.2 (fun j => ⟨_, by rw [same.1]⟩)
        (same.2.windowSize.trans inv.window.windowSize.symm) ?_
      intro packet new g genuine
      rcases List.mem_append.mp new with old | new
      · exact inv.packets packet old g genuine
      · rw [onlyError packet new] at genuine
        exact absurd rfl genuine.ne_errorPacket
  | waitAck =>
      rw [expire, phase] at reacts
      rcases inv.window.waitAckTimeout_cases send with ⟨_, runs⟩ | ⟨_, runs⟩ <;>
        obtain ⟨rfl, rfl⟩ :=
          Prod.mk.inj (Option.some.inj (runs.symm.trans reacts))
      · rw [List.append_nil]
        exact inv.of_sender
          (inv.window.of_window ⟨rfl, rfl, rfl, rfl, rfl, rfl, rfl⟩)
          (fun j => ⟨_, rfl⟩) rfl inv.packets
      · refine inv.of_sender (inv.window.resend send)
          (s.sender.resend_window send) rfl ?_
        intro packet new g genuine
        rcases List.mem_append.mp new with old | new
        · exact inv.packets packet old g genuine
        · obtain ⟨j, chosen, rfl⟩ := List.mem_map.mp new
          obtain ⟨h, _, high, _, genuine'⟩ := inv.window.slotAt
            (List.mem_range.mp (List.mem_of_mem_filter chosen))
          rw [genuine.unique genuine']
          exact high

/-- Every timely event keeps the invariant, unless an `fwrite` comes up
short. -/
theorem step {s' : Transfer} {event : Event} (inv : InStep cfg file base n s)
    (genuine : Genuine cfg file stream s) (timely : Timely s event)
    (taken : Step cfg stream s event s')
    (noShort : s'.receiver.result ≠ some WRITE_BYTE_ERROR) :
    ∃ base' n', base ≤ base' ∧ n ≤ n' ∧ InStep cfg file base' n' s' := by
  rcases step_cases taken with
    ⟨k, send, packet, receiver, acks, rfl, found, running, reacts, rfl⟩ |
    ⟨k, send, ack, sender, packets, rfl, found, reacts, rfl⟩ |
    ⟨send, sender, packets, rfl, reacts, rfl⟩ | ⟨k, rfl, rfl⟩ | ⟨k, rfl, rfl⟩ |
    ⟨k, packet, rfl, found, rfl⟩ | ⟨k, ack, rfl, found, rfl⟩
  · obtain ⟨n', later, inv'⟩ := inv.receive genuine running
      (List.mem_of_getElem? found) reacts noShort
    exact ⟨base, n', le_rfl, later,
      inv'.of_subset List.eraseIdx_subset (List.Subset.refl _)⟩
  · obtain ⟨base', later, inv'⟩ := inv.acknowledged genuine
      (List.mem_of_getElem? found) (timely ack found) reacts
    exact ⟨base', n, later, le_rfl,
      inv'.of_subset (List.Subset.refl _) List.eraseIdx_subset⟩
  · exact ⟨base, n, le_rfl, le_rfl, inv.expired reacts⟩
  · exact ⟨base, n, le_rfl, le_rfl,
      inv.of_subset List.eraseIdx_subset (List.Subset.refl _)⟩
  · exact ⟨base, n, le_rfl, le_rfl,
      inv.of_subset (List.Subset.refl _) List.eraseIdx_subset⟩
  · exact ⟨base, n, le_rfl, le_rfl,
      inv.of_subset (by simp [List.mem_of_getElem? found])
        (List.Subset.refl _)⟩
  · exact ⟨base, n, le_rfl, le_rfl,
      inv.of_subset (List.Subset.refl _)
        (by simp [List.mem_of_getElem? found])⟩

end InStep

end Spqr
