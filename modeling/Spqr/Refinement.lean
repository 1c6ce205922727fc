/-
Module: Spqr.Refinement
Purpose: With timely acknowledgments a transfer is selective repeat: the slot numbers
  that wrap around do the work of the chunk numbers that do not.
Trusted boundary: none
Main exports:
  Packet.item, AckPacket.item, Represents, Represents.step, refines_selectiveRepeat
-/
import Spqr.Lib.SelectiveRepeat
import Spqr.StaleAck

namespace Spqr

open Labelled Transfer

variable {cfg : Settings} {file : List UInt8} {stream : Stream}

/-! ### What datagrams carry -/

/-- The chunk that a packet of `main_sender` carries, read off its offset. -/
def Packet.item (packet : Packet) : Option ℕ :=
  if packet.seqNum = SEQ_NUM_ERROR then none
  else some ((packet.noBytesToSend.toNat - 1) / PACKET_SIZE)

/-- The chunk that an acknowledgment is for. -/
def AckPacket.item (ack : AckPacket) : Option ℕ :=
  if ack.seqNum = SEQ_NUM_ERROR then none
  else some ((ack.size.toNat - 1) / PACKET_SIZE)

theorem chunkEnd_item {g : ℕ} (inside : g < packetCount file) :
    (chunkEnd file g - 1) / PACKET_SIZE = g := by
  rw [lt_packetCount] at inside
  simp only [chunkEnd, PACKET_SIZE] at inside ⊢
  omega

theorem IsChunk.item {g : ℕ} {packet : Packet} (chunk : IsChunk cfg file g packet) :
    packet.item = some g := by
  rw [Packet.item, if_neg chunk.seqNum_ne_error, chunk.noBytesToSend, Int.toNat_natCast,
    chunkEnd_item chunk.inside]

theorem Acknowledges.item {g : ℕ} {ack : AckPacket} (named : Acknowledges cfg file g ack) :
    ack.item = some g := by
  rw [AckPacket.item, if_neg named.seqNum_ne_error, named.size, Int.toNat_natCast,
    chunkEnd_item named.inside]

@[simp] theorem item_errorPacket : errorPacket.item = none := rfl

theorem AckPacket.Final.item {ack : AckPacket} (final : ack.Final) : ack.item = none := by
  rw [AckPacket.item, if_pos final.seqNum]

theorem items_finalAcks (closes : Bool) (ret size : ℤ) :
    (finalAcks closes ret size).filterMap AckPacket.item = [] := by
  rw [List.filterMap_eq_nil_iff]
  intro ack member
  unfold finalAcks at member
  split_ifs at member
  · simp at member
  · rw [(List.mem_replicate.mp member).2]
    rfl

/-- The datagram that is taken out of a channel, and the others. -/
theorem items_eraseIdx {α : Type*} (item : α → Option ℕ) {datagrams : List α} {k : ℕ}
    {d : α} (found : datagrams[k]? = some d) :
    ((datagrams.filterMap item : List ℕ) : Multiset ℕ) =
      (item d).toList + ((datagrams.eraseIdx k).filterMap item : List ℕ) := by
  obtain ⟨inside, rfl⟩ := List.getElem?_eq_some_iff.mp found
  have split := (List.getElem_cons_eraseIdx_perm inside).symm.filterMap item
  rw [Multiset.coe_eq_coe.mpr split, Multiset.coe_add, List.filterMap_cons]
  cases item datagrams[k] <;> rfl

/-- The datagram that comes in behind the others. -/
theorem items_snoc {α : Type*} (item : α → Option ℕ) (datagrams : List α) (d : α) :
    (((datagrams ++ [d]).filterMap item : List ℕ) : Multiset ℕ) =
      (item d).toList + (datagrams.filterMap item : List ℕ) := by
  rw [List.filterMap_append, ← Multiset.coe_add, add_comm, List.filterMap_cons]
  cases item d <;> rfl

/-! ### Both ends -/

/-- The transfer is in the state `a` of selective repeat. -/
structure Represents (cfg : Settings) (file : List UInt8) (stream : Stream)
    (s : Transfer) (a : SelectiveRepeat.State) : Prop where
  genuine : Genuine cfg file stream s
  inStep : InStep cfg file a.base a.delivered s
  acked : ∀ g, g ∈ a.acked ↔ g < a.base ∨ g < a.base + s.sender.windowSize ∧
    (s.sender.window (g % cfg.WINDOW_SIZE)).ack = true
  has : ∀ g, g ∈ a.has ↔ s.receiver.Has cfg file g
  data : a.data = (s.packets.filterMap Packet.item : List ℕ)
  acks : a.acks = (s.acks.filterMap AckPacket.item : List ℕ)

/-- The abstract protocol that a transfer of `file` runs. -/
abbrev Spec (cfg : Settings) (file : List UInt8) :
    SelectiveRepeat.State → SelectiveRepeat.Event → SelectiveRepeat.State → Prop :=
  SelectiveRepeat.Step (packetCount file) cfg.WINDOW_SIZE

/-- Packets that carry chunks of the window. -/
def FromWindow (cfg : Settings) (file : List UInt8) (low high : ℕ)
    (packets : List Packet) : Prop :=
  ∀ packet ∈ packets, ∃ g, low ≤ g ∧ g < high ∧ IsChunk cfg file g packet

/-- Sending them is sending their chunks. -/
theorem FromWindow.run {low high : ℕ} {packets : List Packet}
    (window : FromWindow cfg file low high packets) {a : SelectiveRepeat.State}
    (base : a.base ≤ low) (width : high ≤ a.base + cfg.WINDOW_SIZE) :
    Run (Spec cfg file) a ((packets.filterMap Packet.item).map .send)
      { a with data := a.data + (packets.filterMap Packet.item : List ℕ) } := by
  refine SelectiveRepeat.run_send _ _ _ fun item member => ?_
  obtain ⟨packet, sent, carried⟩ := List.mem_filterMap.mp member
  obtain ⟨g, above, below, chunk⟩ := window packet sent
  obtain rfl := Option.some.inj (chunk.item.symm.trans carried)
  exact ⟨base.trans above, below.trans_le width, chunk.inside⟩

theorem fromWindow_of_carries {low n : ℕ} {chunks : List ℕ} {packets : List Packet}
    (sub : chunks.Sublist (List.range' low n)) (carries : Carries cfg file chunks packets) :
    FromWindow cfg file low (low + n) packets := by
  intro packet member
  obtain ⟨g, inside, chunk⟩ := Carries.of_mem carries member
  obtain ⟨above, below⟩ := List.mem_range'_1.mp (sub.subset inside)
  exact ⟨g, above, below, chunk⟩

namespace Represents

variable {s : Transfer} {a : SelectiveRepeat.State}

/-- The sender has done something that leaves its window as it is. -/
theorem of_sender (rep : Represents cfg file stream s a) {sender : Sender}
    {packets : List Packet} {acks : List AckPacket} {data confirmations : Multiset ℕ}
    (genuine : Genuine cfg file stream ⟨sender, s.receiver, packets, acks⟩)
    (inStep : InStep cfg file a.base a.delivered ⟨sender, s.receiver, packets, acks⟩)
    (flags : ∀ j, (sender.window j).ack = (s.sender.window j).ack)
    (carried : data = (packets.filterMap Packet.item : List ℕ))
    (confirmed : confirmations = (acks.filterMap AckPacket.item : List ℕ)) :
    Represents cfg file stream ⟨sender, s.receiver, packets, acks⟩
      { a with data := data, acks := confirmations } := by
  refine ⟨genuine, inStep, ?_, rep.has, carried, confirmed⟩
  intro g
  have size : sender.windowSize = s.sender.windowSize :=
    inStep.window.windowSize.trans rep.inStep.window.windowSize.symm
  simp only [flags, size]
  exact rep.acked g

/-- A packet reaches the receiver. -/
theorem receive (rep : Represents cfg file stream s a) (complete : Complete stream.fwrite)
    {k : ℕ} {packet : Packet} (found : s.packets[k]? = some packet)
    (running : s.receiver.result = none) {send : SendResult} {receiver : Receiver}
    {acks : List AckPacket}
    (reacts : mainReceiver cfg stream.fwrite stream.closes send s.receiver packet =
      some (receiver, acks))
    (genuine : Genuine cfg file stream
      ⟨s.sender, receiver, s.packets.eraseIdx k, s.acks ++ acks⟩) :
    ∃ labels a', Run (Spec cfg file) a labels a' ∧ Represents cfg file stream
      ⟨s.sender, receiver, s.packets.eraseIdx k, s.acks ++ acks⟩ a' := by
  have member := List.mem_of_getElem? found
  have left := items_eraseIdx Packet.item found
  rcases rep.genuine.packets packet member with rfl | ⟨g, chunk⟩
  · -- the sender has given up
    obtain ⟨rfl, rfl⟩ := Prod.mk.inj (Option.some.inj reacts)
    refine ⟨[], a, .refl, genuine, ?_, rep.acked, ?_, ?_, ?_⟩
    · exact rep.inStep.receiveError.of_subset List.eraseIdx_subset (by simp [finalAcks])
    · intro g
      rw [rep.has]
      exact (Receiver.Has.iff_of_fields rfl (fun _ => ⟨_, _, rfl⟩) g).symm
    · rw [rep.data, left]
      simp
    · simp [rep.acks, finalAcks]
  · have noShort : receiver.result ≠ some WRITE_BYTE_ERROR := by
      intro short
      obtain ⟨j, incomplete⟩ := genuine.receiver.short short
      exact absurd (complete j) (Nat.not_le.mpr incomplete)
    obtain ⟨n, answer, later, inStep, named, has, rfl⟩ :=
      rep.inStep.receiveChunk rep.genuine running member chunk reacts noShort
    have arrives : Run (Spec cfg file) a [.arrive g]
        { a with data := a.data.erase g, has := insert g a.has } := by
      refine .single (.arrive ?_)
      rw [rep.data, left, chunk.item]
      simp
    -- the inner loop hands over what is next in the file
    have delivers := SelectiveRepeat.run_deliver (packetCount file)
      cfg.WINDOW_SIZE (n - a.delivered)
      (s := { a with data := a.data.erase g, has := insert g a.has }) (by
        intro j before
        have written : receiver.Has cfg file (a.delivered + j) :=
          inStep.order.has_of_lt (by omega)
        rw [has, ← rep.has] at written
        exact written.symm.imp id id)
    rw [show a.delivered + (n - a.delivered) = n by omega] at delivers
    have answers : Run (Spec cfg file)
        { a with data := a.data.erase g, has := insert g a.has, delivered := n }
        (((send.emit answer).filterMap AckPacket.item).map .answer)
        { a with
          data := a.data.erase g
          has := insert g a.has
          delivered := n
          acks := a.acks + ((send.emit answer).filterMap AckPacket.item : List ℕ) } := by
      refine SelectiveRepeat.run_answer _ _ _ fun item member' => ?_
      obtain ⟨ack, sent, carried⟩ := List.mem_filterMap.mp member'
      rw [SendResult.mem_emit sent, named.item] at carried
      exact .inl (Option.some.inj carried).symm
    refine ⟨_, _, (arrives.trans delivers).trans answers, genuine, ?_, rep.acked, ?_, ?_, ?_⟩
    · exact inStep.of_subset List.eraseIdx_subset (List.Subset.refl _)
    · intro h
      simp only [Set.mem_insert_iff, rep.has, has]
      exact or_comm
    · rw [rep.data, left, chunk.item]
      simp
    · have silent : ((receiver.result.map fun ret =>
          finalAcks stream.closes ret receiver.sizeReceived).getD []).filterMap
            AckPacket.item = [] := by
        cases receiver.result with
        | none => rfl
        | some ret => exact items_finalAcks _ _ _
      simp only [List.filterMap_append, silent, List.append_nil, rep.acks,
        Multiset.coe_add]

/-- An acknowledgment marks the slot of its chunk, and the window moves on. -/
theorem mark (rep : Represents cfg file stream s a) {k g : ℕ} {ack : AckPacket}
    (found : s.acks[k]? = some ack) (named : Acknowledges cfg file g ack)
    (timely : ack.size = (s.sender.window ack.seqNum.toNat).noBytesToSend)
    {send : ℕ → SendResult} {base : ℕ} {sender : Sender} {packets : List Packet}
    (refilled : Refilled cfg file a.base base send
      ((s.sender.noteAck ack).mark ack.seqNum.toNat) sender packets)
    (genuine : Genuine cfg file stream
      ⟨sender, s.receiver, s.packets ++ packets, s.acks.eraseIdx k⟩) :
    ∃ labels a', Run (Spec cfg file) a labels a' ∧ Represents cfg file stream
      ⟨sender, s.receiver, s.packets ++ packets, s.acks.eraseIdx k⟩ a' := by
  have member := List.mem_of_getElem? found
  have inStep := rep.inStep.mark member named timely refilled
  obtain ⟨low, high⟩ := rep.inStep.chunk_of_timely named timely
  have bound := rep.inStep.window.windowSize_le
  have size : sender.windowSize = s.sender.windowSize :=
    refilled.window.windowSize.trans rep.inStep.window.windowSize.symm
  have lower := refilled.lower
  have upper : base ≤ a.base + s.sender.windowSize := refilled.upper
  -- what the sender knows once the slot is marked
  have acked : ∀ h, h ∈ insert g a.acked ↔ h < a.base ∨ h < a.base + s.sender.windowSize ∧
      (((s.sender.noteAck ack).mark ack.seqNum.toNat).window
        (h % cfg.WINDOW_SIZE)).ack = true := by
    intro h
    rw [Set.mem_insert_iff, rep.acked]
    by_cases same : h % cfg.WINDOW_SIZE = g % cfg.WINDOW_SIZE
    · simp only [Sender.mark, Sender.noteAck, named.toNat_seqNum, same,
        Function.update_self, and_true]
      constructor
      · rintro (rfl | before | ⟨inside, _⟩)
        · exact .inr high
        · exact .inl before
        · exact .inr inside
      · rintro (before | inside)
        · exact .inr (.inl before)
        · by_cases before : h < a.base
          · exact .inr (.inl before)
          · exact .inl (RoundRobin.eq_of_mod_eq (Nat.not_lt.mp before) low (by omega)
              (by omega) same)
    · simp only [Sender.mark, Sender.noteAck, named.toNat_seqNum,
        Function.update_of_ne same]
      constructor
      · rintro (rfl | known)
        · exact absurd rfl same
        · exact known
      · exact .inr
  have confirms : Run (Spec cfg file) a [.confirm g]
      { a with acks := a.acks.erase g, acked := insert g a.acked } := by
    refine .single (.confirm ?_)
    rw [rep.acks, items_eraseIdx AckPacket.item found, named.item]
    simp
  have slides := SelectiveRepeat.run_slide (packetCount file) cfg.WINDOW_SIZE
    (base - a.base)
    (s := { a with acks := a.acks.erase g, acked := insert g a.acked }) (by
      intro j before
      apply (acked _).mpr
      have passed := refilled.passed (a.base + j) (Nat.le_add_right _ _) (by omega)
      exact .inr ⟨by simp only; omega, passed⟩)
  rw [show a.base + (base - a.base) = base by omega] at slides
  obtain ⟨chunks, sub, carries, _⟩ := refilled.carried
  have window := fromWindow_of_carries sub carries
  simp only [Sender.mark, Sender.noteAck] at window
  have sends := window.run
    (a := { a with acks := a.acks.erase g, acked := insert g a.acked, base := base })
    (by simp only; omega) (by simp only; omega)
  refine ⟨_, _, (confirms.trans slides).trans sends, genuine, ?_, ?_, rep.has, ?_, ?_⟩
  · exact inStep.of_subset (List.Subset.refl _) List.eraseIdx_subset
  · intro h
    simp only [acked, size]
    by_cases old : h < a.base + s.sender.windowSize
    · by_cases passed : h < base
      · refine iff_of_true ?_ (.inl passed)
        by_cases before : h < a.base
        · exact .inl before
        · exact .inr ⟨old, refilled.passed h (Nat.not_lt.mp before) passed⟩
      · rw [refilled.kept h (Nat.not_lt.mp passed) old]
        have : ¬ h < a.base := by omega
        have : h < base + s.sender.windowSize := by omega
        simp [*]
    · apply iff_of_false (by rintro (before | ⟨inside, _⟩) <;> omega)
      rintro (before | ⟨inside, flag⟩)
      · omega
      · rw [refilled.fresh h (Nat.not_lt.mp old) inside] at flag
        exact absurd flag (by decide)
  · simp [rep.data]
  · rw [rep.acks, items_eraseIdx AckPacket.item found, named.item]
    simp

/-- An acknowledgment reaches the sender. -/
theorem acknowledged (rep : Represents cfg file stream s a) {k : ℕ} {ack : AckPacket}
    (found : s.acks[k]? = some ack)
    (timely : s.sender.phase = .waitAck → ¬ ack.ends s.sender.sizeFile →
      (s.sender.window ack.seqNum.toNat).ack = false →
      ack.size = (s.sender.window ack.seqNum.toNat).noBytesToSend)
    {send : ℕ → SendResult} {sender : Sender} {packets : List Packet}
    (reacts : receiveAck cfg s.sender ack send = some (sender, packets))
    (genuine : Genuine cfg file stream
      ⟨sender, s.receiver, s.packets ++ packets, s.acks.eraseIdx k⟩) :
    ∃ labels a', Run (Spec cfg file) a labels a' ∧ Represents cfg file stream
      ⟨sender, s.receiver, s.packets ++ packets, s.acks.eraseIdx k⟩ a' := by
  have member := List.mem_of_getElem? found
  have left := items_eraseIdx AckPacket.item found
  -- an acknowledgment that changes nothing is as good as lost
  have ignored : ∀ {sender : Sender}, sender.window = s.sender.window →
      SenderWindow cfg file a.base sender →
      Genuine cfg file stream ⟨sender, s.receiver, s.packets ++ [], s.acks.eraseIdx k⟩ →
      ∃ labels a', Run (Spec cfg file) a labels a' ∧ Represents cfg file stream
        ⟨sender, s.receiver, s.packets ++ [], s.acks.eraseIdx k⟩ a' := by
    intro sender same window genuine
    have inStep : InStep cfg file a.base a.delivered
        ⟨sender, s.receiver, s.packets ++ [], s.acks.eraseIdx k⟩ := by
      refine (rep.inStep.of_sender window (fun j => ⟨_, by rw [same]⟩)
        (window.windowSize.trans rep.inStep.window.windowSize.symm)
        rep.inStep.packets).of_subset (by simp) List.eraseIdx_subset
    have flags : ∀ j, (sender.window j).ack = (s.sender.window j).ack := by simp [same]
    cases carried : ack.item with
    | none =>
        rw [carried] at left
        exact ⟨[], a, .refl, rep.of_sender genuine inStep flags (by simp [rep.data])
          (by simp [rep.acks, left])⟩
    | some g =>
        rw [carried] at left
        exact ⟨[.loseAck g], _, .single .loseAck, rep.of_sender genuine inStep flags
          (by simp [rep.data]) (by simp [rep.acks, left])⟩
  cases phase : s.sender.phase with
  | returned ret => simp [receiveAck, phase] at reacts
  | drain ret =>
      rw [receiveAck, phase] at reacts
      obtain ⟨rfl, rfl⟩ := Prod.mk.inj (Option.some.inj reacts)
      exact ignored rfl
        (rep.inStep.window.of_window ⟨rfl, rfl, rfl, rfl, rfl, rfl, rfl⟩) genuine
  | waitAck =>
      rw [receiveAck, phase] at reacts
      have regular : ¬ ack.ends s.sender.sizeFile → ∃ g, Acknowledges cfg file g ack := by
        intro goesOn
        rcases rep.genuine.acks ack member with named | ⟨final, _⟩
        · exact named
        · exact absurd (final.ends _) goesOn
      have inside : ¬ ack.ends s.sender.sizeFile →
          0 ≤ ack.seqNum ∧ ack.seqNum < cfg.WINDOW_SIZE := by
        intro goesOn
        obtain ⟨_, named⟩ := regular goesOn
        exact named.seqNum_mem
      have nonzero : (sizeofAckPacket : ℤ) ≠ 0 := by decide
      rcases rep.inStep.window.waitAck_cases inside nonzero send with
        ⟨_, runs⟩ | ⟨_, _, runs⟩ |
        ⟨goesOn, unacked, s', packets', base, runs, refilled⟩ <;>
        obtain ⟨rfl, rfl⟩ :=
          Prod.mk.inj (Option.some.inj (runs.symm.trans reacts))
      · exact ignored rfl
          (rep.inStep.window.of_window ⟨rfl, rfl, rfl, rfl, rfl, rfl, rfl⟩) genuine
      · exact ignored rfl
          (rep.inStep.window.of_window ⟨rfl, rfl, rfl, rfl, rfl, rfl, rfl⟩) genuine
      · obtain ⟨g, named⟩ := regular goesOn
        have timely := timely phase goesOn unacked
        exact rep.mark found named timely refilled genuine

/-- The sender times out. -/
theorem expired (rep : Represents cfg file stream s a) {send : ℕ → SendResult}
    {sender : Sender} {packets : List Packet}
    (reacts : expire cfg s.sender send = some (sender, packets))
    (genuine : Genuine cfg file stream
      ⟨sender, s.receiver, s.packets ++ packets, s.acks⟩) :
    ∃ labels a', Run (Spec cfg file) a labels a' ∧ Represents cfg file stream
      ⟨sender, s.receiver, s.packets ++ packets, s.acks⟩ a' := by
  have inStep := rep.inStep.expired reacts
  have bound := rep.inStep.window.windowSize_le
  -- whatever it sends again is in its window
  have sends : ∀ {sent : List Packet},
      FromWindow cfg file a.base (a.base + s.sender.windowSize) sent →
      (∀ j, (sender.window j).ack = (s.sender.window j).ack) →
      packets.filterMap Packet.item = sent.filterMap Packet.item →
      ∃ labels a', Run (Spec cfg file) a labels a' ∧ Represents cfg file stream
        ⟨sender, s.receiver, s.packets ++ packets, s.acks⟩ a' := by
    intro sent window flags same
    exact ⟨_, _, window.run le_rfl (by omega), rep.of_sender genuine inStep flags
      (by simp [rep.data, same]) rep.acks⟩
  have silent : FromWindow cfg file a.base (a.base + s.sender.windowSize) [] := by
    simp [FromWindow]
  cases phase : s.sender.phase with
  | returned ret => simp [expire, phase] at reacts
  | drain ret =>
      rw [expire, phase] at reacts
      simp only [mainSenderReturn, Option.some.injEq] at reacts
      split_ifs at reacts <;> obtain ⟨rfl, rfl⟩ := Prod.mk.inj reacts <;>
        exact sends silent (fun _ => rfl) rfl
  | waitAck =>
      rw [expire, phase] at reacts
      rcases rep.inStep.window.waitAckTimeout_cases send with ⟨_, runs⟩ | ⟨_, runs⟩ <;>
        obtain ⟨rfl, rfl⟩ := Prod.mk.inj (Option.some.inj (runs.symm.trans reacts))
      · exact sends silent (fun _ => rfl) rfl
      · refine sends (fun packet new => ?_) (fun j => ?_) rfl
        · obtain ⟨j, chosen, rfl⟩ := List.mem_map.mp new
          obtain ⟨g, low, high, _, chunk⟩ := rep.inStep.window.slotAt
            (List.mem_range.mp (List.mem_of_mem_filter chosen))
          exact ⟨g, low, high, chunk⟩
        · obtain ⟨_, eq⟩ := s.sender.resend_window send j
          rw [eq]

/-- The channel loses or repeats a datagram. -/
theorem of_channel (rep : Represents cfg file stream s a) {packets : List Packet}
    {acks : List AckPacket} {data confirmations : Multiset ℕ}
    (fewerPackets : packets ⊆ s.packets) (fewerAcks : acks ⊆ s.acks)
    (carried : data = (packets.filterMap Packet.item : List ℕ))
    (confirmed : confirmations = (acks.filterMap AckPacket.item : List ℕ)) :
    Represents cfg file stream ⟨s.sender, s.receiver, packets, acks⟩
      { a with data := data, acks := confirmations } :=
  rep.of_sender (rep.genuine.of_subset fewerPackets fewerAcks)
    (rep.inStep.of_subset fewerPackets fewerAcks) (fun _ => rfl) carried confirmed

/-- Every timely event is a run of selective repeat. -/
theorem step (complete : Complete stream.fwrite) :
    Simulates (Within (Step cfg stream) Timely) (Spec cfg file)
      (Represents cfg file stream) := by
  refine ⟨fun {s event after a} rep step => ?_⟩
  obtain ⟨taken, timely⟩ := step
  have genuine := rep.genuine.step taken
  rcases step_cases taken with
    ⟨k, send, packet, receiver, acks, rfl, found, running, reacts, rfl⟩ |
    ⟨k, send, ack, sender, packets, rfl, found, reacts, rfl⟩ |
    ⟨send, sender, packets, rfl, reacts, rfl⟩ | ⟨k, rfl, rfl⟩ | ⟨k, rfl, rfl⟩ |
    ⟨k, packet, rfl, found, rfl⟩ | ⟨k, ack, rfl, found, rfl⟩
  · exact rep.receive complete found running reacts genuine
  · exact rep.acknowledged found (timely ack found) reacts genuine
  · exact rep.expired reacts genuine
  · have subset : s.packets.eraseIdx k ⊆ s.packets := List.eraseIdx_subset
    cases found : s.packets[k]? with
    | none =>
        rw [List.eraseIdx_of_length_le (List.getElem?_eq_none_iff.mp found)]
        exact ⟨[], a, .refl, rep⟩
    | some packet =>
        have left := items_eraseIdx Packet.item found
        cases carried : packet.item with
        | none =>
            rw [carried] at left
            exact ⟨[], a, .refl, rep.of_channel subset (List.Subset.refl _)
              (by simp [rep.data, left]) rep.acks⟩
        | some g =>
            rw [carried] at left
            exact ⟨[.loseData g], _, .single .loseData,
              rep.of_channel subset (List.Subset.refl _) (by simp [rep.data, left]) rep.acks⟩
  · have subset : s.acks.eraseIdx k ⊆ s.acks := List.eraseIdx_subset
    cases found : s.acks[k]? with
    | none =>
        rw [List.eraseIdx_of_length_le (List.getElem?_eq_none_iff.mp found)]
        exact ⟨[], a, .refl, rep⟩
    | some ack =>
        have left := items_eraseIdx AckPacket.item found
        cases carried : ack.item with
        | none =>
            rw [carried] at left
            exact ⟨[], a, .refl, rep.of_channel (List.Subset.refl _) subset rep.data
              (by simp [rep.acks, left])⟩
        | some g =>
            rw [carried] at left
            exact ⟨[.loseAck g], _, .single .loseAck,
              rep.of_channel (List.Subset.refl _) subset rep.data (by simp [rep.acks, left])⟩
  · have member := List.mem_of_getElem? found
    have subset : s.packets ++ [packet] ⊆ s.packets := by simp [member]
    cases carried : packet.item with
    | none =>
        exact ⟨[], a, .refl, rep.of_channel subset (List.Subset.refl _)
          (by simp [rep.data, carried]) rep.acks⟩
    | some g =>
        have there : g ∈ a.data := by
          rw [rep.data]
          exact List.mem_filterMap.mpr ⟨packet, member, carried⟩
        exact ⟨[.repeatData g], _, .single (.repeatData there),
          rep.of_channel subset (List.Subset.refl _)
            (by rw [items_snoc, carried, rep.data]; rfl) rep.acks⟩
  · have member := List.mem_of_getElem? found
    have subset : s.acks ++ [ack] ⊆ s.acks := by simp [member]
    cases carried : ack.item with
    | none =>
        exact ⟨[], a, .refl, rep.of_channel (List.Subset.refl _) subset rep.data
          (by simp [rep.acks, carried])⟩
    | some g =>
        have there : g ∈ a.acks := by
          rw [rep.acks]
          exact List.mem_filterMap.mpr ⟨ack, member, carried⟩
        exact ⟨[.repeatAck g], _, .single (.repeatAck there),
          rep.of_channel (List.Subset.refl _) subset rep.data
            (by rw [items_snoc, carried, rep.acks]; rfl)⟩

/-- `main_sender` has sent its first window. -/
theorem start (fits : packetCount file < 2 ^ 31) {send : ℕ → SendResult}
    (started : Transfer.start cfg file send = some s) :
    ∃ labels a, Run (Spec cfg file) .initial labels a ∧ Represents cfg file stream s a := by
  have inStep := InStep.start fits started
  have genuine : Genuine cfg file stream s := .start fits started
  obtain ⟨sender, packets, runs, begun⟩ := mainSenderStart_spec cfg fits send
  rw [Transfer.start, runs] at started
  obtain rfl := Option.some.inj started
  obtain ⟨chunks, sub, carries, _⟩ := begun.carried
  rw [List.range_eq_range'] at sub
  have window := fromWindow_of_carries sub carries
  have bound := begun.window.windowSize_le
  have sends := window.run (a := .initial) le_rfl
    (by simp only [SelectiveRepeat.State.initial]; omega)
  refine ⟨_, _, sends, genuine, inStep, ?_, ?_, ?_, ?_⟩
  · intro g
    apply iff_of_false (Set.notMem_empty g)
    rintro (before | ⟨inside, flag⟩)
    · exact absurd before (Nat.not_lt_zero g)
    · simp only [SelectiveRepeat.State.initial, Nat.zero_add] at inside
      rw [begun.unacked g inside] at flag
      exact absurd flag (by decide)
  · intro g
    apply iff_of_false (Set.notMem_empty g)
    rintro (⟨_, written, _⟩ | ⟨received, _⟩)
    · simp [Receiver.initial] at written
    · simp [Receiver.initial, Packet.zero] at received
  · simp [SelectiveRepeat.State.initial]
  · simp [SelectiveRepeat.State.initial]

end Represents

/-- On a disk that takes every `fwrite`, a transfer with timely acknowledgments runs
selective repeat: its start is a state of that protocol, each of its steps is matched by
steps of the protocol, and so is every run. The state reached says what the sender holds,
what the receiver has and what is under way; the file that is being written is what has
been handed over, all of it when `main_receiver` succeeds, and what the receiver buffers
is told apart by its slots. -/
theorem refines_selectiveRepeat (fits : packetCount file < 2 ^ 31)
    (complete : Complete stream.fwrite) :
    (∀ send initial, Transfer.start cfg file send = some initial →
      ∃ labels a, Run (Spec cfg file) .initial labels a ∧
        Represents cfg file stream initial a) ∧
    Simulates (Within (Step cfg stream) Timely) (Spec cfg file)
      (Represents cfg file stream) ∧
    ∀ events s, Reaches cfg stream Timely file events s →
      ∃ labels a, Run (Spec cfg file) .initial labels a ∧
        Represents cfg file stream s a ∧
        s.receiver.file = file.take (PACKET_SIZE * a.delivered) ∧
        (s.receiver.ret stream.closes = some EXIT_SUCCESS →
          a.delivered = packetCount file) ∧
        ∀ g h, a.delivered ≤ g → a.delivered ≤ h → s.receiver.Has cfg file g →
          s.receiver.Has cfg file h → g % cfg.WINDOW_SIZE = h % cfg.WINDOW_SIZE →
          g = h := by
  refine ⟨fun _ _ started => Represents.start fits started, Represents.step complete, ?_⟩
  rintro events s ⟨send, initial, started, run⟩
  obtain ⟨labels, a, opening, related⟩ := Represents.start fits started
  obtain ⟨labels, a, abstract, rep⟩ := (Represents.step complete).reaches run opening related
  refine ⟨labels, a, abstract, rep, ?_, ?_, ?_⟩
  · rw [rep.inStep.order.file_eq, rep.inStep.order.position, Int.toNat_natCast,
      List.take_eq_take_iff]
    omega
  · intro success
    obtain ⟨_, result⟩ := rep.genuine.receiver.success_of_ret complete success
    obtain ⟨begun, left⟩ := rep.genuine.receiver.done result
    have count := rep.inStep.order.order.count
    have lower := rep.inStep.order.lower
    have within := rep.inStep.window.within
    simp only [begun, Bool.false_eq_true, if_false, List.length_range] at count
    omega
  · intro g h keptG keptH hasG hasH same
    have idle : a.delivered ∉ a.has := by
      rw [rep.has]
      exact rep.inStep.order.not_has rep.inStep.idle
    exact (SelectiveRepeat.Sound.reaches abstract).residues idle ((rep.has g).mpr hasG)
      ((rep.has h).mpr hasH) keptG keptH same

/-- The third packet has taken the slot of the first, and arrives, twice, before the
second one does. -/
theorem refines_selectiveRepeat_fourPackets :
    ∃ events s, Reaches narrow .roomy Timely fourPackets events s ∧
      s.receiver.sizeReceived = 4500 ∧
      ∃ labels a, Run (Spec narrow fourPackets) .initial labels a ∧
        Represents narrow fourPackets .roomy s a ∧
        s.receiver.file = fourPackets.take (PACKET_SIZE * a.delivered) := by
  have computed : ((Transfer.start narrow fourPackets (fun _ => .sent)).bind
      fun initial => initial.steps narrow .roomy Timely
        [.packet 0 .sent, .ack 0 fun _ => .sent, .duplicatePacket 1, .packet 1 .sent,
          .packet 1 .sent, .packet 0 .sent, .ack 0 fun _ => .sent]).map
      (fun s => s.receiver.sizeReceived) = some 4500 := by
    decide +kernel
  obtain ⟨s, run, size⟩ := Option.map_eq_some_iff.mp computed
  have reaches := reaches_of_steps run
  obtain ⟨labels, a, abstract, rep, file, _⟩ :=
    (refines_selectiveRepeat fourPackets_fits fun _ => le_rfl).2.2 _ s reaches
  exact ⟨_, s, reaches, size, labels, a, abstract, rep, file⟩

end Spqr
