/-
Module: Spqr.Accounting
Purpose: While the channel repeats nothing and `wait_ack` times out only when
  nothing is in flight, at most one datagram is under way for each chunk that
  waits for its acknowledgment, and none for any other.
Trusted boundary: none
Main exports:
  Transfer.copies, Sender.Awaits, Accounted, Accounted.packet,
  Accounted.acknowledged, Accounted.expired
-/
import Spqr.Lib.Channels
import Spqr.InStep

namespace Spqr

open Labelled Transfer

variable {cfg : Settings} {file : List UInt8} {stream : Stream}

/-- The packet ends where chunk `g` ends. -/
def Packet.copyOf (file : List UInt8) (g : ℕ) (packet : Packet) : Bool :=
  packet.noBytesToSend == (chunkEnd file g : ℤ)

/-- The acknowledgment names the end of chunk `g`. -/
def AckPacket.copyOf (file : List UInt8) (g : ℕ) (ack : AckPacket) : Bool :=
  ack.size == (chunkEnd file g : ℤ)

/-- The datagrams in flight for chunk `g`: packets that carry it and
acknowledgments that name it. -/
def Transfer.copies (file : List UInt8) (s : Transfer) (g : ℕ) : ℕ :=
  s.packets.countP (Packet.copyOf file g) +
    s.acks.countP (AckPacket.copyOf file g)

/-- Chunk `g` is in the window that starts at `base`, without an
acknowledgment. -/
def Sender.Awaits (cfg : Settings) (base : ℕ) (s : Sender) (g : ℕ) : Prop :=
  base ≤ g ∧ g < base + s.windowSize ∧
    (s.window (g % cfg.WINDOW_SIZE)).ack = false

instance (base : ℕ) (s : Sender) (g : ℕ) : Decidable (s.Awaits cfg base g) := by
  unfold Sender.Awaits
  infer_instance

/-- A timeout changes no acknowledgment flag. -/
theorem Sender.awaits_resend (s : Sender) (send : ℕ → SendResult) (base g : ℕ) :
    (s.resend send).Awaits cfg base g ↔ s.Awaits cfg base g := by
  obtain ⟨_, eq⟩ := s.resend_window send (g % cfg.WINDOW_SIZE)
  simp only [Sender.Awaits, eq]
  rfl

/-! ### Counting -/

/-- An acknowledgment names one chunk only. -/
theorem Acknowledges.copyOf_iff {g h : ℕ} {ack : AckPacket}
    (named : Acknowledges cfg file g ack) (inside : h < packetCount file) :
    ack.copyOf file h = true ↔ h = g := by
  rw [AckPacket.copyOf, beq_iff_eq, named.size]
  constructor
  · intro same
    exact chunkEnd_inj inside named.inside (by exact_mod_cast same.symm)
  · rintro rfl
    rfl

/-- The last acknowledgments name none. -/
theorem AckPacket.Final.copyOf {ack : AckPacket} (final : ack.Final) {h : ℕ}
    (inside : h < packetCount file) : ack.copyOf file h = false := by
  have positive := chunkEnd_pos inside
  rw [AckPacket.copyOf, final.size, beq_eq_false_iff_ne]
  omega

theorem countP_finalAcks {h : ℕ} (inside : h < packetCount file)
    (closes : Bool) (ret size : ℤ) :
    (finalAcks closes ret size).countP (AckPacket.copyOf file h) = 0 := by
  have positive := chunkEnd_pos inside
  rw [List.countP_eq_zero]
  intro ack member
  unfold finalAcks at member
  split at member
  · simp at member
  · rw [(List.mem_replicate.mp member).2, AckPacket.copyOf, beq_iff_eq]
    simp only [AckPacket.zero]
    omega

/-- So does a packet carry one. -/
theorem IsChunk.copyOf_iff {g h : ℕ} {packet : Packet}
    (genuine : IsChunk cfg file g packet) (inside : h < packetCount file) :
    packet.copyOf file h = true ↔ h = g := by
  rw [Packet.copyOf, beq_iff_eq, genuine.noBytesToSend]
  constructor
  · intro same
    exact chunkEnd_inj inside genuine.inside (by exact_mod_cast same.symm)
  · rintro rfl
    rfl

/-- Packets that carry a list of chunks are counted by that list. -/
theorem countP_carries {chunks : List ℕ} {packets : List Packet}
    (carries : Carries cfg file chunks packets) {g : ℕ}
    (inside : g < packetCount file) :
    packets.countP (Packet.copyOf file g) = chunks.count g := by
  induction carries with
  | nil => rfl
  | @cons h packet _ _ genuine _ inductionHypothesis =>
      rw [List.countP_cons, List.count_cons, inductionHypothesis]
      simp only [genuine.copyOf_iff inside, beq_iff_eq, @eq_comm _ g h]

namespace Transfer

variable {s : Transfer} {g h k : ℕ}

/-- A packet is replaced by the answers to it. -/
theorem copies_packet {packet : Packet} (found : s.packets[k]? = some packet)
    (chunk : IsChunk cfg file g packet) (inside : h < packetCount file)
    (receiver : Receiver) (acks : List AckPacket) :
    copies file ⟨s.sender, receiver, s.packets.eraseIdx k, s.acks ++ acks⟩ h +
        (if h = g then 1 else 0) =
      s.copies file h + acks.countP (AckPacket.copyOf file h) := by
  have removed := Channels.countP_eraseIdx found (Packet.copyOf file h)
  simp only [chunk.copyOf_iff inside] at removed
  simp only [copies, List.countP_append]
  omega

/-- An acknowledgment is replaced by the packets it releases. -/
theorem copies_ack {ack : AckPacket} (found : s.acks[k]? = some ack)
    (named : Acknowledges cfg file g ack) (inside : h < packetCount file)
    (sender : Sender) (packets : List Packet) :
    copies file ⟨sender, s.receiver, s.packets ++ packets, s.acks.eraseIdx k⟩ h +
        (if h = g then 1 else 0) =
      s.copies file h + packets.countP (Packet.copyOf file h) := by
  have removed := Channels.countP_eraseIdx found (AckPacket.copyOf file h)
  simp only [named.copyOf_iff inside] at removed
  simp only [copies, List.countP_append]
  omega

/-- A datagram in flight is a copy of its chunk. -/
theorem copies_pos {ack : AckPacket} (member : ack ∈ s.acks)
    (named : Acknowledges cfg file g ack) : 0 < s.copies file g := by
  have : 0 < s.acks.countP (AckPacket.copyOf file g) :=
    List.countP_pos_iff.mpr ⟨ack, member, by simp [AckPacket.copyOf, named.size]⟩
  rw [copies]
  omega

end Transfer

/-! ### The window after a refill -/

section Refill

variable {base base' g h : ℕ} {s s' : Sender} {ack : AckPacket}
  {send : ℕ → SendResult} {packets : List Packet}

/-- Marking the slot of chunk `g` and refilling the window: chunk `g` waits no
more, and the chunks that have been loaded wait instead. -/
theorem awaits_refilled (window : SenderWindow cfg file base s)
    (named : Acknowledges cfg file g ack) (awaits : s.Awaits cfg base g)
    (refilled : Refilled cfg file base base' send
      ((s.noteAck ack).mark ack.seqNum.toNat) s' packets) :
    (if s'.Awaits cfg base' h then 1 else 0) + (if h = g then 1 else 0) =
      (if s.Awaits cfg base h then 1 else 0) +
        if base + s.windowSize ≤ h ∧ h < base' + s.windowSize then 1 else 0 := by
  obtain ⟨low, high, unacked⟩ := awaits
  have size : s'.windowSize = s.windowSize :=
    refilled.window.windowSize.trans window.windowSize.symm
  have bound := window.windowSize_le
  have lower := refilled.lower
  have upper : base' ≤ base + s.windowSize := refilled.upper
  -- the flag that the marked window has for a chunk of the old one
  have flag : ∀ j, base ≤ j → j < base + s.windowSize →
      ((((s.noteAck ack).mark ack.seqNum.toNat).window
        (j % cfg.WINDOW_SIZE)).ack = true ↔
          j = g ∨ (s.window (j % cfg.WINDOW_SIZE)).ack = true) := by
    intro j low' high'
    by_cases same : j % cfg.WINDOW_SIZE = g % cfg.WINDOW_SIZE
    · have : j = g :=
        RoundRobin.eq_of_mod_eq low' low (by omega) (by omega) same
      simp [Sender.mark, named.toNat_seqNum, this]
    · have other : j ≠ g := fun eq => same (by rw [eq])
      simp [Sender.mark, Sender.noteAck, named.toNat_seqNum, same, other]
  by_cases old : base ≤ h ∧ h < base + s.windowSize
  · obtain ⟨lowH, highH⟩ := old
    have marked := flag h lowH highH
    rw [if_neg (show ¬ (base + s.windowSize ≤ h ∧ h < base' + s.windowSize) by
      omega), Nat.add_zero]
    by_cases kept : base' ≤ h
    · have same := refilled.kept h kept highH
      rw [← same] at marked
      by_cases eq : h = g
      · subst eq
        simp only [true_or, iff_true] at marked
        simp [Sender.Awaits, marked, low, high, unacked]
      · simp only [eq, false_or] at marked
        rw [if_neg eq, Nat.add_zero]
        congr 1
        simp only [Sender.Awaits, size, Bool.eq_false_iff, ne_eq, marked, kept,
          lowH, highH, true_and, eq_iff_iff, and_iff_right_iff_imp]
        intro _
        omega
    · have passed := refilled.passed h lowH (Nat.not_le.mp kept)
      have gone : ¬ s'.Awaits cfg base' h := fun awaits => kept awaits.1
      rw [if_neg gone, Nat.zero_add]
      rcases marked.mp passed with eq | acked
      · subst eq
        simp [Sender.Awaits, low, high, unacked]
      · have other : h ≠ g := by
          rintro rfl
          rw [unacked] at acked
          exact absurd acked (by decide)
        simp [Sender.Awaits, acked, other]
  · have gone : ¬ s.Awaits cfg base h := fun awaits => old ⟨awaits.1, awaits.2.1⟩
    have other : h ≠ g := by
      rintro rfl
      exact old ⟨low, high⟩
    rw [if_neg gone, if_neg other, Nat.add_zero, Nat.zero_add]
    congr 1
    rw [eq_iff_iff]
    constructor
    · rintro ⟨lowH, highH, _⟩
      omega
    · rintro ⟨lowH, highH⟩
      exact ⟨by omega, by omega, refilled.fresh h lowH highH⟩

/-- The packets that a refill sends carry the loaded chunks, each at most
once. -/
theorem countP_refilled (inside : h < packetCount file)
    (refilled : Refilled cfg file base base' send
      ((s.noteAck ack).mark ack.seqNum.toNat) s' packets) :
    packets.countP (Packet.copyOf file h) ≤
      (if base + s.windowSize ≤ h ∧ h < base' + s.windowSize then 1 else 0) ∧
    ((∀ k, send k = .sent) →
      packets.countP (Packet.copyOf file h) =
        if base + s.windowSize ≤ h ∧ h < base' + s.windowSize then 1 else 0) := by
  have lower := refilled.lower
  have loaded : (List.range' (base + s.windowSize) (base' - base)).count h =
      if base + s.windowSize ≤ h ∧ h < base' + s.windowSize then 1 else 0 := by
    rw [(List.nodup_range' 1).count]
    simp only [List.mem_range'_1]
    congr 1
    rw [eq_iff_iff]
    omega
  obtain ⟨chunks, sub, carries, whole⟩ := refilled.carried
  rw [countP_carries carries inside, ← loaded]
  exact ⟨sub.count_le h, fun all => by rw [whole all]; rfl⟩

end Refill

/-! ### The invariant -/

/-- While the sender waits in `wait_ack`: no chunk has more than one copy in
flight, only chunks that wait for their acknowledgment have one, and a receiver
that has concluded has told so. -/
structure Accounted (cfg : Settings) (file : List UInt8) (closes : Bool) (base : ℕ)
    (s : Transfer) : Prop where
  window : SenderWindow cfg file base s.sender
  waiting : s.sender.phase = .waitAck
  /-- The window moves as far as its flags allow. -/
  head : base + s.sender.windowSize < packetCount file →
    (s.sender.window (base % cfg.WINDOW_SIZE)).ack = false
  /-- Acknowledged slots fail the retransmission test. -/
  confirmed : ∀ g, base ≤ g → g < base + s.sender.windowSize →
    (s.sender.window (g % cfg.WINDOW_SIZE)).ack = true →
    (chunkEnd file g : ℤ) ≤ s.sender.lastAckConfirmedBytes
  chunks : ∀ packet ∈ s.packets, ∃ g, IsChunk cfg file g packet
  copies : ∀ g < packetCount file,
    s.copies file g ≤ if s.sender.Awaits cfg base g then 1 else 0
  final : s.receiver.Concluded closes → ∃ ack ∈ s.acks, ack.Final
  going : s.receiver.result ≠ some TRANSFER_ERROR

namespace Accounted

variable {base g k : ℕ} {s : Transfer} {closes : Bool}

theorem start (fits : packetCount file < 2 ^ 31) {send : ℕ → SendResult}
    (started : Transfer.start cfg file send = some s) :
    Accounted cfg file closes 0 s := by
  obtain ⟨sender, packets, runs, begun⟩ := mainSenderStart_spec cfg fits send
  rw [Transfer.start, runs] at started
  obtain rfl := Option.some.inj started
  obtain ⟨chunks, sub, carries, _⟩ := begun.carried
  refine ⟨begun.window, begun.phase, ?_, ?_, ?_, ?_, ?_, by simp [Receiver.initial]⟩
  · intro more
    have := begun.window.windowSize
    have := cfg.windowPos
    exact begun.unacked 0 (by simp only at more ⊢; omega)
  · intro h _ high acked
    rw [Nat.zero_add] at high
    rw [begun.unacked h high] at acked
    exact absurd acked (by decide)
  · intro packet member
    obtain ⟨h, _, genuine⟩ := Carries.of_mem carries member
    exact ⟨h, genuine⟩
  · intro h inside
    have bound := sub.count_le h
    rw [List.nodup_range.count] at bound
    simp only [Transfer.copies, List.countP_nil, Nat.add_zero,
      countP_carries carries inside]
    apply bound.trans
    split
    · rename_i member
      have low := List.mem_range.mp member
      rw [if_pos ⟨Nat.zero_le _, by simpa using low, begun.unacked h low⟩]
    · exact Nat.zero_le _
  · simp [Receiver.Concluded, Receiver.Finished, Receiver.initial]

/-- A chunk that has a copy in flight waits for its acknowledgment. -/
theorem awaits_of_pos (inv : Accounted cfg file closes base s)
    (inside : g < packetCount file) (copy : 0 < s.copies file g) :
    s.sender.Awaits cfg base g := by
  have bound := inv.copies g inside
  by_contra other
  rw [if_neg other] at bound
  omega

theorem awaits_of_ack (inv : Accounted cfg file closes base s) {ack : AckPacket}
    (member : ack ∈ s.acks) (named : Acknowledges cfg file g ack) :
    s.sender.Awaits cfg base g :=
  inv.awaits_of_pos named.inside (copies_pos member named)

/-- So every acknowledgment is timely. -/
theorem timely (inv : Accounted cfg file closes base s)
    (genuine : Genuine cfg file stream s) (event : Event) : Timely s event := by
  cases event with
  | ack k send =>
      intro ack found _ goesOn _
      have member := List.mem_of_getElem? found
      rcases genuine.acks ack member with ⟨g, named⟩ | ⟨final, _⟩
      · obtain ⟨low, high, _⟩ := inv.awaits_of_ack member named
        rw [named.toNat_seqNum, (inv.window.slot g low high).noBytesToSend,
          named.size]
      · exact absurd (final.ends _) goesOn
  | _ => trivial

/-- Delivery of a packet. -/
theorem packet (inv : Accounted cfg file stream.closes base s)
    (genuine : Genuine cfg file stream s)
    (running : s.receiver.result = none) {packet : Packet}
    (found : s.packets[k]? = some packet) {send : SendResult}
    {receiver : Receiver} {acks : List AckPacket}
    (reacts : mainReceiver cfg stream.fwrite stream.closes send s.receiver packet =
      some (receiver, acks)) :
    Accounted cfg file stream.closes base
      ⟨s.sender, receiver, s.packets.eraseIdx k, s.acks ++ acks⟩ := by
  have member := List.mem_of_getElem? found
  obtain ⟨g, chunk⟩ := inv.chunks packet member
  obtain ⟨receiver', regular, final, reacts', _, _, outcome, answers⟩ :=
    mainReceiver_genuine genuine.receiver running chunk
      (genuine.announced member chunk) stream.closes send
  obtain ⟨rfl, rfl⟩ := Prod.mk.inj (Option.some.inj (reacts'.symm.trans reacts))
  refine ⟨inv.window, inv.waiting, inv.head, inv.confirmed, ?_, ?_, ?_, ?_⟩
  · intro other old
    exact inv.chunks other (List.eraseIdx_subset old)
  · intro h inside
    have exchanged := copies_packet found chunk inside receiver' (regular ++ final)
    have answered : (regular ++ final).countP (AckPacket.copyOf file h) ≤
        if h = g then 1 else 0 := by
      have finals : final.countP (AckPacket.copyOf file h) = 0 := by
        rw [List.countP_eq_zero]
        intro ack last
        simp [(answers.last ack last).copyOf inside]
      rw [List.countP_append, finals, Nat.add_zero]
      split
      · exact List.countP_le_length.trans answers.single
      · rename_i other
        rw [Nat.le_zero, List.countP_eq_zero]
        intro ack old same
        exact other (((answers.named ack old).copyOf_iff inside).mp same)
    have bound := inv.copies h inside
    simp only at bound ⊢
    omega
  · intro concluded
    obtain ⟨ack, last⟩ := List.exists_mem_of_ne_nil _
      (answers.concluded.mp concluded)
    exact ⟨ack, by simp [last], answers.last ack last⟩
  · rcases outcome with running' | finished | short
    · simp [running']
    · simp only [finished]
      decide
    · simp only [short]
      decide

/-- An acknowledgment of a chunk in `wait_ack`: its slot is marked and the window
refilled. -/
theorem acknowledged (inv : Accounted cfg file closes base s) {ack : AckPacket}
    (found : s.acks[k]? = some ack) (named : Acknowledges cfg file g ack)
    {send : ℕ → SendResult} {sender : Sender} {packets : List Packet}
    (reacts : receiveAck cfg s.sender ack send = some (sender, packets)) :
    ∃ base', Refilled cfg file base base' send
        ((s.sender.noteAck ack).mark ack.seqNum.toNat) sender packets ∧
      Accounted cfg file closes base'
        ⟨sender, s.receiver, s.packets ++ packets, s.acks.eraseIdx k⟩ := by
  have member := List.mem_of_getElem? found
  have awaits := inv.awaits_of_ack member named
  rw [receiveAck, inv.waiting] at reacts
  rcases inv.window.waitAck_cases (fun _ => named.seqNum_mem)
      (show (sizeofAckPacket : ℤ) ≠ 0 by decide) send with
    ⟨ends, _⟩ | ⟨_, acked, _⟩ | ⟨_, _, s', packets', base', runs, refilled⟩
  · rw [inv.window.sizeFile] at ends
    exact absurd ends named.not_ends
  · rw [named.toNat_seqNum, awaits.2.2] at acked
    exact absurd acked (by decide)
  obtain ⟨rfl, rfl⟩ := Prod.mk.inj (Option.some.inj (runs.symm.trans reacts))
  have size : s'.windowSize = s.sender.windowSize :=
    refilled.window.windowSize.trans inv.window.windowSize.symm
  have bound := inv.window.windowSize_le
  have lower := refilled.lower
  refine ⟨base', refilled, refilled.window, refilled.phase.trans inv.waiting,
    ?_, ?_, ?_, ?_, ?_, inv.going⟩
  · intro more
    simp only [size] at more
    exact refilled.stops more
  · intro h low high acked
    simp only [size] at high acked ⊢
    rw [refilled.lastAckConfirmedBytes]
    by_cases old : h < base + s.sender.windowSize
    · rw [refilled.kept h low old] at acked
      by_cases same : h % cfg.WINDOW_SIZE = g % cfg.WINDOW_SIZE
      · have : h = g := RoundRobin.eq_of_mod_eq (lower.trans low) awaits.1
          (by omega) (by have := awaits.2.1; omega) same
        rw [this, ← named.size]
        exact le_max_left _ _
      · simp only [Sender.mark, Sender.noteAck, named.toNat_seqNum,
          Function.update_of_ne same] at acked
        exact (inv.confirmed h (lower.trans low) old acked).trans
          (le_max_right _ _)
    · rw [refilled.fresh h (Nat.not_lt.mp old) high] at acked
      exact absurd acked (by decide)
  · intro packet new
    rcases List.mem_append.mp new with old | new
    · exact inv.chunks packet old
    · obtain ⟨chunks, _, carries, _⟩ := refilled.carried
      obtain ⟨h, _, genuine⟩ := Carries.of_mem carries new
      exact ⟨h, genuine⟩
  · intro h inside
    have exchanged := copies_ack found named inside s' packets'
    have moved := awaits_refilled (h := h) inv.window named awaits refilled
    have sent := (countP_refilled inside refilled).1
    have bound := inv.copies h inside
    simp only
    omega
  · intro concluded
    obtain ⟨last, member, final⟩ := inv.final concluded
    refine ⟨last, Channels.mem_eraseIdx_of_ne found member ?_, final⟩
    rintro rfl
    exact named.seqNum_ne_error final.seqNum

/-- A timeout of `wait_ack` resends unacknowledged chunks only. -/
theorem expired (inv : Accounted cfg file closes base s)
    (quiet : s.packets = [] ∧ s.acks = [])
    (send : ℕ → SendResult) :
    Accounted cfg file closes base
      ⟨s.sender.resend send, s.receiver,
        s.packets ++ ((List.range s.sender.windowSize).filter fun j =>
          retransmits s.sender.lastAckConfirmedBytes (s.sender.window j) &&
            send j = .sent).map s.sender.window, s.acks⟩ := by
  have flag : ∀ j, ((s.sender.resend send).window j).ack =
      (s.sender.window j).ack := by
    intro j
    obtain ⟨_, eq⟩ := s.sender.resend_window send j
    rw [eq]
  refine ⟨inv.window.resend send, inv.waiting, ?_, ?_, ?_, ?_, inv.final,
    inv.going⟩
  · intro more
    rw [flag]
    exact inv.head more
  · intro h low high acked
    simp only [flag] at acked
    exact inv.confirmed h low high acked
  · intro packet new
    rw [quiet.1, List.nil_append] at new
    obtain ⟨j, chosen, rfl⟩ := List.mem_map.mp new
    obtain ⟨h, _, _, _, genuine⟩ := inv.window.slotAt
      (List.mem_range.mp (List.mem_of_mem_filter chosen))
    exact ⟨h, genuine⟩
  · intro h inside
    simp only [Transfer.copies, quiet.1, quiet.2, List.nil_append,
      List.countP_nil, Nat.add_zero, Sender.awaits_resend, List.countP_map]
    -- only slot `h % WINDOW_SIZE` can hold chunk `h`, once in the list of slots
    have single : ((List.range s.sender.windowSize).filter fun j =>
          retransmits s.sender.lastAckConfirmedBytes (s.sender.window j) &&
            send j = .sent).countP
          (Packet.copyOf file h ∘ s.sender.window) ≤
        ((List.range s.sender.windowSize).filter fun j =>
          retransmits s.sender.lastAckConfirmedBytes (s.sender.window j) &&
            send j = .sent).count (h % cfg.WINDOW_SIZE) := by
      apply List.countP_mono_left
      intro j chosen same
      obtain ⟨h', _, _, residue, genuine⟩ := inv.window.slotAt
        (List.mem_range.mp (List.mem_of_mem_filter chosen))
      rw [(genuine.copyOf_iff inside).mp same, residue]
      simp
    rw [(List.nodup_range.filter _).count] at single
    by_cases awaits' : s.sender.Awaits cfg base h
    · rw [if_pos awaits']
      split at single <;> omega
    · rw [if_neg awaits', Nat.le_zero, List.countP_eq_zero]
      intro j chosen same
      obtain ⟨member, selected⟩ := List.mem_filter.mp chosen
      obtain ⟨h', low, high, residue, genuine⟩ :=
        inv.window.slotAt (List.mem_range.mp member)
      obtain rfl := (genuine.copyOf_iff inside).mp same
      have acked : (s.sender.window j).ack = true := by
        by_contra unacked
        refine awaits' ⟨low, high, ?_⟩
        rw [residue]
        exact Bool.eq_false_iff.mpr unacked
      have below := inv.confirmed h low high (residue ▸ acked)
      rw [Bool.and_eq_true, retransmits, acked, genuine.noBytesToSend] at selected
      have ahead := selected.1
      simp only [Bool.true_beq, Bool.false_or, decide_eq_true_eq] at ahead
      omega

end Accounted

/-! ### What is left to confirm -/

/-- The chunks from `base` on that have no acknowledgment yet. -/
def unconfirmed (cfg : Settings) (file : List UInt8) (base : ℕ) (s : Sender) :
    Finset ℕ :=
  (Finset.Ico base (packetCount file)).filter fun g =>
    base + s.windowSize ≤ g ∨ s.Awaits cfg base g

/-- Each marked slot leaves one chunk less. -/
theorem unconfirmed_lt {base base' g : ℕ} {s s' : Sender} {ack : AckPacket}
    {send : ℕ → SendResult} {packets : List Packet}
    (window : SenderWindow cfg file base s)
    (named : Acknowledges cfg file g ack) (awaits : s.Awaits cfg base g)
    (refilled : Refilled cfg file base base' send
      ((s.noteAck ack).mark ack.seqNum.toNat) s' packets) :
    (unconfirmed cfg file base' s').card < (unconfirmed cfg file base s).card := by
  have size : s'.windowSize = s.windowSize :=
    refilled.window.windowSize.trans window.windowSize.symm
  have lower := refilled.lower
  refine Finset.card_lt_card (Finset.ssubset_iff_of_subset ?_ |>.mpr ⟨g, ?_, ?_⟩)
  · intro h member
    have moved := awaits_refilled (h := h) window named awaits refilled
    simp only [unconfirmed, Finset.mem_filter, Finset.mem_Ico, size] at member ⊢
    obtain ⟨⟨low, high⟩, left⟩ := member
    refine ⟨⟨lower.trans low, high⟩, ?_⟩
    by_cases unread : base + s.windowSize ≤ h
    · exact .inl unread
    · rcases left with unread' | awaits'
      · omega
      · rw [if_pos awaits', if_neg (show ¬ (base + s.windowSize ≤ h ∧
          h < base' + s.windowSize) by omega)] at moved
        apply Or.inr
        by_contra other
        rw [if_neg other] at moved
        omega
  · simp only [unconfirmed, Finset.mem_filter, Finset.mem_Ico]
    exact ⟨⟨awaits.1, named.inside⟩, .inr awaits⟩
  · have moved := awaits_refilled (h := g) window named awaits refilled
    simp only [unconfirmed, Finset.mem_filter, size, not_and, not_or]
    intro _
    have := awaits.2.1
    refine ⟨by omega, fun awaits' => ?_⟩
    rw [if_pos awaits', if_pos awaits, if_pos rfl, if_neg (by omega)] at moved
    omega

end Spqr
