/-
Module: Spqr.StaleAck
Purpose: What timely acknowledgments buy, and how one acknowledgment that comes
  twice, a window later, makes the sender forget a chunk.
Trusted boundary: none
Main exports:
  Sender.Recoverable, recoverable, written_in_order, Stale.Forgotten,
  Forgotten.misplaces
-/
import Spqr.InStep

namespace Spqr

open Labelled Transfer

variable {cfg : Settings} {file : List UInt8} {stream : Stream}

instance (s : Transfer) (event : Event) : Decidable (Timely s event) := by
  induction event using Event.casesOn <;> unfold Timely <;> infer_instance

/-! ### Timely acknowledgments -/

/-- The sender has not read chunk `g` yet, or holds it in a slot that a timeout
would send again. -/
def Sender.Recoverable (cfg : Settings) (file : List UInt8) (s : Sender)
    (g : ℕ) : Prop :=
  s.counter ≤ PACKET_SIZE * g ∨
    ∃ j < s.windowSize, IsChunk cfg file g (s.window j) ∧
      retransmits s.lastAckConfirmedBytes (s.window j) = true

/-- The invariant of both windows lasts until an `fwrite` comes up short. -/
theorem inStep_of_reaches {events : List Event} {s : Transfer}
    (fits : packetCount file < 2 ^ 31)
    (reaches : Reaches cfg stream Timely file events s)
    (noShort : s.receiver.result ≠ some WRITE_BYTE_ERROR) :
    ∃ base n, InStep cfg file base n s := by
  have inv : Genuine cfg file stream s ∧
      (s.receiver.result ≠ some WRITE_BYTE_ERROR →
        ∃ base n, InStep cfg file base n s) := by
    refine reaches.invariant (fun s => Genuine cfg file stream s ∧
      (s.receiver.result ≠ some WRITE_BYTE_ERROR →
        ∃ base n, InStep cfg file base n s)) ?_ ?_
    · intro send initial started
      exact ⟨.start fits started, fun _ => ⟨0, 0, .start fits started⟩⟩
    · rintro before event after ⟨genuine, inv⟩ taken timely
      refine ⟨genuine.step taken, fun noShort => ?_⟩
      obtain ⟨base, n, inv⟩ := inv (taken.result_kept noShort)
      obtain ⟨base', n', _, _, inv'⟩ := inv.step genuine timely taken noShort
      exact ⟨base', n', inv'⟩
  exact inv.2 noShort

/-- The sender never forgets a chunk that the receiver still needs, as long as
acknowledgments are timely. -/
theorem recoverable {events : List Event} {s : Transfer} {g : ℕ}
    (fits : packetCount file < 2 ^ 31)
    (reaches : Reaches cfg stream Timely file events s)
    (running : s.receiver.result = none) (inside : g < packetCount file)
    (lacks : ¬ s.receiver.Has cfg file g) :
    s.sender.Recoverable cfg file g := by
  obtain ⟨base, n, inv⟩ :=
    inStep_of_reaches fits reaches (by simp [running])
  by_cases read : base + s.sender.windowSize ≤ g
  · apply Or.inl
    rw [inv.window.counter]
    have := Nat.mul_le_mul_left PACKET_SIZE read
    omega
  · have low : base ≤ g := by
      by_contra before
      exact lacks (inv.order.has_of_lt
        ((Nat.not_le.mp before).trans_le inv.behind))
    have high := Nat.not_le.mp read
    refine .inr ⟨g % cfg.WINDOW_SIZE, ?_, inv.window.slot g low high, ?_⟩
    · have := inv.window.windowSize
      have := Nat.mod_lt g cfg.windowPos
      have := Nat.mod_le g cfg.WINDOW_SIZE
      omega
    · have unacked :
          (s.sender.window (g % cfg.WINDOW_SIZE)).ack = false := by
        by_contra acked
        exact lacks (inv.acked g low high (Bool.of_not_eq_false acked))
      simp [retransmits, unacked]

/-- Two acknowledgments have let the sender move on, and the third packet, which took
the slot of the first, is lost. -/
theorem recoverable_fourPackets :
    ∃ events s, Reaches narrow .roomy Timely fourPackets events s ∧
      s.sender.Recoverable narrow fourPackets 2 := by
  have computed : ((Transfer.start narrow fourPackets (fun _ => .sent)).bind
      fun initial => initial.steps narrow .roomy Timely
        [.packet 0 .sent, .ack 0 fun _ => .dropped, .packet 0 .sent,
          .ack 0 fun _ => .sent, .packet 0 .sent, .ack 0 fun _ => .sent]).map
      (fun s => (s.receiver.result, s.receiver.written.map fun packet => packet.noBytesToSend,
        (s.receiver.window 0).received)) = some (none, [1500, 3000], false) := by
    decide +kernel
  obtain ⟨s, run, values⟩ := Option.map_eq_some_iff.mp computed
  simp only [Prod.mk.injEq] at values
  obtain ⟨running, written, empty⟩ := values
  have reaches := reaches_of_steps run
  have inside : 2 < packetCount fourPackets := by
    rw [packetCount_fourPackets]
    decide
  refine ⟨_, s, reaches, recoverable fourPackets_fits reaches running inside ?_⟩
  rintro (⟨packet, member, genuine⟩ | ⟨taken, _⟩)
  · have position : packet.noBytesToSend ∈ ([1500, 3000] : List ℤ) := by
      rw [← written]
      exact List.mem_map_of_mem member
    rw [genuine.noBytesToSend, chunkEnd, length_fourPackets] at position
    exact absurd position (by decide)
  · rw [show 2 % narrow.WINDOW_SIZE = 0 from rfl, empty] at taken
    exact absurd taken (by decide)

/-- The bytes written are a prefix of the file that `size_received` measures and
that only grows. -/
theorem written_in_order {events : List Event} {s : Transfer}
    (fits : packetCount file < 2 ^ 31) (complete : Complete stream.fwrite)
    (reaches : Reaches cfg stream Timely file events s) :
    (0 ≤ s.receiver.sizeReceived ∧ s.receiver.sizeReceived ≤ file.length) ∧
    s.receiver.file = file.take s.receiver.sizeReceived.toNat ∧
    (s.receiver.written.map fun packet => packet.noBytesToSend).Pairwise
      (· ≤ ·) ∧
    ∀ event after, Within (Step cfg stream) Timely s event after →
      s.receiver.sizeReceived ≤ after.receiver.sizeReceived := by
  have genuine := Genuine.reaches fits reaches
  have noShort : ∀ s', Genuine cfg file stream s' →
      s'.receiver.result ≠ some WRITE_BYTE_ERROR := by
    intro s' genuine' short
    obtain ⟨k, incomplete⟩ := genuine'.receiver.short short
    exact absurd (complete k) (Nat.not_le.mpr incomplete)
  obtain ⟨base, n, inv⟩ := inStep_of_reaches fits reaches (noShort s genuine)
  refine ⟨inv.order.order.size, inv.order.file_eq, inv.order.offsets, ?_⟩
  rintro event after ⟨taken, timely⟩
  obtain ⟨_, n', _, later, inv'⟩ :=
    inv.step genuine timely taken (noShort after (genuine.step taken))
  rw [inv.order.position, inv'.order.position]
  have := Nat.mul_le_mul_left PACKET_SIZE later
  omega

/-- The second packet comes first, and the fourth while the third is still missing. -/
theorem written_in_order_fourPackets :
    ∃ events s, Reaches narrow .roomy Timely fourPackets events s ∧
      s.receiver.sizeReceived = 3000 ∧
      s.receiver.file = fourPackets.take s.receiver.sizeReceived.toNat := by
  have computed : ((Transfer.start narrow fourPackets (fun _ => .sent)).bind
      fun initial => initial.steps narrow .roomy Timely
        [.packet 1 .sent, .packet 0 .sent, .ack 0 fun _ => .sent, .ack 0 fun _ => .sent,
          .duplicatePacket 1, .packet 1 .sent]).map
      (fun s => s.receiver.sizeReceived) = some 3000 := by
    decide +kernel
  obtain ⟨s, run, size⟩ := Option.map_eq_some_iff.mp computed
  have reaches := reaches_of_steps run
  exact ⟨_, s, reaches, size,
    (written_in_order fourPackets_fits (fun _ => le_rfl) reaches).2.1⟩

/-! ### One stale acknowledgment -/

namespace Stale

/-- Every slot of the window waits for its acknowledgment. -/
structure Waiting (cfg : Settings) (file : List UInt8) (base : ℕ)
    (s : Sender) : Prop where
  window : SenderWindow cfg file base s
  more : base + s.windowSize < packetCount file
  unacked : ∀ g, base ≤ g → g < base + s.windowSize →
    (s.window (g % cfg.WINDOW_SIZE)).ack = false
  phase : s.phase = .waitAck

/-- An acknowledgment for the slot at the head of the window moves the window by
one chunk, whichever packet of that slot it was sent for. -/
theorem Waiting.slide {base g : ℕ} {s : Sender} {ack : AckPacket}
    (waiting : Waiting cfg file base s) (named : Acknowledges cfg file g ack)
    (residue : g % cfg.WINDOW_SIZE = base % cfg.WINDOW_SIZE)
    (send : ℕ → SendResult) :
    ∃ s' packets, receiveAck cfg s ack send = some (s', packets) ∧
      SenderWindow cfg file (base + 1) s' ∧ s'.phase = .waitAck ∧
      s'.windowSize = s.windowSize ∧
      (∀ h, base + 1 ≤ h → h < base + 1 + s.windowSize →
        (s'.window (h % cfg.WINDOW_SIZE)).ack = false) ∧
      ((∀ k, send k = .sent) →
        Carries cfg file [base + s.windowSize] packets) := by
  have window := waiting.window
  have full := window.windowSize_eq waiting.more
  have positive := cfg.windowPos
  have atHead := waiting.unacked base le_rfl (by omega)
  rcases window.waitAck_cases (fun _ => named.seqNum_mem)
      (show (sizeofAckPacket : ℤ) ≠ 0 by decide) send with
    ⟨ends, _⟩ | ⟨_, acked, _⟩ | ⟨_, _, s', packets, base', runs, refilled⟩
  · rw [window.sizeFile] at ends
    exact absurd ends named.not_ends
  · rw [named.toNat_seqNum, residue, atHead] at acked
    exact absurd acked (by decide)
  · have size : s'.windowSize = s.windowSize :=
      refilled.window.windowSize.trans window.windowSize.symm
    have upper : base' ≤ base + s.windowSize := refilled.upper
    -- in the marked window only the head is acknowledged
    have flags : ∀ h, base < h → h < base + s.windowSize →
        (((s.noteAck ack).mark ack.seqNum.toNat).window
          (h % cfg.WINDOW_SIZE)).ack = false := by
      intro h low high
      have other : h % cfg.WINDOW_SIZE ≠ ack.seqNum.toNat := by
        rw [named.toNat_seqNum, residue]
        exact RoundRobin.mod_ne low (by omega)
      simp only [Sender.mark, Sender.noteAck, Function.update_of_ne other]
      exact waiting.unacked h low.le high
    have moved : base' = base + 1 := by
      rcases Nat.lt_trichotomy base' (base + 1) with before | exactly | beyond
      · obtain rfl : base' = base := Nat.le_antisymm (by omega) refilled.lower
        have stopped := refilled.stops waiting.more
        rw [refilled.kept base' le_rfl (by
          simp only [Sender.mark, Sender.noteAck]; omega)] at stopped
        simp [Sender.mark, named.toNat_seqNum, residue] at stopped
      · exact exactly
      · have passed := refilled.passed (base + 1) (by omega) beyond
        rw [flags (base + 1) (by omega) (by omega)] at passed
        exact absurd passed (by decide)
    subst moved
    refine ⟨s', packets, by rw [receiveAck, waiting.phase]; exact runs,
      refilled.window, refilled.phase.trans waiting.phase, size, ?_, ?_⟩
    · intro h low high
      by_cases old : h < base + s.windowSize
      · rw [refilled.kept h low old]
        exact flags h (by omega) old
      · exact refilled.fresh h (Nat.not_lt.mp old) high
    · intro all
      obtain ⟨chunks, _, carries, whole⟩ := refilled.carried
      rw [whole all] at carries
      simpa [Sender.mark, Sender.noteAck] using carries

/-- The first `k` packets of the initial window have been delivered in order, and
none of their acknowledgments. -/
structure Delivered (cfg : Settings) (file : List UInt8) (stream : Stream)
    (k : ℕ) (initial s : Transfer) : Prop where
  inv : ∃ n, InStep cfg file 0 n s
  genuine : Genuine cfg file stream s
  sender : s.sender = initial.sender
  packets : Carries cfg file (List.range' k (cfg.WINDOW_SIZE - k)) s.packets
  acks : List.Forall₂ (Acknowledges cfg file) (List.range k) s.acks
  running : s.receiver.result = none
  has : ∀ h < k, s.receiver.Has cfg file h

/-- Delivery of the next packet. -/
theorem Delivered.next {k : ℕ} {initial s : Transfer}
    (at_k : Delivered cfg file stream k initial s)
    (inside : k < cfg.WINDOW_SIZE) (complete : Complete stream.fwrite)
    (more : cfg.WINDOW_SIZE < packetCount file) :
    ∃ s', Step cfg stream s (.packet 0 .sent) s' ∧
      Delivered cfg file stream (k + 1) initial s' := by
  obtain ⟨n, inv⟩ := at_k.inv
  have packets := at_k.packets
  rw [show cfg.WINDOW_SIZE - k = (cfg.WINDOW_SIZE - (k + 1)) + 1 by omega,
    List.range'_succ] at packets
  obtain ⟨packet, rest, chunk, others, shape⟩ :=
    List.forall₂_cons_left_iff.mp packets
  have member : packet ∈ s.packets := by simp [shape]
  obtain ⟨receiver, _, _, reacts, genuineReceiver, _, result, _⟩ :=
    mainReceiver_genuine at_k.genuine.receiver at_k.running chunk
      (at_k.genuine.announced member chunk) stream.closes .sent
  have noShort : receiver.result ≠ some WRITE_BYTE_ERROR := by
    intro short
    obtain ⟨j, incomplete⟩ := genuineReceiver.short short
    exact absurd (complete j) (Nat.not_le.mpr incomplete)
  obtain ⟨n', answer, _, inv', named, has, acks⟩ :=
    inv.receiveChunk at_k.genuine at_k.running member chunk reacts noShort
  rw [acks] at reacts inv'
  -- more chunks than a window holds: the loop goes on
  have running : receiver.result = none := by
    rcases result with running | success | short
    · exact running
    · obtain ⟨begun, left⟩ := genuineReceiver.done success
      have count := inv'.order.order.count
      have lower := inv'.order.lower
      have upper := inv'.window.windowSize_le
      simp only [begun, Bool.false_eq_true, if_false, List.length_range] at count
      simp only at lower upper
      omega
    · exact absurd short noShort
  let s' : Transfer :=
    { s with receiver := receiver, packets := rest, acks := s.acks ++ [answer] }
  have taken : Step cfg stream s (.packet 0 .sent) s' := by
    simp only [running, SendResult.emit_sent, Option.map_none, Option.getD_none,
      List.append_nil] at reacts
    simp [Step, Transfer.step, shape, at_k.running, reacts, s']
  refine ⟨s', taken, ⟨⟨n', ?_⟩, at_k.genuine.step taken, at_k.sender, others, ?_,
    running, ?_⟩⟩
  · have fewer : rest ⊆ s.packets := by simp [shape]
    have same : s.acks ++ [answer] ⊆ s.acks ++ (SendResult.emit .sent answer ++
        (receiver.result.map fun ret =>
          finalAcks stream.closes ret receiver.sizeReceived).getD []) := by
      simp
    exact inv'.of_subset fewer same
  · rw [List.range_succ]
    exact List.rel_append at_k.acks (.cons named .nil)
  · intro h before
    rw [has h]
    by_cases old : h < k
    · exact .inl (at_k.has h old)
    · exact .inr (by omega)

/-- A whole window delivered in order. -/
theorem delivered (fits : packetCount file < 2 ^ 31)
    (complete : Complete stream.fwrite) (more : cfg.WINDOW_SIZE < packetCount file) :
    ∃ initial, Transfer.start cfg file (fun _ => .sent) = some initial ∧
      Waiting cfg file 0 initial.sender ∧
      ∀ k ≤ cfg.WINDOW_SIZE, ∃ events s,
        Run (Within (Step cfg stream) fun _ _ => True) initial events s ∧
          Delivered cfg file stream k initial s := by
  obtain ⟨sender, packets, runs, begun⟩ :=
    mainSenderStart_spec cfg fits fun _ => .sent
  have size : sender.windowSize = cfg.WINDOW_SIZE := by
    rw [begun.window.windowSize]
    omega
  have started : Transfer.start cfg file (fun _ => .sent) =
      some ⟨sender, Receiver.initial, packets, []⟩ := by
    rw [Transfer.start, runs]
    rfl
  refine ⟨_, started, ⟨begun.window, ?_, ?_, begun.phase⟩, ?_⟩
  · simp only
    omega
  · intro g _ high
    exact begun.unacked g (by simpa using high)
  · intro k
    induction k with
    | zero =>
        intro _
        obtain ⟨chunks, _, carries, whole⟩ := begun.carried
        rw [whole (fun _ => rfl), size, List.range_eq_range'] at carries
        exact ⟨[], _, .refl, ⟨0, .start fits started⟩, .start fits started, rfl,
          carries, .nil, rfl, by simp⟩
    | succ k inductionHypothesis =>
        intro inside
        obtain ⟨events, s, run, at_k⟩ := inductionHypothesis (by omega)
        obtain ⟨s', taken, next⟩ := at_k.next (by omega) complete more
        exact ⟨_, s', run.tail ⟨taken, trivial⟩, next⟩

/-- The first `k` acknowledgments have come in; `again` is a second copy of the
acknowledgment of chunk `0`, which is still on its way. -/
structure Confirmed (cfg : Settings) (file : List UInt8) (k : ℕ)
    (again : AckPacket) (r : Receiver) (s : Transfer) : Prop where
  waiting : Waiting cfg file k s.sender
  acks : ∃ regular, s.acks = regular ++ [again] ∧
    List.Forall₂ (Acknowledges cfg file)
      (List.range' k (cfg.WINDOW_SIZE - k)) regular
  receiver : s.receiver = r

/-- The next acknowledgment moves the window. -/
theorem Confirmed.next {k : ℕ} {again : AckPacket} {r : Receiver} {s : Transfer}
    (at_k : Confirmed cfg file k again r s) (inside : k < cfg.WINDOW_SIZE)
    (more : 2 * cfg.WINDOW_SIZE < packetCount file) :
    ∃ s', Step cfg stream s (.ack 0 fun _ => .sent) s' ∧
      Confirmed cfg file (k + 1) again r s' := by
  obtain ⟨regular, shape, acks⟩ := at_k.acks
  rw [show cfg.WINDOW_SIZE - k = (cfg.WINDOW_SIZE - (k + 1)) + 1 by omega,
    List.range'_succ] at acks
  obtain ⟨ack, rest, named, others, rfl⟩ := List.forall₂_cons_left_iff.mp acks
  obtain ⟨sender, packets, reacts, window, phase, size, unacked, _⟩ :=
    at_k.waiting.slide named rfl fun _ => .sent
  refine ⟨⟨sender, s.receiver, s.packets ++ packets, rest ++ [again]⟩, ?_,
    ⟨window, ?_, by rw [size]; exact unacked, phase⟩, ⟨rest, rfl, others⟩,
    at_k.receiver⟩
  · simp [Step, Transfer.step, shape, reacts]
  · have := at_k.waiting.window.windowSize_le
    simp only [size]
    omega

/-- The last step: the second copy marks the slot that by now holds chunk
`WINDOW_SIZE`, and the window moves past it. -/
structure Forgotten (cfg : Settings) (file : List UInt8) (s : Transfer) :
    Prop where
  window : SenderWindow cfg file (cfg.WINDOW_SIZE + 1) s.sender
  phase : s.sender.phase = .waitAck
  order : InOrder cfg file cfg.WINDOW_SIZE cfg.WINDOW_SIZE s.receiver
  idle : (s.receiver.window s.receiver.i).received = false
  begun : s.receiver.isFirst = false
  running : s.receiver.result = none
  /-- The chunk one window further on is under way. -/
  ahead : ∃ (k : ℕ) (packet : Packet), s.packets[k]? = some packet ∧
    IsChunk cfg file (2 * cfg.WINDOW_SIZE) packet

theorem forgets (fits : packetCount file < 2 ^ 31) (complete : Complete stream.fwrite)
    (more : 2 * cfg.WINDOW_SIZE < packetCount file) :
    ∃ events s, Reaches cfg stream (fun _ _ => True) file events s ∧
      Forgotten cfg file s := by
  have positive := cfg.windowPos
  have wider : cfg.WINDOW_SIZE < packetCount file := by omega
  obtain ⟨initial, started, waiting, all⟩ := delivered fits complete wider
  obtain ⟨events, s, run, filled⟩ := all cfg.WINDOW_SIZE le_rfl
  -- the acknowledgment of chunk 0 is duplicated by the channel
  obtain ⟨again, named, found⟩ : ∃ again, Acknowledges cfg file 0 again ∧
      s.acks[0]? = some again := by
    have acks := filled.acks
    rw [List.range_eq_range', show cfg.WINDOW_SIZE = cfg.WINDOW_SIZE - 1 + 1 by omega,
      List.range'_succ] at acks
    obtain ⟨again, rest, named, _, shape⟩ := List.forall₂_cons_left_iff.mp acks
    exact ⟨again, named, by simp [shape]⟩
  have duplicated : Step cfg stream s (.duplicateAck 0)
      { s with acks := s.acks ++ [again] } := by
    simp [Step, Transfer.step, found]
  have confirmed : ∀ k ≤ cfg.WINDOW_SIZE, ∃ events s',
      Run (Within (Step cfg stream) fun _ _ => True)
        { s with acks := s.acks ++ [again] } events s' ∧
      Confirmed cfg file k again s.receiver s' := by
    intro k
    induction k with
    | zero =>
        intro _
        refine ⟨[], _, .refl, ?_, ⟨s.acks, rfl, ?_⟩, rfl⟩
        · simp only [filled.sender]
          exact waiting
        · rw [Nat.sub_zero, ← List.range_eq_range']
          exact filled.acks
    | succ k inductionHypothesis =>
        intro inside
        obtain ⟨events, s', run, at_k⟩ := inductionHypothesis (by omega)
        obtain ⟨s'', taken, next⟩ := at_k.next (by omega) more
        exact ⟨_, s'', run.tail ⟨taken, trivial⟩, next⟩
  obtain ⟨events', s', run', last⟩ := confirmed cfg.WINDOW_SIZE le_rfl
  -- every slot has been refilled, and the second copy is all that is left
  obtain ⟨regular, shape, empty⟩ := last.acks
  rw [Nat.sub_self] at empty
  obtain rfl : regular = [] := List.forall₂_nil_left_iff.mp empty
  obtain ⟨sender, packets, reacts, window, phase, size, _, carries⟩ :=
    last.waiting.slide named (by simp) fun _ => .sent
  have full : s'.sender.windowSize = cfg.WINDOW_SIZE :=
    last.waiting.window.windowSize_eq last.waiting.more
  obtain ⟨packet, rest, chunk, _, rfl⟩ :=
    List.forall₂_cons_left_iff.mp (carries fun _ => rfl)
  obtain ⟨n, inv⟩ := filled.inv
  have atWindow : n = cfg.WINDOW_SIZE := by
    have lower := inv.order.lower
    have bound := inv.window.windowSize_le
    have notHas := inv.order.not_has inv.idle
    by_contra other
    exact notHas (filled.has n (by omega))
  subst atWindow
  have sizeAt : s.sender.windowSize = cfg.WINDOW_SIZE := by
    have := inv.order.lower
    have := inv.window.windowSize_le
    omega
  have order := inv.order
  rw [sizeAt, Nat.zero_add] at order
  have final : Step cfg stream s' (.ack 0 fun _ => .sent)
      ⟨sender, s'.receiver, s'.packets ++ packet :: rest, []⟩ := by
    simp [Step, Transfer.step, shape, reacts]
  refine ⟨_, _, ⟨_, initial, started, (run.tail ⟨duplicated, trivial⟩).trans
    (run'.tail ⟨final, trivial⟩)⟩, ?_⟩
  · refine ⟨window, phase, ?_, ?_, ?_, ?_, ⟨s'.packets.length, packet, ?_, ?_⟩⟩
    · rw [last.receiver]
      exact order
    · rw [last.receiver]
      exact inv.idle
    · rw [last.receiver]
      by_contra first
      have nothing := order.order.untouched (Bool.of_not_eq_false first)
      rw [List.range_eq_nil] at nothing
      omega
    · rw [last.receiver]
      exact filled.running
    · simp
    · rw [full] at chunk
      rwa [Nat.two_mul]

namespace Forgotten

variable {s : Transfer}

/-- The window has moved past the chunk, which the receiver never got. -/
theorem not_recoverable (forgotten : Forgotten cfg file s)
    (more : 2 * cfg.WINDOW_SIZE < packetCount file) :
    ¬ s.receiver.Has cfg file cfg.WINDOW_SIZE ∧
      ¬ s.sender.Recoverable cfg file cfg.WINDOW_SIZE := by
  refine ⟨forgotten.order.not_has forgotten.idle, ?_⟩
  rintro (unread | ⟨j, inside, genuine, _⟩)
  · have available := lt_packetCount.mp more
    rw [forgotten.window.counter] at unread
    simp only [PACKET_SIZE] at unread available
    omega
  · obtain ⟨g, low, _, _, genuine'⟩ := forgotten.window.slotAt inside
    have := genuine.unique genuine'
    omega

/-- No slot of the receiver's window is taken. -/
theorem free (forgotten : Forgotten cfg file s) {j : ℕ}
    (inside : j < cfg.WINDOW_SIZE) : (s.receiver.window j).received = false := by
  by_contra taken
  have received := Bool.of_not_eq_false taken
  obtain ⟨g, rfl, genuine, _⟩ := forgotten.order.order.waiting j inside received
  exact absurd (forgotten.order.near g received genuine)
    (Nat.not_lt.mpr (forgotten.order.le_waiting received genuine))

theorem head (forgotten : Forgotten cfg file s) : s.receiver.i = 0 := by
  rw [forgotten.order.order.head, List.length_range, Nat.mod_self]

/-- A chunk from one window further on passes for the next one. -/
theorem consumes (forgotten : Forgotten cfg file s) (complete : Complete stream.fwrite)
    {packet : Packet} (genuine : IsChunk cfg file (2 * cfg.WINDOW_SIZE) packet)
    (send : SendResult) :
    ∃ acks, mainReceiver cfg stream.fwrite stream.closes send s.receiver packet =
      some ((((s.receiver.store packet).consume cfg).acknowledge packet send).1,
        acks) := by
  have positive := cfg.windowPos
  have slot : packet.seqNum.toNat = 0 := by
    rw [genuine.toNat_seqNum, Nat.mul_mod_left]
  have available := lt_packetCount.mp genuine.inside
  have fresh : ¬ s.receiver.duplicate packet := by
    have empty := forgotten.free positive
    have behind := forgotten.order.free 0 positive empty
    simp only [Receiver.duplicate, slot, empty, genuine.noBytesToSend,
      forgotten.order.position, chunkEnd, not_or] at behind ⊢
    refine ⟨by simp, Int.not_lt.mpr behind, ?_⟩
    simp only [PACKET_SIZE] at available ⊢
    omega
  have stored : (s.receiver.store packet).window (s.receiver.store packet).i =
      { packet with received := true } := by
    simp [Receiver.store, slot, forgotten.head]
  have whole : ¬ stream.fwrite (s.receiver.store packet).written.length <
      packet.size.toNat := by
    have := complete (s.receiver.store packet).written.length
    have := genuine.size_mem
    omega
  have runs : processAvailable cfg stream.fwrite cfg.WINDOW_SIZE
      (s.receiver.store packet) =
      some ((s.receiver.store packet).consume cfg) := by
    obtain ⟨m, size⟩ : ∃ m, cfg.WINDOW_SIZE = m + 1 :=
      ⟨cfg.WINDOW_SIZE - 1, by omega⟩
    rw [show processAvailable cfg stream.fwrite cfg.WINDOW_SIZE _ =
      processAvailable cfg stream.fwrite (m + 1) _ by rw [size], processAvailable]
    have inside : (s.receiver.store packet).i < cfg.WINDOW_SIZE := by
      rw [show (s.receiver.store packet).i = s.receiver.i from rfl,
        forgotten.head]
      exact positive
    simp only [if_pos inside, stored, if_true, if_pos genuine.size_mem,
      if_neg whole]
    cases m with
    | zero => rfl
    | succ m =>
        -- the slot after the head is still empty
        have nextHead : ((s.receiver.store packet).consume cfg).i = 1 := by
          simp only [Receiver.consume, Receiver.store, forgotten.head]
          exact Nat.mod_eq_of_lt (by omega)
        have empty : (((s.receiver.store packet).consume cfg).window 1).received =
            false := by
          simp only [Receiver.consume, Receiver.store, slot, forgotten.head]
          rw [Function.update_of_ne (by decide), Function.update_of_ne (by decide)]
          exact forgotten.free (by omega)
        rw [processAvailable, nextHead, if_pos (by omega)]
        simp only [empty, Bool.false_eq_true, if_false]
  have noted : s.receiver.noteFirst packet = s.receiver := by
    simp [Receiver.noteFirst, forgotten.begun]
  have running : ((s.receiver.store packet).consume cfg).result = none :=
    forgotten.running
  have loop : receiveDataFromSender cfg stream.fwrite send s.receiver packet =
      some (((s.receiver.store packet).consume cfg).acknowledge packet send) := by
    rw [receiveDataFromSender, if_neg genuine.seqNum_ne_error,
      if_neg (Int.not_le.mpr genuine.seqNum_lt),
      if_neg (Int.not_lt.mpr genuine.seqNum_nonneg), noted]
    simp only [if_neg fresh, runs, running, Option.isSome_none,
      Bool.false_eq_true, if_false]
  rw [mainReceiver, loop]
  simp only
  split <;> exact ⟨_, rfl⟩

/-- So the bytes written are no longer a prefix of the file. -/
theorem misplaces (forgotten : Forgotten cfg file s)
    (complete : Complete stream.fwrite) :
    ∃ event s', Step cfg stream s event s' ∧
      s'.receiver.file ≠ file.take s'.receiver.sizeReceived.toNat := by
  have positive := cfg.windowPos
  obtain ⟨k, packet, found, genuine⟩ := forgotten.ahead
  obtain ⟨acks, reacts⟩ := forgotten.consumes complete genuine .sent
  have slot : packet.seqNum.toNat = 0 := by
    rw [genuine.toNat_seqNum, Nat.mul_mod_left]
  obtain ⟨_, content, _, size, _⟩ :=
    ((s.receiver.store packet).consume cfg).acknowledge_fields packet .sent
  generalize (((s.receiver.store packet).consume cfg).acknowledge packet .sent).1
    = r at reacts content size
  have taken : Step cfg stream s (.packet k .sent)
      ⟨s.sender, r, s.packets.eraseIdx k, s.acks ++ acks⟩ := by
    simp [Step, Transfer.step, found, forgotten.running, reacts]
  refine ⟨_, _, taken, ?_⟩
  simp only [content, size, Receiver.consume, Receiver.store, slot,
    forgotten.head, Function.update_self, genuine.noBytesToSend,
    genuine.take_payload, Int.toNat_natCast]
  -- the file has the length of the first window and one chunk more
  intro same
  have lengths := congrArg List.length same
  rw [List.length_append, forgotten.order.file_eq, forgotten.order.position,
    chunk_length, List.length_take, List.length_take, Int.toNat_natCast,
    chunkEnd] at lengths
  have available := lt_packetCount.mp genuine.inside
  simp only [PACKET_SIZE] at lengths available
  omega

end Forgotten

/-- The smallest file of more than two windows of packets. -/
def sample : List UInt8 := List.replicate 96001 0

theorem packetCount_sample : packetCount sample = 65 := by
  rw [packetCount, sample, List.length_replicate, PACKET_SIZE]

end Stale

/-- The sender forgets a chunk: neither buffered by the receiver, nor to be read
or sent again. -/
theorem stale_ack_forgets :
    ∃ events s g, Reaches settings .roomy (fun _ _ => True)
        Stale.sample events s ∧
      s.receiver.result = none ∧ s.sender.phase = .waitAck ∧
      g < packetCount Stale.sample ∧
      ¬ s.receiver.Has settings Stale.sample g ∧
      ¬ s.sender.Recoverable settings Stale.sample g := by
  have count := Stale.packetCount_sample
  have more : 2 * settings.WINDOW_SIZE < packetCount Stale.sample := by
    rw [count]
    decide
  have complete : Complete Stream.roomy.fwrite := fun _ => le_rfl
  obtain ⟨events, s, reaches, forgotten⟩ :=
    Stale.forgets (by rw [count]; decide) complete more
  refine ⟨events, s, _, reaches, forgotten.running, forgotten.phase, ?_,
    forgotten.not_recoverable more⟩
  omega

/-- The receiver writes a chunk in the wrong place. -/
theorem stale_ack_misplaces :
    ∃ events s, Reaches settings .roomy (fun _ _ => True)
        Stale.sample events s ∧
      s.receiver.file ≠ Stale.sample.take s.receiver.sizeReceived.toNat := by
  have count := Stale.packetCount_sample
  have more : 2 * settings.WINDOW_SIZE < packetCount Stale.sample := by
    rw [count]
    decide
  have complete : Complete Stream.roomy.fwrite := fun _ => le_rfl
  obtain ⟨events, s, ⟨send, initial, started, run⟩, forgotten⟩ :=
    Stale.forgets (by rw [count]; decide) complete more
  obtain ⟨event, s', taken, misplaced⟩ := forgotten.misplaces complete
  exact ⟨_, s', ⟨send, initial, started, run.tail ⟨taken, trivial⟩⟩, misplaced⟩

end Spqr
