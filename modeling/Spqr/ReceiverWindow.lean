/-
Module: Spqr.ReceiverWindow
Purpose: What `receive_data_from_sender` does with genuine packets in any order:
  every slot is consumed in turn and with growing offsets.
Trusted boundary: none
Main exports:
  processAvailable_spec, processAvailable_invariant, reaction_cases, receive_cases,
  SlotOrder, SlotOrder.complete, Acknowledges, Reacted, SlotOrder.receive
-/
import Mathlib.Data.List.GetD
import Spqr.Chunks
import Spqr.Receiver
import Spqr.Lib.Residues

namespace Spqr

variable {cfg : Settings} {file : List UInt8}

/-- The disk takes every byte it is given. -/
def Complete (fwrite : ℕ → ℕ) : Prop := ∀ k, PACKET_SIZE ≤ fwrite k

/-! ### The inner loop -/

/-- An invariant of the inner loop, with the number of packets consumed so
far. -/
structure LoopInvariant (cfg : Settings) (Holds : ℕ → Receiver → Prop) :
    Prop where
  head : ∀ {k r}, Holds k r → r.i < cfg.WINDOW_SIZE
  size : ∀ {k r}, Holds k r → (r.window r.i).received = true →
    0 ≤ (r.window r.i).size ∧ (r.window r.i).size ≤ PACKET_SIZE
  keeps : ∀ {k r}, Holds k r → (r.window r.i).received = true →
    Holds (k + 1) (r.consume cfg)

/-- Rule of the inner loop: it stops at an empty slot or after `n` rounds, unless
an `fwrite` comes up short. -/
theorem processAvailable_spec {Holds : ℕ → Receiver → Prop}
    (inv : LoopInvariant cfg Holds) (fwrite : ℕ → ℕ) :
    ∀ (n k : ℕ) (r : Receiver), Holds k r →
      ∃ r', processAvailable cfg fwrite n r = some r' ∧
        ((∃ k', k ≤ k' ∧ Holds k' r' ∧ r'.result = r.result ∧
            (k' = k + n ∨ (r'.window r'.i).received = false)) ∨
          ∃ k' short, Holds k' short ∧
            (short.window short.i).received = true ∧
            fwrite short.written.length < (short.window short.i).size.toNat ∧
            r' = short.shortWrite (fwrite short.written.length)) := by
  intro n
  induction n with
  | zero =>
      intro k r holds
      exact ⟨r, rfl, .inl ⟨k, le_rfl, holds, rfl, .inl rfl⟩⟩
  | succ n inductionHypothesis =>
      intro k r holds
      rw [processAvailable, if_pos (inv.head holds)]
      by_cases received : (r.window r.i).received = true
      · simp only [received, if_true, if_pos (inv.size holds received)]
        split
        · rename_i short
          exact ⟨_, rfl, .inr ⟨k, r, holds, received, short, rfl⟩⟩
        · obtain ⟨r', runs, rest⟩ :=
            inductionHypothesis (k + 1) _ (inv.keeps holds received)
          refine ⟨r', runs, rest.imp ?_ id⟩
          rintro ⟨k', later, holds', same, stop⟩
          exact ⟨k', by omega, holds', same, stop.imp (by omega) id⟩
      · simp only [received]
        exact ⟨r, rfl, .inl ⟨k, le_rfl, holds, rfl,
          .inr (Bool.eq_false_iff.mpr received)⟩⟩

/-- Rule of the inner loop for what every write keeps. -/
theorem processAvailable_invariant {fwrite : ℕ → ℕ} {Holds : Receiver → Prop}
    (consume : ∀ {r}, Holds r → (r.window r.i).received = true →
      (r.window r.i).size ≤ fwrite r.written.length → Holds (r.consume cfg))
    (short : ∀ {r} numWrite, Holds r → (r.window r.i).received = true →
      Holds (r.shortWrite numWrite)) :
    ∀ {n : ℕ} {r r' : Receiver}, Holds r →
      processAvailable cfg fwrite n r = some r' → Holds r' := by
  intro n
  induction n with
  | zero =>
      intro r r' holds runs
      obtain rfl := Option.some.inj runs
      exact holds
  | succ n inductionHypothesis =>
      intro r r' holds runs
      simp only [processAvailable] at runs
      split_ifs at runs with inside received fits less
      · obtain rfl := Option.some.inj runs
        exact short _ holds received
      · exact inductionHypothesis (consume holds received (by omega)) runs
      · obtain rfl := Option.some.inj runs
        exact holds

/-- Everything a packet can make the receiver do. -/
theorem reaction_cases {fwrite : ℕ → ℕ} {packet : Packet} {r r' : Receiver}
    {send : SendResult} {acks : List AckPacket}
    (reacts : receiveDataFromSender cfg fwrite send r packet = some (r', acks)) :
    (packet.seqNum = SEQ_NUM_ERROR ∧ r' = { r with result := some TRANSFER_ERROR } ∧
      acks = []) ∨
    ((cfg.WINDOW_SIZE : ℤ) ≤ packet.seqNum ∧ r' = r.loopCondition ∧ acks = [errorAck]) ∨
    (0 ≤ packet.seqNum ∧ packet.seqNum < cfg.WINDOW_SIZE ∧
      (r.noteFirst packet).duplicate packet ∧
      r' = { r.noteFirst packet with newPacket := packet } ∧
      acks = send.emit ((r.noteFirst packet).ackOf packet)) ∨
    (0 ≤ packet.seqNum ∧ packet.seqNum < cfg.WINDOW_SIZE ∧
      ¬ (r.noteFirst packet).duplicate packet ∧
      ∃ processed, processAvailable cfg fwrite cfg.WINDOW_SIZE
          ((r.noteFirst packet).store packet) = some processed ∧
        ((processed.result.isSome = true ∧ r' = processed ∧ acks = []) ∨
          (processed.result = none ∧ (r', acks) = processed.acknowledge packet send))) := by
  simp only [receiveDataFromSender] at reacts
  split_ifs at reacts with error past below duplicate
  · obtain ⟨rfl, rfl⟩ := Prod.mk.inj (Option.some.inj reacts)
    exact .inl ⟨error, rfl, rfl⟩
  · obtain ⟨rfl, rfl⟩ := Prod.mk.inj (Option.some.inj reacts)
    exact .inr (.inl ⟨past, rfl, rfl⟩)
  · obtain ⟨rfl, rfl⟩ := Prod.mk.inj (Option.some.inj reacts)
    exact .inr (.inr (.inl ⟨by omega, by omega, duplicate, rfl, rfl⟩))
  · refine .inr (.inr (.inr ⟨by omega, by omega, duplicate, ?_⟩))
    split at reacts
    · simp at reacts
    · rename_i processed runs
      refine ⟨processed, runs, ?_⟩
      split_ifs at reacts with ended
      · obtain ⟨rfl, rfl⟩ := Prod.mk.inj (Option.some.inj reacts)
        exact .inl ⟨ended, rfl, rfl⟩
      · exact .inr ⟨by simpa using ended, (Option.some.inj reacts).symm⟩

/-- Everything one genuine packet can make the receiver do, once the inner loop
is known to be defined. -/
theorem receive_cases {fwrite : ℕ → ℕ} {g : ℕ} {packet : Packet} {r r' : Receiver}
    {send : SendResult} {acks : List AckPacket}
    (genuine : IsChunk cfg file g packet)
    (reacts : receiveDataFromSender cfg fwrite send r packet =
      some (r', acks)) :
    ((r.noteFirst packet).duplicate packet ∧
      r' = { r.noteFirst packet with newPacket := packet } ∧
      acks = send.emit ((r.noteFirst packet).ackOf packet)) ∨
    (¬ (r.noteFirst packet).duplicate packet ∧
      ∃ processed, processAvailable cfg fwrite cfg.WINDOW_SIZE
          ((r.noteFirst packet).store packet) = some processed ∧
        ((processed.result.isSome = true ∧ r' = processed ∧ acks = []) ∨
          (processed.result = none ∧
            (r', acks) = processed.acknowledge packet send))) := by
  rcases reaction_cases reacts with ⟨error, _⟩ | ⟨past, _⟩ |
    ⟨_, _, duplicate, same, acked⟩ | ⟨_, _, fresh, processed⟩
  · exact absurd error genuine.seqNum_ne_error
  · exact absurd past (Int.not_le.mpr genuine.seqNum_lt)
  · exact .inl ⟨duplicate, same, acked⟩
  · exact .inr ⟨fresh, processed⟩

/-- `noteFirst` changes nothing but the count of the packets to come. -/
theorem Receiver.noteFirst_fields (r : Receiver) (packet : Packet) :
    (r.noteFirst packet).window = r.window ∧
    (r.noteFirst packet).i = r.i ∧
    (r.noteFirst packet).written = r.written ∧
    (r.noteFirst packet).sizeReceived = r.sizeReceived ∧
    (r.noteFirst packet).result = r.result ∧
    (r.noteFirst packet).isFirst = false := by
  unfold Receiver.noteFirst
  split <;> simp_all

/-! ### Slot order -/

/-- `chunks` are the chunks written so far. Slots are consumed in turn; the
chunks written from one slot, and the one that waits in it, have growing
offsets. -/
structure SlotOrder (cfg : Settings) (file : List UInt8) (chunks : List ℕ)
    (r : Receiver) : Prop where
  written : List.Forall₂ (IsChunk cfg file) chunks r.written
  content : r.file = chunks.flatMap (chunk file)
  head : r.i = chunks.length % cfg.WINDOW_SIZE
  turn : ∀ m (inside : m < chunks.length),
    chunks[m] % cfg.WINDOW_SIZE = m % cfg.WINDOW_SIZE
  growing : chunks.Pairwise fun a b =>
    a % cfg.WINDOW_SIZE = b % cfg.WINDOW_SIZE → a < b
  /-- A slot never forgets how far it has got. -/
  past : ∀ c ∈ chunks,
    (chunkEnd file c : ℤ) ≤ (r.window (c % cfg.WINDOW_SIZE)).noBytesToSend
  waiting : ∀ j < cfg.WINDOW_SIZE, (r.window j).received = true →
    ∃ g, g % cfg.WINDOW_SIZE = j ∧ IsChunk cfg file g (r.window j) ∧
      ∀ c ∈ chunks, c % cfg.WINDOW_SIZE = j → c < g
  size : 0 ≤ r.sizeReceived ∧ r.sizeReceived ≤ file.length
  untouched : r.isFirst = true → chunks = []
  count : r.noPacketsToReceive =
    (if r.isFirst then 0 else (packetCount file : ℤ)) - chunks.length

namespace SlotOrder

variable {chunks : List ℕ} {r : Receiver}

theorem initial (cfg : Settings) (file : List UInt8) :
    SlotOrder cfg file [] Receiver.initial where
  written := .nil
  content := rfl
  head := (Nat.zero_mod _).symm
  turn := by simp
  growing := .nil
  past := by simp
  waiting := by simp [Receiver.initial, Packet.zero]
  size := by simp [Receiver.initial]
  untouched := fun _ => rfl
  count := by simp [Receiver.initial]

theorem head_lt (inv : SlotOrder cfg file chunks r) : r.i < cfg.WINDOW_SIZE := by
  rw [inv.head]
  exact Nat.mod_lt _ cfg.windowPos

theorem length_written (inv : SlotOrder cfg file chunks r) :
    r.written.length = chunks.length := inv.written.length_eq.symm

/-- What the invariant does not mention may change freely; slots may change
their `ack` and `sent` flags. -/
theorem of_fields {r' : Receiver} (inv : SlotOrder cfg file chunks r)
    (written : r'.written = r.written) (content : r'.file = r.file)
    (head : r'.i = r.i) (size : r'.sizeReceived = r.sizeReceived)
    (isFirst : r'.isFirst = r.isFirst)
    (count : r'.noPacketsToReceive = r.noPacketsToReceive)
    (slots : ∀ j, ∃ sent ack,
      r'.window j = { r.window j with sent := sent, ack := ack }) :
    SlotOrder cfg file chunks r' where
  written := written ▸ inv.written
  content := content.trans inv.content
  head := head.trans inv.head
  turn := inv.turn
  growing := inv.growing
  past := by
    intro c member
    obtain ⟨_, _, eq⟩ := slots (c % cfg.WINDOW_SIZE)
    rw [eq]
    exact inv.past c member
  waiting := by
    intro j inside received
    obtain ⟨_, _, eq⟩ := slots j
    rw [eq] at received ⊢
    obtain ⟨g, residue, genuine, later⟩ := inv.waiting j inside received
    exact ⟨g, residue, genuine.of_fields rfl rfl rfl rfl, later⟩
  size := size ▸ inv.size
  untouched := isFirst ▸ inv.untouched
  count := by rw [count, isFirst, inv.count]

theorem noteFirst (inv : SlotOrder cfg file chunks r) {packet : Packet}
    (count : r.isFirst = true → packet.noPacketsToSend = packetCount file) :
    SlotOrder cfg file chunks (r.noteFirst packet) := by
  unfold Receiver.noteFirst
  split
  · rename_i first
    refine ⟨inv.written, inv.content, inv.head, inv.turn, inv.growing, inv.past,
      inv.waiting, inv.size, by simp, ?_⟩
    simp [count first, inv.untouched first]
  · exact inv

/-- A packet that passes the duplicate test is ahead of everything its slot has
held. -/
theorem store (inv : SlotOrder cfg file chunks r) {g : ℕ} {packet : Packet}
    (genuine : IsChunk cfg file g packet) (fresh : ¬ r.duplicate packet) :
    SlotOrder cfg file chunks (r.store packet) := by
  simp only [Receiver.duplicate, genuine.toNat_seqNum, not_or, not_lt,
    not_le] at fresh
  obtain ⟨_, held, ahead⟩ := fresh
  have later : ∀ c ∈ chunks, c % cfg.WINDOW_SIZE = g % cfg.WINDOW_SIZE →
      c < g := by
    intro c member residue
    rw [← chunkEnd_lt_iff genuine.inside]
    have bound := inv.past c member
    rw [residue] at bound
    rw [genuine.noBytesToSend] at ahead
    omega
  refine ⟨inv.written, inv.content, inv.head, inv.turn, inv.growing, ?_, ?_,
    inv.size, inv.untouched, inv.count⟩
  · intro c member
    simp only [Receiver.store, genuine.toNat_seqNum]
    by_cases residue : c % cfg.WINDOW_SIZE = g % cfg.WINDOW_SIZE
    · rw [residue, Function.update_self]
      simp only [genuine.noBytesToSend]
      exact_mod_cast chunkEnd_mono (later c member residue).le
    · rw [Function.update_of_ne residue]
      exact inv.past c member
  · intro j inside received
    simp only [Receiver.store, genuine.toNat_seqNum] at received ⊢
    by_cases residue : j = g % cfg.WINDOW_SIZE
    · subst residue
      rw [Function.update_self]
      exact ⟨g, rfl, genuine.of_fields rfl rfl rfl rfl, later⟩
    · rw [Function.update_of_ne residue] at received ⊢
      exact inv.waiting j inside received

/-- The chunk at the head of the window. -/
theorem consume (inv : SlotOrder cfg file chunks r)
    (received : (r.window r.i).received = true) (begun : r.isFirst = false) :
    ∃ g, IsChunk cfg file g (r.window r.i) ∧
      SlotOrder cfg file (chunks ++ [g]) (r.consume cfg) := by
  obtain ⟨g, residue, genuine, later⟩ := inv.waiting r.i inv.head_lt received
  refine ⟨g, genuine, ?_⟩
  have headResidue : g % cfg.WINDOW_SIZE = chunks.length % cfg.WINDOW_SIZE :=
    residue.trans inv.head
  refine ⟨?_, ?_, ?_, ?_, ?_, ?_, ?_, ?_, ?_, ?_⟩
  · exact List.rel_append inv.written (.cons genuine .nil)
  · simp [Receiver.consume, inv.content, genuine.take_payload]
  · simp [Receiver.consume, inv.head]
  · intro m inside
    rw [List.getElem_append]
    split
    · exact inv.turn m _
    · rename_i last
      have : m = chunks.length := by
        simp only [List.length_append, List.length_singleton] at inside
        omega
      simp [this, headResidue]
  · rw [List.pairwise_append]
    refine ⟨inv.growing, List.pairwise_singleton _ _, ?_⟩
    intro a member b only same
    rw [List.mem_singleton.mp only] at same ⊢
    exact later a member (same.trans residue)
  · intro c member
    simp only [Receiver.consume]
    by_cases same : c % cfg.WINDOW_SIZE = r.i
    · rw [same, Function.update_self]
      simp only [genuine.noBytesToSend]
      rcases List.mem_append.mp member with old | new
      · exact_mod_cast chunkEnd_mono (later c old same).le
      · rw [List.mem_singleton.mp new]
    · rw [Function.update_of_ne same]
      rcases List.mem_append.mp member with old | new
      · exact inv.past c old
      · exact absurd ((List.mem_singleton.mp new) ▸ residue) same
  · intro j inside waits
    simp only [Receiver.consume] at waits ⊢
    by_cases same : j = r.i
    · simp [same] at waits
    · rw [Function.update_of_ne same] at waits ⊢
      obtain ⟨g', residue', genuine', later'⟩ := inv.waiting j inside waits
      refine ⟨g', residue', genuine', ?_⟩
      intro c member residueC
      rcases List.mem_append.mp member with old | new
      · exact later' c old residueC
      · rw [List.mem_singleton.mp new] at residueC
        exact absurd (residueC.symm.trans residue) same
  · simp only [Receiver.consume, genuine.noBytesToSend]
    exact ⟨by omega, by exact_mod_cast chunkEnd_le file g⟩
  · intro first
    simp [Receiver.consume, begun] at first
  · simp only [Receiver.consume, inv.count, List.length_append,
      List.length_singleton]
    push_cast
    ring

/-- The written chunks visit the residue classes in turn. -/
theorem visits (inv : SlotOrder cfg file chunks r) :
    RoundRobin.Visits cfg.WINDOW_SIZE (packetCount file) chunks.length
      (fun m => chunks.getD m 0) where
  below := by
    intro m inside
    rw [List.getD_eq_getElem _ _ inside]
    have inside' : m < r.written.length := inv.length_written ▸ inside
    exact (List.Forall₂.get inv.written inside inside').inside
  residue := by
    intro m inside
    rw [List.getD_eq_getElem _ _ inside]
    exact inv.turn m inside
  increasing := by
    intro m inside
    rw [List.getD_eq_getElem _ _ (by omega), List.getD_eq_getElem _ _ inside]
    apply List.pairwise_iff_getElem.mp inv.growing m (m + cfg.WINDOW_SIZE)
      (by omega) inside (by have := cfg.windowPos; omega)
    rw [inv.turn m (by omega), inv.turn _ inside, Nat.add_mod_right]

/-- No chunk is written twice, so there are at most as many writes as chunks. -/
theorem length_le (inv : SlotOrder cfg file chunks r) :
    chunks.length ≤ packetCount file :=
  inv.visits.length_le cfg.windowPos

/-- As many writes as chunks leave no chunk out of place. -/
theorem complete (inv : SlotOrder cfg file chunks r)
    (all : packetCount file ≤ chunks.length) : r.file = file := by
  have length : chunks.length = packetCount file :=
    Nat.le_antisymm inv.length_le all
  have visits := inv.visits
  rw [length] at visits
  have inOrder : chunks = List.range (packetCount file) := by
    apply List.ext_getElem (by simp [length])
    intro m inside _
    have := visits.eq_self cfg.windowPos m (by omega)
    rw [List.getD_eq_getElem _ _ inside] at this
    simp [this]
  rw [inv.content, inOrder, flatMap_chunk_range, take_packetCount]

/-- A short `fwrite` leaves `size_received` inside the file. -/
theorem shortWrite_size (inv : SlotOrder cfg file chunks r)
    (received : (r.window r.i).received = true) (numWrite : ℕ) :
    0 ≤ (r.shortWrite numWrite).sizeReceived ∧
      (r.shortWrite numWrite).sizeReceived ≤ file.length := by
  obtain ⟨g, _, genuine, _⟩ := inv.waiting r.i inv.head_lt received
  simp only [Receiver.shortWrite, genuine.noBytesToSend]
  exact ⟨by omega, by exact_mod_cast chunkEnd_le file g⟩

end SlotOrder

/-! ### One reaction -/

/-- The acknowledgment names chunk `g` and a position inside the file. -/
structure Acknowledges (cfg : Settings) (file : List UInt8) (g : ℕ)
    (ack : AckPacket) : Prop where
  inside : g < packetCount file
  seqNum : ack.seqNum = (g % cfg.WINDOW_SIZE : ℕ)
  size : ack.size = chunkEnd file g
  writeByte : 0 ≤ ack.writeByte ∧ ack.writeByte ≤ file.length

/-- What `receive_data_from_sender` leaves behind when it has reacted to a
genuine packet. -/
inductive Reacted (cfg : Settings) (file : List UInt8) (fwrite : ℕ → ℕ)
    (chunks : List ℕ) (r : Receiver) : Prop where
  | running (more : List ℕ) (order : SlotOrder cfg file (chunks ++ more) r)
      (begun : r.isFirst = false) (result : r.result = none)
      (left : 0 < r.noPacketsToReceive)
  | finished (more : List ℕ) (order : SlotOrder cfg file (chunks ++ more) r)
      (begun : r.isFirst = false) (result : r.result = some EXIT_SUCCESS)
      (left : r.noPacketsToReceive ≤ 0)
  | short (k : ℕ) (incomplete : fwrite k < PACKET_SIZE)
      (begun : r.isFirst = false) (result : r.result = some WRITE_BYTE_ERROR)
      (size : 0 ≤ r.sizeReceived ∧ r.sizeReceived ≤ file.length)

/-- The acknowledgment at the end of the loop body changes flags only. -/
theorem Receiver.acknowledge_fields (r : Receiver) (packet : Packet)
    (send : SendResult) :
    (r.acknowledge packet send).1.written = r.written ∧
    (r.acknowledge packet send).1.file = r.file ∧
    (r.acknowledge packet send).1.i = r.i ∧
    (r.acknowledge packet send).1.sizeReceived = r.sizeReceived ∧
    (r.acknowledge packet send).1.isFirst = r.isFirst ∧
    (r.acknowledge packet send).1.noPacketsToReceive = r.noPacketsToReceive ∧
    ∀ j, ∃ sent ack, (r.acknowledge packet send).1.window j =
      { r.window j with sent := sent, ack := ack } := by
  have looped : ∀ q : Receiver, q.loopCondition.window = q.window ∧
      q.loopCondition.written = q.written ∧ q.loopCondition.file = q.file ∧
      q.loopCondition.i = q.i ∧
      q.loopCondition.sizeReceived = q.sizeReceived ∧
      q.loopCondition.isFirst = q.isFirst ∧
      q.loopCondition.noPacketsToReceive = q.noPacketsToReceive := by
    intro q
    unfold Receiver.loopCondition
    split <;> exact ⟨rfl, rfl, rfl, rfl, rfl, rfl, rfl⟩
  simp only [Receiver.acknowledge, looped]
  refine ⟨?_, ?_, ?_, ?_, ?_, ?_, ?_⟩
  rotate_right
  · intro j
    split
    · exact ⟨_, _, rfl⟩
    · by_cases same : j = packet.seqNum.toNat
      · subst same
        exact ⟨(r.window _).sent, true, Function.update_self _ _ _⟩
      · exact ⟨(r.window j).sent, (r.window j).ack,
          Function.update_of_ne same _ _⟩
  all_goals split <;> rfl

/-- The loop ends when no packet is left to receive. -/
theorem Receiver.acknowledge_result (r : Receiver) (packet : Packet)
    (send : SendResult) :
    (r.acknowledge packet send).1.result =
      if 0 < r.noPacketsToReceive then r.result else some EXIT_SUCCESS := by
  simp only [Receiver.acknowledge, Receiver.loopCondition]
  split_ifs <;> simp_all

namespace SlotOrder

variable {chunks : List ℕ} {r : Receiver} {g : ℕ} {packet : Packet}

theorem ackOf (inv : SlotOrder cfg file chunks r)
    (genuine : IsChunk cfg file g packet) :
    Acknowledges cfg file g (r.ackOf packet) where
  inside := genuine.inside
  seqNum := genuine.seqNum
  size := genuine.noBytesToSend
  writeByte := inv.size

theorem acknowledge (inv : SlotOrder cfg file chunks r)
    (packet : Packet) (send : SendResult) :
    SlotOrder cfg file chunks (r.acknowledge packet send).1 := by
  obtain ⟨written, content, head, size, isFirst, count, slots⟩ :=
    r.acknowledge_fields packet send
  exact inv.of_fields written content head size isFirst count slots

/-- The inner loop writes the chunks at the head of the window. -/
theorem processAvailable (inv : SlotOrder cfg file chunks r)
    (begun : r.isFirst = false) (running : r.result = none)
    (fwrite : ℕ → ℕ) :
    ∃ r', processAvailable cfg fwrite cfg.WINDOW_SIZE r = some r' ∧
      ((∃ more, SlotOrder cfg file (chunks ++ more) r' ∧ r'.isFirst = false ∧
          r'.result = none) ∨
        ((∃ k, fwrite k < PACKET_SIZE) ∧ r'.isFirst = false ∧
          r'.result = some WRITE_BYTE_ERROR ∧
          0 ≤ r'.sizeReceived ∧ r'.sizeReceived ≤ file.length)) := by
  have rule : LoopInvariant cfg fun _ r' =>
      (∃ more, SlotOrder cfg file (chunks ++ more) r') ∧ r'.isFirst = false := by
    refine ⟨fun ⟨⟨_, order⟩, _⟩ => order.head_lt, ?_, ?_⟩
    · rintro _ r' ⟨⟨_, order⟩, _⟩ received
      obtain ⟨_, _, genuine, _⟩ := order.waiting r'.i order.head_lt received
      exact genuine.size_mem
    · rintro _ r' ⟨⟨more, order⟩, begun'⟩ received
      obtain ⟨g, _, next⟩ := order.consume received begun'
      exact ⟨⟨more ++ [g], List.append_assoc _ _ _ ▸ next⟩, begun'⟩
  obtain ⟨r', runs, rest⟩ := processAvailable_spec rule fwrite
    cfg.WINDOW_SIZE 0 r ⟨⟨[], (List.append_nil _).symm ▸ inv⟩, begun⟩
  refine ⟨r', runs, ?_⟩
  rcases rest with ⟨_, _, ⟨⟨more, order⟩, begun'⟩, same, _⟩ |
    ⟨_, before, ⟨⟨more, order⟩, begun'⟩, received, incomplete, rfl⟩
  · exact .inl ⟨more, order, begun', same.trans running⟩
  · obtain ⟨_, _, genuine, _⟩ := order.waiting before.i order.head_lt received
    have bound := genuine.size_mem.2
    exact .inr ⟨⟨before.written.length, by omega⟩, begun', rfl,
      order.shortWrite_size received _⟩

/-- `receive_data_from_sender` is defined on every genuine packet, and answers
with nothing but acknowledgments of the chunk it carries. -/
theorem receive (inv : SlotOrder cfg file chunks r)
    (running : r.result = none)
    (live : r.isFirst = false → 0 < r.noPacketsToReceive)
    (genuine : IsChunk cfg file g packet)
    (count : r.isFirst = true → packet.noPacketsToSend = packetCount file)
    (fwrite : ℕ → ℕ) (send : SendResult) :
    ∃ r' acks, receiveDataFromSender cfg fwrite send r packet =
        some (r', acks) ∧
      acks.length ≤ 1 ∧ (∀ ack ∈ acks, Acknowledges cfg file g ack) ∧
      Reacted cfg file fwrite chunks r' := by
  have noted := inv.noteFirst count
  obtain ⟨_, _, _, _, result, begun⟩ := r.noteFirst_fields packet
  have running' : (r.noteFirst packet).result = none := result.trans running
  have left : 0 < (r.noteFirst packet).noPacketsToReceive := by
    unfold Receiver.noteFirst
    split
    · rename_i first
      have := genuine.inside
      simp only [count first]
      omega
    · exact live (by simpa using ‹¬ r.isFirst = true›)
  rw [receiveDataFromSender, if_neg genuine.seqNum_ne_error,
    if_neg (Int.not_le.mpr genuine.seqNum_lt),
    if_neg (Int.not_lt.mpr genuine.seqNum_nonneg)]
  simp only
  split
  · refine ⟨_, _, rfl, send.length_emit _, ?_,
      .running [] ?_ begun running' left⟩
    · intro ack member
      rw [SendResult.mem_emit member]
      exact noted.ackOf genuine
    · exact (List.append_nil _).symm ▸
        noted.of_fields rfl rfl rfl rfl rfl rfl (fun j => ⟨_, _, rfl⟩)
  · rename_i fresh
    obtain ⟨processed, runs, outcome⟩ :=
      (noted.store genuine fresh).processAvailable begun running' fwrite
    rw [runs]
    rcases outcome with ⟨more, order, begun', running''⟩ |
      ⟨⟨k, incomplete⟩, begun', result, size⟩
    · simp only [running'', Option.isSome_none, Bool.false_eq_true, if_false]
      refine ⟨_, _, rfl, send.length_emit _, ?_, ?_⟩
      · intro ack member
        rw [SendResult.mem_emit member]
        exact order.ackOf genuine
      · obtain ⟨_, _, _, _, sameFirst, sameCount, _⟩ :=
          processed.acknowledge_fields packet send
        have ended := processed.acknowledge_result packet send
        rw [← sameCount] at ended
        split at ended
        · rename_i left
          exact .running more (order.acknowledge packet send)
            (sameFirst.trans begun') (ended.trans running'') left
        · rename_i left
          exact .finished more (order.acknowledge packet send)
            (sameFirst.trans begun') ended (Int.not_lt.mp left)
    · simp only [result, Option.isSome_some, if_true]
      exact ⟨_, _, rfl, by simp, by simp,
        .short k incomplete begun' result size⟩

end SlotOrder

/-! ### Packets in the wrong order -/

/-- The four packets through a window of two slots: they overtake each other, and the
first one comes again while its slot holds another. -/
def overtaken : List Reception :=
  [1, 0, 0, 2, 0, 3].map fun g =>
    ⟨filledPacket (chunk fourPackets g) (g % narrow.WINDOW_SIZE : ℕ) 4
      (chunkEnd fourPackets g), .sent⟩

theorem overtaken_genuine :
    ∀ d ∈ overtaken, ∃ g, IsChunk narrow fourPackets g d.packet := by
  intro d member
  obtain ⟨g, listed, rfl⟩ := List.mem_map.mp member
  have inside : ∀ g ∈ [1, 0, 0, 2, 0, 3], g < packetCount fourPackets := by
    rw [packetCount_fourPackets]
    decide
  exact ⟨g, inside g listed, rfl, rfl, rfl, rfl⟩

end Spqr
