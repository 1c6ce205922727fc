/-
Module: Spqr.WriteOrder
Purpose: The packets that `receive_data_from_sender` writes when genuine packets
  arrive in any order, whatever number of packets they announce.
Trusted boundary: none
Main exports:
  ConsumedInTurn, completeWrites, Ordered, Ordered.receive, consumption_in_turn
-/
import Spqr.ReceiverWindow

namespace Spqr

variable {cfg : Settings} {file : List UInt8}

/-! ### The statement -/

/-- The packets written carry `chunks`: none twice, each from the slot whose turn it
is, and with growing offsets from one slot. -/
structure ConsumedInTurn (cfg : Settings) (file : List UInt8) (chunks : List ℕ)
    (written : List Packet) : Prop where
  genuine : List.Forall₂ (IsChunk cfg file) chunks written
  once : chunks.Nodup
  turn : ∀ m (inside : m < written.length),
    written[m].seqNum = (m % cfg.WINDOW_SIZE : ℕ)
  growing : written.Pairwise fun earlier later =>
    earlier.seqNum = later.seqNum → earlier.noBytesToSend < later.noBytesToSend

/-- The number of packets written whole: a write that comes up short is the last
one. -/
def completeWrites (r : Receiver) : ℕ :=
  if r.result = some WRITE_BYTE_ERROR then r.written.length - 1 else r.written.length

/-- `no_packets_to_send` of the first packet. -/
def firstAnnounced (ds : List Reception) : ℤ :=
  (ds.head?.map fun d => d.packet.noPacketsToSend).getD 0

/-! ### The invariant -/

/-- The receiver with the count that the packets of `file` would announce. -/
def Receiver.recount (file : List UInt8) (r : Receiver) : Receiver :=
  { r with
    noPacketsToReceive :=
      (if r.isFirst then 0 else (packetCount file : ℤ)) - r.written.length }

/-- The slots are in order, and the count is that of the first packet, `first`, less
the packets written. -/
structure Ordered (cfg : Settings) (file : List UInt8) (first : ℤ) (chunks : List ℕ)
    (r : Receiver) : Prop where
  order : SlotOrder cfg file chunks (r.recount file)
  left : r.noPacketsToReceive = (if r.isFirst then 0 else first) - chunks.length

/-- What the order of the slots says of the packets written. -/
theorem SlotOrder.inTurn {chunks : List ℕ} {r : Receiver}
    (order : SlotOrder cfg file chunks r) : ConsumedInTurn cfg file chunks r.written := by
  have slot : ∀ m (inside : m < r.written.length) (inside' : m < chunks.length),
      IsChunk cfg file chunks[m] r.written[m] :=
    fun m inside inside' => order.written.get inside' inside
  refine ⟨order.written, ?_, fun m inside => ?_, ?_⟩
  · apply order.growing.imp
    rintro a b less rfl
    exact lt_irrefl a (less rfl)
  · have inside' : m < chunks.length := order.length_written ▸ inside
    rw [(slot m inside inside').seqNum, order.turn m inside']
  · rw [List.pairwise_iff_getElem]
    intro m n insideM insideN before same
    have insideM' : m < chunks.length := order.length_written ▸ insideM
    have insideN' : n < chunks.length := order.length_written ▸ insideN
    have one := slot m insideM insideM'
    have two := slot n insideN insideN'
    rw [one.seqNum, two.seqNum] at same
    have less := List.pairwise_iff_getElem.mp order.growing m n insideM' insideN' before
      (by exact_mod_cast same)
    rw [one.noBytesToSend, two.noBytesToSend]
    exact_mod_cast chunkEnd_lt less two.inside

namespace Ordered

variable {first : ℤ} {chunks : List ℕ} {r : Receiver} {packet : Packet} {g : ℕ}

theorem initial (cfg : Settings) (file : List UInt8) (first : ℤ) :
    Ordered cfg file first [] Receiver.initial := by
  refine ⟨?_, rfl⟩
  exact (SlotOrder.initial cfg file).of_fields rfl rfl rfl rfl rfl rfl
    fun j => ⟨_, _, rfl⟩

/-- Nothing that the invariant does not mention matters, nor do the flags of the
slots. -/
theorem of_fields {r' : Receiver} (inv : Ordered cfg file first chunks r)
    (written : r'.written = r.written) (content : r'.file = r.file)
    (head : r'.i = r.i) (size : r'.sizeReceived = r.sizeReceived)
    (isFirst : r'.isFirst = r.isFirst)
    (count : r'.noPacketsToReceive = r.noPacketsToReceive)
    (slots : ∀ j, ∃ sent ack,
      r'.window j = { r.window j with sent := sent, ack := ack }) :
    Ordered cfg file first chunks r' := by
  refine ⟨inv.order.of_fields written content head size isFirst ?_ slots, ?_⟩
  · simp only [Receiver.recount, isFirst, written]
  · rw [count, isFirst, inv.left]

theorem noteFirst (inv : Ordered cfg file first chunks r)
    (announces : r.isFirst = true → packet.noPacketsToSend = first) :
    Ordered cfg file first chunks (r.noteFirst packet) := by
  unfold Receiver.noteFirst
  split
  · rename_i begins
    have order := inv.order
    have none : chunks = [] := order.untouched begins
    have unwritten : r.written.length = chunks.length := order.length_written
    refine ⟨⟨order.written, order.content, order.head, order.turn, order.growing,
      order.past, order.waiting, order.size, by simp [Receiver.recount], ?_⟩, ?_⟩
    · simp only [Receiver.recount, unwritten]
    · simp [announces begins, none]
  · exact inv

theorem store (inv : Ordered cfg file first chunks r)
    (genuine : IsChunk cfg file g packet) (fresh : ¬ r.duplicate packet) :
    Ordered cfg file first chunks (r.store packet) :=
  ⟨inv.order.store genuine fresh, inv.left⟩

theorem consume (inv : Ordered cfg file first chunks r)
    (received : (r.window r.i).received = true) (begun : r.isFirst = false) :
    ∃ g, IsChunk cfg file g (r.window r.i) ∧
      Ordered cfg file first (chunks ++ [g]) (r.consume cfg) := by
  obtain ⟨g, genuine, next⟩ := inv.order.consume received begun
  refine ⟨g, genuine, ?_, ?_⟩
  · refine next.of_fields rfl rfl rfl rfl rfl ?_ fun j => ⟨_, _, rfl⟩
    simp only [Receiver.recount, Receiver.consume, List.length_append,
      List.length_singleton, Nat.cast_add, Nat.cast_one, begun]
    omega
  · simp only [Receiver.consume, inv.left, List.length_append, List.length_singleton,
      Nat.cast_add, Nat.cast_one]
    omega

theorem acknowledge (inv : Ordered cfg file first chunks r) (packet : Packet)
    (send : SendResult) : Ordered cfg file first chunks (r.acknowledge packet send).1 := by
  obtain ⟨written, content, head, size, isFirst, count, slots⟩ :=
    r.acknowledge_fields packet send
  exact inv.of_fields written content head size isFirst count slots

end Ordered

/-! ### One reaction -/

/-- What holds at each `recvfrom` after the first packet, and on return. -/
inductive Consumed (cfg : Settings) (file : List UInt8) (first : ℤ) (r : Receiver) :
    Prop where
  | whole (chunks : List ℕ) (ordered : Ordered cfg file first chunks r)
      (begun : r.isFirst = false) (result : r.result ≠ some WRITE_BYTE_ERROR)
  | short (before : Receiver) (chunks : List ℕ) (numWrite : ℕ)
      (ordered : Ordered cfg file first chunks before) (begun : before.isFirst = false)
      (received : (before.window before.i).received = true)
      (cut : r = before.shortWrite numWrite)

namespace Consumed

variable {first : ℤ} {r : Receiver}

theorem inTurn (consumed : Consumed cfg file first r) :
    (∃ chunks, ConsumedInTurn cfg file chunks r.written) ∧
      r.noPacketsToReceive = first - completeWrites r := by
  cases consumed with
  | whole chunks ordered begun result =>
      have unwritten : r.written.length = chunks.length := ordered.order.length_written
      refine ⟨⟨chunks, ordered.order.inTurn⟩, ?_⟩
      rw [completeWrites, if_neg result, ordered.left, begun, unwritten]
      rfl
  | short before chunks numWrite ordered begun received cut =>
      obtain ⟨g, genuine, next⟩ := ordered.consume received begun
      have unwritten : before.written.length = chunks.length :=
        ordered.order.length_written
      subst cut
      refine ⟨⟨chunks ++ [g], next.order.inTurn⟩, ?_⟩
      have count : before.noPacketsToReceive = first - chunks.length := by
        rw [ordered.left, begun]
        rfl
      simp [completeWrites, Receiver.shortWrite, count, unwritten]

end Consumed

/-- The inner loop writes chunks in turn until a slot is empty, or a write comes up
short. -/
theorem Ordered.processAvailable {first : ℤ} {chunks : List ℕ} {r : Receiver}
    (inv : Ordered cfg file first chunks r) (begun : r.isFirst = false)
    (running : r.result = none) (fwrite : ℕ → ℕ) :
    ∃ r', processAvailable cfg fwrite cfg.WINDOW_SIZE r = some r' ∧
      ((∃ chunks', Ordered cfg file first chunks' r' ∧ r'.isFirst = false ∧
          r'.result = none) ∨
        r'.result = some WRITE_BYTE_ERROR ∧ Consumed cfg file first r') := by
  have rule : LoopInvariant cfg fun _ r' =>
      (∃ chunks', Ordered cfg file first chunks' r') ∧ r'.isFirst = false := by
    refine ⟨?_, ?_, ?_⟩
    · rintro _ r' ⟨⟨_, ordered⟩, _⟩
      exact ordered.order.head_lt
    · rintro _ r' ⟨⟨_, ordered⟩, _⟩ received
      obtain ⟨_, _, genuine, _⟩ := ordered.order.waiting r'.i ordered.order.head_lt received
      exact genuine.size_mem
    · rintro _ r' ⟨⟨chunks', ordered⟩, begun'⟩ received
      obtain ⟨g, _, next⟩ := ordered.consume received begun'
      exact ⟨⟨chunks' ++ [g], next⟩, begun'⟩
  obtain ⟨r', runs, rest⟩ := processAvailable_spec rule fwrite cfg.WINDOW_SIZE 0 r
    ⟨⟨chunks, inv⟩, begun⟩
  refine ⟨r', runs, ?_⟩
  rcases rest with ⟨_, _, ⟨⟨chunks', ordered⟩, begun'⟩, same, _⟩ |
    ⟨_, before, ⟨⟨chunks', ordered⟩, begun'⟩, received, _, rfl⟩
  · exact .inl ⟨chunks', ordered, begun', same.trans running⟩
  · exact .inr ⟨rfl, .short before chunks' _ ordered begun' received rfl⟩

/-- A genuine packet, whatever it announces and whatever was received before it. -/
theorem Ordered.receive {first : ℤ} {chunks : List ℕ} {r : Receiver} {packet : Packet}
    {g : ℕ} (inv : Ordered cfg file first chunks r) (running : r.result = none)
    (genuine : IsChunk cfg file g packet)
    (announces : r.isFirst = true → packet.noPacketsToSend = first) (fwrite : ℕ → ℕ)
    (send : SendResult) :
    ∃ r' acks, receiveDataFromSender cfg fwrite send r packet = some (r', acks) ∧
      Consumed cfg file first r' := by
  have noted := inv.noteFirst announces
  obtain ⟨_, _, _, _, result, begun⟩ := r.noteFirst_fields packet
  have running' : (r.noteFirst packet).result = none := result.trans running
  rw [receiveDataFromSender, if_neg genuine.seqNum_ne_error,
    if_neg (Int.not_le.mpr genuine.seqNum_lt),
    if_neg (Int.not_lt.mpr genuine.seqNum_nonneg)]
  simp only
  split
  · have kept : Ordered cfg file first chunks
        { r.noteFirst packet with newPacket := packet } :=
      noted.of_fields rfl rfl rfl rfl rfl rfl fun j => ⟨_, _, rfl⟩
    have complete : (r.noteFirst packet).result ≠ some WRITE_BYTE_ERROR := by
      simp [running']
    exact ⟨_, _, rfl, .whole chunks kept begun complete⟩
  · rename_i fresh
    obtain ⟨processed, runs, outcome⟩ :=
      (noted.store genuine fresh).processAvailable begun running' fwrite
    rw [runs]
    rcases outcome with ⟨chunks', ordered, begun', running''⟩ | ⟨cut, consumed⟩
    · simp only [running'', Option.isSome_none, Bool.false_eq_true, if_false]
      obtain ⟨_, _, _, _, sameFirst, _, _⟩ := processed.acknowledge_fields packet send
      have ended := processed.acknowledge_result packet send
      have acked := ordered.acknowledge packet send
      have complete : (processed.acknowledge packet send).1.result ≠
          some WRITE_BYTE_ERROR := by
        rw [ended, running'']
        split_ifs <;> decide
      exact ⟨_, _, rfl, .whole chunks' acked (sameFirst.trans begun') complete⟩
    · simp only [cut, Option.isSome_some, if_true]
      exact ⟨_, _, rfl, consumed⟩

/-! ### Whole sequences -/

/-- After the first packet. -/
theorem Consumed.run {first : ℤ} {r : Receiver} {ds : List Reception}
    (genuine : ∀ d ∈ ds, ∃ g, IsChunk cfg file g d.packet) (fwrite : ℕ → ℕ)
    (consumed : Consumed cfg file first r) :
    ∃ r' acks, receiveSequence cfg fwrite r ds = some (r', acks) ∧
      Consumed cfg file first r' := by
  induction ds generalizing r with
  | nil => exact ⟨r, [], rfl, consumed⟩
  | cons d ds ih =>
      rw [receiveSequence]
      split_ifs with returned
      · exact ⟨r, [], rfl, consumed⟩
      · have running : r.result = none := by simpa using returned
        cases consumed with
        | short before chunks numWrite ordered begun received cut =>
            simp [cut, Receiver.shortWrite] at running
        | whole chunks ordered begun result =>
            obtain ⟨g, isChunk⟩ := genuine d List.mem_cons_self
            obtain ⟨after, acks, reacts, next⟩ :=
              ordered.receive running isChunk (by simp [begun]) fwrite d.send
            obtain ⟨last, later, runs, consumed⟩ :=
              ih (fun d' member => genuine d' (List.mem_cons_of_mem _ member)) next
            exact ⟨last, acks ++ later, by simp [reacts, runs], consumed⟩

/-- However genuine packets of a file arrive, no chunk is written twice, the writes
come from the slots in turn and with growing offsets from each, and the count is that
of the first packet less the packets written. -/
theorem consumption_in_turn (fwrite : ℕ → ℕ) {ds : List Reception}
    (genuine : ∀ d ∈ ds, ∃ g, IsChunk cfg file g d.packet) :
    ∃ r acks, receiveSequence cfg fwrite .initial ds = some (r, acks) ∧
      (∃ chunks, ConsumedInTurn cfg file chunks r.written) ∧
        r.noPacketsToReceive = firstAnnounced ds - completeWrites r := by
  cases ds with
  | nil =>
      exact ⟨.initial, [], rfl, ⟨[], (SlotOrder.initial cfg file).inTurn⟩, rfl⟩
  | cons d ds =>
      obtain ⟨g, isChunk⟩ := genuine d List.mem_cons_self
      obtain ⟨after, acks, reacts, next⟩ :=
        (Ordered.initial cfg file d.packet.noPacketsToSend).receive rfl isChunk
          (fun _ => rfl) fwrite d.send
      obtain ⟨last, later, runs, consumed⟩ :=
        next.run (fun d' member => genuine d' (List.mem_cons_of_mem _ member)) fwrite
      refine ⟨last, acks ++ later, ?_, consumed.inTurn⟩
      have running : Receiver.initial.result = none := rfl
      simp [receiveSequence, running, reacts, runs]

theorem consumption_in_turn_overtaken :
    ∃ r acks, receiveSequence narrow (fun _ => PACKET_SIZE) .initial overtaken =
        some (r, acks) ∧
      (∃ chunks, ConsumedInTurn narrow fourPackets chunks r.written) ∧
        r.noPacketsToReceive = firstAnnounced overtaken - completeWrites r :=
  consumption_in_turn _ overtaken_genuine

end Spqr
