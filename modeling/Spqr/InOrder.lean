/-
Module: Spqr.InOrder
Purpose: A receiver that is offered no chunk from beyond the sender's window
  writes the chunks of the file one after the other.
Trusted boundary: none
Main exports:
  Receiver.Has, InOrder, InOrder.receive
-/
import Spqr.ReceiverWindow

namespace Spqr

variable {cfg : Settings} {file : List UInt8}

/-- The receiver has written chunk `g` or buffers it in its window. -/
def Receiver.Has (cfg : Settings) (file : List UInt8) (r : Receiver) (g : ℕ) :
    Prop :=
  (∃ packet ∈ r.written, IsChunk cfg file g packet) ∨
    ((r.window (g % cfg.WINDOW_SIZE)).received = true ∧
      IsChunk cfg file g (r.window (g % cfg.WINDOW_SIZE)))

namespace Receiver.Has

variable {r : Receiver} {g : ℕ}

/-- Neither the other fields nor the flags `sent` and `ack` matter. -/
theorem of_fields {r' : Receiver} (has : r.Has cfg file g)
    (written : r'.written = r.written)
    (slots : ∀ j, ∃ sent ack,
      r'.window j = { r.window j with sent := sent, ack := ack }) :
    r'.Has cfg file g := by
  obtain ⟨_, _, eq⟩ := slots (g % cfg.WINDOW_SIZE)
  rcases has with old | ⟨received, genuine⟩
  · exact .inl (written ▸ old)
  · refine .inr ⟨?_, ?_⟩
    · rw [eq]
      exact received
    · rw [eq]
      exact genuine.of_fields rfl rfl rfl rfl

theorem iff_of_fields {r' : Receiver} (written : r'.written = r.written)
    (slots : ∀ j, ∃ sent ack,
      r'.window j = { r.window j with sent := sent, ack := ack }) (g : ℕ) :
    r'.Has cfg file g ↔ r.Has cfg file g := by
  refine ⟨fun has => has.of_fields written.symm fun j => ?_,
    fun has => has.of_fields written slots⟩
  obtain ⟨_, _, eq⟩ := slots j
  exact ⟨(r.window j).sent, (r.window j).ack, by rw [eq]⟩

/-- Storing into a free slot loses nothing. -/
theorem store (has : r.Has cfg file g) {packet : Packet}
    (free : (r.window packet.seqNum.toNat).received = false) :
    (r.store packet).Has cfg file g := by
  rcases has with old | ⟨received, genuine⟩
  · exact .inl old
  · have other : g % cfg.WINDOW_SIZE ≠ packet.seqNum.toNat := by
      intro same
      rw [same, free] at received
      exact absurd received (by decide)
    refine .inr ⟨?_, ?_⟩ <;>
      simp only [Receiver.store, Function.update_of_ne other]
    · exact received
    · exact genuine

theorem stored {packet : Packet} (genuine : IsChunk cfg file g packet) :
    (r.store packet).Has cfg file g := by
  refine .inr ⟨?_, ?_⟩ <;>
    simp only [Receiver.store, genuine.toNat_seqNum, Function.update_self]
  exact genuine.of_fields rfl rfl rfl rfl

/-- Writing the head of the window loses nothing. -/
theorem consume (has : r.Has cfg file g) : (r.consume cfg).Has cfg file g := by
  rcases has with ⟨packet, old, genuine⟩ | ⟨received, genuine⟩
  · exact .inl ⟨packet, List.mem_append_left _ old, genuine⟩
  · by_cases atHead : g % cfg.WINDOW_SIZE = r.i
    · refine .inl ⟨r.window r.i, by simp [Receiver.consume], ?_⟩
      rwa [← atHead]
    · refine .inr ⟨?_, ?_⟩ <;>
        simp only [Receiver.consume, Function.update_of_ne atHead]
      · exact received
      · exact genuine

/-- A stored packet adds the chunk it carries and no other. -/
theorem of_store {packet : Packet} {h : ℕ} (chunk : IsChunk cfg file h packet)
    (has : (r.store packet).Has cfg file g) : r.Has cfg file g ∨ g = h := by
  rcases has with old | ⟨received, genuine⟩
  · exact .inl (.inl old)
  · simp only [Receiver.store, chunk.toNat_seqNum] at received genuine
    by_cases same : g % cfg.WINDOW_SIZE = h % cfg.WINDOW_SIZE
    · rw [same, Function.update_self] at genuine
      exact .inr (genuine.unique (chunk.of_fields rfl rfl rfl rfl))
    · rw [Function.update_of_ne same] at received genuine
      exact .inl (.inr ⟨received, genuine⟩)

/-- Writing the head of the window adds none. -/
theorem of_consume {h : ℕ} (received : (r.window r.i).received = true)
    (head : h % cfg.WINDOW_SIZE = r.i)
    (chunk : IsChunk cfg file h (r.window r.i))
    (has : (r.consume cfg).Has cfg file g) : r.Has cfg file g := by
  rcases has with ⟨packet, member, genuine⟩ | ⟨received', genuine⟩
  · rcases List.mem_append.mp member with old | new
    · exact .inl ⟨packet, old, genuine⟩
    · rw [List.mem_singleton.mp new] at genuine
      rw [genuine.unique chunk]
      refine .inr ⟨?_, ?_⟩ <;> rw [head]
      · exact received
      · exact chunk
  · simp only [Receiver.consume] at received' genuine
    by_cases atHead : g % cfg.WINDOW_SIZE = r.i
    · simp [atHead] at received'
    · rw [Function.update_of_ne atHead] at received' genuine
      exact .inr ⟨received', genuine⟩

end Receiver.Has

/-- The first `n` chunks have been written in order, and those that wait lie
before `limit`, at most one window further on. -/
structure InOrder (cfg : Settings) (file : List UInt8) (n limit : ℕ)
    (r : Receiver) : Prop where
  order : SlotOrder cfg file (List.range n) r
  position : r.sizeReceived = (min (PACKET_SIZE * n) file.length : ℕ)
  lower : n ≤ limit
  upper : limit ≤ n + cfg.WINDOW_SIZE
  near : ∀ g, (r.window (g % cfg.WINDOW_SIZE)).received = true →
    IsChunk cfg file g (r.window (g % cfg.WINDOW_SIZE)) → g < limit
  /-- A free slot has not got past what has been written. -/
  free : ∀ j < cfg.WINDOW_SIZE, (r.window j).received = false →
    (r.window j).noBytesToSend ≤ r.sizeReceived

namespace InOrder

variable {n limit g : ℕ} {r : Receiver} {packet : Packet}

theorem initial (cfg : Settings) (file : List UInt8) (limit : ℕ)
    (upper : limit ≤ cfg.WINDOW_SIZE) :
    InOrder cfg file 0 limit Receiver.initial where
  order := .initial cfg file
  position := by simp [Receiver.initial]
  lower := Nat.zero_le _
  upper := by omega
  near := by simp [Receiver.initial, Packet.zero]
  free := by simp [Receiver.initial, Packet.zero]

theorem mono (inv : InOrder cfg file n limit r) {limit' : ℕ}
    (further : limit ≤ limit') (upper : limit' ≤ n + cfg.WINDOW_SIZE) :
    InOrder cfg file n limit' r where
  order := inv.order
  position := inv.position
  lower := inv.lower.trans further
  upper := upper
  near := fun g received genuine => (inv.near g received genuine).trans_le further
  free := inv.free

theorem of_fields {r' : Receiver} (inv : InOrder cfg file n limit r)
    (order : SlotOrder cfg file (List.range n) r')
    (size : r'.sizeReceived = r.sizeReceived)
    (slots : ∀ j, ∃ sent ack,
      r'.window j = { r.window j with sent := sent, ack := ack }) :
    InOrder cfg file n limit r' where
  order := order
  position := size.trans inv.position
  lower := inv.lower
  upper := inv.upper
  near := by
    intro g received genuine
    obtain ⟨_, _, eq⟩ := slots (g % cfg.WINDOW_SIZE)
    rw [eq] at received genuine
    exact inv.near g received (genuine.of_fields rfl rfl rfl rfl)
  free := by
    intro j inside waits
    obtain ⟨_, _, eq⟩ := slots j
    rw [eq] at waits ⊢
    rw [size]
    exact inv.free j inside waits

/-- Everything before `n` has been written. -/
theorem has_of_lt (inv : InOrder cfg file n limit r) (before : g < n) :
    r.Has cfg file g := by
  have inside : g < (List.range n).length := by rwa [List.length_range]
  have inside' : g < r.written.length := by
    rwa [← inv.order.written.length_eq, List.length_range]
  have genuine := List.Forall₂.get inv.order.written inside inside'
  simp only [List.get_eq_getElem, List.getElem_range] at genuine
  exact .inl ⟨_, List.getElem_mem inside', genuine⟩

theorem written_lt (inv : InOrder cfg file n limit r)
    (member : packet ∈ r.written) (genuine : IsChunk cfg file g packet) :
    g < n := by
  obtain ⟨k, inside, rfl⟩ := List.mem_iff_getElem.mp member
  have inside' : k < (List.range n).length := by
    rwa [inv.order.written.length_eq]
  have genuine' := List.Forall₂.get inv.order.written inside' inside
  simp only [List.get_eq_getElem, List.getElem_range] at genuine'
  rw [genuine.unique genuine']
  rwa [List.length_range] at inside'

/-- What waits has not been written yet. -/
theorem le_waiting (inv : InOrder cfg file n limit r)
    (received : (r.window (g % cfg.WINDOW_SIZE)).received = true)
    (genuine : IsChunk cfg file g (r.window (g % cfg.WINDOW_SIZE))) : n ≤ g := by
  obtain ⟨g', _, genuine', later⟩ :=
    inv.order.waiting _ (Nat.mod_lt g cfg.windowPos) received
  obtain rfl := genuine.unique genuine'
  by_contra before
  exact absurd (later g (List.mem_range.mpr (Nat.not_le.mp before)) rfl)
    (Nat.lt_irrefl g)

theorem has_lt (inv : InOrder cfg file n limit r) (has : r.Has cfg file g) :
    g < limit := by
  rcases has with ⟨packet, member, genuine⟩ | ⟨received, genuine⟩
  · exact (inv.written_lt member genuine).trans_le inv.lower
  · exact inv.near g received genuine

/-- The receiver lacks the chunk that its empty head slot stands for. -/
theorem not_has (inv : InOrder cfg file n limit r)
    (idle : (r.window r.i).received = false) : ¬ r.Has cfg file n := by
  rintro (⟨packet, member, genuine⟩ | ⟨received, _⟩)
  · exact absurd (inv.written_lt member genuine) (Nat.lt_irrefl n)
  · have head := inv.order.head
    rw [List.length_range] at head
    rw [← head, idle] at received
    exact absurd received (by decide)

theorem store (inv : InOrder cfg file n limit r)
    (genuine : IsChunk cfg file g packet) (fresh : ¬ r.duplicate packet)
    (inside : g < limit) : InOrder cfg file n limit (r.store packet) where
  order := inv.order.store genuine fresh
  position := inv.position
  lower := inv.lower
  upper := inv.upper
  near := by
    intro h received genuine'
    simp only [Receiver.store, genuine.toNat_seqNum] at received genuine'
    by_cases same : h % cfg.WINDOW_SIZE = g % cfg.WINDOW_SIZE
    · rw [same, Function.update_self] at genuine'
      rw [genuine'.unique (genuine.of_fields rfl rfl rfl rfl)]
      exact inside
    · rw [Function.update_of_ne same] at received genuine'
      exact inv.near h received genuine'
  free := by
    intro j bound waits
    simp only [Receiver.store, genuine.toNat_seqNum] at waits ⊢
    by_cases same : j = g % cfg.WINDOW_SIZE
    · simp [same] at waits
    · rw [Function.update_of_ne same] at waits ⊢
      exact inv.free j bound waits

/-- The packet at the head of the window is the next chunk. -/
theorem head_chunk (inv : InOrder cfg file n limit r)
    (received : (r.window r.i).received = true) :
    IsChunk cfg file n (r.window r.i) := by
  have head := inv.order.head
  rw [List.length_range] at head
  obtain ⟨g, residue, genuine, _⟩ :=
    inv.order.waiting r.i inv.order.head_lt received
  rw [← residue] at received genuine
  have low := inv.le_waiting received genuine
  have high := inv.near g received genuine
  have upper := inv.upper
  have same : g = n := RoundRobin.eq_of_mod_eq low le_rfl (by omega)
    (by have := cfg.windowPos; omega) (residue.trans head)
  rw [residue] at genuine
  exact same ▸ genuine

theorem head_eq (inv : InOrder cfg file n limit r) :
    r.i = n % cfg.WINDOW_SIZE := by
  rw [inv.order.head, List.length_range]

theorem consume (inv : InOrder cfg file n limit r)
    (received : (r.window r.i).received = true) (begun : r.isFirst = false) :
    InOrder cfg file (n + 1) limit (r.consume cfg) := by
  have genuine := inv.head_chunk received
  have head := inv.order.head
  rw [List.length_range] at head
  obtain ⟨g, genuine', order⟩ := inv.order.consume received begun
  obtain rfl := genuine.unique genuine'
  have inside : n < limit := by
    rw [head] at received genuine
    exact inv.near n received genuine
  have upper := inv.upper
  refine ⟨List.range_succ ▸ order, ?_, inside, by omega, ?_, ?_⟩
  · simp only [Receiver.consume, genuine.noBytesToSend, chunkEnd]
  · intro h waits genuine''
    simp only [Receiver.consume] at waits genuine''
    by_cases atHead : h % cfg.WINDOW_SIZE = r.i
    · simp [atHead] at waits
    · rw [Function.update_of_ne atHead] at waits genuine''
      exact inv.near h waits genuine''
  · intro j bound waits
    simp only [Receiver.consume] at waits ⊢
    by_cases atHead : j = r.i
    · simp [atHead]
    · rw [Function.update_of_ne atHead] at waits ⊢
      have := inv.free j bound waits
      rw [genuine.noBytesToSend, chunkEnd]
      rw [inv.position] at this
      simp only [PACKET_SIZE] at this ⊢
      omega

/-- What the inner loop keeps, `k` chunks on. -/
theorem loopInvariant (cfg : Settings) (file : List UInt8) (n limit : ℕ)
    (r : Receiver) :
    LoopInvariant cfg fun k q => InOrder cfg file (n + k) limit q ∧
      q.isFirst = false ∧ ∀ h, q.Has cfg file h ↔ r.Has cfg file h := by
  refine ⟨fun ⟨order, _⟩ => order.order.head_lt, ?_, ?_⟩
  · rintro k q ⟨order, _⟩ received
    exact (order.head_chunk received).size_mem
  · rintro k q ⟨order, begun', has⟩ received
    refine ⟨order.consume received begun', begun', fun h => ?_⟩
    rw [← has h]
    exact ⟨.of_consume received order.head_eq.symm (order.head_chunk received),
      .consume⟩

/-- The inner loop writes the next chunks and stops at an empty slot. -/
theorem processAvailable {fwrite : ℕ → ℕ} {r' : Receiver}
    (inv : InOrder cfg file n limit r) (begun : r.isFirst = false)
    (runs : processAvailable cfg fwrite cfg.WINDOW_SIZE r = some r')
    (noShort : r'.result ≠ some WRITE_BYTE_ERROR) :
    ∃ n', n ≤ n' ∧ InOrder cfg file n' limit r' ∧ r'.result = r.result ∧
      (r'.window r'.i).received = false ∧
      ∀ h, r'.Has cfg file h ↔ r.Has cfg file h := by
  obtain ⟨r'', runs', rest⟩ := processAvailable_spec
    (loopInvariant cfg file n limit r) fwrite cfg.WINDOW_SIZE 0 r
    ⟨inv, begun, fun _ => Iff.rfl⟩
  obtain rfl := Option.some.inj (runs'.symm.trans runs)
  rcases rest with ⟨k, _, ⟨order, _, has⟩, same, stop⟩ |
    ⟨_, _, _, _, _, rfl⟩
  · refine ⟨n + k, Nat.le_add_right _ _, order, same, ?_, has⟩
    rcases stop with all | empty
    · -- a whole window has been written, so no chunk below `limit` is left
      by_contra waits
      have received := Bool.of_not_eq_false waits
      have genuine := order.head_chunk received
      have head := order.order.head
      rw [List.length_range] at head
      rw [head] at received genuine
      have near := order.near _ received genuine
      have upper := inv.upper
      omega
    · exact empty
  · exact absurd rfl noShort

/-- A packet that fails the duplicate test carries a chunk the receiver has. -/
theorem has_of_duplicate (inv : InOrder cfg file n limit r)
    (genuine : IsChunk cfg file g packet) (inside : g < limit)
    (duplicate : r.duplicate packet) : r.Has cfg file g := by
  by_cases before : g < n
  · exact inv.has_of_lt before
  have below := Nat.mod_lt g cfg.windowPos
  have upper := inv.upper
  simp only [Receiver.duplicate, genuine.toNat_seqNum] at duplicate
  by_cases received :
      (r.window (g % cfg.WINDOW_SIZE)).received = true
  · obtain ⟨h, residue, genuine', _⟩ := inv.order.waiting _ below received
    have low : n ≤ h := by
      rw [← residue] at received genuine'
      exact inv.le_waiting received genuine'
    have high : h < limit := by
      rw [← residue] at received genuine'
      exact inv.near h received genuine'
    obtain rfl : h = g := RoundRobin.eq_of_mod_eq low
      (Nat.not_lt.mp before) (by omega) (by omega) residue
    exact .inr ⟨received, genuine'⟩
  · have free := inv.free _ below (Bool.eq_false_iff.mpr received)
    rcases duplicate with waits | ahead | past
    · exact absurd waits received
    · exact absurd ahead (Int.not_lt.mpr free)
    · -- a chunk from `n` on ends past the write position
      rw [genuine.noBytesToSend, inv.position] at past
      have bound := lt_packetCount.mp genuine.inside
      simp only [chunkEnd, PACKET_SIZE] at past bound
      omega

/-- The whole reaction to a packet from the sender's window. -/
theorem receive {fwrite : ℕ → ℕ} {send : SendResult} {r' : Receiver}
    {acks : List AckPacket} (inv : InOrder cfg file n limit r)
    (running : r.result = none) (idle : (r.window r.i).received = false)
    (genuine : IsChunk cfg file g packet) (inside : g < limit)
    (count : r.isFirst = true → packet.noPacketsToSend = packetCount file)
    (reacts : receiveDataFromSender cfg fwrite send r packet = some (r', acks))
    (noShort : r'.result ≠ some WRITE_BYTE_ERROR) :
    ∃ n' ack, n ≤ n' ∧ InOrder cfg file n' limit r' ∧
      (r'.window r'.i).received = false ∧
      (∀ h, r'.Has cfg file h ↔ r.Has cfg file h ∨ h = g) ∧
      Acknowledges cfg file g ack ∧ acks = send.emit ack := by
  obtain ⟨window, head, written, size, result, begun⟩ :=
    r.noteFirst_fields packet
  have noted : InOrder cfg file n limit (r.noteFirst packet) :=
    inv.of_fields (inv.order.noteFirst count) size
      (fun j => ⟨_, _, by rw [window]⟩)
  have hasNoted : ∀ h, (r.noteFirst packet).Has cfg file h ↔ r.Has cfg file h :=
    Receiver.Has.iff_of_fields written (fun j => ⟨_, _, by rw [window]⟩)
  rcases receive_cases genuine reacts with
    ⟨duplicate, rfl, rfl⟩ | ⟨fresh, processed, runs, outcome⟩
  · refine ⟨n, _, le_rfl, ?_, ?_, ?_, noted.order.ackOf genuine, rfl⟩
    · exact noted.of_fields (noted.order.of_fields rfl rfl rfl rfl rfl rfl
        (fun j => ⟨_, _, rfl⟩)) rfl (fun j => ⟨_, _, rfl⟩)
    · rw [window, head]
      exact idle
    · intro h
      have already := noted.has_of_duplicate genuine inside duplicate
      rw [Receiver.Has.iff_of_fields rfl (fun j => ⟨_, _, rfl⟩), ← hasNoted h]
      refine ⟨.inl, fun has => has.elim id ?_⟩
      rintro rfl
      exact already
  · have free : ((r.noteFirst packet).window packet.seqNum.toNat).received =
        false := by
      simp only [Receiver.duplicate, not_or] at fresh
      exact Bool.eq_false_iff.mpr fresh.1
    have stored := noted.store genuine fresh inside
    have processedCode : processed.result ≠ some WRITE_BYTE_ERROR := by
      rcases outcome with ⟨_, rfl, _⟩ | ⟨running, _⟩
      · exact noShort
      · simp [running]
    obtain ⟨n', later, order, same, idle', has⟩ :=
      stored.processAvailable begun runs processedCode
    have running' : processed.result = none :=
      same.trans (result.trans running)
    rcases outcome with ⟨ended, _⟩ | ⟨_, eq⟩
    · simp [running'] at ended
    · obtain rfl : r' = (processed.acknowledge packet send).1 :=
        congrArg Prod.fst eq
      obtain rfl : acks = (processed.acknowledge packet send).2 :=
        congrArg Prod.snd eq
      obtain ⟨written, _, head, size, _, _, slots⟩ :=
        processed.acknowledge_fields packet send
      refine ⟨n', _, later, ?_, ?_, ?_, order.order.ackOf genuine, rfl⟩
      · exact order.of_fields (order.order.acknowledge packet send) size slots
      · obtain ⟨_, _, slot⟩ := slots processed.i
        rw [head, slot]
        exact idle'
      · intro h
        rw [Receiver.Has.iff_of_fields written slots, has h, ← hasNoted h]
        refine ⟨Receiver.Has.of_store genuine,
          fun held => held.elim (fun old => old.store free) ?_⟩
        rintro rfl
        exact .stored genuine

/-- The file is what `size_received` measures of the source. -/
theorem file_eq (inv : InOrder cfg file n limit r) :
    r.file = file.take r.sizeReceived.toNat := by
  rw [inv.order.content, flatMap_chunk_range, inv.position, Int.toNat_natCast,
    List.take_eq_take_iff]
  omega

/-- The values that `size_received` has taken grow. -/
theorem offsets (inv : InOrder cfg file n limit r) :
    (r.written.map fun packet => packet.noBytesToSend).Pairwise (· ≤ ·) := by
  have at_chunk : ∀ m (inside : m < r.written.length),
      r.written[m].noBytesToSend = chunkEnd file m := by
    intro m inside
    have inside' : m < (List.range n).length := by
      rwa [inv.order.written.length_eq]
    have genuine := List.Forall₂.get inv.order.written inside' inside
    simp only [List.get_eq_getElem, List.getElem_range] at genuine
    exact genuine.noBytesToSend
  rw [List.pairwise_map, List.pairwise_iff_getElem]
  intro a b insideA insideB later
  rw [at_chunk a insideA, at_chunk b insideB]
  exact_mod_cast chunkEnd_mono later.le

/-- An `fwrite` that comes up short has not taken the next chunk whole, and
leaves less than the file. -/
theorem receive_short {fwrite : ℕ → ℕ} {send : SendResult} {r' : Receiver}
    {acks : List AckPacket} (inv : InOrder cfg file n limit r)
    (running : r.result = none)
    (genuine : IsChunk cfg file g packet) (inside : g < limit)
    (count : r.isFirst = true → packet.noPacketsToSend = packetCount file)
    (reacts : receiveDataFromSender cfg fwrite send r packet = some (r', acks))
    (short : r'.result = some WRITE_BYTE_ERROR) :
    (∃ m < packetCount file, fwrite m < (chunk file m).length) ∧
      r'.file.length < file.length := by
  obtain ⟨window, _, _, size, result, begun⟩ := r.noteFirst_fields packet
  have noted : InOrder cfg file n limit (r.noteFirst packet) :=
    inv.of_fields (inv.order.noteFirst count) size
      (fun j => ⟨_, _, by rw [window]⟩)
  have noCode : (r.noteFirst packet).result ≠ some WRITE_BYTE_ERROR := by
    simp [result, running]
  rcases receive_cases genuine reacts with
    ⟨_, rfl, _⟩ | ⟨fresh, processed, runs, ⟨_, rfl, _⟩ | ⟨running', eq⟩⟩
  · exact absurd short noCode
  · obtain ⟨r'', runs', rest⟩ := processAvailable_spec
      (loopInvariant cfg file n limit _) fwrite cfg.WINDOW_SIZE 0 _
      ⟨noted.store genuine fresh inside, begun, fun _ => Iff.rfl⟩
    obtain rfl := Option.some.inj (runs'.symm.trans runs)
    rcases rest with ⟨_, _, _, same, _⟩ |
      ⟨k, before, ⟨order, _⟩, received, incomplete, rfl⟩
    · exact absurd (same.symm.trans short) noCode
    · have chunk := order.head_chunk received
      have position := order.order.written.length_eq
      rw [List.length_range] at position
      rw [← position, chunk.size, Int.toNat_natCast] at incomplete
      refine ⟨⟨n + k, chunk.inside, incomplete⟩, ?_⟩
      have available := lt_packetCount.mp chunk.inside
      simp only [Receiver.shortWrite, List.length_append, List.length_take,
        order.file_eq, order.position, ← position, Int.toNat_natCast]
      rw [chunk_length] at incomplete
      simp only [PACKET_SIZE] at available incomplete ⊢
      omega
  · obtain rfl : r' = (processed.acknowledge packet send).1 := congrArg Prod.fst eq
    rw [processed.acknowledge_result, running'] at short
    split at short
    · simp at short
    · exact absurd short (by decide)

end InOrder

end Spqr
