/-
Module: Spqr.Chunks
Purpose: The chunks into which `fread` cuts a file, and the packets that carry
  them.
Trusted boundary: none
Main exports:
  chunk, chunkEnd, packetCount, IsChunk, IsChunk.unique, take_chunkEnd_succ,
  noPacketsOf_eq, windowSizeOf_eq, narrow, fourPackets, threePackets
-/
import Spqr.Sender

namespace Spqr

variable {file : List UInt8} {g h : ℕ}

/-- The `g`-th block of `PACKET_SIZE` bytes, the last one possibly shorter. -/
def chunk (file : List UInt8) (g : ℕ) : List UInt8 :=
  (file.drop (PACKET_SIZE * g)).take PACKET_SIZE

/-- The file offset at which the `g`-th chunk ends. -/
def chunkEnd (file : List UInt8) (g : ℕ) : ℕ :=
  min (PACKET_SIZE * (g + 1)) file.length

/-- The number of chunks of a file. -/
def packetCount (file : List UInt8) : ℕ :=
  (file.length + (PACKET_SIZE - 1)) / PACKET_SIZE

theorem lt_packetCount : g < packetCount file ↔ PACKET_SIZE * g < file.length := by
  simp only [packetCount, PACKET_SIZE]
  omega

theorem packetCount_pos : 0 < packetCount file ↔ file ≠ [] := by
  rw [lt_packetCount, Nat.mul_zero, List.length_pos_iff]

@[simp] theorem packetCount_nil : packetCount [] = 0 := by
  simp [packetCount, PACKET_SIZE]

@[simp] theorem chunk_length :
    (chunk file g).length = min PACKET_SIZE (file.length - PACKET_SIZE * g) := by
  simp [chunk]

theorem chunk_length_pos (inside : g < packetCount file) :
    0 < (chunk file g).length := by
  rw [lt_packetCount] at inside
  rw [chunk_length]
  simp only [PACKET_SIZE] at inside ⊢
  omega

theorem chunk_eq_nil (outside : packetCount file ≤ g) : chunk file g = [] := by
  rw [← Nat.not_lt, lt_packetCount] at outside
  rw [← List.length_eq_zero_iff, chunk_length]
  omega

theorem chunkEnd_le (file : List UInt8) (g : ℕ) : chunkEnd file g ≤ file.length :=
  Nat.min_le_right _ _

theorem chunkEnd_pos (inside : g < packetCount file) : 0 < chunkEnd file g := by
  rw [lt_packetCount] at inside
  simp only [chunkEnd, PACKET_SIZE] at inside ⊢
  omega

/-- A chunk that exists ends past the end of every earlier one. -/
theorem chunkEnd_lt (later : g < h) (inside : h < packetCount file) :
    chunkEnd file g < chunkEnd file h := by
  rw [lt_packetCount] at inside
  simp only [chunkEnd, PACKET_SIZE] at inside ⊢
  omega

theorem chunkEnd_mono (later : g ≤ h) : chunkEnd file g ≤ chunkEnd file h := by
  simp only [chunkEnd, PACKET_SIZE]
  omega

/-- Offsets identify chunks. -/
theorem chunkEnd_lt_iff (inside : h < packetCount file) :
    chunkEnd file g < chunkEnd file h ↔ g < h := by
  constructor
  · intro less
    by_contra later
    exact absurd (chunkEnd_mono (Nat.not_lt.mp later)) (Nat.not_le.mpr less)
  · intro less
    exact chunkEnd_lt less inside

theorem chunkEnd_inj (inside : g < packetCount file)
    (inside' : h < packetCount file)
    (same : chunkEnd file g = chunkEnd file h) : g = h := by
  rcases Nat.lt_trichotomy g h with less | equal | greater
  · exact absurd same (chunkEnd_lt less inside').ne
  · exact equal
  · exact absurd same (chunkEnd_lt greater inside).ne'

/-- The bytes before the end of a chunk are those before its start, then its
own. -/
theorem take_chunkEnd_succ (file : List UInt8) (g : ℕ) :
    file.take (PACKET_SIZE * g) ++ chunk file g =
      file.take (chunkEnd file g) := by
  rw [chunk, ← List.take_add, chunkEnd, Nat.mul_succ, List.take_eq_take_iff]
  omega

theorem take_chunkEnd (file : List UInt8) (g : ℕ) :
    file.take (chunkEnd file g) = file.take (PACKET_SIZE * (g + 1)) := by
  rw [chunkEnd, List.take_eq_take_iff]
  omega

theorem take_packetCount (file : List UInt8) :
    file.take (PACKET_SIZE * packetCount file) = file := by
  rw [List.take_of_length_le]
  simp only [packetCount, PACKET_SIZE]
  omega

/-- The first chunks in order are the start of the file. -/
theorem flatMap_chunk_range (file : List UInt8) (n : ℕ) :
    (List.range n).flatMap (chunk file) = file.take (PACKET_SIZE * n) := by
  induction n with
  | zero => simp
  | succ n inductionHypothesis =>
      rw [List.range_succ, List.flatMap_append, inductionHypothesis,
        List.flatMap_singleton, take_chunkEnd_succ, take_chunkEnd]

/-- `no_packets_to_send` is the number of chunks when that fits an `int32_t`. -/
theorem noPacketsOf_eq (fits : packetCount file < 2 ^ 31) :
    noPacketsOf file.length = packetCount file := by
  have exact_count :
      (if file.length % PACKET_SIZE ≠ 0 then
          ((file.length / PACKET_SIZE : ℕ) : ℤ) + 1
        else ((file.length / PACKET_SIZE : ℕ) : ℤ)) = packetCount file := by
    simp only [packetCount, PACKET_SIZE]
    split_ifs <;> omega
  rw [noPacketsOf, exact_count]
  apply Int.bmod_eq_of_le <;> omega

/-- `window_size` is the smaller of the chunk count and the window. -/
theorem windowSizeOf_eq (cfg : Settings) {count : ℕ} (fits : count < 2 ^ 31) :
    windowSizeOf cfg count = min count cfg.WINDOW_SIZE := by
  rw [windowSizeOf]
  split_ifs <;> omega

/-- The packet carries chunk `g` in the slot that belongs to it. The flags and
`no_packets_to_send` are left open. -/
structure IsChunk (cfg : Settings) (file : List UInt8) (g : ℕ)
    (packet : Packet) : Prop where
  inside : g < packetCount file
  seqNum : packet.seqNum = (g % cfg.WINDOW_SIZE : ℕ)
  payload : packet.payload = padded (chunk file g)
  size : packet.size = (chunk file g).length
  noBytesToSend : packet.noBytesToSend = chunkEnd file g

namespace IsChunk

variable {cfg : Settings} {packet : Packet}

/-- A packet carries at most one chunk. -/
theorem unique (one : IsChunk cfg file g packet)
    (two : IsChunk cfg file h packet) : g = h := by
  have same := one.noBytesToSend.symm.trans two.noBytesToSend
  exact chunkEnd_inj one.inside two.inside (by exact_mod_cast same)

theorem toNat_seqNum (genuine : IsChunk cfg file g packet) :
    packet.seqNum.toNat = g % cfg.WINDOW_SIZE := by
  rw [genuine.seqNum, Int.toNat_natCast]

theorem seqNum_nonneg (genuine : IsChunk cfg file g packet) :
    0 ≤ packet.seqNum := by
  rw [genuine.seqNum]
  exact Int.natCast_nonneg _

theorem seqNum_lt (genuine : IsChunk cfg file g packet) :
    packet.seqNum < cfg.WINDOW_SIZE := by
  rw [genuine.seqNum]
  exact_mod_cast Nat.mod_lt g cfg.windowPos

theorem seqNum_ne_error (genuine : IsChunk cfg file g packet) :
    packet.seqNum ≠ SEQ_NUM_ERROR := by
  have := genuine.seqNum_nonneg
  simp only [SEQ_NUM_ERROR]
  omega

theorem ne_errorPacket (genuine : IsChunk cfg file g packet) :
    packet ≠ errorPacket := by
  rintro rfl
  exact genuine.seqNum_ne_error rfl

theorem size_mem (genuine : IsChunk cfg file g packet) :
    0 ≤ packet.size ∧ packet.size ≤ PACKET_SIZE := by
  rw [genuine.size, chunk_length]
  simp only [PACKET_SIZE]
  omega

/-- The bytes that `fwrite` takes from the packet. -/
theorem take_payload (genuine : IsChunk cfg file g packet) :
    packet.payload.take packet.size.toNat = chunk file g := by
  rw [genuine.payload, genuine.size, Int.toNat_natCast, take_padded]

/-- The flags do not say which chunk a packet carries. -/
theorem of_fields {other : Packet} (genuine : IsChunk cfg file g packet)
    (seqNum : other.seqNum = packet.seqNum)
    (payload : other.payload = packet.payload)
    (size : other.size = packet.size)
    (noBytesToSend : other.noBytesToSend = packet.noBytesToSend) :
    IsChunk cfg file g other where
  inside := genuine.inside
  seqNum := seqNum.trans genuine.seqNum
  payload := payload.trans genuine.payload
  size := size.trans genuine.size
  noBytesToSend := noBytesToSend.trans genuine.noBytesToSend

end IsChunk

/-! ### A small setting -/

/-- A window of two slots. -/
def narrow : Settings := ⟨2, by decide⟩

/-- Three full packets and one byte: twice the window of `narrow`. -/
def fourPackets : List UInt8 :=
  List.replicate PACKET_SIZE 1 ++ List.replicate PACKET_SIZE 2 ++
    List.replicate PACKET_SIZE 3 ++ [4]

/-- Three full packets, more than a stream collects. -/
def threePackets : List UInt8 := List.replicate (3 * PACKET_SIZE) 7

theorem length_fourPackets : fourPackets.length = 4501 := by
  simp only [fourPackets, List.length_append, List.length_replicate,
    List.length_singleton]
  rfl

theorem packetCount_fourPackets : packetCount fourPackets = 4 := by
  rw [packetCount, length_fourPackets]
  rfl

theorem fourPackets_fits : packetCount fourPackets < 2 ^ 31 := by
  rw [packetCount_fourPackets]
  decide

end Spqr
