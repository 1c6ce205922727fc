/-
Module: Spqr.Wire
Purpose: The two structs as the bytes that `sendto` takes from memory and
  `recvfrom` puts there.
Trusted boundary: x86-64 layout of `packet_t` and `ack_packet_t`
Main exports:
  Packet.encode, Packet.decode, Packet.Fits, Packet.recvfrom,
  Packet.Fits.recvfrom_encode, AckPacket.encode, AckPacket.decode,
  AckPacket.Fits, AckPacket.recvfrom, AckPacket.Fits.recvfrom_encode
-/
import Spqr.Packet
import Spqr.Lib.LittleEndian

namespace Spqr

open LittleEndian

/-- An `int32_t`. -/
def Int32 (z : ℤ) : Prop := -2 ^ 31 ≤ z ∧ z < 2 ^ 31

/-- An `int64_t`. -/
def Int64 (z : ℤ) : Prop := -2 ^ 63 ≤ z ∧ z < 2 ^ 63

theorem Int32.signed_ofSigned {z : ℤ} (fits : Int32 z) :
    signed (ofSigned 4 z) = z := by
  obtain ⟨low, high⟩ := fits
  refine LittleEndian.signed_ofSigned ?_ ?_ <;> norm_num <;> omega

theorem Int64.signed_ofSigned {z : ℤ} (fits : Int64 z) :
    signed (ofSigned 8 z) = z := by
  obtain ⟨low, high⟩ := fits
  refine LittleEndian.signed_ofSigned ?_ ?_ <;> norm_num <;> omega

theorem Int32.signed {data : List UInt8} (length : data.length = 4) :
    Int32 (signed data) := by
  have range := signed_range data
  rw [length] at range
  norm_num at range
  exact ⟨by omega, by omega⟩

theorem Int64.signed {data : List UInt8} (length : data.length = 8) :
    Int64 (signed data) := by
  have range := signed_range data
  rw [length] at range
  norm_num at range
  exact ⟨by omega, by omega⟩

theorem toUInt8_bne_zero (flag : Bool) : ([flag.toUInt8] != [0]) = flag := by
  cases flag <;> rfl

/-! ### `packet_t` -/

namespace Packet

/-- The memory of a `packet_t`. -/
def encode (packet : Packet) : List UInt8 :=
  packet.payload ++ (ofSigned 4 packet.seqNum ++
    (ofSigned 4 packet.noPacketsToSend ++ (List.replicate 4 0 ++
      (ofSigned 8 packet.noBytesToSend ++ (ofSigned 8 packet.size ++
        ([packet.sent.toUInt8] ++ ([packet.received.toUInt8] ++
          ([packet.ack.toUInt8] ++ List.replicate 5 0))))))))

/-- What the fields of a `packet_t` read there. -/
def decode (memory : List UInt8) : Packet where
  payload := field 0 PACKET_SIZE memory
  seqNum := signed (field 1500 4 memory)
  noPacketsToSend := signed (field 1504 4 memory)
  noBytesToSend := signed (field 1512 8 memory)
  size := signed (field 1520 8 memory)
  sent := field 1528 1 memory != [0]
  received := field 1529 1 memory != [0]
  ack := field 1530 1 memory != [0]

/-- The values of the fields are values of their C types. -/
structure Fits (packet : Packet) : Prop where
  payload : packet.payload.length = PACKET_SIZE
  seqNum : Int32 packet.seqNum
  noPacketsToSend : Int32 packet.noPacketsToSend
  noBytesToSend : Int64 packet.noBytesToSend
  size : Int64 packet.size

/-- `recvfrom(sockfd, &new_packet, sizeof(new_packet), ..)` into a struct that
holds `stale`. -/
def recvfrom (stale : Packet) (datagram : List UInt8) : Packet :=
  decode (overlay datagram stale.encode)

namespace Fits

variable {packet : Packet}

theorem zero : Packet.zero.Fits := by
  constructor
  · exact List.length_replicate
  all_goals exact ⟨by decide, by decide⟩

theorem length_encode (fits : packet.Fits) :
    packet.encode.length = sizeofPacket := by
  simp [encode, fits.payload, PACKET_SIZE, sizeofPacket]

theorem decode {memory : List UInt8} (length : memory.length = sizeofPacket) :
    (Packet.decode memory).Fits := by
  rw [sizeofPacket] at length
  constructor
  · simp [Packet.decode, field, length, PACKET_SIZE]
  · exact .signed (by simp [field, length])
  · exact .signed (by simp [field, length])
  · exact .signed (by simp [field, length])
  · exact .signed (by simp [field, length])

/-- Whatever arrives, the struct holds values of its types. -/
theorem recvfrom (fits : packet.Fits) (datagram : List UInt8) :
    (packet.recvfrom datagram).Fits :=
  decode (by rw [length_overlay, fits.length_encode])

theorem decode_encode (fits : packet.Fits) :
    Packet.decode packet.encode = packet := by
  have payload := fits.payload
  rw [PACKET_SIZE] at payload
  simp (disch := simp [payload]) only [encode, Packet.decode, PACKET_SIZE,
    field_skip, field_front, payload, length_ofSigned, List.length_replicate,
    List.length_singleton, Nat.reduceSub, toUInt8_bne_zero,
    fits.seqNum.signed_ofSigned, fits.noPacketsToSend.signed_ofSigned,
    fits.noBytesToSend.signed_ofSigned, fits.size.signed_ofSigned]

/-- A packet sent whole is received whole, whatever the struct held. -/
theorem recvfrom_encode (fits : packet.Fits) {stale : Packet}
    (staleFits : stale.Fits) : stale.recvfrom packet.encode = packet := by
  rw [Packet.recvfrom, overlay_of_length, fits.decode_encode]
  rw [fits.length_encode, staleFits.length_encode]

end Fits

end Packet

/-! ### `ack_packet_t` -/

namespace AckPacket

/-- The memory of an `ack_packet_t`. -/
def encode (ack : AckPacket) : List UInt8 :=
  ofSigned 4 ack.seqNum ++ (List.replicate 4 0 ++
    (ofSigned 8 ack.size ++ (ofSigned 8 ack.writeByte ++ [])))

/-- What the fields of an `ack_packet_t` read there. -/
def decode (memory : List UInt8) : AckPacket where
  seqNum := signed (field 0 4 memory)
  size := signed (field 8 8 memory)
  writeByte := signed (field 16 8 memory)

/-- The values of the fields are values of their C types. -/
structure Fits (ack : AckPacket) : Prop where
  seqNum : Int32 ack.seqNum
  size : Int64 ack.size
  writeByte : Int64 ack.writeByte

/-- `recvfrom(sockfd, &new_ack, sizeof(new_ack), ..)` into a struct that holds
`stale`. -/
def recvfrom (stale : AckPacket) (datagram : List UInt8) : AckPacket :=
  decode (overlay datagram stale.encode)

theorem length_encode (ack : AckPacket) : ack.encode.length = sizeofAckPacket := by
  simp [encode, sizeofAckPacket]

/-- An acknowledgment sent whole is received whole, whatever the struct held. -/
theorem Fits.recvfrom_encode {ack : AckPacket} (fits : ack.Fits)
    (stale : AckPacket) : stale.recvfrom ack.encode = ack := by
  rw [recvfrom, overlay_of_length (by rw [length_encode, length_encode])]
  simp (disch := simp) only [encode, decode, field_skip, field_front,
    length_ofSigned, List.length_replicate, Nat.reduceSub,
    fits.seqNum.signed_ofSigned, fits.size.signed_ofSigned,
    fits.writeByte.signed_ofSigned]

end AckPacket

end Spqr
