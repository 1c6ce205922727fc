/-
Module: Spqr.Packet
Purpose: Configuration macros, return codes and the two wire structs of the
  transfer protocol.
Trusted boundary: none
Main exports:
  Settings, settings, PACKET_SIZE, MAX_ERRORS, Packet, AckPacket, SendResult
-/
import Mathlib.Tactic

namespace Spqr

/-- The configurable window of `settings.h`. Both ends are compiled with the
same value. -/
structure Settings where
  WINDOW_SIZE : ℕ
  windowPos : 0 < WINDOW_SIZE

/-- `WINDOW_SIZE` as committed. -/
def settings : Settings := ⟨32, by decide⟩

def PACKET_SIZE : ℕ := 1500
def MAX_RETRIES : ℕ := 10
def MAX_ERRORS : ℕ := 25

/-- Socket timeouts, in microseconds. -/
def TIMEOUT : ℕ := 8000
def TIME_UNIT : ℕ := 4000
def MAX_TIMEOUT : ℕ := 80000
def MIN_TIMEOUT : ℕ := 8000

def EXIT_SUCCESS : ℤ := 0
def TRANSFER_ERROR : ℤ := -1
def SEQ_NUM_ERROR : ℤ := -2
def WRITE_BYTE_ERROR : ℤ := -3

/-- `packet_t`. The fields are signed machine integers, so a datagram may put
any sign into them. -/
structure Packet where
  payload : List UInt8
  seqNum : ℤ
  noPacketsToSend : ℤ
  noBytesToSend : ℤ
  size : ℤ
  sent : Bool
  received : Bool
  ack : Bool
deriving Repr, DecidableEq, Inhabited

/-- `packet_t packet = { 0 }` -/
def Packet.zero : Packet where
  payload := List.replicate PACKET_SIZE 0
  seqNum := 0
  noPacketsToSend := 0
  noBytesToSend := 0
  size := 0
  sent := false
  received := false
  ack := false

/-- `ack_packet_t` -/
structure AckPacket where
  seqNum : ℤ
  size : ℤ
  writeByte : ℤ
deriving Repr, DecidableEq, Inhabited

/-- `ack_packet_t ack = { 0 }` -/
def AckPacket.zero : AckPacket := ⟨0, 0, 0⟩

/-- `sizeof(packet_t)`: the payload, two `int32_t`, four bytes of padding, two
`int64_t`, three `bool` and five bytes of padding. -/
def sizeofPacket : ℕ := 1536

/-- `sizeof(ack_packet_t)`: an `int32_t`, four bytes of padding and two
`int64_t`. -/
def sizeofAckPacket : ℕ := 24

/-- Outcome of one `if (can_send_packet()) { n = sendto(..); }`. -/
inductive SendResult where
  /-- `can_send_packet` returned false: the datagram is lost on purpose. -/
  | dropped
  /-- `sendto` returned a negative value. -/
  | failed
  | sent
deriving Repr, DecidableEq, Inhabited

/-- What one guarded `sendto` puts on the channel. -/
def SendResult.emit {α : Type*} (result : SendResult) (datagram : α) : List α :=
  if result = .sent then [datagram] else []

@[simp] theorem SendResult.emit_sent {α : Type*} (datagram : α) :
    SendResult.emit .sent datagram = [datagram] := rfl

theorem SendResult.mem_emit {α : Type*} {result : SendResult}
    {datagram other : α} (member : other ∈ result.emit datagram) :
    other = datagram := by
  unfold SendResult.emit at member
  split at member
  · simpa using member
  · simp at member

theorem SendResult.length_emit {α : Type*} (result : SendResult)
    (datagram : α) : (result.emit datagram).length ≤ 1 := by
  unfold SendResult.emit
  split <;> simp

/-- The payload array after `fread` has filled a zeroed one. -/
def padded (data : List UInt8) : List UInt8 :=
  data ++ List.replicate (PACKET_SIZE - data.length) 0

/-- `fwrite(&packet.payload, 1, size, file)` hands back the bytes that `fread`
put there. -/
@[simp] theorem take_padded (data : List UInt8) :
    (padded data).take data.length = data := by
  simp [padded]

end Spqr
