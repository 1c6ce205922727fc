/-
Module: Spqr.Receiver
Purpose: `receive_data_from_sender` as the reaction to one `recvfrom`, and the
  part of `main_receiver` that runs after it has returned.
Trusted boundary: none
Main exports:
  Receiver, Receiver.initial, receiveDataFromSender, receiveSequence, Stream,
  mainReceiver, Receiver.ret, Receiver.destination
-/
import Spqr.Packet

namespace Spqr

/-- Locals of `receive_data_from_sender` at its `recvfrom`, together with the
stream it writes to. An access outside `window[0 .. WINDOW_SIZE)` or a length
outside `[0, PACKET_SIZE]` given to `fwrite` makes the reaction undefined
(`none`). -/
structure Receiver where
  window : ℕ → Packet
  sizeReceived : ℤ
  isFirst : Bool
  noPacketsToReceive : ℤ
  i : ℕ
  /-- The struct `recvfrom` writes into: zeroed by each round of the loop, left
  as it is by `goto retry`. -/
  newPacket : Packet
  /-- Bytes written to the destination since `fopen`. -/
  file : List UInt8
  /-- The packets given to `fwrite`, oldest first. -/
  written : List Packet
  /-- What `receive_data_from_sender` returned, once it has. -/
  result : Option ℤ

/-- The window as `main_receiver` initialises it, at the first `recvfrom`. -/
def Receiver.initial : Receiver where
  window := fun j => { Packet.zero with seqNum := j }
  sizeReceived := 0
  isFirst := true
  noPacketsToReceive := 0
  i := 0
  newPacket := Packet.zero
  file := []
  written := []
  result := none

/-- `window[seq_num].received || (*size_received < window[seq_num].no_bytes_to_send)
|| (no_bytes_to_send <= *size_received)` -/
def Receiver.duplicate (r : Receiver) (newPacket : Packet) : Prop :=
  let slot := r.window newPacket.seqNum.toNat
  slot.received = true ∨ r.sizeReceived < slot.noBytesToSend ∨
    newPacket.noBytesToSend ≤ r.sizeReceived

instance (r : Receiver) (newPacket : Packet) :
    Decidable (r.duplicate newPacket) := by
  unfold Receiver.duplicate
  infer_instance

/-- The acknowledgment of a packet, which reports the current write position. -/
def Receiver.ackOf (r : Receiver) (newPacket : Packet) : AckPacket where
  seqNum := newPacket.seqNum
  size := newPacket.noBytesToSend
  writeByte := r.sizeReceived

/-- First packet: take the number of packets from it. -/
def Receiver.noteFirst (r : Receiver) (newPacket : Packet) : Receiver :=
  if r.isFirst then
    { r with isFirst := false, noPacketsToReceive := newPacket.noPacketsToSend }
  else r

/-- `window[seq_num] = new_packet; window[seq_num].received = true` -/
def Receiver.store (r : Receiver) (newPacket : Packet) : Receiver :=
  { r with
    window := Function.update r.window newPacket.seqNum.toNat
      { newPacket with received := true } }

/-- One complete `fwrite` of the packet at the head of the window, and the step
to the next slot. -/
def Receiver.consume (cfg : Settings) (r : Receiver) : Receiver :=
  let packet := r.window r.i
  { r with
    sizeReceived := packet.noBytesToSend
    file := r.file ++ packet.payload.take packet.size.toNat
    written := r.written ++ [packet]
    noPacketsToReceive := r.noPacketsToReceive - 1
    window := Function.update r.window r.i
      { packet with received := false, ack := false }
    i := (r.i + 1) % cfg.WINDOW_SIZE }

/-- An `fwrite` that stored `numWrite` bytes, fewer than asked for:
`size_received` has been advanced already. -/
def Receiver.shortWrite (r : Receiver) (numWrite : ℕ) : Receiver :=
  let packet := r.window r.i
  { r with
    sizeReceived := packet.noBytesToSend
    file := r.file ++ packet.payload.take numWrite
    written := r.written ++ [packet]
    result := some WRITE_BYTE_ERROR }

/-- `while (window[i].received && process_count++ < max_iterations)`, with the
iterations that remain. `fwrite k` is the number of bytes the disk takes at the
`k`-th `fwrite` of the transfer. -/
def processAvailable (cfg : Settings) (fwrite : ℕ → ℕ) :
    ℕ → Receiver → Option Receiver
  | 0, r => some r
  | iterations + 1, r =>
      if r.i < cfg.WINDOW_SIZE then
        let packet := r.window r.i
        if packet.received then
          if 0 ≤ packet.size ∧ packet.size ≤ PACKET_SIZE then
            if fwrite r.written.length < packet.size.toNat then
              some (r.shortWrite (fwrite r.written.length))
            else
              processAvailable cfg fwrite iterations (r.consume cfg)
          else none
        else some r
      else none

/-- `while (no_packets_to_receive > 0)` -/
def Receiver.loopCondition (r : Receiver) : Receiver :=
  if 0 < r.noPacketsToReceive then { r with newPacket := Packet.zero }
  else { r with result := some EXIT_SUCCESS }

/-- The acknowledgment at the end of the loop body. `window[seq_num].ack` is set
whenever `can_send_packet` allowed the send. -/
def Receiver.acknowledge (r : Receiver) (newPacket : Packet)
    (send : SendResult) : Receiver × List AckPacket :=
  let slot := r.window newPacket.seqNum.toNat
  let r' :=
    if send = .dropped then r
    else
      { r with
        window := Function.update r.window newPacket.seqNum.toNat
          { slot with ack := true } }
  (r'.loopCondition, send.emit (r.ackOf newPacket))

/-- The acknowledgment of a packet whose `seq_num` is past the window. -/
def errorAck : AckPacket := { AckPacket.zero with seqNum := SEQ_NUM_ERROR }

/-- One `recvfrom` of `receive_data_from_sender` that fills `new_packet`, up to
the next `recvfrom` or the return. -/
def receiveDataFromSender (cfg : Settings) (fwrite : ℕ → ℕ)
    (send : SendResult) (r : Receiver) (newPacket : Packet) :
    Option (Receiver × List AckPacket) :=
  if newPacket.seqNum = SEQ_NUM_ERROR then
    some ({ r with result := some TRANSFER_ERROR }, [])
  else if (cfg.WINDOW_SIZE : ℤ) ≤ newPacket.seqNum then
    -- `continue` evaluates the loop condition
    some (r.loopCondition, [errorAck])
  else if newPacket.seqNum < 0 then none
  else
    let r := r.noteFirst newPacket
    if r.duplicate newPacket then
      -- `goto retry` keeps `new_packet`
      some ({ r with newPacket := newPacket }, send.emit (r.ackOf newPacket))
    else
      match processAvailable cfg fwrite cfg.WINDOW_SIZE (r.store newPacket) with
      | none => none
      | some r =>
          if r.result.isSome then some (r, [])
          else some (r.acknowledge newPacket send)

/-! ### Sequences of packets -/

/-- A packet that `recvfrom` reads whole, and what becomes of its acknowledgment. -/
structure Reception where
  packet : Packet
  send : SendResult

/-- `receive_data_from_sender` until it returns or nothing more arrives, with the
acknowledgments. -/
def receiveSequence (cfg : Settings) (fwrite : ℕ → ℕ) :
    Receiver → List Reception → Option (Receiver × List AckPacket)
  | r, [] => some (r, [])
  | r, d :: ds =>
      if r.result.isSome then some (r, [])
      else
        match receiveDataFromSender cfg fwrite d.send r d.packet with
        | none => none
        | some (r, acks) =>
            (receiveSequence cfg fwrite r ds).map fun (last, later) => (last, acks ++ later)

/-! ### `main_receiver` -/

/-- What becomes of the calls that `main_receiver` makes on its stream. A stream
keeps bytes back, so an error of the disk can show as late as in `fclose`, when
every `fwrite` has taken all that it was given. -/
structure Stream where
  /-- The number of bytes that the `k`-th `fwrite` takes. -/
  fwrite : ℕ → ℕ
  /-- `fclose` succeeds. -/
  closes : Bool
  /-- How much of what the stream was given is in the file in the end, when an
  `fwrite` or `fclose` fails. -/
  kept : ℕ

/-- A disk that takes everything. -/
def Stream.roomy : Stream := ⟨fun _ => PACKET_SIZE, true, 0⟩

/-- A disk without any room under a stream that collects 4096 bytes: the third
`fwrite` of a full packet finds that they cannot be written out, and they are
lost. -/
def Stream.full : Stream := ⟨fun k => if k < 2 then PACKET_SIZE else 1096, true, 0⟩

/-- What `main_receiver` returns when `receive_data_from_sender` returned
`ret`. -/
def mainReceiverRet (ret : ℤ) : ℤ :=
  if ret = TRANSFER_ERROR then ret else EXIT_SUCCESS

/-- The last acknowledgments of `main_receiver`, sent without
`can_send_packet`. An `fclose` that fails ends the process. -/
def finalAcks (closes : Bool) (ret sizeReceived : ℤ) : List AckPacket :=
  if closes = false ∨ ret = TRANSFER_ERROR then []
  else
    List.replicate MAX_RETRIES
      { AckPacket.zero with seqNum := SEQ_NUM_ERROR, writeByte := sizeReceived }

/-- The value `main_receiver` has returned, if it has. -/
def Receiver.ret (closes : Bool) (r : Receiver) : Option ℤ :=
  if closes then r.result.map mainReceiverRet else none

/-- What the stream has left in the file once it is closed, or the process has
ended in `fclose`. -/
def Receiver.stored (stream : Stream) (r : Receiver) : List UInt8 :=
  if stream.closes = true ∧ r.result ≠ some WRITE_BYTE_ERROR then r.file
  else r.file.take stream.kept

/-- The destination file in the end: `remove(pathname)` is called on
`TRANSFER_ERROR` only. -/
def Receiver.destination (stream : Stream) (r : Receiver) : Option (List UInt8) :=
  if stream.closes = true ∧ r.result = some TRANSFER_ERROR then none
  else some (r.stored stream)

/-- One `recvfrom` of `main_receiver`: the loop body and, once the loop has
returned and `fclose` has succeeded, the final acknowledgments. -/
def mainReceiver (cfg : Settings) (fwrite : ℕ → ℕ) (closes : Bool) (send : SendResult)
    (r : Receiver) (newPacket : Packet) : Option (Receiver × List AckPacket) :=
  match receiveDataFromSender cfg fwrite send r newPacket with
  | none => none
  | some (r, acks) =>
      match r.result with
      | none => some (r, acks)
      | some ret => some (r, acks ++ finalAcks closes ret r.sizeReceived)

end Spqr
