/-
Module: Spqr.Sender
Purpose: `main_sender` with `send_data_to_receiver` and `wait_ack`, as the
  reactions to one `recvfrom` each.
Trusted boundary: none
Main exports:
  Sender, fillWindow, mainSenderStart, waitAckTimeout, refillWith, waitAck,
  mainSenderDrain, mainSenderReturn
-/
import Spqr.Packet

namespace Spqr

/-- Where `main_sender` waits: in the `recvfrom` of `wait_ack`, in that of its
own drain loop (with the last `write_byte` seen there), or nowhere. -/
inductive SenderPhase where
  | waitAck
  | drain (ret : ℤ)
  | returned (ret : ℤ)
deriving Repr, DecidableEq

/-- Locals of `main_sender` and `wait_ack` at a `recvfrom`, together with the
unread rest of the file and `SO_RCVTIMEO` of the socket. An access outside
`window[0 .. WINDOW_SIZE)` makes a reaction undefined (`none`). -/
structure Sender where
  window : ℕ → Packet
  windowSize : ℕ
  i : ℕ
  unread : List UInt8
  sizeFile : ℕ
  counter : ℕ
  noPacketsToSend : ℕ
  maxErrors : ℕ
  lastAckConfirmedBytes : ℤ
  /-- The struct `recvfrom` writes into; `wait_ack` never clears it. -/
  newAck : AckPacket
  rcvTimeout : ℕ
  phase : SenderPhase

/-- `no_packets_to_send`, an `int32_t`. -/
def noPacketsOf (sizeFile : ℕ) : ℤ :=
  let quotient : ℤ := (sizeFile / PACKET_SIZE : ℕ)
  Int.bmod (if sizeFile % PACKET_SIZE ≠ 0 then quotient + 1 else quotient)
    (2 ^ 32)

/-- `window_size`: compared as signed, stored as `uint32_t`. -/
def windowSizeOf (cfg : Settings) (noPacketsToSend : ℤ) : ℕ :=
  ((if noPacketsToSend < cfg.WINDOW_SIZE then noPacketsToSend
    else (cfg.WINDOW_SIZE : ℤ)) % 2 ^ 32).toNat

/-- A packet filled from the file. -/
def filledPacket (data : List UInt8) (seqNum noPacketsToSend : ℤ)
    (counter : ℕ) : Packet where
  payload := padded data
  seqNum := seqNum
  noPacketsToSend := noPacketsToSend
  noBytesToSend := counter
  size := data.length
  sent := false
  received := false
  ack := false

/-- The loop of `main_sender` that fills the initial window, with the
iterations that remain and the loop variables `i` and `seq_num`. Beside the
state it gives the packets that it puts into the window. -/
def fillWindowLog (cfg : Settings) (noPacketsToSend : ℤ) :
    ℕ → ℕ → ℕ → Sender → Option (Sender × List Packet)
  | 0, _, _, s => some (s, [])
  | iterations + 1, i, seqNum, s =>
      let data := s.unread.take PACKET_SIZE
      if data.length = 0 then some (s, [])
      else if i < cfg.WINDOW_SIZE then
        let counter := s.counter + data.length
        let packet := filledPacket data seqNum noPacketsToSend counter
        (fillWindowLog cfg noPacketsToSend iterations (i + 1)
          ((seqNum + 1) % s.windowSize)
          { s with
            unread := s.unread.drop PACKET_SIZE
            counter := counter
            window := Function.update s.window i packet }).map
              fun (last, later) => (last, packet :: later)
      else none

/-- The state after that loop. -/
def fillWindow (cfg : Settings) (noPacketsToSend : ℤ)
    (iterations i seqNum : ℕ) (s : Sender) : Option Sender :=
  (fillWindowLog cfg noPacketsToSend iterations i seqNum s).map Prod.fst

theorem fillWindow_zero (cfg : Settings) (noPacketsToSend : ℤ)
    (i seqNum : ℕ) (s : Sender) :
    fillWindow cfg noPacketsToSend 0 i seqNum s = some s :=
  rfl

theorem fillWindow_succ (cfg : Settings) (noPacketsToSend : ℤ)
    (iterations i seqNum : ℕ) (s : Sender) :
    fillWindow cfg noPacketsToSend (iterations + 1) i seqNum s =
      let data := s.unread.take PACKET_SIZE
      if data.length = 0 then some s
      else if i < cfg.WINDOW_SIZE then
        let counter := s.counter + data.length
        fillWindow cfg noPacketsToSend iterations (i + 1)
          ((seqNum + 1) % s.windowSize)
          { s with
            unread := s.unread.drop PACKET_SIZE
            counter := counter
            window := Function.update s.window i
              (filledPacket data seqNum noPacketsToSend counter) }
      else none := by
  rw [fillWindow, fillWindowLog]
  dsimp only
  split_ifs
  · rfl
  · rw [Option.map_map]
    rfl
  · rfl

/-- A loop over window slots that sends the selected packets, and leaves after
a sent packet for which `stop` holds. -/
def sendSlots (send : ℕ → SendResult) (select stop : Packet → Bool) :
    List ℕ → (ℕ → Packet) → (ℕ → Packet) × List Packet
  | [], window => (window, [])
  | j :: slots, window =>
      if select (window j) && send j = .sent then
        let window' := Function.update window j { window j with sent := true }
        if stop (window j) then (window', [window j])
        else
          let (final, packets) := sendSlots send select stop slots window'
          (final, window j :: packets)
      else sendSlots send select stop slots window

/-- `send_data_to_receiver`: `send j` is the outcome for slot `j`. -/
def sendDataToReceiver (send : ℕ → SendResult) (windowSize : ℕ)
    (window : ℕ → Packet) : (ℕ → Packet) × List Packet :=
  sendSlots send (fun packet => packet.ack == false)
    (fun packet => packet.size == 0) (List.range windowSize) window

/-- `main_sender` with the file opened and measured, before the loop that fills
the window. -/
def Sender.opened (cfg : Settings) (file : List UInt8) : Sender where
  window := fun _ => Packet.zero
  windowSize := windowSizeOf cfg (noPacketsOf file.length)
  i := 0
  unread := file
  sizeFile := file.length
  counter := 0
  noPacketsToSend := (noPacketsOf file.length).toNat
  maxErrors := 0
  lastAckConfirmedBytes := 0
  newAck := AckPacket.zero
  rcvTimeout := TIMEOUT
  phase := .waitAck

/-- `main_sender` from there to the first `recvfrom` of `wait_ack`. -/
def mainSenderStart (cfg : Settings) (file : List UInt8)
    (send : ℕ → SendResult) : Option (Sender × List Packet) :=
  let s := Sender.opened cfg file
  match fillWindow cfg (noPacketsOf file.length) s.windowSize 0 0 s with
  | none => none
  | some s =>
      if s.windowSize ≤ cfg.WINDOW_SIZE then
        let (window, packets) := sendDataToReceiver send s.windowSize s.window
        some ({ s with window := window }, packets)
      else none

/-- `increase_timeout` -/
def increaseTimeout (timeout : ℕ) : ℕ :=
  if timeout ≤ MAX_TIMEOUT - TIME_UNIT then timeout + TIME_UNIT else timeout

/-- `decrease_timeout` -/
def decreaseTimeout (timeout : ℕ) : ℕ :=
  if MIN_TIMEOUT + TIME_UNIT ≤ timeout then timeout - TIME_UNIT else timeout

/-- `window[j].ack == false || window[j].no_bytes_to_send > last_ack_confirmed_bytes` -/
def retransmits (lastAckConfirmedBytes : ℤ) (packet : Packet) : Bool :=
  packet.ack == false || lastAckConfirmedBytes < packet.noBytesToSend

/-- `recvfrom` of `wait_ack` returns a negative value: count the error and
resend, or give up. -/
def waitAckTimeout (cfg : Settings) (send : ℕ → SendResult) (s : Sender) :
    Option (Sender × List Packet) :=
  let s := { s with maxErrors := s.maxErrors + 1 }
  if MAX_ERRORS ≤ s.maxErrors then some ({ s with phase := .drain 0 }, [])
  else if s.windowSize ≤ cfg.WINDOW_SIZE then
    let (window, packets) :=
      sendSlots send (retransmits s.lastAckConfirmedBytes) (fun _ => false)
        (List.range s.windowSize) s.window
    some
      ({ s with window := window, rcvTimeout := increaseTimeout s.rcvTimeout },
        packets)
  else none

/-- `n` after one `if (can_send_packet()) { n = sendto(..); }`. -/
def SendResult.value (result : SendResult) (n : ℤ) : ℤ :=
  match result with
  | .dropped => n
  | .failed => -1
  | .sent => sizeofPacket

/-- The packet that the refill loop builds for slot `i`, the budget having been
lowered to `budget`. -/
def Sender.nextPacket (s : Sender) (budget : ℕ) : Packet :=
  let data := s.unread.take PACKET_SIZE
  filledPacket data s.i budget (s.counter + data.length)

/-- Slot `i` after it has been refilled and sent. -/
def Sender.load (s : Sender) (budget : ℕ) (result : SendResult) : Sender :=
  let packet := s.nextPacket budget
  { s with
    noPacketsToSend := budget
    unread := s.unread.drop PACKET_SIZE
    counter := s.counter + (s.unread.take PACKET_SIZE).length
    window := Function.update s.window s.i
      (if result = .sent then { packet with sent := true } else packet) }

/-- `i = (i + 1) % window_size` -/
def Sender.advance (s : Sender) : Sender :=
  { s with i := (s.i + 1) % s.windowSize }

/-- `while (window[i].ack && *no_packets_to_send > 0)`, with the budget that
remains. `n` is the last result of `recvfrom` or `sendto`, and `send k` the
outcome of the `k`-th send of this loop. Beside the state it gives what `log`
keeps of each packet that it builds and of its send. -/
def refillWith (log : SendResult → Packet → List Packet) (cfg : Settings)
    (send : ℕ → SendResult) :
    ℕ → ℤ → ℕ → Sender → Option (Sender × List Packet)
  | _, _, 0, s => some ({ s with noPacketsToSend := 0 }, [])
  | k, n, budget + 1, s =>
      if s.i < cfg.WINDOW_SIZE then
        if (s.window s.i).ack then
          if (s.unread.take PACKET_SIZE).length = 0 then
            some ({ s with noPacketsToSend := budget }, [])
          else
            let packet := s.nextPacket budget
            let n := (send k).value n
            if packet.size = 0 ∨ n = 0 then
              some (s.load budget (send k), log (send k) packet)
            else
              match refillWith log cfg send (k + 1) n budget
                  (s.load budget (send k)).advance with
              | none => none
              | some (s, packets) => some (s, log (send k) packet ++ packets)
        else some ({ s with noPacketsToSend := budget + 1 }, [])
      else none

/-- That loop, with the packets that leave. -/
def refill : Settings → (ℕ → SendResult) → ℕ → ℤ → ℕ → Sender →
    Option (Sender × List Packet) :=
  refillWith SendResult.emit

theorem refill_zero (cfg : Settings) (send : ℕ → SendResult) (k : ℕ) (n : ℤ)
    (s : Sender) :
    refill cfg send k n 0 s = some ({ s with noPacketsToSend := 0 }, []) :=
  rfl

theorem refill_succ (cfg : Settings) (send : ℕ → SendResult) (k : ℕ) (n : ℤ)
    (budget : ℕ) (s : Sender) :
    refill cfg send k n (budget + 1) s =
      if s.i < cfg.WINDOW_SIZE then
        if (s.window s.i).ack then
          if (s.unread.take PACKET_SIZE).length = 0 then
            some ({ s with noPacketsToSend := budget }, [])
          else
            let packet := s.nextPacket budget
            let n := (send k).value n
            if packet.size = 0 ∨ n = 0 then
              some (s.load budget (send k), (send k).emit packet)
            else
              match refill cfg send (k + 1) n budget
                  (s.load budget (send k)).advance with
              | none => none
              | some (s, packets) => some (s, (send k).emit packet ++ packets)
        else some ({ s with noPacketsToSend := budget + 1 }, [])
      else none :=
  rfl

/-- `new_ack.seq_num == SEQ_NUM_ERROR || new_ack.write_byte > size_file ||
new_ack.write_byte == WRITE_BYTE_ERROR` -/
def AckPacket.ends (ack : AckPacket) (sizeFile : ℕ) : Prop :=
  ack.seqNum = SEQ_NUM_ERROR ∨ (sizeFile : ℤ) < ack.writeByte ∨
    ack.writeByte = WRITE_BYTE_ERROR

instance (ack : AckPacket) (sizeFile : ℕ) : Decidable (ack.ends sizeFile) := by
  unfold AckPacket.ends
  infer_instance

/-- `window[ack_num].ack = true` -/
def Sender.mark (s : Sender) (slot : ℕ) : Sender :=
  { s with window := Function.update s.window slot { s.window slot with ack := true } }

/-- `recvfrom` of `wait_ack` returns `n ≥ 0` with `new_ack` filled; `log` is as
in `refillWith`. -/
def waitAckWith (log : SendResult → Packet → List Packet) (cfg : Settings)
    (send : ℕ → SendResult) (n : ℤ) (s : Sender) (newAck : AckPacket) :
    Option (Sender × List Packet) :=
  let s := { s with maxErrors := 0, newAck := newAck }
  if newAck.ends s.sizeFile then some ({ s with phase := .drain 0 }, [])
  else
    let s :=
      { s with
        rcvTimeout := decreaseTimeout s.rcvTimeout
        lastAckConfirmedBytes := max newAck.size s.lastAckConfirmedBytes }
    if newAck.seqNum < 0 ∨ (cfg.WINDOW_SIZE : ℤ) ≤ newAck.seqNum then none
    else if (s.window newAck.seqNum.toNat).ack then some (s, [])
    else
      let s := s.mark newAck.seqNum.toNat
      refillWith log cfg send 0 n s.noPacketsToSend s

/-- `wait_ack`, with the packets that leave. -/
def waitAck : Settings → (ℕ → SendResult) → ℤ → Sender → AckPacket →
    Option (Sender × List Packet) :=
  waitAckWith SendResult.emit

theorem waitAck_eq (cfg : Settings) (send : ℕ → SendResult) (n : ℤ) (s : Sender)
    (newAck : AckPacket) :
    waitAck cfg send n s newAck =
      let s := { s with maxErrors := 0, newAck := newAck }
      if newAck.ends s.sizeFile then some ({ s with phase := .drain 0 }, [])
      else
        let s :=
          { s with
            rcvTimeout := decreaseTimeout s.rcvTimeout
            lastAckConfirmedBytes := max newAck.size s.lastAckConfirmedBytes }
        if newAck.seqNum < 0 ∨ (cfg.WINDOW_SIZE : ℤ) ≤ newAck.seqNum then none
        else if (s.window newAck.seqNum.toNat).ack then some (s, [])
        else
          let s := s.mark newAck.seqNum.toNat
          refill cfg send 0 n s.noPacketsToSend s :=
  rfl

/-- `recvfrom` of the drain loop of `main_sender` returns an acknowledgment. -/
def mainSenderDrain (s : Sender) (newAck : AckPacket) : Sender :=
  { s with phase := .drain newAck.writeByte }

/-- The packet that tells the receiver that the sender has given up. -/
def errorPacket : Packet := { Packet.zero with seqNum := SEQ_NUM_ERROR }

/-- `recvfrom` of the drain loop times out: the rest of `main_sender`. -/
def mainSenderReturn (s : Sender) (ret : ℤ) : Sender × List Packet :=
  let s := { s with rcvTimeout := 0 }
  if ret = WRITE_BYTE_ERROR then
    ({ s with phase := .returned TRANSFER_ERROR }, [])
  else if MAX_ERRORS ≤ s.maxErrors then
    ({ s with phase := .returned TRANSFER_ERROR }, [errorPacket])
  else ({ s with phase := .returned EXIT_SUCCESS }, [])

end Spqr
