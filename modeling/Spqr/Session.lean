/-
Module: Spqr.Session
Purpose: `client_manage_server_commands` and `server_manage_client_commands`
  over a channel that delays and reorders datagrams but loses none.
Trusted boundary: none
Main exports:
  Datagram, Environment, Client, Server, Session, Move, Session.step
-/
import Spqr.Texts
import Spqr.Transfer
import Spqr.Wire

namespace Spqr

open Transfer

/-! ### Datagrams -/

/-- What a `sendto` takes its bytes from. -/
inductive Payload where
  | text (message : Text)
  | packet (contents : Packet)
  | ack (contents : AckPacket)
deriving DecidableEq

def Payload.bytes : Payload → List UInt8
  | .text message => message
  | .packet contents => contents.encode
  | .ack contents => contents.encode

/-- A datagram in flight. Two of its fields are ghosts: the transfer in which it
was sent, if any, and the number of the client's request that it carries or
answers. -/
structure Datagram where
  payload : Payload
  transfer : Option ℕ
  request : ℕ
deriving DecidableEq

/-- `recvfrom` of `receive_data_from_sender`: a whole struct replaces what was
there (`Packet.Fits.recvfrom_encode`), other bytes are laid over it. -/
def Payload.readPacket (stale : Packet) : Payload → Packet
  | .packet contents => contents
  | other => stale.recvfrom other.bytes

/-- `recvfrom` of `wait_ack` and of the drain loop of `main_sender`. -/
def Payload.readAck (stale : AckPacket) : Payload → AckPacket
  | .ack contents => contents
  | other => stale.recvfrom other.bytes

/-- What a party finds around it during one step: the regular files of the
directory it looks into, the results of `fopen` and of the `fclose` in
`main_receiver`, how much of the file is kept when that or an `fwrite` fails, the
contents of the file that `main_sender` opens, and the outcomes of the guarded
sends. -/
structure Environment where
  listing : List Text
  opens : Bool
  closes : Bool
  kept : ℕ
  contents : List UInt8
  send : ℕ → SendResult

/-- Settings of both programs, and the disk that `main_receiver` writes to. -/
structure Installation where
  cfg : Settings
  fwrite : ℕ → ℕ

/-- The committed settings, and a disk that takes everything. -/
def committed : Installation := ⟨settings, fun _ => PACKET_SIZE⟩

/-- One file in the directory, which can be opened and closed; no send is lost. -/
def Environment.serving (name : String) (contents : List UInt8) : Environment :=
  ⟨[text name], true, true, 0, contents, fun _ => .sent⟩

/-! ### The transfer functions at either end -/

/-- One `recvfrom` of `main_sender`. -/
def senderRead (cfg : Settings) (send : ℕ → SendResult) (s : Sender)
    (payload : Payload) : Option (Sender × List Packet) :=
  match s.phase with
  | .waitAck =>
      waitAck cfg send (min payload.bytes.length sizeofAckPacket : ℕ) s
        (payload.readAck s.newAck)
  | .drain _ => some (mainSenderDrain s (payload.readAck AckPacket.zero), [])
  | .returned _ => none

/-- One `recvfrom` of `main_receiver`. -/
def receiverRead (inst : Installation) (env : Environment) (r : Receiver)
    (payload : Payload) : Option (Receiver × List AckPacket) :=
  mainReceiver inst.cfg inst.fwrite env.closes (env.send 0) r
    (payload.readPacket r.newPacket)

/-! ### The client -/

/-- `server_response` after one `recvfrom` of the drain loop of `GET`. -/
def drainRead (ret : ℤ) (serverResponse bytes : List UInt8) : List UInt8 :=
  let size :=
    if ret = EXIT_SUCCESS then feedback.TRANSFER_COMPLETED.length
    else feedback.TRANSFER_ERROR.length
  LittleEndian.overlay (bytes.take size) serverResponse

/-- The test that ends the drain loop of `GET`. -/
def drainEnds (serverResponse : List UInt8) : Bool :=
  bufferHolds serverResponse feedback.TRANSFER_COMPLETED ||
    bufferHolds serverResponse feedback.TRANSFER_ERROR

/-- Where the client is: at a prompt for the user, in one of its `recvfrom`, or
done. -/
inductive ClientPc where
  /-- `get_user_input` with `flag` true, before the `fgets` -/
  | prompt
  /-- in its `recvfrom`, with a timeout of one second -/
  | awaitReply
  /-- `get_user_input` with `flag` false, before the `fgets` -/
  | getPrompt
  /-- in its `recvfrom`, with a timeout of one second -/
  | getAwaitReply
  | receiving (transfer : ℕ) (receiver : Receiver)
  | getDrain (transfer : ℕ) (ret : ℤ) (serverResponse : List UInt8)
  /-- `get_filename_user_input` -/
  | putPrompt
  | putAwaitExist (filename : Text)
  | putAwaitStart (filename : Text)
  | sending (transfer : ℕ) (sender : Sender)
  | closeAwaitFINACK
  | closeAwaitFIN
  | finished
  /-- `spqr_assert(fclose(file))` of `main_receiver` has ended the process. -/
  | crashed (transfer : ℕ)

/-- The process has ended. -/
def ClientPc.gone : ClientPc → Bool
  | .finished => true
  | .crashed _ => true
  | _ => false

/-- Locals of `client_manage_server_commands` that outlive a step. -/
structure Client where
  pc : ClientPc
  request : Text
  /-- Ghost: the number of texts sent so far. -/
  requests : ℕ

namespace Client

/-- `client_send_packet` -/
def sendText (c : Client) (message : Text) (transfer : Option ℕ) :
    Client × List Datagram :=
  ({ c with requests := c.requests + 1 },
    [⟨.text message, transfer, c.requests + 1⟩])

/-- Another message in the same step. -/
def andThen (sent : Client × List Datagram)
    (next : Client → Client × List Datagram) : Client × List Datagram :=
  let (c, datagrams) := next sent.1
  (c, sent.2 ++ datagrams)

/-- `client_close_connection_with_server`, up to its first `recvfrom`. -/
def closeConnection (c : Client) : Client × List Datagram :=
  sendText { c with pc := .closeAwaitFINACK } udp.FIN none

/-- The head of the loop, `start:`. -/
def start (c : Client) : Client × List Datagram :=
  if c.request = cmd.CLOSE then c.closeConnection
  else if c.request = cmd.GET then ({ c with pc := .getPrompt }, [])
  else if c.request = cmd.PUT then ({ c with pc := .putPrompt, request := [] }, [])
  else ({ c with pc := .prompt }, [])

/-- `get_user_input` with `flag` true has returned. -/
def afterUserInput (c : Client) : Client × List Datagram :=
  if c.request = feedback.EXIT then c.closeConnection else c.start

/-- `main_receiver` has returned `ret`: the drain loop of `GET`. -/
def afterReceiver (c : Client) (transfer : ℕ) (ret : ℤ) : Client :=
  { c with pc := .getDrain transfer ret (List.replicate MAX_READ_LINE 0) }

/-- `receive_data_from_sender` has returned `ret`, and `fclose` comes next. -/
def afterLoop (closes : Bool) (c : Client) (transfer : ℕ) (ret : ℤ) : Client :=
  if closes then c.afterReceiver transfer (mainReceiverRet ret)
  else { c with pc := .crashed transfer }

/-- `main_receiver`, up to its first `recvfrom`. -/
def mainReceiver (env : Environment) (transfer : ℕ) (c : Client) :
    Client × List Datagram :=
  if env.opens then
    sendText { c with pc := .receiving transfer Receiver.initial }
      feedback.START_TRANSFER (some transfer)
  else (c.afterReceiver transfer TRANSFER_ERROR, [])

/-- The end of the `PUT` branch. -/
def completed (c : Client) : Client × List Datagram :=
  andThen (c.sendText feedback.TRANSFER_COMPLETED none) start

/-- `main_sender` has returned `ret`. -/
def afterSender (c : Client) (ret : ℤ) : Client × List Datagram :=
  if ret = TRANSFER_ERROR then c.start else c.completed

/-- The packets of a transfer on their way. -/
def packetsOf (c : Client) (transfer : ℕ) (packets : List Packet) : List Datagram :=
  packets.map fun packet => ⟨.packet packet, some transfer, c.requests⟩

def acksOf (c : Client) (transfer : ℕ) (acks : List AckPacket) : List Datagram :=
  acks.map fun ack => ⟨.ack ack, some transfer, c.requests⟩

/-- `main_sender`, up to its first `recvfrom`. -/
def mainSender (cfg : Settings) (env : Environment) (transfer : ℕ) (c : Client) :
    Option (Client × List Datagram) :=
  if env.opens then
    (mainSenderStart cfg env.contents env.send).map fun (s, packets) =>
      ({ c with pc := .sending transfer s }, c.packetsOf transfer packets)
  else some (c.afterSender TRANSFER_ERROR)

/-- `main_sender` goes on, or returns. -/
def sendingTo (c : Client) (transfer : ℕ) (s : Sender) (packets : List Packet) :
    Client × List Datagram :=
  match s.phase with
  | .returned ret =>
      andThen (c, c.packetsOf transfer packets) fun c => c.afterSender ret
  | _ => ({ c with pc := .sending transfer s }, c.packetsOf transfer packets)

/-- The user types a line. -/
def type (env : Environment) (typed : List UInt8) (c : Client) :
    Option (Client × List Datagram) :=
  let line := readLine typed
  match c.pc with
  | .prompt => some (sendText { c with pc := .awaitReply, request := line } line none)
  | .getPrompt =>
      some (sendText { c with pc := .getAwaitReply, request := line } line none)
  | .putPrompt =>
      if line ∈ env.listing then
        some (sendText { c with pc := .putAwaitExist line } line none)
      else some (andThen (c.sendText feedback.ABORT none) start)
  | _ => none

/-- `recvfrom` returns a datagram. `fresh` numbers the transfer that may start
with it. -/
def receive (inst : Installation) (env : Environment) (fresh : ℕ) (c : Client)
    (datagram : Datagram) : Option (Client × List Datagram) :=
  let message := cString datagram.payload.bytes
  match c.pc with
  | .awaitReply =>
      some (afterUserInput { c with request := spqrUpper c.request })
  | .getAwaitReply =>
      if message = SPQR_FILENAME_NOT_FOUND then some (start { c with request := [] })
      else some (c.mainReceiver env fresh)
  | .receiving transfer r =>
      (receiverRead inst env r datagram.payload).map fun (r, acks) =>
        match r.result with
        | some ret => (c.afterLoop env.closes transfer ret, c.acksOf transfer acks)
        | none => ({ c with pc := .receiving transfer r }, c.acksOf transfer acks)
  | .getDrain transfer ret serverResponse =>
      let buffer := drainRead ret serverResponse datagram.payload.bytes
      if drainEnds buffer then some c.start
      else some ({ c with pc := .getDrain transfer ret buffer }, [])
  | .putAwaitExist filename =>
      if message = file.EXIST then some (start { c with request := [] })
      else some ({ c with pc := .putAwaitStart filename, request := message }, [])
  | .putAwaitStart _ =>
      if message = feedback.START_TRANSFER then
        c.mainSender inst.cfg env (datagram.transfer.getD fresh)
      else some c.completed
  | .sending transfer s =>
      (senderRead inst.cfg env.send s datagram.payload).map fun (s, packets) =>
        c.sendingTo transfer s packets
  | .closeAwaitFINACK =>
      if message = udp.FINACK then some ({ c with pc := .closeAwaitFIN }, [])
      else some ({ c with pc := .finished }, [])
  | .closeAwaitFIN =>
      if message = udp.FIN then
        some (sendText { c with pc := .finished } udp.FINACK none)
      else some ({ c with pc := .finished }, [])
  | .prompt => none
  | .getPrompt => none
  | .putPrompt => none
  | .finished => none
  | .crashed _ => none

/-- `recvfrom` times out. The other calls have no timeout. -/
def timeout (inst : Installation) (env : Environment) (fresh : ℕ) (c : Client) :
    Option (Client × List Datagram) :=
  match c.pc with
  | .awaitReply => some (afterUserInput { c with request := feedback.EXIT })
  | .getAwaitReply =>
      some (mainReceiver env fresh { c with request := feedback.EXIT })
  | .getDrain _ _ _ => some (c, [])
  | .sending transfer s =>
      (expire inst.cfg s env.send).map fun (s, packets) =>
        c.sendingTo transfer s packets
  | _ => none

end Client

/-! ### The server child -/

/-- Where the server child is: in one of its `recvfrom`, or gone. -/
inductive ServerPc where
  /-- `start:`, the head of the loop -/
  | head
  | getAwaitFilename
  /-- with a timeout of `MAX_TIMEOUT` -/
  | getAwaitStart
  | sending (transfer : ℕ) (sender : Sender)
  | putAwaitName
  | receiving (transfer : ℕ) (receiver : Receiver) (pathSize : ℕ)
  | putDrain (transfer : ℕ) (serverPathname : List UInt8)
  | closeAwaitFIN
  | closeAwaitFINACK
  | exited
  /-- `spqr_assert(fclose(file))` of `main_receiver` has ended the process. -/
  | crashed (transfer : ℕ)

/-- The process has ended. -/
def ServerPc.gone : ServerPc → Bool
  | .exited => true
  | .crashed _ => true
  | _ => false

/-- Locals of `server_manage_client_commands` that outlive a step; both are
ghosts, since the server reads each message into a cleared buffer. -/
structure Server where
  pc : ServerPc
  /-- The last command taken at the head of the loop. -/
  accepted : Text
  /-- The request that the last datagram taken belongs to. -/
  answering : ℕ

namespace Server

/-- `server_send_packet` -/
def sendText (s : Server) (message : Text) : Datagram :=
  ⟨.text message, none, s.answering⟩

/-- The branch for a command. -/
def command (env : Environment) (s : Server) (request : Text) :
    Server × List Datagram :=
  let s := { s with accepted := request }
  if request = cmd.LIST then (s, (listServerFiles env.listing).map s.sendText)
  else if request = cmd.GET then
    ({ s with pc := .getAwaitFilename }, [s.sendText SPQR_INSERT_FILENAME])
  else if request = cmd.PUT then
    ({ s with pc := .putAwaitName }, [s.sendText cmd.PUT])
  else if request = cmd.CLOSE then
    ({ s with pc := .closeAwaitFIN }, [s.sendText cmd.CLOSE])
  else if request = feedback.EXIT then ({ s with pc := .closeAwaitFIN }, [])
  else (s, [s.sendText SPQR_COMMAND_NOT_FOUND])

/-- `main_sender` has returned `ret`: the end of the `GET` branch. -/
def afterSender (s : Server) (ret : ℤ) : Server × List Datagram :=
  let s := { s with pc := .head }
  if ret = EXIT_SUCCESS then (s, [s.sendText feedback.TRANSFER_COMPLETED])
  else if ret = TRANSFER_ERROR then (s, [s.sendText feedback.TRANSFER_ERROR])
  else (s, [])

def packetsOf (s : Server) (transfer : ℕ) (packets : List Packet) : List Datagram :=
  packets.map fun packet => ⟨.packet packet, some transfer, s.answering⟩

def acksOf (s : Server) (transfer : ℕ) (acks : List AckPacket) : List Datagram :=
  acks.map fun ack => ⟨.ack ack, some transfer, s.answering⟩

/-- `main_sender`, up to its first `recvfrom`. -/
def mainSender (cfg : Settings) (env : Environment) (transfer : ℕ) (s : Server) :
    Option (Server × List Datagram) :=
  if env.opens then
    (mainSenderStart cfg env.contents env.send).map fun (sender, packets) =>
      ({ s with pc := .sending transfer sender }, s.packetsOf transfer packets)
  else some (s.afterSender TRANSFER_ERROR)

/-- `main_sender` goes on, or returns. -/
def sendingTo (s : Server) (transfer : ℕ) (sender : Sender)
    (packets : List Packet) : Server × List Datagram :=
  match sender.phase with
  | .returned ret =>
      let (s', datagrams) := s.afterSender ret
      (s', s.packetsOf transfer packets ++ datagrams)
  | _ => ({ s with pc := .sending transfer sender }, s.packetsOf transfer packets)

/-- `strlen(SERVER_FILES_PATH) + strlen(request) + 1` -/
def pathSize (filename : Text) : ℕ := (text "server-files/").length + filename.length + 1

/-- `main_receiver`, up to its first `recvfrom`. -/
def mainReceiver (env : Environment) (transfer : ℕ) (filename : Text)
    (s : Server) : Server × List Datagram :=
  if env.opens then
    ({ s with pc := .receiving transfer Receiver.initial (pathSize filename) },
      [⟨.text feedback.START_TRANSFER, some transfer, s.answering⟩])
  else ({ s with pc := .head }, [])

/-- `main_receiver` has returned `ret`. -/
def afterReceiver (s : Server) (transfer : ℕ) (ret : ℤ) (pathSize : ℕ) : Server :=
  if ret = TRANSFER_ERROR then { s with pc := .head }
  else { s with pc := .putDrain transfer (List.replicate pathSize 0) }

/-- `receive_data_from_sender` has returned `ret`, and `fclose` comes next. -/
def afterLoop (closes : Bool) (s : Server) (transfer : ℕ) (ret : ℤ)
    (pathSize : ℕ) : Server :=
  if closes then s.afterReceiver transfer (mainReceiverRet ret) pathSize
  else { s with pc := .crashed transfer }

/-- `recvfrom` returns a datagram. `fresh` numbers the transfer that may start
with it. A `strcmp` past the end of the path buffer makes the step undefined
(`none`). -/
def receive (inst : Installation) (env : Environment) (fresh : ℕ) (s : Server)
    (datagram : Datagram) : Option (Server × List Datagram) :=
  let message := cString datagram.payload.bytes
  let s := { s with answering := datagram.request }
  match s.pc with
  | .head => some (s.command env (spqrUpper message))
  | .getAwaitFilename =>
      if message ∈ env.listing then
        some ({ s with pc := .getAwaitStart }, [s.sendText message])
      else some ({ s with pc := .head }, [s.sendText SPQR_FILENAME_NOT_FOUND])
  | .getAwaitStart =>
      if message = feedback.START_TRANSFER then
        s.mainSender inst.cfg env (datagram.transfer.getD fresh)
      else some (s.afterSender TRANSFER_ERROR)
  | .sending transfer sender =>
      (senderRead inst.cfg env.send sender datagram.payload).map
        fun (sender, packets) => s.sendingTo transfer sender packets
  | .putAwaitName =>
      if message = feedback.ABORT then some ({ s with pc := .head }, [])
      else if message ∈ env.listing then
        some ({ s with pc := .head }, [s.sendText file.EXIST])
      else
        let (s', datagrams) := s.mainReceiver env fresh message
        some (s', s.sendText file.NOT_EXIST :: datagrams)
  | .receiving transfer r pathSize =>
      (receiverRead inst env r datagram.payload).map fun (r, acks) =>
        match r.result with
        | some ret =>
            (s.afterLoop env.closes transfer ret pathSize, s.acksOf transfer acks)
        | none =>
            ({ s with pc := .receiving transfer r pathSize },
              s.acksOf transfer acks)
  | .putDrain transfer serverPathname =>
      let buffer := LittleEndian.overlay datagram.payload.bytes serverPathname
      if overruns buffer feedback.TRANSFER_COMPLETED then none
      else if bufferHolds buffer feedback.TRANSFER_COMPLETED then
        some ({ s with pc := .head }, [])
      else some ({ s with pc := .putDrain transfer buffer }, [])
  | .closeAwaitFIN =>
      if message = udp.FIN then
        some ({ s with pc := .closeAwaitFINACK },
          [s.sendText udp.FINACK, s.sendText udp.FIN])
      else some ({ s with pc := .exited }, [])
  | .closeAwaitFINACK => some ({ s with pc := .exited }, [])
  | .exited => none
  | .crashed _ => none

/-- `recvfrom` times out. In `server_receive_packet` that ends the process; the
other calls have no timeout. -/
def timeout (inst : Installation) (env : Environment) (s : Server) :
    Option (Server × List Datagram) :=
  match s.pc with
  | .getAwaitStart => some ({ s with pc := .exited }, [])
  | .sending transfer sender =>
      (expire inst.cfg sender env.send).map fun (sender, packets) =>
        s.sendingTo transfer sender packets
  | .putDrain _ _ => some (s, [])
  | _ => none

/-- A process that has ended takes nothing, and waits for nothing. -/
theorem receive_gone {inst : Installation} {env : Environment} {fresh : ℕ} {s : Server}
    (gone : s.pc.gone = true) (datagram : Datagram) :
    s.receive inst env fresh datagram = none := by
  obtain ⟨pc, accepted, answering⟩ := s
  cases pc with
  | exited | crashed => rfl
  | _ => cases gone

theorem timeout_gone {inst : Installation} {env : Environment} {s : Server}
    (gone : s.pc.gone = true) : s.timeout inst env = none := by
  obtain ⟨pc, accepted, answering⟩ := s
  cases pc with
  | exited | crashed => rfl
  | _ => cases gone

end Server

/-! ### Both together -/

/-- A client, its server child and the datagrams between them, oldest first. -/
structure Session where
  client : Client
  server : Server
  toServer : List Datagram
  toClient : List Datagram
  /-- Ghost: the number of steps so far, which numbers the transfers. -/
  clock : ℕ

/-- What happens next. A datagram is named by its position in its channel. -/
inductive Move where
  | type (typed : List UInt8) (env : Environment)
  | toServer (k : ℕ) (env : Environment)
  | toClient (k : ℕ) (env : Environment)
  | clientTimeout (env : Environment)
  | serverTimeout (env : Environment)

namespace Session

/-- The connection is open and nothing has been typed. -/
def initial : Session where
  client := ⟨.prompt, [], 0⟩
  server := ⟨.head, [], 0⟩
  toServer := []
  toClient := []
  clock := 0

/-- The client has made a step. -/
def clientStep (s : Session) (result : Client × List Datagram) : Session :=
  { s with
    client := result.1
    toServer := s.toServer ++ result.2
    clock := s.clock + 1 }

/-- The server has made a step. -/
def serverStep (s : Session) (result : Server × List Datagram) : Session :=
  { s with
    server := result.1
    toClient := s.toClient ++ result.2
    clock := s.clock + 1 }

/-- The state after a move, if the move can happen. -/
def step (inst : Installation) (s : Session) : Move → Option Session
  | .type typed env => (s.client.type env typed).map s.clientStep
  | .toServer k env => do
      let datagram ← s.toServer[k]?
      let result ← s.server.receive inst env s.clock datagram
      pure (serverStep { s with toServer := s.toServer.eraseIdx k } result)
  | .toClient k env => do
      let datagram ← s.toClient[k]?
      let result ← s.client.receive inst env s.clock datagram
      pure (clientStep { s with toClient := s.toClient.eraseIdx k } result)
  | .clientTimeout env => (s.client.timeout inst env s.clock).map s.clientStep
  | .serverTimeout env => (s.server.timeout inst env).map s.serverStep

/-- The step relation of a session. -/
def Step (inst : Installation) (before : Session) (move : Move) (after : Session) :
    Prop :=
  before.step inst move = some after

end Session

end Spqr
