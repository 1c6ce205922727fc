/-
Module: Spqr.Lockstep
Purpose: How client and server stand to each other between two steps of a
  session: every pair of waits that a session reaches as long as neither of them
  takes one of the branches that put it out of step.
Trusted boundary: none
Main exports:
  Behind, Ahead, Lockstep, Prudent, Unhurried, Atomic, Allowed
-/
import Mathlib.Data.List.TakeWhile
import Spqr.Ongoing

namespace Spqr

open Labelled Transfer

/-! ### Texts that are read as they were sent -/

/-- A typed line fits the buffer and has no zero in it. -/
theorem cString_readLine (typed : List UInt8) :
    cString (readLine typed) = readLine typed := by
  have short : (readLine typed).length ≤ MAX_READ_LINE := by
    have := (@List.takeWhile_sublist _ (typed.take (MAX_READ_LINE - 1))
      fun byte => byte != 10 && byte != 0).length_le
    have := List.length_take_le (MAX_READ_LINE - 1) typed
    rw [readLine]
    omega
  rw [cString, List.take_of_length_le short, List.takeWhile_eq_self_iff]
  intro byte member
  have kept := List.mem_takeWhile_imp member
  simp only [Bool.and_eq_true] at kept
  exact kept.2

/-- The messages are read as they are. -/
theorem cString_message :
    ∀ message ∈ [feedback.START_TRANSFER, SPQR_FILENAME_NOT_FOUND, feedback.ABORT,
      file.EXIST, file.NOT_EXIST, udp.FIN, udp.FINACK], cString message = message := by
  decide +kernel

@[simp] theorem cString_START :
    cString feedback.START_TRANSFER = feedback.START_TRANSFER :=
  cString_message _ (by simp)

@[simp] theorem cString_NOT_FOUND :
    cString SPQR_FILENAME_NOT_FOUND = SPQR_FILENAME_NOT_FOUND :=
  cString_message _ (by simp)

@[simp] theorem cString_ABORT : cString feedback.ABORT = feedback.ABORT :=
  cString_message _ (by simp)

@[simp] theorem cString_EXIST : cString file.EXIST = file.EXIST :=
  cString_message _ (by simp)

@[simp] theorem cString_NOT_EXIST : cString file.NOT_EXIST = file.NOT_EXIST :=
  cString_message _ (by simp)

@[simp] theorem cString_FIN : cString udp.FIN = udp.FIN :=
  cString_message _ (by simp)

@[simp] theorem cString_FINACK : cString udp.FINACK = udp.FINACK :=
  cString_message _ (by simp)

/-- The first byte of the listing is that of its heading. -/
theorem listNames_head {byte : UInt8} :
    ∀ (names : List Text) (buffer : Text), buffer.head? = some byte →
      ∀ message ∈ (listNames buffer names).head?, message.head? = some byte := by
  intro names
  induction names with
  | nil =>
      intro buffer head message member
      rw [listNames] at member
      split_ifs at member with empty
      · simp at member
      · simp only [List.head?_cons, Option.mem_def, Option.some.injEq] at member
        rw [← member, head]
  | cons filename names inductionHypothesis =>
      intro buffer head message member
      have longer : (buffer ++ listingEntry filename).head? = some byte := by
        rw [List.head?_append, head]
        rfl
      simp only [listNames] at member
      split_ifs at member with full
      · simp only [List.head?_cons, Option.mem_def, Option.some.injEq] at member
        rw [← member, List.head?_take, if_neg (by decide), longer]
      · exact inductionHypothesis _ longer message member

/-- No listing is taken for `FINACK`. -/
theorem listing_ne_FINACK {names : List Text} {message : Text}
    (only : listServerFiles names = [message]) : cString message ≠ udp.FINACK := by
  have notFinack : ∀ byte : UInt8, byte ≠ 70 → message.head? = some byte →
      cString message ≠ udp.FINACK := by
    intro byte other head same
    obtain ⟨rest, rfl⟩ : ∃ rest, message = byte :: rest := by
      cases message with
      | nil => simp at head
      | cons first rest =>
          obtain rfl := Option.some.inj head
          exact ⟨rest, rfl⟩
    have first := congrArg List.head? same
    rw [show udp.FINACK.head? = some 70 from by decide +kernel, cString,
      MAX_READ_LINE, List.take_succ_cons, List.takeWhile_cons] at first
    split_ifs at first
    · exact other (Option.some.inj first)
    · simp at first
  unfold listServerFiles at only
  split_ifs at only
  · obtain rfl := List.singleton_inj.mp only
    exact notFinack 10 (by decide) (by decide +kernel)
  · have head : (text "List of files availables on the server:\n").head? =
        some 76 := by
      decide +kernel
    exact notFinack 76 (by decide)
      (listNames_head names _ head message (by rw [only]; rfl))

/-! ### One party ahead of the other -/

variable {inst : Installation} {stepwise : Prop}

/-- The server has these datagrams to read before it is back at the head of its
loop. With `stepwise` the packets of a transfer are datagrams of their own. -/
inductive Behind (stepwise : Prop) : Server → List Datagram → Prop where
  | head {accepted : Text} {answering : ℕ} :
      Behind stepwise ⟨.head, accepted, answering⟩ []
  | aborted {accepted : Text} {answering n : ℕ} :
      Behind stepwise ⟨.putAwaitName, accepted, answering⟩
        [⟨.text feedback.ABORT, none, n⟩]
  | completed {t : ℕ} {buffer : List UInt8} {accepted : Text} {answering n : ℕ}
      {packets : List Datagram}
      (strays : ∀ e ∈ packets, ¬ e.payload.IsText)
      (whole : stepwise ∨ packets = [] ∧
        buffer[feedback.TRANSFER_COMPLETED.length]? = some 0) :
      Behind stepwise ⟨.putDrain t buffer, accepted, answering⟩
        (packets ++ [⟨.text feedback.TRANSFER_COMPLETED, none, n⟩])
  | failed {t : ℕ} {r : Receiver} {size : ℕ} {accepted : Text} {answering : ℕ}
      {e : Datagram} (fine : stepwise) (listening : r.result = none)
      (error : e.payload = .packet errorPacket) :
      Behind stepwise ⟨.receiving t r size, accepted, answering⟩ [e]

/-- What the client has sent after those. -/
inductive Ahead (stepwise : Prop) : Client → List Datagram → Prop where
  | prompt {request : Text} {n : ℕ} : Ahead stepwise ⟨.prompt, request, n⟩ []
  | asked {line : Text} {n : ℕ} (whole : cString line = line) :
      Ahead stepwise ⟨.awaitReply, line, n⟩ [⟨.text line, none, n⟩]
  /-- The reply to its command was late. -/
  | gone {request line : Text} {n m : ℕ} (fine : stepwise) :
      Ahead stepwise ⟨.closeAwaitFINACK, request, n⟩
        [⟨.text line, none, m⟩, ⟨.text udp.FIN, none, n⟩]
  /-- The file that it got is called `CLOSE`. -/
  | closing {request : Text} {n : ℕ} (fine : stepwise) :
      Ahead stepwise ⟨.closeAwaitFINACK, request, n⟩ [⟨.text udp.FIN, none, n⟩]

/-- The server has accepted the command and answered it. -/
structure Follows (command : Text) (n : ℕ) (s : Server) : Prop where
  pc : s.pc =
    if command = cmd.GET then .getAwaitFilename
    else if command = cmd.PUT then .putAwaitName
    else if command = cmd.CLOSE then .closeAwaitFIN
    else .head
  accepted : s.accepted = command
  answering : s.answering = n
  noExit : command ≠ feedback.EXIT

/-- The name of a file that leaves `request` without a command when it has been
transferred. -/
def Harmless (stepwise : Prop) (filename : Text) : Prop :=
  filename ≠ cmd.GET ∧ filename ≠ cmd.PUT ∧ (stepwise ∨ filename ≠ cmd.CLOSE)

/-- The drain loop of `GET` will end with this marker. -/
structure Marked (stepwise : Prop) (n : ℕ) (ret : ℤ) (buffer : List UInt8)
    (packets : List Datagram) (marker : Datagram) : Prop where
  strays : ∀ e ∈ packets, ¬ e.payload.IsText
  text : marker.payload = .text feedback.TRANSFER_ERROR ∨
    marker.payload = .text feedback.TRANSFER_COMPLETED ∧ ret = EXIT_SUCCESS
  whole : stepwise ∨ packets = [] ∧ marker.request = n ∧
    drainEnds (drainRead ret buffer marker.payload.bytes) = true

/-- The client waits for what the other side has to send first. -/
def ClientPc.Stuck : ClientPc → Prop
  | .putAwaitExist _ => True
  | .putAwaitStart _ => True
  | .getDrain _ _ _ => True
  | _ => False

/-- The server does, or it waits for `START_TRANSFER`, or it is gone. -/
def ServerPc.Idle : ServerPc → Prop
  | .head => True
  | .getAwaitStart => True
  | .exited => True
  | _ => False

/-! ### Both parties -/

/-- Where the client and the server wait, and what is under way to the server and
to the client. -/
inductive Lockstep (inst : Installation) (stepwise : Prop) :
    Client → Server → List Datagram → List Datagram → Prop where
  | behind {c : Client} {s : Server} {pre later : List Datagram}
      (behind : Behind stepwise s pre) (ahead : Ahead stepwise c later) :
      Lockstep inst stepwise c s (pre ++ later) []
  | answered {line : Text} {n : ℕ} {s : Server} {reply : Datagram}
      (follows : Follows (spqrUpper line) n s) (answers : reply.request = n)
      (noFinack : cString reply.payload.bytes ≠ udp.FINACK) :
      Lockstep inst stepwise ⟨.awaitReply, line, n⟩ s [] [reply]
  /-- `EXIT` has no answer. -/
  | unanswered {line accepted : Text} {n m : ℕ} :
      Lockstep inst stepwise ⟨.awaitReply, line, n⟩ ⟨.closeAwaitFIN, accepted, m⟩
        [] []
  /-- The reply comes after the client has begun to close the connection. -/
  | late {request : Text} {n : ℕ} {s : Server} {toServer rest : List Datagram}
      {reply : Datagram} (fine : stepwise)
      (noFinack : cString reply.payload.bytes ≠ udp.FINACK) :
      Lockstep inst stepwise ⟨.closeAwaitFINACK, request, n⟩ s toServer
        (reply :: rest)
  -- `GET`
  | naming {n : ℕ} :
      Lockstep inst stepwise ⟨.getPrompt, cmd.GET, n⟩
        ⟨.getAwaitFilename, cmd.GET, n⟩ [] []
  | named {line accepted : Text} {n m : ℕ} (whole : cString line = line) :
      Lockstep inst stepwise ⟨.getAwaitReply, line, n⟩
        ⟨.getAwaitFilename, accepted, m⟩ [⟨.text line, none, n⟩] []
  | missing {line accepted : Text} {n m : ℕ} :
      Lockstep inst stepwise ⟨.getAwaitReply, line, n⟩ ⟨.head, accepted, m⟩
        [] [⟨.text SPQR_FILENAME_NOT_FOUND, none, n⟩]
  | found {line accepted : Text} {n m : ℕ} (whole : cString line = line)
      (harmless : Harmless stepwise line) (other : line ≠ SPQR_FILENAME_NOT_FOUND) :
      Lockstep inst stepwise ⟨.getAwaitReply, line, n⟩ ⟨.getAwaitStart, accepted, m⟩
        [] [⟨.text line, none, n⟩]
  | fetching {line accepted : Text} {n m t : ℕ} (harmless : Harmless stepwise line) :
      Lockstep inst stepwise ⟨.receiving t .initial, line, n⟩
        ⟨.getAwaitStart, accepted, m⟩
        [⟨.text feedback.START_TRANSFER, some t, n⟩] []
  | getting {line accepted : Text} {n m t : ℕ} {contents : List UInt8}
      {T : Transfer} {toServer toClient : List Datagram} (fine : stepwise)
      (harmless : Harmless stepwise line)
      (ongoing : Ongoing inst contents T toClient toServer)
      (listening : T.receiver.result = none) :
      Lockstep inst stepwise ⟨.receiving t T.receiver, line, n⟩
        ⟨.sending t T.sender, accepted, m⟩ toServer toClient
  | outliving {line accepted : Text} {n m t : ℕ} {contents buffer : List UInt8}
      {T : Transfer} {toServer toClient : List Datagram} (fine : stepwise)
      (harmless : Harmless stepwise line)
      (ongoing : Ongoing inst contents T toClient toServer)
      (finished : T.receiver.Finished) :
      Lockstep inst stepwise ⟨.getDrain t EXIT_SUCCESS buffer, line, n⟩
        ⟨.sending t T.sender, accepted, m⟩ toServer toClient
  | abandoned {line accepted : Text} {n m t : ℕ} {r : Receiver}
      {e marker : Datagram} (fine : stepwise) (harmless : Harmless stepwise line)
      (listening : r.result = none) (error : e.payload = .packet errorPacket)
      (text : marker.payload = .text feedback.TRANSFER_ERROR) :
      Lockstep inst stepwise ⟨.receiving t r, line, n⟩ ⟨.head, accepted, m⟩
        [] [e, marker]
  | got {line accepted : Text} {n m t : ℕ} {ret : ℤ} {buffer : List UInt8}
      {packets : List Datagram} {marker : Datagram}
      (harmless : Harmless stepwise line)
      (marked : Marked stepwise n ret buffer packets marker) :
      Lockstep inst stepwise ⟨.getDrain t ret buffer, line, n⟩
        ⟨.head, accepted, m⟩ [] (packets ++ [marker])
  -- `PUT`
  | choosing {n : ℕ} :
      Lockstep inst stepwise ⟨.putPrompt, [], n⟩ ⟨.putAwaitName, cmd.PUT, n⟩ [] []
  | offering {name accepted : Text} {n m : ℕ} (whole : cString name = name)
      (noAbort : stepwise → name ≠ feedback.ABORT) :
      Lockstep inst stepwise ⟨.putAwaitExist name, [], n⟩
        ⟨.putAwaitName, accepted, m⟩ [⟨.text name, none, n⟩] []
  | refused {name accepted : Text} {n m : ℕ} :
      Lockstep inst stepwise ⟨.putAwaitExist name, [], n⟩ ⟨.head, accepted, m⟩
        [] [⟨.text file.EXIST, none, n⟩]
  | welcomed {name accepted : Text} {n m t size : ℕ} :
      Lockstep inst stepwise ⟨.putAwaitExist name, [], n⟩
        ⟨.receiving t .initial size, accepted, m⟩ []
        [⟨.text file.NOT_EXIST, none, n⟩,
          ⟨.text feedback.START_TRANSFER, some t, n⟩]
  | storing {name accepted : Text} {n m t size : ℕ} :
      Lockstep inst stepwise ⟨.putAwaitStart name, file.NOT_EXIST, n⟩
        ⟨.receiving t .initial size, accepted, m⟩ []
        [⟨.text feedback.START_TRANSFER, some t, n⟩]
  | putting {accepted : Text} {n m t size : ℕ} {contents : List UInt8}
      {T : Transfer}
      {toServer toClient : List Datagram} (fine : stepwise)
      (ongoing : Ongoing inst contents T toServer toClient)
      (listening : T.receiver.result = none) :
      Lockstep inst stepwise ⟨.sending t T.sender, file.NOT_EXIST, n⟩
        ⟨.receiving t T.receiver size, accepted, m⟩ toServer toClient
  | stored {accepted : Text} {n m t : ℕ} {contents buffer : List UInt8} {T : Transfer}
      {toServer toClient : List Datagram} (fine : stepwise)
      (ongoing : Ongoing inst contents T toServer toClient)
      (finished : T.receiver.Finished) :
      Lockstep inst stepwise ⟨.sending t T.sender, file.NOT_EXIST, n⟩
        ⟨.putDrain t buffer, accepted, m⟩ toServer toClient
  -- waits without an end, and what leads to one
  | unwelcome {name accepted : Text} {n m : ℕ} (coarse : ¬ stepwise) :
      Lockstep inst stepwise ⟨.putAwaitExist name, [], n⟩ ⟨.head, accepted, m⟩
        [] [⟨.text file.NOT_EXIST, none, n⟩]
  | stuck {pc : ClientPc} {request : Text} {n : ℕ} {s : Server}
      (coarse : ¬ stepwise) (waits : pc.Stuck) (idle : s.pc.Idle) :
      Lockstep inst stepwise ⟨pc, request, n⟩ s [] []
  -- the end of the connection
  | closing {request accepted : Text} {n m : ℕ}
      (agreed : stepwise ∨ (request = cmd.CLOSE → accepted = cmd.CLOSE ∧ m + 1 = n)) :
      Lockstep inst stepwise ⟨.closeAwaitFINACK, request, n⟩
        ⟨.closeAwaitFIN, accepted, m⟩ [⟨.text udp.FIN, none, n⟩] []
  | acknowledged {request accepted : Text} {n m : ℕ}
      (agreed : stepwise ∨ (request = cmd.CLOSE → accepted = cmd.CLOSE)) :
      Lockstep inst stepwise ⟨.closeAwaitFINACK, request, n⟩
        ⟨.closeAwaitFINACK, accepted, m⟩ []
        [⟨.text udp.FINACK, none, n⟩, ⟨.text udp.FIN, none, n⟩]
  | ending {request accepted : Text} {n m : ℕ} :
      Lockstep inst stepwise ⟨.closeAwaitFIN, request, n⟩
        ⟨.closeAwaitFINACK, accepted, m⟩ [] [⟨.text udp.FIN, none, n⟩]
  | finished {request : Text} {n : ℕ} {s : Server} {toServer toClient : List Datagram} :
      Lockstep inst stepwise ⟨.finished, request, n⟩ s toServer toClient

/-! ### The branches that they must not take -/

/-- The server answers each command once, and is asked for no file whose name reads
as a command or as a reply. -/
def ServerPc.Prudent (env : Environment) (message : Text) : ServerPc → Prop
  | .head => spqrUpper message = cmd.LIST → (listServerFiles env.listing).length = 1
  | .getAwaitFilename => message ∈ env.listing →
      message ≠ cmd.GET ∧ message ≠ cmd.PUT ∧ message ≠ SPQR_FILENAME_NOT_FOUND
  | _ => True

/-- Nothing is under way. -/
def Quiet (s : Session) : Prop := s.toServer = [] ∧ s.toClient = []

/-- The datagram is the oldest one, or a packet or an acknowledgment that a party
inside a transfer takes. -/
def InTurn (k : ℕ) (role : Role) (d : Datagram) : Prop :=
  k = 0 ∨ ¬ d.payload.IsText ∧ role ≠ .outside

/-- The move takes none of the branches that put the parties out of step whatever
happens in their transfers. -/
def Prudent (s : Session) : Move → Prop
  | .type _ _ => True
  | .toServer k env => ∀ d ∈ s.toServer[k]?,
      InTurn k s.server.pc.role d ∧
        s.server.pc.Prudent env (cString d.payload.bytes)
  | .toClient k _ => ∀ d ∈ s.toClient[k]?, InTurn k s.client.pc.role d
  | .clientTimeout _ =>
      match s.client.pc with
      | .getAwaitReply => Quiet s
      | _ => True
  | .serverTimeout _ =>
      match s.server.pc with
      | .getAwaitStart => Quiet s
      | _ => True

/-- `main_sender` can open its file and number its packets. -/
def Sendable (env : Environment) : Prop :=
  env.opens = true ∧ packetCount env.contents < 2 ^ 31

/-- A drain loop finds a zero after the marker, and no packet reads as one. -/
def Recognised (ends : Bool) (buffer : List UInt8) (d : Datagram) : Prop :=
  (d.payload.IsText → buffer[d.payload.bytes.length]? = some 0) ∧
    (¬ d.payload.IsText → ends = false)

/-- The server can open its files and close them, and ends its drain loop at the
marker. -/
def ServerPc.Unhurried (env : Environment) (d : Datagram) : ServerPc → Prop
  | .getAwaitStart =>
      cString d.payload.bytes = feedback.START_TRANSFER → Sendable env
  | .putAwaitName =>
      cString d.payload.bytes ≠ feedback.ABORT →
        cString d.payload.bytes ∉ env.listing → env.opens = true
  | .putDrain _ buffer =>
      Recognised
        (bufferHolds (LittleEndian.overlay d.payload.bytes buffer)
          feedback.TRANSFER_COMPLETED) buffer d
  | .receiving _ _ _ => env.closes = true
  | _ => True

/-- So can the client, and so does it. -/
def ClientPc.Unhurried (env : Environment) (d : Datagram) : ClientPc → Prop
  | .getAwaitReply =>
      cString d.payload.bytes ≠ SPQR_FILENAME_NOT_FOUND → env.opens = true
  | .putAwaitStart _ =>
      cString d.payload.bytes = feedback.START_TRANSFER → Sendable env
  | .getDrain _ ret buffer =>
      Recognised (drainEnds (drainRead ret buffer d.payload.bytes)) buffer d
  | .receiving _ _ => env.closes = true
  | _ => True

/-- `main_sender` leaves its drain loop only when no acknowledgment is on its way,
and while its peer is still in `main_receiver` no packet either. -/
def Drained (t : ℕ) (phase : SenderPhase) (peer : Role)
    (incoming outgoing : List Datagram) : Prop :=
  match phase with
  | .drain _ => incoming = [] ∧ (peer = .receiving t → outgoing = [])
  | _ => True

/-- Nor does it take one at either end of a transfer or inside it, or take the name
of a file for `ABORT`. -/
def Unhurried (s : Session) : Move → Prop
  | .type typed env =>
      match s.client.pc with
      | .putPrompt => readLine typed ∈ env.listing →
          readLine typed ≠ feedback.ABORT
      | _ => True
  | .toServer k env => ∀ d ∈ s.toServer[k]?, s.server.pc.Unhurried env d
  | .toClient k env => ∀ d ∈ s.toClient[k]?, s.client.pc.Unhurried env d
  | .clientTimeout _ =>
      match s.client.pc with
      | .sending t sender =>
          Drained t sender.phase s.server.pc.role s.toClient s.toServer ∧
            -- a client that gives up does so before the server has finished
            (MAX_ERRORS ≤ sender.maxErrors → s.server.pc.role = .receiving t)
      | _ => True
  | .serverTimeout _ =>
      match s.server.pc with
      | .sending t sender =>
          Drained t sender.phase s.client.pc.role s.toServer s.toClient
      | _ => True

/-- The server takes no step of a transfer, and is asked for no file whose name
closes the connection. -/
def ServerPc.Atomic (env : Environment) (message : Text) : ServerPc → Prop
  | .getAwaitFilename => message ∈ env.listing → message ≠ cmd.CLOSE
  | .getAwaitStart => False
  | _ => True

/-- The move is none of a transfer, which is one step of its own; and it is not
too late for a reply. -/
def Atomic (s : Session) : Move → Prop
  | .type _ _ => True
  | .toServer k env => ∀ d ∈ s.toServer[k]?,
      s.server.pc.Atomic env (cString d.payload.bytes)
  | .toClient _ _ =>
      match s.client.pc with
      | .putAwaitStart _ => False
      | _ => True
  | .clientTimeout _ =>
      match s.client.pc with
      | .awaitReply => Quiet s
      | _ => True
  | .serverTimeout _ => True

/-- What is asked of a move, by how finely transfers are looked at. -/
structure Allowed (stepwise : Prop) (s : Session) (move : Move) : Prop where
  prudent : Prudent s move
  unhurried : stepwise → Unhurried s move
  atomic : ¬ stepwise → Atomic s move

/-! Each of them can be computed. -/

instance (env : Environment) (message : Text) (pc : ServerPc) :
    Decidable (pc.Prudent env message) := by
  induction pc using ServerPc.casesOn <;> unfold ServerPc.Prudent <;> infer_instance

instance (s : Session) : Decidable (Quiet s) :=
  inferInstanceAs (Decidable (_ ∧ _))

instance (k : ℕ) (role : Role) (d : Datagram) : Decidable (InTurn k role d) :=
  inferInstanceAs (Decidable (_ ∨ _))

instance (s : Session) (move : Move) : Decidable (Prudent s move) := by
  induction move using Move.casesOn <;> unfold Prudent
  · infer_instance
  · infer_instance
  · infer_instance
  · generalize s.client.pc = pc
    induction pc using ClientPc.casesOn <;> infer_instance
  · generalize s.server.pc = pc
    induction pc using ServerPc.casesOn <;> infer_instance

instance (env : Environment) : Decidable (Sendable env) :=
  inferInstanceAs (Decidable (_ ∧ _))

instance (ends : Bool) (buffer : List UInt8) (d : Datagram) :
    Decidable (Recognised ends buffer d) :=
  inferInstanceAs (Decidable (_ ∧ _))

instance (env : Environment) (d : Datagram) (pc : ServerPc) :
    Decidable (pc.Unhurried env d) := by
  induction pc using ServerPc.casesOn <;> unfold ServerPc.Unhurried <;> infer_instance

instance (env : Environment) (d : Datagram) (pc : ClientPc) :
    Decidable (pc.Unhurried env d) := by
  induction pc using ClientPc.casesOn <;> unfold ClientPc.Unhurried <;> infer_instance

instance (t : ℕ) (phase : SenderPhase) (peer : Role)
    (incoming outgoing : List Datagram) :
    Decidable (Drained t phase peer incoming outgoing) := by
  induction phase using SenderPhase.casesOn <;> unfold Drained <;> infer_instance

instance (s : Session) (move : Move) : Decidable (Unhurried s move) := by
  induction move using Move.casesOn <;> unfold Unhurried
  · generalize s.client.pc = pc
    induction pc using ClientPc.casesOn <;> infer_instance
  · infer_instance
  · infer_instance
  · generalize s.client.pc = pc
    induction pc using ClientPc.casesOn <;> infer_instance
  · generalize s.server.pc = pc
    induction pc using ServerPc.casesOn <;> infer_instance

instance (env : Environment) (message : Text) (pc : ServerPc) :
    Decidable (pc.Atomic env message) := by
  induction pc using ServerPc.casesOn <;> unfold ServerPc.Atomic <;> infer_instance

instance (s : Session) (move : Move) : Decidable (Atomic s move) := by
  induction move using Move.casesOn <;> unfold Atomic
  · infer_instance
  · infer_instance
  · generalize s.client.pc = pc
    induction pc using ClientPc.casesOn <;> infer_instance
  · generalize s.client.pc = pc
    induction pc using ClientPc.casesOn <;> infer_instance
  · infer_instance

end Spqr
