/-
Module: Spqr.Sigterm
Purpose: A session whose server child runs `child_server_signal_handler` at any point, and
  whose client may run `client_signal_handler`, over channels that keep the order and lose
  nothing.
Trusted boundary: none
Main exports:
  SigtermPc, Sigterm, Terminated, TerminatedEvent, Terminated.step, Terminated.Undisturbed,
  Terminated.Spares, Parting, Parting.countdown, Stranded, Freed
-/
import Spqr.Lib.Countdown
import Spqr.Signals
import Spqr.Strangers
import Spqr.Turns

namespace Spqr

open Labelled

/-! ### The handler -/

/-- Where `child_server_signal_handler` is: in the `recvfrom` into `dummy`, in one of the
two of `server_close_connection_with_client`, or past its `exit`. -/
inductive SigtermPc where
  | discarding
  | awaitFIN
  | awaitFINACK
  | exited
deriving DecidableEq

structure Sigterm where
  pc : SigtermPc
  /-- The socket has a receive timeout, set by what the child was doing. -/
  timed : Bool
deriving DecidableEq

/-- A session with its client's handler, and the handler of its child once `SIGTERM` has
arrived. -/
structure Terminated where
  signalled : Signalled
  handler : Option Sigterm

/-- What happens next. -/
inductive TerminatedEvent where
  /-- in the session; the client's alarm is one of its signals -/
  | run (event : SignalEvent)
  | sigterm

/-- A signal, which no process of the session makes on its own. -/
def TerminatedEvent.isSignal : TerminatedEvent → Bool
  | .run (.signal _) => true
  | .run _ => false
  | .sigterm => true

namespace Terminated

/-- The connection is open, and no signal has arrived. -/
def initial : Terminated := ⟨Signalled.initial, none⟩

def session (s : Terminated) : Session := s.signalled.session

/-- The handler's `recvfrom` returns a datagram. -/
def handlerReceive (s : Terminated) (h : Sigterm) (datagram : Datagram) : Terminated :=
  let message := cString datagram.payload.bytes
  let session := { s.session with toServer := s.session.toServer.eraseIdx 0 }
  let server := { s.session.server with answering := datagram.request }
  let client := s.signalled.handler.map Handler.advance
  match h.pc with
  -- whatever it is
  | .discarding => ⟨⟨session, client⟩, some { h with pc := .awaitFIN }⟩
  | .awaitFIN =>
      if message = udp.FIN then
        ⟨⟨session.serverStep (server, [server.sendText udp.FINACK, server.sendText udp.FIN]),
          client⟩, some { h with pc := .awaitFINACK }⟩
      else ⟨⟨session, client⟩, some { h with pc := .exited }⟩
  -- the handler exits, be it `FINACK` or not
  | .awaitFINACK => ⟨⟨session, client⟩, some { h with pc := .exited }⟩
  -- the socket is closed
  | .exited => ⟨⟨session, client⟩, some h⟩

/-- The session goes on; what concerns the server child concerns its handler. -/
def runStep (inst : Installation) (s : Terminated) (event : SignalEvent) :
    Option Terminated :=
  match event, s.handler with
  | .toServer _, some h => s.session.toServer[0]?.map (s.handlerReceive h)
  | .serverTimeout _, some h =>
      -- `spqr_assert` in `server_receive_packet`
      if h.timed ∧ h.pc ≠ .exited then
        some { s with handler := some { h with pc := .exited } }
      else none
  | event, _ =>
      (s.signalled.step inst event).map fun signalled => { s with signalled := signalled }

/-- The state after an event, if it can happen. -/
def step (inst : Installation) (s : Terminated) : TerminatedEvent → Option Terminated
  | .run event => s.runStep inst event
  | .sigterm =>
      if s.handler.isNone ∧ s.session.server.pc.gone = false then
        some { s with handler := some ⟨.discarding, s.session.server.pc.timed⟩ }
      else none

/-- The step relation of a session whose child may be stopped. -/
def Step (inst : Installation) (before : Terminated) (event : TerminatedEvent)
    (after : Terminated) : Prop :=
  before.step inst event = some after

/-- `SIGQUIT` does not find the client at its prompt. -/
def spares (s : Terminated) : TerminatedEvent → Bool
  | .run (.signal .SIGQUIT) =>
      match s.session.client.pc with
      | .prompt => false
      | _ => true
  | _ => true

/-- The event spares the client at its prompt. -/
def Spares (s : Terminated) (event : TerminatedEvent) : Prop := s.spares event = true

instance (s : Terminated) (event : TerminatedEvent) : Decidable (s.Spares event) :=
  inferInstanceAs (Decidable (_ = _))

/-- What is not a signal does. -/
theorem spares_of_own {s : Terminated} {event : TerminatedEvent}
    (own : event.isSignal = false) : s.Spares event := by
  cases event with
  | sigterm => rfl
  | run event =>
      cases event with
      | signal sig => cases own
      | _ => rfl

/-- The child has run to the `exit` of its handler. -/
def hasExited (s : Terminated) : Bool :=
  match s.handler with
  | some h => h.pc = .exited
  | none => false

/-- The client has run to its end, or to the `exit` of its handler. -/
def clientGone (s : Terminated) : Bool :=
  match s.signalled.handler with
  | some h => h.pc = .exited
  | none => s.session.client.pc.gone

/-- A child that has run to its `exit` stays there. -/
theorem hasExited_step {inst : Installation} {s s' : Terminated} {event : TerminatedEvent}
    (exited : s.hasExited = true) (taken : Step inst s event s') : s'.hasExited = true := by
  obtain ⟨signalled, handler⟩ := s
  cases handler with
  | none => cases exited
  | some h =>
      have its : h.pc = .exited := of_decide_eq_true exited
      cases event with
      | sigterm => cases taken
      | run event =>
          cases event with
          | toServer env =>
              obtain ⟨datagram, _, rfl⟩ := Option.map_eq_some_iff.mp taken
              simp only [handlerReceive, its]
              exact exited
          | serverTimeout env => simp [Step, step, runStep, its] at taken
          | _ =>
              obtain ⟨signalled', _, rfl⟩ := Option.map_eq_some_iff.mp taken
              exact exited

/-! ### What `SIGTERM` finds -/

/-- `SIGTERM` has just stopped a child in a `recvfrom` without timeout, and nothing is on
its way, unless the client has sent a command and waits for its reply. -/
structure Undisturbed (s : Terminated) : Prop where
  handler : s.handler = some ⟨.discarding, false⟩
  unsignalled : s.signalled.handler = none
  toClient : s.session.toClient = []
  client : s.session.client.pc = .prompt ∧ s.session.toServer = [] ∨
    s.session.client.pc = .awaitReply ∧ ∃ command, s.session.toServer = [command]

/-- Both processes are gone, and nothing is on its way. -/
structure Closed (s : Terminated) : Prop where
  client : s.clientGone = true
  handler : s.hasExited = true
  toServer : s.session.toServer = []
  toClient : s.session.toClient = []

end Terminated

/-! ### What is on its way to a handler -/

/-- A `recvfrom` that expects this message finds another one, or one more behind it. -/
def Settles (expected : Text) : List Datagram → Prop
  | [] => False
  | first :: rest => cString first.payload.bytes = expected → rest ≠ []

/-- The `FIN` of a client comes next. -/
def OffersFIN (queue : List Datagram) : Prop :=
  ∃ fin ∈ queue.head?, cString fin.payload.bytes = udp.FIN

namespace SigtermPc

/-- What is on its way to the child brings its handler to the `exit`. -/
def Ends : SigtermPc → List Datagram → Prop
  | .discarding, queue => Settles udp.FIN queue.tail
  | .awaitFIN, queue => Settles udp.FIN queue
  | .awaitFINACK, queue => queue ≠ []
  | .exited, _ => True

/-- The handler is going to answer a `FIN`. -/
def Answers : SigtermPc → List Datagram → Prop
  | .discarding, queue => OffersFIN queue.tail
  | .awaitFIN, queue => OffersFIN queue
  | _, _ => False

/-- The datagrams that the handler may still send. -/
def replies : SigtermPc → ℕ
  | .discarding => 2
  | .awaitFIN => 2
  | .awaitFINACK => 0
  | .exited => 0

end SigtermPc

namespace Handler

/-- What is on its way to the client's handler brings it to its `exit`, unless its
`recvfrom` times out before. -/
def Ends (h : Handler) (pc : SigtermPc) (toServer toClient : List Datagram) : Prop :=
  match h.pc with
  | .awaitFINACK => h.timed = true ∨ Settles udp.FINACK toClient ∨
      toClient = [] ∧ pc.Answers toServer
  | .awaitFIN => h.timed = true ∨ toClient ≠ []
  | .exited => True

/-- The handler has one more datagram to send, or to give up. -/
def replies (h : Handler) : ℕ := if h.pc = .exited then 0 else 1

@[simp] theorem advance_pc (h : Handler) : h.advance.pc = h.pc := by
  rw [advance]
  split_ifs <;> rfl

@[simp] theorem advance_timed (h : Handler) : h.advance.timed = h.timed := by
  rw [advance]
  split_ifs <;> rfl

@[simp] theorem advance_ends (h : Handler) : h.advance.Ends = h.Ends := by
  funext pc toServer toClient
  simp only [Ends, advance_pc, advance_timed]

@[simp] theorem advance_replies (h : Handler) : h.advance.replies = h.replies := by
  rw [replies, replies, advance_pc]

end Handler

theorem Settles.ne_nil {expected : Text} {queue : List Datagram}
    (settles : Settles expected queue) : queue ≠ [] := by
  rintro rfl
  exact settles

/-- More may follow. -/
theorem Settles.append {expected : Text} {queue : List Datagram}
    (settles : Settles expected queue) (more : List Datagram) :
    Settles expected (queue ++ more) := by
  cases queue with
  | nil => exact settles.elim
  | cons first rest => exact fun same => by simp [settles same]

namespace SigtermPc

variable {pc : SigtermPc} {queue : List Datagram}

theorem Ends.append (ends : pc.Ends queue) (more : List Datagram) :
    pc.Ends (queue ++ more) := by
  cases pc with
  | discarding =>
      cases queue with
      | nil => exact ends.elim
      | cons first rest => exact Settles.append ends more
  | awaitFIN => exact Settles.append ends more
  | awaitFINACK => simp [Ends] at ends ⊢; exact fun empty => absurd empty ends
  | exited => trivial

/-- Where nothing is on its way any more, the handler has run to its `exit`. -/
theorem Ends.exited (ends : pc.Ends []) : pc = .exited := by
  cases pc with
  | discarding => exact ends.elim
  | awaitFIN => exact ends.elim
  | awaitFINACK => exact absurd rfl ends
  | exited => rfl

end SigtermPc

/-! ### One datagram -/

/-- What the child's handler makes of a datagram: it sends no more than it may, and what is
on its way still brings both handlers to their `exit`. -/
theorem Terminated.handlerReceive_spec (s : Terminated) (pc : SigtermPc) (timed : Bool)
    {datagram : Datagram} {rest : List Datagram}
    (front : s.session.toServer = datagram :: rest) :
    ∃ pc' sent server clock,
      s.handlerReceive ⟨pc, timed⟩ datagram =
        ⟨⟨⟨s.session.client, server, rest, s.session.toClient ++ sent, clock⟩,
          s.signalled.handler.map Handler.advance⟩, some ⟨pc', timed⟩⟩ ∧
      pc'.replies + sent.length ≤ pc.replies ∧
      (pc.Ends (datagram :: rest) → pc'.Ends rest) ∧
      ∀ (h : Handler) (toClient : List Datagram), h.Ends pc (datagram :: rest) toClient →
        h.Ends pc' rest (toClient ++ sent) := by
  -- a child that has nothing to answer leaves the client to what is on its way already
  have quiet : ∀ pc' : SigtermPc, (pc.Answers (datagram :: rest) → pc'.Answers rest) →
      ∀ (h : Handler) (toClient : List Datagram), h.Ends pc (datagram :: rest) toClient →
        h.Ends pc' rest (toClient ++ []) := by
    intro pc' answers h toClient ends
    rw [List.append_nil]
    unfold Handler.Ends at ends ⊢
    split at ends
    · exact ends.imp id (Or.imp id (And.imp id answers))
    · exact ends
    · trivial
  cases pc with
  | discarding =>
      refine ⟨.awaitFIN, [], s.session.server, s.session.clock, ?_, le_rfl, fun ends => ends,
        quiet _ fun answers => answers⟩
      simp [Terminated.handlerReceive, front]
  | awaitFIN =>
      by_cases its : cString datagram.payload.bytes = udp.FIN
      · let server := { s.session.server with answering := datagram.request }
        refine ⟨.awaitFINACK, [server.sendText udp.FINACK, server.sendText udp.FIN], server,
          s.session.clock + 1, ?_, le_rfl, fun ends => ends its, ?_⟩
        · simp [Terminated.handlerReceive, front, its, Session.serverStep, server]
        · intro h toClient ends
          unfold Handler.Ends at ends ⊢
          split at ends
          · refine ends.imp id fun ends => .inl ?_
            rcases ends with settles | ⟨rfl, _⟩
            · exact settles.append _
            · exact fun _ => List.cons_ne_nil _ _
          · exact ends.imp id fun _ => by simp
          · trivial
      · refine ⟨.exited, [], s.session.server, s.session.clock, ?_, Nat.zero_le _,
          fun _ => trivial, quiet _ ?_⟩
        · simp [Terminated.handlerReceive, front, its]
        · rintro ⟨fin, first, same⟩
          obtain rfl := Option.some.inj first
          exact absurd same its
  | awaitFINACK =>
      refine ⟨.exited, [], s.session.server, s.session.clock, ?_, le_rfl, fun _ => trivial,
        quiet _ False.elim⟩
      simp [Terminated.handlerReceive, front]
  | exited =>
      refine ⟨.exited, [], s.session.server, s.session.clock, ?_, le_rfl, fun _ => trivial,
        quiet _ False.elim⟩
      simp [Terminated.handlerReceive, front]

/-- What the client's handler makes of one. -/
theorem Signalled.handlerReceive_spec (s : Signalled) (h : Handler) {datagram : Datagram}
    {rest : List Datagram} (front : s.session.toClient = datagram :: rest) :
    ∃ h' sent client clock,
      s.handlerReceive h datagram =
        ⟨⟨client, s.session.server, s.session.toServer ++ sent, rest, clock⟩, some h'⟩ ∧
      h'.replies + sent.length ≤ h.replies ∧
      ∀ (pc : SigtermPc) (toServer : List Datagram), h.Ends pc toServer (datagram :: rest) →
        h'.Ends pc (toServer ++ sent) rest := by
  cases pc : h.pc with
  | awaitFINACK =>
      by_cases its : cString datagram.payload.bytes = udp.FINACK
      · refine ⟨{ h with pc := .awaitFIN }, [], s.session.client, s.session.clock, ?_, ?_, ?_⟩
        · simp [Signalled.handlerReceive, pc, its, front]
        · simp [Handler.replies, pc]
        · intro child toServer ends
          simp only [Handler.Ends, pc] at ends ⊢
          refine ends.imp id fun ends => ?_
          rcases ends with settles | ⟨none, _⟩
          · exact settles its
          · cases none
      · refine ⟨{ h with pc := .exited }, [], s.session.client, s.session.clock, ?_, ?_,
          fun _ _ _ => trivial⟩
        · simp [Signalled.handlerReceive, pc, its, front]
        · simp [Handler.replies]
  | awaitFIN =>
      by_cases its : cString datagram.payload.bytes = udp.FIN
      · refine ⟨{ h with pc := .exited },
          (s.session.client.sendText udp.FINACK none).2,
          (s.session.client.sendText udp.FINACK none).1, s.session.clock + 1, ?_, ?_,
          fun _ _ _ => trivial⟩
        · simp [Signalled.handlerReceive, pc, its, front, Session.clientStep]
        · simp [Handler.replies, pc, Client.sendText]
      · refine ⟨{ h with pc := .exited }, [], s.session.client, s.session.clock, ?_, ?_,
          fun _ _ _ => trivial⟩
        · simp [Signalled.handlerReceive, pc, its, front]
        · simp [Handler.replies]
  | exited =>
      refine ⟨h, [], s.session.client, s.session.clock, ?_, le_rfl, ?_⟩
      · simp [Signalled.handlerReceive, pc, front]
      · intro child toServer _
        simp only [Handler.Ends, pc]

/-! ### The end of an undisturbed session -/

/-- How many steps may be left: the user's command is discarded, the client gives up waiting
for its reply, and the connection is closed; or a signal stops the client on the way. -/
inductive Parting : ℕ → Terminated → Prop where
  | prompt {request : Text} {requests : ℕ} {server : Server} {clock : ℕ} :
      Parting 10 ⟨⟨⟨⟨.prompt, request, requests⟩, server, [], [], clock⟩, none⟩,
        some ⟨.discarding, false⟩⟩
  | commanded {request : Text} {requests : ℕ} {server : Server} {clock : ℕ}
      {command : Datagram} :
      Parting 9 ⟨⟨⟨⟨.awaitReply, request, requests⟩, server, [command], [], clock⟩, none⟩,
        some ⟨.discarding, false⟩⟩
  | discarded {request : Text} {requests : ℕ} {server : Server} {clock : ℕ} :
      Parting 8 ⟨⟨⟨⟨.awaitReply, request, requests⟩, server, [], [], clock⟩, none⟩,
        some ⟨.awaitFIN, false⟩⟩
  /-- The client has given up before the child took the command. -/
  | closing {request : Text} {requests : ℕ} {server : Server} {clock : ℕ}
      {command fin : Datagram} (text : fin.payload = .text udp.FIN) :
      Parting 8 ⟨⟨⟨⟨.closeAwaitFINACK, request, requests⟩, server, [command, fin], [],
        clock⟩, none⟩, some ⟨.discarding, false⟩⟩
  | offered {request : Text} {requests : ℕ} {server : Server} {clock : ℕ}
      {fin : Datagram} (text : fin.payload = .text udp.FIN) :
      Parting 7 ⟨⟨⟨⟨.closeAwaitFINACK, request, requests⟩, server, [fin], [], clock⟩, none⟩,
        some ⟨.awaitFIN, false⟩⟩
  | answered {request : Text} {requests : ℕ} {server : Server} {clock : ℕ}
      {finack fin : Datagram} (first : finack.payload = .text udp.FINACK)
      (second : fin.payload = .text udp.FIN) :
      Parting 6 ⟨⟨⟨⟨.closeAwaitFINACK, request, requests⟩, server, [], [finack, fin],
        clock⟩, none⟩, some ⟨.awaitFINACK, false⟩⟩
  | half {request : Text} {requests : ℕ} {server : Server} {clock : ℕ}
      {fin : Datagram} (text : fin.payload = .text udp.FIN) :
      Parting 5 ⟨⟨⟨⟨.closeAwaitFIN, request, requests⟩, server, [], [fin], clock⟩, none⟩,
        some ⟨.awaitFINACK, false⟩⟩
  | acknowledged {request : Text} {requests : ℕ} {server : Server} {clock : ℕ}
      {finack : Datagram} :
      Parting 1 ⟨⟨⟨⟨.finished, request, requests⟩, server, [finack], [], clock⟩, none⟩,
        some ⟨.awaitFINACK, false⟩⟩
  | closed {request : Text} {requests : ℕ} {server : Server} {clock : ℕ} :
      Parting 0 ⟨⟨⟨⟨.finished, request, requests⟩, server, [], [], clock⟩, none⟩,
        some ⟨.exited, false⟩⟩
  /-- `SIGINT` or `SIGALRM` has found the client at its prompt. -/
  | interrupted {client : Client} {server : Server} {clock : ℕ} {h : Handler}
      {exit fin : Datagram} (text : fin.payload = .text udp.FIN)
      (pc : h.pc = .awaitFINACK) (untimed : h.timed = false) :
      Parting 5 ⟨⟨⟨client, server, [exit, fin], [], clock⟩, some h⟩,
        some ⟨.discarding, false⟩⟩
  | heeded {client : Client} {server : Server} {clock : ℕ} {h : Handler} {fin : Datagram}
      (text : fin.payload = .text udp.FIN) (pc : h.pc = .awaitFINACK)
      (untimed : h.timed = false) :
      Parting 4 ⟨⟨⟨client, server, [fin], [], clock⟩, some h⟩, some ⟨.awaitFIN, false⟩⟩
  | replied {client : Client} {server : Server} {clock : ℕ} {h : Handler}
      {finack fin : Datagram} (first : finack.payload = .text udp.FINACK)
      (second : fin.payload = .text udp.FIN) (pc : h.pc = .awaitFINACK)
      (untimed : h.timed = false) :
      Parting 3 ⟨⟨⟨client, server, [], [finack, fin], clock⟩, some h⟩,
        some ⟨.awaitFINACK, false⟩⟩
  | halfway {client : Client} {server : Server} {clock : ℕ} {h : Handler} {fin : Datagram}
      (text : fin.payload = .text udp.FIN) (pc : h.pc = .awaitFIN)
      (untimed : h.timed = false) :
      Parting 2 ⟨⟨⟨client, server, [], [fin], clock⟩, some h⟩, some ⟨.awaitFINACK, false⟩⟩
  /-- A signal has stopped the client later than that, or its handler is at its end. -/
  | leaving {client : Client} {server : Server} {toServer toClient : List Datagram}
      {clock n : ℕ} {h : Handler} {pc : SigtermPc} (child : pc.Ends toServer)
      (handler : h.Ends pc toServer toClient)
      (left : toServer.length + toClient.length + pc.replies + h.replies = n) :
      Parting n ⟨⟨⟨client, server, toServer, toClient, clock⟩, some h⟩, some ⟨pc, false⟩⟩

/-- The client takes the oldest datagram. -/
theorem Terminated.step_toClient {inst : Installation} {session : Session}
    {handler : Option Sigterm} {env : Environment} {datagram : Datagram}
    {rest : List Datagram} {result : Client × List Datagram}
    (front : session.toClient = datagram :: rest) (alive : session.client.pc.gone = false)
    (reads : session.client.receive inst env session.clock datagram = some result) :
    Terminated.step inst ⟨⟨session, none⟩, handler⟩ (.run (.toClient env)) =
      some ⟨⟨({ session with toClient := rest } : Session).clientStep result, none⟩,
        handler⟩ := by
  simp [Terminated.step, Terminated.runStep, Signalled.step, Signalled.clientMoves,
    Session.step, front, alive, reads]

/-- Its handler does. -/
theorem Terminated.step_handled {inst : Installation} {session : Session} {h : Handler}
    {handler : Option Sigterm} {env : Environment} {datagram : Datagram}
    {rest : List Datagram} (front : session.toClient = datagram :: rest) :
    Terminated.step inst ⟨⟨session, some h⟩, handler⟩ (.run (.toClient env)) =
      some ⟨Signalled.handlerReceive ⟨session, some h⟩ h datagram, handler⟩ := by
  simp [Terminated.step, Terminated.runStep, Signalled.step, front]

/-- The child's handler does. -/
theorem Terminated.step_toServer {inst : Installation} {s : Terminated} {h : Sigterm}
    {env : Environment} {datagram : Datagram} {rest : List Datagram}
    (stopped : s.handler = some h) (front : s.session.toServer = datagram :: rest) :
    s.step inst (.run (.toServer env)) = some (s.handlerReceive h datagram) := by
  simp [Terminated.step, Terminated.runStep, stopped, front]

namespace Parting

variable {inst : Installation} {s s' : Terminated} {n : ℕ} {event : TerminatedEvent}

/-- What is left when both programs are at their handlers. -/
theorem spends_leaving {client : Client} {server : Server} {toServer toClient : List Datagram}
    {clock : ℕ} {h : Handler} {pc : SigtermPc} (child : pc.Ends toServer)
    (handler : h.Ends pc toServer toClient)
    (taken : Terminated.Step inst
      ⟨⟨⟨client, server, toServer, toClient, clock⟩, some h⟩, some ⟨pc, false⟩⟩ event s') :
    ∃ m, m < toServer.length + toClient.length + pc.replies + h.replies ∧ Parting m s' := by
  cases event with
  | sigterm => cases taken
  | run event =>
      cases event with
      | toServer env =>
          cases toServer with
          | nil => cases taken
          | cons datagram rest =>
              rw [Terminated.Step, Terminated.step_toServer rfl rfl] at taken
              obtain ⟨pc', sent, server, clock', same, fewer, ends, client'⟩ :=
                Terminated.handlerReceive_spec
                  ⟨⟨⟨client, server, datagram :: rest, toClient, clock⟩, some h⟩,
                    some ⟨pc, false⟩⟩ pc false rfl
              rw [same] at taken
              obtain rfl := Option.some.inj taken
              refine ⟨_, ?_, .leaving (ends child) ?_ rfl⟩
              · simp only [List.length_append, List.length_cons, Terminated.session,
                  Handler.advance_replies]
                omega
              · rw [Handler.advance_ends]
                exact client' h toClient handler
      | toClient env =>
          cases toClient with
          | nil => cases taken
          | cons datagram rest =>
              rw [Terminated.Step, Terminated.step_handled rfl] at taken
              obtain ⟨h', sent, client, clock', same, fewer, ends⟩ :=
                Signalled.handlerReceive_spec
                  ⟨⟨client, server, toServer, datagram :: rest, clock⟩, some h⟩ h rfl
              rw [same] at taken
              obtain rfl := Option.some.inj taken
              refine ⟨_, ?_, .leaving (child.append sent) (ends pc toServer handler) rfl⟩
              simp only [List.length_append, List.length_cons]
              omega
      | handlerTimeout =>
          simp only [Terminated.Step, Terminated.step, Terminated.runStep, Signalled.step]
            at taken
          split_ifs at taken with waits
          · obtain rfl := Option.some.inj taken
            refine ⟨_, ?_, .leaving child trivial rfl⟩
            simp [Handler.replies, waits.2]
          · cases taken
      | _ => cases taken

/-- A signal that stops the client while the child can do without it. -/
theorem spends_signal {session : Session} {pc : SigtermPc} {sig : Signal}
    (taken : Terminated.Step inst ⟨⟨session, none⟩, some ⟨pc, false⟩⟩ (.run (.signal sig)) s')
    (child : ∀ exit more, exit.payload = .text feedback.EXIT →
      pc.Ends (session.toServer ++ exit :: more))
    (client : session.client.pc.timed = true ∨ Settles udp.FINACK session.toClient ∨
      session.toClient = [] ∧ ∀ more, pc.Answers (session.toServer ++ more))
    (enough : session.toServer.length + session.toClient.length + pc.replies + 3 < n) :
    ∃ m, m < n ∧ Parting m s' := by
  obtain ⟨ofClient, server, toServer, toClient, clock⟩ := session
  simp only [Terminated.Step, Terminated.step, Terminated.runStep, Signalled.step] at taken
  split_ifs at taken with alive
  · obtain rfl := Option.some.inj taken
    simp only [Signalled.handle]
    split_ifs with quits
    · refine ⟨_, ?_, .leaving (child _ [] rfl) trivial rfl⟩
      simp only [Client.sendText, List.length_append, List.length_singleton, Handler.replies,
        if_true] at enough ⊢
      omega
    · refine ⟨_, ?_, .leaving (child _ [_] rfl) ?_ rfl⟩
      · simp only [Client.sendText, Client.andThen, List.length_append, List.length_cons,
          List.length_nil, Handler.replies, reduceCtorEq, if_false] at enough ⊢
        omega
      · exact client.imp id (Or.imp id fun answers => ⟨answers.1, answers.2 _⟩)
  · cases taken

/-- The child's handler takes a datagram. -/
theorem spends_toServer {env : Environment} (parting : Parting n s)
    (taken : Terminated.Step inst s (.run (.toServer env)) s') :
    ∃ m, m < n ∧ Parting m s' := by
  cases parting with
  | commanded =>
      obtain rfl := Option.some.inj taken
      exact ⟨8, by omega, .discarded⟩
  | closing text =>
      obtain rfl := Option.some.inj taken
      exact ⟨7, by omega, .offered text⟩
  | offered text =>
      obtain rfl := Option.some.inj taken
      simp only [Terminated.handlerReceive, text, Payload.bytes, cString_FIN, if_true]
      exact ⟨6, by omega, .answered rfl rfl⟩
  | acknowledged =>
      obtain rfl := Option.some.inj taken
      exact ⟨0, by omega, .closed⟩
  | interrupted text pc untimed =>
      obtain rfl := Option.some.inj taken
      exact ⟨4, by omega, .heeded text (by simpa using pc) (by simpa using untimed)⟩
  | heeded text pc untimed =>
      obtain rfl := Option.some.inj taken
      simp only [Terminated.handlerReceive, text, Payload.bytes, cString_FIN, if_true]
      exact ⟨3, by omega, .replied rfl rfl (by simpa using pc) (by simpa using untimed)⟩
  | leaving child handler left =>
      subst left
      exact spends_leaving child handler taken
  -- elsewhere nothing is on its way to it
  | _ => cases taken

/-- The client takes one, at its program or in its handler. -/
theorem spends_toClient {env : Environment} (parting : Parting n s)
    (taken : Terminated.Step inst s (.run (.toClient env)) s') :
    ∃ m, m < n ∧ Parting m s' := by
  cases parting with
  | answered first second =>
      rw [Terminated.Step, Terminated.step_toClient rfl rfl
        (by rw [Client.receive, first, Payload.bytes, cString_FINACK, if_pos rfl])] at taken
      obtain rfl := Option.some.inj taken
      exact ⟨5, by omega, .half second⟩
  | half text =>
      rw [Terminated.Step, Terminated.step_toClient rfl rfl
        (by rw [Client.receive, text, Payload.bytes, cString_FIN, if_pos rfl])] at taken
      obtain rfl := Option.some.inj taken
      exact ⟨1, by omega, .acknowledged⟩
  | replied first second pc untimed =>
      rw [Terminated.Step, Terminated.step_handled rfl] at taken
      simp only [Signalled.handlerReceive, pc, first, Payload.bytes, cString_FINACK,
        if_true] at taken
      obtain rfl := Option.some.inj taken
      exact ⟨2, by omega, .halfway second rfl untimed⟩
  | halfway text pc untimed =>
      rw [Terminated.Step, Terminated.step_handled rfl] at taken
      simp only [Signalled.handlerReceive, pc, text, Payload.bytes, cString_FIN,
        if_true] at taken
      obtain rfl := Option.some.inj taken
      exact ⟨1, by omega, .leaving (List.cons_ne_nil _ _) trivial rfl⟩
  | leaving child handler left =>
      subst left
      exact spends_leaving child handler taken
  | _ => cases taken

/-- The client gives up waiting for the reply to its command. -/
theorem spends_clientTimeout {env : Environment} (parting : Parting n s)
    (taken : Terminated.Step inst s (.run (.clientTimeout env)) s') :
    ∃ m, m < n ∧ Parting m s' := by
  cases parting with
  | commanded =>
      obtain rfl := Option.some.inj taken
      rw [Client.afterUserInput_EXIT]
      exact ⟨8, by omega, .closing rfl⟩
  | discarded =>
      obtain rfl := Option.some.inj taken
      rw [Client.afterUserInput_EXIT]
      exact ⟨7, by omega, .offered rfl⟩
  | _ => cases taken

/-- The client's handler does, where its `recvfrom` has a timeout. -/
theorem spends_handlerTimeout (parting : Parting n s)
    (taken : Terminated.Step inst s (.run .handlerTimeout) s') :
    ∃ m, m < n ∧ Parting m s' := by
  cases parting with
  | interrupted _ _ untimed | heeded _ _ untimed | replied _ _ _ untimed
  | halfway _ _ untimed =>
      simp [Terminated.Step, Terminated.step, Terminated.runStep, Signalled.step,
        untimed] at taken
  | leaving child handler left =>
      subst left
      exact spends_leaving child handler taken
  | _ => cases taken

/-- A signal stops the client wherever it is; `SIGQUIT` does not find it at its prompt. -/
theorem spends_stopped {sig : Signal} (parting : Parting n s)
    (taken : Terminated.Step inst s (.run (.signal sig)) s')
    (spares : s.Spares (.run (.signal sig))) : ∃ m, m < n ∧ Parting m s' := by
  have settled : ∀ exit more, exit.payload = .text feedback.EXIT →
      Settles udp.FIN (exit :: more) := by
    have other : cString feedback.EXIT ≠ udp.FIN := by decide +kernel
    intro exit more text same
    rw [text] at same
    exact absurd same other
  have offers : ∀ (fin : Datagram) (more : List Datagram), fin.payload = .text udp.FIN →
      OffersFIN (fin :: more) := fun fin more text =>
    ⟨fin, rfl, by rw [text]; exact cString_FIN⟩
  cases parting with
  | prompt =>
      cases sig with
      | SIGQUIT => cases spares
      | SIGINT =>
          obtain rfl := Option.some.inj taken
          exact ⟨5, by omega, .interrupted rfl rfl rfl⟩
      | SIGALRM =>
          obtain rfl := Option.some.inj taken
          exact ⟨5, by omega, .interrupted rfl rfl rfl⟩
  | commanded | discarded =>
      exact spends_signal taken settled (.inl rfl) (by simp [SigtermPc.replies])
  | closing text | offered text =>
      exact spends_signal taken (fun exit more _ _ => List.cons_ne_nil _ _)
        (.inr (.inr ⟨rfl, fun more => offers _ more text⟩)) (by simp [SigtermPc.replies])
  | answered first second =>
      exact spends_signal taken (fun exit more _ => List.cons_ne_nil _ _)
        (.inr (.inl fun _ => List.cons_ne_nil _ _)) (by simp [SigtermPc.replies])
  | half text =>
      refine spends_signal taken (fun exit more _ => List.cons_ne_nil _ _)
        (.inr (.inl ?_)) (by simp [SigtermPc.replies])
      have other : udp.FIN ≠ udp.FINACK := by decide +kernel
      intro same
      rw [text] at same
      exact absurd (cString_FIN.symm.trans same) other
  | _ => cases taken

/-- Every step brings the session nearer to its end. -/
theorem spends (parting : Parting n s)
    (taken : Within (Terminated.Step inst) Terminated.Spares s event s') :
    ∃ m, m < n ∧ Parting m s' := by
  obtain ⟨taken, spares⟩ := taken
  cases event with
  | sigterm => cases parting <;> cases taken
  | run event =>
      cases event with
      | toServer env => exact spends_toServer parting taken
      | toClient env => exact spends_toClient parting taken
      | clientTimeout env => exact spends_clientTimeout parting taken
      | handlerTimeout => exact spends_handlerTimeout parting taken
      | signal sig => exact spends_stopped parting taken spares
      | type typed env =>
          cases parting with
          | prompt =>
              obtain rfl := Option.some.inj taken
              exact ⟨9, by omega, .commanded⟩
          | _ => cases taken
      | _ => cases parting <;> cases taken

/-- With both programs at their handlers, too, the session goes on by itself. -/
theorem goesOn_leaving {client : Client} {server : Server}
    {toServer toClient : List Datagram} {clock : ℕ} {h : Handler} {pc : SigtermPc}
    (child : pc.Ends toServer) (handler : h.Ends pc toServer toClient)
    (some_ : toServer.length + toClient.length + pc.replies + h.replies ≠ 0) :
    ∃ event s', event.isSignal = false ∧ Terminated.Step inst
      ⟨⟨⟨client, server, toServer, toClient, clock⟩, some h⟩, some ⟨pc, false⟩⟩ event s' := by
  have env : Environment := ⟨[], false, true, 0, [], fun _ => .sent⟩
  cases toServer with
  | cons datagram rest =>
      exact ⟨.run (.toServer env), _, rfl, Terminated.step_toServer rfl rfl⟩
  | nil =>
      obtain rfl := child.exited
      cases toClient with
      | cons datagram rest => exact ⟨.run (.toClient env), _, rfl, Terminated.step_handled rfl⟩
      | nil =>
          have alive : h.pc ≠ .exited := by
            intro gone
            simp [SigtermPc.replies, Handler.replies, gone] at some_
          have timed : h.timed = true := by
            unfold Handler.Ends at handler
            split at handler
            · rcases handler with timed | settles | ⟨_, answers⟩
              · exact timed
              · exact absurd rfl settles.ne_nil
              · exact answers.elim
            · exact handler.resolve_right fun some_ => some_ rfl
            · exact absurd ‹_› alive
          refine ⟨.run .handlerTimeout, ⟨⟨⟨client, server, [], [], clock⟩,
            some { h with pc := .exited }⟩, some ⟨.exited, false⟩⟩, rfl, ?_⟩
          simp only [Terminated.Step, Terminated.step, Terminated.runStep, Signalled.step]
          rw [if_pos ⟨timed, alive⟩]
          rfl

/-- Until it is over, the session goes on by itself. -/
theorem goesOn (parting : Parting n s) (left : n ≠ 0) :
    ∃ event s', event.isSignal = false ∧
      Within (Terminated.Step inst) Terminated.Spares s event s' := by
  have env : Environment := ⟨[], false, true, 0, [], fun _ => .sent⟩
  suffices goes : ∃ event s', event.isSignal = false ∧ Terminated.Step inst s event s' by
    obtain ⟨event, s', own, taken⟩ := goes
    exact ⟨event, s', own, taken, Terminated.spares_of_own own⟩
  cases parting with
  | prompt => exact ⟨.run (.type [] env), _, rfl, rfl⟩
  | commanded => exact ⟨.run (.toServer env), _, rfl, rfl⟩
  | discarded => exact ⟨.run (.clientTimeout env), _, rfl, rfl⟩
  | closing text => exact ⟨.run (.toServer env), _, rfl, rfl⟩
  | offered text => exact ⟨.run (.toServer env), _, rfl, rfl⟩
  | answered first second =>
      exact ⟨.run (.toClient env), _, rfl, Terminated.step_toClient rfl rfl
        (by rw [Client.receive, first, Payload.bytes, cString_FINACK, if_pos rfl])⟩
  | half text =>
      exact ⟨.run (.toClient env), _, rfl, Terminated.step_toClient rfl rfl
        (by rw [Client.receive, text, Payload.bytes, cString_FIN, if_pos rfl])⟩
  | acknowledged => exact ⟨.run (.toServer env), _, rfl, rfl⟩
  | closed => exact absurd rfl left
  | interrupted text pc untimed => exact ⟨.run (.toServer env), _, rfl, rfl⟩
  | heeded text pc untimed => exact ⟨.run (.toServer env), _, rfl, rfl⟩
  | replied first second pc untimed =>
      exact ⟨.run (.toClient env), _, rfl, Terminated.step_handled rfl⟩
  | halfway text pc untimed =>
      exact ⟨.run (.toClient env), _, rfl, Terminated.step_handled rfl⟩
  | leaving child handler total =>
      subst total
      exact goesOn_leaving child handler left

theorem countdown :
    Countdown (Within (Terminated.Step inst) Terminated.Spares)
      (fun event : TerminatedEvent => event.isSignal = false) Parting :=
  ⟨spends, goesOn⟩

theorem of_undisturbed (undisturbed : s.Undisturbed) : ∃ n ≤ 10, Parting n s := by
  obtain ⟨⟨⟨⟨pc, request, requests⟩, server, toServer, toClient, clock⟩, signal⟩, handler⟩ := s
  obtain ⟨rfl, rfl, rfl, ⟨rfl, rfl⟩ | ⟨rfl, command, rfl⟩⟩ := undisturbed
  · exact ⟨10, le_rfl, .prompt⟩
  · exact ⟨9, by omega, .commanded⟩

/-- Where nothing is left, both processes are gone. -/
theorem ends (parting : Parting 0 s) : s.Closed := by
  cases parting with
  | closed => exact ⟨rfl, rfl, rfl, rfl⟩
  | @leaving _ _ toServer toClient _ _ h pc child handler left =>
      obtain rfl : toServer = [] := List.eq_nil_of_length_eq_zero (by omega)
      obtain rfl : toClient = [] := List.eq_nil_of_length_eq_zero (by omega)
      obtain rfl := child.exited
      have gone : h.pc = .exited := by
        by_contra alive
        rw [Handler.replies, if_neg alive] at left
        omega
      exact ⟨decide_eq_true gone, rfl, rfl, rfl⟩

/-- Unless a signal has stopped its client, the child exits last. -/
theorem closed_of_exited (parting : Parting n s) (exited : s.hasExited = true)
    (unsignalled : s.signalled.handler = none) : s.Closed := by
  cases parting with
  | closed => exact ⟨rfl, rfl, rfl, rfl⟩
  | leaving | interrupted | heeded | replied | halfway => cases unsignalled
  | _ => cases exited

end Parting

/-! ### The end that does not come -/

/-- The handler of the child waits for a `FIN` that nobody sends: it has discarded the only
one, or is about to; or it has so with the `EXIT` of a client that is gone. -/
inductive Stranded : Terminated → Prop where
  | caught {request : Text} {requests : ℕ} {server : Server} {clock : ℕ} {fin : Datagram} :
      Stranded ⟨⟨⟨⟨.closeAwaitFINACK, request, requests⟩, server, [fin], [], clock⟩, none⟩,
        some ⟨.discarding, false⟩⟩
  | waiting {request : Text} {requests : ℕ} {server : Server} {clock : ℕ} :
      Stranded ⟨⟨⟨⟨.closeAwaitFINACK, request, requests⟩, server, [], [], clock⟩, none⟩,
        some ⟨.awaitFIN, false⟩⟩
  /-- `SIGQUIT` has found the client at its prompt. -/
  | deserted {client : Client} {server : Server} {clock : ℕ} {h : Handler} {exit : Datagram}
      (gone : h.pc = .exited) :
      Stranded ⟨⟨⟨client, server, [exit], [], clock⟩, some h⟩, some ⟨.discarding, false⟩⟩
  | forsaken {client : Client} {server : Server} {clock : ℕ} {h : Handler}
      (gone : h.pc = .exited) :
      Stranded ⟨⟨⟨client, server, [], [], clock⟩, some h⟩, some ⟨.awaitFIN, false⟩⟩

/-- A signal has stopped the client, and what is on its way brings the child to its
`exit`. -/
structure Freed (s : Terminated) : Prop where
  client : s.signalled.handler.isSome = true
  child : ∃ pc, s.handler = some ⟨pc, false⟩ ∧ pc.Ends s.session.toServer

namespace Stranded

variable {inst : Installation} {s s' : Terminated} {event : TerminatedEvent}

/-- `SIGQUIT` at its prompt takes the client away for good. -/
theorem of_quit (undisturbed : s.Undisturbed) (idle : s.session.client.pc = .prompt)
    (taken : Terminated.Step inst s (.run (.signal .SIGQUIT)) s') : Stranded s' := by
  obtain ⟨⟨⟨⟨pc, request, requests⟩, server, toServer, toClient, clock⟩, signal⟩, handler⟩ := s
  obtain ⟨rfl, rfl, rfl, ⟨rfl, rfl⟩ | ⟨waits, _⟩⟩ := undisturbed
  · obtain rfl := Option.some.inj taken
    exact .deserted rfl
  · cases idle.symm.trans waits

/-- No step changes that but a signal to the client. -/
theorem step (stranded : Stranded s) (taken : Terminated.Step inst s event s')
    (own : ∀ sig, event ≠ .run (.signal sig)) : Stranded s' := by
  cases stranded with
  | caught =>
      cases event with
      | sigterm => cases taken
      | run event =>
          cases event with
          | toServer env =>
              obtain rfl := Option.some.inj taken
              exact .waiting
          | signal sig => exact absurd rfl (own sig)
          | _ => cases taken
  | waiting =>
      cases event with
      | sigterm => cases taken
      | run event =>
          cases event with
          | signal sig => exact absurd rfl (own sig)
          | _ => cases taken
  | deserted gone =>
      cases event with
      | sigterm => cases taken
      | run event =>
          cases event with
          | toServer env =>
              obtain rfl := Option.some.inj taken
              exact .forsaken (by simpa using gone)
          | handlerTimeout =>
              simp [Terminated.Step, Terminated.step, Terminated.runStep, Signalled.step,
                gone] at taken
          | _ => cases taken
  | forsaken gone =>
      cases event with
      | sigterm => cases taken
      | run event =>
          cases event with
          | handlerTimeout =>
              simp [Terminated.Step, Terminated.step, Terminated.runStep, Signalled.step,
                gone] at taken
          | _ => cases taken

theorem waits (stranded : Stranded s) : s.hasExited = false := by
  cases stranded <;> rfl

/-- A signal to the client lets the child go: its `EXIT` is no `FIN`. -/
theorem freed {sig : Signal} (stranded : Stranded s)
    (taken : Terminated.Step inst s (.run (.signal sig)) s') : Freed s' := by
  have other : cString feedback.EXIT ≠ udp.FIN := by decide +kernel
  cases stranded with
  | caught =>
      cases sig <;> obtain rfl := Option.some.inj taken <;>
        exact ⟨rfl, _, rfl, fun same => absurd same other⟩
  | waiting =>
      cases sig <;> obtain rfl := Option.some.inj taken <;>
        exact ⟨rfl, _, rfl, fun same => absurd same other⟩
  | deserted gone => cases taken
  | forsaken gone => cases taken

end Stranded

namespace Freed

variable {inst : Installation} {s s' : Terminated} {event : TerminatedEvent}

/-- The child gets nearer to its `exit`, and nothing keeps it from it. -/
theorem step (freed : Freed s) (taken : Terminated.Step inst s event s') : Freed s' := by
  obtain ⟨⟨session, client⟩, handler⟩ := s
  obtain ⟨stopped, pc, rfl, ends⟩ := freed
  obtain ⟨h, rfl⟩ := Option.isSome_iff_exists.mp stopped
  cases event with
  | sigterm => cases taken
  | run event =>
      cases event with
      | toServer env =>
          obtain ⟨datagram, front, rfl⟩ := Option.map_eq_some_iff.mp taken
          obtain ⟨rest, queue⟩ : ∃ rest, session.toServer = datagram :: rest := by
            cases queue : session.toServer with
            | nil => simp [Terminated.session, queue] at front
            | cons first rest =>
                simp only [Terminated.session, queue, List.getElem?_cons_zero,
                  Option.some.injEq] at front
                exact ⟨rest, by rw [front]⟩
          obtain ⟨pc', sent, server, clock, same, _, nearer, _⟩ :=
            Terminated.handlerReceive_spec ⟨⟨session, some h⟩, some ⟨pc, false⟩⟩ pc false queue
          rw [same]
          simp only [Terminated.session, queue] at ends
          exact ⟨rfl, pc', rfl, nearer ends⟩
      | toClient env =>
          cases queue : session.toClient with
          | nil => simp [Terminated.Step, Terminated.step, Terminated.runStep,
              Signalled.step, queue] at taken
          | cons datagram rest =>
              rw [Terminated.Step, Terminated.step_handled queue] at taken
              obtain ⟨h', sent, client, clock, same, _⟩ :=
                Signalled.handlerReceive_spec ⟨session, some h⟩ h queue
              rw [same] at taken
              obtain rfl := Option.some.inj taken
              exact ⟨rfl, pc, rfl, ends.append sent⟩
      | handlerTimeout =>
          simp only [Terminated.Step, Terminated.step, Terminated.runStep, Signalled.step]
            at taken
          split_ifs at taken
          · obtain rfl := Option.some.inj taken
            exact ⟨rfl, pc, rfl, ends⟩
          · cases taken
      | _ => cases taken

/-- Once nothing is on its way to it, the child has exited. -/
theorem hasExited (freed : Freed s) (nothing : s.session.toServer = []) :
    s.hasExited = true := by
  obtain ⟨_, pc, handler, ends⟩ := freed
  rw [nothing] at ends
  rw [Terminated.hasExited, handler, ends.exited]
  rfl

end Freed

namespace Terminated

/-- A user who closes the connection can be caught. -/
theorem reaches_stranded {inst : Installation} {env : Environment} {typed : List UInt8}
    (close : spqrUpper (readLine typed) = cmd.CLOSE) :
    Run (Step inst) initial
      [.run (.type typed env), .run (.toServer env), .run (.toClient env), .sigterm]
      ⟨⟨⟨⟨.closeAwaitFINACK, cmd.CLOSE, 2⟩, ⟨.closeAwaitFIN, cmd.CLOSE, 1⟩,
        [⟨.text udp.FIN, none, 2⟩], [], 3⟩, none⟩, some ⟨.discarding, false⟩⟩ := by
  have typing : Step inst initial (.run (.type typed env))
      ⟨⟨⟨⟨.awaitReply, readLine typed, 1⟩, ⟨.head, [], 0⟩,
        [⟨.text (readLine typed), none, 1⟩], [], 1⟩, none⟩, none⟩ := rfl
  have accepting : Step inst
      ⟨⟨⟨⟨.awaitReply, readLine typed, 1⟩, ⟨.head, [], 0⟩,
        [⟨.text (readLine typed), none, 1⟩], [], 1⟩, none⟩, none⟩ (.run (.toServer env))
      ⟨⟨⟨⟨.awaitReply, readLine typed, 1⟩, ⟨.closeAwaitFIN, cmd.CLOSE, 1⟩, [],
        [⟨.text cmd.CLOSE, none, 1⟩], 2⟩, none⟩, none⟩ := by
    have noList : cmd.CLOSE ≠ cmd.LIST := by decide +kernel
    simp [Step, step, runStep, Signalled.step, Session.step, Server.receive, Payload.bytes,
      cString_readLine, close, Server.command, noList, CLOSE_ne.1, CLOSE_ne.2, ServerPc.gone,
      Session.serverStep, Server.sendText]
  have closing : Step inst
      ⟨⟨⟨⟨.awaitReply, readLine typed, 1⟩, ⟨.closeAwaitFIN, cmd.CLOSE, 1⟩, [],
        [⟨.text cmd.CLOSE, none, 1⟩], 2⟩, none⟩, none⟩ (.run (.toClient env))
      ⟨⟨⟨⟨.closeAwaitFINACK, cmd.CLOSE, 2⟩, ⟨.closeAwaitFIN, cmd.CLOSE, 1⟩,
        [⟨.text udp.FIN, none, 2⟩], [], 3⟩, none⟩, none⟩ := by
    rw [Step, step_toClient rfl rfl rfl, close, Client.afterUserInput,
      if_neg EXIT_ne.2.2.2.symm, Client.start, if_pos rfl]
    rfl
  exact (((Run.single typing).tail accepting).tail closing).tail rfl

end Terminated

end Spqr
