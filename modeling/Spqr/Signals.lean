/-
Module: Spqr.Signals
Purpose: A session whose client runs `client_signal_handler` at any point, over
  channels that keep the order and lose nothing.
Trusted boundary: none
Main exports:
  Signal, Handler, Signalled, SignalEvent, Signalled.step, Leaked, Heeded,
  slot_released
-/
import Spqr.Lib.Runs
import Spqr.Session

namespace Spqr

open Labelled

/-! ### The handler -/

/-- The signals that `setup_signal_handling` leaves unblocked. -/
inductive Signal where
  | SIGINT
  | SIGQUIT
  | SIGALRM
deriving DecidableEq

/-- Where `client_signal_handler` is: in one of the two `recvfrom` of
`client_close_connection_with_server`, or past its `exit`. -/
inductive HandlerPc where
  | awaitFINACK
  | awaitFIN
  | exited
deriving DecidableEq

structure Handler where
  pc : HandlerPc
  /-- The socket has a receive timeout, set by what the client was doing. -/
  timed : Bool
  /-- Ghost: the datagrams in front of the `EXIT` of the handler. -/
  ahead : ℕ
  /-- Ghost: the server child has taken that `EXIT`. -/
  taken : Bool

/-- The server child takes a datagram; the handler's `EXIT` comes nearer. -/
def Handler.advance (h : Handler) : Handler :=
  if h.ahead = 0 then { h with taken := true } else { h with ahead := h.ahead - 1 }

/-- A session, and the handler once a signal has arrived. -/
structure Signalled where
  session : Session
  handler : Option Handler

/-- What happens next. Datagrams are taken in the order in which they were sent. -/
inductive SignalEvent where
  | type (typed : List UInt8) (env : Environment)
  | toServer (env : Environment)
  | toClient (env : Environment)
  | clientTimeout (env : Environment)
  | serverTimeout (env : Environment)
  | signal (sig : Signal)
  | handlerTimeout

/-- A call of the client after which `SO_RCVTIMEO` is set. (A `main_sender` that
cannot open its file leaves it set as well; the server child is in
`receive_data_from_sender` then, where no `EXIT` is heeded.) -/
def ClientPc.timed : ClientPc → Bool
  | .awaitReply => true
  | .getAwaitReply => true
  | .getDrain _ _ _ => true
  | .sending _ _ => true
  | _ => false

/-- In a `recvfrom` without timeout, or in a loop around one with a timeout. -/
def ServerPc.waits : ServerPc → Bool
  | .getAwaitStart => false
  | .sending _ _ => false
  | .exited => false
  | .crashed _ => false
  | _ => true

theorem ServerPc.waits_of_gone {pc : ServerPc} (gone : pc.gone = true) :
    pc.waits = false := by
  cases pc with
  | exited | crashed => rfl
  | _ => cases gone

namespace Signalled

/-- The connection is open, and no signal has arrived. -/
def initial : Signalled := ⟨Session.initial, none⟩

/-- The client goes on, unless a signal has stopped it. -/
def clientMoves (inst : Installation) (s : Signalled) (move : Move) : Option Signalled :=
  match s.handler with
  | none => (s.session.step inst move).map fun session => ⟨session, none⟩
  | some _ => none

/-- `client_signal_handler`, up to its first `recvfrom` or its `exit`. -/
def handle (s : Signalled) (sig : Signal) : Signalled :=
  let exit := s.session.client.sendText feedback.EXIT none
  let handler := ⟨.awaitFINACK, s.session.client.pc.timed, s.session.toServer.length, false⟩
  if sig = .SIGQUIT then ⟨s.session.clientStep exit, some { handler with pc := .exited }⟩
  else
    ⟨s.session.clientStep (Client.andThen exit fun c => c.sendText udp.FIN none),
      some handler⟩

/-- The handler's `recvfrom` returns a datagram. -/
def handlerReceive (s : Signalled) (h : Handler) (datagram : Datagram) : Signalled :=
  let message := cString datagram.payload.bytes
  let session := { s.session with toClient := s.session.toClient.eraseIdx 0 }
  match h.pc with
  | .awaitFINACK =>
      if message = udp.FINACK then ⟨session, some { h with pc := .awaitFIN }⟩
      else ⟨session, some { h with pc := .exited }⟩
  | .awaitFIN =>
      if message = udp.FIN then
        ⟨session.clientStep (session.client.sendText udp.FINACK none),
          some { h with pc := .exited }⟩
      else ⟨session, some { h with pc := .exited }⟩
  -- the socket is closed
  | .exited => ⟨session, some h⟩

/-- The state after an event, if it can happen. A datagram to a closed socket is
lost. -/
def step (inst : Installation) (s : Signalled) : SignalEvent → Option Signalled
  | .type typed env => s.clientMoves inst (.type typed env)
  | .clientTimeout env => s.clientMoves inst (.clientTimeout env)
  | .serverTimeout env =>
      (s.session.step inst (.serverTimeout env)).map fun session =>
        { s with session := session }
  | .toServer env =>
      if s.session.server.pc.gone then
        if s.session.toServer = [] then none
        else
          some { s with
            session := { s.session with toServer := s.session.toServer.eraseIdx 0 } }
      else
        (s.session.step inst (.toServer 0 env)).map fun session =>
          ⟨session, s.handler.map Handler.advance⟩
  | .toClient env =>
      match s.session.toClient[0]?, s.handler with
      | none, _ => none
      | some datagram, some h => some (s.handlerReceive h datagram)
      | some _, none =>
          if s.session.client.pc.gone then
            some { s with
              session := { s.session with toClient := s.session.toClient.eraseIdx 0 } }
          else s.clientMoves inst (.toClient 0 env)
  | .signal sig =>
      if s.handler.isNone ∧ s.session.client.pc.gone = false then
        some (s.handle sig)
      else none
  | .handlerTimeout =>
      match s.handler with
      | some h =>
          if h.timed ∧ h.pc ≠ .exited then
            some { s with handler := some { h with pc := .exited } }
          else none
      | none => none

/-- The step relation of a session with signals. -/
def Step (inst : Installation) (before : Signalled) (event : SignalEvent)
    (after : Signalled) : Prop :=
  before.step inst event = some after

/-! ### The property, and when it holds -/

/-- The handler has run to its `exit`, nothing is in flight, and the server child waits
for a datagram that nobody will send. -/
structure Leaked (s : Signalled) : Prop where
  exited : ∃ h, s.handler = some h ∧ h.pc = .exited
  toServer : s.session.toServer = []
  toClient : s.session.toClient = []
  waits : s.session.server.pc.waits = true

/-- The server child takes the handler's `EXIT` in its closing handshake, or at the
head of its loop while the handler waits for `FINACK` and nothing else is on its way to
it. From then on the handler's `recvfrom` does not time out before the child is gone. -/
def Heeded (s : Signalled) : SignalEvent → Prop
  | .toServer _ =>
      match s.handler with
      | none => True
      | some h =>
          h.taken = true ∨ 0 < h.ahead ∨
            match s.session.server.pc with
            | .closeAwaitFIN => True
            | .closeAwaitFINACK => True
            | .exited => True
            | .crashed _ => True
            | .head => h.pc = .awaitFINACK ∧ s.session.toClient = []
            | _ => False
  | .handlerTimeout =>
      ∀ h, s.handler = some h → h.taken = true → s.session.server.pc.gone = true
  | _ => True

/-! ### The end of a session -/

/-- How far the handler and the server child have come. -/
inductive Ending (s : Session) (h : Handler) : Prop where
  | gone (left : s.server.pc.gone = true)
  /-- `EXIT` is on its way, and `FIN` behind it. -/
  | coming {before rest : List Datagram} {exit : Datagram}
      (queue : s.toServer = before ++ exit :: rest) (ahead : before.length = h.ahead)
      (untaken : h.taken = false) (text : exit.payload = .text feedback.EXIT)
      (fin : h.pc = .awaitFINACK →
        ∃ datagram, rest = [datagram] ∧ datagram.payload = .text udp.FIN)
  | heard {fin : Datagram} (server : s.server.pc = .closeAwaitFIN)
      (toServer : s.toServer = [fin]) (text : fin.payload = .text udp.FIN)
      (toClient : s.toClient = []) (handler : h.pc = .awaitFINACK)
      (taken : h.taken = true)
  | answered {finack fin : Datagram} (server : s.server.pc = .closeAwaitFINACK)
      (toServer : s.toServer = []) (toClient : s.toClient = [finack, fin])
      (first : finack.payload = .text udp.FINACK) (second : fin.payload = .text udp.FIN)
      (handler : h.pc = .awaitFINACK) (taken : h.taken = true)
  | closing {fin : Datagram} (server : s.server.pc = .closeAwaitFINACK)
      (toServer : s.toServer = []) (toClient : s.toClient = [fin])
      (text : fin.payload = .text udp.FIN) (handler : h.pc = .awaitFIN)
      (taken : h.taken = true)
  | acknowledged {finack : Datagram} (server : s.server.pc = .closeAwaitFINACK)
      (toServer : s.toServer = [finack]) (toClient : s.toClient = [])
      (handler : h.pc = .exited) (taken : h.taken = true)

namespace Ending

variable {inst : Installation} {s session : Session} {h : Handler} {env : Environment}

/-- None of these states has lost a slot. -/
theorem not_leaked (ending : Ending s h) : ¬ Leaked ⟨s, some h⟩ := by
  intro leaked
  obtain ⟨h', same, exited⟩ := leaked.exited
  obtain rfl := Option.some.inj same
  cases ending with
  | gone left => simpa [ServerPc.waits_of_gone left] using leaked.waits
  | coming queue ahead untaken text fin => simpa [queue] using leaked.toServer
  | heard server toServer text toClient handler taken => simp [handler] at exited
  | answered server toServer toClient first second handler taken =>
      simp [handler] at exited
  | closing server toServer toClient text handler taken => simp [handler] at exited
  | acknowledged server toServer toClient handler taken =>
      simpa [toServer] using leaked.toServer

/-! The server child. -/

theorem server_takes (taken : s.step inst (.toServer 0 env) = some session) :
    ∃ datagram rest datagrams, s.toServer = datagram :: rest ∧
      s.server.receive inst env s.clock datagram = some (session.server, datagrams) ∧
        session.toServer = rest ∧ session.toClient = s.toClient ++ datagrams := by
  simp only [Session.step, Option.bind_eq_bind, Option.bind_eq_some_iff, Option.pure_def,
    Option.some.injEq] at taken
  obtain ⟨datagram, front, ⟨server, datagrams⟩, reacts, rfl⟩ := taken
  cases queue : s.toServer with
  | nil => simp [queue] at front
  | cons first rest =>
      obtain rfl : first = datagram := by simpa [queue] using front
      exact ⟨first, rest, datagrams, rfl, reacts, by simp [Session.serverStep],
        rfl⟩

/-- At the head of the loop `EXIT` leads to the closing handshake without a reply. -/
theorem command_EXIT (server : Server) : server.command env feedback.EXIT =
    ({ server with accepted := feedback.EXIT, pc := .closeAwaitFIN }, []) := by
  obtain ⟨noList, noGet, noPut, noClose⟩ := EXIT_ne
  simp only [Server.command, if_neg noList, if_neg noGet, if_neg noPut, if_neg noClose,
    if_true]

/-- The child takes the handler's `EXIT`. -/
theorem takes_exit {exit : Datagram} {datagrams : List Datagram} {server : Server}
    (text : exit.payload = .text feedback.EXIT)
    (reacts : s.server.receive inst env s.clock exit = some (server, datagrams))
    (heeded : match s.server.pc with
      | .closeAwaitFIN => True
      | .closeAwaitFINACK => True
      | .exited => True
      | .crashed _ => True
      | .head => h.pc = .awaitFINACK ∧ s.toClient = []
      | _ => False) :
    server.pc.gone = true ∨
      server.pc = .closeAwaitFIN ∧ datagrams = [] ∧ h.pc = .awaitFINACK ∧
        s.toClient = [] := by
  have message : cString exit.payload.bytes = feedback.EXIT := by
    rw [text]
    decide +kernel
  cases pc : s.server.pc with
  | head =>
      rw [pc] at heeded
      have upper : spqrUpper feedback.EXIT = feedback.EXIT := by decide +kernel
      simp only [Server.receive, pc, message, upper, command_EXIT] at reacts
      obtain ⟨rfl, rfl⟩ := Prod.mk.inj (Option.some.inj reacts)
      exact .inr ⟨rfl, rfl, heeded⟩
  | closeAwaitFIN =>
      have other : feedback.EXIT ≠ udp.FIN := by decide +kernel
      simp only [Server.receive, pc, message, if_neg other] at reacts
      obtain ⟨rfl, _⟩ := Prod.mk.inj (Option.some.inj reacts)
      exact .inl rfl
  | closeAwaitFINACK =>
      simp only [Server.receive, pc] at reacts
      obtain ⟨rfl, _⟩ := Prod.mk.inj (Option.some.inj reacts)
      exact .inl rfl
  | exited | crashed => simp [Server.receive, pc] at reacts
  | _ => simp [pc] at heeded

/-- What the child's steps make of the end of a session. -/
theorem toServer (ending : Ending s h) (alive : s.server.pc.gone = false)
    (heeded : Heeded ⟨s, some h⟩ (.toServer env))
    (taken : s.step inst (.toServer 0 env) = some session) :
    Ending session h.advance := by
  obtain ⟨datagram, rest, datagrams, queue, reacts, toServer, toClient⟩ :=
    server_takes taken
  cases ending with
  | gone left => simp [alive] at left
  | @coming before behind exit queue' ahead untaken text fin =>
      cases before with
      | nil =>
          rw [List.nil_append, queue] at queue'
          obtain ⟨rfl, rfl⟩ := List.cons.inj queue'
          have none : h.ahead = 0 := ahead.symm
          have untaken' : ¬ h.taken = true := by simp [untaken]
          have next := heeded.resolve_left untaken'
          rcases takes_exit text reacts (next.resolve_left (by simp [none])) with
            left | ⟨server, rfl, handler, quiet⟩
          · exact .gone left
          · obtain ⟨fin, rfl, text⟩ := fin handler
            refine .heard server toServer text ?_ ?_ ?_
            · rw [toClient, quiet]
              rfl
            · simp [Handler.advance, none, handler]
            · simp [Handler.advance, none]
      | cons first before =>
          rw [List.cons_append, queue] at queue'
          obtain ⟨rfl, rfl⟩ := List.cons.inj queue'
          have more : h.ahead ≠ 0 := by
            rw [← ahead]
            simp
          refine .coming toServer ?_ ?_ text ?_
          · rw [Handler.advance, if_neg more]
            simp [← ahead]
          · simp [Handler.advance, more, untaken]
          · simpa [Handler.advance, more] using fin
  | @heard fin server queue' text quiet handler taken' =>
      rw [queue] at queue'
      obtain ⟨rfl, rfl⟩ := List.cons.inj queue'
      have message : cString datagram.payload.bytes = udp.FIN := by
        rw [text]
        decide +kernel
      simp only [Server.receive, server, message, if_true] at reacts
      obtain ⟨now, rfl⟩ := Prod.mk.inj (Option.some.inj reacts)
      refine .answered (by rw [← now]) toServer (by rw [toClient, quiet]; rfl) rfl rfl ?_ ?_
      · unfold Handler.advance
        split_ifs
        · exact handler
        · exact handler
      · unfold Handler.advance
        split_ifs
        · rfl
        · exact taken'
  | answered server queue' => simp [queue] at queue'
  | closing server queue' => simp [queue] at queue'
  | acknowledged server queue' quiet handler taken' =>
      simp only [Server.receive, server] at reacts
      refine .gone ?_
      rw [← (Prod.mk.inj (Option.some.inj reacts)).1]
      rfl

/-- A timeout of the child. -/
theorem serverTimeout (ending : Ending s h)
    (taken : s.step inst (.serverTimeout env) = some session) : Ending session h := by
  simp only [Session.step] at taken
  obtain ⟨⟨server, datagrams⟩, expires, rfl⟩ := Option.map_eq_some_iff.mp taken
  cases ending with
  | gone left => simp [Server.timeout_gone left] at expires
  | coming queue ahead untaken text fin => exact .coming queue ahead untaken text fin
  | heard server' => simp [Server.timeout, server'] at expires
  | answered server' => simp [Server.timeout, server'] at expires
  | closing server' => simp [Server.timeout, server'] at expires
  | acknowledged server' => simp [Server.timeout, server'] at expires

/-! The handler. -/

/-- Whatever it gets, it waits for `FINACK` no longer. -/
theorem handlerReceive_spec (s : Session) (h : Handler) (datagram : Datagram) :
    ∃ h' more, (handlerReceive ⟨s, some h⟩ h datagram).handler = some h' ∧
      (handlerReceive ⟨s, some h⟩ h datagram).session.server = s.server ∧
      (handlerReceive ⟨s, some h⟩ h datagram).session.toServer = s.toServer ++ more ∧
      h'.pc ≠ .awaitFINACK ∧ h'.ahead = h.ahead ∧ h'.taken = h.taken := by
  cases handler : h.pc with
  | awaitFINACK =>
      simp only [handlerReceive, handler]
      split_ifs
      · exact ⟨_, [], rfl, rfl, (List.append_nil _).symm, by simp, rfl, rfl⟩
      · exact ⟨_, [], rfl, rfl, (List.append_nil _).symm, by simp, rfl, rfl⟩
  | awaitFIN =>
      simp only [handlerReceive, handler]
      split_ifs
      · exact ⟨_, _, rfl, rfl, rfl, by simp, rfl, rfl⟩
      · exact ⟨_, [], rfl, rfl, (List.append_nil _).symm, by simp, rfl, rfl⟩
  | exited =>
      have same : handlerReceive ⟨s, some h⟩ h datagram =
          ⟨{ s with toClient := s.toClient.eraseIdx 0 }, some h⟩ := by
        simp only [handlerReceive, handler]
      rw [same]
      exact ⟨_, [], rfl, rfl, (List.append_nil _).symm, by simp [handler], rfl, rfl⟩

/-- It gets what was sent to the client. -/
theorem toClient {datagram : Datagram} (ending : Ending s h)
    (front : s.toClient[0]? = some datagram) :
    ∃ h', (handlerReceive ⟨s, some h⟩ h datagram).handler = some h' ∧
      Ending (handlerReceive ⟨s, some h⟩ h datagram).session h' := by
  obtain ⟨h', more, handler', server', toServer', left, ahead', taken'⟩ :=
    handlerReceive_spec s h datagram
  cases ending with
  | gone left => exact ⟨h', handler', .gone (by rw [server', left])⟩
  | @coming before rest exit queue ahead untaken text fin =>
      have queue' : (handlerReceive ⟨s, some h⟩ h datagram).session.toServer =
          before ++ exit :: (rest ++ more) := by
        rw [toServer', queue, List.append_assoc, List.cons_append]
      exact ⟨h', handler', .coming queue' (ahead.trans ahead'.symm)
        (taken'.trans untaken) text fun waits => absurd waits left⟩
  | heard server queue text quiet handler taken => simp [quiet] at front
  | @answered finack fin server queue replies first second handler taken =>
      obtain rfl : finack = datagram := by simpa [replies] using front
      have message : cString finack.payload.bytes = udp.FINACK := by
        rw [first]
        decide +kernel
      simp only [handlerReceive, handler, message, if_true]
      exact ⟨_, rfl, .closing server queue (by simp [replies]) second rfl taken⟩
  | @closing fin server queue replies text handler taken =>
      obtain rfl : fin = datagram := by simpa [replies] using front
      have message : cString fin.payload.bytes = udp.FIN := by
        rw [text]
        decide +kernel
      simp only [handlerReceive, handler, message, if_true]
      have sent : s.toServer ++ (s.client.sendText udp.FINACK none).2 =
          [⟨.text udp.FINACK, none, s.client.requests + 1⟩] := by
        rw [queue]
        rfl
      exact ⟨_, rfl, .acknowledged server sent (by simp [Session.clientStep, replies]) rfl
        taken⟩
  | acknowledged server queue quiet => simp [quiet] at front

/-- It gives up, before its `EXIT` is taken or when the child is gone. -/
theorem handlerTimeout (ending : Ending s h)
    (heeded : h.taken = true → s.server.pc.gone = true) :
    Ending s { h with pc := .exited } := by
  cases ending with
  | gone left => exact .gone left
  | coming queue ahead untaken text fin =>
      exact .coming queue ahead untaken text (by simp)
  | heard server queue text quiet handler taken => exact .gone (heeded taken)
  | answered server queue replies first second handler taken => exact .gone (heeded taken)
  | closing server queue replies text handler taken => exact .gone (heeded taken)
  | acknowledged server queue quiet handler taken => exact .gone (heeded taken)

/-- It begins. -/
theorem signal (s : Session) (sig : Signal) :
    ∃ h', (handle ⟨s, none⟩ sig).handler = some h' ∧
      Ending (handle ⟨s, none⟩ sig).session h' := by
  unfold handle
  dsimp only
  split_ifs
  · exact ⟨_, rfl, .coming rfl rfl rfl rfl (by simp)⟩
  · exact ⟨_, rfl, .coming rfl rfl rfl rfl fun _ => ⟨_, rfl, rfl⟩⟩

end Ending

/-- Once a signal has arrived, the session is coming to its end. -/
def Ends (s : Signalled) : Prop := ∀ h, s.handler = some h → Ending s.session h

namespace Ends

variable {inst : Installation} {s s' : Signalled} {event : SignalEvent}

theorem not_leaked (ends : Ends s) : ¬ Leaked s := by
  intro leaked
  obtain ⟨h, here, _⟩ := leaked.exited
  obtain ⟨session, handler⟩ := s
  obtain rfl : handler = some h := here
  exact (ends h rfl).not_leaked leaked

/-- Before a signal there is nothing to show. -/
theorem of_clientMoves {move : Move} (moves : s.clientMoves inst move = some s') :
    Ends s' := by
  unfold clientMoves at moves
  split at moves
  · obtain ⟨session, _, rfl⟩ := Option.map_eq_some_iff.mp moves
    intro h here
    simp at here
  · simp at moves

/-- Every step that meets the condition keeps the invariant. -/
theorem step (ends : Ends s) (taken : Step inst s event s') (heeded : Heeded s event) :
    Ends s' := by
  obtain ⟨session, handler⟩ := s
  unfold Step at taken
  cases event with
  | type typed env => exact of_clientMoves taken
  | clientTimeout env => exact of_clientMoves taken
  | serverTimeout env =>
      obtain ⟨session', moves, rfl⟩ := Option.map_eq_some_iff.mp taken
      exact fun h here => (ends h here).serverTimeout moves
  | toServer env =>
      simp only [Signalled.step] at taken
      split_ifs at taken with left empty
      · obtain rfl := Option.some.inj taken
        exact fun _ _ => .gone left
      · obtain ⟨session', moves, rfl⟩ := Option.map_eq_some_iff.mp taken
        intro h' here
        obtain ⟨h, rfl, rfl⟩ := Option.map_eq_some_iff.mp here
        exact (ends h rfl).toServer (Bool.eq_false_of_not_eq_true left) heeded moves
  | toClient env =>
      simp only [Signalled.step] at taken
      split at taken
      · simp at taken
      · rename_i datagram h front
        obtain rfl := Option.some.inj taken
        obtain ⟨h', same, ending⟩ := (ends h rfl).toClient front
        intro h'' here
        rw [same] at here
        exact Option.some.inj here ▸ ending
      · split_ifs at taken
        · obtain rfl := Option.some.inj taken
          intro h here
          simp at here
        · exact of_clientMoves taken
  | signal sig =>
      simp only [Signalled.step] at taken
      split_ifs at taken with first
      obtain rfl := Option.some.inj taken
      obtain rfl : handler = none := Option.isNone_iff_eq_none.mp first.1
      obtain ⟨h', same, ending⟩ := Ending.signal session sig
      intro h here
      rw [same] at here
      exact Option.some.inj here ▸ ending
  | handlerTimeout =>
      simp only [Signalled.step] at taken
      split at taken
      · rename_i h
        split_ifs at taken
        obtain rfl := Option.some.inj taken
        intro h' here
        obtain rfl := Option.some.inj here
        exact (ends h rfl).handlerTimeout (heeded h rfl)
      · simp at taken

end Ends

end Signalled

/-- Where the handler's `EXIT` is heeded, no slot is lost, whatever the client was
doing when the signal arrived. -/
theorem slot_released {inst : Installation} {events : List SignalEvent} {s : Signalled}
    (run : Run (Within (Signalled.Step inst) Signalled.Heeded) Signalled.initial events s) :
    ¬ s.Leaked := by
  have start : Signalled.initial.Ends := by
    intro h here
    simp [Signalled.initial] at here
  have ends : s.Ends := run.invariant start fun ends taken => ends.step taken.1 taken.2
  exact ends.not_leaked

instance (s : Signalled) : DecidablePred s.Heeded := fun event =>
  match event with
  | .toServer _ => by
      unfold Signalled.Heeded
      dsimp only
      split
      · infer_instance
      · have : ∀ h : Handler, Decidable (match s.session.server.pc with
            | .closeAwaitFIN => True
            | .closeAwaitFINACK => True
            | .exited => True
            | .crashed _ => True
            | .head => h.pc = .awaitFINACK ∧ s.session.toClient = []
            | _ => False) := by
          intro h
          split <;> infer_instance
        infer_instance
  | .handlerTimeout => decidable_of_iff
      (s.handler.all fun h => !h.taken || s.session.server.pc.gone) (by
        unfold Signalled.Heeded
        cases s.handler with
        | none => simp
        | some h => cases taken : h.taken <;> simp [taken])
  | .type _ _ => .isTrue trivial
  | .toClient _ => .isTrue trivial
  | .clientTimeout _ => .isTrue trivial
  | .serverTimeout _ => .isTrue trivial
  | .signal _ => .isTrue trivial

/-- At a prompt, `SIGINT` runs the whole closing handshake. -/
theorem slot_released_prompt :
    ∃ s, Run (Within (Signalled.Step committed) Signalled.Heeded) Signalled.initial
        [.signal .SIGINT, .toServer (.serving "notes" []), .toServer (.serving "notes" []),
          .toClient (.serving "notes" []), .toClient (.serving "notes" []),
          .toServer (.serving "notes" [])] s ∧
      s.session.server.pc.gone = true ∧ ¬ s.Leaked := by
  have computed : (stepAll (fun s event => s.step committed event) Signalled.Heeded
      Signalled.initial
      [.signal .SIGINT, .toServer (.serving "notes" []), .toServer (.serving "notes" []),
        .toClient (.serving "notes" []), .toClient (.serving "notes" []),
        .toServer (.serving "notes" [])]).map (fun s => s.session.server.pc.gone) =
      some true := by
    decide +kernel
  obtain ⟨s, computed, left⟩ := Option.map_eq_some_iff.mp computed
  have run := run_of_stepAll _ _ computed
  exact ⟨s, run, left, slot_released run⟩

/-- The state of a session that is over for its client. -/
theorem Signalled.leaked_of {events : List SignalEvent}
    (computed : (stepAll (fun s event => s.step committed event) (fun _ _ => True)
      Signalled.initial events).map (fun s => (s.handler.map Handler.pc,
        s.session.toServer, s.session.toClient, s.session.server.pc.waits)) =
      some (some .exited, [], [], true)) :
    ∃ s, Run (Signalled.Step committed) Signalled.initial events s ∧ s.Leaked := by
  obtain ⟨s, computed, fields⟩ := Option.map_eq_some_iff.mp computed
  obtain ⟨exited, toServer, toClient, waits⟩ := by simpa only [Prod.mk.injEq] using fields
  exact ⟨s, (run_of_stepAll _ _ computed).mono And.left,
    Option.map_eq_some_iff.mp exited, toServer, toClient, waits⟩

/-- `SIGQUIT` at the prompt leaves the server child waiting for `FIN`, and `SIGINT`
while the user is asked for a file name leaves it at the head of its loop. -/
theorem slot_lost :
    (∃ s, Run (Signalled.Step committed) Signalled.initial
        [.signal .SIGQUIT, .toServer (.serving "notes" [])] s ∧ s.Leaked) ∧
      ∃ s, Run (Signalled.Step committed) Signalled.initial
        [.type (text "get\n") (.serving "notes" []), .toServer (.serving "notes" []),
          .toClient (.serving "notes" []), .signal .SIGINT,
          .toServer (.serving "notes" []), .toServer (.serving "notes" []),
          .toClient (.serving "notes" []), .toClient (.serving "notes" [])] s ∧
        s.Leaked :=
  ⟨Signalled.leaked_of (by decide +kernel), Signalled.leaked_of (by decide +kernel)⟩

end Spqr
