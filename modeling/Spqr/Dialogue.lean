/-
Module: Spqr.Dialogue
Purpose: A session in which each transfer is one step: client and server answer
  each other over its whole length.
Trusted boundary: none
Main exports:
  Session.transfer, CoarseMove, Matched, AtRest, stays_matched
-/
import Spqr.Turns

namespace Spqr

open Labelled

/-! ### Transfers as one step -/

/-- `START_TRANSFER` arrives and both `main_sender` and `main_receiver` return:
both succeed or both fail. -/
def Session.transfer (ok : Bool) (s : Session) : Option Session :=
  let ret := if ok then EXIT_SUCCESS else TRANSFER_ERROR
  match s.client.pc, s.server.pc with
  | .receiving t _, .getAwaitStart =>
      match s.toServer with
      | datagram :: toServer =>
          if cString datagram.payload.bytes = feedback.START_TRANSFER then
            let (server, out) :=
              Server.afterSender { s.server with answering := datagram.request } ret
            some
              { client := s.client.afterReceiver t ret
                server := server
                toServer := toServer
                toClient := s.toClient ++ out
                clock := s.clock + 1 }
          else none
      | [] => none
  | .putAwaitStart _, .receiving t _ size =>
      match s.toClient with
      | datagram :: toClient =>
          if cString datagram.payload.bytes = feedback.START_TRANSFER then
            let (client, out) := s.client.afterSender ret
            some
              { client := client
                server := s.server.afterReceiver t ret size
                toServer := s.toServer ++ out
                toClient := toClient
                clock := s.clock + 1 }
          else none
      | [] => none
  | _, _ => none

/-- A move of one party, or a transfer. -/
inductive CoarseMove where
  | move (move : Move)
  | transfer (ok : Bool)

namespace Session

/-- The state after a move, if the move can happen. -/
def coarseStep (inst : Installation) (s : Session) : CoarseMove → Option Session
  | .move move => s.step inst move
  | .transfer ok => s.transfer ok

def CoarseStep (inst : Installation) (before : Session) (move : CoarseMove)
    (after : Session) : Prop :=
  before.coarseStep inst move = some after

end Session

/-- No party takes a branch that puts it out of step; a file that arrives on the
server has a name that is long enough for the end of its `PUT` to be read. -/
def Careful (s : Session) : CoarseMove → Prop
  | .move move => Prudent s move ∧ Atomic s move
  | .transfer ok =>
      match s.server.pc with
      | .receiving _ _ size => ok → feedback.TRANSFER_COMPLETED.length < size
      | _ => True

instance (s : Session) (move : CoarseMove) : Decidable (Careful s move) := by
  induction move using CoarseMove.casesOn <;> unfold Careful
  · infer_instance
  · generalize s.server.pc = pc
    induction pc using ServerPc.casesOn <;> infer_instance

/-! ### What matches -/

/-- The server is at the head of its loop, and nothing is under way. -/
def AtHead (s : Session) : Prop :=
  Quiet s ∧
    match s.server.pc with
    | .head => True
    | _ => False

/-- The server is there, or the last word of a `PUT` is all that it has to read
before it is. -/
def AtRest (s : Session) : Prop :=
  s.toClient = [] ∧
    match s.server.pc with
    | .head => s.toServer = []
    | .putAwaitName => s.toServer.map Datagram.payload = [.text feedback.ABORT]
    | .putDrain _ buffer =>
        s.toServer.map Datagram.payload = [.text feedback.TRANSFER_COMPLETED] ∧
          buffer[feedback.TRANSFER_COMPLETED.length]? = some 0
    | _ => False

/-- The command is what the server took last, as the client's `n`-th message. -/
def Server.Took (s : Server) (command : Text) (n : ℕ) : Prop :=
  s.accepted = command ∧ s.answering = n

/-- The branch that the client has just entered. The branch for `CLOSE` has sent
its `FIN` by then, and so has the one for `EXIT`. -/
def Client.entering (c : Client) : Option Text :=
  match c.pc with
  | .getPrompt => some cmd.GET
  | .putPrompt => some cmd.PUT
  | .closeAwaitFINACK => if c.request = cmd.CLOSE then some cmd.CLOSE else none
  | _ => none

/-- With this step the client enters the branch of the command. -/
def Enters (before after : Session) (command : Text) : Prop :=
  before.client.entering = none ∧ after.client.entering = some command

/-- What goes with the places of the client at which it has entered a branch, and
with its prompt. -/
def Follow (rests : Session → Prop) (s : Session) : ClientPc → Prop
  | .prompt => rests s
  | .getPrompt =>
      match s.server.pc with
      | .getAwaitFilename => s.server.Took cmd.GET s.client.requests
      | _ => False
  | .putPrompt =>
      match s.server.pc with
      | .putAwaitName => s.server.Took cmd.PUT s.client.requests
      | _ => False
  | .closeAwaitFINACK =>
      match s.server.pc with
      | .closeAwaitFIN => s.client.request = cmd.CLOSE →
          s.server.accepted = cmd.CLOSE ∧ s.server.answering + 1 = s.client.requests
      | .closeAwaitFINACK =>
          s.client.request = cmd.CLOSE → s.server.accepted = cmd.CLOSE
      | _ => False
  | _ => True

/-- What goes with what is on its way to the client. -/
def Answer (s : Session) : ClientPc → Prop
  | .finished => True
  | _ => ∀ d ∈ s.toClient, d.request = s.client.requests

/-- The two sides match: how they stand at the client's prompt is `rests`; where the
client has entered the branch of a command, that is what the server took last; and
whatever is on its way to the client answers what the client sent last. -/
structure Matched (rests : Session → Prop) (s : Session) : Prop where
  branch : Follow rests s s.client.pc
  replies : Answer s s.client.pc

instance (s : Session) : Decidable (AtHead s) := by
  unfold AtHead
  generalize s.server.pc = pc
  induction pc using ServerPc.casesOn <;> infer_instance

instance (s : Session) : Decidable (AtRest s) := by
  unfold AtRest
  generalize s.server.pc = pc
  induction pc using ServerPc.casesOn <;> infer_instance

instance (s : Server) (command : Text) (n : ℕ) : Decidable (s.Took command n) :=
  inferInstanceAs (Decidable (_ ∧ _))

instance (rests : Session → Prop) (s : Session) [Decidable (rests s)] (pc : ClientPc) :
    Decidable (Follow rests s pc) := by
  unfold Follow
  generalize s.server.pc = server
  induction pc using ClientPc.casesOn <;>
    induction server using ServerPc.casesOn <;> infer_instance

instance (s : Session) (pc : ClientPc) : Decidable (Answer s pc) := by
  induction pc using ClientPc.casesOn <;> unfold Answer <;> infer_instance

instance (rests : Session → Prop) (s : Session) [Decidable (rests s)] :
    Decidable (Matched rests s) :=
  decidable_of_iff (Follow rests s s.client.pc ∧ Answer s s.client.pc)
    ⟨fun ⟨branch, replies⟩ => ⟨branch, replies⟩,
      fun matched => ⟨matched.branch, matched.replies⟩⟩

/-! ### Lockstep from transfer to transfer -/

variable {inst : Installation}

/-- Parties in lockstep match. -/
theorem Session.InLockstep.matched {s : Session} (lock : s.InLockstep inst False) :
    Matched AtRest s := by
  obtain ⟨client, server, toServer, toClient, clock⟩ := s
  unfold InLockstep at lock
  dsimp only at lock
  cases lock with
  | behind behind ahead =>
      cases ahead with
      | prompt =>
          refine ⟨?_, by simp [Answer]⟩
          cases behind with
          | head => exact ⟨rfl, rfl⟩
          | aborted => exact ⟨rfl, rfl⟩
          | completed strays whole =>
              obtain ⟨rfl, terminated⟩ := whole.resolve_left id
              exact ⟨rfl, rfl, terminated⟩
          | failed fine => exact fine.elim
      | asked => exact ⟨trivial, by simp [Answer]⟩
      | gone fine => exact fine.elim
      | closing fine => exact fine.elim
  | answered follows answers => exact ⟨trivial, by simpa [Answer] using answers⟩
  | unanswered => exact ⟨trivial, by simp [Answer]⟩
  | late fine => exact fine.elim
  | naming => exact ⟨⟨rfl, rfl⟩, by simp [Answer]⟩
  | named => exact ⟨trivial, by simp [Answer]⟩
  | missing => exact ⟨trivial, by simp [Answer]⟩
  | found => exact ⟨trivial, by simp [Answer]⟩
  | fetching => exact ⟨trivial, by simp [Answer]⟩
  | getting fine => exact fine.elim
  | outliving fine => exact fine.elim
  | abandoned fine => exact fine.elim
  | got harmless marked =>
      obtain ⟨rfl, answers, _⟩ := marked.whole.resolve_left id
      exact ⟨trivial, by simpa [Answer] using answers⟩
  | choosing => exact ⟨⟨rfl, rfl⟩, by simp [Answer]⟩
  | offering => exact ⟨trivial, by simp [Answer]⟩
  | refused => exact ⟨trivial, by simp [Answer]⟩
  | welcomed => exact ⟨trivial, by simp [Answer]⟩
  | storing => exact ⟨trivial, by simp [Answer]⟩
  | putting fine => exact fine.elim
  | stored fine => exact fine.elim
  | unwelcome => exact ⟨trivial, by simp [Answer]⟩
  | @stuck pc _ _ _ _ waits =>
      cases pc with
      | putAwaitExist | putAwaitStart | getDrain =>
          exact ⟨trivial, by simp [Answer]⟩
      | _ => exact waits.elim
  | closing agreed => exact ⟨agreed.resolve_left id, by simp [Answer]⟩
  | acknowledged agreed => exact ⟨agreed.resolve_left id, by simp [Answer]⟩
  | ending => exact ⟨trivial, by simp [Answer]⟩
  | finished => exact ⟨trivial, trivial⟩

/-- The marker of a transfer that was one step ends the drain loop of `GET`. -/
theorem marked_of_transfer {n : ℕ} {ret : ℤ} {marker : Text}
    (agree : ret = EXIT_SUCCESS ∧ marker = feedback.TRANSFER_COMPLETED ∨
      ret = TRANSFER_ERROR ∧ marker = feedback.TRANSFER_ERROR) :
    Marked False n ret (List.replicate MAX_READ_LINE 0) [] ⟨.text marker, none, n⟩ := by
  rcases agree with ⟨rfl, rfl⟩ | ⟨rfl, rfl⟩
  · have ends : drainEnds (drainRead EXIT_SUCCESS (List.replicate MAX_READ_LINE 0)
        feedback.TRANSFER_COMPLETED) = true := by
      decide +kernel
    exact ⟨by simp, .inr ⟨rfl, rfl⟩, .inr ⟨rfl, rfl, ends⟩⟩
  · have ends : drainEnds (drainRead TRANSFER_ERROR (List.replicate MAX_READ_LINE 0)
        feedback.TRANSFER_ERROR) = true := by
      decide +kernel
    exact ⟨by simp, .inl rfl, .inr ⟨rfl, rfl, ends⟩⟩

/-- A transfer keeps the parties in lockstep. -/
theorem Session.InLockstep.transfer {before after : Session} {ok : Bool}
    (lock : before.InLockstep inst False) (careful : Careful before (.transfer ok))
    (taken : before.transfer ok = some after) : after.InLockstep inst False := by
  obtain ⟨client, server, toServer, toClient, clock⟩ := before
  unfold InLockstep at lock
  dsimp only at lock
  cases lock with
  | behind behind ahead => cases ahead <;> simp [Session.transfer] at taken
  | fetching harmless =>
      cases ok with
      | true =>
          simp only [Session.transfer, Payload.bytes, cString_START, if_true,
            Server.afterSender] at taken
          obtain rfl := Option.some.inj taken
          exact Lockstep.gotAlone harmless (marked_of_transfer (.inl ⟨rfl, rfl⟩))
      | false =>
          simp only [Session.transfer, Payload.bytes, cString_START, if_true,
            Server.afterSender] at taken
          obtain rfl := Option.some.inj taken
          exact Lockstep.gotAlone harmless (marked_of_transfer (.inr ⟨rfl, rfl⟩))
  | @storing name accepted n m t size =>
      cases ok with
      | true =>
          simp only [Session.transfer, Payload.bytes, cString_START, if_true] at taken
          obtain rfl := Option.some.inj taken
          have whole : (List.replicate size (0 : UInt8))[
              feedback.TRANSFER_COMPLETED.length]? = some 0 := by
            rw [List.getElem?_replicate, if_pos (careful rfl)]
          exact Lockstep.completedAlone whole Lockstep.harmless_NOT_EXIST rfl
      | false =>
          simp only [Session.transfer, Payload.bytes, cString_START, if_true] at taken
          obtain rfl := Option.some.inj taken
          exact Lockstep.ofStart .head Lockstep.harmless_NOT_EXIST rfl
  | @stuck pc request n _ coarse waits idle =>
      cases pc with
      | putAwaitExist | getDrain => simp [Session.transfer] at taken
      | putAwaitStart =>
          simp only [Session.transfer] at taken
          split at taken <;> simp_all
      | _ => exact waits.elim
  | _ => simp [Session.transfer] at taken

theorem Session.InLockstep.coarseStep {before after : Session} {move : CoarseMove}
    (lock : before.InLockstep inst False) (careful : Careful before move)
    (taken : before.CoarseStep inst move after) : after.InLockstep inst False := by
  cases move with
  | move move =>
      exact lock.step ⟨careful.1, fun fine => fine.elim, fun _ => careful.2⟩ taken
  | transfer ok => exact lock.transfer careful taken

/-! ### Entering a branch -/

namespace Client

variable {c c' : Client} {command : Text}

/-- At `start:` the client enters the branch of the command in `request`. -/
theorem entering_start (enters : c.start.1.entering = some command) :
    c.request = command ∧ (command = cmd.GET ∨ command = cmd.PUT ∨ command = cmd.CLOSE) := by
  unfold start at enters
  split_ifs at enters with close get put
  · simp only [closeConnection, sendText, entering, close, if_true] at enters
    obtain rfl := Option.some.inj enters
    exact ⟨close, .inr (.inr rfl)⟩
  · obtain rfl := Option.some.inj enters
    exact ⟨get, .inl rfl⟩
  · obtain rfl := Option.some.inj enters
    exact ⟨put, .inr (.inl rfl)⟩
  · simp [entering] at enters

/-- A harmless name leads into no branch. -/
theorem start_quiet (harmless : Harmless False c.request) : c.start.1.entering = none := by
  obtain ⟨noGet, noPut, noClose⟩ := harmless
  by_contra enters
  obtain ⟨command, enters⟩ := Option.ne_none_iff_exists'.mp enters
  obtain ⟨rfl, get | put | close⟩ := entering_start enters
  · exact noGet get
  · exact noPut put
  · exact noClose.resolve_left id close

theorem afterSender_quiet (harmless : Harmless False c.request) (ret : ℤ) :
    (c.afterSender ret).1.entering = none := by
  unfold afterSender
  split_ifs
  · exact start_quiet harmless
  · have sent : Harmless False (c.sendText feedback.TRANSFER_COMPLETED none).1.request :=
      harmless
    exact start_quiet sent

/-- Nor does the `EXIT` of a client that has waited in vain. -/
theorem exit_quiet (pc : ClientPc) (n : ℕ) :
    (afterUserInput ⟨pc, feedback.EXIT, n⟩).1.entering = none := by
  rw [afterUserInput_EXIT]
  exact if_neg EXIT_ne.2.2.2

theorem mainReceiver_quiet (env : Environment) (t : ℕ) (c : Client) :
    (c.mainReceiver env t).1.entering = none := by
  unfold mainReceiver
  split_ifs <;> rfl

end Client

namespace Lockstep

variable {c c' : Client} {s : Server} {toServer toClient out : List Datagram} {d : Datagram}
  {env : Environment} {command : Text} {clock k : ℕ}

/-- With a datagram, the client enters a branch only when it has the answer to the
command in it. -/
theorem enters (lock : Lockstep inst False c s toServer toClient)
    (careful : Atomic ⟨c, s, toServer, toClient, clock⟩ (.toClient k env))
    (found : toClient[k]? = some d)
    (receives : c.receive inst env clock d = some (c', out))
    (entering : c'.entering = some command) : s.Took command c.requests := by
  cases lock with
  | behind => simp at found
  | @answered line n s reply follows =>
      simp only [Client.receive, Option.some.injEq, Client.afterUserInput,
        if_neg follows.noExit] at receives
      obtain rfl := congrArg Prod.fst receives
      obtain ⟨rfl, _⟩ := Client.entering_start entering
      exact ⟨follows.accepted, follows.answering⟩
  | missing =>
      obtain ⟨rfl, rfl⟩ := Channels.at_singleton found
      simp only [Client.receive, Payload.bytes, cString_NOT_FOUND, if_true,
        Option.some.injEq] at receives
      obtain rfl := congrArg Prod.fst receives
      rw [Client.start_quiet harmless_empty] at entering
      simp at entering
  | found whole harmless other =>
      obtain ⟨rfl, rfl⟩ := Channels.at_singleton found
      simp only [Client.receive, Payload.bytes, whole, if_neg other,
        Option.some.injEq] at receives
      obtain rfl := congrArg Prod.fst receives
      rw [Client.mainReceiver_quiet] at entering
      simp at entering
  | got harmless =>
      simp only [Client.receive] at receives
      split_ifs at receives
      · obtain rfl := congrArg Prod.fst (Option.some.inj receives)
        rw [Client.start_quiet harmless] at entering
        simp at entering
      · obtain rfl := congrArg Prod.fst (Option.some.inj receives)
        simp [Client.entering] at entering
  | refused | welcomed | unwelcome =>
      simp only [Client.receive] at receives
      split_ifs at receives
      · obtain rfl := congrArg Prod.fst (Option.some.inj receives)
        rw [Client.start_quiet harmless_empty] at entering
        simp at entering
      · obtain rfl := congrArg Prod.fst (Option.some.inj receives)
        simp [Client.entering] at entering
  | storing => exact careful.elim
  | acknowledged | ending =>
      simp only [Client.receive] at receives
      split_ifs at receives <;>
        obtain rfl := congrArg Prod.fst (Option.some.inj receives) <;>
        simp [Client.entering, Client.sendText] at entering
  | late fine | getting fine | outliving fine | abandoned fine | putting fine
      | stored fine => exact fine.elim
  | finished => simp [Client.receive] at receives
  | _ => simp at found

/-- It enters none when it waits in vain. -/
theorem expires_quiet (lock : Lockstep inst False c s toServer toClient)
    (expires : c.timeout inst env clock = some (c', out)) : c'.entering = none := by
  obtain ⟨pc, request, n⟩ := c
  unfold Client.timeout at expires
  cases pc with
  | awaitReply =>
      obtain rfl := congrArg Prod.fst (Option.some.inj expires)
      exact Client.exit_quiet _ _
  | getAwaitReply =>
      obtain rfl := congrArg Prod.fst (Option.some.inj expires)
      exact Client.mainReceiver_quiet _ _ _
  | getDrain =>
      obtain rfl := congrArg Prod.fst (Option.some.inj expires)
      rfl
  | sending => cases lock <;> contradiction
  | _ => simp at expires

/-- Nor when the user types. -/
theorem types_quiet (lock : Lockstep inst False c s toServer toClient)
    {typed : List UInt8} (types : c.type env typed = some (c', out)) :
    c'.entering = none := by
  obtain ⟨pc, request, n⟩ := c
  unfold Client.type at types
  cases pc with
  | prompt | getPrompt =>
      obtain rfl := congrArg Prod.fst (Option.some.inj types)
      rfl
  | putPrompt =>
      cases lock with
      | behind _ ahead => cases ahead
      | choosing =>
          simp only at types
          split_ifs at types
          · obtain rfl := congrArg Prod.fst (Option.some.inj types)
            rfl
          · obtain rfl := congrArg Prod.fst (Option.some.inj types)
            exact Client.start_quiet harmless_empty
      | stuck _ waits => exact waits.elim
  | _ => simp at types

end Lockstep

/-- A transfer leads the client into no branch. -/
theorem Session.InLockstep.transfer_quiet {before after : Session} {ok : Bool}
    (lock : before.InLockstep inst False) (taken : before.transfer ok = some after) :
    after.client.entering = none := by
  obtain ⟨client, server, toServer, toClient, clock⟩ := before
  unfold InLockstep at lock
  dsimp only at lock
  cases lock with
  | behind _ ahead => cases ahead <;> simp [Session.transfer] at taken
  | fetching harmless =>
      simp only [Session.transfer, Payload.bytes, cString_START, if_true] at taken
      obtain rfl := Option.some.inj taken
      rfl
  | storing =>
      simp only [Session.transfer, Payload.bytes, cString_START, if_true] at taken
      obtain rfl := Option.some.inj taken
      exact Client.afterSender_quiet Lockstep.harmless_NOT_EXIST _
  | @stuck pc request n _ coarse waits idle =>
      cases pc with
      | putAwaitExist | getDrain => simp [Session.transfer] at taken
      | putAwaitStart =>
          simp only [Session.transfer] at taken
          split at taken <;> simp_all
      | _ => exact waits.elim
  | _ => simp [Session.transfer] at taken

/-- Whenever the client enters a branch, the server has accepted its command, and
that is what the client sent last. -/
theorem Session.InLockstep.enters {before after : Session} {move : CoarseMove}
    {command : Text} (lock : before.InLockstep inst False) (careful : Careful before move)
    (taken : before.CoarseStep inst move after) (enters : Enters before after command) :
    before.server.Took command before.client.requests := by
  obtain ⟨outside, inside⟩ := enters
  cases move with
  | transfer ok =>
      rw [lock.transfer_quiet taken] at inside
      simp at inside
  | move move =>
      replace taken : before.Step inst move after := taken
      unfold Session.Step at taken
      cases move with
      | type typed env =>
          obtain ⟨⟨c', out⟩, types, rfl⟩ := Option.map_eq_some_iff.mp taken
          rw [Session.clientStep, Lockstep.types_quiet lock types] at inside
          simp at inside
      | toServer k env =>
          simp only [Session.step, Option.bind_eq_bind, Option.bind_eq_some_iff,
            Option.pure_def, Option.some.injEq] at taken
          obtain ⟨d, found, ⟨s', out⟩, receives, rfl⟩ := taken
          simp [Session.serverStep, outside] at inside
      | toClient k env =>
          simp only [Session.step, Option.bind_eq_bind, Option.bind_eq_some_iff,
            Option.pure_def, Option.some.injEq] at taken
          obtain ⟨d, found, ⟨c', out⟩, receives, rfl⟩ := taken
          exact Lockstep.enters lock careful.2 found receives inside
      | clientTimeout env =>
          obtain ⟨⟨c', out⟩, expires, rfl⟩ := Option.map_eq_some_iff.mp taken
          rw [Session.clientStep, Lockstep.expires_quiet lock expires] at inside
          simp at inside
      | serverTimeout env =>
          obtain ⟨⟨s', out⟩, expires, rfl⟩ := Option.map_eq_some_iff.mp taken
          simp [Session.serverStep, outside] at inside

/-- In every session whose transfers are one step each, whatever is typed, whatever
the files are called and whatever `fopen` returns to `main_receiver`, the two sides
match, as long as no party takes a branch that puts it out of step; and with its next
step the client enters the branch of a command only when the server has accepted that
command and the client has sent nothing since. -/
theorem stays_matched {moves : List CoarseMove} {s : Session}
    (run : Run (Within (Session.CoarseStep inst) Careful) Session.initial moves s) :
    Matched AtRest s ∧
      ∀ move after command, s.CoarseStep inst move after → Careful s move →
        Enters s after command → s.server.Took command s.client.requests := by
  have lock : s.InLockstep inst False :=
    run.invariant .initial fun lock taken => lock.coarseStep taken.2 taken.1
  exact ⟨lock.matched, fun _ _ _ taken careful enters => lock.enters careful taken enters⟩

instance (before after : Session) (command : Text) : Decidable (Enters before after command) :=
  inferInstanceAs (Decidable (_ ∧ _))

/-- A `GET`, and then the command of a `PUT` with the answer on its way. -/
def getThenCommand : List CoarseMove :=
  let env := Environment.serving "file.txt" [7]
  [.move (.type (text "get") env), .move (.toServer 0 env), .move (.toClient 0 env),
    .move (.type (text "file.txt") env), .move (.toServer 0 env),
    .move (.toClient 0 env), .transfer true, .move (.toClient 0 env),
    .move (.type (text "put") env), .move (.toServer 0 env)]

/-- With the answer the client enters its `PUT` branch; and so on, up to the prompt after
it. -/
theorem stays_matched_getThenPut :
    (∃ s after, Run (Within (Session.CoarseStep committed) Careful) Session.initial
        getThenCommand s ∧ Enters s after cmd.PUT ∧
      s.server.Took cmd.PUT s.client.requests) ∧
    ∃ s, Run (Within (Session.CoarseStep committed) Careful) Session.initial
        (getThenCommand ++ [.move (.toClient 0 (.serving "file.txt" [7])),
          .move (.type (text "file.txt") (.serving "file.txt" [7])),
          .move (.toServer 0 { Environment.serving "file.txt" [7] with listing := [] }),
          .move (.toClient 0 (.serving "file.txt" [7])), .transfer true]) s ∧
      s.client.requests = 6 ∧ Matched AtRest s := by
  constructor
  · have computed : ((stepAll (Session.coarseStep committed) Careful Session.initial
        getThenCommand).bind fun s =>
          (s.coarseStep committed (.move (.toClient 0 (.serving "file.txt" [7])))).map
            fun after => (decide (Enters s after cmd.PUT),
              decide (Careful s (.move (.toClient 0 (.serving "file.txt" [7])))))) =
        some (true, true) := by
      decide +kernel
    obtain ⟨s, computed, next⟩ := Option.bind_eq_some_iff.mp computed
    obtain ⟨after, taken, values⟩ := Option.map_eq_some_iff.mp next
    simp only [Prod.mk.injEq, decide_eq_true_eq] at values
    have run := run_of_stepAll _ _ computed
    exact ⟨s, after, run, values.1,
      (stays_matched run).2 _ after _ taken values.2 values.1⟩
  · have computed : (stepAll (Session.coarseStep committed) Careful Session.initial
        (getThenCommand ++ [.move (.toClient 0 (.serving "file.txt" [7])),
          .move (.type (text "file.txt") (.serving "file.txt" [7])),
          .move (.toServer 0 { Environment.serving "file.txt" [7] with listing := [] }),
          .move (.toClient 0 (.serving "file.txt" [7])), .transfer true])).map
        (fun s => s.client.requests) = some 6 := by
      decide +kernel
    obtain ⟨s, computed, requests⟩ := Option.map_eq_some_iff.mp computed
    have run := run_of_stepAll _ _ computed
    exact ⟨s, run, requests, (stays_matched run).1⟩

/-! ### Where they do not match -/

/-- A `PUT` of a file that the client does not have: it is back at its prompt while
`ABORT` is on its way. -/
def putUnknown : List CoarseMove :=
  let env := Environment.serving "file.txt" [7]
  [.move (.type (text "put") env), .move (.toServer 0 env), .move (.toClient 0 env),
    .move (.type (text "unknown") env)]

theorem putUnknown_notAtHead :
    ∃ moves s, Run (Within (Session.CoarseStep committed) Careful) Session.initial
      moves s ∧ ¬ Matched AtHead s := by
  have computed : (stepAll (Session.coarseStep committed) Careful Session.initial
      putUnknown).map (fun s => decide (Matched AtHead s)) = some false := by
    decide +kernel
  obtain ⟨s, computed, unmatched⟩ := Option.map_eq_some_iff.mp computed
  exact ⟨_, s, run_of_stepAll _ _ computed, of_decide_eq_false unmatched⟩

/-- One session for each branch that is ruled out: a `LIST` of several datagrams; a
`GET` of a file called `GET`, `CLOSE`, or like the reply for a missing one; a `PUT`
of a file with a short name; a reply that comes after the timeout. -/
def carelessMoves : List (List CoarseMove) :=
  let long := ([97, 98, 99, 100, 101] : List UInt8).map (List.replicate 250)
  let many := { Environment.serving "f" [] with listing := long }
  let called (name : Text) := { Environment.serving "f" [] with listing := [name] }
  let get (name : Text) : List CoarseMove :=
    [.move (.type (text "get") (called name)), .move (.toServer 0 (called name)),
      .move (.toClient 0 (called name)), .move (.type name (called name)),
      .move (.toServer 0 (called name)), .move (.toClient 0 (called name))]
  [[.move (.type (text "list") many), .move (.toServer 0 many),
      .move (.toClient 0 many)],
    get cmd.GET ++ [.transfer true, .move (.toClient 0 many)],
    get cmd.CLOSE ++ [.transfer true, .move (.toClient 0 many)],
    get SPQR_FILENAME_NOT_FOUND,
    [.move (.type (text "put") (called cmd.PUT)),
      .move (.toServer 0 (called cmd.PUT)), .move (.toClient 0 (called cmd.PUT)),
      .move (.type cmd.PUT (called cmd.PUT)), .move (.toServer 0 many),
      .move (.toClient 0 many), .transfer true],
    [.move (.type (text "list") (called cmd.PUT)),
      .move (.toServer 0 (called cmd.PUT)), .move (.clientTimeout many)]]

/-- Each of them leaves the two sides out of step. -/
theorem carelessMoves_unmatched : ∀ moves ∈ carelessMoves,
    ∃ s, Run (Within (Session.CoarseStep committed) fun _ _ => True)
      Session.initial moves s ∧ ¬ Matched AtRest s := by
  have computed : ∀ moves ∈ carelessMoves,
      (stepAll (Session.coarseStep committed) (fun _ _ => True) Session.initial
        moves).map (fun s => decide (Matched AtRest s)) = some false := by
    decide +kernel
  intro moves member
  obtain ⟨s, computed, unmatched⟩ := Option.map_eq_some_iff.mp (computed moves member)
  exact ⟨s, run_of_stepAll _ _ computed, of_decide_eq_false unmatched⟩

end Spqr
