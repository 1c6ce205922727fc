/-
Module: Spqr.SocketTimeout
Purpose: The server child with the `SO_RCVTIMEO` of its socket, and what becomes of
  it when a `recvfrom` times out.
Trusted boundary: none
Main exports:
  TimedServer, TimedServer.receive, TimedServer.expire, TimedServer.Timed,
  TimedServer.Tolerates, receive_timeouts_tolerated_iff
-/
import Spqr.Contamination

namespace Spqr

open Labelled

/-! ### The socket option -/

/-- The timeout of the socket, in microseconds, after what the child does between two
of its `recvfrom`. Zero waits for ever. -/
def ServerPc.setsTimeout : ServerPc → ServerPc → ℕ → ℕ
  | .getAwaitFilename, .getAwaitStart, _ => MAX_TIMEOUT
  -- `main_sender`, with `wait_ack`, sets it while it runs
  | .getAwaitStart, .sending _ sender, _ => sender.rcvTimeout
  | .sending _ _, .sending _ sender, _ => sender.rcvTimeout
  -- after `main_sender`, whether it opened the file or not, and without it
  | .getAwaitStart, _, _ => 0
  | .sending _ _, _, _ => 0
  -- the head of the loop that waits for `TRANSFER_COMPLETED`
  | .receiving _ _ _, .putDrain _ _, _ => TIMEOUT
  | .putDrain _ _, .putDrain _ _, _ => TIMEOUT
  | .putDrain _ _, _, _ => 0
  | _, _, rcvTimeout => rcvTimeout

/-- In `server_receive_packet`. -/
def ServerPc.Asserts : ServerPc → Prop
  | .head => True
  | .getAwaitFilename => True
  | .getAwaitStart => True
  | .putAwaitName => True
  | .closeAwaitFIN => True
  | .closeAwaitFINACK => True
  | .sending _ _ => False
  | .receiving _ _ _ => False
  | .putDrain _ _ => False
  | .exited => False
  | .crashed _ => False

structure TimedServer where
  server : Server
  /-- `SO_RCVTIMEO` -/
  rcvTimeout : ℕ

/-- What a `recvfrom` of the child returns, and what it finds around it. -/
inductive TimedEvent where
  | receive (datagram : Datagram) (env : Environment) (fresh : ℕ)
  | expire (env : Environment)

namespace TimedServer

/-- The child of an accepted client: a new socket has no timeout. -/
def initial : TimedServer := ⟨⟨.head, [], 0⟩, 0⟩

/-- The server has made a step. -/
def serverStep (t : TimedServer) (result : Server × List Datagram) :
    TimedServer × List Datagram :=
  (⟨result.1, t.server.pc.setsTimeout result.1.pc t.rcvTimeout⟩, result.2)

/-- `recvfrom` returns a datagram. -/
def receive (inst : Installation) (env : Environment) (fresh : ℕ) (t : TimedServer)
    (datagram : Datagram) : Option (TimedServer × List Datagram) :=
  (t.server.receive inst env fresh datagram).map t.serverStep

/-- `recvfrom` returns a negative value, when the socket has a timeout. -/
def expire (inst : Installation) (env : Environment) (t : TimedServer) :
    Option (TimedServer × List Datagram) :=
  if t.rcvTimeout = 0 then none
  else
    match t.server.pc with
    | .sending _ _ => (t.server.timeout inst env).map t.serverStep
    | .putDrain _ _ => (t.server.timeout inst env).map t.serverStep
    | .receiving transfer r _ =>
        -- `HANDLE_ERROR` only: what `new_packet` holds is taken once more
        (t.server.receive inst env transfer
          ⟨.packet r.newPacket, some transfer, t.server.answering⟩).map t.serverStep
    | .exited => none
    | .crashed _ => none
    -- `spqr_assert` in `server_receive_packet`
    | _ => some (t.serverStep ({ t.server with pc := .exited }, []))

def step (inst : Installation) (t : TimedServer) :
    TimedEvent → Option (TimedServer × List Datagram)
  | .receive datagram env fresh => t.receive inst env fresh datagram
  | .expire env => t.expire inst env

def Step (inst : Installation) (before : TimedServer) (event : TimedEvent)
    (after : TimedServer) : Prop :=
  (before.step inst event).map Prod.fst = some after

/-! ### Tolerated timeouts -/

/-- In `server_receive_packet` the socket has no timeout. -/
def Untimed (t : TimedServer) : Prop := t.server.pc.Asserts → t.rcvTimeout = 0

/-- The child is back at the head of the loop, without a timeout, and has told its
client that the transfer failed. -/
structure Reports (before after : TimedServer) (sent : List Datagram) : Prop where
  head : after.server.pc = .head
  untimed : after.rcvTimeout = 0
  error : before.server.sendText feedback.TRANSFER_ERROR ∈ sent

/-- A step in which no timeout does harm: a wait that expires becomes
`TRANSFER_ERROR`, and where the step leads no timeout can kill the child. -/
structure Tolerates (inst : Installation) (before : TimedServer) (event : TimedEvent)
    (after : TimedServer) : Prop where
  step : Step inst before event after
  expiry : ∀ env sent, event = .expire env →
    before.expire inst env = some (after, sent) → before.Reports after sent
  untimed : after.Untimed

end TimedServer

def ServerPc.isAwaitFilename : ServerPc → Bool
  | .getAwaitFilename => true
  | _ => false

def ServerPc.isPutDrain : ServerPc → Bool
  | .putDrain _ _ => true
  | _ => false

namespace TimedServer

/-- The child does not go on to wait for `START_TRANSFER`: what arrives when it waits
for the filename of a `GET` is no name of a file. And it waits for no
`TRANSFER_COMPLETED` in vain. -/
def Refuses (t : TimedServer) : TimedEvent → Prop
  | .receive datagram env _ =>
      t.server.pc.isAwaitFilename → cString datagram.payload.bytes ∉ env.listing
  | .expire _ => t.server.pc.isPutDrain = false

instance (t : TimedServer) : DecidablePred t.Refuses := fun event =>
  match event with
  | .receive _ _ _ => inferInstanceAs (Decidable (_ → _))
  | .expire _ => inferInstanceAs (Decidable (_ = _))

end TimedServer

/-! ### What the socket option is -/

/-- The timeout that belongs to a `recvfrom`. -/
def ServerPc.timeout : ServerPc → ℕ
  | .getAwaitStart => MAX_TIMEOUT
  | .sending _ sender => sender.rcvTimeout
  | .putDrain _ _ => TIMEOUT
  | _ => 0

/-- Neither waiting for `START_TRANSFER` nor in `main_sender`, which follows it. -/
def ServerPc.Calm : ServerPc → Prop
  | .getAwaitStart => False
  | .sending _ _ => False
  | _ => True

/-- From the first to the second the socket option is set as it should be, and no
`main_sender` begins. -/
structure ServerPc.Leads (before after : ServerPc) : Prop where
  timeout : before.setsTimeout after before.timeout = after.timeout
  calm : before.Calm → after.Calm

namespace Server

variable {inst : Installation} {env : Environment} {s s' : Server} {sent : List Datagram}

theorem command_leads (atHead : s.pc = .head) {request : Text}
    (reacts : s.command env request = (s', sent)) : ServerPc.Leads .head s'.pc := by
  unfold command at reacts
  split_ifs at reacts
  · obtain ⟨rfl, rfl⟩ := Prod.mk.inj reacts
    exact ⟨by rw [atHead]; rfl, fun _ => by rw [atHead]; trivial⟩
  · obtain ⟨rfl, rfl⟩ := Prod.mk.inj reacts
    exact ⟨rfl, fun _ => trivial⟩
  · obtain ⟨rfl, rfl⟩ := Prod.mk.inj reacts
    exact ⟨rfl, fun _ => trivial⟩
  · obtain ⟨rfl, rfl⟩ := Prod.mk.inj reacts
    exact ⟨rfl, fun _ => trivial⟩
  · obtain ⟨rfl, rfl⟩ := Prod.mk.inj reacts
    exact ⟨rfl, fun _ => trivial⟩
  · obtain ⟨rfl, rfl⟩ := Prod.mk.inj reacts
    exact ⟨by rw [atHead]; rfl, fun _ => by rw [atHead]; trivial⟩

theorem afterSender_head {ret : ℤ} (returns : s.afterSender ret = (s', sent)) :
    s'.pc = .head := by
  unfold afterSender at returns
  split_ifs at returns <;> rw [← (Prod.mk.inj returns).1]

/-- `main_sender` goes on, or the child is at the head again. -/
theorem sendingTo_cases {transfer : ℕ} {sender : Sender} {packets : List Packet}
    (goes : s.sendingTo transfer sender packets = (s', sent)) :
    s'.pc = .head ∨ s'.pc = .sending transfer sender := by
  unfold sendingTo at goes
  split at goes
  · left
    obtain ⟨rfl, -⟩ := Prod.mk.inj goes
    exact afterSender_head rfl
  · right
    obtain ⟨rfl, -⟩ := Prod.mk.inj goes
    rfl

/-- From a wait in `main_sender` the option is set for what follows. -/
theorem sendingTo_leads {transfer : ℕ} {old sender : Sender} {packets : List Packet}
    (goes : s.sendingTo transfer sender packets = (s', sent)) :
    (ServerPc.sending transfer old).Leads s'.pc := by
  cases sendingTo_cases goes with
  | inl atHead =>
      rw [atHead]
      exact ⟨rfl, fun _ => trivial⟩
  | inr sending =>
      rw [sending]
      exact ⟨rfl, fun calm => calm.elim⟩

/-- Every reaction sets the option as it should be, and only a listed name leads to
the wait for `START_TRANSFER`. -/
theorem receive_leads {fresh : ℕ} {datagram : Datagram}
    (reacts : s.receive inst env fresh datagram = some (s', sent)) :
    s.pc.Leads s'.pc ∨ (s.pc = .getAwaitFilename ∧ s'.pc = .getAwaitStart ∧
      cString datagram.payload.bytes ∈ env.listing) := by
  cases pc : s.pc with
  | head =>
      simp only [receive, pc, Option.some.injEq] at reacts
      exact .inl (command_leads rfl reacts)
  | getAwaitFilename =>
      simp only [receive, pc] at reacts
      split_ifs at reacts with listed
      · obtain ⟨rfl, rfl⟩ := Prod.mk.inj (Option.some.inj reacts)
        exact .inr ⟨rfl, rfl, listed⟩
      · obtain ⟨rfl, rfl⟩ := Prod.mk.inj (Option.some.inj reacts)
        exact .inl ⟨rfl, fun _ => trivial⟩
  | getAwaitStart =>
      left
      simp only [receive, pc, mainSender] at reacts
      split_ifs at reacts
      · obtain ⟨⟨sender, packets⟩, started, result⟩ := Option.map_eq_some_iff.mp reacts
        obtain ⟨rfl, rfl⟩ := Prod.mk.inj result
        exact ⟨rfl, fun calm => calm.elim⟩
      · rw [afterSender_head (Option.some.inj reacts)]
        exact ⟨rfl, fun _ => trivial⟩
      · rw [afterSender_head (Option.some.inj reacts)]
        exact ⟨rfl, fun _ => trivial⟩
  | sending transfer sender =>
      left
      simp only [receive, pc] at reacts
      obtain ⟨⟨sender', packets⟩, reads, result⟩ := Option.map_eq_some_iff.mp reacts
      exact sendingTo_leads result
  | putAwaitName =>
      left
      simp only [receive, pc] at reacts
      split_ifs at reacts
      · obtain ⟨rfl, rfl⟩ := Prod.mk.inj (Option.some.inj reacts)
        exact ⟨rfl, fun _ => trivial⟩
      · obtain ⟨rfl, rfl⟩ := Prod.mk.inj (Option.some.inj reacts)
        exact ⟨rfl, fun _ => trivial⟩
      · obtain ⟨rfl, rfl⟩ := Prod.mk.inj (Option.some.inj reacts)
        unfold mainReceiver
        split_ifs
        · exact ⟨rfl, fun _ => trivial⟩
        · exact ⟨rfl, fun _ => trivial⟩
  | receiving transfer r pathSize =>
      left
      simp only [receive, pc] at reacts
      obtain ⟨⟨r', acks⟩, reads, result⟩ := Option.map_eq_some_iff.mp reacts
      simp only at result
      split at result
      · obtain ⟨rfl, rfl⟩ := Prod.mk.inj result
        unfold afterLoop afterReceiver
        split_ifs
        · exact ⟨rfl, fun _ => trivial⟩
        · exact ⟨rfl, fun _ => trivial⟩
        · exact ⟨rfl, fun _ => trivial⟩
      · obtain ⟨rfl, rfl⟩ := Prod.mk.inj result
        exact ⟨rfl, fun _ => trivial⟩
  | putDrain transfer buffer =>
      left
      simp only [receive, pc] at reacts
      split_ifs at reacts
      · obtain ⟨rfl, rfl⟩ := Prod.mk.inj (Option.some.inj reacts)
        exact ⟨rfl, fun _ => trivial⟩
      · obtain ⟨rfl, rfl⟩ := Prod.mk.inj (Option.some.inj reacts)
        exact ⟨rfl, fun _ => trivial⟩
  | closeAwaitFIN =>
      left
      simp only [receive, pc] at reacts
      split_ifs at reacts
      · obtain ⟨rfl, rfl⟩ := Prod.mk.inj (Option.some.inj reacts)
        exact ⟨rfl, fun _ => trivial⟩
      · obtain ⟨rfl, rfl⟩ := Prod.mk.inj (Option.some.inj reacts)
        exact ⟨rfl, fun _ => trivial⟩
  | closeAwaitFINACK =>
      left
      simp only [receive, pc] at reacts
      obtain ⟨rfl, rfl⟩ := Prod.mk.inj (Option.some.inj reacts)
      exact ⟨rfl, fun _ => trivial⟩
  | exited | crashed => simp [receive, pc] at reacts

/-- So does every timeout. -/
theorem timeout_leads (expires : s.timeout inst env = some (s', sent)) :
    s.pc.Leads s'.pc := by
  cases pc : s.pc with
  | getAwaitStart =>
      simp only [timeout, pc] at expires
      obtain ⟨rfl, rfl⟩ := Prod.mk.inj (Option.some.inj expires)
      exact ⟨rfl, fun _ => trivial⟩
  | sending transfer sender =>
      simp only [timeout, pc] at expires
      obtain ⟨⟨sender', packets⟩, -, goes⟩ := Option.map_eq_some_iff.mp expires
      exact sendingTo_leads goes
  | putDrain transfer buffer =>
      simp only [timeout, pc] at expires
      obtain ⟨rfl, rfl⟩ := Prod.mk.inj (Option.some.inj expires)
      rw [pc]
      exact ⟨rfl, fun _ => trivial⟩
  | _ => simp [timeout, pc] at expires

end Server

/-! ### Timeouts -/

namespace TimedServer

variable {inst : Installation} {t t' : TimedServer} {event : TimedEvent}

/-- The socket has the timeout that belongs to this `recvfrom`. -/
def Timed (t : TimedServer) : Prop := t.rcvTimeout = t.server.pc.timeout

theorem Timed.initial : Timed initial := rfl

theorem Timed.of_leads (timed : t.Timed) {result : Server × List Datagram}
    (leads : t.server.pc.Leads result.1.pc) : (t.serverStep result).1.Timed := by
  unfold Timed serverStep
  rw [timed]
  exact leads.timeout

/-- With the option as it should be, the child times out as it does in a session. -/
theorem expire_server (timed : t.Timed) {env : Environment} {sent : List Datagram}
    (expires : t.expire inst env = some (t', sent)) :
    t.server.timeout inst env = some (t'.server, sent) ∧
      t.serverStep (t'.server, sent) = (t', sent) := by
  unfold expire at expires
  split_ifs at expires with waits
  rw [timed] at waits
  cases pc : t.server.pc with
  | getAwaitStart =>
      simp only [pc, Option.some.injEq] at expires
      obtain ⟨rfl, rfl⟩ := Prod.mk.inj expires
      refine ⟨?_, rfl⟩
      simp only [Server.timeout, pc]
  | sending transfer sender =>
      simp only [pc] at expires
      obtain ⟨⟨server, packets⟩, reacts, result⟩ := Option.map_eq_some_iff.mp expires
      obtain ⟨rfl, rfl⟩ := Prod.mk.inj result
      exact ⟨reacts, rfl⟩
  | putDrain transfer buffer =>
      simp only [pc] at expires
      obtain ⟨⟨server, packets⟩, reacts, result⟩ := Option.map_eq_some_iff.mp expires
      obtain ⟨rfl, rfl⟩ := Prod.mk.inj result
      exact ⟨reacts, rfl⟩
  | _ => exact absurd (by rw [pc]; rfl) waits

/-- Every step leaves the timeout that belongs to where it leads. -/
theorem Timed.step (timed : t.Timed) (taken : Step inst t event t') : t'.Timed := by
  obtain ⟨⟨after, sent⟩, steps, rfl⟩ := Option.map_eq_some_iff.mp taken
  cases event with
  | receive datagram env fresh =>
      obtain ⟨⟨server, sent'⟩, reacts, result⟩ := Option.map_eq_some_iff.mp steps
      obtain ⟨rfl, rfl⟩ := Prod.mk.inj result
      rcases Server.receive_leads reacts with leads | ⟨before, after, -⟩
      · exact timed.of_leads leads
      · unfold Timed
        simp only [before, after]
        rfl
  | expire env =>
      obtain ⟨expires, result⟩ := expire_server timed steps
      have leads : t.server.pc.Leads after.server.pc := Server.timeout_leads expires
      have kept : (t.serverStep (after.server, sent)).1.Timed := timed.of_leads leads
      rwa [result] at kept

/-! ### Where timeouts are tolerated -/

/-- What is known as long as the child has not been asked for a file. -/
structure Calm (t : TimedServer) : Prop where
  timed : t.Timed
  pc : t.server.pc.Calm

/-- A wait that expires is then the loop after a `PUT`, which goes on. -/
theorem Calm.expires (calm : t.Calm) {env : Environment} {sent : List Datagram}
    (expires : t.expire inst env = some (t', sent)) :
    t.server.pc.isPutDrain = true ∧ t'.server.pc ≠ .head := by
  obtain ⟨reacts, -⟩ := expire_server calm.timed expires
  have pc := calm.pc
  cases waits : t.server.pc with
  | getAwaitStart | sending =>
      rw [waits] at pc
      exact pc.elim
  | putDrain transfer buffer =>
      simp only [Server.timeout, waits] at reacts
      rw [← (Prod.mk.inj (Option.some.inj reacts)).1, waits]
      exact ⟨rfl, nofun⟩
  | _ => simp [Server.timeout, waits] at reacts

/-- A child that is calm has no timeout in `server_receive_packet`. -/
theorem Calm.untimed (calm : t.Calm) : t.Untimed := by
  intro asserts
  have pc := calm.pc
  rw [calm.timed]
  cases waits : t.server.pc with
  | getAwaitStart | sending =>
      rw [waits] at pc
      exact pc.elim
  | putDrain =>
      rw [waits] at asserts
      exact asserts.elim
  | _ => rfl

/-- Without the name of a file it stays calm. -/
theorem Calm.step (calm : t.Calm) (taken : Step inst t event t')
    (refuses : t.Refuses event) : t'.Calm := by
  refine ⟨calm.timed.step taken, ?_⟩
  obtain ⟨⟨after, sent⟩, steps, rfl⟩ := Option.map_eq_some_iff.mp taken
  cases event with
  | receive datagram env fresh =>
      obtain ⟨⟨server, sent'⟩, reacts, result⟩ := Option.map_eq_some_iff.mp steps
      obtain ⟨rfl, rfl⟩ := Prod.mk.inj result
      rcases Server.receive_leads reacts with leads | ⟨pc, -, listed⟩
      · exact leads.calm calm.pc
      · exact absurd listed (refuses (by rw [pc]; rfl))
  | expire env =>
      rw [Refuses, (calm.expires steps).1] at refuses
      cases refuses

/-- From a calm state, timeouts do no harm in exactly the steps that name no file and
in which no wait after a `PUT` expires. -/
theorem Calm.tolerates_iff (calm : t.Calm) (taken : Step inst t event t') :
    t.Tolerates inst event t' ↔ t.Refuses event := by
  have timed : t'.Timed := calm.timed.step taken
  constructor
  · rintro ⟨-, expiry, untimed⟩
    obtain ⟨⟨after, sent⟩, steps, rfl⟩ := Option.map_eq_some_iff.mp taken
    cases event with
    | receive datagram env fresh =>
        intro waits listed
        have pc : t.server.pc = .getAwaitFilename := by
          unfold ServerPc.isAwaitFilename at waits
          split at waits
          · assumption
          · cases waits
        obtain ⟨⟨server, sent'⟩, reacts, result⟩ := Option.map_eq_some_iff.mp steps
        obtain ⟨rfl, rfl⟩ := Prod.mk.inj result
        simp only [Server.receive, pc, if_pos listed] at reacts
        obtain ⟨rfl, rfl⟩ := Prod.mk.inj (Option.some.inj reacts)
        -- the child waits for `START_TRANSFER` now
        have never := (timed.symm.trans (untimed trivial) : MAX_TIMEOUT = 0)
        cases never
    | expire env =>
        exact absurd (expiry env sent rfl steps).head (calm.expires steps).2
  · intro refuses
    refine ⟨taken, ?_, (calm.step taken refuses).untimed⟩
    rintro env sent rfl expires
    rw [Refuses, (calm.expires expires).1] at refuses
    cases refuses

end TimedServer

/-- In every run of a server child timeouts do no harm if and only if whatever arrives
as the filename of a `GET` is no name of a file and no wait for the end of a `PUT`
expires: a step of such a run, and no other, turns a wait that expires into
`TRANSFER_ERROR` and leaves no timeout in `server_receive_packet`. -/
theorem receive_timeouts_tolerated_iff {inst : Installation} {events : List TimedEvent}
    {last : TimedServer} :
    TimedServer.initial.Untimed ∧
        Run (TimedServer.Tolerates inst) .initial events last ↔
      Run (Within (TimedServer.Step inst) TimedServer.Refuses) .initial events last := by
  have calm : TimedServer.initial.Calm := ⟨.initial, trivial⟩
  rw [and_iff_right calm.untimed]
  apply within_iff
  · intro before event after tolerates
    exact tolerates.step
  · exact calm
  · intro before event after calm taken refuses
    exact calm.step taken refuses
  · intro before event after calm taken
    exact calm.tolerates_iff taken

def ServerPc.isAwaitStart : ServerPc → Bool
  | .getAwaitStart => true
  | _ => false

/-- What arrives as a command or an answer of the client. -/
def said (message : Text) : TimedEvent :=
  .receive ⟨.text message, none, 0⟩ (.serving "notes" []) 0

/-- The state after these events, each of which is to be one that `allowed` admits. -/
def childAfter (allowed : TimedServer → TimedEvent → Prop)
    [∀ t event, Decidable (allowed t event)] (events : List TimedEvent) : Option TimedServer :=
  stepAll (fun t event => (t.step committed event).map Prod.fst) allowed .initial events

/-- A `GET` of a file that is missing, and then a `PUT` whose end is heard. -/
def refusedAndStored : List TimedEvent :=
  [said cmd.GET, said (text "absent"), said cmd.PUT, said (text "upload"),
    .receive ⟨.packet { Packet.zero with
      payload := 7 :: List.replicate (PACKET_SIZE - 1) 0
      noPacketsToSend := 1
      noBytesToSend := 1
      size := 1 }, some 0, 0⟩ (.serving "notes" []) 0,
    said feedback.TRANSFER_COMPLETED]

theorem receive_timeouts_tolerated_stored :
    ∃ last, TimedServer.initial.Untimed ∧
      Run (TimedServer.Tolerates committed) .initial refusedAndStored last := by
  have defined : (childAfter TimedServer.Refuses refusedAndStored).isSome := by
    decide +kernel
  obtain ⟨last, computed⟩ := Option.isSome_iff_exists.mp defined
  exact ⟨last, receive_timeouts_tolerated_iff.mpr (run_of_stepAll _ _ computed)⟩

/-- The client falls silent after the name of a file: the child waits for
`START_TRANSFER` with a timeout, which ends the process. -/
theorem receive_timeout_kills :
    ∃ waiting last, Run (TimedServer.Step committed) .initial
        [said cmd.GET, said (text "notes")] waiting ∧
      TimedServer.Step committed waiting (.expire (.serving "notes" [])) last ∧
      waiting.server.pc.Asserts ∧ waiting.rcvTimeout = MAX_TIMEOUT ∧
      last.server.pc = .exited ∧
      ¬ waiting.Tolerates committed (.expire (.serving "notes" [])) last := by
  have computed : (childAfter (fun _ _ => True) [said cmd.GET, said (text "notes")]).map
      (fun t => (t.rcvTimeout, t.server.pc.isAwaitStart)) = some (MAX_TIMEOUT, true) := by
    decide +kernel
  obtain ⟨waiting, computed, reads⟩ := Option.map_eq_some_iff.mp computed
  obtain ⟨timed, waits⟩ := Prod.mk.inj reads
  have pc : waiting.server.pc = .getAwaitStart := by
    unfold ServerPc.isAwaitStart at waits
    split at waits
    · assumption
    · cases waits
  have asserts : waiting.server.pc.Asserts := by
    rw [pc]
    trivial
  have noZero : waiting.rcvTimeout ≠ 0 := by
    rw [timed]
    decide
  have expires : waiting.expire committed (.serving "notes" []) =
      some (⟨{ waiting.server with pc := .exited }, 0⟩, []) := by
    simp only [TimedServer.expire, if_neg noZero, pc]
    rw [TimedServer.serverStep, pc]
    rfl
  refine ⟨waiting, ⟨{ waiting.server with pc := .exited }, 0⟩,
    (run_of_stepAll _ _ computed).mono And.left, ?_, asserts, timed, rfl, ?_⟩
  · rw [TimedServer.Step, TimedServer.step, expires]
    rfl
  · intro tolerates
    exact nomatch (tolerates.expiry _ _ rfl expires).head

end Spqr
