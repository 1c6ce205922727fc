/-
Module: Spqr.Opening
Purpose: The opening handshakes of any number of clients at the parent's socket,
  over channels that delay and reorder datagrams but lose none.
Trusted boundary: none
Main exports:
  Joining, Opening, OpeningEvent, Opening.step, Opening.Unmixed, Opening.OwnAck,
  handshakes_unmixed_iff
-/
import Spqr.Lib.Channels
import Spqr.Allocation

namespace Spqr

open Labelled

namespace udp

def SYN : Text := text "SYN"
def SYNACK : Text := text "SYNACK"
def ACK : Text := text "ACK"

end udp

def CONNECTION_ATTEMPTS : ℕ := 3

/-! ### The port number -/

/-- `isspace` in the C locale. -/
def isSpace (byte : UInt8) : Bool := byte = 32 || (9 ≤ byte && byte ≤ 13)

def isDigit (byte : UInt8) : Bool := 48 ≤ byte && byte ≤ 57

/-- The sign that `strtoul` takes. -/
def sign : Text → Bool × Text
  | [] => (false, [])
  | byte :: rest =>
      if byte = 45 then (true, rest)
      else if byte = 43 then (false, rest)
      else (false, byte :: rest)

/-- `to_uint16` -/
def toUint16 (buffer : Text) : Option ℕ :=
  let (negative, rest) := sign (buffer.dropWhile isSpace)
  let digits := rest.takeWhile isDigit
  let value := digits.foldl (fun n digit => 10 * n + (digit.toNat - 48)) 0
  let tail := rest.dropWhile isDigit
  if digits = [] ∨ 2 ^ 64 ≤ value ∨ (tail ≠ [] ∧ tail.head? ≠ some 10) then none
  else some ((if negative then 2 ^ 64 - value else value) % 2 ^ 16)

/-! ### A client -/

/-- Where a client is in `client_establish_connection_with_server`. -/
inductive JoinPc where
  | idle
  /-- in `client_open_connection_with_server`, with a timeout -/
  | awaitSYNACK
  /-- `client_open_connection_with_server` has returned true -/
  | awaitPort
  | connected (port : ℕ)
  | refused
deriving DecidableEq

structure Joining where
  pc : JoinPc
  connectionAttempts : ℕ
deriving DecidableEq

namespace Joining

/-- The head of the loop. -/
def attempt (j : Joining) : Joining × List Text :=
  if 0 < j.connectionAttempts then ({ j with pc := .awaitSYNACK }, [udp.SYN])
  else ({ j with pc := .refused }, [])

/-- `client_open_connection_with_server` has returned false. -/
def retry (j : Joining) : Joining × List Text :=
  attempt { j with connectionAttempts := j.connectionAttempts - 1 }

/-- The user starts the client. -/
def start (j : Joining) : Option (Joining × List Text) :=
  match j.pc with
  | .idle => some (attempt { j with connectionAttempts := CONNECTION_ATTEMPTS })
  | _ => none

/-- `recvfrom` returns a datagram. -/
def receive (j : Joining) (message : Text) : Option (Joining × List Text) :=
  match j.pc with
  | .awaitSYNACK =>
      if message = udp.SYNACK then some ({ j with pc := .awaitPort }, [udp.ACK])
      else some j.retry
  | .awaitPort =>
      if message = SPQR_SERVER_BUSY then some ({ j with pc := .refused }, [])
      else
        match toUint16 message with
        | some port => some ({ j with pc := .connected port }, [])
        | none => some ({ j with pc := .refused }, [])
  | _ => none

/-- `recvfrom` times out, after three seconds. -/
def timeout (j : Joining) : Option (Joining × List Text) :=
  match j.pc with
  | .awaitSYNACK => some j.retry
  | _ => none

end Joining

/-! ### The parent and its clients -/

/-- Where the parent is. -/
inductive ParentPc where
  /-- at `select`, or in the first `recvfrom` of
  `server_open_connection_with_client` -/
  | listening
  /-- in the second one -/
  | awaitACK
  /-- `server_open_connection_with_client` has returned true -/
  | accepted
deriving DecidableEq

/-- The parent, its children, the clients by their addresses, and the datagrams
on their way to and from the parent's socket. -/
structure Opening where
  pc : ParentPc
  /-- the global `client_addr` -/
  clientAddr : ℕ
  processes : Processes
  clients : ℕ → Joining
  toParent : List (ℕ × Text)
  toClients : List (ℕ × Text)
  /-- Ghost: the sources of the `SYN` and the `ACK` of each handshake for which
  `server_open_connection_with_client` returned true. -/
  opened : List (ℕ × ℕ)
  /-- Ghost: the clients that were sent a port or `SPQR_SERVER_BUSY`. -/
  answered : List ℕ

/-- What happens next. A datagram is named by its position. -/
inductive OpeningEvent where
  | start (client : ℕ)
  | toParent (k : ℕ)
  | toClient (k : ℕ)
  | clientTimeout (client : ℕ)
  /-- what follows a completed handshake -/
  | announce (pid : ℤ)
  /-- the parent reaps, or a child gets on -/
  | child (event : ChildEvent)

namespace Opening

def initial : Opening where
  pc := .listening
  clientAddr := 0
  processes := .initial
  clients := fun _ => ⟨.idle, 0⟩
  toParent := []
  toClients := []
  opened := []
  answered := []

/-- A client has made a step. -/
def clientStep (s : Opening) (client : ℕ) (result : Joining × List Text) : Opening :=
  { s with
    clients := Function.update s.clients client result.1
    toParent := s.toParent ++ result.2.map fun message => (client, message) }

/-- `recvfrom` in `server_open_connection_with_client`. -/
def parentReceive (s : Opening) (source : ℕ) (message : Text) : Option Opening :=
  let from_ := { s with clientAddr := source }
  match s.pc with
  | .listening =>
      if message = udp.SYN then
        some { from_ with
          pc := .awaitACK
          toClients := s.toClients ++ [(source, udp.SYNACK)] }
      else some from_
  | .awaitACK =>
      if message = udp.ACK then
        some { from_ with
          pc := .accepted
          opened := s.opened ++ [(s.clientAddr, source)] }
      else some { from_ with pc := .listening }
  | .accepted => none

/-- The messages among these effects. -/
def sends (effects : List Effect) : List Text :=
  effects.filterMap fun effect =>
    match effect with
    | .send message => some message
    | _ => none

/-- The state after an event, if it can happen. -/
def step (s : Opening) : OpeningEvent → Option Opening
  | .start client => (s.clients client).start.map (s.clientStep client)
  | .toParent k => do
      let (source, message) ← s.toParent[k]?
      parentReceive { s with toParent := s.toParent.eraseIdx k } source message
  | .toClient k => do
      let (client, message) ← s.toClients[k]?
      let result ← (s.clients client).receive message
      pure (clientStep { s with toClients := s.toClients.eraseIdx k } client result)
  | .clientTimeout client => (s.clients client).timeout.map (s.clientStep client)
  | .announce pid =>
      if s.pc = .accepted then
        (s.processes.step (.accept pid)).map fun processes =>
          { s with
            pc := .listening
            processes := processes
            toClients := s.toClients ++
              (sends (acceptConnection s.processes.slots pid).2).map
                fun message => (s.clientAddr, message)
            answered := s.answered ++ [s.clientAddr] }
      else none
  | .child event =>
      match event with
      | .accept _ => none
      | .reap pid =>
          if s.pc = .listening then
            (s.processes.step (.reap pid)).map fun processes =>
              { s with processes := processes }
          else none
      | event =>
          (s.processes.step event).map fun processes =>
            { s with processes := processes }

/-- The step relation of the opening. -/
def Step (before : Opening) (event : OpeningEvent) (after : Opening) : Prop :=
  before.step event = some after

/-- A client that waits for its port is going to be answered. -/
def Heard (s : Opening) (client : ℕ) : Prop :=
  (client, udp.ACK) ∈ s.toParent ∨
    (s.pc = .accepted ∧ s.clientAddr = client) ∨ client ∈ s.answered

/-- Handshakes do not mix. -/
structure Unmixed (s : Opening) : Prop where
  /-- A `SYN` and an `ACK` taken for a handshake are one client's. -/
  paired : ∀ pair ∈ s.opened, pair.1 = pair.2
  heard : ∀ client, (s.clients client).pc = .awaitPort → s.Heard client

/-- The parent may take an `ACK` of this client: right after its `SYN`, or when it
has stopped waiting. -/
def InTime (s : Opening) (source : ℕ) : Prop :=
  match s.pc with
  | .listening => (s.clients source).pc ≠ .awaitPort
  | .awaitACK => source = s.clientAddr
  | .accepted => True

/-- Every `ACK` is taken in time. -/
def OwnAck (s : Opening) : OpeningEvent → Prop
  | .toParent k => ∀ source, s.toParent[k]? = some (source, udp.ACK) → s.InTime source
  | _ => True

end Opening

/-! ### What a client sends -/

namespace Joining

/-- `client_open_connection_with_server` has returned true, or was not called
often enough. -/
def Past (j : Joining) : Prop := j.pc ≠ .idle ∧ j.pc ≠ .awaitSYNACK

/-- A step of a client that sends its only `ACK`, or none. -/
def Moves (j : Joining) (result : Joining × List Text) : Prop :=
  (¬ j.Past ∧ result.1.pc = .awaitPort ∧ result.2 = [udp.ACK]) ∨
    ((∀ message ∈ result.2, message ≠ udp.ACK) ∧ (j.Past → result.1.Past) ∧
      result.1.pc ≠ .awaitPort)

variable {j : Joining} {result : Joining × List Text}

theorem retry_moves (waits : j.pc = .awaitSYNACK) : j.Moves j.retry := by
  have differ : udp.SYN ≠ udp.ACK := by decide +kernel
  have early : ¬ j.Past := fun past => past.2 waits
  unfold retry attempt
  split_ifs
  · exact .inr ⟨by simpa using differ, fun past => absurd past early, by simp⟩
  · exact .inr ⟨by simp, fun past => absurd past early, by simp⟩

theorem start_moves (starts : j.start = some result) : j.Moves result := by
  unfold start at starts
  split at starts
  · rename_i idle
    obtain rfl := Option.some.inj starts
    have differ : udp.SYN ≠ udp.ACK := by decide +kernel
    have early : ¬ j.Past := fun past => past.1 idle
    exact .inr ⟨by simpa [attempt, CONNECTION_ATTEMPTS] using differ,
      fun past => absurd past early, by simp [attempt, CONNECTION_ATTEMPTS]⟩
  · simp at starts

theorem receive_moves {message : Text} (receives : j.receive message = some result) :
    j.Moves result := by
  unfold receive at receives
  split at receives
  · rename_i waits
    split_ifs at receives
    · obtain rfl := Option.some.inj receives
      exact .inl ⟨fun past => past.2 waits, rfl, rfl⟩
    · obtain rfl := Option.some.inj receives
      exact retry_moves waits
  · split_ifs at receives
    · obtain rfl := Option.some.inj receives
      exact .inr ⟨by simp, fun _ => ⟨by simp, by simp⟩, by simp⟩
    · split at receives
      · obtain rfl := Option.some.inj receives
        exact .inr ⟨by simp, fun _ => ⟨by simp, by simp⟩, by simp⟩
      · obtain rfl := Option.some.inj receives
        exact .inr ⟨by simp, fun _ => ⟨by simp, by simp⟩, by simp⟩
  · simp at receives

theorem timeout_moves (expires : j.timeout = some result) : j.Moves result := by
  unfold timeout at expires
  split at expires
  · rename_i waits
    obtain rfl := Option.some.inj expires
    exact retry_moves waits
  · simp at expires

end Joining

/-! ### One `ACK` for each client -/

namespace Opening

/-- Each client has at most one `ACK`, which is on its way, or has been taken, or
is yet to come. -/
structure Single (s : Opening) : Prop where
  once : ∀ client, s.toParent.count (client, udp.ACK) ≤ 1
  past : ∀ client, s.Heard client → (s.clients client).Past
  accepted : s.pc = .accepted → (s.clientAddr, udp.ACK) ∉ s.toParent
  answered : ∀ client ∈ s.answered, (client, udp.ACK) ∉ s.toParent

variable {s s' : Opening}

/-- What a step of a client adds to the channel. -/
theorem mem_clientStep {client other : ℕ} {result : Joining × List Text}
    {message : Text} :
    (other, message) ∈ (s.clientStep client result).toParent ↔
      (other, message) ∈ s.toParent ∨ (other = client ∧ message ∈ result.2) := by
  simp only [clientStep, List.mem_append, List.mem_map, Prod.mk.injEq]
  constructor
  · rintro (old | ⟨_, member, rfl, rfl⟩)
    · exact .inl old
    · exact .inr ⟨rfl, member⟩
  · rintro (old | ⟨rfl, member⟩)
    · exact .inl old
    · exact .inr ⟨_, member, rfl, rfl⟩

theorem clientStep_other {client other : ℕ} {result : Joining × List Text}
    (different : other ≠ client) :
    (s.clientStep client result).clients other = s.clients other :=
  Function.update_of_ne different _ _

theorem clientStep_self {client : ℕ} {result : Joining × List Text} :
    (s.clientStep client result).clients client = result.1 :=
  Function.update_self ..

/-- A step that sends no `ACK`. -/
theorem Single.quiet (single : Single s) {client : ℕ} {result : Joining × List Text}
    (noAck : ∀ message ∈ result.2, message ≠ udp.ACK)
    (past : (s.clients client).Past → result.1.Past) :
    Single (s.clientStep client result) := by
  have same : ∀ other, (other, udp.ACK) ∈ (s.clientStep client result).toParent ↔
      (other, udp.ACK) ∈ s.toParent := by
    intro other
    rw [mem_clientStep]
    exact or_iff_left fun new => noAck _ new.2 rfl
  refine ⟨fun other => ?_, fun other heard => ?_, fun accepted => ?_,
    fun other answered => ?_⟩
  · have none_new : (result.2.map fun message => (client, message)).count
        (other, udp.ACK) = 0 := by
      rw [List.count_eq_zero]
      intro member
      obtain ⟨message, sent, equal⟩ := List.mem_map.mp member
      exact noAck message sent (congrArg Prod.snd equal)
    rw [Opening.clientStep, List.count_append, none_new]
    exact single.once other
  · have before : (s.clients other).Past :=
      single.past other (heard.imp_left (same other).mp)
    by_cases here : other = client
    · subst here
      rw [clientStep_self]
      exact past before
    · rw [clientStep_other here]
      exact before
  · exact fun member => single.accepted accepted ((same _).mp member)
  · exact fun member => single.answered other answered ((same _).mp member)

/-- A step that sends the client's only one. -/
theorem Single.acks (single : Single s) {client : ℕ} {result : Joining × List Text}
    (early : ¬ (s.clients client).Past) (waits : result.1.pc = .awaitPort)
    (sent : result.2 = [udp.ACK]) : Single (s.clientStep client result) := by
  have unheard : ¬ s.Heard client := fun heard => early (single.past client heard)
  have absent : (client, udp.ACK) ∉ s.toParent := fun member => unheard (.inl member)
  refine ⟨fun other => ?_, fun other heard => ?_, fun accepted member => ?_,
    fun other answered member => ?_⟩
  · rw [Opening.clientStep, sent, List.map_singleton, List.count_append,
      List.count_singleton]
    have before := single.once other
    split_ifs with same
    · obtain rfl : client = other := congrArg Prod.fst (beq_iff_eq.mp same)
      rw [List.count_eq_zero.mpr absent]
    · exact before
  · by_cases here : other = client
    · subst here
      rw [clientStep_self]
      exact ⟨by simp [waits], by simp [waits]⟩
    · rw [clientStep_other here]
      refine single.past other (heard.imp_left fun member => ?_)
      exact (mem_clientStep.mp member).resolve_right fun new => here new.1
  · rcases mem_clientStep.mp member with old | ⟨same, _⟩
    · exact single.accepted accepted old
    · exact unheard (.inr (.inl ⟨accepted, same⟩))
  · rcases mem_clientStep.mp member with old | ⟨rfl, _⟩
    · exact single.answered other answered old
    · exact unheard (.inr (.inr answered))

/-- A client's step, as it looks to the parent. -/
theorem Single.clientStep (single : Single s) {client : ℕ}
    {result : Joining × List Text} (moves : (s.clients client).Moves result) :
    Single (s.clientStep client result) := by
  rcases moves with ⟨early, waits, sent⟩ | ⟨noAck, past, _⟩
  · exact single.acks early waits sent
  · exact single.quiet noAck past

theorem Unmixed.clientStep (unmixed : Unmixed s) {client : ℕ}
    {result : Joining × List Text} (moves : (s.clients client).Moves result) :
    Unmixed (s.clientStep client result) := by
  refine ⟨unmixed.paired, fun other waits => ?_⟩
  by_cases same : other = client
  · subst same
    rw [clientStep_self] at waits
    rcases moves with ⟨_, _, sent⟩ | ⟨_, _, gone⟩
    · exact .inl (mem_clientStep.mpr (.inr ⟨rfl, by simp [sent]⟩))
    · exact absurd waits gone
  · rw [clientStep_other same] at waits
    exact (unmixed.heard other waits).imp_left fun old => mem_clientStep.mpr (.inl old)

/-- What the parent takes, and what it makes of it. -/
inductive Takes (s s' : Opening) (source : ℕ) (message : Text) : Prop where
  | syn (listening : s.pc = .listening) (isSyn : message = udp.SYN)
      (awaits : s'.pc = .awaitACK) (kept : s'.opened = s.opened)
  | other (noSyn : message ≠ udp.SYN) (listening : s.pc = .listening)
      (listens : s'.pc = .listening) (kept : s'.opened = s.opened)
  | ack (awaits : s.pc = .awaitACK) (isAck : message = udp.ACK)
      (accepts : s'.pc = .accepted) (from_ : s'.clientAddr = source)
      (pair : s'.opened = s.opened ++ [(s.clientAddr, source)])
  | noAck (awaits : s.pc = .awaitACK) (noAck : message ≠ udp.ACK)
      (listens : s'.pc = .listening) (kept : s'.opened = s.opened)

theorem step_toParent {k : ℕ} (taken : Step s (.toParent k) s') :
    ∃ source message, s.toParent[k]? = some (source, message) ∧
      s'.toParent = s.toParent.eraseIdx k ∧ s'.clients = s.clients ∧
      s'.answered = s.answered ∧ Takes s s' source message := by
  obtain ⟨⟨source, message⟩, found, taken⟩ := Option.bind_eq_some_iff.mp taken
  refine ⟨source, message, found, ?_⟩
  simp only [parentReceive] at taken
  split at taken
  · rename_i listening
    split_ifs at taken with isSyn
    · obtain rfl := Option.some.inj taken
      exact ⟨rfl, rfl, rfl, .syn listening isSyn rfl rfl⟩
    · obtain rfl := Option.some.inj taken
      exact ⟨rfl, rfl, rfl, .other isSyn listening listening rfl⟩
  · rename_i awaits
    split_ifs at taken with isAck
    · obtain rfl := Option.some.inj taken
      exact ⟨rfl, rfl, rfl, .ack awaits isAck rfl rfl rfl⟩
    · obtain rfl := Option.some.inj taken
      exact ⟨rfl, rfl, rfl, .noAck awaits isAck rfl rfl⟩
  · simp at taken

/-- Only the second message of a handshake gets the parent past it. -/
theorem Takes.accepted {source : ℕ} {message : Text} (takes : Takes s s' source message)
    (accepts : s'.pc = .accepted) : message = udp.ACK ∧ s'.clientAddr = source := by
  cases takes with
  | syn _ _ awaits => simp [awaits] at accepts
  | other _ _ listens => simp [listens] at accepts
  | ack _ isAck _ from_ => exact ⟨isAck, from_⟩
  | noAck _ _ listens => simp [listens] at accepts

theorem step_announce {pid : ℤ} (taken : Step s (.announce pid) s') :
    s.pc = .accepted ∧ s'.pc = .listening ∧ s'.clientAddr = s.clientAddr ∧
      s'.toParent = s.toParent ∧ s'.clients = s.clients ∧ s'.opened = s.opened ∧
      s'.answered = s.answered ++ [s.clientAddr] := by
  simp only [Step, step] at taken
  split_ifs at taken with accepted
  obtain ⟨_, _, rfl⟩ := Option.map_eq_some_iff.mp taken
  exact ⟨accepted, rfl, rfl, rfl, rfl, rfl, rfl⟩

/-- The children do not touch the handshakes. -/
theorem step_child {event : ChildEvent} (taken : Step s (.child event) s') :
    ∃ processes, s' = { s with processes := processes } := by
  simp only [Step, step] at taken
  split at taken
  · simp at taken
  · split_ifs at taken
    obtain ⟨processes, _, rfl⟩ := Option.map_eq_some_iff.mp taken
    exact ⟨processes, rfl⟩
  · obtain ⟨processes, _, rfl⟩ := Option.map_eq_some_iff.mp taken
    exact ⟨processes, rfl⟩

/-- A client's step, whichever it is. -/
inductive IsClientStep : OpeningEvent → Prop where
  | start (client : ℕ) : IsClientStep (.start client)
  | receive (k : ℕ) : IsClientStep (.toClient k)
  | timeout (client : ℕ) : IsClientStep (.clientTimeout client)

theorem step_client {event : OpeningEvent} (kind : IsClientStep event)
    (taken : Step s event s') :
    ∃ before client result, s' = clientStep before client result ∧
      (before.clients client).Moves result ∧ before = { s with
        toClients := before.toClients } := by
  cases kind with
  | start client =>
      obtain ⟨result, starts, rfl⟩ := Option.map_eq_some_iff.mp taken
      exact ⟨s, client, result, rfl, Joining.start_moves starts, rfl⟩
  | receive k =>
      obtain ⟨⟨client, message⟩, _, taken⟩ := Option.bind_eq_some_iff.mp taken
      obtain ⟨result, receives, made⟩ := Option.bind_eq_some_iff.mp taken
      obtain rfl := Option.some.inj made
      exact ⟨_, client, result, rfl, Joining.receive_moves receives, rfl⟩
  | timeout client =>
      obtain ⟨result, expires, rfl⟩ := Option.map_eq_some_iff.mp taken
      exact ⟨s, client, result, rfl, Joining.timeout_moves expires, rfl⟩

/-! ### Every step -/

theorem Single.initial : Single Opening.initial := by
  refine ⟨by simp [Opening.initial], ?_, by simp [Opening.initial],
    by simp [Opening.initial]⟩
  rintro client (member | ⟨accepted, _⟩ | answered)
  · simp [Opening.initial] at member
  · simp [Opening.initial] at accepted
  · simp [Opening.initial] at answered

theorem Unmixed.initial : Unmixed Opening.initial :=
  ⟨by simp [Opening.initial], by simp [Opening.initial]⟩

/-- The parent takes a datagram. -/
theorem Single.taken (single : Single s) {k source : ℕ} {message : Text}
    (found : s.toParent[k]? = some (source, message))
    (channel : s'.toParent = s.toParent.eraseIdx k) (clients : s'.clients = s.clients)
    (answered : s'.answered = s.answered) (takes : Takes s s' source message) :
    Single s' := by
  have fewer : ∀ x ∈ s'.toParent, x ∈ s.toParent := by
    rw [channel]
    exact fun x => List.mem_of_mem_eraseIdx
  refine ⟨fun client => ?_, fun client heard => ?_, fun accepts => ?_,
    fun client member => ?_⟩
  · rw [channel]
    exact ((List.eraseIdx_sublist _ _).count_le _).trans (single.once client)
  · rw [clients]
    rcases heard with member | ⟨accepts, rfl⟩ | member
    · exact single.past client (.inl (fewer _ member))
    · obtain ⟨rfl, from_⟩ := takes.accepted accepts
      exact single.past _ (.inl (from_ ▸ List.mem_of_getElem? found))
    · exact single.past client (.inr (.inr (answered ▸ member)))
  · obtain ⟨rfl, from_⟩ := takes.accepted accepts
    rw [channel, from_]
    exact Channels.not_mem_eraseIdx found (single.once source)
  · rw [answered] at member
    exact fun inFlight => single.answered client member (fewer _ inFlight)

theorem Single.step (single : Single s) {event : OpeningEvent}
    (taken : Step s event s') : Single s' := by
  have byClient : IsClientStep event → Single s' := by
    intro kind
    obtain ⟨before, client, result, rfl, moves, same⟩ := step_client kind taken
    have single' : Single before := by
      rw [same]
      exact ⟨single.once, single.past, single.accepted, single.answered⟩
    exact single'.clientStep moves
  cases event with
  | start client => exact byClient (.start client)
  | toClient k => exact byClient (.receive k)
  | clientTimeout client => exact byClient (.timeout client)
  | toParent k =>
      obtain ⟨source, message, found, channel, clients, answered, takes⟩ :=
        step_toParent taken
      exact single.taken found channel clients answered takes
  | announce pid =>
      obtain ⟨accepted, pc, addr, channel, clients, _, answered⟩ := step_announce taken
      refine ⟨fun client => by rw [channel]; exact single.once client,
        fun client heard => ?_, fun accepts => by simp [pc] at accepts,
        fun client member => ?_⟩
      · rw [clients]
        rcases heard with member | ⟨accepts, _⟩ | member
        · exact single.past client (.inl (channel ▸ member))
        · simp [pc] at accepts
        · rw [answered] at member
          rcases List.mem_append.mp member with old | new
          · exact single.past client (.inr (.inr old))
          · exact single.past client
              (.inr (.inl ⟨accepted, (List.mem_singleton.mp new).symm⟩))
      · rw [answered] at member
        rw [channel]
        rcases List.mem_append.mp member with old | new
        · exact single.answered client old
        · exact List.mem_singleton.mp new ▸ single.accepted accepted
  | child event =>
      obtain ⟨processes, rfl⟩ := step_child taken
      exact ⟨single.once, single.past, single.accepted, single.answered⟩

theorem Takes.not_accepted {source : ℕ} {message : Text}
    (takes : Takes s s' source message) : s.pc ≠ .accepted := by
  cases takes with
  | syn listening => simp [listening]
  | other _ listening => simp [listening]
  | ack awaits => simp [awaits]
  | noAck awaits => simp [awaits]

/-- Whoever's `ACK` it is not stays heard. -/
theorem Takes.heard {k source : ℕ} {message : Text}
    (takes : Takes s s' source message) (found : s.toParent[k]? = some (source, message))
    (channel : s'.toParent = s.toParent.eraseIdx k) (answered : s'.answered = s.answered)
    {client : ℕ} (heard : s.Heard client) (other : message = udp.ACK → client ≠ source) :
    s'.Heard client := by
  rcases heard with member | ⟨accepted, _⟩ | member
  · apply Or.inl
    rw [channel]
    refine Channels.mem_eraseIdx_of_ne found member fun same => ?_
    obtain ⟨rfl, isAck⟩ := Prod.mk.inj same
    exact other isAck.symm rfl
  · exact absurd accepted takes.not_accepted
  · exact .inr (.inr (answered ▸ member))

theorem ownAck_iff {k source : ℕ} {message : Text}
    (found : s.toParent[k]? = some (source, message)) :
    OwnAck s (.toParent k) ↔ (message = udp.ACK → s.InTime source) := by
  constructor
  · rintro own rfl
    exact own source found
  · intro own source' found'
    obtain ⟨rfl, isAck⟩ := Prod.mk.inj (Option.some.inj (found.symm.trans found'))
    exact own isAck

/-- Taking a datagram keeps the handshakes apart exactly when it is no `ACK`, or
its own client's in time. -/
theorem Unmixed.taken_iff (unmixed : Unmixed s) (single : Single s) {k source : ℕ}
    {message : Text} (found : s.toParent[k]? = some (source, message))
    (channel : s'.toParent = s.toParent.eraseIdx k) (clients : s'.clients = s.clients)
    (answered : s'.answered = s.answered) (takes : Takes s s' source message) :
    Unmixed s' ↔ OwnAck s (.toParent k) := by
  have heard : ∀ client, (s'.clients client).pc = .awaitPort →
      (message = udp.ACK → client ≠ source) → s'.Heard client := by
    intro client waits other
    rw [clients] at waits
    exact takes.heard found channel answered (unmixed.heard client waits) other
  rw [ownAck_iff found]
  cases takes with
  | syn listening isSyn _ kept =>
      have noAck : message ≠ udp.ACK := by
        rw [isSyn]
        decide +kernel
      refine iff_of_true ⟨kept ▸ unmixed.paired, fun client waits => ?_⟩
        fun isAck => absurd isAck noAck
      exact heard client waits fun isAck => absurd isAck noAck
  | other _ listening listens kept =>
      simp only [InTime, listening]
      constructor
      · rintro unmixed' rfl waits
        rw [← clients] at waits
        rcases unmixed'.heard source waits with member | ⟨accepts, _⟩ | member
        · rw [channel] at member
          exact Channels.not_mem_eraseIdx found (single.once source) member
        · simp [listens] at accepts
        · rw [answered] at member
          exact single.answered source member (List.mem_of_getElem? found)
      · intro own
        refine ⟨kept ▸ unmixed.paired, fun client waits => heard client waits ?_⟩
        rintro isAck rfl
        rw [clients] at waits
        exact own isAck waits
  | ack awaits isAck accepts from_ pair =>
      simp only [InTime, awaits]
      constructor
      · intro unmixed' _
        have last : (s.clientAddr, source) ∈ s'.opened := by simp [pair]
        exact (unmixed'.paired _ last).symm
      · intro own
        refine ⟨fun one member => ?_, fun client waits => ?_⟩
        · rw [pair] at member
          rcases List.mem_append.mp member with old | new
          · exact unmixed.paired one old
          · rw [List.mem_singleton.mp new]
            exact (own isAck).symm
        · by_cases same : client = source
          · exact .inr (.inl ⟨accepts, from_.trans same.symm⟩)
          · exact heard client waits fun _ => same
  | noAck awaits noAck _ kept =>
      refine iff_of_true ⟨kept ▸ unmixed.paired, fun client waits => ?_⟩
        fun isAck => absurd isAck noAck
      exact heard client waits fun isAck => absurd isAck noAck

/-- Every step keeps the handshakes apart exactly when it takes no `ACK`, or its
own client's in time. -/
theorem Unmixed.step_iff (single : Single s) (unmixed : Unmixed s)
    {event : OpeningEvent} (taken : Step s event s') : Unmixed s' ↔ OwnAck s event := by
  have byClient : IsClientStep event → Unmixed s' := by
    intro kind
    obtain ⟨before, client, result, rfl, moves, same⟩ := step_client kind taken
    have unmixed' : Unmixed before := by
      rw [same]
      exact ⟨unmixed.paired, unmixed.heard⟩
    exact unmixed'.clientStep moves
  cases event with
  | start client => exact iff_of_true (byClient (.start client)) trivial
  | toClient k => exact iff_of_true (byClient (.receive k)) trivial
  | clientTimeout client => exact iff_of_true (byClient (.timeout client)) trivial
  | toParent k =>
      obtain ⟨source, message, found, channel, clients, answered, takes⟩ :=
        step_toParent taken
      exact unmixed.taken_iff single found channel clients answered takes
  | announce pid =>
      obtain ⟨_, _, _, channel, clients, kept, answered⟩ := step_announce taken
      refine iff_of_true ⟨kept ▸ unmixed.paired, fun client waits => ?_⟩ trivial
      rw [clients] at waits
      rcases unmixed.heard client waits with member | ⟨_, rfl⟩ | member
      · exact .inl (channel ▸ member)
      · exact .inr (.inr (by simp [answered]))
      · exact .inr (.inr (by simp [answered, member]))
  | child event =>
      obtain ⟨processes, rfl⟩ := step_child taken
      exact iff_of_true ⟨unmixed.paired, unmixed.heard⟩ trivial

end Opening

/-- In a run of the parent with any number of clients, handshakes stay apart in
every state exactly when the parent takes no `ACK` but right after the `SYN` of its
client, or when its client has stopped waiting. -/
theorem handshakes_unmixed_iff {events : List OpeningEvent} {s : Opening}
    (run : Run Opening.Step Opening.initial events s) :
    Throughout Opening.Step Opening.Unmixed Opening.initial events ↔
      Run (Within Opening.Step Opening.OwnAck) Opening.initial events s :=
  throughout_iff (fun one other => Option.some.inj (one.symm.trans other)) run .initial
    .initial (fun single taken => single.step taken)
    fun single unmixed taken => unmixed.step_iff single taken

namespace Opening

instance (s : Opening) (source : ℕ) : Decidable (s.InTime source) :=
  match pc : s.pc with
  | .listening => decidable_of_iff ((s.clients source).pc ≠ .awaitPort) (by
      rw [InTime, pc])
  | .awaitACK => decidable_of_iff (source = s.clientAddr) (by rw [InTime, pc])
  | .accepted => .isTrue (by simp [InTime, pc])

instance (s : Opening) : DecidablePred s.OwnAck := fun event =>
  match event with
  | .toParent k =>
      match found : s.toParent[k]? with
      | none => .isTrue (by simp [OwnAck, found])
      | some _ => decidable_of_iff' _ (ownAck_iff found)
  | .start _ => .isTrue trivial
  | .toClient _ => .isTrue trivial
  | .clientTimeout _ => .isTrue trivial
  | .announce _ => .isTrue trivial
  | .child _ => .isTrue trivial

end Opening

/-- Two clients, one after the other, though the second one's `SYN` is there before
the first one's `ACK`. -/
theorem handshakes_unmixed_inTurn :
    ∃ s, Run Opening.Step Opening.initial
        [.start 0, .toParent 0, .start 1, .toClient 0, .toParent 1, .announce 10,
          .toParent 0, .toClient 1, .toParent 0, .announce 11] s ∧
      s.opened = [(0, 0), (1, 1)] ∧
      Throughout Opening.Step Opening.Unmixed Opening.initial
        [.start 0, .toParent 0, .start 1, .toClient 0, .toParent 1, .announce 10,
          .toParent 0, .toClient 1, .toParent 0, .announce 11] := by
  have computed : (stepAll Opening.step Opening.OwnAck Opening.initial
      [.start 0, .toParent 0, .start 1, .toClient 0, .toParent 1, .announce 10,
        .toParent 0, .toClient 1, .toParent 0, .announce 11]).map
      (fun s => s.opened) = some [(0, 0), (1, 1)] := by
    decide +kernel
  obtain ⟨s, computed, opened⟩ := Option.map_eq_some_iff.mp computed
  have run := run_of_stepAll _ _ computed
  exact ⟨s, run.mono And.left, opened,
    (handshakes_unmixed_iff (run.mono And.left)).mpr run⟩

/-- The `SYN` of the second client ends the handshake of the first one, whose `ACK`
is then taken for a first message: nobody will answer it. Or it is taken for the
answer to a third client. -/
theorem handshakes_mixed :
    (∃ s, Run Opening.Step Opening.initial
        [.start 0, .start 1, .toParent 0, .toParent 0, .toClient 0, .toParent 0] s ∧
      (s.clients 0).pc = .awaitPort ∧ ¬ s.Heard 0) ∧
    ∃ s, Run Opening.Step Opening.initial
        [.start 0, .start 1, .toParent 0, .toParent 0, .toClient 0, .start 2,
          .toParent 1, .toParent 0] s ∧
      s.opened = [(2, 0)] := by
  constructor
  · have computed : (stepAll Opening.step (fun _ _ => True) Opening.initial
        [.start 0, .start 1, .toParent 0, .toParent 0, .toClient 0, .toParent 0]).map
        (fun s => ((s.clients 0).pc, s.toParent, s.pc, s.answered)) =
          some (.awaitPort, [], .listening, []) := by
      decide +kernel
    obtain ⟨s, computed, ends⟩ := Option.map_eq_some_iff.mp computed
    simp only [Prod.mk.injEq] at ends
    obtain ⟨waits, channel, listens, answered⟩ := ends
    refine ⟨s, (run_of_stepAll _ _ computed).mono And.left, waits, ?_⟩
    simp [Opening.Heard, channel, listens, answered]
  · have computed : (stepAll Opening.step (fun _ _ => True) Opening.initial
        [.start 0, .start 1, .toParent 0, .toParent 0, .toClient 0, .start 2,
          .toParent 1, .toParent 0]).map (fun s => s.opened) = some [(2, 0)] := by
      decide +kernel
    obtain ⟨s, computed, opened⟩ := Option.map_eq_some_iff.mp computed
    exact ⟨s, (run_of_stepAll _ _ computed).mono And.left, opened⟩

end Spqr
