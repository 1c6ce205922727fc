/-
Module: Spqr.Transfer
Purpose: `main_sender` against `main_receiver` over a channel that may lose,
  duplicate, delay and reorder their datagrams.
Trusted boundary: none
Main exports:
  Transfer, Event, Transfer.start, Transfer.step, Transfer.Step,
  Transfer.Reaches, Transfer.step_cases, Transfer.reaches_of_steps
-/
import Spqr.Lib.Runs
import Spqr.Receiver
import Spqr.Sender

namespace Spqr

open Labelled

/-- Both ends of a transfer and the datagrams between them. A party reacts to
one datagram, or to one timeout, in one step: from one `recvfrom` to the next,
or to its return. -/
structure Transfer where
  sender : Sender
  receiver : Receiver
  /-- Sent by `main_sender` and not yet received. -/
  packets : List Packet
  /-- Sent by `main_receiver` and not yet received. -/
  acks : List AckPacket

/-- What happens next. A datagram is named by its position in the channel, so
that any order of delivery is possible; `send` gives the outcomes of the guarded
sends of the reaction. -/
inductive Event where
  | packet (k : ℕ) (send : SendResult)
  | ack (k : ℕ) (send : ℕ → SendResult)
  | timeout (send : ℕ → SendResult)
  | losePacket (k : ℕ)
  | loseAck (k : ℕ)
  | duplicatePacket (k : ℕ)
  | duplicateAck (k : ℕ)

namespace Transfer

/-- Both functions at their first `recvfrom`. `main_sender` is called after
`START_TRANSFER` has arrived, which `main_receiver` sends before it listens. -/
def start (cfg : Settings) (file : List UInt8) (send : ℕ → SendResult) :
    Option Transfer :=
  (mainSenderStart cfg file send).map fun (sender, packets) =>
    { sender := sender
      receiver := Receiver.initial
      packets := packets
      acks := [] }

/-- The sender's `recvfrom` returns `ack`. -/
def receiveAck (cfg : Settings) (s : Sender) (ack : AckPacket)
    (send : ℕ → SendResult) : Option (Sender × List Packet) :=
  match s.phase with
  | .waitAck => waitAck cfg send sizeofAckPacket s ack
  | .drain _ => some (mainSenderDrain s ack, [])
  | .returned _ => none

/-- The sender's `recvfrom` times out. -/
def expire (cfg : Settings) (s : Sender) (send : ℕ → SendResult) :
    Option (Sender × List Packet) :=
  match s.phase with
  | .waitAck => waitAckTimeout cfg send s
  | .drain ret => some (mainSenderReturn s ret)
  | .returned _ => none

/-- The state after an event, if the event can happen. -/
def step (cfg : Settings) (stream : Stream) (s : Transfer) :
    Event → Option Transfer
  | .packet k send => do
      let packet ← s.packets[k]?
      guard s.receiver.result.isNone
      let (receiver, acks) ←
        mainReceiver cfg stream.fwrite stream.closes send s.receiver packet
      pure { s with
        receiver := receiver
        packets := s.packets.eraseIdx k
        acks := s.acks ++ acks }
  | .ack k send => do
      let ack ← s.acks[k]?
      let (sender, packets) ← receiveAck cfg s.sender ack send
      pure { s with
        sender := sender
        packets := s.packets ++ packets
        acks := s.acks.eraseIdx k }
  | .timeout send => do
      let (sender, packets) ← expire cfg s.sender send
      pure { s with sender := sender, packets := s.packets ++ packets }
  | .losePacket k => some { s with packets := s.packets.eraseIdx k }
  | .loseAck k => some { s with acks := s.acks.eraseIdx k }
  | .duplicatePacket k => do
      let packet ← s.packets[k]?
      pure { s with packets := s.packets ++ [packet] }
  | .duplicateAck k => do
      let ack ← s.acks[k]?
      pure { s with acks := s.acks ++ [ack] }

/-- The step relation of a transfer. -/
def Step (cfg : Settings) (stream : Stream) (before : Transfer) (event : Event)
    (after : Transfer) : Prop :=
  before.step cfg stream event = some after

/-- Everything one step can do. -/
theorem step_cases {cfg : Settings} {stream : Stream} {before after : Transfer}
    {event : Event} (taken : Step cfg stream before event after) :
    (∃ k send packet receiver acks, event = .packet k send ∧
      before.packets[k]? = some packet ∧ before.receiver.result = none ∧
      mainReceiver cfg stream.fwrite stream.closes send before.receiver packet =
        some (receiver, acks) ∧
      after =
        { before with
          receiver := receiver
          packets := before.packets.eraseIdx k
          acks := before.acks ++ acks }) ∨
    (∃ k send ack sender packets, event = .ack k send ∧
      before.acks[k]? = some ack ∧
      receiveAck cfg before.sender ack send = some (sender, packets) ∧
      after =
        { before with
          sender := sender
          packets := before.packets ++ packets
          acks := before.acks.eraseIdx k }) ∨
    (∃ send sender packets, event = .timeout send ∧
      expire cfg before.sender send = some (sender, packets) ∧
      after =
        { before with sender := sender, packets := before.packets ++ packets }) ∨
    (∃ k, event = .losePacket k ∧
      after = { before with packets := before.packets.eraseIdx k }) ∨
    (∃ k, event = .loseAck k ∧
      after = { before with acks := before.acks.eraseIdx k }) ∨
    (∃ k packet, event = .duplicatePacket k ∧
      before.packets[k]? = some packet ∧
      after = { before with packets := before.packets ++ [packet] }) ∨
    (∃ k ack, event = .duplicateAck k ∧ before.acks[k]? = some ack ∧
      after = { before with acks := before.acks ++ [ack] }) := by
  unfold Step at taken
  cases event with
  | packet k send =>
      simp only [step, Option.bind_eq_bind, Option.bind_eq_some_iff,
        Option.pure_def, Option.some.injEq, Option.guard_eq_some'] at taken
      obtain ⟨packet, found, _, listening, ⟨receiver, acks⟩, reacts, rfl⟩ := taken
      exact .inl ⟨k, send, packet, receiver, acks, rfl, found,
        by simpa using listening, reacts, rfl⟩
  | ack k send =>
      simp only [step, Option.bind_eq_bind, Option.bind_eq_some_iff,
        Option.pure_def, Option.some.injEq] at taken
      obtain ⟨ack, found, ⟨sender, packets⟩, reacts, rfl⟩ := taken
      exact .inr (.inl ⟨k, send, ack, sender, packets, rfl, found, reacts, rfl⟩)
  | timeout send =>
      simp only [step, Option.bind_eq_bind, Option.bind_eq_some_iff,
        Option.pure_def, Option.some.injEq] at taken
      obtain ⟨⟨sender, packets⟩, reacts, rfl⟩ := taken
      exact .inr (.inr (.inl ⟨send, sender, packets, rfl, reacts, rfl⟩))
  | losePacket k =>
      exact .inr (.inr (.inr (.inl ⟨k, rfl, (Option.some.inj taken).symm⟩)))
  | loseAck k =>
      exact .inr (.inr (.inr (.inr (.inl
        ⟨k, rfl, (Option.some.inj taken).symm⟩))))
  | duplicatePacket k =>
      simp only [step, Option.bind_eq_bind, Option.bind_eq_some_iff,
        Option.pure_def, Option.some.injEq] at taken
      obtain ⟨packet, found, rfl⟩ := taken
      exact .inr (.inr (.inr (.inr (.inr (.inl ⟨k, packet, rfl, found, rfl⟩)))))
  | duplicateAck k =>
      simp only [step, Option.bind_eq_bind, Option.bind_eq_some_iff,
        Option.pure_def, Option.some.injEq] at taken
      obtain ⟨ack, found, rfl⟩ := taken
      exact .inr (.inr (.inr (.inr (.inr (.inr ⟨k, ack, rfl, found, rfl⟩)))))

/-- Once the receiver has returned, its result stays. -/
theorem Step.result_kept {cfg : Settings} {stream : Stream}
    {before after : Transfer} {event : Event} {ret : ℤ}
    (taken : Step cfg stream before event after)
    (other : after.receiver.result ≠ some ret) :
    before.receiver.result ≠ some ret := by
  rcases step_cases taken with
    ⟨_, _, _, _, _, _, _, running, _, _⟩ | ⟨_, _, _, _, _, _, _, _, rfl⟩ |
    ⟨_, _, _, _, _, rfl⟩ | ⟨_, _, rfl⟩ | ⟨_, _, rfl⟩ | ⟨_, _, _, _, rfl⟩ |
    ⟨_, _, _, _, rfl⟩
  · simp [running]
  all_goals exact other

/-- Nothing leads back into `wait_ack`. -/
theorem Step.waiting {cfg : Settings} {stream : Stream} {before after : Transfer}
    {event : Event} (taken : Step cfg stream before event after)
    (waiting : after.sender.phase = .waitAck) : before.sender.phase = .waitAck := by
  rcases step_cases taken with
    ⟨_, _, _, _, _, _, _, _, _, rfl⟩ | ⟨_, _, _, _, _, _, _, reacts, rfl⟩ |
    ⟨_, _, _, _, reacts, rfl⟩ | ⟨_, _, rfl⟩ | ⟨_, _, rfl⟩ | ⟨_, _, _, _, rfl⟩ |
    ⟨_, _, _, _, rfl⟩
  · exact waiting
  · unfold receiveAck at reacts
    split at reacts
    · assumption
    · obtain ⟨rfl, _⟩ := Prod.mk.inj (Option.some.inj reacts)
      simp [mainSenderDrain] at waiting
    · simp at reacts
  · unfold expire at reacts
    split at reacts
    · assumption
    · simp only [mainSenderReturn, Option.some.injEq] at reacts
      split_ifs at reacts <;> obtain ⟨rfl, _⟩ := Prod.mk.inj reacts <;> simp at waiting
    · simp at reacts
  all_goals exact waiting

/-- The states that a transfer of `file` can reach when each of its steps is
one that `allowed` admits. -/
def Reaches (cfg : Settings) (stream : Stream) (allowed : Transfer → Event → Prop)
    (file : List UInt8) (events : List Event) (s : Transfer) : Prop :=
  ∃ send initial, start cfg file send = some initial ∧
    Run (Within (Step cfg stream) allowed) initial events s

/-- What holds at every start and is kept by every allowed step holds in every
state reached. -/
theorem Reaches.invariant {cfg : Settings} {stream : Stream}
    {allowed : Transfer → Event → Prop} {file : List UInt8}
    {events : List Event} {s : Transfer}
    (reaches : Reaches cfg stream allowed file events s)
    (Holds : Transfer → Prop)
    (first : ∀ {send initial}, start cfg file send = some initial →
      Holds initial)
    (preserved : ∀ {before event after}, Holds before →
      Step cfg stream before event after → allowed before event →
      Holds after) :
    Holds s := by
  obtain ⟨send, initial, started, run⟩ := reaches
  exact run.invariant (first started)
    (fun holds taken => preserved holds taken.1 taken.2)

/-! ### Computed runs -/

/-- The state after these events, provided that each of them is allowed. -/
def steps (cfg : Settings) (stream : Stream) (allowed : Transfer → Event → Prop)
    [∀ s event, Decidable (allowed s event)] :
    Transfer → List Event → Option Transfer :=
  stepAll (fun s => s.step cfg stream) allowed

/-- A computed run from the start reaches its last state. -/
theorem reaches_of_steps {cfg : Settings} {stream : Stream}
    {allowed : Transfer → Event → Prop}
    [∀ s event, Decidable (allowed s event)] {file : List UInt8}
    {send : ℕ → SendResult} {events : List Event} {s : Transfer}
    (computed : ((start cfg file send).bind fun initial =>
      initial.steps cfg stream allowed events) = some s) :
    Reaches cfg stream allowed file events s := by
  obtain ⟨initial, started, rest⟩ := Option.bind_eq_some_iff.mp computed
  exact ⟨send, initial, started, run_of_stepAll _ _ rest⟩

end Transfer

end Spqr
