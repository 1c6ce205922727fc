/-
Module: Spqr.Completion
Purpose: A transfer over a channel that only `can_send_packet` makes lossy ends,
  and ends well unless the sender runs out of patience.
Trusted boundary: none
Main exports:
  Receiver.Exited, Lossy, GivesUp, Progressing, Measured, completion
-/
import Spqr.Accounting

namespace Spqr

open Labelled Transfer

variable {cfg : Settings} {file : List UInt8} {stream : Stream}

/-- The process of `main_receiver` has ended in `spqr_assert(fclose(file))`. -/
def Receiver.Exited (closes : Bool) (r : Receiver) : Prop :=
  closes = false ∧ r.result ≠ none

instance (closes : Bool) (r : Receiver) : Decidable (r.Exited closes) := by
  unfold Receiver.Exited
  infer_instance

/-- No datagram is on its way to a process that could still take it. -/
def Transfer.Quiet (closes : Bool) (s : Transfer) : Prop :=
  (s.packets = [] ∨ s.receiver.Exited closes) ∧ s.acks = []

instance Transfer.decidableQuiet (closes : Bool) (s : Transfer) :
    Decidable (s.Quiet closes) := by
  unfold Transfer.Quiet
  infer_instance

/-- Nothing is lost but by the senders themselves and nothing is repeated, and
`wait_ack` times out only when no datagram is in flight. -/
def Lossy (closes : Bool) (s : Transfer) : Event → Prop
  | .packet _ _ => True
  | .ack _ _ => True
  | .timeout _ => s.sender.phase = .waitAck → s.Quiet closes
  | .losePacket _ => False
  | .loseAck _ => False
  | .duplicatePacket _ => False
  | .duplicateAck _ => False

instance (closes : Bool) (s : Transfer) (event : Event) :
    Decidable (Lossy closes s event) := by
  induction event using Event.casesOn <;> unfold Lossy <;> infer_instance

/-! ### Timeouts in a row -/

/-- The timeouts since the last acknowledgment. -/
def errorsInARow (events : List Event) : ℕ :=
  events.foldl (fun errors event =>
    match event with
    | .ack _ _ => 0
    | .timeout _ => errors + 1
    | _ => errors) 0

@[simp] theorem errorsInARow_ack (events : List Event) (k : ℕ)
    (send : ℕ → SendResult) : errorsInARow (events ++ [.ack k send]) = 0 := by
  simp [errorsInARow]

@[simp] theorem errorsInARow_timeout (events : List Event)
    (send : ℕ → SendResult) :
    errorsInARow (events ++ [.timeout send]) = errorsInARow events + 1 := by
  simp [errorsInARow]

/-- `MAX_ERRORS` timeouts have fired in a row with no acknowledgment between
them. -/
def GivesUp (events : List Event) : Prop :=
  ∃ start, start <+: events ∧ MAX_ERRORS ≤ errorsInARow start

theorem GivesUp.snoc {events : List Event} (given : GivesUp events)
    (event : Event) : GivesUp (events ++ [event]) := by
  obtain ⟨start, early, enough⟩ := given
  exact ⟨start, early.trans (List.prefix_append _ _), enough⟩

theorem givesUp_of_le {events : List Event}
    (enough : MAX_ERRORS ≤ errorsInARow events) : GivesUp events :=
  ⟨events, List.prefix_rfl, enough⟩

/-- Patience does not run out in fewer events than that. -/
theorem not_givesUp_of_length {events : List Event}
    (short : events.length < MAX_ERRORS) : ¬ GivesUp events := by
  rintro ⟨start, early, enough⟩
  have bound : ∀ trace : List Event, errorsInARow trace ≤ trace.length := by
    intro trace
    induction trace using List.reverseRecOn with
    | nil => simp [errorsInARow]
    | append_singleton trace event inductionHypothesis =>
        rw [List.length_append, List.length_singleton, errorsInARow,
          List.foldl_append, List.foldl_cons, List.foldl_nil]
        rw [errorsInARow] at inductionHypothesis
        cases event <;> simp only <;> omega
  have := bound start
  have := early.length_le
  omega

/-- An acknowledgment in `wait_ack` clears the error count. -/
theorem receiveAck_errors {base : ℕ} {s : Transfer}
    (genuine : Genuine cfg file stream s)
    (window : SenderWindow cfg file base s.sender) {ack : AckPacket}
    (member : ack ∈ s.acks) {send : ℕ → SendResult} {sender : Sender}
    {packets : List Packet}
    (reacts : receiveAck cfg s.sender ack send = some (sender, packets)) :
    (s.sender.phase = .waitAck ∧ sender.maxErrors = 0) ∨
      (s.sender.phase ≠ .waitAck ∧ sender.phase ≠ .waitAck ∧
        sender.maxErrors = s.sender.maxErrors ∧ packets = []) := by
  cases phase : s.sender.phase with
  | returned ret => simp [receiveAck, phase] at reacts
  | drain ret =>
      rw [receiveAck, phase] at reacts
      obtain ⟨rfl, rfl⟩ := Prod.mk.inj (Option.some.inj reacts)
      exact .inr ⟨by simp, by simp [mainSenderDrain], rfl, rfl⟩
  | waitAck =>
      rw [receiveAck, phase] at reacts
      have inside : ¬ ack.ends s.sender.sizeFile →
          0 ≤ ack.seqNum ∧ ack.seqNum < cfg.WINDOW_SIZE := by
        intro goesOn
        rcases genuine.acks ack member with ⟨_, named⟩ | ⟨final, _⟩
        · exact named.seqNum_mem
        · exact absurd (final.ends _) goesOn
      refine .inl ⟨rfl, ?_⟩
      rcases window.waitAck_cases inside
          (show (sizeofAckPacket : ℤ) ≠ 0 by decide) send with
        ⟨_, runs⟩ | ⟨_, _, runs⟩ | ⟨_, _, s', packets', base', runs, refilled⟩ <;>
        obtain ⟨rfl, rfl⟩ :=
          Prod.mk.inj (Option.some.inj (runs.symm.trans reacts))
      · rfl
      · rfl
      · exact refilled.maxErrors

/-- A timeout in `wait_ack` raises it, and the last one leaves the loop. -/
theorem expire_errors {base : ℕ} {s : Sender}
    (window : SenderWindow cfg file base s) {send : ℕ → SendResult}
    {sender : Sender} {packets : List Packet}
    (reacts : expire cfg s send = some (sender, packets)) :
    (s.phase = .waitAck ∧ sender.maxErrors = s.maxErrors + 1 ∧
      ((sender.phase = .waitAck ∧ sender.maxErrors < MAX_ERRORS) ∨
        (sender.phase = .drain 0 ∧ MAX_ERRORS ≤ sender.maxErrors ∧
          packets = []))) ∨
      (s.phase ≠ .waitAck ∧ (∃ ret, sender.phase = .returned ret) ∧
        sender.maxErrors = s.maxErrors) := by
  cases phase : s.phase with
  | returned ret => simp [expire, phase] at reacts
  | drain ret =>
      rw [expire, phase] at reacts
      obtain rfl : (mainSenderReturn s ret).1 = sender :=
        congrArg Prod.fst (Option.some.inj reacts)
      refine .inr ⟨by simp, ?_⟩
      simp only [mainSenderReturn]
      split_ifs <;> exact ⟨⟨_, rfl⟩, rfl⟩
  | waitAck =>
      rw [expire, phase] at reacts
      refine .inl ⟨rfl, ?_⟩
      rcases window.waitAckTimeout_cases send with ⟨last, runs⟩ | ⟨more, runs⟩ <;>
        obtain ⟨rfl, rfl⟩ :=
          Prod.mk.inj (Option.some.inj (runs.symm.trans reacts))
      · exact ⟨rfl, .inr ⟨rfl, last, rfl⟩⟩
      · exact ⟨rfl, .inl ⟨phase, more⟩⟩

/-- Outside `wait_ack` the error count is final. -/
theorem errors_counted {allowed : Transfer → Event → Prop}
    {events : List Event} {s : Transfer} (fits : packetCount file < 2 ^ 31)
    (reaches : Reaches cfg stream allowed file events s) :
    (s.sender.phase = .waitAck ∨ s.sender.maxErrors = 0 ∨ GivesUp events) ∧
      (s.sender.maxErrors ≤ errorsInARow events ∨ GivesUp events) := by
  obtain ⟨send, initial, started, run⟩ := reaches
  induction run with
  | refl =>
      obtain ⟨sender, packets, runs, begun⟩ :=
        mainSenderStart_spec cfg fits send
      rw [Transfer.start, runs] at started
      obtain rfl := Option.some.inj started
      exact ⟨.inl begun.phase, .inl (by simp [begun.maxErrors])⟩
  | @tail before after events event prior final inductionHypothesis =>
      have genuine := Genuine.reaches fits ⟨send, initial, started, prior⟩
      obtain ⟨base, window⟩ := genuine.sender.window
      obtain ⟨settled, counted⟩ := inductionHypothesis
      by_cases given : GivesUp events
      · exact ⟨.inr (.inr (given.snoc event)), .inr (given.snoc event)⟩
      simp only [given, or_false] at settled counted
      rcases step_cases final.1 with
        ⟨k, send, packet, receiver, acks, rfl, found, running, reacts, rfl⟩ |
        ⟨k, send, ack, sender, packets, rfl, found, reacts, rfl⟩ |
        ⟨send, sender, packets, rfl, reacts, rfl⟩ | ⟨k, rfl, rfl⟩ |
        ⟨k, rfl, rfl⟩ | ⟨k, packet, rfl, found, rfl⟩ | ⟨k, ack, rfl, found, rfl⟩
      · exact ⟨settled.imp id .inl, .inl (by simpa [errorsInARow] using counted)⟩
      · rcases receiveAck_errors genuine window (List.mem_of_getElem? found)
          reacts with ⟨_, zero⟩ | ⟨left, _, same, _⟩
        · exact ⟨.inr (.inl zero), .inl (by simp [zero])⟩
        · have zero := settled.resolve_left left
          exact ⟨.inr (.inl (same.trans zero)), .inl (by simp [same, zero])⟩
      · rcases expire_errors window reacts with
          ⟨_, more, ⟨waiting, _⟩ | ⟨_, enough, _⟩⟩ | ⟨left, _, same⟩
        · exact ⟨.inl waiting, .inl (by
            rw [errorsInARow_timeout]
            simp only [more]
            omega)⟩
        · have given : GivesUp (events ++ [.timeout send]) :=
            givesUp_of_le (by rw [errorsInARow_timeout]; omega)
          exact ⟨.inr (.inr given), .inr given⟩
        · have zero := settled.resolve_left left
          exact ⟨.inr (.inl (same.trans zero)), .inl (by simp [same, zero])⟩
      all_goals
        exact ⟨settled.imp id .inl, .inl (by simpa [errorsInARow] using counted)⟩

/-! ### Every step is progress -/

/-- A receiver whose process has ended has left the sender alone, and nothing of it
is on its way any more. -/
def Transfer.Deserted (closes : Bool) (s : Transfer) : Prop :=
  s.receiver.Exited closes ∧ s.acks = []

/-- What every step of a lossy run keeps. -/
structure Progressing (cfg : Settings) (file : List UInt8) (stream : Stream)
    (s : Transfer) : Prop where
  genuine : Genuine cfg file stream s
  inStep : s.receiver.result ≠ some WRITE_BYTE_ERROR →
    ∃ base n, InStep cfg file base n s
  accounted : s.sender.phase = .waitAck →
    (∃ base, Accounted cfg file stream.closes base s) ∨ s.Deserted stream.closes

/-- The order in which a transfer runs down: the phase of the sender, the
receiver's loop, the unconfirmed chunks, the patience that is left, and the
datagrams in flight. -/
abbrev Descends : ℕ × ℕ × ℕ × ℕ × ℕ → ℕ × ℕ × ℕ × ℕ × ℕ → Prop :=
  Prod.Lex (· < ·) (Prod.Lex (· < ·) (Prod.Lex (· < ·)
    (Prod.Lex (· < ·) (· < ·))))

theorem descends_wellFounded : WellFounded Descends :=
  WellFounded.prod_lex Nat.lt_wfRel.wf <| WellFounded.prod_lex Nat.lt_wfRel.wf <|
    WellFounded.prod_lex Nat.lt_wfRel.wf <|
      WellFounded.prod_lex Nat.lt_wfRel.wf Nat.lt_wfRel.wf

/-- How many of the three phases are left. -/
def SenderPhase.rank : SenderPhase → ℕ
  | .waitAck => 2
  | .drain _ => 1
  | .returned _ => 0

/-- The measure of a state, `left` being the number of unconfirmed chunks. -/
def Transfer.measure (s : Transfer) (left : ℕ) : ℕ × ℕ × ℕ × ℕ × ℕ :=
  (s.sender.phase.rank, if s.receiver.result = none then 1 else 0, left,
    MAX_ERRORS - s.sender.maxErrors, 2 * s.packets.length + s.acks.length)

/-- The measure that an invariant state justifies. -/
def Measured (cfg : Settings) (file : List UInt8) (stream : Stream)
    (value : ℕ × ℕ × ℕ × ℕ × ℕ) (s : Transfer) : Prop :=
  Progressing cfg file stream s ∧ ∃ left, value = s.measure left ∧
    (s.sender.phase = .waitAck →
      (∃ base, Accounted cfg file stream.closes base s ∧
        left = (unconfirmed cfg file base s.sender).card) ∨ s.Deserted stream.closes)

/-- Delivering a packet uses it up, and makes at most one acknowledgment unless
it ends the receiver's loop. -/
theorem packet_descends {s : Transfer} (genuine : Genuine cfg file stream s)
    (running : s.receiver.result = none) {k : ℕ} {packet : Packet}
    (found : s.packets[k]? = some packet) {send : SendResult}
    {receiver : Receiver} {acks : List AckPacket}
    (reacts : mainReceiver cfg stream.fwrite stream.closes send s.receiver packet =
      some (receiver, acks)) (left : ℕ) :
    Descends (Transfer.measure
        ⟨s.sender, receiver, s.packets.eraseIdx k, s.acks ++ acks⟩ left)
      (s.measure left) := by
  have member := List.mem_of_getElem? found
  have outcome : receiver.result ≠ none ∨
      (receiver.result = none ∧ acks.length ≤ 1) := by
    rcases genuine.packets packet member with rfl | ⟨g, chunk⟩
    · obtain ⟨rfl, rfl⟩ := Prod.mk.inj (Option.some.inj reacts)
      exact .inl (by simp)
    · obtain ⟨receiver', regular, final, reacts', _, _, outcome, answers⟩ :=
        mainReceiver_genuine genuine.receiver running chunk
          (genuine.announced member chunk) stream.closes send
      obtain ⟨rfl, rfl⟩ :=
        Prod.mk.inj (Option.some.inj (reacts'.symm.trans reacts))
      rcases outcome with running' | finished
      · have none : final = [] := by
          by_contra some
          have := answers.concluded.mpr some
          simp [Receiver.Concluded, Receiver.Finished, running'] at this
        exact .inr ⟨running', by simpa [none] using answers.single⟩
      · apply Or.inl
        rcases finished with success | short
        · simp [success]
        · simp [short]
  rcases outcome with ended | ⟨running', single⟩
  · refine .right _ (.left _ _ ?_)
    simp [running, ended]
  · have inside := (List.getElem?_eq_some_iff.mp found).1
    have shorter := List.length_eraseIdx_of_lt inside
    simp only [Transfer.measure, running, running']
    refine .right _ (.right _ (.right _ (.right _ ?_)))
    simp only [List.length_append]
    omega

/-- Outside `wait_ack` no acknowledgment is compared with a slot. -/
theorem timely_of_left {s : Transfer} (left : s.sender.phase ≠ .waitAck)
    (event : Event) : Timely s event := by
  cases event with
  | ack k send => exact fun _ _ waiting => absurd waiting left
  | _ => trivial

/-- Nor is it when there is none. -/
theorem timely_of_silent {s : Transfer} (silent : s.acks = []) (event : Event) :
    Timely s event := by
  cases event with
  | ack k send =>
      intro ack found
      simp [silent] at found
  | _ => trivial

namespace Progressing

variable {s : Transfer}

theorem start (fits : packetCount file < 2 ^ 31) {send : ℕ → SendResult}
    (started : Transfer.start cfg file send = some s) :
    Progressing cfg file stream s where
  genuine := .start fits started
  inStep := fun _ => ⟨0, 0, .start fits started⟩
  accounted := fun _ => .inl ⟨0, .start fits started⟩

theorem timely (inv : Progressing cfg file stream s) (event : Event) :
    Timely s event := by
  by_cases waiting : s.sender.phase = .waitAck
  · rcases inv.accounted waiting with ⟨base, accounted⟩ | ⟨_, silent⟩
    · exact accounted.timely inv.genuine event
    · exact timely_of_silent silent event
  · exact timely_of_left waiting event

/-- The invariant of both windows goes along with every step. -/
theorem of_accounted {s' : Transfer} {event : Event}
    (inv : Progressing cfg file stream s)
    (taken : Step cfg stream s event s')
    (accounted : s'.sender.phase = .waitAck →
      (∃ base, Accounted cfg file stream.closes base s') ∨ s'.Deserted stream.closes) :
    Progressing cfg file stream s' where
  genuine := inv.genuine.step taken
  inStep := by
    intro noShort
    obtain ⟨base, n, inStep⟩ := inv.inStep (taken.result_kept noShort)
    obtain ⟨base', n', _, _, inStep'⟩ :=
      inStep.step inv.genuine (inv.timely event) taken noShort
    exact ⟨base', n', inStep'⟩
  accounted := accounted

end Progressing

/-! ### Every step of a lossy run descends -/

section Descent

variable {s : Transfer} {left k : ℕ}

/-- A sender that has left `wait_ack` needs no account. -/
theorem measured_of_left {s' : Transfer} {event : Event}
    (inv : Progressing cfg file stream s) (taken : Step cfg stream s event s')
    (gone : s'.sender.phase ≠ .waitAck)
    (less : Descends (s'.measure left) (s.measure left)) :
    ∃ value', Descends value' (s.measure left) ∧ Measured cfg file stream value' s' :=
  ⟨_, less, inv.of_accounted taken fun back => absurd back gone, _, rfl,
    fun back => absurd back gone⟩

/-- A packet is delivered. -/
theorem packet_measured (inv : Progressing cfg file stream s)
    (waiting : s.sender.phase = .waitAck →
      (∃ base, Accounted cfg file stream.closes base s ∧
        left = (unconfirmed cfg file base s.sender).card) ∨ s.Deserted stream.closes)
    {packet : Packet} {send : SendResult} {receiver : Receiver} {acks : List AckPacket}
    (taken : Step cfg stream s (.packet k send)
      ⟨s.sender, receiver, s.packets.eraseIdx k, s.acks ++ acks⟩)
    (found : s.packets[k]? = some packet) (running : s.receiver.result = none)
    (reacts : mainReceiver cfg stream.fwrite stream.closes send s.receiver packet =
      some (receiver, acks)) :
    ∃ value', Descends value' (s.measure left) ∧ Measured cfg file stream value'
      ⟨s.sender, receiver, s.packets.eraseIdx k, s.acks ++ acks⟩ := by
  have less := packet_descends inv.genuine running found reacts left
  have accounted : s.sender.phase = .waitAck →
      ∃ base, Accounted cfg file stream.closes base
        ⟨s.sender, receiver, s.packets.eraseIdx k, s.acks ++ acks⟩ ∧
      left = (unconfirmed cfg file base s.sender).card := by
    intro phase
    rcases waiting phase with ⟨base, account, size⟩ | ⟨⟨_, exited⟩, _⟩
    · exact ⟨base, account.packet inv.genuine running found reacts, size⟩
    · exact absurd running exited
  refine ⟨_, less, inv.of_accounted taken ?_, _, rfl, fun phase => .inl (accounted phase)⟩
  intro phase
  obtain ⟨base, account, _⟩ := accounted phase
  exact .inl ⟨base, account⟩

/-- An acknowledgment is delivered: to `wait_ack` it confirms a chunk or ends the loop, to
the drain loop it is one datagram less. -/
theorem ack_measured (inv : Progressing cfg file stream s)
    (waiting : s.sender.phase = .waitAck →
      (∃ base, Accounted cfg file stream.closes base s ∧
        left = (unconfirmed cfg file base s.sender).card) ∨ s.Deserted stream.closes)
    {ack : AckPacket} {send : ℕ → SendResult} {sender : Sender} {packets : List Packet}
    (taken : Step cfg stream s (.ack k send)
      ⟨sender, s.receiver, s.packets ++ packets, s.acks.eraseIdx k⟩)
    (found : s.acks[k]? = some ack)
    (reacts : receiveAck cfg s.sender ack send = some (sender, packets)) :
    ∃ value', Descends value' (s.measure left) ∧ Measured cfg file stream value'
      ⟨sender, s.receiver, s.packets ++ packets, s.acks.eraseIdx k⟩ := by
  have genuine := inv.genuine
  obtain ⟨_, window⟩ := genuine.sender.window
  have member := List.mem_of_getElem? found
  rcases receiveAck_errors genuine window member reacts with
    ⟨phase, _⟩ | ⟨gone, gone', same, rfl⟩
  · have silent : s.acks ≠ [] := List.ne_nil_of_mem member
    obtain ⟨base, account, size⟩ := (waiting phase).resolve_right fun deserted =>
      silent deserted.2
    rcases genuine.acks ack member with ⟨g, named⟩ | ⟨final, _⟩
    · have awaits := account.awaits_of_ack member named
      obtain ⟨base', refilled, account'⟩ := account.acknowledged found named reacts
      have fewer := unconfirmed_lt account.window named awaits refilled
      refine ⟨_, ?_, inv.of_accounted taken fun _ => .inl ⟨base', account'⟩,
        (unconfirmed cfg file base' sender).card, rfl,
        fun _ => .inl ⟨base', account', rfl⟩⟩
      have phase' : sender.phase = .waitAck := account'.waiting
      simp only [Transfer.measure, phase, phase']
      exact .right _ (.right _ (.left _ _ (size ▸ fewer)))
    · -- the first of the last acknowledgments ends the loop
      have phase' : sender.phase = .drain 0 := by
        rw [receiveAck, phase] at reacts
        simp only [waitAck_eq, if_pos (final.ends _), Option.some.injEq,
          Prod.mk.injEq] at reacts
        rw [← reacts.1]
      refine measured_of_left inv taken (by simp [phase']) (.left _ _ ?_)
      simp [phase, phase', SenderPhase.rank]
  · have inside := (List.getElem?_eq_some_iff.mp found).1
    have shorter := List.length_eraseIdx_of_lt inside
    have rank : sender.phase.rank = s.sender.phase.rank := by
      cases phase : s.sender.phase with
      | waitAck => exact absurd phase gone
      | returned ret => simp [receiveAck, phase] at reacts
      | drain ret =>
          rw [receiveAck, phase] at reacts
          obtain ⟨rfl, _⟩ := Prod.mk.inj (Option.some.inj reacts)
          rfl
    apply measured_of_left inv taken gone'
    simp only [Transfer.measure, rank, same, List.append_nil]
    refine .right _ (.right _ (.right _ (.right _ ?_)))
    omega

/-- A timeout costs `wait_ack` some of its patience, and ends the drain loop. -/
theorem timeout_measured (inv : Progressing cfg file stream s)
    (waiting : s.sender.phase = .waitAck →
      (∃ base, Accounted cfg file stream.closes base s ∧
        left = (unconfirmed cfg file base s.sender).card) ∨ s.Deserted stream.closes)
    {send : ℕ → SendResult} {sender : Sender} {packets : List Packet}
    (taken : Step cfg stream s (.timeout send)
      ⟨sender, s.receiver, s.packets ++ packets, s.acks⟩)
    (lossy : s.sender.phase = .waitAck → s.Quiet stream.closes)
    (reacts : expire cfg s.sender send = some (sender, packets)) :
    ∃ value', Descends value' (s.measure left) ∧ Measured cfg file stream value'
      ⟨sender, s.receiver, s.packets ++ packets, s.acks⟩ := by
  obtain ⟨_, window⟩ := inv.genuine.sender.window
  rcases expire_errors window reacts with
    ⟨phase, more, ⟨phase', below⟩ | ⟨phase', _, _⟩⟩ | ⟨gone, ⟨ret, phase'⟩, _⟩
  · have less : Descends
        (Transfer.measure ⟨sender, s.receiver, s.packets ++ packets, s.acks⟩ left)
        (s.measure left) := by
      simp only [Transfer.measure, phase, phase', more]
      refine .right _ (.right _ (.right _ (.left _ _ ?_)))
      omega
    obtain ⟨quiet, silent⟩ := lossy phase
    by_cases exited : s.receiver.Exited stream.closes
    · exact ⟨_, less, inv.of_accounted taken fun _ => .inr ⟨exited, silent⟩, left, rfl,
        fun _ => .inr ⟨exited, silent⟩⟩
    obtain ⟨base, account, size⟩ := (waiting phase).resolve_right fun deserted =>
      exited deserted.1
    rw [expire, phase] at reacts
    rcases account.window.waitAckTimeout_cases send with ⟨enough, _⟩ | ⟨_, runs⟩
    · omega
    · obtain ⟨rfl, rfl⟩ := Prod.mk.inj (Option.some.inj (runs.symm.trans reacts))
      have account' := account.expired ⟨quiet.resolve_right exited, silent⟩ send
      have same : unconfirmed cfg file base (s.sender.resend send) =
          unconfirmed cfg file base s.sender := by
        simp only [unconfirmed, Sender.awaits_resend]
        rfl
      exact ⟨_, less, inv.of_accounted taken fun _ => .inl ⟨base, account'⟩, left, rfl,
        fun _ => .inl ⟨base, account', by rw [same]; exact size⟩⟩
  · refine measured_of_left inv taken (by simp [phase']) (.left _ _ ?_)
    simp [phase, phase', SenderPhase.rank]
  · refine measured_of_left inv taken (by simp [phase']) (.left _ _ ?_)
    simp only [phase', SenderPhase.rank]
    cases phase : s.sender.phase with
    | waitAck => exact absurd phase gone
    | drain ret => exact Nat.one_pos
    | returned ret => simp [expire, phase] at reacts

theorem Measured.step {value : ℕ × ℕ × ℕ × ℕ × ℕ} {s' : Transfer} {event : Event}
    (measured : Measured cfg file stream value s)
    (taken : Within (Step cfg stream) (Lossy stream.closes) s event s') :
    ∃ value', Descends value' value ∧ Measured cfg file stream value' s' := by
  obtain ⟨inv, left, rfl, waiting⟩ := measured
  obtain ⟨taken, lossy⟩ := taken
  rcases step_cases taken with
    ⟨k, send, packet, receiver, acks, rfl, found, running, reacts, rfl⟩ |
    ⟨k, send, ack, sender, packets, rfl, found, reacts, rfl⟩ |
    ⟨send, sender, packets, rfl, reacts, rfl⟩ | ⟨k, rfl, rfl⟩ | ⟨k, rfl, rfl⟩ |
    ⟨k, packet, rfl, found, rfl⟩ | ⟨k, ack, rfl, found, rfl⟩
  · exact packet_measured inv waiting taken found running reacts
  · exact ack_measured inv waiting taken found reacts
  · exact timeout_measured inv waiting taken lossy reacts
  all_goals exact absurd lossy id

end Descent

namespace Progressing

variable {s : Transfer}

theorem measured (inv : Progressing cfg file stream s) :
    ∃ value, Measured cfg file stream value s := by
  by_cases waiting : s.sender.phase = .waitAck
  · rcases inv.accounted waiting with ⟨base, account⟩ | deserted
    · exact ⟨_, inv, _, rfl, fun _ => .inl ⟨base, account, rfl⟩⟩
    · exact ⟨_, inv, 0, rfl, fun _ => .inr deserted⟩
  · exact ⟨_, inv, 0, rfl, fun back => absurd back waiting⟩

theorem step {s' : Transfer} {event : Event}
    (inv : Progressing cfg file stream s)
    (taken : Within (Step cfg stream) (Lossy stream.closes) s event s') :
    Progressing cfg file stream s' := by
  obtain ⟨_, measured⟩ := inv.measured
  obtain ⟨_, _, inv', _⟩ := measured.step taken
  exact inv'

end Progressing

/-! ### Completion -/

/-- The timeout hands at least one packet without an acknowledgment to
`can_send_packet`. -/
def Offers (s : Transfer) (send : ℕ → SendResult) (after : Transfer) : Prop :=
  ∃ j < s.sender.windowSize, (s.sender.window j).ack = false ∧
    (send j = .sent → s.sender.window j ∈ after.packets)

namespace Progressing

variable {s : Transfer}

/-- While the receiver lacks a chunk, some slot has no acknowledgment. -/
theorem unacked_slot (inv : Progressing cfg file stream s)
    (nonempty : file ≠ []) (waiting : s.sender.phase = .waitAck)
    (running : s.receiver.result = none) :
    ∃ j < s.sender.windowSize, (s.sender.window j).ack = false := by
  obtain ⟨base, account⟩ := (inv.accounted waiting).resolve_right fun deserted =>
    deserted.1.2 running
  obtain ⟨base', n, inStep⟩ := inv.inStep (by simp [running])
  obtain rfl := inStep.window.base_unique account.window
  have size := account.window.windowSize
  have positive := packetCount_pos.mpr nonempty
  have windowPos := cfg.windowPos
  -- the chunk that the receiver's empty head slot stands for
  have inside : n < packetCount file := by
    have count := inStep.order.order.count
    rw [List.length_range] at count
    by_cases first : s.receiver.isFirst = true
    · have nothing := inStep.order.order.untouched first
      rw [List.range_eq_nil] at nothing
      omega
    · rw [Bool.not_eq_true] at first
      have live := inv.genuine.receiver.live running first
      rw [first] at count
      simp only [Bool.false_eq_true, if_false] at count
      omega
  have slot : ∀ g, g < packetCount file →
      g % cfg.WINDOW_SIZE < s.sender.windowSize := by
    intro g bound
    have := Nat.mod_lt g windowPos
    have := Nat.mod_le g cfg.WINDOW_SIZE
    omega
  by_cases loaded : n < base' + s.sender.windowSize
  · refine ⟨n % cfg.WINDOW_SIZE, slot n inside, ?_⟩
    by_contra acked
    exact inStep.order.not_has inStep.idle
      (inStep.acked n inStep.behind loaded (Bool.of_not_eq_false acked))
  · refine ⟨base' % cfg.WINDOW_SIZE, slot base' ?_, account.head ?_⟩
    · have := account.window.within
      omega
    · omega

/-- A lossy run can only stop when the sender has returned. -/
theorem stuck (inv : Progressing cfg file stream s)
    (stuck : Stuck (Within (Step cfg stream) (Lossy stream.closes)) s) :
    ∃ ret, s.sender.phase = .returned ret := by
  have genuine := inv.genuine
  by_contra busy
  have running : ∀ ret, s.sender.phase ≠ .returned ret :=
    fun ret phase => busy ⟨ret, phase⟩
  have noTimeout : ¬ Lossy stream.closes s (.timeout fun _ => .dropped) := by
    intro lossy
    obtain ⟨sender, packets, reacts, _⟩ :=
      genuine.expired running fun _ => .dropped
    exact stuck (.timeout fun _ => .dropped)
      { s with sender := sender, packets := s.packets ++ packets }
      ⟨by simp [Step, Transfer.step, reacts], lossy⟩
  have noAck : s.acks = [] := by
    by_contra some
    obtain ⟨ack, rest, shape⟩ := List.exists_cons_of_ne_nil some
    obtain ⟨sender, packets, reacts, _⟩ :=
      genuine.acknowledged (show ack ∈ s.acks by simp [shape]) running
        fun _ => .dropped
    exact stuck (.ack 0 fun _ => .dropped)
      { s with
        sender := sender
        packets := s.packets ++ packets
        acks := s.acks.eraseIdx 0 }
      ⟨by simp [Step, Transfer.step, shape, reacts], trivial⟩
  refine noTimeout fun waiting => ⟨?_, noAck⟩
  by_cases exited : s.receiver.Exited stream.closes
  · exact .inr exited
  apply Or.inl
  obtain ⟨base, account⟩ := (inv.accounted waiting).resolve_right fun deserted =>
    exited deserted.1
  -- a receiver that has returned would have told so
  have listening : s.receiver.result = none := by
    cases result : s.receiver.result with
    | none => rfl
    | some ret =>
        have finished : s.receiver.Finished := by
          rcases genuine.receiver.codes ret result with rfl | rfl | rfl
          · exact .inl result
          · exact absurd result account.going
          · exact .inr result
        have closes : stream.closes = true := by
          by_contra fails
          exact exited ⟨Bool.eq_false_of_not_eq_true fails, by simp [result]⟩
        obtain ⟨ack, member, _⟩ := account.final ⟨closes, finished⟩
        rw [noAck] at member
        simp at member
  by_contra some
  obtain ⟨packet, rest, shape⟩ := List.exists_cons_of_ne_nil some
  obtain ⟨receiver, acks, reacts, _⟩ :=
    genuine.receive listening (show packet ∈ s.packets by simp [shape]) .dropped
  exact stuck (.packet 0 .dropped)
    { s with
      receiver := receiver
      packets := s.packets.eraseIdx 0
      acks := s.acks ++ acks }
    ⟨by simp [Step, Transfer.step, shape, listening, reacts], trivial⟩

end Progressing

theorem progressing_of_reaches {events : List Event} {s : Transfer}
    (fits : packetCount file < 2 ^ 31)
    (reaches : Reaches cfg stream (Lossy stream.closes) file events s) :
    Progressing cfg file stream s :=
  reaches.invariant _ (Progressing.start fits)
    (fun inv taken lossy => inv.step ⟨taken, lossy⟩)

/-- A sender that has returned before `MAX_ERRORS` timeouts in a row leaves two
successful ends. -/
theorem Progressing.success {s : Transfer} {ret : ℤ}
    (inv : Progressing cfg file stream s)
    (returned : s.sender.phase = .returned ret)
    (patient : s.sender.maxErrors < MAX_ERRORS) :
    s.sender.phase = .returned EXIT_SUCCESS ∧
      s.receiver.ret stream.closes = some EXIT_SUCCESS ∧
      (Complete stream.fwrite → s.receiver.destination stream = some file) := by
  have genuine := inv.genuine
  have code := genuine.sender.returned ret returned
  rw [if_neg (Nat.not_le.mpr patient)] at code
  subst code
  obtain ⟨closes, finished⟩ := genuine.ended (by simp [returned]) patient
  refine ⟨returned, ?_, ?_⟩
  · rcases finished with success | short
    · simp only [Receiver.ret, closes, success]
      decide
    · simp only [Receiver.ret, closes, short]
      decide
  · intro complete
    refine genuine.receiver.destination_eq closes (finished.resolve_right ?_)
    intro short
    obtain ⟨k, incomplete⟩ := genuine.receiver.short short
    exact absurd (complete k) (Nat.not_le.mpr incomplete)

/-- The sender has returned and nothing is on its way to the receiver. -/
theorem stuck_of_returned {s : Transfer} {ret : ℤ}
    (phase : s.sender.phase = .returned ret) (packets : s.packets = []) :
    Stuck (Within (Step cfg stream) (Lossy stream.closes)) s := by
  rintro event after ⟨taken, lossy⟩
  cases event with
  | packet k send => simp [Step, Transfer.step, packets] at taken
  | ack k send => simp [Step, Transfer.step, receiveAck, phase] at taken
  | timeout send => simp [Step, Transfer.step, expire, phase] at taken
  | _ => exact lossy

/-- Every lossy run is finite; every timeout but the last of `MAX_ERRORS` in a
row offers a packet again; and a run that does not give up ends with the file
delivered. -/
theorem completion (nonempty : file ≠ []) (fits : packetCount file < 2 ^ 31) :
    (∀ send initial, Transfer.start cfg file send = some initial →
      ¬ ∃ (states : ℕ → Transfer) (events : ℕ → Event), states 0 = initial ∧
        ∀ n, Within (Step cfg stream) (Lossy stream.closes) (states n) (events n)
          (states (n + 1))) ∧
    ∀ events s, Reaches cfg stream (Lossy stream.closes) file events s →
      (∀ send after,
        Within (Step cfg stream) (Lossy stream.closes) s (.timeout send) after →
        s.sender.phase = .waitAck → s.receiver.result = none →
        ¬ GivesUp (events ++ [.timeout send]) → Offers s send after) ∧
      (Stuck (Within (Step cfg stream) (Lossy stream.closes)) s → ¬ GivesUp events →
        s.sender.phase = .returned EXIT_SUCCESS ∧
          s.receiver.ret stream.closes = some EXIT_SUCCESS ∧
          (Complete stream.fwrite → s.receiver.destination stream = some file)) := by
  refine ⟨?_, ?_⟩
  · intro send initial started
    have inv : Progressing cfg file stream initial := .start fits started
    obtain ⟨value, measured⟩ := inv.measured
    exact no_infinite_run descends_wellFounded measured
      (fun measured taken => measured.step taken)
  · intro events s reaches
    have inv := progressing_of_reaches fits reaches
    have counted := (errors_counted fits reaches).2
    refine ⟨?_, ?_⟩
    · rintro send after ⟨taken, _⟩ waiting running patient
      have below : s.sender.maxErrors + 1 < MAX_ERRORS := by
        by_contra enough
        rcases counted with counted | given
        · exact patient (givesUp_of_le (by rw [errorsInARow_timeout]; omega))
        · exact patient (given.snoc _)
      obtain ⟨j, inside, unacked⟩ := inv.unacked_slot nonempty waiting running
      refine ⟨j, inside, unacked, fun sent => ?_⟩
      obtain ⟨base, window⟩ := inv.genuine.sender.window
      rcases window.waitAckTimeout_cases send with ⟨enough, _⟩ | ⟨_, runs⟩
      · omega
      · simp only [Step, Transfer.step, expire, waiting, runs,
          Option.bind_eq_bind, Option.bind_some, Option.pure_def,
          Option.some.injEq] at taken
        rw [← taken]
        refine List.mem_append_right _ (List.mem_map.mpr ⟨j, ?_, rfl⟩)
        rw [List.mem_filter, List.mem_range]
        exact ⟨inside, by simp [retransmits, unacked, sent]⟩
    · intro stuck patient
      obtain ⟨ret, returned⟩ := inv.stuck stuck
      apply inv.success returned
      by_contra enough
      rcases counted with counted | given
      · exact patient (givesUp_of_le ((Nat.not_lt.mp enough).trans counted))
      · exact patient given

/-- Four packets through a window of two slots. The second packet and the
acknowledgment of the third are dropped, so that `wait_ack` times out once; both slots
are used again. -/
theorem completion_fourPackets :
    ∃ events s, Reaches narrow .roomy (Lossy true) fourPackets events s ∧
      s.sender.phase = .returned EXIT_SUCCESS ∧
      s.receiver.destination .roomy = some fourPackets := by
  have computed : ((Transfer.start narrow fourPackets
      (fun j => if j = 1 then .dropped else .sent)).bind fun initial =>
        initial.steps narrow .roomy (Lossy true)
          [.packet 0 .sent, .ack 0 fun _ => .sent, .packet 0 .dropped,
            .timeout fun _ => .sent, .packet 1 .sent, .packet 0 .sent,
            .ack 0 fun _ => .sent, .ack 0 fun _ => .sent, .packet 0 .sent,
            .ack 0 fun _ => .sent, .ack 0 fun _ => .sent,
            .timeout fun _ => .sent]).map (fun s => (s.sender.phase, s.packets.length)) =
      some (.returned EXIT_SUCCESS, 0) := by decide +kernel
  obtain ⟨s, run, values⟩ := Option.map_eq_some_iff.mp computed
  obtain ⟨phase, packets⟩ := Prod.mk.inj values
  have stuck : Stuck (Within (Step narrow .roomy) (Lossy true)) s :=
    @stuck_of_returned narrow .roomy s _ phase (List.eq_nil_of_length_eq_zero packets)
  have reaches := reaches_of_steps run
  have nonempty : fourPackets ≠ [] := List.append_ne_nil_of_right_ne_nil _ (by decide)
  obtain ⟨success, _, delivered⟩ :=
    ((@completion narrow fourPackets .roomy nonempty fourPackets_fits).2 _ s reaches).2 stuck
      (not_givesUp_of_length (by decide))
  exact ⟨_, s, reaches, success, delivered fun _ => le_rfl⟩

/-- The last of `MAX_ERRORS` timeouts in a row offers nothing, although the
receiver has not finished; and a run against a full disk ends, with neither side
having given up, in a file that is not the source. -/
theorem last_timeout_offers_nothing :
    (∃ s after,
      Reaches settings .roomy (Lossy true) [7]
        (List.replicate 24 (.timeout fun _ => .dropped)) s ∧
      Within (Step settings .roomy) (Lossy true) s (.timeout fun _ => .sent) after ∧
      s.sender.phase = .waitAck ∧ s.receiver.result = none ∧
      ¬ Offers s (fun _ => .sent) after) ∧
    ∃ events s, Reaches settings .full (Lossy true) threePackets events s ∧
      Stuck (Within (Step settings .full) (Lossy true)) s ∧
      ¬ GivesUp events ∧ s.receiver.destination .full = some [] := by
  refine ⟨?_, ?_⟩
  · have computed : ((Transfer.start settings [7] (fun _ => .dropped)).bind
        fun initial => initial.steps settings .roomy (Lossy true)
          (List.replicate 24 (.timeout fun _ => .dropped))).map
        (fun s => ((s.sender.phase, s.receiver.result, s.sender.maxErrors),
          s.packets, s.acks)) = some ((.waitAck, none, 24), [], []) := by
      decide +kernel
    obtain ⟨s, run, values⟩ := Option.map_eq_some_iff.mp computed
    simp only [Prod.mk.injEq] at values
    obtain ⟨⟨phase, running, errors⟩, packets, acks⟩ := values
    have taken : Step settings .roomy s (.timeout fun _ => .sent)
        { s with
          sender := { s.sender with maxErrors := 25, phase := .drain 0 } } := by
      simp [Step, Transfer.step, expire, phase, waitAckTimeout, errors,
        MAX_ERRORS]
    refine ⟨s, _, reaches_of_steps run, ⟨taken, fun _ => ⟨.inl packets, acks⟩⟩, phase,
      running, ?_⟩
    rintro ⟨j, _, _, offered⟩
    have := offered rfl
    simp [packets] at this
  · have computed : ((Transfer.start settings threePackets (fun _ => .sent)).bind
        fun initial => initial.steps settings .full (Lossy true)
          [.packet 0 .sent, .packet 0 .sent, .packet 0 .sent, .ack 2 fun _ => .sent,
            .timeout fun _ => .sent]).map
        (fun s => (s.sender.phase, s.packets.length, s.receiver.destination .full)) =
        some (.returned EXIT_SUCCESS, 0, some []) := by
      decide +kernel
    obtain ⟨s, run, values⟩ := Option.map_eq_some_iff.mp computed
    simp only [Prod.mk.injEq] at values
    obtain ⟨phase, packets, destination⟩ := values
    exact ⟨_, s, reaches_of_steps run,
      @stuck_of_returned settings .full s _ phase (List.eq_nil_of_length_eq_zero packets),
      not_givesUp_of_length (by decide), destination⟩

end Spqr
