/-
Module: Spqr.Patience
Purpose: How long `main_sender` waits: each of its waits, and all those after which
  it gives up.
Trusted boundary: a `recvfrom` that times out has waited for `SO_RCVTIMEO`
Main exports:
  Waiting, Waiting.step, Waiting.Reaches, Patient, patience
-/
import Spqr.Integrity
import Spqr.Lib.Backoff

namespace Spqr

open Labelled Transfer

variable {cfg : Settings} {file : List UInt8} {stream : Stream}

/-! ### A transfer with a clock -/

/-- A transfer with two clocks, in microseconds: `silence` is for how long `wait_ack`
has heard nothing, and stands still once it is left; `idle` is for how long the sender
has, in the drain loop of `main_sender` as well. `late` says that the drain loop has
taken an acknowledgment. -/
structure Waiting where
  transfer : Transfer
  silence : ℕ
  idle : ℕ
  late : Bool

namespace Waiting

/-- The silence of `wait_ack` after an event. -/
def silenceAfter (w : Waiting) : Event → ℕ
  | .ack _ _ => if w.transfer.sender.phase = .waitAck then 0 else w.silence
  | .timeout _ =>
      if w.transfer.sender.phase = .waitAck then
        w.silence + w.transfer.sender.rcvTimeout
      else w.silence
  | _ => w.silence

/-- The time without an acknowledgment after an event. -/
def idleAfter (w : Waiting) : Event → ℕ
  | .ack _ _ => 0
  | .timeout _ => w.idle + w.transfer.sender.rcvTimeout
  | _ => w.idle

/-- Whether the drain loop has taken an acknowledgment, after an event. -/
def lateAfter (w : Waiting) : Event → Bool
  | .ack _ _ => if w.transfer.sender.phase = .waitAck then w.late else true
  | _ => w.late

/-- The state after an event, if the event can happen. -/
def step (cfg : Settings) (stream : Stream) (w : Waiting) (event : Event) :
    Option Waiting :=
  (w.transfer.step cfg stream event).map fun after =>
    ⟨after, w.silenceAfter event, w.idleAfter event, w.lateAfter event⟩

/-- The step relation. -/
def Step (cfg : Settings) (stream : Stream) (before : Waiting) (event : Event)
    (after : Waiting) : Prop :=
  before.step cfg stream event = some after

/-- The states that a transfer of `file` can reach. -/
def Reaches (cfg : Settings) (stream : Stream) (file : List UInt8) (events : List Event)
    (w : Waiting) : Prop :=
  ∃ send initial, start cfg file send = some initial ∧
    Run (Step cfg stream) ⟨initial, 0, 0, false⟩ events w

end Waiting

/-! ### The timeout -/

/-- A timeout that `decrease_timeout` and `increase_timeout` can set. -/
structure Regular (timeout : ℕ) : Prop where
  lower : MIN_TIMEOUT ≤ timeout
  upper : timeout ≤ MAX_TIMEOUT
  grid : TIME_UNIT ∣ timeout

theorem Regular.decrease {timeout : ℕ} (regular : Regular timeout) :
    Regular (decreaseTimeout timeout) := by
  unfold decreaseTimeout
  split
  · rename_i room
    refine ⟨by omega, by have := regular.upper; omega, ?_⟩
    exact Nat.dvd_sub regular.grid (Nat.dvd_refl _)
  · exact regular

/-- The `k`-th wait after one of `first` that an acknowledgment has ended. -/
def waitAfter (first k : ℕ) : ℕ := Backoff.wait TIME_UNIT MAX_TIMEOUT first k

/-- The first `n` of them together. -/
def waited (first n : ℕ) : ℕ := Backoff.total TIME_UNIT MAX_TIMEOUT first n

theorem Regular.waitAfter_zero {first : ℕ} (regular : Regular first) :
    waitAfter first 0 = first := Backoff.wait_zero regular.upper

theorem waited_zero (first : ℕ) : waited first 0 = 0 := Backoff.total_zero

theorem waited_succ (first n : ℕ) :
    waited first (n + 1) = waited first n + waitAfter first n := Backoff.total_succ n

theorem Regular.waitAfter {first : ℕ} (regular : Regular first) (k : ℕ) :
    Regular (waitAfter first k) where
  lower := regular.lower.trans (Backoff.le_wait regular.upper k)
  upper := Backoff.wait_le k
  grid := Backoff.dvd_wait regular.grid (by decide) k

theorem Regular.increase {first : ℕ} (regular : Regular first) (k : ℕ) :
    increaseTimeout (Spqr.waitAfter first k) = Spqr.waitAfter first (k + 1) :=
  Backoff.wait_succ regular.grid (by decide) (by decide) k

/-- From the 19th wait of a row on, the timeout is as long as it gets. -/
theorem Regular.waitAfter_last {first : ℕ} (regular : Regular first) :
    Spqr.waitAfter first (MAX_ERRORS - 1) = MAX_TIMEOUT := by
  have lower := regular.lower
  simp only [MIN_TIMEOUT] at lower
  simp only [Spqr.waitAfter, Backoff.wait, TIME_UNIT, MAX_TIMEOUT, MAX_ERRORS]
  omega

/-! ### The invariant -/

/-- A sender and its two clocks. Since an acknowledgment last arrived, `wait_ack` has
waited once for each error, and its next wait is the one that follows. A sender that has
given up waits once more in its drain loop, as long as it can. -/
structure Patient (s : Sender) (silence idle : ℕ) (late : Bool) : Prop where
  waiting : s.phase = .waitAck →
    s.maxErrors < MAX_ERRORS ∧ idle = silence ∧ late = false ∧
      ∃ first, Regular first ∧ s.rcvTimeout = waitAfter first s.maxErrors ∧
        silence = waited first s.maxErrors
  draining : ∀ ret, s.phase = .drain ret → Regular s.rcvTimeout ∧
    (MAX_ERRORS ≤ s.maxErrors →
      s.rcvTimeout = MAX_TIMEOUT ∧ idle = if late then 0 else silence)
  returned : ∀ ret, s.phase = .returned ret → MAX_ERRORS ≤ s.maxErrors →
    idle = if late then MAX_TIMEOUT else silence + MAX_TIMEOUT
  gaveUp : MAX_ERRORS ≤ s.maxErrors → ∃ first, Regular first ∧
    silence = waited first MAX_ERRORS

theorem fillWindow_timeout {count : ℤ} :
    ∀ {n i seqNum : ℕ} {s s' : Sender}, fillWindow cfg count n i seqNum s = some s' →
      s'.rcvTimeout = s.rcvTimeout ∧ s'.maxErrors = s.maxErrors ∧ s'.phase = s.phase := by
  intro n
  induction n with
  | zero =>
      intro i seqNum s s' runs
      obtain rfl := Option.some.inj runs
      exact ⟨rfl, rfl, rfl⟩
  | succ n inductionHypothesis =>
      intro i seqNum s s' runs
      simp only [fillWindow_succ] at runs
      split_ifs at runs
      · obtain rfl := Option.some.inj runs
        exact ⟨rfl, rfl, rfl⟩
      · have kept := inductionHypothesis runs
        exact kept

/-- Refilling the window leaves the timeout and the errors alone. -/
theorem refill_timeout {send : ℕ → SendResult} {budget k : ℕ} {n : ℤ} {s s' : Sender}
    {packets : List Packet} (runs : refill cfg send k n budget s = some (s', packets)) :
    s'.rcvTimeout = s.rcvTimeout ∧ s'.maxErrors = s.maxErrors ∧ s'.phase = s.phase :=
  (@refill_invariant cfg send
    (fun x => x.rcvTimeout = s.rcvTimeout ∧ x.maxErrors = s.maxErrors ∧ x.phase = s.phase)
    (fun _ => True) (fun _ kept => kept) (fun _ _ kept _ => ⟨trivial, kept⟩)
    (fun kept => kept) _ _ _ _ _ _ ⟨rfl, rfl, rfl⟩ runs).1

namespace Patient

variable {s s' : Sender} {silence idle : ℕ} {late : Bool}

/-- An acknowledgment that `wait_ack` takes, and goes on, starts a new row of waits. -/
theorem heard (waits : s.phase = .waitAck) (regular : Regular s.rcvTimeout)
    (errors : s.maxErrors = 0) : Patient s 0 0 false where
  waiting := by
    intro _
    refine ⟨by rw [errors]; decide, rfl, rfl, s.rcvTimeout, regular, ?_, ?_⟩
    · rw [errors, regular.waitAfter_zero]
    · rw [errors, waited_zero]
  draining := by simp [waits]
  returned := by simp [waits]
  gaveUp := by
    intro gaveUp
    rw [errors] at gaveUp
    exact absurd gaveUp (by decide)

/-- One that ends it leaves the timeout as it is. -/
theorem ended {ret : ℤ} (drains : s.phase = .drain ret) (regular : Regular s.rcvTimeout)
    (errors : s.maxErrors = 0) : Patient s 0 0 false := by
  have patient : ¬ MAX_ERRORS ≤ s.maxErrors := by
    rw [errors]
    decide
  exact ⟨by simp [drains], fun _ _ => ⟨regular, fun gaveUp => absurd gaveUp patient⟩,
    by simp [drains], fun gaveUp => absurd gaveUp patient⟩

theorem start {send : ℕ → SendResult} {initial : Transfer}
    (started : Transfer.start cfg file send = some initial) :
    Patient initial.sender 0 0 false := by
  obtain ⟨⟨sender, packets⟩, runs, rfl⟩ := Option.map_eq_some_iff.mp started
  unfold mainSenderStart at runs
  dsimp only at runs
  split at runs
  · cases runs
  rename_i filled fills
  split_ifs at runs
  obtain ⟨rfl, -⟩ := Prod.mk.inj (Option.some.inj runs)
  obtain ⟨timeout, errors, phase⟩ := fillWindow_timeout fills
  have regular : Regular TIMEOUT := ⟨by decide, by decide, by decide⟩
  refine heard phase ?_ errors
  simp only [timeout]
  exact regular

/-- The sender takes an acknowledgment. -/
theorem acknowledged (patient : Patient s silence idle late) {ack : AckPacket}
    {send : ℕ → SendResult} {packets : List Packet}
    (reacts : receiveAck cfg s ack send = some (s', packets)) :
    Patient s' (if s.phase = .waitAck then 0 else silence) 0
      (if s.phase = .waitAck then late else true) := by
  unfold receiveAck at reacts
  split at reacts
  · rename_i phase
    obtain ⟨-, -, early, first, regular, timeout, -⟩ := patient.waiting phase
    have here : Regular s.rcvTimeout := by
      rw [timeout]
      exact regular.waitAfter _
    rw [if_pos phase, if_pos phase, early]
    simp only [waitAck_eq] at reacts
    split_ifs at reacts
    · obtain ⟨rfl, -⟩ := Prod.mk.inj (Option.some.inj reacts)
      exact ended rfl here rfl
    · obtain ⟨rfl, -⟩ := Prod.mk.inj (Option.some.inj reacts)
      exact heard phase here.decrease rfl
    · obtain ⟨kept, errors, waits⟩ := refill_timeout reacts
      refine heard (waits.trans phase) ?_ errors
      rw [kept]
      exact here.decrease
  · rename_i ret phase
    rw [if_neg (by simp [phase]), if_neg (by simp [phase])]
    obtain ⟨rfl, -⟩ := Prod.mk.inj (Option.some.inj reacts)
    obtain ⟨regular, longest⟩ := patient.draining ret phase
    exact ⟨by simp [mainSenderDrain],
      fun _ _ => ⟨regular, fun gaveUp => ⟨(longest gaveUp).1, rfl⟩⟩,
      by simp [mainSenderDrain], patient.gaveUp⟩
  · cases reacts

/-- The sender's `recvfrom` times out. -/
theorem expired (patient : Patient s silence idle late) {send : ℕ → SendResult}
    {packets : List Packet} (reacts : expire cfg s send = some (s', packets)) :
    Patient s' (if s.phase = .waitAck then silence + s.rcvTimeout else silence)
      (idle + s.rcvTimeout) late := by
  unfold expire at reacts
  split at reacts
  · rename_i phase
    obtain ⟨active, same, rfl, first, regular, timeout, waits⟩ := patient.waiting phase
    have longer : silence + s.rcvTimeout = waited first (s.maxErrors + 1) := by
      rw [waits, timeout, waited_succ]
    rw [if_pos phase, same]
    simp only [waitAckTimeout] at reacts
    split_ifs at reacts with last
    · obtain ⟨rfl, -⟩ := Prod.mk.inj (Option.some.inj reacts)
      have final : s.maxErrors = MAX_ERRORS - 1 := by omega
      have longest : s.rcvTimeout = MAX_TIMEOUT := by
        rw [timeout, final, regular.waitAfter_last]
      refine ⟨by simp, fun _ _ => ⟨?_, fun _ => ⟨longest, rfl⟩⟩, by simp,
        fun _ => ⟨first, regular, ?_⟩⟩
      · simp only [longest]
        exact ⟨by decide, by decide, by decide⟩
      · rw [longer, final]
        rfl
    · obtain ⟨rfl, -⟩ := Prod.mk.inj (Option.some.inj reacts)
      refine ⟨fun _ => ⟨Nat.not_le.mp last, rfl, rfl, first, regular, ?_, longer⟩, ?_, ?_,
        fun gaveUp => absurd gaveUp last⟩
      · simp only [timeout, regular.increase]
      · simp [phase]
      · simp [phase]
  · rename_i ret phase
    obtain ⟨-, longest⟩ := patient.draining ret phase
    have stops : MAX_ERRORS ≤ s.maxErrors →
        idle + s.rcvTimeout = if late then MAX_TIMEOUT else silence + MAX_TIMEOUT := by
      intro gaveUp
      obtain ⟨timeout, waits⟩ := longest gaveUp
      rw [waits, timeout]
      cases late <;> simp
    rw [if_neg (by simp [phase])]
    simp only [mainSenderReturn] at reacts
    split_ifs at reacts <;> obtain ⟨rfl, -⟩ := Prod.mk.inj (Option.some.inj reacts) <;>
      exact ⟨by simp, by simp, fun _ _ => stops, patient.gaveUp⟩
  · cases reacts

/-- Every event keeps the invariant. -/
theorem step {w w' : Waiting}
    (patient : Patient w.transfer.sender w.silence w.idle w.late) {event : Event}
    (taken : Waiting.Step cfg stream w event w') :
    Patient w'.transfer.sender w'.silence w'.idle w'.late := by
  obtain ⟨after, moves, rfl⟩ := Option.map_eq_some_iff.mp taken
  rcases step_cases moves with
    ⟨k, send, packet, receiver, acks, rfl, _, _, _, rfl⟩ |
    ⟨k, send, ack, sender, packets, rfl, _, reacts, rfl⟩ |
    ⟨send, sender, packets, rfl, reacts, rfl⟩ | ⟨k, rfl, rfl⟩ | ⟨k, rfl, rfl⟩ |
    ⟨k, packet, rfl, _, rfl⟩ | ⟨k, ack, rfl, _, rfl⟩
  · exact patient
  · exact patient.acknowledged reacts
  · exact patient.expired reacts
  all_goals exact patient

theorem reaches {events : List Event} {w : Waiting}
    (run : Waiting.Reaches cfg stream file events w) :
    Patient w.transfer.sender w.silence w.idle w.late := by
  obtain ⟨send, initial, started, run⟩ := run
  exact @Run.invariant _ _ _
    (fun w : Waiting => Patient w.transfer.sender w.silence w.idle w.late) _ _ _ run
    (.start started) fun patient taken => Patient.step patient taken

end Patient

/-! ### The bounds -/

/-- The waits of 25 errors, from the shortest timeout and at the longest. -/
theorem waited_bounds {first : ℕ} (regular : Regular first) :
    1316000 ≤ waited first MAX_ERRORS ∧ waited first MAX_ERRORS ≤ 2000000 := by
  constructor
  · have shortest : waited MIN_TIMEOUT MAX_ERRORS = 1316000 := by decide
    rw [← shortest]
    exact Backoff.total_mono regular.lower _
  · exact Backoff.total_le _

theorem Waiting.Reaches.transfer {events : List Event} {w : Waiting}
    (reaches : Waiting.Reaches cfg stream file events w) :
    Transfer.Reaches cfg stream (fun _ _ => True) file events w.transfer := by
  obtain ⟨send, initial, started, run⟩ := reaches
  refine ⟨send, initial, started, ?_⟩
  induction run with
  | refl => exact .refl
  | tail _ final inductionHypothesis =>
      obtain ⟨after, moves, rfl⟩ := Option.map_eq_some_iff.mp final
      exact .tail inductionHypothesis ⟨moves, trivial⟩

/-- Whatever the channel does, each wait of `main_sender` is a multiple of `TIME_UNIT`
from 8 ms to 80 ms. A sender that fails has left `wait_ack` after 1.316 s to 2 s in which
no acknowledgment arrived, and its drain loop after 80 ms in which none did: 80 ms more,
unless the drain loop has taken one. -/
theorem patience (fits : packetCount file < 2 ^ 31) {events : List Event} {w : Waiting}
    (reaches : Waiting.Reaches cfg stream file events w) :
    ((∀ ret, w.transfer.sender.phase ≠ .returned ret) →
      Regular w.transfer.sender.rcvTimeout) ∧
    (w.transfer.sender.phase = .returned TRANSFER_ERROR →
      (1316000 ≤ w.silence ∧ w.silence ≤ 2000000) ∧
      w.idle = if w.late then MAX_TIMEOUT else w.silence + MAX_TIMEOUT) := by
  have patient := Patient.reaches reaches
  constructor
  · intro active
    cases phase : w.transfer.sender.phase with
    | waitAck =>
        obtain ⟨-, -, -, first, regular, timeout, -⟩ := patient.waiting phase
        rw [timeout]
        exact regular.waitAfter _
    | drain ret => exact (patient.draining ret phase).1
    | returned ret => exact absurd phase (active ret)
  · intro failed
    have genuine : Genuine cfg file stream w.transfer := .reaches fits reaches.transfer
    have code := genuine.sender.returned _ failed
    split_ifs at code with gaveUp
    · refine ⟨?_, patient.returned _ failed gaveUp⟩
      obtain ⟨first, regular, silence⟩ := patient.gaveUp gaveUp
      rw [silence]
      exact waited_bounds regular
    · exact absurd code (by decide)

/-- An acknowledgment that arrives in the drain loop starts the last wait again, and no
more than that. -/
theorem patience_late :
    ∃ w, Waiting.Reaches settings .roomy [7]
        (.packet 0 .sent :: List.replicate 25 (.timeout fun _ => .dropped) ++
          [.ack 0 fun _ => .sent, .timeout fun _ => .dropped]) w ∧
      w.silence = 1316000 ∧ w.late = true ∧
      (1316000 ≤ w.silence ∧ w.silence ≤ 2000000) ∧
      w.idle = if w.late then MAX_TIMEOUT else w.silence + MAX_TIMEOUT := by
  have computed : ((start settings [7] fun _ => .sent).bind fun initial =>
      (stepAll (Waiting.step settings .roomy) (fun _ _ => True) ⟨initial, 0, 0, false⟩
        (.packet 0 .sent :: List.replicate 25 (.timeout fun _ => .dropped) ++
          [.ack 0 fun _ => .sent, .timeout fun _ => .dropped])).map fun w =>
          (w.transfer.sender.phase, w.silence, w.late)) =
      some (.returned TRANSFER_ERROR, 1316000, true) := by decide +kernel
  obtain ⟨initial, started, computed⟩ := Option.bind_eq_some_iff.mp computed
  obtain ⟨w, runs, last⟩ := Option.map_eq_some_iff.mp computed
  obtain ⟨failed, silence, late⟩ := by simpa only [Prod.mk.injEq] using last
  have reaches : Waiting.Reaches settings .roomy [7]
      (.packet 0 .sent :: List.replicate 25 (.timeout fun _ => .dropped) ++
        [.ack 0 fun _ => .sent, .timeout fun _ => .dropped]) w :=
    ⟨_, initial, started, (run_of_stepAll _ _ runs).mono fun taken => taken.1⟩
  exact ⟨w, reaches, silence, late, (patience (by decide) reaches).2 failed⟩

end Spqr
