/-
Module: Spqr.WriteError
Purpose: What becomes of an `fwrite` that comes up short: the code that
  `receive_data_from_sender` returns for it is lost in `main_receiver`.
Trusted boundary: none
Main exports:
  ShortWrite, WriteErrorReported, Taken, shortWrite_succeeds
-/
import Spqr.Integrity

namespace Spqr

open Labelled Transfer

variable {cfg : Settings} {file : List UInt8} {stream : Stream}

/-- Some `fwrite` of the transfer wrote fewer bytes than `packet.size`. -/
def ShortWrite (stream : Stream) (r : Receiver) : Prop :=
  ∃ k packet, r.written[k]? = some packet ∧ (stream.fwrite k : ℤ) < packet.size

/-- Nobody takes the transfer for a success, and the partial file is gone. -/
structure WriteErrorReported (stream : Stream) (s : Transfer) : Prop where
  receiver : s.receiver.ret stream.closes ≠ some EXIT_SUCCESS
  removed : s.receiver.destination stream = none
  sender : s.sender.phase ≠ .returned EXIT_SUCCESS

/-! ### The error code -/

/-- Every packet given to `fwrite` so far has been written in full. -/
def Taken (stream : Stream) (r : Receiver) : Prop :=
  ∀ k packet, r.written[k]? = some packet → packet.size ≤ (stream.fwrite k : ℤ)

theorem Taken.not_shortWrite {r : Receiver} (taken : Taken stream r) :
    ¬ ShortWrite stream r := by
  rintro ⟨k, packet, found, short⟩
  exact absurd (taken k packet found) (Int.not_le.mpr short)

theorem Taken.consume {r : Receiver} (taken : Taken stream r)
    (full : (r.window r.i).size ≤ stream.fwrite r.written.length) :
    Taken stream (r.consume cfg) := by
  intro k packet found
  simp only [Receiver.consume] at found
  by_cases old : k < r.written.length
  · rw [List.getElem?_append_left old] at found
    exact taken k packet found
  · rw [List.getElem?_append_right (Nat.not_lt.mp old)] at found
    obtain ⟨inside, rfl⟩ := List.getElem?_eq_some_iff.mp found
    rw [List.length_singleton] at inside
    simp only [List.getElem_singleton]
    rwa [show k = r.written.length by omega]

/-- The inner loop returns `WRITE_BYTE_ERROR` as soon as an `fwrite` is short. -/
theorem processAvailable_taken {n : ℕ} {r r' : Receiver} (taken : Taken stream r)
    (runs : processAvailable cfg stream.fwrite n r = some r') :
    Taken stream r' ∨ r'.result = some WRITE_BYTE_ERROR :=
  @processAvailable_invariant cfg stream.fwrite
    (fun x => Taken stream x ∨ x.result = some WRITE_BYTE_ERROR)
    (fun holds _ full => holds.imp (fun taken => taken.consume full) id)
    (fun _ _ _ => .inr rfl) _ _ _ (.inl taken) runs

/-- So does `receive_data_from_sender`, on any datagram. -/
theorem receive_taken {send : SendResult} {r r' : Receiver} {packet : Packet}
    {acks : List AckPacket} (taken : Taken stream r)
    (reacts : receiveDataFromSender cfg stream.fwrite send r packet = some (r', acks)) :
    Taken stream r' ∨ r'.result = some WRITE_BYTE_ERROR := by
  have noted : Taken stream (r.noteFirst packet) := by
    unfold Receiver.noteFirst
    split <;> exact taken
  have looped : ∀ q : Receiver, Taken stream q → Taken stream q.loopCondition := by
    intro q holds
    unfold Receiver.loopCondition
    split <;> exact holds
  rcases reaction_cases reacts with ⟨-, rfl, -⟩ | ⟨-, rfl, -⟩ | ⟨-, -, -, rfl, -⟩ |
    ⟨-, -, -, processed, runs, rest⟩
  · exact .inl taken
  · exact .inl (looped r taken)
  · exact .inl noted
  · have stored : Taken stream ((r.noteFirst packet).store packet) := noted
    have outcome := processAvailable_taken stored runs
    rcases rest with ⟨-, rfl, -⟩ | ⟨running, acknowledged⟩
    · exact outcome
    · have holds := outcome.resolve_right (by simp [running])
      obtain ⟨rfl, -⟩ := Prod.mk.inj acknowledged
      refine .inl (looped _ ?_)
      split <;> exact holds

/-- Along every run a short `fwrite` has ended the receiver's loop with
`WRITE_BYTE_ERROR`. -/
theorem result_of_shortWrite {allowed : Transfer → Event → Prop}
    {events : List Event} {s : Transfer}
    (reaches : Reaches cfg stream allowed file events s)
    (short : ShortWrite stream s.receiver) :
    s.receiver.result = some WRITE_BYTE_ERROR := by
  have outcome : Taken stream s.receiver ∨
      s.receiver.result = some WRITE_BYTE_ERROR := by
    refine reaches.invariant (fun s => Taken stream s.receiver ∨
      s.receiver.result = some WRITE_BYTE_ERROR) ?_ ?_
    · intro send initial started
      obtain ⟨_, _, rfl⟩ := Option.map_eq_some_iff.mp started
      exact .inl (by simp [Taken, Receiver.initial])
    · intro before event after holds taken _
      rcases step_cases taken with
        ⟨k, send, packet, receiver, acks, rfl, found, running, reacts, rfl⟩ |
        ⟨k, send, ack, sender, packets, rfl, found, reacts, rfl⟩ |
        ⟨send, sender, packets, rfl, reacts, rfl⟩ | ⟨k, rfl, rfl⟩ |
        ⟨k, rfl, rfl⟩ | ⟨k, packet, rfl, found, rfl⟩ | ⟨k, ack, rfl, found, rfl⟩
      · have written := holds.resolve_right (by simp [running])
        simp only [mainReceiver] at reacts
        split at reacts
        · simp at reacts
        · rename_i loop
          have := receive_taken written loop
          split at reacts <;>
            · obtain ⟨rfl, -⟩ := Prod.mk.inj (Option.some.inj reacts)
              exact this
      all_goals exact holds
  exact outcome.resolve_left (fun written => written.not_shortWrite short)

/-! ### Success all the same -/

/-- After a short `fwrite` the partial file stays; the receiver returns `EXIT_SUCCESS`,
unless it dies in `fclose`; and the sender, where it has not given up, returns it too, which
it cannot after such a death. -/
theorem shortWrite_succeeds {allowed : Transfer → Event → Prop}
    {events : List Event} {s : Transfer}
    (reaches : Reaches cfg stream allowed file events s)
    (short : ShortWrite stream s.receiver) :
    ¬ WriteErrorReported stream s ∧
      (s.receiver.ret stream.closes = some EXIT_SUCCESS ↔ stream.closes = true) ∧
      s.receiver.destination stream = some (s.receiver.file.take stream.kept) ∧
      (packetCount file < 2 ^ 31 → ∀ ret, s.sender.phase = .returned ret →
        (ret = EXIT_SUCCESS ↔ s.sender.maxErrors < MAX_ERRORS) ∧
          (ret = EXIT_SUCCESS → stream.closes = true)) := by
  have error := result_of_shortWrite reaches short
  have left : s.receiver.destination stream = some (s.receiver.file.take stream.kept) := by
    simp [Receiver.destination, Receiver.stored, error, WRITE_BYTE_ERROR, TRANSFER_ERROR]
  refine ⟨fun reported => ?_, ?_, left, ?_⟩
  · have removed := reported.removed
    rw [left] at removed
    cases removed
  · rw [Receiver.ret, error]
    cases stream.closes <;> decide
  · intro fits ret phase
    have genuine := Genuine.reaches fits reaches
    have code := genuine.sender.returned ret phase
    constructor
    · split at code <;> subst code
      · simp only [TRANSFER_ERROR, EXIT_SUCCESS]
        omega
      · simp only [true_iff]
        omega
    · rintro rfl
      have active : s.sender.maxErrors < MAX_ERRORS := by
        by_contra gaveUp
        rw [if_pos (Nat.not_lt.mp gaveUp)] at code
        exact absurd code (by decide)
      exact (genuine.ended (by simp [phase]) active).1

/-- 4500 bytes against a disk without any room: three packets, of which the third `fwrite`
comes up short, the first of the last acknowledgments, and the end of the sender's drain. -/
def fullDisk : Option Transfer :=
  (Transfer.start settings threePackets (fun _ => .sent)).bind fun initial =>
    initial.steps settings .full (fun _ _ => True)
      [.packet 0 .sent, .packet 0 .sent, .packet 0 .sent, .ack 2 (fun _ => .sent),
        .timeout (fun _ => .sent)]

theorem shortWrite_succeeds_fullDisk :
    ∃ s, fullDisk = some s ∧ s.receiver.ret true = some EXIT_SUCCESS ∧
      s.receiver.destination .full = some [] := by
  have computed : fullDisk.map (fun s =>
      s.receiver.written.map fun packet => packet.size) = some [1500, 1500, 1500] := by
    decide +kernel
  obtain ⟨s, run, sizes⟩ := Option.map_eq_some_iff.mp computed
  obtain ⟨packet, third, size⟩ : ∃ packet, s.receiver.written[2]? = some packet ∧
      packet.size = 1500 := by
    have third : (s.receiver.written.map fun packet => packet.size)[2]? = some 1500 := by
      rw [sizes]
      rfl
    rw [List.getElem?_map] at third
    exact Option.map_eq_some_iff.mp third
  have short : ShortWrite .full s.receiver :=
    ⟨2, packet, third, by rw [size]; decide⟩
  obtain ⟨_, success, partial_, _⟩ := shortWrite_succeeds (reaches_of_steps run) short
  exact ⟨s, run, success.mpr rfl, partial_⟩

/-- Both sides report success although nothing was stored. -/
theorem fullDisk_unreported :
    ∃ s, Reaches settings .full (fun _ _ => True) threePackets
        [.packet 0 .sent, .packet 0 .sent, .packet 0 .sent, .ack 2 (fun _ => .sent),
          .timeout (fun _ => .sent)] s ∧
      ShortWrite .full s.receiver ∧
      s.receiver.ret true = some EXIT_SUCCESS ∧
      s.receiver.destination .full = some [] ∧
      s.sender.phase = .returned EXIT_SUCCESS := by
  have computed : fullDisk.map (fun s =>
      ((s.receiver.written.map fun packet => packet.size), s.receiver.ret true,
        s.receiver.destination .full, s.sender.phase)) =
      some ([1500, 1500, 1500], some EXIT_SUCCESS, some [], .returned EXIT_SUCCESS) := by
    decide +kernel
  obtain ⟨s, run, values⟩ := Option.map_eq_some_iff.mp computed
  simp only [Prod.mk.injEq] at values
  obtain ⟨sizes, ret, destination, phase⟩ := values
  have third : (s.receiver.written.map fun packet => packet.size)[2]? = some 1500 := by
    rw [sizes]
    rfl
  rw [List.getElem?_map] at third
  obtain ⟨packet, third, size⟩ := Option.map_eq_some_iff.mp third
  exact ⟨s, reaches_of_steps run, ⟨2, packet, third, by rw [size]; decide⟩, ret, destination,
    phase⟩

end Spqr
