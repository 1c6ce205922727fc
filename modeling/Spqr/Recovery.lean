/-
Module: Spqr.Recovery
Purpose: No history of losses, repetitions, delays and timeouts leads a transfer
  into a state from which it cannot succeed any more, as long as the receiver
  listens and the sender may run into one more timeout.
Trusted boundary: none
Main exports:
  CaughtUp, Unfailing, Hopeful, Transfer.losses, can_succeed
-/
import Spqr.StaleAck
import Spqr.Completion

namespace Spqr

open Labelled Transfer

variable {cfg : Settings} {file : List UInt8} {stream : Stream}

/-! ### How far the window has moved -/

/-- The window has moved as far as its flags allow, and acknowledged slots fail
the retransmission test. -/
structure CaughtUp (cfg : Settings) (file : List UInt8) (base : ℕ) (s : Sender) :
    Prop where
  window : SenderWindow cfg file base s
  head : base + s.windowSize < packetCount file →
    (s.window (base % cfg.WINDOW_SIZE)).ack = false
  confirmed : ∀ g, base ≤ g → g < base + s.windowSize →
    (s.window (g % cfg.WINDOW_SIZE)).ack = true →
    (chunkEnd file g : ℤ) ≤ s.lastAckConfirmedBytes

namespace CaughtUp

variable {base : ℕ} {s : Sender}

theorem start (fits : packetCount file < 2 ^ 31) {send : ℕ → SendResult}
    {initial : Transfer} (started : Transfer.start cfg file send = some initial) :
    CaughtUp cfg file 0 initial.sender := by
  have account : Accounted cfg file true 0 initial := .start fits started
  exact ⟨account.window, account.head, account.confirmed⟩

/-- Only the window, the file position and the confirmed bytes matter. -/
theorem of_fields (settled : CaughtUp cfg file base s) {s' : Sender}
    (window : SenderWindow cfg file base s')
    (flags : ∀ j, (s'.window j).ack = (s.window j).ack)
    (bytes : s.lastAckConfirmedBytes ≤ s'.lastAckConfirmedBytes) :
    CaughtUp cfg file base s' := by
  have size : s'.windowSize = s.windowSize :=
    window.windowSize.trans settled.window.windowSize.symm
  refine ⟨window, ?_, ?_⟩
  · intro more
    rw [flags]
    exact settled.head (size ▸ more)
  · intro g low high acked
    rw [flags] at acked
    exact (settled.confirmed g low (size ▸ high) acked).trans bytes

/-- A slot is marked by an acknowledgment of the packet it holds, and the window
moves on. -/
theorem refilled (settled : CaughtUp cfg file base s) {base' : ℕ} {ack : AckPacket}
    (timely : ack.size = (s.window ack.seqNum.toNat).noBytesToSend)
    {send : ℕ → SendResult} {s' : Sender} {packets : List Packet}
    (refilled : Refilled cfg file base base' send
      ((s.noteAck ack).mark ack.seqNum.toNat) s' packets) :
    CaughtUp cfg file base' s' := by
  have size : s'.windowSize = s.windowSize :=
    refilled.window.windowSize.trans settled.window.windowSize.symm
  refine ⟨refilled.window, ?_, ?_⟩
  · intro more
    rw [size] at more
    exact refilled.stops more
  · intro g low high acked
    rw [size] at high
    rw [refilled.lastAckConfirmedBytes]
    by_cases old : g < base + s.windowSize
    · have before := refilled.lower.trans low
      rw [refilled.kept g low old] at acked
      by_cases marked : g % cfg.WINDOW_SIZE = ack.seqNum.toNat
      · have slot := (settled.window.slot g before old).noBytesToSend
        rw [marked, ← timely] at slot
        rw [← slot]
        exact le_max_left _ _
      · simp only [Sender.mark, Sender.noteAck, Function.update_of_ne marked] at acked
        exact (settled.confirmed g before old acked).trans (le_max_right _ _)
    · rw [refilled.fresh g (Nat.not_lt.mp old) high] at acked
      exact absurd acked (by decide)

end CaughtUp

/-- In every transfer with timely acknowledgments the waiting sender's window has
moved as far as it can. -/
theorem caughtUp_of_reaches {events : List Event} {s : Transfer}
    (fits : packetCount file < 2 ^ 31)
    (reaches : Reaches cfg stream Timely file events s)
    (waiting : s.sender.phase = .waitAck) :
    ∃ base, CaughtUp cfg file base s.sender := by
  have inv : Genuine cfg file stream s ∧
      (s.sender.phase = .waitAck → ∃ base, CaughtUp cfg file base s.sender) := by
    apply reaches.invariant (fun s => Genuine cfg file stream s ∧
      (s.sender.phase = .waitAck → ∃ base, CaughtUp cfg file base s.sender))
    · intro send initial started
      exact ⟨.start fits started, fun _ => ⟨0, .start fits started⟩⟩
    · rintro before event after ⟨genuine, settled⟩ taken timely
      refine ⟨genuine.step taken, fun waiting' => ?_⟩
      have phase := taken.waiting waiting'
      obtain ⟨base, settled⟩ := settled phase
      rcases step_cases taken with
        ⟨_, _, _, _, _, rfl, _, _, _, rfl⟩ |
        ⟨k, send, ack, sender, packets, rfl, found, reacts, rfl⟩ |
        ⟨send, sender, packets, rfl, reacts, rfl⟩ | ⟨_, rfl, rfl⟩ | ⟨_, rfl, rfl⟩ |
        ⟨_, _, rfl, _, rfl⟩ | ⟨_, _, rfl, _, rfl⟩
      · exact ⟨base, settled⟩
      · have member := List.mem_of_getElem? found
        have inside : ¬ ack.ends before.sender.sizeFile →
            0 ≤ ack.seqNum ∧ ack.seqNum < cfg.WINDOW_SIZE := by
          intro goesOn
          rcases genuine.acks ack member with ⟨_, named⟩ | ⟨final, _⟩
          · exact named.seqNum_mem
          · exact absurd (final.ends _) goesOn
        rw [receiveAck, phase] at reacts
        rcases settled.window.waitAck_cases inside
            (show (sizeofAckPacket : ℤ) ≠ 0 by decide) send with
          ⟨_, runs⟩ | ⟨_, _, runs⟩ |
          ⟨goesOn, free, s', packets', base', runs, refilled⟩ <;>
          obtain ⟨rfl, rfl⟩ :=
            Prod.mk.inj (Option.some.inj (runs.symm.trans reacts))
        · simp at waiting'
        · exact ⟨base, settled.of_fields
            (settled.window.of_window ⟨rfl, rfl, rfl, rfl, rfl, rfl, rfl⟩)
            (fun _ => rfl) (le_max_right _ _)⟩
        · exact ⟨base', settled.refilled (timely ack found phase goesOn free) refilled⟩
      · rw [expire, phase] at reacts
        rcases settled.window.waitAckTimeout_cases send with ⟨_, runs⟩ | ⟨_, runs⟩ <;>
          obtain ⟨rfl, rfl⟩ :=
            Prod.mk.inj (Option.some.inj (runs.symm.trans reacts))
        · simp at waiting'
        · refine ⟨base, settled.of_fields (settled.window.resend send) (fun j => ?_) le_rfl⟩
          obtain ⟨_, same⟩ := before.sender.resend_window send j
          rw [same]
      all_goals exact ⟨base, settled⟩
  exact inv.2 waiting

/-! ### Everything in flight is lost -/

theorem run_losePackets {s : Transfer} :
    Run (Within (Step cfg stream) Timely) s
      (List.replicate s.packets.length (.losePacket 0)) { s with packets := [] } := by
  obtain ⟨sender, receiver, packets, acks⟩ := s
  induction packets with
  | nil => exact .refl
  | cons packet packets inductionHypothesis =>
      have lost : Within (Step cfg stream) Timely ⟨sender, receiver, packet :: packets, acks⟩
          (.losePacket 0) ⟨sender, receiver, packets, acks⟩ := ⟨rfl, trivial⟩
      exact (Run.single lost).trans inductionHypothesis

theorem run_loseAcks {s : Transfer} :
    Run (Within (Step cfg stream) Timely) s
      (List.replicate s.acks.length (.loseAck 0)) { s with acks := [] } := by
  obtain ⟨sender, receiver, packets, acks⟩ := s
  induction acks with
  | nil => exact .refl
  | cons ack acks inductionHypothesis =>
      have lost : Within (Step cfg stream) Timely ⟨sender, receiver, packets, ack :: acks⟩
          (.loseAck 0) ⟨sender, receiver, packets, acks⟩ := ⟨rfl, trivial⟩
      exact (Run.single lost).trans inductionHypothesis

/-- With both channels empty the account of what is in flight is balanced. -/
theorem progressing_of_dropped {events : List Event} {s : Transfer}
    (fits : packetCount file < 2 ^ 31)
    (reaches : Reaches cfg stream Timely file events s)
    (running : s.receiver.result = none) :
    Progressing cfg file stream { s with packets := [], acks := [] } := by
  have genuine := Genuine.reaches fits reaches
  have going : ¬ s.receiver.Concluded stream.closes := by
    simp [Receiver.Concluded, Receiver.Finished, running]
  refine ⟨genuine.of_subset (by simp) (by simp), fun noShort => ?_, fun waiting => ?_⟩
  · obtain ⟨base, n, inStep⟩ := inStep_of_reaches fits reaches noShort
    exact ⟨base, n, inStep.of_subset (by simp) (by simp)⟩
  · obtain ⟨base, settled⟩ := caughtUp_of_reaches fits reaches waiting
    exact .inl ⟨base, settled.window, waiting, settled.head, settled.confirmed, by simp,
      fun g _ => by simp [Transfer.copies], fun concluded => absurd concluded going,
      by simp [running]⟩

/-! ### A channel that loses nothing -/

/-- Every send of the reaction goes through. -/
def Event.Sends : Event → Prop
  | .packet _ send => send = .sent
  | .ack _ send => ∀ j, send j = .sent
  | .timeout send => ∀ j, send j = .sent
  | _ => True

/-- Nothing is lost or repeated, by `can_send_packet` or by the channel, and
`wait_ack` times out only when no datagram is in flight. -/
def Unfailing (closes : Bool) (s : Transfer) (event : Event) : Prop :=
  Lossy closes s event ∧ event.Sends

/-- The sender has neither given up nor is about to: where one more timeout would be
the last one, something is on its way. -/
structure Hopeful (cfg : Settings) (file : List UInt8) (stream : Stream)
    (value : ℕ × ℕ × ℕ × ℕ × ℕ) (s : Transfer) : Prop where
  measured : Measured cfg file stream value s
  patient : s.sender.maxErrors < MAX_ERRORS
  supplied : s.sender.phase = .waitAck →
    s.sender.maxErrors + 1 < MAX_ERRORS ∨ s.packets ≠ [] ∨ s.acks ≠ []
  closes : stream.closes = true

namespace Hopeful

variable {value : ℕ × ℕ × ℕ × ℕ × ℕ} {s : Transfer}

/-- The state after one more step of a lossy run. -/
theorem after (hopeful : Hopeful cfg file stream value s) {event : Event}
    {s' : Transfer} (taken : Step cfg stream s event s')
    (unfailing : Unfailing stream.closes s event)
    (patient : s'.sender.maxErrors < MAX_ERRORS)
    (supplied : s'.sender.phase = .waitAck →
      s'.sender.maxErrors + 1 < MAX_ERRORS ∨ s'.packets ≠ [] ∨ s'.acks ≠ []) :
    ∃ event after value', Within (Step cfg stream) (Unfailing stream.closes) s event after ∧
      Descends value' value ∧ Hopeful cfg file stream value' after := by
  obtain ⟨value', lower, measured⟩ := hopeful.measured.step ⟨taken, unfailing.1⟩
  exact ⟨event, s', value', ⟨taken, unfailing⟩, lower, measured, patient, supplied,
    hopeful.closes⟩

/-- What is in flight is accounted for, since the receiver's process goes on. -/
theorem accounted (hopeful : Hopeful cfg file stream value s)
    (waiting : s.sender.phase = .waitAck) :
    ∃ base, Accounted cfg file stream.closes base s :=
  (hopeful.measured.1.accounted waiting).resolve_right fun deserted => by
    have fails := deserted.1.1
    rw [hopeful.closes] at fails
    exact absurd fails (by decide)

/-- While the sender waits with nothing on its way back, the receiver listens. -/
theorem running (hopeful : Hopeful cfg file stream value s)
    (waiting : s.sender.phase = .waitAck) (silent : s.acks = []) :
    s.receiver.result = none := by
  have inv := hopeful.measured.1
  obtain ⟨base, account⟩ := hopeful.accounted waiting
  cases result : s.receiver.result with
  | none => rfl
  | some ret =>
      have finished : s.receiver.Finished := by
        rcases inv.genuine.receiver.codes ret result with rfl | rfl | rfl
        · exact .inl result
        · exact absurd result account.going
        · exact .inr result
      obtain ⟨ack, member, _⟩ := account.final ⟨hopeful.closes, finished⟩
      rw [silent] at member
      simp at member

/-- An acknowledgment is delivered. -/
theorem deliverAck (hopeful : Hopeful cfg file stream value s)
    (busy : ∀ ret, s.sender.phase ≠ .returned ret) {ack : AckPacket}
    {rest : List AckPacket} (shape : s.acks = ack :: rest) :
    ∃ event after value', Within (Step cfg stream) (Unfailing stream.closes) s event after ∧
      Descends value' value ∧ Hopeful cfg file stream value' after := by
  have genuine := hopeful.measured.1.genuine
  have member : ack ∈ s.acks := by simp [shape]
  obtain ⟨base, window⟩ := genuine.sender.window
  obtain ⟨sender, packets, reacts, _⟩ :=
    genuine.acknowledged member busy fun _ => .sent
  have taken : Step cfg stream s (.ack 0 fun _ => .sent)
      { s with sender := sender, packets := s.packets ++ packets, acks := rest } := by
    simp [Step, Transfer.step, shape, reacts]
  have positive : 0 + 1 < MAX_ERRORS := by decide
  apply hopeful.after taken ⟨trivial, fun _ => rfl⟩
  · rcases receiveAck_errors genuine window member reacts with
      ⟨_, none⟩ | ⟨_, _, same, _⟩
    · simp only [none]
      omega
    · simp only [same]
      exact hopeful.patient
  · intro waiting'
    rcases receiveAck_errors genuine window member reacts with
      ⟨_, none⟩ | ⟨_, gone, _⟩
    · apply Or.inl
      simp only [none]
      exact positive
    · exact absurd waiting' gone

/-- A packet is delivered and answered. -/
theorem deliverPacket (hopeful : Hopeful cfg file stream value s)
    (complete : Complete stream.fwrite) (waiting : s.sender.phase = .waitAck)
    (silent : s.acks = []) {packet : Packet} {rest : List Packet}
    (shape : s.packets = packet :: rest) :
    ∃ event after value', Within (Step cfg stream) (Unfailing stream.closes) s event after ∧
      Descends value' value ∧ Hopeful cfg file stream value' after := by
  have inv := hopeful.measured.1
  have running := hopeful.running waiting silent
  have member : packet ∈ s.packets := by simp [shape]
  obtain ⟨base, account⟩ := hopeful.accounted waiting
  obtain ⟨g, chunk⟩ := account.chunks packet member
  obtain ⟨_, _, inStep⟩ := inv.inStep (by simp [running])
  obtain ⟨receiver, acks, reacts, genuine'⟩ := inv.genuine.receive running member .sent
  have noShort : receiver.result ≠ some WRITE_BYTE_ERROR := by
    intro short
    obtain ⟨j, incomplete⟩ := genuine'.receiver.short short
    exact absurd (complete j) (Nat.not_le.mpr incomplete)
  obtain ⟨_, answer, _, _, _, _, answers⟩ :=
    inStep.receiveChunk inv.genuine running member chunk reacts noShort
  have taken : Step cfg stream s (.packet 0 .sent)
      { s with receiver := receiver, packets := rest, acks := s.acks ++ acks } := by
    simp [Step, Transfer.step, shape, running, reacts]
  apply hopeful.after taken ⟨trivial, rfl⟩ hopeful.patient
  intro _
  refine .inr (.inr ?_)
  simp [answers]

/-- With nothing in flight a timeout sends a packet again. -/
theorem expire (hopeful : Hopeful cfg file stream value s) (nonempty : file ≠ [])
    (waiting : s.sender.phase = .waitAck) (silent : s.acks = [])
    (quiet : s.packets = []) :
    ∃ event after value', Within (Step cfg stream) (Unfailing stream.closes) s event after ∧
      Descends value' value ∧ Hopeful cfg file stream value' after := by
  have inv := hopeful.measured.1
  have below : s.sender.maxErrors + 1 < MAX_ERRORS := by
    rcases hopeful.supplied waiting with below | some | some
    · exact below
    · exact absurd quiet some
    · exact absurd silent some
  obtain ⟨base, account⟩ := hopeful.accounted waiting
  obtain ⟨j, inside, unacked⟩ :=
    inv.unacked_slot nonempty waiting (hopeful.running waiting silent)
  rcases account.window.waitAckTimeout_cases (fun _ => .sent) with
    ⟨enough, _⟩ | ⟨_, runs⟩
  · omega
  have taken : Step cfg stream s (.timeout fun _ => .sent)
      { s with
        sender := s.sender.resend fun _ => .sent
        packets := s.packets ++ ((List.range s.sender.windowSize).filter fun j =>
          retransmits s.sender.lastAckConfirmedBytes (s.sender.window j) &&
            decide (SendResult.sent = .sent)).map s.sender.window } := by
    simp only [Step, Transfer.step, Transfer.expire, waiting, runs,
      Option.bind_eq_bind, Option.bind_some, Option.pure_def]
  apply hopeful.after taken ⟨fun _ => ⟨.inl quiet, silent⟩, fun _ => rfl⟩
  · exact below
  · intro _
    refine .inr (.inl (List.ne_nil_of_mem (a := s.sender.window j) ?_))
    refine List.mem_append_right _ (List.mem_map.mpr ⟨j, ?_, rfl⟩)
    rw [List.mem_filter, List.mem_range]
    exact ⟨inside, by simp [retransmits, unacked]⟩

/-- The drain loop ends. -/
theorem leave (hopeful : Hopeful cfg file stream value s) {ret : ℤ}
    (draining : s.sender.phase = .drain ret) :
    ∃ event after value', Within (Step cfg stream) (Unfailing stream.closes) s event after ∧
      Descends value' value ∧ Hopeful cfg file stream value' after := by
  have taken : Step cfg stream s (.timeout fun _ => .sent)
      { s with
        sender := (mainSenderReturn s.sender ret).1
        packets := s.packets ++ (mainSenderReturn s.sender ret).2 } := by
    simp [Step, Transfer.step, Transfer.expire, draining]
  have lossy : Lossy stream.closes s (.timeout fun _ => .sent) := by
    intro waiting
    simp [draining] at waiting
  apply hopeful.after taken ⟨lossy, fun _ => rfl⟩
  · simp only [mainSenderReturn]
    split_ifs <;> exact hopeful.patient
  · intro waiting
    simp only [mainSenderReturn] at waiting
    split_ifs at waiting

/-- Until the sender has returned something can be done. -/
theorem advances (hopeful : Hopeful cfg file stream value s) (nonempty : file ≠ [])
    (complete : Complete stream.fwrite) (busy : ¬ ∃ ret, s.sender.phase = .returned ret) :
    ∃ event after value', Within (Step cfg stream) (Unfailing stream.closes) s event after ∧
      Descends value' value ∧ Hopeful cfg file stream value' after := by
  cases phase : s.sender.phase with
  | returned ret => exact absurd ⟨ret, phase⟩ busy
  | drain ret => exact hopeful.leave phase
  | waitAck =>
      cases acks : s.acks with
      | cons ack rest =>
          exact hopeful.deliverAck (fun ret returned => busy ⟨ret, returned⟩) acks
      | nil =>
          cases packets : s.packets with
          | cons packet rest => exact hopeful.deliverPacket complete phase acks packets
          | nil => exact hopeful.expire nonempty phase acks packets

end Hopeful

/-- In such a run of the invariant acknowledgments are timely. -/
theorem Progressing.run_timely {s s' : Transfer} {events : List Event}
    (inv : Progressing cfg file stream s)
    (run : Run (Within (Step cfg stream) (Unfailing stream.closes)) s events s') :
    Run (Within (Step cfg stream) Timely) s events s' := by
  induction run with
  | refl => exact .refl
  | @tail middle last events event prior final inductionHypothesis =>
      have inv' := prior.invariant inv fun inv taken => inv.step ⟨taken.1, taken.2.1⟩
      exact inductionHypothesis.tail ⟨final.1, inv'.timely event⟩

/-- The events in which everything in flight is lost. -/
def Transfer.losses (s : Transfer) : List Event :=
  List.replicate s.packets.length (.losePacket 0) ++
    List.replicate s.acks.length (.loseAck 0)

/-- Whatever has happened so far, as long as no acknowledgment was taken for another
chunk's, a listening receiver and a sender with one timeout to spare can still bring
the transfer to its end on both sides, even if all that is in flight is lost: it is
enough that nothing is from then on. -/
theorem can_succeed {events : List Event} {s : Transfer} (nonempty : file ≠ [])
    (fits : packetCount file < 2 ^ 31) (complete : Complete stream.fwrite)
    (closes : stream.closes = true)
    (reaches : Reaches cfg stream Timely file events s)
    (running : s.receiver.result = none)
    (patient : s.sender.maxErrors + 1 < MAX_ERRORS) :
    ∃ rest last,
      Run (Within (Step cfg stream) (Unfailing stream.closes))
        { s with packets := [], acks := [] } rest last ∧
      Reaches cfg stream Timely file (events ++ (s.losses ++ rest)) last ∧
      last.sender.phase = .returned EXIT_SUCCESS ∧
      last.receiver.ret stream.closes = some EXIT_SUCCESS ∧
      last.receiver.destination stream = some file := by
  have inv := progressing_of_dropped fits reaches running
  obtain ⟨value, measured⟩ := inv.measured
  have hopeful : Hopeful cfg file stream value { s with packets := [], acks := [] } :=
    ⟨measured, (Nat.lt_succ_self _).trans patient, fun _ => .inl patient, closes⟩
  have returns : ∃ rest last value',
      Run (Within (Step cfg stream) (Unfailing stream.closes))
        { s with packets := [], acks := [] } rest last ∧
      (∃ ret, last.sender.phase = .returned ret) ∧ Hopeful cfg file stream value' last :=
    exists_goal descends_wellFounded hopeful
      fun hopeful busy => hopeful.advances nonempty complete busy
  obtain ⟨rest, last, _, run, ⟨ret, returned⟩, final⟩ := returns
  obtain ⟨success, receiver, delivered⟩ := final.measured.1.success returned final.patient
  obtain ⟨send, initial, started, sofar⟩ := reaches
  have onward : Run (Within (Step cfg stream) Timely) s (s.losses ++ rest) last :=
    (run_losePackets.trans run_loseAcks).trans (inv.run_timely run)
  exact ⟨rest, last, run, ⟨send, initial, started, sofar.trans onward⟩, success, receiver,
    delivered complete⟩

/-- The sender has moved on to the third packet, which is lost along with the second
and with a timeout that could send nothing. -/
theorem can_succeed_fourPackets :
    ∃ events s, Reaches narrow .roomy Timely fourPackets events s ∧
      ∃ rest last,
        Reaches narrow .roomy Timely fourPackets (events ++ (s.losses ++ rest)) last ∧
        last.receiver.destination .roomy = some fourPackets := by
  have computed : ((Transfer.start narrow fourPackets (fun _ => .sent)).bind
      fun initial => initial.steps narrow .roomy Timely
        [.packet 0 .sent, .ack 0 fun _ => .sent, .losePacket 0,
          .timeout fun _ => .dropped]).map
      (fun s => (s.receiver.result, s.sender.maxErrors)) = some (none, 1) := by
    decide +kernel
  obtain ⟨s, run, values⟩ := Option.map_eq_some_iff.mp computed
  obtain ⟨running, errors⟩ := Prod.mk.inj values
  have reaches := reaches_of_steps run
  have nonempty : fourPackets ≠ [] := List.append_ne_nil_of_right_ne_nil _ (by decide)
  obtain ⟨rest, last, _, reaches', _, _, delivered⟩ :=
    can_succeed nonempty fourPackets_fits (fun _ => le_rfl) rfl reaches running
      (by rw [errors]; decide)
  exact ⟨_, s, reaches, rest, last, reaches', delivered⟩

end Spqr
