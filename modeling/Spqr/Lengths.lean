/-
Module: Spqr.Lengths
Purpose: Over a channel that loses, repeats and reorders nothing, files of every
  length are delivered, except the empty one.
Trusted boundary: none
Main exports:
  Orderly, Delivers, Sufficient, Streaming, delivers_iff
-/
import Spqr.Completion
import Spqr.WriteError

namespace Spqr

open Labelled Transfer

variable {cfg : Settings} {file : List UInt8} {stream : Stream}

/-- Every datagram is sent and delivered in order, and timeouts fire only when
nothing is in flight. -/
def Orderly (s : Transfer) : Event → Prop
  | .packet k send => k = 0 ∧ send = .sent
  | .ack k send => k = 0 ∧ ∀ j, send j = .sent
  | .timeout send => (s.packets = [] ∧ s.acks = []) ∧ ∀ j, send j = .sent
  | .losePacket _ => False
  | .loseAck _ => False
  | .duplicatePacket _ => False
  | .duplicateAck _ => False

theorem Orderly.lossy {closes : Bool} {s : Transfer} {event : Event}
    (orderly : Orderly s event) : Lossy closes s event := by
  cases event with
  | packet k send => trivial
  | ack k send => trivial
  | timeout send => exact fun _ => ⟨.inl orderly.1.1, orderly.1.2⟩
  | _ => exact orderly

/-- Every run from the start is finite, and where it ends both sides have
succeeded and the destination is the file. -/
def Delivers (cfg : Settings) (stream : Stream) (file : List UInt8) : Prop :=
  ∀ initial, Transfer.start cfg file (fun _ => .sent) = some initial →
    (¬ ∃ (states : ℕ → Transfer) (events : ℕ → Event), states 0 = initial ∧
      ∀ n, Within (Step cfg stream) Orderly (states n) (events n)
        (states (n + 1))) ∧
    ∀ events s, Run (Within (Step cfg stream) Orderly) initial events s →
      Stuck (Within (Step cfg stream) Orderly) s →
      s.sender.phase = .returned EXIT_SUCCESS ∧
        s.receiver.ret stream.closes = some EXIT_SUCCESS ∧
        s.receiver.destination stream = some file

/-- The disk takes each chunk of the file in one piece. -/
def Sufficient (stream : Stream) (file : List UInt8) : Prop :=
  ∀ g < packetCount file, (chunk file g).length ≤ stream.fwrite g

/-! ### One copy of each chunk -/

/-- Each chunk that waits for its acknowledgment has one copy in flight. -/
def Exact (cfg : Settings) (file : List UInt8) (base : ℕ) (s : Transfer) : Prop :=
  ∀ g < packetCount file,
    s.copies file g = if s.sender.Awaits cfg base g then 1 else 0

/-- What every step of an orderly run keeps. -/
structure Streaming (cfg : Settings) (file : List UInt8) (stream : Stream)
    (s : Transfer) : Prop where
  progressing : Progressing cfg file stream s
  patient : s.sender.maxErrors = 0
  going : s.receiver.result ≠ some TRANSFER_ERROR
  /-- A short `fwrite` leaves less than the file. -/
  short : s.receiver.result = some WRITE_BYTE_ERROR →
    (∃ m < packetCount file, stream.fwrite m < (chunk file m).length) ∧
      s.receiver.file.length < file.length
  exactly : s.receiver.result ≠ some WRITE_BYTE_ERROR →
    ∀ base, Accounted cfg file stream.closes base s → Exact cfg file base s
  /-- A packet in flight is the first of its chunk. -/
  unreceived : s.receiver.result ≠ some WRITE_BYTE_ERROR →
    ∀ packet ∈ s.packets, ∀ g, IsChunk cfg file g packet →
      ¬ s.receiver.Has cfg file g
  left : s.sender.phase ≠ .waitAck → s.receiver.Finished ∧
    (s.receiver.result = some EXIT_SUCCESS → s.packets = [])

namespace Streaming

variable {s : Transfer}

theorem start (fits : packetCount file < 2 ^ 31)
    (started : Transfer.start cfg file (fun _ => .sent) = some s) :
    Streaming cfg file stream s := by
  have progressing : Progressing cfg file stream s := .start fits started
  obtain ⟨sender, packets, runs, begun⟩ :=
    mainSenderStart_spec cfg fits fun _ => .sent
  rw [Transfer.start, runs] at started
  obtain rfl := Option.some.inj started
  obtain ⟨chunks, _, carries, whole⟩ := begun.carried
  rw [whole fun _ => rfl] at carries
  refine ⟨progressing, begun.maxErrors, by simp [Receiver.initial],
    by simp [Receiver.initial], ?_, ?_, fun left => absurd begun.phase left⟩
  · intro _ base account g inside
    obtain rfl : 0 = base := begun.window.base_unique account.window
    simp only [Transfer.copies, List.countP_nil, Nat.add_zero,
      countP_carries carries inside]
    rw [List.nodup_range.count]
    congr 1
    rw [List.mem_range, eq_iff_iff]
    constructor
    · intro low
      exact ⟨Nat.zero_le _, by simpa using low, begun.unacked g low⟩
    · rintro ⟨_, high, _⟩
      simpa using high
  · intro _ packet _ g _
    simp [Receiver.Has, Receiver.initial, Packet.zero]

/-- While `fclose` succeeds, the sender's datagrams are accounted for. -/
theorem accounted (inv : Streaming cfg file stream s) (closes : stream.closes = true)
    (waiting : s.sender.phase = .waitAck) :
    ∃ base, Accounted cfg file stream.closes base s := by
  refine (inv.progressing.accounted waiting).resolve_right fun deserted => ?_
  have fails := deserted.1.1
  rw [closes] at fails
  cases fails

/-- A receiver that has succeeded has every chunk, so nothing is on its way. -/
theorem packets_nil (inv : Streaming cfg file stream s) (closes : stream.closes = true)
    (waiting : s.sender.phase = .waitAck)
    (success : s.receiver.result = some EXIT_SUCCESS) : s.packets = [] := by
  have noShort : s.receiver.result ≠ some WRITE_BYTE_ERROR := by
    simp [success, EXIT_SUCCESS, WRITE_BYTE_ERROR]
  obtain ⟨base, account⟩ := inv.accounted closes waiting
  obtain ⟨base', n, inStep⟩ := inv.progressing.inStep noShort
  obtain ⟨begun, done⟩ := inv.progressing.genuine.receiver.done success
  have count := inStep.order.order.count
  simp only [begun, Bool.false_eq_true, if_false, List.length_range] at count
  by_contra some
  obtain ⟨packet, member⟩ := List.exists_mem_of_ne_nil _ some
  obtain ⟨g, chunk⟩ := account.chunks packet member
  refine inv.unreceived noShort packet member g chunk (inStep.order.has_of_lt ?_)
  have := chunk.inside
  omega

/-- In `wait_ack` something is always in flight. -/
theorem busy (inv : Streaming cfg file stream s) (closes : stream.closes = true)
    (nonempty : file ≠ [])
    (waiting : s.sender.phase = .waitAck) :
    ¬ (s.packets = [] ∧ s.acks = []) := by
  rintro ⟨packets, acks⟩
  obtain ⟨base, account⟩ := inv.accounted closes waiting
  have listening : s.receiver.result = none := by
    cases result : s.receiver.result with
    | none => rfl
    | some ret =>
        have finished : s.receiver.Finished := by
          rcases inv.progressing.genuine.receiver.codes ret result with
            rfl | rfl | rfl
          · exact .inl result
          · exact absurd result inv.going
          · exact .inr result
        obtain ⟨ack, member, _⟩ := account.final ⟨closes, finished⟩
        simp [acks] at member
  obtain ⟨j, inside, unacked⟩ :=
    inv.progressing.unacked_slot nonempty waiting listening
  obtain ⟨g, low, high, residue, genuine⟩ := account.window.slotAt inside
  have copies := inv.exactly (by simp [listening]) base account g
    genuine.inside
  rw [if_pos ⟨low, high, residue ▸ unacked⟩] at copies
  simp [Transfer.copies, packets, acks] at copies

/-- Delivery of the next packet. -/
theorem packet (inv : Streaming cfg file stream s) (closes : stream.closes = true)
    (running : s.receiver.result = none) {packet : Packet}
    (found : s.packets[0]? = some packet) {receiver : Receiver}
    {acks : List AckPacket}
    (reacts : mainReceiver cfg stream.fwrite stream.closes .sent s.receiver packet =
      some (receiver, acks))
    (progressing : Progressing cfg file stream
      ⟨s.sender, receiver, s.packets.eraseIdx 0, s.acks ++ acks⟩) :
    Streaming cfg file stream
      ⟨s.sender, receiver, s.packets.eraseIdx 0, s.acks ++ acks⟩ := by
  have genuine := inv.progressing.genuine
  have member := List.mem_of_getElem? found
  have noShort : s.receiver.result ≠ some WRITE_BYTE_ERROR := by simp [running]
  have waiting : s.sender.phase = .waitAck := by
    by_contra left
    have finished := (inv.left left).1
    simp [Receiver.Finished, running] at finished
  obtain ⟨base, account⟩ := inv.accounted closes waiting
  obtain ⟨base', n, inStep⟩ := inv.progressing.inStep noShort
  obtain ⟨g, chunk⟩ := account.chunks packet member
  have account' := account.packet genuine running found reacts
  refine ⟨progressing, inv.patient, account'.going, ?_, ?_, ?_,
    fun left => absurd waiting left⟩
  · intro short
    exact inStep.receive_short genuine running member chunk reacts short
  · intro noShort' base'' account'' h inside
    obtain rfl := account.window.base_unique account''.window
    obtain ⟨_, answer, _, _, named, _, rfl⟩ :=
      inStep.receiveChunk genuine running member chunk reacts noShort'
    have answered : (SendResult.emit .sent answer ++
        (receiver.result.map fun ret =>
          finalAcks stream.closes ret receiver.sizeReceived).getD []).countP
            (AckPacket.copyOf file h) = if h = g then 1 else 0 := by
      have silent : ((receiver.result.map fun ret =>
          finalAcks stream.closes ret receiver.sizeReceived).getD []).countP
            (AckPacket.copyOf file h) = 0 := by
        cases receiver.result with
        | none => rfl
        | some ret => exact countP_finalAcks inside _ ret _
      rw [List.countP_append, silent, SendResult.emit_sent,
        List.countP_singleton]
      simp only [named.copyOf_iff inside, Nat.add_zero]
    have exchanged := copies_packet found chunk inside receiver
      (SendResult.emit .sent answer ++ (receiver.result.map fun ret =>
        finalAcks stream.closes ret receiver.sizeReceived).getD [])
    have before := inv.exactly noShort base account h inside
    rw [answered] at exchanged
    simp only at before ⊢
    omega
  · intro noShort' other old h chunk' has
    obtain ⟨_, _, _, _, _, known, _⟩ :=
      inStep.receiveChunk genuine running member chunk reacts noShort'
    rcases (known h).mp has with already | rfl
    · exact inv.unreceived noShort other (List.eraseIdx_subset old) h chunk' already
    · -- a second packet of the same chunk would be a second copy
      have removed := Channels.countP_eraseIdx found (Packet.copyOf file h)
      have second : 0 < (s.packets.eraseIdx 0).countP (Packet.copyOf file h) :=
        List.countP_pos_iff.mpr
          ⟨other, old, (chunk'.copyOf_iff chunk'.inside).mpr rfl⟩
      have single := account.copies h chunk.inside
      rw [if_pos ((chunk.copyOf_iff chunk.inside).mpr rfl)] at removed
      have bound : s.packets.countP (Packet.copyOf file h) ≤ s.copies file h :=
        Nat.le_add_right _ _
      split at single <;> omega

/-- Delivery of the next acknowledgment. -/
theorem ack (inv : Streaming cfg file stream s) (closes : stream.closes = true)
    {ack : AckPacket}
    (found : s.acks[0]? = some ack) {send : ℕ → SendResult}
    (all : ∀ j, send j = .sent) {sender : Sender} {packets : List Packet}
    (reacts : receiveAck cfg s.sender ack send = some (sender, packets))
    (progressing : Progressing cfg file stream
      ⟨sender, s.receiver, s.packets ++ packets, s.acks.eraseIdx 0⟩) :
    Streaming cfg file stream
      ⟨sender, s.receiver, s.packets ++ packets, s.acks.eraseIdx 0⟩ := by
  have genuine := inv.progressing.genuine
  have member := List.mem_of_getElem? found
  obtain ⟨_, window⟩ := genuine.sender.window
  rcases receiveAck_errors genuine window member reacts with
    ⟨waiting, zero⟩ | ⟨gone, gone', same, rfl⟩
  · obtain ⟨base, account⟩ := inv.accounted closes waiting
    rcases genuine.acks ack member with ⟨g, named⟩ | ⟨final, finished⟩
    · have awaits := account.awaits_of_ack member named
      obtain ⟨base', refilled, account'⟩ :=
        account.acknowledged found named reacts
      refine ⟨progressing, zero, inv.going, inv.short, ?_, ?_,
        fun left => absurd account'.waiting left⟩
      · intro noShort base'' account'' h inside
        obtain rfl := account'.window.base_unique account''.window
        have exchanged := copies_ack found named inside sender packets
        have moved := awaits_refilled (h := h) account.window named awaits refilled
        have sent := (countP_refilled inside refilled).2 all
        have before := inv.exactly noShort base account h inside
        simp only at before ⊢
        omega
      · intro noShort packet new h chunk has
        rcases List.mem_append.mp new with old | new
        · exact inv.unreceived noShort packet old h chunk has
        · obtain ⟨base'', n, inStep⟩ := inv.progressing.inStep noShort
          obtain rfl := account.window.base_unique inStep.window
          obtain ⟨chunks, sub, carries, _⟩ := refilled.carried
          obtain ⟨h', loaded, chunk'⟩ := Carries.of_mem carries new
          obtain rfl := chunk.unique chunk'
          have beyond := (List.mem_range'_1.mp (sub.subset loaded)).1
          exact absurd (inStep.order.has_lt has) (Nat.not_lt.mpr beyond)
    · -- the first of the last acknowledgments ends `wait_ack`
      have ended : sender.phase = .drain 0 ∧ packets = [] := by
        rw [receiveAck, waiting] at reacts
        simp only [waitAck_eq, if_pos (final.ends _), Option.some.injEq,
          Prod.mk.injEq] at reacts
        rw [← reacts.1, ← reacts.2]
        exact ⟨rfl, rfl⟩
      obtain ⟨phase, rfl⟩ := ended
      simp only [List.append_nil]
      have gone : sender.phase ≠ .waitAck := by simp [phase]
      refine ⟨by simpa using progressing, zero, inv.going, inv.short, ?_,
        inv.unreceived, fun _ => ⟨finished.2, inv.packets_nil closes waiting⟩⟩
      intro _ _ account'
      exact absurd account'.waiting gone
  · simp only [List.append_nil]
    refine ⟨by simpa using progressing, same.trans inv.patient, inv.going,
      inv.short, ?_, inv.unreceived, fun _ => inv.left gone⟩
    intro _ _ account'
    exact absurd account'.waiting gone'

/-- Every step of an orderly run. -/
theorem step {s' : Transfer} {event : Event} (closes : stream.closes = true)
    (nonempty : file ≠ []) (inv : Streaming cfg file stream s)
    (taken : Within (Step cfg stream) Orderly s event s') :
    Streaming cfg file stream s' := by
  have progressing := inv.progressing.step ⟨taken.1, taken.2.lossy⟩
  obtain ⟨taken, orderly⟩ := taken
  rcases step_cases taken with
    ⟨k, send, packet, receiver, acks, rfl, found, running, reacts, rfl⟩ |
    ⟨k, send, ack, sender, packets, rfl, found, reacts, rfl⟩ |
    ⟨send, sender, packets, rfl, reacts, rfl⟩ | ⟨k, rfl, rfl⟩ | ⟨k, rfl, rfl⟩ |
    ⟨k, packet, rfl, found, rfl⟩ | ⟨k, ack, rfl, found, rfl⟩
  · obtain ⟨rfl, rfl⟩ := orderly
    exact inv.packet closes running found reacts progressing
  · obtain ⟨rfl, all⟩ := orderly
    exact inv.ack closes found all reacts progressing
  · obtain ⟨quiet, _⟩ := orderly
    cases phase : s.sender.phase with
    | waitAck => exact absurd quiet (inv.busy closes nonempty phase)
    | returned ret => simp [expire, phase] at reacts
    | drain ret =>
        have gone : s.sender.phase ≠ .waitAck := by simp [phase]
        have nonneg := inv.progressing.genuine.sender.drained ret phase
        have noError : ret ≠ WRITE_BYTE_ERROR := by
          simp only [WRITE_BYTE_ERROR]
          omega
        have patience : ¬ MAX_ERRORS ≤ s.sender.maxErrors := by
          rw [inv.patient]
          decide
        rw [expire, phase] at reacts
        simp only [mainSenderReturn, if_neg noError, if_neg patience,
          Option.some.injEq, Prod.mk.injEq] at reacts
        obtain ⟨rfl, rfl⟩ := reacts
        simp only [List.append_nil] at progressing ⊢
        refine ⟨progressing, inv.patient, inv.going, inv.short, ?_,
          inv.unreceived, fun _ => inv.left gone⟩
        intro _ _ account'
        exact absurd account'.waiting (by simp)
  all_goals exact absurd orderly id

/-- Without a short `fwrite`, an orderly run stops when the sender has
returned. -/
theorem returned (inv : Streaming cfg file stream s) (closes : stream.closes = true)
    (nonempty : file ≠ [])
    (noShort : s.receiver.result ≠ some WRITE_BYTE_ERROR)
    (stuck : Stuck (Within (Step cfg stream) Orderly) s) :
    ∃ ret, s.sender.phase = .returned ret := by
  have genuine := inv.progressing.genuine
  by_contra active
  have running : ∀ ret, s.sender.phase ≠ .returned ret :=
    fun ret phase => active ⟨ret, phase⟩
  have noAck : s.acks = [] := by
    by_contra some
    obtain ⟨ack, rest, shape⟩ := List.exists_cons_of_ne_nil some
    obtain ⟨sender, packets, reacts, _⟩ := genuine.acknowledged
      (show ack ∈ s.acks by simp [shape]) running fun _ => .sent
    exact stuck (.ack 0 fun _ => .sent)
      { s with
        sender := sender
        packets := s.packets ++ packets
        acks := s.acks.eraseIdx 0 }
      ⟨by simp [Step, Transfer.step, shape, reacts], rfl, fun _ => rfl⟩
  by_cases waiting : s.sender.phase = .waitAck
  · obtain ⟨base, account⟩ := inv.accounted closes waiting
    have listening : s.receiver.result = none := by
      cases result : s.receiver.result with
      | none => rfl
      | some ret =>
          have finished : s.receiver.Finished := by
            rcases genuine.receiver.codes ret result with rfl | rfl | rfl
            · exact .inl result
            · exact absurd result inv.going
            · exact .inr result
          obtain ⟨ack, member, _⟩ := account.final ⟨closes, finished⟩
          simp [noAck] at member
    have some : s.packets ≠ [] :=
      fun packets => inv.busy closes nonempty waiting ⟨packets, noAck⟩
    obtain ⟨packet, rest, shape⟩ := List.exists_cons_of_ne_nil some
    obtain ⟨receiver, acks, reacts, _⟩ := genuine.receive listening
      (show packet ∈ s.packets by simp [shape]) .sent
    exact stuck (.packet 0 .sent)
      { s with
        receiver := receiver
        packets := s.packets.eraseIdx 0
        acks := s.acks ++ acks }
      ⟨by simp [Step, Transfer.step, shape, listening, reacts], rfl, rfl⟩
  · obtain ⟨finished, delivered⟩ := inv.left waiting
    have packets := delivered (finished.resolve_right noShort)
    obtain ⟨sender, new, reacts, _⟩ := genuine.expired running fun _ => .sent
    exact stuck (.timeout fun _ => .sent)
      { s with sender := sender, packets := s.packets ++ new }
      ⟨by simp [Step, Transfer.step, reacts], ⟨packets, noAck⟩, fun _ => rfl⟩

/-- A receiver that has succeeded has had every chunk taken whole. -/
theorem sufficient {allowed : Transfer → Event → Prop} {events : List Event}
    (inv : Streaming cfg file stream s)
    (reaches : Reaches cfg stream allowed file events s)
    (success : s.receiver.result = some EXIT_SUCCESS) :
    Sufficient stream file := by
  have noShort : s.receiver.result ≠ some WRITE_BYTE_ERROR := by
    simp [success, EXIT_SUCCESS, WRITE_BYTE_ERROR]
  obtain ⟨base, n, inStep⟩ := inv.progressing.inStep noShort
  obtain ⟨begun, done⟩ := inv.progressing.genuine.receiver.done success
  have count := inStep.order.order.count
  simp only [begun, Bool.false_eq_true, if_false, List.length_range] at count
  intro g inside
  have position : g < (List.range n).length := by
    rw [List.length_range]
    omega
  have position' : g < s.receiver.written.length := by
    rwa [← inStep.order.order.written.length_eq]
  have chunk := List.Forall₂.get inStep.order.order.written position position'
  simp only [List.get_eq_getElem, List.getElem_range] at chunk
  by_contra long
  refine noShort (result_of_shortWrite reaches
    ⟨g, s.receiver.written[g], List.getElem?_eq_getElem position', ?_⟩)
  rw [chunk.size]
  omega

end Streaming

theorem Streaming.of_run {initial s : Transfer} {events : List Event}
    (fits : packetCount file < 2 ^ 31) (closes : stream.closes = true)
    (nonempty : file ≠ [])
    (started : Transfer.start cfg file (fun _ => .sent) = some initial)
    (run : Run (Within (Step cfg stream) Orderly) initial events s) :
    Streaming cfg file stream s :=
  run.invariant (Streaming.start fits started)
    (fun inv taken => inv.step closes nonempty taken)

/-- Orderly runs can be continued to their end. -/
theorem orderly_run_ends (stream : Stream) {initial : Transfer}
    {send : ℕ → SendResult} (fits : packetCount file < 2 ^ 31)
    (started : Transfer.start cfg file send = some initial) :
    ∃ events s, Run (Within (Step cfg stream) Orderly) initial events s ∧
      Stuck (Within (Step cfg stream) Orderly) s := by
  have inv : Progressing cfg file stream initial := .start fits started
  obtain ⟨value, measured⟩ := inv.measured
  exact exists_stuck descends_wellFounded measured
    (fun measured taken => measured.step ⟨taken.1, taken.2.lossy⟩)

/-! ### The empty file -/

/-- `k` timeouts have fired over an empty window. -/
structure Idle (k : ℕ) (s : Transfer) : Prop where
  phase : s.sender.phase = .waitAck
  windowSize : s.sender.windowSize = 0
  maxErrors : s.sender.maxErrors = k
  packets : s.packets = []
  acks : s.acks = []
  receiver : s.receiver = Receiver.initial

theorem Idle.next {k : ℕ} {s : Transfer} (idle : Idle k s)
    (patient : k + 1 < MAX_ERRORS) :
    ∃ s', Within (Step cfg stream) Orderly s (.timeout fun _ => .sent) s' ∧
      Idle (k + 1) s' := by
  refine ⟨{ s with sender := s.sender.resend fun _ => .sent },
    ⟨?_, ⟨idle.packets, idle.acks⟩, fun _ => rfl⟩, idle.phase, idle.windowSize,
    ?_, idle.packets, idle.acks, idle.receiver⟩
  · have more : ¬ MAX_ERRORS ≤ s.sender.maxErrors + 1 := by
      rw [idle.maxErrors]
      omega
    simp [Step, Transfer.step, expire, idle.phase, waitAckTimeout, more,
      idle.windowSize, sendSlots, Sender.resend]
  · simp [Sender.resend, idle.maxErrors]

/-- The sender has nothing to send and waits, for as many timeouts as it bears. -/
theorem Idle.waits {s : Transfer} (idle : Idle 0 s) {k : ℕ} (patient : k < MAX_ERRORS) :
    ∃ events s', Run (Within (Step cfg stream) Orderly) s events s' ∧ Idle k s' := by
  induction k with
  | zero => exact ⟨[], s, .refl, idle⟩
  | succ k inductionHypothesis =>
      obtain ⟨events, s', run, idle'⟩ := inductionHypothesis (by omega)
      obtain ⟨last, taken, idle''⟩ := idle'.next patient
      exact ⟨_, last, run.tail taken, idle''⟩

/-- At the last of them it gives up, and its error packet makes the receiver delete the
file. -/
theorem Idle.fails {s : Transfer} (idle : Idle 24 s) (closes : stream.closes = true) :
    ∃ events s', Run (Within (Step cfg stream) Orderly) s events s' ∧
      Stuck (Within (Step cfg stream) Orderly) s' ∧
      s'.sender.phase = .returned TRANSFER_ERROR ∧
      s'.receiver.ret stream.closes = some TRANSFER_ERROR ∧
      s'.receiver.destination stream = none := by
  have gives : Within (Step cfg stream) Orderly s (.timeout fun _ => .sent)
      { s with sender := { s.sender with maxErrors := 25, phase := .drain 0 } } := by
    refine ⟨?_, ⟨idle.packets, idle.acks⟩, fun _ => rfl⟩
    simp [Step, Transfer.step, expire, idle.phase, waitAckTimeout,
      idle.maxErrors, MAX_ERRORS]
  have drains : Within (Step cfg stream) Orderly
      { s with sender := { s.sender with maxErrors := 25, phase := .drain 0 } }
      (.timeout fun _ => .sent)
      { s with
        sender := { s.sender with
          maxErrors := 25, phase := .returned TRANSFER_ERROR, rcvTimeout := 0 }
        packets := [errorPacket] } := by
    refine ⟨?_, ⟨idle.packets, idle.acks⟩, fun _ => rfl⟩
    simp [Step, Transfer.step, expire, mainSenderReturn, WRITE_BYTE_ERROR,
      MAX_ERRORS, idle.packets]
  have aborts : Within (Step cfg stream) Orderly
      { s with
        sender := { s.sender with
          maxErrors := 25, phase := .returned TRANSFER_ERROR, rcvTimeout := 0 }
        packets := [errorPacket] }
      (.packet 0 .sent)
      { s with
        sender := { s.sender with
          maxErrors := 25, phase := .returned TRANSFER_ERROR, rcvTimeout := 0 }
        receiver := { Receiver.initial with result := some TRANSFER_ERROR }
        packets := [] } := by
    refine ⟨?_, rfl, rfl⟩
    simp [Step, Transfer.step, idle.receiver, mainReceiver, receiveDataFromSender,
      errorPacket, finalAcks, Receiver.initial]
  refine ⟨_, _, ((Run.refl.tail gives).tail drains).tail aborts, ?_, rfl, ?_, ?_⟩
  · rintro event after ⟨taken, orderly⟩
    cases event with
    | packet k send => simp [Step, Transfer.step] at taken
    | ack k send => simp [Step, Transfer.step, receiveAck, idle.acks] at taken
    | timeout send => simp [Step, Transfer.step, expire] at taken
    | _ => exact orderly
  · simp [Receiver.ret, mainReceiverRet, closes]
  · simp [Receiver.destination, closes]

/-- A file without packets is never acknowledged: the sender gives up and the
receiver deletes the file it has opened. -/
theorem empty_fails (cfg : Settings) (closes : stream.closes = true) :
    ∃ initial events s,
      Transfer.start cfg [] (fun _ => .sent) = some initial ∧
      Run (Within (Step cfg stream) Orderly) initial events s ∧
      Stuck (Within (Step cfg stream) Orderly) s ∧
      s.sender.phase = .returned TRANSFER_ERROR ∧
      s.receiver.ret stream.closes = some TRANSFER_ERROR ∧
      s.receiver.destination stream = none := by
  have fits : packetCount [] < 2 ^ 31 := by decide
  obtain ⟨sender, packets, runs, begun⟩ :=
    mainSenderStart_spec cfg fits fun _ => .sent
  have size : sender.windowSize = 0 := by
    rw [begun.window.windowSize, packetCount_nil, Nat.zero_min]
  have nothing : packets = [] := by
    obtain ⟨chunks, sub, carries, _⟩ := begun.carried
    rw [size, List.range_zero] at sub
    obtain rfl := List.sublist_nil.mp sub
    exact List.forall₂_nil_left_iff.mp carries
  subst nothing
  have started : Transfer.start cfg [] (fun _ => .sent) =
      some ⟨sender, Receiver.initial, [], []⟩ := by
    rw [Transfer.start, runs]
    rfl
  have idle : Idle 0 ⟨sender, Receiver.initial, [], []⟩ :=
    ⟨begun.phase, size, begun.maxErrors, rfl, rfl, rfl⟩
  obtain ⟨waiting, s, waits, tired⟩ := idle.waits (by decide : 24 < MAX_ERRORS)
  obtain ⟨failing, last, fails, stuck, failed⟩ := tired.fails closes
  exact ⟨_, _, last, started, waits.trans fails, stuck, failed⟩

/-! ### Every length -/

/-- Exactly the files with at least one byte are delivered, given a disk that
takes them in every `fwrite` and in `fclose`. -/
theorem delivers_iff (fits : packetCount file < 2 ^ 31) :
    Delivers cfg stream file ↔
      file ≠ [] ∧ Sufficient stream file ∧ stream.closes = true := by
  constructor
  · intro delivers
    obtain ⟨sender, packets, runs, _⟩ :=
      mainSenderStart_spec cfg fits fun _ => .sent
    have started : Transfer.start cfg file (fun _ => .sent) =
        some ⟨sender, Receiver.initial, packets, []⟩ := by
      rw [Transfer.start, runs]
      rfl
    obtain ⟨events, s, run, stuck⟩ := orderly_run_ends stream fits started
    obtain ⟨_, ret, destination⟩ := (delivers _ started).2 events s run stuck
    -- a process that dies in `fclose` returns nothing
    have closes : stream.closes = true := by
      by_contra fails
      simp [Receiver.ret, fails] at ret
    have nonempty : file ≠ [] := by
      rintro rfl
      obtain ⟨initial, events, s, started, run, stuck, failed, _⟩ :=
        empty_fails cfg closes
      obtain ⟨success, _⟩ := (delivers initial started).2 events s run stuck
      rw [failed] at success
      exact absurd success (by decide)
    have inv : Streaming cfg file stream s := .of_run fits closes nonempty started run
    refine ⟨nonempty, inv.sufficient ⟨_, _, started, run⟩ ?_, closes⟩
    rw [Receiver.ret, closes, if_pos rfl] at ret
    obtain ⟨code, result, value⟩ := Option.map_eq_some_iff.mp ret
    rcases inv.progressing.genuine.receiver.codes code result with rfl | rfl | rfl
    · exact result
    · exact absurd value (by decide)
    · -- the file that a short `fwrite` leaves is not the whole file
      obtain ⟨_, shorter⟩ := inv.short result
      have kept : s.receiver.file.take stream.kept = file := by
        simpa [Receiver.destination, Receiver.stored, result, WRITE_BYTE_ERROR,
          TRANSFER_ERROR] using destination
      have bound := List.length_take_le' stream.kept s.receiver.file
      rw [kept] at bound
      omega
  · rintro ⟨nonempty, sufficient, closes⟩ initial started
    have start : Progressing cfg file stream initial := .start fits started
    obtain ⟨value, measured⟩ := start.measured
    refine ⟨no_infinite_run descends_wellFounded measured
      (fun measured taken => measured.step ⟨taken.1, taken.2.lossy⟩), ?_⟩
    intro events s run stuck
    have inv : Streaming cfg file stream s := .of_run fits closes nonempty started run
    have noShort : s.receiver.result ≠ some WRITE_BYTE_ERROR := by
      intro short
      obtain ⟨⟨m, inside, incomplete⟩, _⟩ := inv.short short
      exact absurd (sufficient m inside) (Nat.not_le.mpr incomplete)
    obtain ⟨ret, returned⟩ := inv.returned closes nonempty noShort stuck
    have patient : s.sender.maxErrors < MAX_ERRORS := by
      rw [inv.patient]
      decide
    obtain ⟨success, ret, _⟩ := inv.progressing.success returned patient
    obtain ⟨_, finished⟩ := inv.progressing.genuine.ended (by simp [returned]) patient
    exact ⟨success, ret, inv.progressing.genuine.receiver.destination_eq closes
      (finished.resolve_right noShort)⟩

/-- Four packets through a window of two slots, each of which is used again. -/
theorem delivers_fourPackets : Delivers narrow .roomy fourPackets := by
  refine (delivers_iff fourPackets_fits).mpr
    ⟨List.append_ne_nil_of_right_ne_nil _ (by decide), fun g _ => ?_, rfl⟩
  rw [chunk_length]
  exact Nat.min_le_left _ _

/-- The empty file, with the committed window. -/
theorem empty_file_fails :
    ∃ initial events s,
      Transfer.start settings [] (fun _ => .sent) = some initial ∧
      Run (Within (Step settings .roomy) Orderly) initial events s ∧
      Stuck (Within (Step settings .roomy) Orderly) s ∧
      s.sender.phase = .returned TRANSFER_ERROR ∧
      s.receiver.ret true = some TRANSFER_ERROR ∧
      s.receiver.destination .roomy = none :=
  empty_fails settings rfl

end Spqr
