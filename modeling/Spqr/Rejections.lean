/-
Module: Spqr.Rejections
Purpose: `receive_data_from_sender` with packets inserted whose `seq_num` is past
  the window, beside the same call without them.
Trusted boundary: none
Main exports:
  Delivery, ReceiverOutcome, StraysHarmless, received_active,
  rejected_no_effect_iff
-/
import Spqr.ReceiverWindow

namespace Spqr

variable {cfg : Settings} {fwrite : ℕ → ℕ}

/-! ### Packets that are inserted -/

/-- A packet of the sequence, or one that is inserted and turned away. -/
inductive Delivery (cfg : Settings) where
  | own (reception : Reception)
  | stray (packet : Packet) (past : (cfg.WINDOW_SIZE : ℤ) ≤ packet.seqNum)

def Delivery.reception : Delivery cfg → Reception
  | .own reception => reception
  | .stray packet _ => ⟨packet, .sent⟩

def Delivery.own? : Delivery cfg → Option Reception
  | .own reception => some reception
  | .stray _ _ => none

/-- What is compared: the bytes written, `size_received`, the window, the value
returned, if one is, and the acknowledgments of packets. -/
structure ReceiverOutcome where
  file : List UInt8
  sizeReceived : ℤ
  window : ℕ → Packet
  result : Option ℤ
  acks : List AckPacket

def Receiver.outcome (r : Receiver) (acks : List AckPacket) : ReceiverOutcome :=
  ⟨r.file, r.sizeReceived, r.window, r.result,
    acks.filter fun ack => ack.seqNum ≠ SEQ_NUM_ERROR⟩

/-- The outcome of a sequence; there is none if a reaction is undefined. -/
def received (cfg : Settings) (fwrite : ℕ → ℕ) (r : Receiver) (ds : List Reception) :
    Option ReceiverOutcome :=
  (receiveSequence cfg fwrite r ds).map fun (last, acks) => last.outcome acks

/-- An outcome with the acknowledgments that came before it. -/
def ReceiverOutcome.after (outcome : ReceiverOutcome) (acks : List AckPacket) :
    ReceiverOutcome :=
  { outcome with
    acks := acks.filter (fun ack => ack.seqNum ≠ SEQ_NUM_ERROR) ++ outcome.acks }

theorem received_nil (r : Receiver) : received cfg fwrite r [] = some (r.outcome []) :=
  rfl

theorem received_returned {r : Receiver} (returned : r.result.isSome = true)
    (ds : List Reception) : received cfg fwrite r ds = some (r.outcome []) := by
  cases ds with
  | nil => rfl
  | cons d ds => simp [received, receiveSequence, returned]

theorem received_cons {r : Receiver} (running : r.result = none) (d : Reception)
    (ds : List Reception) :
    received cfg fwrite r (d :: ds) =
      (receiveDataFromSender cfg fwrite d.send r d.packet).bind fun (after, acks) =>
        (received cfg fwrite after ds).map fun outcome => outcome.after acks := by
  simp only [received, receiveSequence, running, Option.isSome_none,
    Bool.false_eq_true, if_false]
  cases receiveDataFromSender cfg fwrite d.send r d.packet with
  | none => rfl
  | some reaction =>
      simp only [Option.map_map, Option.bind_some]
      refine congrArg (fun f => Option.map f _) (funext fun last => ?_)
      simp [Receiver.outcome, ReceiverOutcome.after]

/-! ### What `new_packet` held -/

def Receiver.holding (r : Receiver) (stale : Packet) : Receiver :=
  { r with newPacket := stale }

@[simp] theorem Receiver.window_holding (r : Receiver) (stale : Packet) :
    (r.holding stale).window = r.window := rfl

@[simp] theorem Receiver.i_holding (r : Receiver) (stale : Packet) :
    (r.holding stale).i = r.i := rfl

@[simp] theorem Receiver.written_holding (r : Receiver) (stale : Packet) :
    (r.holding stale).written = r.written := rfl

@[simp] theorem Receiver.result_holding (r : Receiver) (stale : Packet) :
    (r.holding stale).result = r.result := rfl

theorem Receiver.noteFirst_holding (r : Receiver) (stale packet : Packet) :
    (r.holding stale).noteFirst packet = (r.noteFirst packet).holding stale := by
  by_cases first : r.isFirst = true <;> simp [noteFirst, holding, first]

theorem Receiver.duplicate_holding (r : Receiver) (stale packet : Packet) :
    (r.holding stale).duplicate packet ↔ r.duplicate packet := Iff.rfl

theorem Receiver.loopCondition_holding (r : Receiver) (stale : Packet) :
    ∃ stale', (r.holding stale).loopCondition = r.loopCondition.holding stale' := by
  by_cases more : 0 < r.noPacketsToReceive
  · exact ⟨Packet.zero, by simp [loopCondition, holding, more]⟩
  · exact ⟨stale, by simp [loopCondition, holding, more]⟩

theorem processAvailable_holding (stale : Packet) (n : ℕ) (r : Receiver) :
    processAvailable cfg fwrite n (r.holding stale) =
      (processAvailable cfg fwrite n r).map fun after => after.holding stale := by
  induction n generalizing r with
  | zero => rfl
  | succ n ih =>
      have consume : (r.holding stale).consume cfg = (r.consume cfg).holding stale := rfl
      have short (numWrite : ℕ) : (r.holding stale).shortWrite numWrite =
          (r.shortWrite numWrite).holding stale := rfl
      simp only [processAvailable, Receiver.window_holding, Receiver.i_holding,
        Receiver.written_holding, consume, short, ih]
      split_ifs <;> rfl

theorem Receiver.acknowledge_holding (r : Receiver) (stale packet : Packet)
    (send : SendResult) :
    ∃ stale', (r.holding stale).acknowledge packet send =
      ((r.acknowledge packet send).1.holding stale', (r.acknowledge packet send).2) := by
  by_cases dropped : send = .dropped
  · obtain ⟨stale', loops⟩ := r.loopCondition_holding stale
    refine ⟨stale', Prod.ext ?_ rfl⟩
    simpa only [acknowledge, if_pos dropped] using loops
  · obtain ⟨stale', loops⟩ := Receiver.loopCondition_holding
      { r with
        window := Function.update r.window packet.seqNum.toNat
          { r.window packet.seqNum.toNat with ack := true } } stale
    refine ⟨stale', Prod.ext ?_ rfl⟩
    simp only [acknowledge, if_neg dropped]
    exact loops

/-- It makes no difference to a packet that is read whole. -/
theorem receive_holding (send : SendResult) (r : Receiver) (stale packet : Packet) :
    ∃ stale', receiveDataFromSender cfg fwrite send (r.holding stale) packet =
      (receiveDataFromSender cfg fwrite send r packet).map fun reaction =>
        (reaction.1.holding stale', reaction.2) := by
  simp only [receiveDataFromSender, r.noteFirst_holding, Receiver.duplicate_holding]
  split_ifs with error past below duplicate
  · exact ⟨stale, rfl⟩
  · obtain ⟨stale', loops⟩ := r.loopCondition_holding stale
    exact ⟨stale', congrArg (fun after => some (after, [errorAck])) loops⟩
  · exact ⟨stale, rfl⟩
  · exact ⟨packet, rfl⟩
  · have runs := @processAvailable_holding cfg fwrite stale cfg.WINDOW_SIZE
      ((r.noteFirst packet).store packet)
    have stores : ((r.noteFirst packet).holding stale).store packet =
        ((r.noteFirst packet).store packet).holding stale := rfl
    rw [stores, runs]
    cases processAvailable cfg fwrite cfg.WINDOW_SIZE
        ((r.noteFirst packet).store packet) with
    | none => exact ⟨stale, rfl⟩
    | some processed =>
        simp only [Option.map_some]
        cases ended : processed.result with
        | some ret => exact ⟨stale, by simp [ended]⟩
        | none =>
            obtain ⟨stale', acks⟩ := processed.acknowledge_holding stale packet send
            exact ⟨stale', by simp [acks, ended]⟩

theorem received_holding (r : Receiver) (stale : Packet) (ds : List Reception) :
    received cfg fwrite (r.holding stale) ds = received cfg fwrite r ds := by
  induction ds generalizing r stale with
  | nil => rfl
  | cons d ds ih =>
      cases ended : r.result with
      | some ret =>
          have returned : r.result.isSome = true := by rw [ended]; rfl
          have returned' : (r.holding stale).result.isSome = true := returned
          rw [received_returned returned, received_returned returned']
          rfl
      | none =>
          have ended' : (r.holding stale).result = none := ended
          obtain ⟨stale', reacts⟩ : ∃ stale',
              receiveDataFromSender cfg fwrite d.send (r.holding stale) d.packet =
                (receiveDataFromSender cfg fwrite d.send r d.packet).map fun reaction =>
                  (reaction.1.holding stale', reaction.2) :=
            receive_holding d.send r stale d.packet
          rw [received_cons ended, received_cons ended', reacts]
          cases receiveDataFromSender cfg fwrite d.send r d.packet with
          | none => rfl
          | some reaction => simp only [Option.map_some, Option.bind_some, ih]

/-! ### While packets are missing -/

/-- The first packet has come, and unless the call has returned packets are
missing. -/
structure Receiver.Active (r : Receiver) : Prop where
  first : r.isFirst = false
  missing : r.result = none → 0 < r.noPacketsToReceive

namespace Receiver.Active

variable {r r' : Receiver} {packet : Packet} {send : SendResult} {acks : List AckPacket}

theorem loopCondition (first : r.isFirst = false) : r.loopCondition.Active := by
  unfold Receiver.loopCondition
  split_ifs with more
  · exact ⟨first, fun _ => more⟩
  · exact ⟨first, by simp⟩

/-- A packet that is stored leaves no other choice, and a duplicate keeps what it
finds. -/
theorem of_slot (past : packet.seqNum < cfg.WINDOW_SIZE)
    (kept : (r.noteFirst packet).duplicate packet →
      0 < (r.noteFirst packet).noPacketsToReceive)
    (reacts : receiveDataFromSender cfg fwrite send r packet = some (r', acks)) :
    packet.seqNum = SEQ_NUM_ERROR ∨ r'.Active := by
  obtain ⟨_, _, _, _, _, first⟩ := r.noteFirst_fields packet
  rcases reaction_cases reacts with ⟨error, _⟩ | ⟨rejected, _⟩ |
    ⟨_, _, duplicate, rfl, _⟩ | ⟨_, _, _, processed, runs, rest⟩
  · exact .inl error
  · omega
  · exact .inr ⟨first, fun _ => kept duplicate⟩
  · apply Or.inr
    have stored : ((r.noteFirst packet).store packet).isFirst = false := first
    have noted : processed.isFirst = false :=
      @processAvailable_invariant cfg fwrite (fun r => r.isFirst = false)
        (fun first _ _ => first) (fun _ first _ => first) _ _ _ stored runs
    rcases rest with ⟨ended, rfl, _⟩ | ⟨_, acked⟩
    · refine ⟨noted, fun running => ?_⟩
      simp [running] at ended
    · obtain ⟨rfl, _⟩ := Prod.mk.inj acked
      apply loopCondition
      split_ifs
      · exact noted
      · exact noted

theorem receive (active : r.Active) (running : r.result = none)
    (reacts : receiveDataFromSender cfg fwrite send r packet = some (r', acks)) :
    r'.Active := by
  by_cases past : (cfg.WINDOW_SIZE : ℤ) ≤ packet.seqNum
  · rw [receiveDataFromSender, if_neg (by simp only [SEQ_NUM_ERROR]; omega),
      if_pos past] at reacts
    obtain ⟨rfl, _⟩ := Prod.mk.inj (Option.some.inj reacts)
    exact loopCondition active.first
  · have noted : r.noteFirst packet = r := by
      rw [noteFirst, active.first, if_neg Bool.false_ne_true]
    have kept : (r.noteFirst packet).duplicate packet →
        0 < (r.noteFirst packet).noPacketsToReceive := by
      rw [noted]
      exact fun _ => active.missing running
    rcases of_slot (by omega) kept reacts with error | after
    · rw [receiveDataFromSender, if_pos error] at reacts
      obtain ⟨rfl, _⟩ := Prod.mk.inj (Option.some.inj reacts)
      exact ⟨active.first, by simp⟩
    · exact after

end Receiver.Active

/-- A packet that is turned away. -/
theorem received_stray {r : Receiver} (running : r.result = none) {d : Reception}
    (past : (cfg.WINDOW_SIZE : ℤ) ≤ d.packet.seqNum) (ds : List Reception) :
    received cfg fwrite r (d :: ds) = received cfg fwrite r.loopCondition ds := by
  have reacts : receiveDataFromSender cfg fwrite d.send r d.packet =
      some (r.loopCondition, [errorAck]) := by
    rw [receiveDataFromSender, if_neg (by simp only [SEQ_NUM_ERROR]; omega), if_pos past]
  rw [received_cons running, reacts]
  simp [ReceiverOutcome.after, errorAck]

theorem received_loopCondition {r : Receiver} (more : 0 < r.noPacketsToReceive)
    (ds : List Reception) :
    received cfg fwrite r.loopCondition ds = received cfg fwrite r ds := by
  rw [Receiver.loopCondition, if_pos more]
  exact received_holding r Packet.zero ds

/-- While packets are missing, what is turned away has no effect. -/
theorem received_active {r : Receiver} (active : r.Active) (ds : List (Delivery cfg)) :
    received cfg fwrite r (ds.map Delivery.reception) =
      received cfg fwrite r (ds.filterMap Delivery.own?) := by
  induction ds generalizing r with
  | nil => rfl
  | cons d ds ih =>
      cases ended : r.result with
      | some ret =>
          have returned : r.result.isSome = true := by rw [ended]; rfl
          rw [received_returned returned, received_returned returned]
      | none =>
          cases d with
          | stray packet past =>
              have more := active.missing ended
              exact (received_stray ended past _).trans
                ((received_loopCondition more _).trans (ih active))
          | own d =>
              show received cfg fwrite r (d :: ds.map Delivery.reception) =
                received cfg fwrite r (d :: ds.filterMap Delivery.own?)
              rw [received_cons ended, received_cons ended]
              cases reacts : receiveDataFromSender cfg fwrite d.send r d.packet with
              | none => rfl
              | some reaction =>
                  have after := active.receive ended reacts
                  simp only [Option.bind_some, ih after]

/-! ### Once a packet has been stored -/

/-- A packet has been stored: some slot tells of it, even when it has been
written. -/
structure Receiver.Touched (r : Receiver) : Prop where
  size : 0 ≤ r.sizeReceived
  waiting : ∀ j, (r.window j).received = true → 0 < (r.window j).noBytesToSend
  touched : ∃ j, 0 < (r.window j).noBytesToSend

namespace Receiver.Touched

variable {r : Receiver} {packet : Packet}

theorem consume (touched : r.Touched) (received : (r.window r.i).received = true) :
    (r.consume cfg).Touched := by
  obtain ⟨_, waiting, j, some⟩ := touched
  have head := waiting r.i received
  refine ⟨head.le, fun j' received' => ?_, j, ?_⟩
  · by_cases same : j' = r.i
    · simp [Receiver.consume, same] at received'
    · simp only [Receiver.consume, Function.update_of_ne same] at received' ⊢
      exact waiting j' received'
  · by_cases same : j = r.i
    · simpa [Receiver.consume, same] using head
    · simpa [Receiver.consume, Function.update_of_ne same] using some

theorem shortWrite (touched : r.Touched) (numWrite : ℕ)
    (received : (r.window r.i).received = true) : (r.shortWrite numWrite).Touched :=
  ⟨(touched.waiting r.i received).le, touched.waiting, touched.touched⟩

theorem store (size : 0 ≤ r.sizeReceived)
    (waiting : ∀ j, (r.window j).received = true → 0 < (r.window j).noBytesToSend)
    (fresh : ¬ r.duplicate packet) : (r.store packet).Touched := by
  have ahead : 0 < packet.noBytesToSend := by
    have later : ¬ packet.noBytesToSend ≤ r.sizeReceived :=
      fun before => fresh (.inr (.inr before))
    omega
  refine ⟨size, fun j received => ?_, packet.seqNum.toNat, ?_⟩
  · by_cases same : j = packet.seqNum.toNat
    · simpa [Receiver.store, same] using ahead
    · simp only [Receiver.store, Function.update_of_ne same] at received ⊢
      exact waiting j received
  · simpa [Receiver.store] using ahead

theorem setAck (touched : r.Touched) (j : ℕ) :
    Receiver.Touched { r with
      window := Function.update r.window j { r.window j with ack := true } } := by
  have slot (k : ℕ) :
      (Function.update r.window j { r.window j with ack := true } k).received =
          (r.window k).received ∧
        (Function.update r.window j { r.window j with ack := true } k).noBytesToSend =
          (r.window k).noBytesToSend := by
    by_cases same : k = j
    · subst same
      simp
    · simp [Function.update_of_ne same]
  obtain ⟨size, waiting, k, some⟩ := touched
  refine ⟨size, fun k received => ?_, k, ?_⟩
  · rw [(slot k).2]
    exact waiting k ((slot k).1.symm.trans received)
  · rw [(slot k).2]
    exact some

theorem loopCondition (touched : r.Touched) : r.loopCondition.Touched := by
  unfold Receiver.loopCondition
  split
  · exact ⟨touched.size, touched.waiting, touched.touched⟩
  · exact ⟨touched.size, touched.waiting, touched.touched⟩

end Receiver.Touched

/-- Either a packet has been stored, or the call has not returned with success and a
rejected packet does not make it do so. -/
structure Receiver.Unmoved (r : Receiver) : Prop where
  size : 0 ≤ r.sizeReceived
  waiting : ∀ j, (r.window j).received = true → 0 < (r.window j).noBytesToSend
  active : r.Active
  touched : r.result = some EXIT_SUCCESS → ∃ j, 0 < (r.window j).noBytesToSend

namespace Receiver.Unmoved

variable {r r' : Receiver} {packet : Packet} {send : SendResult} {acks : List AckPacket}

/-- A packet that is stored. -/
theorem of_stored (size : 0 ≤ r.sizeReceived)
    (waiting : ∀ j, (r.window j).received = true → 0 < (r.window j).noBytesToSend)
    (fresh : ¬ (r.noteFirst packet).duplicate packet) {processed : Receiver}
    (runs : processAvailable cfg fwrite cfg.WINDOW_SIZE
      ((r.noteFirst packet).store packet) = some processed)
    (rest : (processed.result.isSome = true ∧ r' = processed ∧ acks = []) ∨
      (processed.result = none ∧ (r', acks) = processed.acknowledge packet send)) :
    r'.Touched := by
  obtain ⟨window, _, _, size_eq, _, _⟩ := r.noteFirst_fields packet
  have stored : ((r.noteFirst packet).store packet).Touched :=
    .store (by rw [size_eq]; exact size) (by rw [window]; exact waiting) fresh
  have touched : processed.Touched :=
    @processAvailable_invariant cfg fwrite Receiver.Touched
      (fun touched received _ => touched.consume received)
      (fun n touched received => touched.shortWrite n received) _ _ _ stored runs
  rcases rest with ⟨_, rfl, _⟩ | ⟨_, acked⟩
  · exact touched
  · obtain ⟨rfl, _⟩ := Prod.mk.inj acked
    apply Touched.loopCondition
    split_ifs
    · exact touched
    · exact touched.setAck _

theorem receive (unmoved : r.Unmoved) (running : r.result = none)
    (reacts : receiveDataFromSender cfg fwrite send r packet = some (r', acks)) :
    r'.Unmoved := by
  have active := unmoved.active.receive running reacts
  have noted : r.noteFirst packet = r := by
    rw [noteFirst, unmoved.active.first, if_neg Bool.false_ne_true]
  rcases reaction_cases reacts with ⟨_, rfl, _⟩ | ⟨_, rfl, _⟩ |
    ⟨_, _, _, rfl, _⟩ | ⟨_, _, fresh, processed, runs, rest⟩
  · refine ⟨unmoved.size, unmoved.waiting, active, fun same => ?_⟩
    exact absurd (Option.some.inj same) (by decide)
  · have more := unmoved.active.missing running
    rw [loopCondition, if_pos more] at active ⊢
    refine ⟨unmoved.size, unmoved.waiting, active, fun same => ?_⟩
    simp [running] at same
  · rw [noted] at active ⊢
    refine ⟨unmoved.size, unmoved.waiting, active, fun same => ?_⟩
    simp [running] at same
  · have touched := of_stored unmoved.size unmoved.waiting fresh runs rest
    exact ⟨touched.size, touched.waiting, active, fun _ => touched.touched⟩

end Receiver.Unmoved

/-- So the call does not return with success and the window that it began with. -/
theorem received_unmoved {r : Receiver} (unmoved : r.Unmoved) {ds : List Reception}
    {outcome : ReceiverOutcome} (outcomes : received cfg fwrite r ds = some outcome)
    (success : outcome.result = some EXIT_SUCCESS) :
    ∃ j, 0 < (outcome.window j).noBytesToSend := by
  induction ds generalizing r outcome with
  | nil =>
      obtain rfl := Option.some.inj outcomes
      exact unmoved.touched success
  | cons d ds ih =>
      cases ended : r.result with
      | some ret =>
          rw [received_returned (by rw [ended]; rfl)] at outcomes
          obtain rfl := Option.some.inj outcomes
          exact unmoved.touched success
      | none =>
          rw [received_cons ended] at outcomes
          obtain ⟨reaction, reacts, rest⟩ := Option.bind_eq_some_iff.mp outcomes
          obtain ⟨later, outcomes', rfl⟩ := Option.map_eq_some_iff.mp rest
          have found : ∃ j, 0 < (later.window j).noBytesToSend :=
            ih (unmoved.receive ended reacts) outcomes' success
          exact found

/-! ### Before a packet has been stored -/

/-- `no_packets_to_receive` once this packet has come; `count` is what an earlier
one announced, if there was one. -/
def announced (count : Option ℤ) (packet : Packet) : ℤ :=
  count.getD packet.noPacketsToSend

/-- Where no packet is missing: a rejected packet ends the loop, and only duplicates
that are not acknowledged come before it. -/
def EndsRejected (cfg : Settings) : Option ℤ → List Reception → Prop
  | _, [] => False
  | count, d :: ds =>
      (cfg.WINDOW_SIZE : ℤ) ≤ d.packet.seqNum ∨
        0 ≤ d.packet.seqNum ∧ announced count d.packet ≤ 0 ∧
          d.packet.noBytesToSend ≤ 0 ∧ d.send ≠ .sent ∧
            EndsRejected cfg (some (announced count d.packet)) ds

/-- A packet that is inserted while no packet is missing finds a sequence that goes
on to end the loop with a rejected packet of its own. Packets are missing from the
first packet on, if it announces any. -/
def StraysHarmless (cfg : Settings) : Option ℤ → List (Delivery cfg) → Prop
  | _, [] => True
  | count, .stray _ _ :: ds => EndsRejected cfg count (ds.filterMap Delivery.own?)
  | count, .own d :: ds =>
      0 ≤ d.packet.seqNum → d.packet.seqNum < cfg.WINDOW_SIZE →
        announced count d.packet ≤ 0 → d.packet.noBytesToSend ≤ 0 →
          StraysHarmless cfg (some (announced count d.packet)) ds

/-- The receiver before a packet has been stored. -/
def Receiver.pending (count : Option ℤ) : Receiver :=
  { Receiver.initial with
    isFirst := count.isNone
    noPacketsToReceive := count.getD 0 }

section Pending

variable {count : Option ℤ} {d : Reception} {r' : Receiver} {acks : List AckPacket}

theorem noteFirst_pending (count : Option ℤ) (packet : Packet) :
    (Receiver.pending count).noteFirst packet =
      .pending (some (announced count packet)) := by
  cases count <;> rfl

theorem duplicate_pending (count : Option ℤ) (packet : Packet) :
    (Receiver.pending count).duplicate packet ↔ packet.noBytesToSend ≤ 0 := by
  simp [Receiver.duplicate, Receiver.pending, Receiver.initial, Packet.zero]

/-- A duplicate that announces nothing, or finds nothing missing. -/
theorem received_pending_duplicate (above : 0 ≤ d.packet.seqNum)
    (past : d.packet.seqNum < cfg.WINDOW_SIZE) (empty : d.packet.noBytesToSend ≤ 0)
    (ds : List Reception) :
    received cfg fwrite (.pending count) (d :: ds) =
      (received cfg fwrite (.pending (some (announced count d.packet))) ds).map
        fun outcome => outcome.after
          (d.send.emit ((Receiver.pending count).ackOf d.packet)) := by
  have running : (Receiver.pending count).result = none := rfl
  have reacts : receiveDataFromSender cfg fwrite d.send (.pending count) d.packet =
      some ((Receiver.pending (some (announced count d.packet))).holding d.packet,
        d.send.emit ((Receiver.pending count).ackOf d.packet)) := by
    rw [receiveDataFromSender, if_neg (by simp only [SEQ_NUM_ERROR]; omega),
      if_neg (by omega), if_neg (by omega)]
    simp only [noteFirst_pending, duplicate_pending, if_pos empty]
    rfl
  rw [received_cons running, reacts, Option.bind_some]
  simp only [received_holding]

/-- What the call returns with when a rejected packet ends it. -/
def ReceiverOutcome.rejected : ReceiverOutcome :=
  Receiver.outcome { Receiver.initial with result := some EXIT_SUCCESS } []

theorem received_pending_stray (noneMissing : count.getD 0 ≤ 0)
    (past : (cfg.WINDOW_SIZE : ℤ) ≤ d.packet.seqNum) (ds : List Reception) :
    received cfg fwrite (.pending count) (d :: ds) = some .rejected := by
  have running : (Receiver.pending count).result = none := rfl
  have ends : (Receiver.pending count).loopCondition =
      { Receiver.pending count with result := some EXIT_SUCCESS } :=
    if_neg (Int.not_lt.mpr noneMissing)
  rw [received_stray running past, ends]
  exact received_returned rfl ds

/-- A packet that is neither rejected nor such a duplicate ends the transfer, or
leaves packets missing. -/
theorem unmoved_of_pending (past : d.packet.seqNum < cfg.WINDOW_SIZE)
    (other : ¬ (0 ≤ d.packet.seqNum ∧ announced count d.packet ≤ 0 ∧
      d.packet.noBytesToSend ≤ 0))
    (reacts : receiveDataFromSender cfg fwrite d.send (.pending count) d.packet =
      some (r', acks)) : r'.result = some TRANSFER_ERROR ∨ r'.Unmoved := by
  rcases reaction_cases reacts with ⟨_, rfl, _⟩ | ⟨rejected, _⟩ |
    ⟨above, _, duplicate, rfl, _⟩ | ⟨_, _, fresh, processed, runs, rest⟩
  · exact .inl rfl
  · omega
  · rw [noteFirst_pending, duplicate_pending] at duplicate
    have more : 0 < announced count d.packet := by
      by_contra noMore
      exact other ⟨above, by omega, duplicate⟩
    rw [noteFirst_pending]
    refine .inr ⟨le_rfl, fun j received => ?_, ⟨rfl, fun _ => more⟩, fun same => ?_⟩
    · exact absurd received Bool.false_ne_true
    · simp [Receiver.pending, Receiver.initial] at same
  · have size : 0 ≤ (Receiver.pending count).sizeReceived := le_rfl
    have waiting : ∀ j, ((Receiver.pending count).window j).received = true →
        0 < ((Receiver.pending count).window j).noBytesToSend :=
      fun j received => absurd received Bool.false_ne_true
    have touched := Receiver.Unmoved.of_stored size waiting fresh runs rest
    rcases Receiver.Active.of_slot past (fun duplicate => absurd duplicate fresh) reacts
      with error | active
    · simp only [SEQ_NUM_ERROR] at error
      omega
    · exact .inr ⟨touched.size, touched.waiting, active, fun _ => touched.touched⟩

theorem ReceiverOutcome.after_eq_rejected (outcome : ReceiverOutcome)
    (acks : List AckPacket) :
    outcome.after acks = .rejected ↔
      acks.filter (fun ack => ack.seqNum ≠ SEQ_NUM_ERROR) = [] ∧ outcome = .rejected := by
  obtain ⟨file, sizeReceived, window, result, later⟩ := outcome
  simp only [after, rejected, Receiver.outcome, ReceiverOutcome.mk.injEq,
    List.filter_nil, List.append_eq_nil_iff]
  tauto

theorem ReceiverOutcome.after_injective (acks : List AckPacket) :
    Function.Injective fun outcome : ReceiverOutcome => outcome.after acks := by
  rintro ⟨file, sizeReceived, window, result, later⟩ ⟨_, _, _, _, _⟩ same
  simp only [after, ReceiverOutcome.mk.injEq, List.append_cancel_left_eq] at same
  simpa only [ReceiverOutcome.mk.injEq] using same

/-- Without the inserted packets: a rejected packet ends the loop before any packet
is stored or acknowledged. -/
theorem received_pending_iff (noneMissing : count.getD 0 ≤ 0) (ds : List Reception) :
    received cfg fwrite (.pending count) ds = some .rejected ↔
      EndsRejected cfg count ds := by
  induction ds generalizing count with
  | nil =>
      rw [received_nil, EndsRejected, iff_false]
      intro same
      have results := congrArg ReceiverOutcome.result (Option.some.inj same)
      simp [ReceiverOutcome.rejected, Receiver.outcome, Receiver.pending,
        Receiver.initial] at results
  | cons d ds ih =>
      rw [EndsRejected]
      by_cases past : (cfg.WINDOW_SIZE : ℤ) ≤ d.packet.seqNum
      · exact iff_of_true (received_pending_stray noneMissing past ds) (.inl past)
      · by_cases quiet : 0 ≤ d.packet.seqNum ∧ announced count d.packet ≤ 0 ∧
            d.packet.noBytesToSend ≤ 0
        · obtain ⟨above, noMore, empty⟩ := quiet
          have acked : (d.send.emit ((Receiver.pending count).ackOf d.packet)).filter
              (fun ack => ack.seqNum ≠ SEQ_NUM_ERROR) = [] ↔ d.send ≠ .sent := by
            have real : d.packet.seqNum ≠ SEQ_NUM_ERROR := by
              simp only [SEQ_NUM_ERROR]
              omega
            cases sent : d.send <;> simp [SendResult.emit, Receiver.ackOf, real]
          have next : (some (announced count d.packet)).getD 0 ≤ 0 := noMore
          rw [received_pending_duplicate above (by omega) empty,
            Option.map_eq_some_iff, ← ih next]
          simp only [ReceiverOutcome.after_eq_rejected, acked, past, above, noMore, empty,
            true_and, false_or]
          constructor
          · rintro ⟨outcome, outcomes, unsent, rfl⟩
            exact ⟨unsent, outcomes⟩
          · rintro ⟨unsent, outcomes⟩
            exact ⟨_, outcomes, unsent, rfl⟩
        · refine iff_of_false (fun same => ?_) ?_
          · rw [received_cons rfl] at same
            obtain ⟨reaction, reacts, rest⟩ := Option.bind_eq_some_iff.mp same
            obtain ⟨later, outcomes, rejected⟩ := Option.map_eq_some_iff.mp rest
            obtain ⟨_, rfl⟩ := (later.after_eq_rejected reaction.2).mp rejected
            rcases unmoved_of_pending (by omega) quiet reacts with error | unmoved
            · rw [received_returned (by rw [error]; rfl)] at outcomes
              have results := congrArg ReceiverOutcome.result (Option.some.inj outcomes)
              rw [Receiver.outcome, error] at results
              exact absurd (Option.some.inj results) (by decide)
            · obtain ⟨j, moved⟩ := received_unmoved unmoved outcomes rfl
              exact lt_irrefl (0 : ℤ) moved
          · rintro (rejected | ⟨above, noMore, empty, _⟩)
            · exact past rejected
            · exact quiet ⟨above, noMore, empty⟩

/-- Where no packet is missing, inserted packets have no effect exactly when they are
harmless. -/
theorem received_eq_iff (noneMissing : count.getD 0 ≤ 0) (ds : List (Delivery cfg)) :
    received cfg fwrite (.pending count) (ds.map Delivery.reception) =
        received cfg fwrite (.pending count) (ds.filterMap Delivery.own?) ↔
      StraysHarmless cfg count ds := by
  induction ds generalizing count with
  | nil => simp [StraysHarmless]
  | cons d ds ih =>
      cases d with
      | stray packet past =>
          have ends : received cfg fwrite (.pending count)
              (⟨packet, .sent⟩ :: ds.map Delivery.reception) = some .rejected :=
            received_pending_stray noneMissing past _
          rw [StraysHarmless, ← received_pending_iff noneMissing, ← ends]
          exact eq_comm
      | own d =>
          show received cfg fwrite (.pending count) (d :: ds.map Delivery.reception) =
            received cfg fwrite (.pending count) (d :: ds.filterMap Delivery.own?) ↔ _
          rw [StraysHarmless]
          by_cases past : (cfg.WINDOW_SIZE : ℤ) ≤ d.packet.seqNum
          · refine iff_of_true ?_ (fun _ below => absurd past (by omega))
            rw [received_pending_stray noneMissing past,
              received_pending_stray noneMissing past]
          · by_cases quiet : 0 ≤ d.packet.seqNum ∧ announced count d.packet ≤ 0 ∧
                d.packet.noBytesToSend ≤ 0
            · obtain ⟨above, noMore, empty⟩ := quiet
              have below : d.packet.seqNum < cfg.WINDOW_SIZE := by omega
              have next : (some (announced count d.packet)).getD 0 ≤ 0 := noMore
              rw [received_pending_duplicate above below empty,
                received_pending_duplicate above below empty,
                (Option.map_injective (ReceiverOutcome.after_injective _)).eq_iff,
                ih next]
              exact ⟨fun rest _ _ _ _ => rest, fun all => all above below noMore empty⟩
            · refine iff_of_true ?_
                (fun above _ noMore empty => absurd ⟨above, noMore, empty⟩ quiet)
              rw [received_cons rfl, received_cons rfl]
              cases reacts : receiveDataFromSender cfg fwrite d.send (.pending count)
                  d.packet with
              | none => rfl
              | some reaction =>
                  simp only [Option.bind_some]
                  rcases unmoved_of_pending (by omega) quiet reacts with error | unmoved
                  · have returned : reaction.1.result.isSome = true := by
                      rw [error]
                      rfl
                    rw [received_returned returned, received_returned returned]
                  · rw [received_active unmoved.active]

end Pending

/-- Inserting packets past the window leaves the bytes written, `size_received`, the
window, the value returned and the acknowledgments of packets as they are exactly
when they are harmless. -/
theorem rejected_no_effect_iff (cfg : Settings) (fwrite : ℕ → ℕ)
    (ds : List (Delivery cfg)) :
    received cfg fwrite .initial (ds.map Delivery.reception) =
        received cfg fwrite .initial (ds.filterMap Delivery.own?) ↔
      StraysHarmless cfg none ds :=
  @received_eq_iff cfg fwrite none le_rfl ds

/-- The only packet of a file of one byte. -/
def onlyPacket : Packet :=
  { Packet.zero with payload := padded [7], noPacketsToSend := 1, noBytesToSend := 1,
                     size := 1 }

/-- A packet that is turned away before it. -/
def strayThenOnly : List (Delivery settings) :=
  [.stray { Packet.zero with seqNum := 32 } (by decide), .own ⟨onlyPacket, .sent⟩]

/-- The call returns with success, and the file is empty. -/
theorem stray_ends_transfer :
    received settings (fun _ => PACKET_SIZE) .initial
        (strayThenOnly.map Delivery.reception) ≠
      received settings (fun _ => PACKET_SIZE) .initial
        (strayThenOnly.filterMap Delivery.own?) ∧
    (received settings (fun _ => PACKET_SIZE) .initial
        (strayThenOnly.filterMap Delivery.own?)).map
          (fun outcome => (outcome.file, outcome.result)) = some ([7], some EXIT_SUCCESS) ∧
      (received settings (fun _ => PACKET_SIZE) .initial
        (strayThenOnly.map Delivery.reception)).map
          (fun outcome => (outcome.file, outcome.result)) = some ([], some EXIT_SUCCESS) := by
  have without : (received settings (fun _ => PACKET_SIZE) .initial
      (strayThenOnly.filterMap Delivery.own?)).map
        (fun outcome => (outcome.file, outcome.result)) = some ([7], some EXIT_SUCCESS) := by
    decide +kernel
  have inserted : (received settings (fun _ => PACKET_SIZE) .initial
      (strayThenOnly.map Delivery.reception)).map
        (fun outcome => (outcome.file, outcome.result)) = some ([], some EXIT_SUCCESS) := by
    decide +kernel
  refine ⟨fun same => ?_, without, inserted⟩
  rw [same, without] at inserted
  simp at inserted

end Spqr
