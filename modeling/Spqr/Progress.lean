/-
Module: Spqr.Progress
Purpose: `receive_data_from_sender` as a client compiles it: the static
  `packets_processed` and the calls of `print_progress`, over all `GET` transfers of
  one process.
Trusted boundary: none
Main exports:
  Shown, Download, Download.receive, Download.receiveAll, Get, GetLog, getAll,
  Download.Counted, GetLog.Counts, progress_counts_iff
-/
import Spqr.ReceiverWindow

namespace Spqr

variable {cfg : Settings} {fwrite : ℕ → ℕ}

/-! ### The progress bar -/

/-- A call `print_progress(total, current)`, with its `uint32_t` arguments. -/
structure Shown where
  total : ℕ
  current : ℕ
deriving Repr, DecidableEq

/-- The receiver of a client, with the static counter of `receive_data_from_sender`
and what this transfer has shown, oldest first. -/
structure Download where
  receiver : Receiver
  packetsProcessed : ℕ
  shown : List Shown

namespace Download

/-- One complete `fwrite`, with `packets_processed++` and `print_progress`, which
reads `no_packets_to_receive` before it is lowered. -/
def consume (cfg : Settings) (d : Download) : Download :=
  let packetsProcessed : ℕ := (d.packetsProcessed + 1) % 2 ^ 32
  let total : ℤ := (d.receiver.noPacketsToReceive + packetsProcessed) % 2 ^ 32
  { receiver := d.receiver.consume cfg
    packetsProcessed := packetsProcessed
    shown := d.shown ++ [⟨total.toNat, packetsProcessed⟩] }

/-- `processAvailable` -/
def processAvailable (cfg : Settings) (fwrite : ℕ → ℕ) : ℕ → Download → Option Download
  | 0, d => some d
  | iterations + 1, d =>
      let r := d.receiver
      if r.i < cfg.WINDOW_SIZE then
        let packet := r.window r.i
        if packet.received then
          if 0 ≤ packet.size ∧ packet.size ≤ PACKET_SIZE then
            if fwrite r.written.length < packet.size.toNat then
              some { d with receiver := r.shortWrite (fwrite r.written.length) }
            else processAvailable cfg fwrite iterations (d.consume cfg)
          else none
        else some d
      else none

/-- `receiveDataFromSender` -/
def receive (cfg : Settings) (fwrite : ℕ → ℕ) (send : SendResult) (d : Download)
    (newPacket : Packet) : Option Download :=
  let r := d.receiver
  if newPacket.seqNum = SEQ_NUM_ERROR then
    some { d with receiver := { r with result := some TRANSFER_ERROR } }
  else if (cfg.WINDOW_SIZE : ℤ) ≤ newPacket.seqNum then
    some { d with receiver := r.loopCondition }
  else if newPacket.seqNum < 0 then none
  else
    let r := r.noteFirst newPacket
    if r.duplicate newPacket then
      some { d with receiver := { r with newPacket := newPacket } }
    else
      match processAvailable cfg fwrite cfg.WINDOW_SIZE
          { d with receiver := r.store newPacket } with
      | none => none
      | some d =>
          if d.receiver.result.isSome then some d
          else some { d with receiver := (d.receiver.acknowledge newPacket send).1 }

/-- `receive_data_from_sender` until it returns or nothing more arrives. -/
def receiveAll (cfg : Settings) (fwrite : ℕ → ℕ) : Download → List Reception → Option Download
  | d, [] => some d
  | d, arrival :: arrivals =>
      if d.receiver.result.isSome then some d
      else
        match d.receive cfg fwrite arrival.send arrival.packet with
        | none => none
        | some d => receiveAll cfg fwrite d arrivals

/-! ### Nothing else changes -/

theorem processAvailable_receiver :
    ∀ (iterations : ℕ) (d : Download),
      (processAvailable cfg fwrite iterations d).map receiver =
        Spqr.processAvailable cfg fwrite iterations d.receiver := by
  intro iterations
  induction iterations with
  | zero =>
      intro d
      rfl
  | succ iterations ih =>
      intro d
      rw [processAvailable, Spqr.processAvailable]
      dsimp only
      split_ifs
      · rfl
      · exact ih (d.consume cfg)
      · rfl
      · rfl
      · rfl

theorem receive_receiver (send : SendResult) (d : Download) (newPacket : Packet) :
    (d.receive cfg fwrite send newPacket).map receiver =
      (receiveDataFromSender cfg fwrite send d.receiver newPacket).map Prod.fst := by
  rw [receive, receiveDataFromSender]
  dsimp only
  split_ifs
  · rfl
  · rfl
  · rfl
  · rfl
  · rw [← processAvailable_receiver cfg.WINDOW_SIZE
      { d with receiver := (d.receiver.noteFirst newPacket).store newPacket }]
    cases processAvailable cfg fwrite cfg.WINDOW_SIZE
        { d with receiver := (d.receiver.noteFirst newPacket).store newPacket } with
    | none => rfl
    | some processed =>
        simp only [Option.map_some]
        split_ifs
        · rfl
        · rfl

/-- Without the counter and the bar it is `receiveSequence`. -/
theorem receiveAll_receiver (arrivals : List Reception) :
    ∀ d : Download, (d.receiveAll cfg fwrite arrivals).map receiver =
      (receiveSequence cfg fwrite d.receiver arrivals).map Prod.fst := by
  induction arrivals with
  | nil =>
      intro d
      rfl
  | cons arrival arrivals ih =>
      intro d
      rw [receiveAll, receiveSequence]
      split_ifs with ended
      · rfl
      · have same : (d.receive cfg fwrite arrival.send arrival.packet).map receiver =
            (receiveDataFromSender cfg fwrite arrival.send d.receiver arrival.packet).map
              Prod.fst :=
          receive_receiver arrival.send d arrival.packet
        cases received : d.receive cfg fwrite arrival.send arrival.packet with
        | none =>
            rw [received, Option.map_none, eq_comm, Option.map_eq_none_iff] at same
            simp [same]
        | some after =>
            rw [received, Option.map_some, eq_comm, Option.map_eq_some_iff] at same
            obtain ⟨⟨r, acks⟩, receives, rfl⟩ := same
            simp only [receives, ih after, Option.map_map]
            rfl

end Download

/-! ### The transfers of one client -/

/-- A `GET` transfer: what arrives in it, and what the disk takes. -/
structure Get where
  arrivals : List Reception
  fwrite : ℕ → ℕ

/-- A packet that reaches the window, and whose count is taken if it is the first. -/
def Reception.Taken (cfg : Settings) (arrival : Reception) : Prop :=
  0 ≤ arrival.packet.seqNum ∧ arrival.packet.seqNum < cfg.WINDOW_SIZE

instance (arrival : Reception) : Decidable (arrival.Taken cfg) :=
  inferInstanceAs (Decidable (_ ∧ _))

/-- The number of packets that the first one announces. -/
def packetCountOf (cfg : Settings) (arrivals : List Reception) : ℤ :=
  match arrivals.find? fun arrival => arrival.Taken cfg with
  | none => 0
  | some first => first.packet.noPacketsToSend

/-- The packets written whole. -/
def Receiver.writes (r : Receiver) : ℕ :=
  if r.result = some WRITE_BYTE_ERROR then r.written.length - 1 else r.written.length

/-- What a transfer has announced, written and shown. -/
structure GetLog where
  count : ℤ
  writes : ℕ
  shown : List Shown
deriving Repr, DecidableEq

/-- The transfers of a client one after the other: `packets_processed` goes on, and
the last one may be under way. -/
def getAll (cfg : Settings) : ℕ → List Get → Option (List GetLog)
  | _, [] => some []
  | packetsProcessed, get :: gets =>
      match Download.receiveAll cfg get.fwrite ⟨Receiver.initial, packetsProcessed, []⟩
          get.arrivals with
      | none => none
      | some d =>
          if d.receiver.result.isSome ∨ gets = [] then
            (getAll cfg d.packetsProcessed gets).map fun logs =>
              ⟨packetCountOf cfg get.arrivals, d.receiver.writes, d.shown⟩ :: logs
          else none

/-- The `k`-th write of the transfer shows `k` of all its packets. -/
def GetLog.Counts (log : GetLog) : Prop :=
  ∀ k < log.writes, ∃ bar, log.shown[k]? = some bar ∧
    (bar.total : ℤ) = log.count ∧ bar.current = k + 1

/-! ### What is shown -/

/-- What the `k`-th write shows, when `before` packets had been processed before the
transfer. -/
def barAt (before : ℕ) (count : ℤ) (k : ℕ) : Shown where
  total := ((count + before + 1) % 2 ^ 32).toNat
  current := (before + k + 1) % 2 ^ 32

/-- The counters during a transfer. -/
structure Download.Counted (before : ℕ) (count : ℤ) (d : Download) : Prop where
  processed : d.packetsProcessed % 2 ^ 32 = (before + d.shown.length) % 2 ^ 32
  untouched : d.receiver.isFirst = true → d.shown = []
  remaining : d.receiver.isFirst = false →
    d.receiver.noPacketsToReceive + d.shown.length = count
  writes : d.shown.length = d.receiver.writes
  bars : ∀ k < d.shown.length, d.shown[k]? = some (barAt before count k)

namespace Download.Counted

variable {before : ℕ} {count : ℤ} {d d' : Download}

theorem initial : Counted before count ⟨Receiver.initial, before, []⟩ where
  processed := rfl
  untouched _ := rfl
  remaining first := by simp [Receiver.initial] at first
  writes := rfl
  bars k inside := by simp at inside

/-- Only these fields of the receiver matter. -/
theorem of_receiver (counted : d.Counted before count) {r : Receiver}
    (isFirst : r.isFirst = d.receiver.isFirst)
    (left : r.noPacketsToReceive = d.receiver.noPacketsToReceive)
    (writes : r.writes = d.receiver.writes) :
    Counted before count { d with receiver := r } where
  processed := counted.processed
  untouched first := counted.untouched (isFirst ▸ first)
  remaining later := by
    simp only [left]
    exact counted.remaining (isFirst ▸ later)
  writes := counted.writes.trans writes.symm
  bars := counted.bars

/-- A write shows the next bar. -/
theorem consume (counted : d.Counted before count) (started : d.receiver.isFirst = false)
    (running : d.receiver.result = none) : (d.consume cfg).Counted before count := by
  have remaining := counted.remaining started
  have processed := counted.processed
  have writes := counted.writes
  constructor
  · simp only [Download.consume, List.length_append, List.length_singleton]
    omega
  · intro first
    simp [Download.consume, Receiver.consume, started] at first
  · intro _
    simp only [Download.consume, Receiver.consume, List.length_append, List.length_singleton]
    push_cast
    omega
  · simp only [Receiver.writes, running] at writes
    simp [Download.consume, Receiver.consume, Receiver.writes, running, writes]
  · intro k inside
    simp only [Download.consume, List.length_append, List.length_singleton] at inside ⊢
    by_cases old : k < d.shown.length
    · rw [List.getElem?_append_left old]
      exact counted.bars k old
    · obtain rfl : k = d.shown.length := by omega
      rw [List.getElem?_append_right le_rfl, Nat.sub_self, List.getElem?_cons_zero]
      simp only [barAt, Option.some.injEq, Shown.mk.injEq]
      constructor
      · push_cast
        omega
      · omega

/-- Induction on the iterations: until the loop ends, no result is set. -/
theorem processAvailable :
    ∀ {iterations : ℕ} {d d' : Download}, d.Counted before count →
      d.receiver.isFirst = false → d.receiver.result = none →
      Download.processAvailable cfg fwrite iterations d = some d' →
      d'.Counted before count ∧ d'.receiver.isFirst = false := by
  intro iterations
  induction iterations with
  | zero =>
      intro d d' counted started _ runs
      obtain rfl := Option.some.inj runs
      exact ⟨counted, started⟩
  | succ iterations ih =>
      intro d d' counted started running runs
      simp only [Download.processAvailable] at runs
      split_ifs at runs
      · obtain rfl := Option.some.inj runs
        refine ⟨?_, started⟩
        apply counted.of_receiver
        · rfl
        · rfl
        · simp [Receiver.writes, Receiver.shortWrite, running]
      · exact ih (counted.consume started running) started running runs
      · obtain rfl := Option.some.inj runs
        exact ⟨counted, started⟩

/-- The first packet that is taken sets the count. -/
theorem noteFirst (counted : d.Counted before count) {packet : Packet}
    (announces : d.receiver.isFirst = true → packet.noPacketsToSend = count) :
    Counted before count { d with receiver := d.receiver.noteFirst packet } ∧
      (d.receiver.noteFirst packet).isFirst = false := by
  cases first : d.receiver.isFirst with
  | false =>
      have same : d.receiver.noteFirst packet = d.receiver := by
        simp [Receiver.noteFirst, first]
      rw [same]
      exact ⟨counted, first⟩
  | true =>
      have untouched := counted.untouched first
      have noted : d.receiver.noteFirst packet =
          { d.receiver with isFirst := false, noPacketsToReceive := packet.noPacketsToSend } := by
        simp [Receiver.noteFirst, first]
      rw [noted]
      refine ⟨⟨counted.processed, fun _ => untouched, ?_, counted.writes, counted.bars⟩, rfl⟩
      intro _
      simp [untouched, announces first]

/-- The end of a round. -/
theorem loopCondition {r : Receiver} (counted : Counted before count { d with receiver := r })
    (running : r.result = none) :
    Counted before count { d with receiver := r.loopCondition } := by
  have other : EXIT_SUCCESS ≠ WRITE_BYTE_ERROR := by decide
  unfold Receiver.loopCondition
  split_ifs
  · exact counted.of_receiver rfl rfl rfl
  · apply counted.of_receiver
    · rfl
    · rfl
    · simp [Receiver.writes, running, other]

theorem receive (counted : d.Counted before count) {arrival : Reception}
    (running : d.receiver.result = none)
    (announces : d.receiver.isFirst = true → arrival.Taken cfg →
      arrival.packet.noPacketsToSend = count)
    (receives : d.receive cfg fwrite arrival.send arrival.packet = some d') :
    d'.Counted before count ∧
      (d'.receiver.isFirst = true → d.receiver.isFirst = true ∧ ¬ arrival.Taken cfg) := by
  have error : SEQ_NUM_ERROR < 0 := by decide
  have failed : TRANSFER_ERROR ≠ WRITE_BYTE_ERROR := by decide
  simp only [Download.receive] at receives
  split_ifs at receives with last past below duplicate
  · obtain rfl := Option.some.inj receives
    refine ⟨?_, fun first => ⟨first, fun taken => ?_⟩⟩
    · apply counted.of_receiver
      · rfl
      · rfl
      · simp [Receiver.writes, running, failed]
    · have nonneg := taken.1
      omega
  · obtain rfl := Option.some.inj receives
    refine ⟨counted.loopCondition running, fun first => ⟨?_, fun taken => ?_⟩⟩
    · have same : d.receiver.loopCondition.isFirst = d.receiver.isFirst := by
        unfold Receiver.loopCondition
        split_ifs <;> rfl
      exact same.symm.trans first
    · have inside := taken.2
      omega
  · have taken : arrival.Taken cfg := ⟨by omega, by omega⟩
    obtain ⟨noted, started⟩ := counted.noteFirst fun first => announces first taken
    obtain rfl := Option.some.inj receives
    refine ⟨noted.of_receiver rfl rfl rfl, fun first => ?_⟩
    simp only [started] at first
    cases first
  · have taken : arrival.Taken cfg := ⟨by omega, by omega⟩
    obtain ⟨noted, started⟩ := counted.noteFirst fun first => announces first taken
    have kept : (d.receiver.noteFirst arrival.packet).result = none := by
      rw [← running]
      unfold Receiver.noteFirst
      split_ifs <;> rfl
    split at receives
    · cases receives
    · rename_i processed runs
      have stored : Counted before count
          { d with receiver := (d.receiver.noteFirst arrival.packet).store arrival.packet } :=
        noted.of_receiver rfl rfl rfl
      obtain ⟨counted, started⟩ := stored.processAvailable started kept runs
      split_ifs at receives with ended
      · obtain rfl := Option.some.inj receives
        refine ⟨counted, fun first => ?_⟩
        rw [started] at first
        cases first
      · obtain rfl := Option.some.inj receives
        have running : processed.receiver.result = none := by simpa using ended
        refine ⟨?_, fun first => ?_⟩
        · apply loopCondition
          · split_ifs
            · exact counted
            · exact counted.of_receiver rfl rfl rfl
          · split_ifs
            · exact running
            · exact running
        · have same : (processed.receiver.acknowledge arrival.packet arrival.send).1.isFirst =
              processed.receiver.isFirst := by
            simp only [Receiver.acknowledge, Receiver.loopCondition]
            split_ifs <;> rfl
          rw [same, started] at first
          cases first

/-- Induction on what arrives: until one is taken, the first that will be taken has
the count. -/
theorem receiveAll {arrivals : List Reception} :
    ∀ {d d' : Download}, d.Counted before count →
      (d.receiver.isFirst = true → packetCountOf cfg arrivals = count) →
      d.receiveAll cfg fwrite arrivals = some d' → d'.Counted before count := by
  induction arrivals with
  | nil =>
      intro d d' counted _ runs
      obtain rfl := Option.some.inj runs
      exact counted
  | cons arrival arrivals ih =>
      intro d d' counted announces runs
      rw [Download.receiveAll] at runs
      split_ifs at runs with ended
      · obtain rfl := Option.some.inj runs
        exact counted
      · split at runs
        · cases runs
        · rename_i after receives
          have running : d.receiver.result = none := by simpa using ended
          have head : d.receiver.isFirst = true → arrival.Taken cfg →
              arrival.packet.noPacketsToSend = count := by
            intro first taken
            rw [← announces first, packetCountOf, List.find?_cons_of_pos (by simpa using taken)]
          obtain ⟨counted, fresh⟩ := counted.receive running head receives
          apply ih counted _ runs
          intro first
          obtain ⟨first, passed⟩ := fresh first
          rw [← announces first, packetCountOf, packetCountOf,
            List.find?_cons_of_neg (by simpa using passed)]

end Download.Counted

/-- What a whole transfer shows, and where it leaves the counter. -/
theorem receiveAll_counted {before : ℕ} {get : Get} {d : Download}
    (runs : Download.receiveAll cfg get.fwrite ⟨Receiver.initial, before, []⟩ get.arrivals =
      some d) :
    d.Counted before (packetCountOf cfg get.arrivals) :=
  Download.Counted.initial.receiveAll (fun _ => rfl) runs

/-- No write shows its own number of all packets: the two counters differ from them
by numbers of packets that differ by one. -/
theorem barAt_ne (before : ℕ) (count : ℤ) (k : ℕ) :
    ¬ (((barAt before count k).total : ℤ) = count ∧
      (barAt before count k).current = k + 1) := by
  rintro ⟨total, current⟩
  simp only [barAt] at total current
  omega

theorem GetLog.counts_iff {before : ℕ} {log : GetLog}
    (bars : ∀ k < log.writes, log.shown[k]? = some (barAt before log.count k)) :
    log.Counts ↔ log.writes = 0 := by
  constructor
  · intro counts
    by_contra something
    have first : 0 < log.writes := Nat.pos_of_ne_zero something
    obtain ⟨bar, there, right⟩ := counts 0 first
    rw [bars 0 first, Option.some.injEq] at there
    rw [← there] at right
    exact barAt_ne before log.count 0 right
  · intro nothing k inside
    omega

/-- In every sequence of `GET` transfers of a client, a transfer shows its progress as
it is if and only if it writes no packet. -/
theorem progress_counts_iff {gets : List Get} {before : ℕ} {logs : List GetLog}
    (runs : getAll cfg before gets = some logs) :
    ∀ log ∈ logs, log.Counts ↔ log.writes = 0 := by
  induction gets generalizing before logs with
  | nil =>
      obtain rfl := Option.some.inj runs
      simp
  | cons get gets ih =>
      rw [getAll] at runs
      split at runs
      · cases runs
      · rename_i d received
        split_ifs at runs
        · obtain ⟨later, rest, rfl⟩ := Option.map_eq_some_iff.mp runs
          have counted := receiveAll_counted received
          intro log member
          cases List.mem_cons.mp member with
          | inl first =>
              subst first
              apply GetLog.counts_iff
              intro k inside
              simp only at inside
              exact counted.bars k (counted.writes ▸ inside)
          | inr other => exact ih rest log other

/-- A transfer of one packet with one byte. -/
def singlePacketGet : Get where
  arrivals := [⟨{ Packet.zero with noPacketsToSend := 1, noBytesToSend := 1, size := 1 }, .sent⟩]
  fwrite _ := PACKET_SIZE

/-- The transfer of four packets that come in another order and more than once. -/
def overtakenGet : Get where
  arrivals := overtaken
  fwrite _ := PACKET_SIZE

/-- A transfer that the sender gives up before its first packet. -/
def givenUpGet : Get where
  arrivals := [⟨errorPacket, .sent⟩]
  fwrite _ := PACKET_SIZE

theorem progress_counts_overtaken :
    ∃ logs, getAll narrow 0 [overtakenGet, givenUpGet, overtakenGet] = some logs ∧
      logs.map GetLog.writes = [4, 0, 4] ∧
      ∀ log ∈ logs, log.Counts ↔ log.writes = 0 := by
  have computed :
      (getAll narrow 0 [overtakenGet, givenUpGet, overtakenGet]).map
        (List.map GetLog.writes) = some [4, 0, 4] := by
    decide +kernel
  obtain ⟨logs, runs, writes⟩ := Option.map_eq_some_iff.mp computed
  exact ⟨logs, runs, writes, progress_counts_iff runs⟩

/-- The only packet of a first transfer is shown as one of two, that of a second as two
of three. -/
theorem progress_not_counted :
    getAll settings 0 [singlePacketGet, singlePacketGet] =
      some [⟨1, 1, [⟨2, 1⟩]⟩, ⟨1, 1, [⟨3, 2⟩]⟩] ∧
    ¬ GetLog.Counts ⟨1, 1, [⟨2, 1⟩]⟩ ∧ ¬ GetLog.Counts ⟨1, 1, [⟨3, 2⟩]⟩ := by
  refine ⟨by decide +kernel, ?_, ?_⟩
  · intro counts
    obtain ⟨bar, there, total, -⟩ := counts 0 (by decide)
    cases there
    cases total
  · intro counts
    obtain ⟨bar, there, total, -⟩ := counts 0 (by decide)
    cases there
    cases total

end Spqr
