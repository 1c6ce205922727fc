/-
Module: Spqr.SenderWindow
Purpose: The invariant of the sender's window: it holds a contiguous range of
  chunks, whatever acknowledgments and timeouts reach `wait_ack`.
Trusted boundary: none
Main exports:
  SenderWindow, Refilled, refill_spec, refill_invariant, fillWindow_kept, Started,
  mainSenderStart_spec, sendSlots_window, sendSlots_packets,
  SenderWindow.waitAck_cases, SenderWindow.waitAckTimeout_cases
-/
import Spqr.Chunks
import Spqr.Lib.Residues

namespace Spqr

variable {cfg : Settings} {file : List UInt8}

/-- The packets carry these chunks, in this order. -/
abbrev Carries (cfg : Settings) (file : List UInt8) (chunks : List ℕ)
    (packets : List Packet) : Prop :=
  List.Forall₂ (IsChunk cfg file) chunks packets

theorem Carries.of_mem {chunks : List ℕ} {packets : List Packet}
    (carries : Carries cfg file chunks packets) {packet : Packet}
    (member : packet ∈ packets) : ∃ g ∈ chunks, IsChunk cfg file g packet := by
  induction carries with
  | nil => simp at member
  | cons genuine _ inductionHypothesis =>
      rcases List.mem_cons.mp member with rfl | member
      · exact ⟨_, List.mem_cons_self, genuine⟩
      · obtain ⟨g, inside, genuine⟩ := inductionHypothesis member
        exact ⟨g, List.mem_cons_of_mem _ inside, genuine⟩

/-- The window holds exactly the chunks `base ≤ g < base + window_size`, each in
the slot that belongs to it, and the file has been read up to the end of the
last of them. -/
structure SenderWindow (cfg : Settings) (file : List UInt8) (base : ℕ)
    (s : Sender) : Prop where
  windowSize : s.windowSize = min (packetCount file) cfg.WINDOW_SIZE
  head : s.i = base % cfg.WINDOW_SIZE
  within : base + s.windowSize ≤ packetCount file
  slot : ∀ g, base ≤ g → g < base + s.windowSize →
    IsChunk cfg file g (s.window (g % cfg.WINDOW_SIZE))
  unread : s.unread = file.drop (PACKET_SIZE * (base + s.windowSize))
  counter : s.counter = min (PACKET_SIZE * (base + s.windowSize)) file.length
  sizeFile : s.sizeFile = file.length
  /-- The budget outlasts the file. -/
  budget : base + s.windowSize < packetCount file →
    s.noPacketsToSend + base = packetCount file

namespace SenderWindow

variable {base : ℕ} {s : Sender}

theorem windowSize_le (inv : SenderWindow cfg file base s) :
    s.windowSize ≤ cfg.WINDOW_SIZE := by
  rw [inv.windowSize]
  exact Nat.min_le_right _ _

/-- While chunks remain to be read the window is full. -/
theorem windowSize_eq (inv : SenderWindow cfg file base s)
    (more : base + s.windowSize < packetCount file) :
    s.windowSize = cfg.WINDOW_SIZE := by
  have := inv.windowSize
  omega

theorem head_lt (inv : SenderWindow cfg file base s) :
    s.i < cfg.WINDOW_SIZE := by
  rw [inv.head]
  exact Nat.mod_lt _ cfg.windowPos

/-- The file position determines the window. -/
theorem base_unique {base' : ℕ} (inv : SenderWindow cfg file base s)
    (inv' : SenderWindow cfg file base' s) : base = base' := by
  have counters := inv.counter.symm.trans inv'.counter
  have within := inv.within
  have within' := inv'.within
  have more : ∀ b, b < packetCount file ↔ PACKET_SIZE * b < file.length :=
    fun _ => lt_packetCount
  have one := more (base + s.windowSize)
  have two := more (base' + s.windowSize)
  simp only [PACKET_SIZE] at counters one two
  omega

/-- The next `fread` delivers the chunk after the window. -/
theorem take_unread (inv : SenderWindow cfg file base s) :
    s.unread.take PACKET_SIZE = chunk file (base + s.windowSize) := by
  rw [inv.unread, chunk]

/-- The fields that the invariant does not mention may change freely. -/
theorem of_fields {s' : Sender} (inv : SenderWindow cfg file base s)
    (windowSize : s'.windowSize = s.windowSize) (head : s'.i = s.i)
    (slots : ∀ g, base ≤ g → g < base + s.windowSize →
      IsChunk cfg file g (s'.window (g % cfg.WINDOW_SIZE)))
    (unread : s'.unread = s.unread) (counter : s'.counter = s.counter)
    (sizeFile : s'.sizeFile = s.sizeFile)
    (budget : base + s.windowSize < packetCount file →
      s'.noPacketsToSend = s.noPacketsToSend) :
    SenderWindow cfg file base s' where
  windowSize := windowSize.trans inv.windowSize
  head := head.trans inv.head
  within := windowSize ▸ inv.within
  slot := windowSize ▸ slots
  unread := by rw [unread, windowSize, inv.unread]
  counter := by rw [counter, windowSize, inv.counter]
  sizeFile := sizeFile.trans inv.sizeFile
  budget := by
    intro more
    rw [windowSize] at more
    rw [budget more]
    exact inv.budget more

/-- Setting an acknowledgment flag keeps the invariant. -/
theorem mark (inv : SenderWindow cfg file base s) (slot : ℕ) :
    SenderWindow cfg file base (s.mark slot) := by
  refine inv.of_fields rfl rfl ?_ rfl rfl rfl (fun _ => rfl)
  intro g low high
  have genuine := inv.slot g low high
  by_cases same : g % cfg.WINDOW_SIZE = slot
  · subst same
    exact genuine.of_fields (by simp [Sender.mark]) (by simp [Sender.mark])
      (by simp [Sender.mark]) (by simp [Sender.mark])
  · simpa [Sender.mark, same] using genuine

end SenderWindow

/-! ### The refill loop -/

/-- What the refill loop does to a window at `base`: it moves on over
acknowledged slots to `base'` and loads the chunks that follow. -/
structure Refilled (cfg : Settings) (file : List UInt8) (base base' : ℕ)
    (send : ℕ → SendResult) (s s' : Sender) (packets : List Packet) : Prop where
  window : SenderWindow cfg file base' s'
  lower : base ≤ base'
  upper : base' ≤ base + s.windowSize
  /-- Only acknowledged slots are passed. -/
  passed : ∀ g, base ≤ g → g < base' →
    (s.window (g % cfg.WINDOW_SIZE)).ack = true
  /-- The rest of the window is left alone. -/
  kept : ∀ g, base' ≤ g → g < base + s.windowSize →
    s'.window (g % cfg.WINDOW_SIZE) = s.window (g % cfg.WINDOW_SIZE)
  fresh : ∀ g, base + s.windowSize ≤ g → g < base' + s.windowSize →
    (s'.window (g % cfg.WINDOW_SIZE)).ack = false
  /-- The loop stops at an unacknowledged slot or at the end of the file. -/
  stops : base' + s.windowSize < packetCount file →
    (s'.window (base' % cfg.WINDOW_SIZE)).ack = false
  carried : ∃ chunks,
    chunks.Sublist (List.range' (base + s.windowSize) (base' - base)) ∧
    Carries cfg file chunks packets ∧
    ((∀ k, send k = .sent) →
      chunks = List.range' (base + s.windowSize) (base' - base))
  phase : s'.phase = s.phase
  maxErrors : s'.maxErrors = s.maxErrors
  lastAckConfirmedBytes : s'.lastAckConfirmedBytes = s.lastAckConfirmedBytes

private theorem Refilled.stay {base : ℕ} {s s' : Sender}
    (send : ℕ → SendResult) (inv : SenderWindow cfg file base s')
    (stops : base + s.windowSize < packetCount file →
      (s'.window (base % cfg.WINDOW_SIZE)).ack = false)
    (window : s'.window = s.window) (phase : s'.phase = s.phase)
    (maxErrors : s'.maxErrors = s.maxErrors)
    (lastAck : s'.lastAckConfirmedBytes = s.lastAckConfirmedBytes) :
    Refilled cfg file base base send s s' [] where
  window := inv
  lower := le_rfl
  upper := Nat.le_add_right _ _
  passed := by omega
  kept := by simp [window]
  fresh := by omega
  stops := stops
  carried := ⟨[], by simp, .nil, by simp⟩
  phase := phase
  maxErrors := maxErrors
  lastAckConfirmedBytes := lastAck

namespace SenderWindow

variable {base : ℕ} {s : Sender}

/-- The packet that the refill loop builds carries the next chunk. -/
theorem nextPacket (inv : SenderWindow cfg file base s)
    (more : base + s.windowSize < packetCount file) (budget : ℕ) :
    IsChunk cfg file (base + s.windowSize) (s.nextPacket budget) := by
  rw [Sender.nextPacket, inv.take_unread]
  refine ⟨more, ?_, rfl, rfl, ?_⟩
  · simp [filledPacket, inv.head, inv.windowSize_eq more]
  · simp only [filledPacket, inv.counter, chunk_length, chunkEnd]
    rw [lt_packetCount] at more
    simp only [PACKET_SIZE] at more ⊢
    omega

/-- So does the slot it is put into. -/
theorem load_chunk (inv : SenderWindow cfg file base s)
    (more : base + s.windowSize < packetCount file) (budget : ℕ)
    (result : SendResult) :
    IsChunk cfg file (base + s.windowSize)
      ((s.load budget result).window (base % cfg.WINDOW_SIZE)) := by
  have genuine := inv.nextPacket more budget
  simp only [Sender.load, inv.head, Function.update_self]
  split
  · exact genuine.of_fields rfl rfl rfl rfl
  · exact genuine

theorem load_ack (inv : SenderWindow cfg file base s) (budget : ℕ)
    (result : SendResult) :
    ((s.load budget result).window (base % cfg.WINDOW_SIZE)).ack = false := by
  simp only [Sender.load, inv.head, Function.update_self]
  split <;> rfl

theorem load_other (inv : SenderWindow cfg file base s) (budget : ℕ)
    (result : SendResult) {g : ℕ} (above : base < g)
    (below : g < base + cfg.WINDOW_SIZE) :
    (s.load budget result).window (g % cfg.WINDOW_SIZE) =
      s.window (g % cfg.WINDOW_SIZE) := by
  simp only [Sender.load, inv.head]
  rw [Function.update_of_ne (RoundRobin.mod_ne above below)]

/-- One round of the refill loop moves the window by one chunk. -/
theorem advance (inv : SenderWindow cfg file base s) {budget : ℕ}
    (atBudget : s.noPacketsToSend = budget + 1)
    (more : base + s.windowSize < packetCount file) (result : SendResult) :
    SenderWindow cfg file (base + 1) (s.load budget result).advance := by
  have full := inv.windowSize_eq more
  have positive := cfg.windowPos
  refine ⟨inv.windowSize, ?_, ?_, ?_, ?_, ?_, inv.sizeFile, ?_⟩
  · simp only [Sender.advance, Sender.load, inv.head, full, Nat.mod_add_mod]
  · simp only [Sender.advance, Sender.load]
    omega
  · intro g low high
    simp only [Sender.advance, Sender.load] at high
    by_cases last : g = base + s.windowSize
    · have slot : g % cfg.WINDOW_SIZE = base % cfg.WINDOW_SIZE := by
        rw [last, full, Nat.add_mod_right]
      rw [slot, last]
      exact inv.load_chunk more budget result
    · rw [Sender.advance, inv.load_other budget result (by omega) (by omega)]
      exact inv.slot g (by omega) (by omega)
  · simp only [Sender.advance, Sender.load, inv.unread, List.drop_drop]
    congr 1
    ring
  · simp only [Sender.advance, Sender.load, inv.take_unread, inv.counter,
      chunk_length]
    rw [lt_packetCount] at more
    simp only [PACKET_SIZE] at more ⊢
    omega
  · intro _
    have := inv.budget more
    simp only [Sender.advance, Sender.load]
    omega

end SenderWindow

/-- One round followed by the rest of the loop. -/
private theorem Refilled.round {base base' budget : ℕ} {s s' : Sender}
    {send : ℕ → SendResult} {packets : List Packet}
    (inv : SenderWindow cfg file base s)
    (more : base + s.windowSize < packetCount file)
    (acked : (s.window (base % cfg.WINDOW_SIZE)).ack = true)
    (rest : Refilled cfg file (base + 1) base' (fun j => send (1 + j))
      (s.load budget (send 0)).advance s' packets) :
    Refilled cfg file base base' send s s'
      ((send 0).emit (s.nextPacket budget) ++ packets) := by
  have full := inv.windowSize_eq more
  have positive := cfg.windowPos
  have lower := rest.lower
  have sameSize : (s.load budget (send 0)).advance.windowSize = s.windowSize := rfl
  have refilled : ∀ g, g = base + s.windowSize →
      ((s.load budget (send 0)).advance.window (g % cfg.WINDOW_SIZE)).ack =
        false := by
    intro g last
    rw [last, full, Nat.add_mod_right]
    exact inv.load_ack budget (send 0)
  -- the slot just filled is unacknowledged, so the loop ends there at the latest
  have upper : base' ≤ base + s.windowSize := by
    by_contra beyond
    have last := rest.passed (base + s.windowSize) (by omega) (by omega)
    rw [refilled _ rfl] at last
    exact absurd last (by decide)
  refine ⟨rest.window, by omega, upper, ?_, ?_, ?_, rest.stops, ?_,
    rest.phase, rest.maxErrors, rest.lastAckConfirmedBytes⟩
  · intro g low high
    by_cases first : g = base
    · rw [first]
      exact acked
    · have passed := rest.passed g (by omega) high
      rwa [Sender.advance, inv.load_other budget (send 0) (by omega)
        (by omega)] at passed
  · intro g low high
    rw [rest.kept g low (by omega), Sender.advance,
      inv.load_other budget (send 0) (by omega) (by omega)]
  · intro g low high
    by_cases first : g = base + s.windowSize
    · rw [rest.kept g (by omega) (by omega)]
      exact refilled g first
    · exact rest.fresh g (by omega) high
  · obtain ⟨chunks, sub, carries, whole⟩ := rest.carried
    rw [sameSize] at sub whole
    have cons_range : List.range' (base + s.windowSize) (base' - base) =
        (base + s.windowSize) ::
          List.range' (base + 1 + s.windowSize) (base' - (base + 1)) := by
      rw [show base' - base = (base' - (base + 1)) + 1 by omega,
        List.range'_succ, Nat.add_right_comm]
    by_cases sent : send 0 = .sent
    · refine ⟨(base + s.windowSize) :: chunks, ?_, ?_, ?_⟩
      · rw [cons_range]
        exact sub.cons_cons _
      · rw [sent]
        exact .cons (inv.nextPacket more budget) carries
      · intro all
        rw [cons_range, whole (fun j => all (1 + j))]
    · refine ⟨chunks, ?_, ?_, ?_⟩
      · rw [cons_range]
        exact sub.cons _
      · simpa [SendResult.emit, sent] using carries
      · intro all
        exact absurd (all 0) sent

/-- Rule of the refill loop, for what it keeps and for what it sends. -/
theorem refill_invariant {send : ℕ → SendResult} {Holds : Sender → Prop}
    {Sends : Packet → Prop}
    (budgeted : ∀ {s} budget, Holds s → Holds { s with noPacketsToSend := budget })
    (load : ∀ {s} budget result, Holds s → s.i < cfg.WINDOW_SIZE →
      Sends (s.nextPacket budget) ∧ Holds (s.load budget result))
    (advance : ∀ {s : Sender}, Holds s → Holds s.advance) :
    ∀ {budget k : ℕ} {n : ℤ} {s s' : Sender} {packets : List Packet}, Holds s →
      refill cfg send k n budget s = some (s', packets) →
      Holds s' ∧ ∀ packet ∈ packets, Sends packet := by
  intro budget
  induction budget with
  | zero =>
      intro k n s s' packets holds runs
      obtain ⟨rfl, rfl⟩ := Prod.mk.inj (Option.some.inj runs)
      exact ⟨budgeted 0 holds, by simp⟩
  | succ budget inductionHypothesis =>
      intro k n s s' packets holds runs
      simp only [refill_succ] at runs
      split_ifs at runs with inside acked atEnd nothing
      · obtain ⟨rfl, rfl⟩ := Prod.mk.inj (Option.some.inj runs)
        exact ⟨budgeted budget holds, by simp⟩
      · obtain ⟨rfl, rfl⟩ := Prod.mk.inj (Option.some.inj runs)
        obtain ⟨next, loaded⟩ := load budget (send k) holds inside
        refine ⟨loaded, fun packet member => ?_⟩
        rw [SendResult.mem_emit member]
        exact next
      · obtain ⟨next, loaded⟩ := load budget (send k) holds inside
        split at runs
        · cases runs
        · rename_i rest
          obtain ⟨rfl, rfl⟩ := Prod.mk.inj (Option.some.inj runs)
          obtain ⟨kept, later⟩ := inductionHypothesis (advance loaded) rest
          refine ⟨kept, fun packet member => ?_⟩
          cases List.mem_append.mp member with
          | inl first =>
              rw [SendResult.mem_emit first]
              exact next
          | inr other => exact later packet other
      · obtain ⟨rfl, rfl⟩ := Prod.mk.inj (Option.some.inj runs)
        exact ⟨budgeted (budget + 1) holds, by simp⟩

theorem SendResult.value_ne_zero {n : ℤ} (nonzero : n ≠ 0)
    (result : SendResult) : result.value n ≠ 0 := by
  cases result <;> simp [SendResult.value, nonzero, sizeofPacket]

/-- The refill loop is defined from every window that satisfies the invariant
and keeps it. Induction on the budget, which each round lowers. -/
theorem refill_spec (send : ℕ → SendResult) :
    ∀ (budget k : ℕ) (n : ℤ) (base : ℕ) (s : Sender), n ≠ 0 →
      s.noPacketsToSend = budget → SenderWindow cfg file base s →
      ∃ s' packets base', refill cfg send k n budget s = some (s', packets) ∧
        Refilled cfg file base base' (fun j => send (k + j)) s s' packets := by
  intro budget
  induction budget with
  | zero =>
      intro k n base s _ atBudget inv
      have atEnd : ¬ base + s.windowSize < packetCount file := by
        intro more
        have := inv.budget more
        have := inv.windowSize
        omega
      refine ⟨_, _, base, by rw [refill_zero], ?_⟩
      refine .stay _ ?_ (fun more => absurd more atEnd) rfl rfl rfl rfl
      exact inv.of_fields rfl rfl inv.slot rfl rfl rfl
        (fun more => absurd more atEnd)
  | succ budget inductionHypothesis =>
      intro k n base s nonzero atBudget inv
      rw [refill_succ, if_pos inv.head_lt]
      by_cases acked : (s.window s.i).ack = true
      · rw [if_pos acked, inv.take_unread]
        by_cases more : base + s.windowSize < packetCount file
        · have genuine := inv.nextPacket more budget
          have length := chunk_length_pos more
          have sizeNe : (s.nextPacket budget).size ≠ 0 := by
            rw [genuine.size]
            omega
          have nextNonzero := SendResult.value_ne_zero nonzero (send k)
          obtain ⟨s', packets, base', runs, rest⟩ :=
            inductionHypothesis (k + 1) _ (base + 1) _ nextNonzero rfl
              (inv.advance atBudget more (send k))
          rw [if_neg length.ne', if_neg (by simp [sizeNe, nextNonzero])]
          refine ⟨s', (send k).emit (s.nextPacket budget) ++ packets, base',
            by simp only [runs], ?_⟩
          refine .round inv more (inv.head ▸ acked) ?_
          simpa only [Nat.add_assoc, Nat.add_zero] using rest
        · rw [if_pos (by rw [chunk_eq_nil (Nat.not_lt.mp more)]; rfl)]
          refine ⟨_, _, base, rfl, ?_⟩
          refine .stay _ ?_ (fun more' => absurd more' more) rfl rfl rfl rfl
          exact inv.of_fields rfl rfl inv.slot rfl rfl rfl
            (fun more' => absurd more' more)
      · rw [if_neg acked]
        refine ⟨_, _, base, rfl, ?_⟩
        refine .stay _ ?_ ?_ rfl rfl rfl rfl
        · exact inv.of_fields rfl rfl inv.slot rfl rfl rfl
            (fun _ => atBudget.symm)
        · intro _
          rw [← inv.head]
          exact Bool.eq_false_iff.mpr acked

/-! ### Sending slots -/

/-- Sending leaves every slot as it was, up to its `sent` flag. -/
theorem sendSlots_window (send : ℕ → SendResult) (select stop : Packet → Bool)
    (slots : List ℕ) (window : ℕ → Packet) (j : ℕ) :
    ∃ sent, (sendSlots send select stop slots window).1 j =
      { window j with sent := sent } := by
  induction slots generalizing window with
  | nil => exact ⟨(window j).sent, rfl⟩
  | cons slot slots inductionHypothesis =>
      have updated : ∃ sent, Function.update window slot
          { window slot with sent := true } j = { window j with sent := sent } := by
        by_cases same : j = slot
        · subst same
          exact ⟨true, by rw [Function.update_self]⟩
        · exact ⟨(window j).sent, by rw [Function.update_of_ne same]⟩
      simp only [sendSlots]
      split
      · split
        · exact updated
        · obtain ⟨sent, eq⟩ := inductionHypothesis
            (Function.update window slot { window slot with sent := true })
          obtain ⟨_, eq'⟩ := updated
          exact ⟨sent, by rw [eq, eq']⟩
      · exact inductionHypothesis window

/-- The packets sent are those of the selected slots that were not lost. -/
theorem sendSlots_packets (send : ℕ → SendResult) (select stop : Packet → Bool)
    {slots : List ℕ} (nodup : slots.Nodup) (window : ℕ → Packet)
    (goesOn : ∀ j ∈ slots, stop (window j) = false) :
    (sendSlots send select stop slots window).2 =
      (slots.filter fun j => select (window j) && send j = .sent).map window := by
  induction slots generalizing window with
  | nil => rfl
  | cons slot slots inductionHypothesis =>
      rw [List.nodup_cons] at nodup
      have others : ∀ j ∈ slots, Function.update window slot
          { window slot with sent := true } j = window j := by
        intro j member
        rw [Function.update_of_ne]
        rintro rfl
        exact nodup.1 member
      simp only [sendSlots, List.filter_cons]
      split
      · rw [if_neg (by simp [goesOn slot (by simp)])]
        simp only [List.map_cons]
        rw [inductionHypothesis nodup.2 _ (by
          intro j member
          rw [others j member]
          exact goesOn j (by simp [member]))]
        congr 1
        rw [List.filter_congr (fun j member => by rw [others j member])]
        exact List.map_congr_left
          (fun j member => others j (List.mem_of_mem_filter member))
      · exact inductionHypothesis nodup.2 _
          (fun j member => goesOn j (by simp [member]))

theorem SenderWindow.sendSlots {base : ℕ} {s : Sender}
    (inv : SenderWindow cfg file base s) (send : ℕ → SendResult)
    (select stop : Packet → Bool) (slots : List ℕ) :
    SenderWindow cfg file base
      { s with window := (Spqr.sendSlots send select stop slots s.window).1 } := by
  refine inv.of_fields rfl rfl ?_ rfl rfl rfl (fun _ => rfl)
  intro g low high
  obtain ⟨sent, eq⟩ := sendSlots_window send select stop slots s.window
    (g % cfg.WINDOW_SIZE)
  simp only [eq]
  exact (inv.slot g low high).of_fields rfl rfl rfl rfl

/-! ### The initial window -/

/-- The loop that fills the window does not touch these. -/
theorem fillWindow_kept {count : ℤ} :
    ∀ {n i seqNum : ℕ} {s s' : Sender},
      fillWindow cfg count n i seqNum s = some s' →
      s'.windowSize = s.windowSize ∧ s'.i = s.i ∧
        s'.noPacketsToSend = s.noPacketsToSend ∧ s'.phase = s.phase := by
  intro n
  induction n with
  | zero =>
      intro i seqNum s s' runs
      obtain rfl := Option.some.inj runs
      exact ⟨rfl, rfl, rfl, rfl⟩
  | succ n inductionHypothesis =>
      intro i seqNum s s' runs
      simp only [fillWindow_succ] at runs
      split_ifs at runs
      · obtain rfl := Option.some.inj runs
        exact ⟨rfl, rfl, rfl, rfl⟩
      · have kept := inductionHypothesis runs
        exact kept

/-- The loop of `main_sender` loads the first chunks of the file in order.
Induction on the iterations that remain. -/
private theorem fillWindow_spec {s : Sender}
    (size : s.windowSize = min (packetCount file) cfg.WINDOW_SIZE) :
    ∀ (iterations i : ℕ) (s' : Sender), i + iterations = s.windowSize →
      s' = { s with
        window := s'.window
        unread := file.drop (PACKET_SIZE * i)
        counter := min (PACKET_SIZE * i) file.length } →
      (∀ g < i, IsChunk cfg file g (s'.window g) ∧ (s'.window g).ack = false ∧
        (s'.window g).noPacketsToSend = packetCount file) →
      ∃ window, fillWindow cfg (packetCount file) iterations i
          (i % s.windowSize) s' =
        some { s with
          window := window
          unread := file.drop (PACKET_SIZE * s.windowSize)
          counter := min (PACKET_SIZE * s.windowSize) file.length } ∧
        ∀ g < s.windowSize, IsChunk cfg file g (window g) ∧
          (window g).ack = false ∧
          (window g).noPacketsToSend = packetCount file := by
  intro iterations
  induction iterations with
  | zero =>
      intro i s' atEnd shape loaded
      rw [Nat.add_zero] at atEnd
      subst atEnd
      exact ⟨s'.window, by rw [fillWindow_zero, ← shape], loaded⟩
  | succ iterations inductionHypothesis =>
      intro i s' atEnd shape loaded
      have inside : i < packetCount file := by omega
      have length := chunk_length_pos inside
      have data : s'.unread.take PACKET_SIZE = chunk file i := by
        rw [shape, chunk]
      have slot : i % s.windowSize = i := Nat.mod_eq_of_lt (by omega)
      have position : s'.counter + (chunk file i).length = chunkEnd file i := by
        rw [shape, chunk_length, chunkEnd]
        rw [lt_packetCount] at inside
        simp only [PACKET_SIZE] at inside ⊢
        omega
      rw [fillWindow_succ, data, if_neg length.ne', if_pos (by omega), slot, position]
      have sameSize : s'.windowSize = s.windowSize := by rw [shape]
      rw [sameSize]
      apply inductionHypothesis (i + 1) _ (by omega)
      · rw [shape]
        simp only [List.drop_drop, chunkEnd]
        congr 2
      · intro g low
        by_cases current : g = i
        · subst current
          simp only [Function.update_self]
          refine ⟨⟨inside, ?_, rfl, rfl, rfl⟩, rfl, rfl⟩
          simp only [filledPacket]
          rw [Nat.mod_eq_of_lt (by omega)]
        · simp only [Function.update_of_ne current]
          exact loaded g (by omega)

/-- `main_sender` at its first `recvfrom`. -/
structure Started (cfg : Settings) (file : List UInt8) (send : ℕ → SendResult)
    (s : Sender) (packets : List Packet) : Prop where
  window : SenderWindow cfg file 0 s
  unacked : ∀ g < s.windowSize, (s.window (g % cfg.WINDOW_SIZE)).ack = false
  announced : ∀ j < s.windowSize,
    (s.window j).noPacketsToSend = packetCount file
  count : ∀ packet ∈ packets, packet.noPacketsToSend = packetCount file
  carried : ∃ chunks, chunks.Sublist (List.range s.windowSize) ∧
    Carries cfg file chunks packets ∧
    ((∀ k, send k = .sent) → chunks = List.range s.windowSize)
  phase : s.phase = .waitAck
  maxErrors : s.maxErrors = 0
  lastAckConfirmedBytes : s.lastAckConfirmedBytes = 0

/-- A file whose packet count fits an `int32_t` gives a well-formed initial
window, and `main_sender` stays inside its array. -/
theorem mainSenderStart_spec (cfg : Settings) (fits : packetCount file < 2 ^ 31)
    (send : ℕ → SendResult) :
    ∃ s packets, mainSenderStart cfg file send = some (s, packets) ∧
      Started cfg file send s packets := by
  unfold mainSenderStart
  rw [noPacketsOf_eq fits]
  generalize hStart : Sender.opened cfg file = start
  have size : start.windowSize = min (packetCount file) cfg.WINDOW_SIZE := by
    rw [← hStart, Sender.opened, noPacketsOf_eq fits]
    exact windowSizeOf_eq cfg fits
  have budget : start.noPacketsToSend = packetCount file := by
    rw [← hStart, Sender.opened, noPacketsOf_eq fits]
    exact Int.toNat_natCast _
  obtain ⟨window, filled, loaded⟩ := fillWindow_spec size start.windowSize 0 start
    (by omega) (by rw [← hStart]; simp [Sender.opened]) (by omega)
  rw [Nat.zero_mod] at filled
  simp only [filled, if_pos (size.trans_le (Nat.min_le_right _ _)),
    sendDataToReceiver]
  have slotOf : ∀ g < start.windowSize, g % cfg.WINDOW_SIZE = g := by
    intro g low
    exact Nat.mod_eq_of_lt (by omega)
  have inv : SenderWindow cfg file 0
      { start with
        window := window
        unread := file.drop (PACKET_SIZE * start.windowSize)
        counter := min (PACKET_SIZE * start.windowSize) file.length } := by
    refine ⟨size, ?_, by simp only; omega, ?_, ?_, ?_, ?_, ?_⟩
    · rw [← hStart, Nat.zero_mod]
      rfl
    · intro g _ high
      simp only [Nat.zero_add] at high ⊢
      rw [slotOf g high]
      exact (loaded g high).1
    · simp
    · simp
    · rw [← hStart]
      rfl
    · intro _
      rw [← budget]
      rfl
  have packets := sendSlots_packets send (fun packet => packet.ack == false)
    (fun packet => packet.size == 0)
    (List.nodup_range (n := start.windowSize)) window (by
      intro j member
      have genuine := (loaded j (List.mem_range.mp member)).1
      have length := chunk_length_pos genuine.inside
      simp only [genuine.size, beq_eq_false_iff_ne]
      omega)
  refine ⟨_, _, rfl, inv.sendSlots send _ _ _, ?_, ?_, ?_, ?_, ?_, ?_, ?_⟩
  · intro g low
    obtain ⟨sent, eq⟩ := sendSlots_window send
      (fun packet => packet.ack == false) (fun packet => packet.size == 0)
      (List.range start.windowSize) window (g % cfg.WINDOW_SIZE)
    simp only [eq]
    rw [slotOf g low]
    exact (loaded g low).2.1
  · intro j low
    obtain ⟨sent, eq⟩ := sendSlots_window send
      (fun packet => packet.ack == false) (fun packet => packet.size == 0)
      (List.range start.windowSize) window j
    simp only [eq]
    exact (loaded j low).2.2
  · intro packet member
    rw [packets] at member
    obtain ⟨j, selected, rfl⟩ := List.mem_map.mp member
    exact (loaded j (List.mem_range.mp (List.mem_of_mem_filter selected))).2.2
  · rw [packets]
    refine ⟨(List.range start.windowSize).filter fun j =>
      (window j).ack == false && send j = .sent, List.filter_sublist, ?_, ?_⟩
    · rw [Carries, List.forall₂_map_right_iff, List.forall₂_same]
      intro j selected
      exact (loaded j (List.mem_range.mp (List.mem_of_mem_filter selected))).1
    · intro all
      rw [List.filter_eq_self]
      intro j member
      simp [(loaded j (List.mem_range.mp member)).2.1, all]
  all_goals
    rw [← hStart]
    rfl

/-! ### One reaction -/

/-- `wait_ack` after it has taken note of an acknowledgment that does not end
the transfer. -/
def Sender.noteAck (s : Sender) (ack : AckPacket) : Sender :=
  { s with
    maxErrors := 0
    newAck := ack
    rcvTimeout := decreaseTimeout s.rcvTimeout
    lastAckConfirmedBytes := max ack.size s.lastAckConfirmedBytes }

/-- `wait_ack` after a timeout that made it resend. -/
def Sender.resend (s : Sender) (send : ℕ → SendResult) : Sender :=
  { s with
    maxErrors := s.maxErrors + 1
    window := (Spqr.sendSlots send (retransmits s.lastAckConfirmedBytes)
      (fun _ => false) (List.range s.windowSize) s.window).1
    rcvTimeout := increaseTimeout s.rcvTimeout }

namespace SenderWindow

variable {base : ℕ} {s : Sender}

/-- Every slot in use holds a chunk of the window. -/
theorem chunkAt (inv : SenderWindow cfg file base s) {j : ℕ}
    (inside : j < s.windowSize) :
    ∃ g, base ≤ g ∧ g < base + s.windowSize ∧ g % cfg.WINDOW_SIZE = j := by
  have positive := cfg.windowPos
  have size := inv.windowSize
  have within := inv.within
  by_cases full : s.windowSize = cfg.WINDOW_SIZE
  · -- the distance from the head to slot `j`, going round
    have round : (base + (j + cfg.WINDOW_SIZE - base % cfg.WINDOW_SIZE) %
        cfg.WINDOW_SIZE) % cfg.WINDOW_SIZE = j := by
      rw [Nat.add_mod_mod]
      have split := Nat.mod_add_div base cfg.WINDOW_SIZE
      have below := Nat.mod_lt base positive
      rw [show base + (j + cfg.WINDOW_SIZE - base % cfg.WINDOW_SIZE) =
        j + cfg.WINDOW_SIZE * (base / cfg.WINDOW_SIZE + 1) by
          rw [Nat.mul_add]; omega]
      rw [Nat.add_mul_mod_self_left, Nat.mod_eq_of_lt (by omega)]
    refine ⟨_, Nat.le_add_right _ _, ?_, round⟩
    have := Nat.mod_lt (j + cfg.WINDOW_SIZE - base % cfg.WINDOW_SIZE) positive
    omega
  · refine ⟨j, by omega, by omega, Nat.mod_eq_of_lt (by omega)⟩

theorem slotAt (inv : SenderWindow cfg file base s) {j : ℕ}
    (inside : j < s.windowSize) :
    ∃ g, base ≤ g ∧ g < base + s.windowSize ∧ g % cfg.WINDOW_SIZE = j ∧
      IsChunk cfg file g (s.window j) := by
  obtain ⟨g, low, high, rfl⟩ := inv.chunkAt inside
  exact ⟨g, low, high, rfl, inv.slot g low high⟩

/-- The invariant is about the window, not about the phase. -/
theorem of_window {s' : Sender} (inv : SenderWindow cfg file base s)
    (same : s'.window = s.window ∧ s'.windowSize = s.windowSize ∧ s'.i = s.i ∧
      s'.unread = s.unread ∧ s'.counter = s.counter ∧
      s'.sizeFile = s.sizeFile ∧ s'.noPacketsToSend = s.noPacketsToSend) :
    SenderWindow cfg file base s' := by
  obtain ⟨window, size, head, unread, counter, sizeFile, budget⟩ := same
  exact inv.of_fields size head (window ▸ inv.slot) unread counter sizeFile
    (fun _ => budget)

/-- Everything `wait_ack` can do with an acknowledgment whose slot lies in the
window array. -/
theorem waitAck_cases (inv : SenderWindow cfg file base s) {ack : AckPacket}
    (inside : ¬ ack.ends s.sizeFile →
      0 ≤ ack.seqNum ∧ ack.seqNum < cfg.WINDOW_SIZE)
    {n : ℤ} (received : n ≠ 0) (send : ℕ → SendResult) :
    (ack.ends s.sizeFile ∧ waitAck cfg send n s ack =
      some ({ s with maxErrors := 0, newAck := ack, phase := .drain 0 }, [])) ∨
    (¬ ack.ends s.sizeFile ∧ (s.window ack.seqNum.toNat).ack = true ∧
      waitAck cfg send n s ack = some (s.noteAck ack, [])) ∨
    (¬ ack.ends s.sizeFile ∧ (s.window ack.seqNum.toNat).ack = false ∧
      ∃ s' packets base', waitAck cfg send n s ack = some (s', packets) ∧
        Refilled cfg file base base' send
          ((s.noteAck ack).mark ack.seqNum.toNat) s' packets) := by
  by_cases ends : ack.ends s.sizeFile
  · exact .inl ⟨ends, by simp [waitAck_eq, ends]⟩
  · obtain ⟨nonneg, bound⟩ := inside ends
    have defined : ¬ (ack.seqNum < 0 ∨ (cfg.WINDOW_SIZE : ℤ) ≤ ack.seqNum) := by
      omega
    by_cases acked : (s.window ack.seqNum.toNat).ack = true
    · refine .inr (.inl ⟨ends, acked, ?_⟩)
      simp [waitAck_eq, ends, defined, acked, Sender.noteAck]
    · refine .inr (.inr ⟨ends, Bool.eq_false_iff.mpr acked, ?_⟩)
      have noted : SenderWindow cfg file base (s.noteAck ack) :=
        inv.of_window ⟨rfl, rfl, rfl, rfl, rfl, rfl, rfl⟩
      obtain ⟨s', packets, base', runs, refilled⟩ :=
        refill_spec send _ 0 n base _ received rfl
          (noted.mark ack.seqNum.toNat)
      refine ⟨s', packets, base', ?_, by simpa using refilled⟩
      rw [← runs]
      simp [waitAck_eq, ends, defined, acked, Sender.noteAck, Sender.mark]

/-- Everything a timeout in `wait_ack` can do. -/
theorem waitAckTimeout_cases (inv : SenderWindow cfg file base s)
    (send : ℕ → SendResult) :
    (MAX_ERRORS ≤ s.maxErrors + 1 ∧ waitAckTimeout cfg send s =
      some ({ s with maxErrors := s.maxErrors + 1, phase := .drain 0 }, [])) ∨
    (s.maxErrors + 1 < MAX_ERRORS ∧
      waitAckTimeout cfg send s = some (s.resend send,
        ((List.range s.windowSize).filter fun j =>
          retransmits s.lastAckConfirmedBytes (s.window j) &&
            send j = .sent).map s.window)) := by
  by_cases last : MAX_ERRORS ≤ s.maxErrors + 1
  · exact .inl ⟨last, by simp [waitAckTimeout, last]⟩
  · refine .inr ⟨Nat.not_le.mp last, ?_⟩
    rw [waitAckTimeout]
    simp only [if_neg last, if_pos inv.windowSize_le]
    rw [sendSlots_packets send _ _ List.nodup_range s.window (fun _ _ => rfl)]
    rfl

theorem resend (inv : SenderWindow cfg file base s) (send : ℕ → SendResult) :
    SenderWindow cfg file base (s.resend send) :=
  (inv.sendSlots send (retransmits s.lastAckConfirmedBytes)
    (fun _ => false) (List.range s.windowSize)).of_window
    ⟨rfl, rfl, rfl, rfl, rfl, rfl, rfl⟩

end SenderWindow

theorem Sender.resend_window (s : Sender) (send : ℕ → SendResult) (j : ℕ) :
    ∃ sent, (s.resend send).window j = { s.window j with sent := sent } :=
  sendSlots_window send _ _ _ _ j

end Spqr
