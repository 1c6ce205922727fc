/-
Module: Spqr.Loading
Purpose: `main_sender` and `wait_ack` with a log of the packets that they load from
  the file, and for which file sizes the window is what it should be.
Trusted boundary: none
Main exports:
  refillLog, waitAckLog, Loading, Outcome, Loading.react, WindowHolds,
  sender_window_invariant, ExactCounts, packet_arithmetic_exact_iff
-/
import Spqr.SenderWindow
import Spqr.Lib.Runs

namespace Spqr

open Labelled

variable {cfg : Settings} {file : List UInt8}

/-! ### A log of what is loaded -/

/-- The refill loop, with the packets that it puts into the window, sent or not. -/
def refillLog : Settings → (ℕ → SendResult) → ℕ → ℤ → ℕ → Sender →
    Option (Sender × List Packet) :=
  refillWith fun _ packet => [packet]

/-- `wait_ack`, with the packets that it loads. -/
def waitAckLog : Settings → (ℕ → SendResult) → ℤ → Sender → AckPacket →
    Option (Sender × List Packet) :=
  waitAckWith fun _ packet => [packet]

theorem refillLog_succ (send : ℕ → SendResult) (k : ℕ) (n : ℤ) (budget : ℕ)
    (s : Sender) :
    refillLog cfg send k n (budget + 1) s =
      if s.i < cfg.WINDOW_SIZE then
        if (s.window s.i).ack then
          if (s.unread.take PACKET_SIZE).length = 0 then
            some ({ s with noPacketsToSend := budget }, [])
          else
            let packet := s.nextPacket budget
            let n := (send k).value n
            if packet.size = 0 ∨ n = 0 then some (s.load budget (send k), [packet])
            else
              (refillLog cfg send (k + 1) n budget (s.load budget (send k)).advance).map
                fun (last, later) => (last, packet :: later)
        else some ({ s with noPacketsToSend := budget + 1 }, [])
      else none := by
  rw [refillLog, refillWith]
  dsimp only
  cases refillWith (fun _ packet => [packet]) cfg send (k + 1) ((send k).value n) budget
    (s.load budget (send k)).advance <;> rfl

theorem waitAckLog_eq (send : ℕ → SendResult) (n : ℤ) (s : Sender) (ack : AckPacket) :
    waitAckLog cfg send n s ack =
      if ack.ends s.sizeFile then
        some ({ s with maxErrors := 0, newAck := ack, phase := .drain 0 }, [])
      else if ack.seqNum < 0 ∨ (cfg.WINDOW_SIZE : ℤ) ≤ ack.seqNum then none
      else if (s.window ack.seqNum.toNat).ack then some (s.noteAck ack, [])
      else
        refillLog cfg send 0 n s.noPacketsToSend ((s.noteAck ack).mark ack.seqNum.toNat) :=
  rfl

/-- What is logged changes nothing else. Induction on the budget. -/
theorem refillWith_fst (log log' : SendResult → Packet → List Packet)
    (send : ℕ → SendResult) (k : ℕ) (n : ℤ) (budget : ℕ) (s : Sender) :
    (refillWith log cfg send k n budget s).map Prod.fst =
      (refillWith log' cfg send k n budget s).map Prod.fst := by
  induction budget generalizing k n s with
  | zero => rfl
  | succ budget ih =>
      rw [refillWith, refillWith]
      dsimp only
      split_ifs
      · rfl
      · rfl
      · have rest := ih (k + 1) ((send k).value n) (s.load budget (send k)).advance
        revert rest
        cases refillWith log cfg send (k + 1) ((send k).value n) budget
            (s.load budget (send k)).advance <;>
          cases refillWith log' cfg send (k + 1) ((send k).value n) budget
            (s.load budget (send k)).advance <;>
          exact id
      · rfl
      · rfl

theorem waitAckWith_fst (log log' : SendResult → Packet → List Packet)
    (send : ℕ → SendResult) (n : ℤ) (s : Sender) (ack : AckPacket) :
    (waitAckWith log cfg send n s ack).map Prod.fst =
      (waitAckWith log' cfg send n s ack).map Prod.fst := by
  simp only [waitAckWith]
  split_ifs
  · rfl
  · rfl
  · rfl
  · exact refillWith_fst log log' send 0 n s.noPacketsToSend _

/-! ### Runs of the sender alone -/

/-- The sender, and all packets that it has loaded, in order. -/
structure Loading where
  sender : Sender
  loaded : List Packet

/-- `main_sender` up to its first `recvfrom`. -/
def Loading.start (cfg : Settings) (file : List UInt8) (send : ℕ → SendResult) :
    Option Loading :=
  let s := Sender.opened cfg file
  match fillWindowLog cfg (noPacketsOf file.length) s.windowSize 0 0 s with
  | none => none
  | some (s, loaded) =>
      if s.windowSize ≤ cfg.WINDOW_SIZE then
        some ⟨{ s with window := (sendDataToReceiver send s.windowSize s.window).1 },
          loaded⟩
      else none

/-- What `recvfrom` of `wait_ack` returns, and what becomes of the packets sent. -/
inductive Outcome where
  | timeout (send : ℕ → SendResult)
  | ack (send : ℕ → SendResult) (newAck : AckPacket)

/-- `wait_ack` up to its next `recvfrom` or its return. -/
def Loading.react (cfg : Settings) (l : Loading) : Outcome → Option Loading
  | .timeout send =>
      (waitAckTimeout cfg send l.sender).map fun (s, _) => ⟨s, l.loaded⟩
  | .ack send newAck =>
      (waitAckLog cfg send sizeofAckPacket l.sender newAck).map fun (s, more) =>
        ⟨s, l.loaded ++ more⟩

/-- `wait_ack` takes these outcomes, until it returns. -/
def Loading.reactAll (cfg : Settings) (l : Loading) (outcomes : List Outcome) :
    Option Loading :=
  feed (Loading.react cfg) (fun l => l.sender.phase != .waitAck) l outcomes

theorem Loading.start_sender (send : ℕ → SendResult) :
    (Loading.start cfg file send).map Loading.sender =
      (mainSenderStart cfg file send).map Prod.fst := by
  unfold start mainSenderStart
  dsimp only
  rw [fillWindow]
  cases fillWindowLog cfg (noPacketsOf file.length) (Sender.opened cfg file).windowSize 0
      0 (Sender.opened cfg file) with
  | none => rfl
  | some filled =>
      simp only [Option.map_some]
      split_ifs <;> rfl

theorem Loading.react_sender (l : Loading) (outcome : Outcome) :
    (l.react cfg outcome).map Loading.sender =
      match outcome with
      | .timeout send => (waitAckTimeout cfg send l.sender).map Prod.fst
      | .ack send newAck =>
          (waitAck cfg send sizeofAckPacket l.sender newAck).map Prod.fst := by
  cases outcome with
  | timeout send =>
      rw [react, Option.map_map]
      rfl
  | ack send newAck =>
      rw [react, Option.map_map]
      exact waitAckWith_fst _ _ send sizeofAckPacket l.sender newAck

/-! ### What is loaded -/

/-- The loop of `main_sender` loads the first chunks in order. Induction on the
iterations that remain. -/
theorem fillWindowLog_loaded :
    ∀ (iterations i : ℕ) (s : Sender), i + iterations = s.windowSize →
      s.windowSize ≤ packetCount file → s.windowSize ≤ cfg.WINDOW_SIZE →
      s.unread = file.drop (PACKET_SIZE * i) →
      s.counter = min (PACKET_SIZE * i) file.length →
      ∃ last loaded,
        fillWindowLog cfg (packetCount file) iterations i (i % s.windowSize) s =
          some (last, loaded) ∧
        Carries cfg file (List.range' i iterations) loaded := by
  intro iterations
  induction iterations with
  | zero =>
      intro i s _ _ _ _ _
      exact ⟨s, [], rfl, .nil⟩
  | succ iterations ih =>
      intro i s atEnd within fits unread counter
      have inside : i < packetCount file := by omega
      have length := chunk_length_pos inside
      have data : s.unread.take PACKET_SIZE = chunk file i := by
        rw [unread, chunk]
      have slot : i % s.windowSize = i := Nat.mod_eq_of_lt (by omega)
      have position : s.counter + (chunk file i).length = chunkEnd file i := by
        rw [counter, chunk_length, chunkEnd]
        rw [lt_packetCount] at inside
        simp only [PACKET_SIZE] at inside ⊢
        omega
      have genuine : IsChunk cfg file i
          (filledPacket (chunk file i) i (packetCount file) (chunkEnd file i)) := by
        refine ⟨inside, ?_, rfl, rfl, rfl⟩
        simp only [filledPacket]
        rw [Nat.mod_eq_of_lt (by omega)]
      rw [fillWindowLog, data, if_neg length.ne', if_pos (by omega), slot, position]
      obtain ⟨last, later, runs, carries⟩ := ih (i + 1)
        { s with
          unread := s.unread.drop PACKET_SIZE
          counter := chunkEnd file i
          window := Function.update s.window i
            (filledPacket (chunk file i) i (packetCount file) (chunkEnd file i)) }
        (by simp only; omega) within fits
        (by simp only [unread, List.drop_drop]; rfl)
        (by simp only [chunkEnd])
      refine ⟨last, _ :: later, by simp only [runs]; rfl, ?_⟩
      rw [List.range'_succ]
      exact .cons genuine carries

/-- So does the refill loop, and it stops at an unacknowledged slot or at the end of
the file only. Induction on the budget, which each round lowers. -/
theorem refillLog_spec (send : ℕ → SendResult) :
    ∀ (budget k : ℕ) (n : ℤ) (base : ℕ) (s : Sender), n ≠ 0 →
      s.noPacketsToSend = budget → SenderWindow cfg file base s →
      ∃ s' loaded base', refillLog cfg send k n budget s = some (s', loaded) ∧
        SenderWindow cfg file base' s' ∧ base ≤ base' ∧
        Carries cfg file (List.range' (base + s.windowSize) (base' - base)) loaded ∧
        (base' + s.windowSize < packetCount file →
          (s'.window (base' % cfg.WINDOW_SIZE)).ack = false) := by
  intro budget
  induction budget with
  | zero =>
      intro k n base s _ atBudget inv
      have atEnd : ¬ base + s.windowSize < packetCount file := by
        intro more
        have := inv.budget more
        have := inv.windowSize
        omega
      refine ⟨_, [], base, rfl, ?_, le_rfl, by simp, fun more => absurd more atEnd⟩
      exact inv.of_fields rfl rfl inv.slot rfl rfl rfl fun more => absurd more atEnd
  | succ budget ih =>
      intro k n base s nonzero atBudget inv
      rw [refillLog_succ, if_pos inv.head_lt]
      by_cases acked : (s.window s.i).ack = true
      · rw [if_pos acked, inv.take_unread]
        by_cases more : base + s.windowSize < packetCount file
        · have genuine := inv.nextPacket more budget
          have length := chunk_length_pos more
          have sizeNe : (s.nextPacket budget).size ≠ 0 := by
            rw [genuine.size]
            omega
          have nextNonzero := SendResult.value_ne_zero nonzero (send k)
          obtain ⟨s', loaded, base', runs, window, later, carries, stops⟩ :=
            ih (k + 1) _ (base + 1) _ nextNonzero rfl (inv.advance atBudget more (send k))
          have size : (s.load budget (send k)).advance.windowSize = s.windowSize := rfl
          rw [size] at carries stops
          rw [if_neg length.ne', if_neg (by simp [sizeNe, nextNonzero])]
          refine ⟨s', s.nextPacket budget :: loaded, base', by simp only [runs]; rfl,
            window, by omega, ?_, stops⟩
          have range : List.range' (base + s.windowSize) (base' - base) =
              (base + s.windowSize) ::
                List.range' (base + 1 + s.windowSize) (base' - (base + 1)) := by
            rw [show base' - base = (base' - (base + 1)) + 1 by omega,
              List.range'_succ, Nat.add_right_comm]
          rw [range]
          exact .cons genuine carries
        · rw [if_pos (by rw [chunk_eq_nil (Nat.not_lt.mp more)]; rfl)]
          refine ⟨_, [], base, rfl, ?_, le_rfl, by simp, fun more' => absurd more' more⟩
          exact inv.of_fields rfl rfl inv.slot rfl rfl rfl fun more' => absurd more' more
      · rw [if_neg acked]
        refine ⟨_, [], base, rfl, ?_, le_rfl, by simp, fun _ => ?_⟩
        · exact inv.of_fields rfl rfl inv.slot rfl rfl rfl fun _ => atBudget.symm
        · rw [← inv.head]
          exact Bool.eq_false_iff.mpr acked

/-! ### The invariant -/

/-- The window at `base`, with everything before its end loaded. -/
structure Loads (cfg : Settings) (file : List UInt8) (base : ℕ) (l : Loading) :
    Prop where
  window : SenderWindow cfg file base l.sender
  loaded : Carries cfg file (List.range (base + l.sender.windowSize)) l.loaded
  /-- The refill stopped at the head of the window, or at the end of the file. -/
  stopped : base + l.sender.windowSize < packetCount file →
    (l.sender.window (base % cfg.WINDOW_SIZE)).ack = false

theorem Loads.start (cfg : Settings) (fits : packetCount file < 2 ^ 31)
    (send : ℕ → SendResult) :
    ∃ l, Loading.start cfg file send = some l ∧ Loads cfg file 0 l ∧
      l.sender.phase = .waitAck := by
  obtain ⟨s, packets, runs, started⟩ := mainSenderStart_spec cfg fits send
  have size : (Sender.opened cfg file).windowSize =
      min (packetCount file) cfg.WINDOW_SIZE := by
    rw [Sender.opened, noPacketsOf_eq fits]
    exact windowSizeOf_eq cfg fits
  obtain ⟨last, loaded, log, carries⟩ := @fillWindowLog_loaded cfg file
    (Sender.opened cfg file).windowSize 0 (Sender.opened cfg file) (Nat.zero_add _)
    (by omega) (by omega) (by simp [Sender.opened]) (by simp [Sender.opened])
  rw [Nat.zero_mod] at log
  have same : (Loading.start cfg file send).map Loading.sender = some s := by
    rw [Loading.start_sender, runs]
    rfl
  obtain ⟨l, begun, rfl⟩ := Option.map_eq_some_iff.mp same
  have all : l.loaded = loaded := by
    unfold Loading.start at begun
    dsimp only at begun
    rw [noPacketsOf_eq fits, log] at begun
    dsimp only at begun
    split_ifs at begun
    obtain rfl := Option.some.inj begun
    rfl
  refine ⟨l, begun, ⟨started.window, ?_, fun more => ?_⟩, started.phase⟩
  · rw [all, started.window.windowSize, ← size, Nat.zero_add, List.range_eq_range']
    exact carries
  · have full := started.window.windowSize_eq more
    exact started.unacked 0 (by rw [full]; exact cfg.windowPos)

/-- A timeout, or an acknowledgment on which `wait_ack` returns or that names a slot of
the window. -/
def Outcome.Named (cfg : Settings) (file : List UInt8) : Outcome → Prop
  | .timeout _ => True
  | .ack _ newAck =>
      newAck.ends file.length ∨
        0 ≤ newAck.seqNum ∧
          newAck.seqNum < (min (packetCount file) cfg.WINDOW_SIZE : ℕ)

/-- A timeout, or an acknowledgment of a slot of the window with a position inside the
file. -/
def Outcome.Regular (cfg : Settings) (file : List UInt8) : Outcome → Prop
  | .timeout _ => True
  | .ack _ newAck =>
      0 ≤ newAck.seqNum ∧
        newAck.seqNum < (min (packetCount file) cfg.WINDOW_SIZE : ℕ) ∧
          0 ≤ newAck.writeByte ∧ newAck.writeByte ≤ file.length

theorem Outcome.Regular.named {outcome : Outcome} (regular : outcome.Regular cfg file) :
    outcome.Named cfg file := by
  cases outcome with
  | timeout send => trivial
  | ack send newAck => exact .inr ⟨regular.1, regular.2.1⟩

/-- One outcome is defined and keeps the invariant. -/
theorem Loads.react {base : ℕ} {l : Loading} (inv : Loads cfg file base l)
    {outcome : Outcome} (named : outcome.Named cfg file) :
    ∃ l' base', l.react cfg outcome = some l' ∧ Loads cfg file base' l' := by
  cases outcome with
  | timeout send =>
      rcases inv.window.waitAckTimeout_cases send with ⟨_, gaveUp⟩ | ⟨_, resent⟩
      · rw [Loading.react, gaveUp]
        refine ⟨_, base, rfl, ?_, inv.loaded, inv.stopped⟩
        exact inv.window.of_window ⟨rfl, rfl, rfl, rfl, rfl, rfl, rfl⟩
      · rw [Loading.react, resent]
        refine ⟨_, base, rfl, inv.window.resend send, inv.loaded, fun more => ?_⟩
        obtain ⟨sent, slot⟩ := l.sender.resend_window send (base % cfg.WINDOW_SIZE)
        show ((l.sender.resend send).window (base % cfg.WINDOW_SIZE)).ack = false
        rw [slot]
        exact inv.stopped more
  | ack send newAck =>
      have loaded : Carries cfg file (List.range (base + l.sender.windowSize))
          (l.loaded ++ []) := by
        rw [List.append_nil]
        exact inv.loaded
      have named' : newAck.ends l.sender.sizeFile ∨ 0 ≤ newAck.seqNum ∧
          newAck.seqNum < (min (packetCount file) cfg.WINDOW_SIZE : ℕ) := by
        rw [inv.window.sizeFile]
        exact named
      rw [Loading.react, waitAckLog_eq]
      by_cases ends : newAck.ends l.sender.sizeFile
      · rw [if_pos ends]
        refine ⟨_, base, rfl, ?_, loaded, inv.stopped⟩
        exact inv.window.of_window ⟨rfl, rfl, rfl, rfl, rfl, rfl, rfl⟩
      · obtain ⟨above, inside⟩ := named'.resolve_left ends
        have slot : ¬ (newAck.seqNum < 0 ∨ (cfg.WINDOW_SIZE : ℤ) ≤ newAck.seqNum) := by
          omega
        have noted : SenderWindow cfg file base (l.sender.noteAck newAck) :=
          inv.window.of_window ⟨rfl, rfl, rfl, rfl, rfl, rfl, rfl⟩
        rw [if_neg ends, if_neg slot]
        split_ifs
        · exact ⟨_, base, rfl, noted, loaded, inv.stopped⟩
        · obtain ⟨s', more, base', runs, window, later, carries, stops⟩ :=
            refillLog_spec send l.sender.noPacketsToSend 0 sizeofAckPacket base
              ((l.sender.noteAck newAck).mark newAck.seqNum.toNat) (by decide) rfl
              (noted.mark newAck.seqNum.toNat)
          have size : s'.windowSize = l.sender.windowSize :=
            window.windowSize.trans inv.window.windowSize.symm
          have joined : base + l.sender.windowSize + (base' - base) =
              base' + s'.windowSize := by
            omega
          rw [runs]
          refine ⟨⟨s', l.loaded ++ more⟩, base', rfl, window, ?_, ?_⟩
          · show Carries cfg file (List.range (base' + s'.windowSize)) (l.loaded ++ more)
            rw [← joined, List.range_eq_range', ← List.range'_append_1, Nat.zero_add,
              ← List.range_eq_range']
            exact List.rel_append inv.loaded carries
          · show base' + s'.windowSize < packetCount file → _
            rw [size]
            exact stops

/-- Any number of outcomes. -/
theorem Loads.reactAll {base : ℕ} {l : Loading} (inv : Loads cfg file base l)
    {outcomes : List Outcome} (named : ∀ outcome ∈ outcomes, outcome.Named cfg file) :
    ∃ l' base', l.reactAll cfg outcomes = some l' ∧ Loads cfg file base' l' := by
  induction outcomes generalizing base l with
  | nil => exact ⟨l, base, rfl, inv⟩
  | cons outcome outcomes ih =>
      rw [Loading.reactAll, feed]
      split_ifs
      · exact ⟨l, base, rfl, inv⟩
      · obtain ⟨next, base', reacts, inv'⟩ := inv.react (named outcome List.mem_cons_self)
        rw [reacts, Option.bind_some]
        exact ih inv' fun other member => named other (List.mem_cons_of_mem _ member)

/-! ### In terms of `window_size` -/

/-- The state between two `recvfrom` of `wait_ack`, with the window at `base`. -/
structure WindowHolds (cfg : Settings) (file : List UInt8) (base : ℕ) (l : Loading) :
    Prop where
  size : l.sender.windowSize = min (packetCount file) cfg.WINDOW_SIZE
  head : l.sender.i = base % l.sender.windowSize
  within : base + l.sender.windowSize ≤ packetCount file
  slot : ∀ j < l.sender.windowSize,
    ∃ g, base ≤ g ∧ g < base + l.sender.windowSize ∧ g % l.sender.windowSize = j ∧
      (l.sender.window j).seqNum = j ∧
      (l.sender.window j).payload = padded (chunk file g) ∧
      (l.sender.window j).size = (chunk file g).length ∧
      (l.sender.window j).noBytesToSend = min (PACKET_SIZE * (g + 1)) file.length
  counter : l.sender.counter =
    min (PACKET_SIZE * (base + l.sender.windowSize)) file.length
  /-- Each chunk up to the end of the window has been loaded once, in order. -/
  loaded : Carries cfg file (List.range (base + l.sender.windowSize)) l.loaded
  /-- While there is something left to read, the refill stops only at a slot that is
  not acknowledged, with a budget left. -/
  stopped : l.sender.unread ≠ [] →
    (l.sender.window l.sender.i).ack = false ∧ 0 < l.sender.noPacketsToSend

theorem Loads.windowHolds {base : ℕ} {l : Loading} (inv : Loads cfg file base l) :
    WindowHolds cfg file base l := by
  have size := inv.window.windowSize
  have within := inv.window.within
  -- a file that is shorter than the window stays in it as it was loaded
  have residue (g : ℕ) (low : base ≤ g) (high : g < base + l.sender.windowSize) :
      g % cfg.WINDOW_SIZE = g % l.sender.windowSize := by
    by_cases full : l.sender.windowSize = cfg.WINDOW_SIZE
    · rw [full]
    · rw [Nat.mod_eq_of_lt (by omega), Nat.mod_eq_of_lt (by omega)]
  refine ⟨size, ?_, within, fun j inside => ?_, inv.window.counter, inv.loaded,
    fun left => ?_⟩
  · rw [inv.window.head]
    by_cases full : l.sender.windowSize = cfg.WINDOW_SIZE
    · rw [full]
    · have first : base = 0 := by omega
      rw [first, Nat.zero_mod, Nat.zero_mod]
  · obtain ⟨g, low, high, at_, genuine⟩ := inv.window.slotAt inside
    refine ⟨g, low, high, (residue g low high).symm.trans at_, ?_, genuine.payload,
      genuine.size, genuine.noBytesToSend⟩
    rw [genuine.seqNum, at_]
  · have more : base + l.sender.windowSize < packetCount file := by
      rw [lt_packetCount]
      by_contra all
      rw [inv.window.unread, List.drop_eq_nil_of_le (Nat.not_lt.mp all)] at left
      exact left rfl
    have budget := inv.window.budget more
    rw [inv.window.head]
    exact ⟨inv.stopped more, by omega⟩

/-- For every sequence of timeouts and acknowledgments of slots in the window,
`main_sender` and `wait_ack` stay inside the array, and between two `recvfrom` the
window holds a range of chunks that begins at some `base`. -/
theorem sender_window_invariant (cfg : Settings) (fits : packetCount file < 2 ^ 31)
    (send : ℕ → SendResult) {outcomes : List Outcome}
    (regular : ∀ outcome ∈ outcomes, outcome.Regular cfg file) :
    ∃ first last base, Loading.start cfg file send = some first ∧
      first.reactAll cfg outcomes = some last ∧ WindowHolds cfg file base last := by
  obtain ⟨first, begins, inv, _⟩ := Loads.start cfg fits send
  obtain ⟨last, base, reacts, inv'⟩ :=
    inv.reactAll fun outcome member => (regular outcome member).named
  exact ⟨first, last, base, begins, reacts, inv'.windowHolds⟩

/-- Four packets through a window of two slots: the second is confirmed first, a
timeout sends the first again, and its acknowledgment loads both slots anew; the
position of the last acknowledgment is an old one. -/
def twoRounds : List Outcome :=
  [.ack (fun _ => .sent) ⟨1, 0, 1500⟩, .timeout fun _ => .dropped,
    .ack (fun _ => .failed) ⟨0, 3000, 1500⟩, .ack (fun _ => .sent) ⟨1, 0, 1500⟩]

theorem sender_window_invariant_twoRounds :
    ∃ first last base,
      Loading.start narrow fourPackets (fun _ => .sent) = some first ∧
      first.reactAll narrow twoRounds = some last ∧ last.loaded.length = 4 ∧
      WindowHolds narrow fourPackets base last := by
  have regular : ∀ outcome ∈ twoRounds, outcome.Regular narrow fourPackets := by
    intro outcome member
    rw [Outcome.Regular.eq_def, packetCount_fourPackets, length_fourPackets]
    rw [twoRounds] at member
    fin_cases member <;> decide
  have computed : ((Loading.start narrow fourPackets fun _ => .sent).bind fun first =>
      first.reactAll narrow twoRounds).map (fun last => last.loaded.length) = some 4 := by
    decide +kernel
  obtain ⟨first, last, base, begins, reacts, holds⟩ :=
    sender_window_invariant narrow fourPackets_fits (fun _ => .sent) regular
  rw [begins, Option.bind_some, reacts] at computed
  exact ⟨first, last, base, begins, reacts, Option.some.inj computed, holds⟩

/-! ### File sizes -/

/-- `no_packets_to_send` and `window_size` are what they should be, and no loop of
`main_sender` or `wait_ack` leaves the window. -/
structure ExactCounts (cfg : Settings) (file : List UInt8) : Prop where
  packets : noPacketsOf file.length = packetCount file
  window : windowSizeOf cfg (noPacketsOf file.length) =
    min (packetCount file) cfg.WINDOW_SIZE
  inside : ∀ send outcomes, (∀ outcome ∈ outcomes, outcome.Named cfg file) →
    ∃ first last, Loading.start cfg file send = some first ∧
      first.reactAll cfg outcomes = some last

/-- The arithmetic is exact for exactly the files whose number of packets fits an
`int32_t`. -/
theorem packet_arithmetic_exact_iff (cfg : Settings) (file : List UInt8) :
    ExactCounts cfg file ↔ (file.length + (PACKET_SIZE - 1)) / PACKET_SIZE < 2 ^ 31 := by
  constructor
  · rintro ⟨packets, -, -⟩
    have range : noPacketsOf file.length < (2 ^ 32 + 1) / 2 := Int.bmod_lt (by norm_num)
    rw [packets] at range
    show packetCount file < 2 ^ 31
    omega
  · intro fits
    refine ⟨noPacketsOf_eq fits, ?_, fun send outcomes named => ?_⟩
    · rw [noPacketsOf_eq fits]
      exact windowSizeOf_eq cfg fits
    · obtain ⟨first, begins, inv, _⟩ := Loads.start cfg fits send
      obtain ⟨last, base, reacts, _⟩ := inv.reactAll named
      exact ⟨first, last, begins, reacts⟩

/-- A window that is larger than the array is filled beyond its end. Induction on the
slots that are still inside. -/
theorem fillWindow_outside {noPacketsToSend : ℤ} :
    ∀ (inside i iterations seqNum : ℕ) (s : Sender), i + inside = cfg.WINDOW_SIZE →
      inside < iterations → PACKET_SIZE * inside < s.unread.length →
      fillWindow cfg noPacketsToSend iterations i seqNum s = none := by
  intro inside
  induction inside with
  | zero =>
      intro i iterations seqNum s atEnd enough long
      obtain ⟨iterations, rfl⟩ := Nat.exists_eq_add_of_lt enough
      have data : (s.unread.take PACKET_SIZE).length ≠ 0 := by
        simp only [List.length_take, PACKET_SIZE] at long ⊢
        omega
      rw [Nat.zero_add, fillWindow_succ, if_neg data, if_neg (by omega)]
  | succ inside ih =>
      intro i iterations seqNum s atEnd enough long
      obtain ⟨iterations, rfl⟩ : ∃ rest, iterations = rest + 1 := ⟨iterations - 1, by omega⟩
      have data : (s.unread.take PACKET_SIZE).length ≠ 0 := by
        simp only [List.length_take, PACKET_SIZE] at long ⊢
        omega
      rw [fillWindow_succ, if_neg data, if_pos (by omega)]
      apply ih (i + 1) iterations _ _ (by omega) (by omega)
      simp only [List.length_drop, PACKET_SIZE] at long ⊢
      omega

/-- Then `main_sender` has no defined state at its first `recvfrom`. -/
theorem start_outside {noPacketsToSend : ℤ} (send : ℕ → SendResult)
    (count : noPacketsOf file.length = noPacketsToSend)
    (window : cfg.WINDOW_SIZE < windowSizeOf cfg noPacketsToSend)
    (long : PACKET_SIZE * cfg.WINDOW_SIZE < file.length) :
    Loading.start cfg file send = none := by
  have size : (Sender.opened cfg file).windowSize = windowSizeOf cfg noPacketsToSend := by
    rw [Sender.opened, count]
  have log := @fillWindow_outside cfg noPacketsToSend cfg.WINDOW_SIZE 0 _ 0
    (Sender.opened cfg file) (Nat.zero_add _) window long
  rw [fillWindow, Option.map_eq_none_iff] at log
  unfold Loading.start
  simp only [count, size, log]

/-- `2 ^ 31` packets: the count is negative, `window_size` is `2 ^ 31`, and the window
is filled beyond its end. -/
theorem packet_count_overflows :
    noPacketsOf (PACKET_SIZE * 2 ^ 31) = -2 ^ 31 ∧
      windowSizeOf settings (-2 ^ 31) = 2 ^ 31 ∧
      ∀ file : List UInt8, file.length = PACKET_SIZE * 2 ^ 31 →
        Loading.start settings file (fun _ => .sent) = none := by
  have count : noPacketsOf (PACKET_SIZE * 2 ^ 31) = -2 ^ 31 := by decide +kernel
  have window : windowSizeOf settings (-2 ^ 31) = 2 ^ 31 := by decide +kernel
  refine ⟨count, window, fun file length => ?_⟩
  rw [← length] at count
  apply start_outside _ count
  · rw [window]
    decide
  · rw [length]
    decide

end Spqr
