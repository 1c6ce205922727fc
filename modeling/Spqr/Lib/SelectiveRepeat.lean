/-
Module: Spqr.Lib.SelectiveRepeat
Purpose: Selective repeat with sequence numbers that never wrap: numbered items, a
  window at the sender, a channel that loses, repeats and reorders.
Trusted boundary: none
Main exports:
  State, Event, Step, State.initial, Sound, Sound.reaches, Sound.buffered, Sound.residues,
  run_send, run_answer, run_slide, run_deliver
-/
import Mathlib.Data.Multiset.AddSub
import Mathlib.Data.Set.Insert
import Spqr.Lib.Residues
import Spqr.Lib.Simulation

namespace SelectiveRepeat

open Labelled

/-- Both ends and the channels between them. Items are known by their position in what
is sent. -/
structure State where
  /-- the first item of the sender's window -/
  base : ℕ
  /-- what the sender knows to have arrived -/
  acked : Set ℕ
  /-- what the receiver has, handed over or not -/
  has : Set ℕ
  /-- how many items it has handed over -/
  delivered : ℕ
  data : Multiset ℕ
  acks : Multiset ℕ

inductive Event where
  | send (item : ℕ)
  | slide
  | arrive (item : ℕ)
  | deliver
  | answer (item : ℕ)
  | confirm (item : ℕ)
  | loseData (item : ℕ)
  | loseAck (item : ℕ)
  | repeatData (item : ℕ)
  | repeatAck (item : ℕ)

/-- `count` items are sent through a window of `width`. -/
inductive Step (count width : ℕ) : State → Event → State → Prop where
  | send {s : State} {item : ℕ} (low : s.base ≤ item) (high : item < s.base + width)
      (inside : item < count) :
      Step count width s (.send item) { s with data := item ::ₘ s.data }
  | slide {s : State} (acked : s.base ∈ s.acked) :
      Step count width s .slide { s with base := s.base + 1 }
  | arrive {s : State} {item : ℕ} (there : item ∈ s.data) :
      Step count width s (.arrive item)
        { s with data := s.data.erase item, has := insert item s.has }
  | deliver {s : State} (next : s.delivered ∈ s.has) :
      Step count width s .deliver { s with delivered := s.delivered + 1 }
  | answer {s : State} {item : ℕ} (has : item ∈ s.has) :
      Step count width s (.answer item) { s with acks := item ::ₘ s.acks }
  | confirm {s : State} {item : ℕ} (there : item ∈ s.acks) :
      Step count width s (.confirm item)
        { s with acks := s.acks.erase item, acked := insert item s.acked }
  | loseData {s : State} {item : ℕ} :
      Step count width s (.loseData item) { s with data := s.data.erase item }
  | loseAck {s : State} {item : ℕ} :
      Step count width s (.loseAck item) { s with acks := s.acks.erase item }
  | repeatData {s : State} {item : ℕ} (there : item ∈ s.data) :
      Step count width s (.repeatData item) { s with data := item ::ₘ s.data }
  | repeatAck {s : State} {item : ℕ} (there : item ∈ s.acks) :
      Step count width s (.repeatAck item) { s with acks := item ::ₘ s.acks }

/-- Nothing has been sent. -/
def State.initial : State := ⟨0, ∅, ∅, 0, 0, 0⟩

variable {count width : ℕ} {s : State}

/-! ### Safety -/

/-- What every run keeps. -/
structure Sound (count width : ℕ) (s : State) : Prop where
  /-- The sender believes no more than is true, -/
  acked : s.acked ⊆ s.has
  acks : ∀ item ∈ s.acks, item ∈ s.has
  /-- has not gone past what it believes, -/
  passed : ∀ item < s.base, item ∈ s.acked
  /-- and what is handed over is a prefix. -/
  delivered : ∀ item < s.delivered, item ∈ s.has
  has : ∀ item ∈ s.has, item < s.base + width ∧ item < count
  data : ∀ item ∈ s.data, item < s.base + width ∧ item < count

namespace Sound

theorem initial : Sound count width .initial := by
  constructor <;> simp [State.initial]

theorem step {s' : State} {event : Event} (sound : Sound count width s)
    (taken : Step count width s event s') : Sound count width s' := by
  obtain ⟨acked, acks, passed, delivered, has, data⟩ := sound
  cases taken with
  | send low high inside =>
      refine ⟨acked, acks, passed, delivered, has, ?_⟩
      intro item member
      rcases Multiset.mem_cons.mp member with rfl | old
      · exact ⟨high, inside⟩
      · exact data item old
  | slide ackedBase =>
      refine ⟨acked, acks, ?_, delivered, ?_, ?_⟩
      · intro item before
        rcases Nat.lt_succ_iff_lt_or_eq.mp before with before | rfl
        · exact passed item before
        · exact ackedBase
      · intro item member
        have := has item member
        exact ⟨by simp only; omega, this.2⟩
      · intro item member
        have := data item member
        exact ⟨by simp only; omega, this.2⟩
  | arrive there =>
      refine ⟨acked.trans (Set.subset_insert _ _),
        fun item member => Set.mem_insert_of_mem _ (acks item member), passed,
        fun item before => Set.mem_insert_of_mem _ (delivered item before), ?_,
        fun item member => data item (Multiset.mem_of_mem_erase member)⟩
      intro item member
      rcases Set.mem_insert_iff.mp member with rfl | old
      · exact data item there
      · exact has item old
  | deliver next =>
      refine ⟨acked, acks, passed, ?_, has, data⟩
      intro item before
      rcases Nat.lt_succ_iff_lt_or_eq.mp before with before | rfl
      · exact delivered item before
      · exact next
  | answer there =>
      refine ⟨acked, ?_, passed, delivered, has, data⟩
      intro item member
      rcases Multiset.mem_cons.mp member with rfl | old
      · exact there
      · exact acks item old
  | confirm there =>
      refine ⟨Set.insert_subset (acks _ there) acked,
        fun item member => acks item (Multiset.mem_of_mem_erase member),
        fun item before => Set.mem_insert_of_mem _ (passed item before), delivered,
        has, data⟩
  | loseData =>
      exact ⟨acked, acks, passed, delivered, has,
        fun item member => data item (Multiset.mem_of_mem_erase member)⟩
  | loseAck =>
      exact ⟨acked, fun item member => acks item (Multiset.mem_of_mem_erase member),
        passed, delivered, has, data⟩
  | repeatData there =>
      refine ⟨acked, acks, passed, delivered, has, ?_⟩
      intro item member
      rcases Multiset.mem_cons.mp member with rfl | old
      · exact data item there
      · exact data item old
  | repeatAck there =>
      refine ⟨acked, ?_, passed, delivered, has, data⟩
      intro item member
      rcases Multiset.mem_cons.mp member with rfl | old
      · exact acks item there
      · exact acks item old

theorem reaches {events : List Event} (run : Run (Step count width) .initial events s) :
    Sound count width s :=
  run.invariant .initial fun sound taken => sound.step taken

/-- The sender has not gone past an item that the receiver lacks. -/
theorem base_le (sound : Sound count width s) {item : ℕ} (lacks : item ∉ s.has) :
    s.base ≤ item := by
  by_contra past
  exact lacks (sound.acked (sound.passed item (Nat.not_le.mp past)))

/-- A receiver that hands over what it can has nothing beyond one window. -/
theorem buffered (sound : Sound count width s) (idle : s.delivered ∉ s.has) {item : ℕ}
    (has : item ∈ s.has) : item < s.delivered + width := by
  have := sound.base_le idle
  have := (sound.has item has).1
  omega

/-- So the residues of what it has to keep tell the items apart. -/
theorem residues (sound : Sound count width s) (idle : s.delivered ∉ s.has)
    {item other : ℕ} (has : item ∈ s.has) (has' : other ∈ s.has)
    (kept : s.delivered ≤ item) (kept' : s.delivered ≤ other)
    (same : item % width = other % width) : item = other := by
  have near := sound.buffered idle has
  have near' := sound.buffered idle has'
  exact RoundRobin.eq_of_mod_eq kept kept' near near' same

end Sound

/-! ### Several steps of one kind -/

variable (count width)

/-- A burst of items of the window. -/
theorem run_send : ∀ (items : List ℕ) {s : State},
    (∀ item ∈ items, s.base ≤ item ∧ item < s.base + width ∧ item < count) →
    Run (Step count width) s (items.map .send) { s with data := s.data + items } := by
  intro items
  induction items with
  | nil =>
      intro s _
      simpa using Run.refl
  | cons item items inductionHypothesis =>
      intro s window
      obtain ⟨low, high, inside⟩ := window item List.mem_cons_self
      have first := Run.single (Step.send (s := s) low high inside)
      have rest := inductionHypothesis (s := { s with data := item ::ₘ s.data })
        fun other member => window other (List.mem_cons_of_mem _ member)
      have same : (item ::ₘ s.data) + (items : Multiset ℕ) =
          s.data + ((item :: items : List ℕ) : Multiset ℕ) := by
        rw [← Multiset.cons_coe, Multiset.cons_add, Multiset.add_cons]
      simpa only [same, List.map_cons, List.singleton_append] using first.trans rest

/-- Acknowledgments of what the receiver has. -/
theorem run_answer : ∀ (items : List ℕ) {s : State}, (∀ item ∈ items, item ∈ s.has) →
    Run (Step count width) s (items.map .answer) { s with acks := s.acks + items } := by
  intro items
  induction items with
  | nil =>
      intro s _
      simpa using Run.refl
  | cons item items inductionHypothesis =>
      intro s has
      have first : Step count width s (.answer item) _ := .answer (has item List.mem_cons_self)
      have rest := inductionHypothesis (s := { s with acks := item ::ₘ s.acks })
        fun other member => has other (List.mem_cons_of_mem _ member)
      have same : (item ::ₘ s.acks) + (items : Multiset ℕ) =
          s.acks + ((item :: items : List ℕ) : Multiset ℕ) := by
        rw [← Multiset.cons_coe, Multiset.cons_add, Multiset.add_cons]
      simpa only [same, List.map_cons, List.singleton_append] using (Run.single first).trans rest

/-- The window moves over items that are acknowledged. -/
theorem run_slide : ∀ (n : ℕ) {s : State}, (∀ k < n, s.base + k ∈ s.acked) →
    Run (Step count width) s (List.replicate n .slide) { s with base := s.base + n } := by
  intro n
  induction n with
  | zero =>
      intro s _
      exact .refl
  | succ n inductionHypothesis =>
      intro s acked
      have prior := inductionHypothesis fun k less => acked k (Nat.lt_succ_of_lt less)
      rw [List.replicate_succ']
      exact prior.tail (.slide (acked n (Nat.lt_succ_self n)))

/-- Items that the receiver has are handed over in order. -/
theorem run_deliver : ∀ (n : ℕ) {s : State}, (∀ k < n, s.delivered + k ∈ s.has) →
    Run (Step count width) s (List.replicate n .deliver)
      { s with delivered := s.delivered + n } := by
  intro n
  induction n with
  | zero =>
      intro s _
      exact .refl
  | succ n inductionHypothesis =>
      intro s has
      have prior := inductionHypothesis fun k less => has k (Nat.lt_succ_of_lt less)
      rw [List.replicate_succ']
      exact prior.tail (.deliver (has n (Nat.lt_succ_self n)))

end SelectiveRepeat
