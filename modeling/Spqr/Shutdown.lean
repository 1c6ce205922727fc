/-
Module: Spqr.Shutdown
Purpose: `parent_server_signal_handler` at any point of a run of the server: which
  children it stops, and what it leaves behind.
Trusted boundary: a byte of the shared memory is loaded and stored as a whole
Main exports:
  HandlerStage, Shutdown, ShutdownEvent, Shutdown.step, Shutdown.Unraced, Listed,
  shutdown_complete
-/
import Spqr.Sharing

namespace Spqr

open Labelled

/-! ### The handler -/

/-- Where `parent_server_signal_handler` is: in its first loop, in its second one, or past
its `exit`. -/
inductive HandlerStage where
  | killing (i : ℕ)
  | waiting
  | exited
deriving DecidableEq

/-- The processes, and the handler once `SIGINT` or `SIGQUIT` has arrived. -/
structure Shutdown where
  sharing : Sharing
  stage : Option HandlerStage
  /-- Ghost: the identifiers given to `kill`. -/
  killed : List ℤ

/-- What happens next. -/
inductive ShutdownEvent where
  | run (event : SharingEvent)
  | signal
  /-- the handler's next `kill` or `waitpid`, or its next loop -/
  | handler

/-- The event is one of a child, which goes on while the handler runs. -/
def SharingEvent.ofChild : SharingEvent → Bool
  | .load _ => true
  | .store _ => true
  | .exit _ => true
  | .die _ => true
  | _ => false

/-- The next `i` from here with `child_pids[i] != INVALID_PID`. -/
def Slots.nextEntry (slots : Slots) (i : ℕ) : Option (Fin MAX_CLIENTS) :=
  (List.finRange MAX_CLIENTS).find? fun k => i ≤ k ∧ slots.childPids k ≠ INVALID_PID

namespace Shutdown

def initial : Shutdown := ⟨.initial, none, []⟩

/-- The handler up to its next `kill` or the end of a `waitpid`, which waits for the child
to be dead, and fails at once where there is none. -/
def handlerStep (s : Shutdown) : Option Shutdown :=
  match s.stage with
  | some (.killing i) =>
      match s.sharing.slots.nextEntry i with
      | some k =>
          some { s with
            stage := some (.killing (k + 1))
            killed := s.killed ++ [s.sharing.slots.childPids k] }
      | none => some { s with stage := some .waiting }
  | some .waiting =>
      match s.sharing.slots.nextEntry 0 with
      | some k =>
          let pid := s.sharing.slots.childPids k
          let cleared := s.sharing.slots.storePid k INVALID_PID
          match s.sharing.find pid with
          | some c =>
              if c.stage = .zombie then
                some { s with
                  sharing := { s.sharing with
                    slots := cleared
                    children := s.sharing.children.filter fun c => c.pid ≠ pid } }
              else none
          | none => some { s with sharing := { s.sharing with slots := cleared } }
      | none => some { s with stage := some .exited }
  | _ => none

/-- The state after an event, if it can happen. -/
def step (s : Shutdown) : ShutdownEvent → Option Shutdown
  | .run event =>
      if s.stage = none ∨ event.ofChild = true then
        (s.sharing.step event).map fun sharing => { s with sharing := sharing }
      else none
  | .signal => if s.stage = none then some { s with stage := some (.killing 0) } else none
  | .handler => s.handlerStep

/-- The step relation. -/
def Step (before : Shutdown) (event : ShutdownEvent) (after : Shutdown) : Prop :=
  before.step event = some after

/-- Until the signal arrives, no two updates of a byte overlap. -/
def Unraced (s : Shutdown) : ShutdownEvent → Prop
  | .run event => s.stage = none → s.sharing.Unraced event
  | _ => True

instance (s : Shutdown) : DecidablePred s.Unraced := fun event =>
  match event with
  | .run event => inferInstanceAs (Decidable (s.stage = none → s.sharing.Unraced event))
  | .signal => .isTrue trivial
  | .handler => .isTrue trivial

end Shutdown

/-! ### The entries of the children -/

/-- Every entry of `child_pids` is a child that has not been reaped, in its slot, unless the
parent has yet to clear it, and a child at work has its entry unless the parent has yet to
write it. -/
structure Listed (s : Sharing) : Prop where
  distinct : (s.children.map Sharer.pid).Nodup
  positive : ∀ c ∈ s.children, 0 < c.pid
  entry : ∀ i : Fin MAX_CLIENTS, s.slots.childPids i ≠ INVALID_PID →
    s.parent = .clear i ∨ ∃ c ∈ s.children, c.slot = i ∧ s.slots.childPids i = c.pid
  reaped : ∀ i : Fin MAX_CLIENTS, s.parent = .clear i →
    ∀ c ∈ s.children, s.slots.childPids i ≠ c.pid
  live : ∀ c ∈ s.children, c.stage.live = true →
    s.parent = .record c.slot c.pid ∨
      c.slot < MAX_CLIENTS ∧ ∀ i : Fin MAX_CLIENTS, i = c.slot → s.slots.childPids i = c.pid

namespace Listed

variable {s s' : Sharing}

theorem of_sound (sound : s.Sound) : Listed s where
  distinct := sound.distinct
  positive := sound.positive
  entry := sound.entry
  reaped := fun i clearing => by
    have known := sound.knows
    rw [clearing] at known
    exact known.2 i rfl
  live := fun c member live => (sound.live c member live).2.imp id
    fun entry => ⟨sound.inside c member, entry⟩

/-- A child gets on; no entry changes. -/
theorem advance (listed : Listed s) {pid : ℤ} {c : Sharer} (found : s.find pid = some c)
    {stage : SharerStage} (fades : stage.live = true → c.stage.live = true) {slots : Slots}
    (pids : slots.childPids = s.slots.childPids) :
    Listed { s with slots := slots, children := s.advance pid stage } := by
  refine ⟨?_, ?_, ?_, ?_, ?_⟩
  · dsimp only
    rw [Sharing.Sound.advance_pids]
    exact listed.distinct
  · intro d advanced
    obtain ⟨e, original, same, _⟩ :=
      Sharing.Sound.of_advance listed.distinct found fades advanced
    exact same ▸ listed.positive e original
  · intro i stored
    dsimp only at stored ⊢
    rw [pids] at stored ⊢
    apply (listed.entry i stored).imp id
    rintro ⟨e, original, place, entry⟩
    obtain ⟨d, advanced, samePid, sameSlot⟩ := Sharing.Sound.mem_advance original stage
    exact ⟨d, advanced, sameSlot.trans place, entry.trans samePid.symm⟩
  · intro i clearing d advanced
    obtain ⟨e, original, samePid, _⟩ :=
      Sharing.Sound.of_advance listed.distinct found fades advanced
    dsimp only
    rw [pids, samePid]
    exact listed.reaped i clearing e original
  · intro d advanced live
    obtain ⟨e, original, samePid, sameSlot, was⟩ :=
      Sharing.Sound.of_advance listed.distinct found fades advanced
    dsimp only
    rw [pids, samePid, sameSlot]
    exact listed.live e original (was live).1

/-- What a child does changes no entry and not the parent. -/
theorem child (listed : Listed s) {event : SharingEvent} (own : event.ofChild = true)
    (taken : Sharing.Step s event s') :
    Listed s' ∧ s'.slots.childPids = s.slots.childPids ∧ s'.parent = s.parent := by
  cases event with
  | connect => cases own
  | parent => cases own
  | fork pid => cases own
  | reap pid => cases own
  | load pid =>
      obtain ⟨c, found, taken⟩ := Option.bind_eq_some_iff.mp taken
      split_ifs at taken with serves
      obtain rfl := Option.some.inj taken
      exact ⟨listed.advance found (fun _ => by rw [serves]; rfl) rfl, rfl, rfl⟩
  | store pid =>
      obtain ⟨c, found, taken⟩ := Option.bind_eq_some_iff.mp taken
      split at taken
      · obtain rfl := Option.some.inj taken
        exact ⟨listed.advance found (fun left => by cases left) rfl, rfl, rfl⟩
      · cases taken
  | exit pid =>
      obtain ⟨c, found, taken⟩ := Option.bind_eq_some_iff.mp taken
      split_ifs at taken
      obtain rfl := Option.some.inj taken
      exact ⟨listed.advance found (fun left => by cases left) rfl, rfl, rfl⟩
  | die pid =>
      obtain ⟨c, found, taken⟩ := Option.bind_eq_some_iff.mp taken
      split_ifs at taken
      obtain rfl := Option.some.inj taken
      exact ⟨listed.advance found (fun left => by cases left) rfl, rfl, rfl⟩

/-- The entries after one has been cleared. -/
theorem childPids_storePid {slots : Slots} (k i : Fin MAX_CLIENTS) :
    (slots.storePid k INVALID_PID).childPids i =
      if i = k then INVALID_PID else slots.childPids i := by
  rw [Slots.storePid_childPids, Function.update_apply]

/-- No child is named by an entry that is to be cleared, or has been. -/
theorem cleared (listed : Listed s) {k i : Fin MAX_CLIENTS} {c : Sharer}
    (member : c ∈ s.children) (clearing : s.parent = .clear i) :
    (s.slots.storePid k INVALID_PID).childPids i ≠ c.pid := by
  rw [childPids_storePid]
  split_ifs
  · have := listed.positive c member
    rw [INVALID_PID]
    omega
  · exact listed.reaped i clearing c member

/-- An entry that names a child names the child of its slot. -/
theorem slot_eq (listed : Listed s) {k : Fin MAX_CLIENTS} {c : Sharer}
    (member : c ∈ s.children) (its : c.pid = s.slots.childPids k) : c.slot = k := by
  have valid : s.slots.childPids k ≠ INVALID_PID := by
    have := listed.positive c member
    rw [← its, INVALID_PID]
    omega
  rcases listed.entry k valid with clearing | ⟨d, member', place, entry⟩
  · exact absurd its.symm (listed.reaped k clearing c member)
  · have same := List.inj_on_of_nodup_map listed.distinct member' member
      (entry.symm.trans its.symm)
    rwa [same] at place

/-- The handler's `waitpid` reaps the child of an entry. -/
theorem waited (listed : Listed s) {k : Fin MAX_CLIENTS} :
    Listed { s with
      slots := s.slots.storePid k INVALID_PID
      children := s.children.filter fun c => c.pid ≠ s.slots.childPids k } := by
  have remaining : ∀ d, d ∈ s.children.filter (fun d => d.pid ≠ s.slots.childPids k) ↔
      d ∈ s.children ∧ d.pid ≠ s.slots.childPids k := by
    simp
  refine ⟨listed.distinct.sublist (List.filter_sublist.map Sharer.pid),
    fun d kept => listed.positive d ((remaining d).mp kept).1, ?_,
    fun i clearing d kept => listed.cleared ((remaining d).mp kept).1 clearing, ?_⟩
  · intro i stored
    dsimp only at stored ⊢
    rw [childPids_storePid] at stored ⊢
    split_ifs at stored ⊢ with here
    · exact absurd rfl stored
    · apply (listed.entry i stored).imp id
      rintro ⟨d, member, at_, entry⟩
      refine ⟨d, (remaining d).mpr ⟨member, fun same => here ?_⟩, at_, entry⟩
      exact Fin.ext (at_.symm.trans (listed.slot_eq member same))
  · intro d kept live
    obtain ⟨member, other⟩ := (remaining d).mp kept
    apply (listed.live d member live).imp id
    rintro ⟨inside, entry⟩
    refine ⟨inside, fun i at_ => ?_⟩
    dsimp only
    rw [childPids_storePid, if_neg]
    · exact entry i at_
    · rintro rfl
      exact other (entry i at_).symm

/-- The handler's `waitpid` finds no child with the identifier of an entry. -/
theorem missed (listed : Listed s) {k : Fin MAX_CLIENTS}
    (missing : s.find (s.slots.childPids k) = none) :
    Listed { s with slots := s.slots.storePid k INVALID_PID } := by
  refine ⟨listed.distinct, listed.positive, ?_,
    fun i clearing d member => listed.cleared member clearing, ?_⟩
  · intro i stored
    dsimp only at stored ⊢
    rw [childPids_storePid] at stored ⊢
    split_ifs at stored ⊢ with here
    · exact absurd rfl stored
    · exact listed.entry i stored
  · intro d member live
    apply (listed.live d member live).imp id
    rintro ⟨inside, entry⟩
    refine ⟨inside, fun i at_ => ?_⟩
    dsimp only
    rw [childPids_storePid, if_neg]
    · exact entry i at_
    · rintro rfl
      have present := List.find?_eq_none.mp missing d member
      rw [entry i at_] at present
      simp at present

end Listed

/-! ### The invariant -/

theorem Slots.nextEntry_eq_none {slots : Slots} {i : ℕ} (none : slots.nextEntry i = none)
    {k : Fin MAX_CLIENTS} (from_ : i ≤ k) : slots.childPids k = INVALID_PID := by
  have missing := List.find?_eq_none.mp none k (List.mem_finRange k)
  simpa [from_] using missing

/-- No entry is skipped. -/
theorem Slots.nextEntry_first {slots : Slots} {i : ℕ} {k : Fin MAX_CLIENTS}
    (next : slots.nextEntry i = some k) {j : Fin MAX_CLIENTS} (from_ : i ≤ j)
    (before : j < k) : slots.childPids j = INVALID_PID := by
  obtain ⟨_, position, inside, here, earlier⟩ := List.find?_eq_some_iff_getElem.mp next
  rw [List.getElem_finRange] at here
  have passed := earlier j (by
    rw [← here] at before
    exact before)
  rw [List.getElem_finRange] at passed
  simpa [from_] using passed

/-- How far the handler has got with the entries. -/
structure Stopping (s : Shutdown) : Prop where
  listed : Listed s.sharing
  sound : s.stage = none → s.sharing.Sound
  killing : ∀ i, s.stage = some (.killing i) → ∀ k : Fin MAX_CLIENTS, k < i →
    s.sharing.slots.childPids k ≠ INVALID_PID → s.sharing.slots.childPids k ∈ s.killed
  waiting : s.stage = some .waiting → ∀ k : Fin MAX_CLIENTS,
    s.sharing.slots.childPids k ≠ INVALID_PID → s.sharing.slots.childPids k ∈ s.killed
  exited : s.stage = some .exited → ∀ k : Fin MAX_CLIENTS,
    s.sharing.slots.childPids k = INVALID_PID

namespace Stopping

variable {s s' : Shutdown}

theorem initial : Stopping Shutdown.initial :=
  ⟨.of_sound .initial, fun _ => .initial, by simp [Shutdown.initial],
    by simp [Shutdown.initial], by simp [Shutdown.initial]⟩

theorem handlerStep (stopping : Stopping s) (taken : s.handlerStep = some s') :
    Stopping s' := by
  unfold Shutdown.handlerStep at taken
  split at taken
  · rename_i i stage
    split at taken
    · rename_i k next
      obtain rfl := Option.some.inj taken
      refine ⟨stopping.listed, by simp, ?_, by simp, by simp⟩
      intro j same m below valid
      obtain rfl : j = k + 1 := by simpa using same.symm
      rw [List.mem_append, List.mem_singleton]
      rcases Nat.lt_or_ge m i with done | from_
      · exact .inl (stopping.killing i stage m done valid)
      rcases Nat.lt_or_ge m k with skipped | here
      · exact absurd (Slots.nextEntry_first next from_ skipped) valid
      · exact .inr (congrArg _ (Fin.ext (by omega)))
    · rename_i next
      obtain rfl := Option.some.inj taken
      refine ⟨stopping.listed, by simp, by simp, ?_, by simp⟩
      intro _ m valid
      rcases Nat.lt_or_ge m i with done | from_
      · exact stopping.killing i stage m done valid
      · exact absurd (Slots.nextEntry_eq_none next from_) valid
  · rename_i stage
    split at taken
    · rename_i k next
      have others : ∀ m, (s.sharing.slots.storePid k INVALID_PID).childPids m ≠ INVALID_PID →
          (s.sharing.slots.storePid k INVALID_PID).childPids m ∈ s.killed := by
        intro m valid
        rw [Listed.childPids_storePid] at valid ⊢
        split_ifs at valid ⊢
        · exact absurd rfl valid
        · exact stopping.waiting stage m valid
      dsimp only at taken
      split at taken
      · split_ifs at taken
        obtain rfl := Option.some.inj taken
        exact ⟨stopping.listed.waited, by simp [stage], by simp [stage],
          fun _ => others, by simp [stage]⟩
      · rename_i missing
        obtain rfl := Option.some.inj taken
        exact ⟨stopping.listed.missed missing, by simp [stage], by simp [stage],
          fun _ => others, by simp [stage]⟩
    · rename_i next
      obtain rfl := Option.some.inj taken
      refine ⟨stopping.listed, by simp, by simp, by simp, ?_⟩
      exact fun _ m => Slots.nextEntry_eq_none next (Nat.zero_le _)
  · cases taken

/-- Every event keeps the invariant. -/
theorem step (stopping : Stopping s) {event : ShutdownEvent}
    (taken : Shutdown.Step s event s') (unraced : s.Unraced event) : Stopping s' := by
  cases event with
  | run event =>
      simp only [Shutdown.Step, Shutdown.step] at taken
      split_ifs at taken with allowed
      obtain ⟨sharing, moves, rfl⟩ := Option.map_eq_some_iff.mp taken
      by_cases unsignalled : s.stage = none
      · have sound := (stopping.sound unsignalled).step moves (unraced unsignalled)
        exact ⟨.of_sound sound, fun _ => sound, by simp [unsignalled],
          by simp [unsignalled], by simp [unsignalled]⟩
      · obtain ⟨listed, pids, _⟩ :=
          stopping.listed.child (allowed.resolve_left unsignalled) moves
        refine ⟨listed, fun stage => absurd stage unsignalled, ?_, ?_, ?_⟩
        · dsimp only
          rw [pids]
          exact stopping.killing
        · dsimp only
          rw [pids]
          exact stopping.waiting
        · dsimp only
          rw [pids]
          exact stopping.exited
  | signal =>
      simp only [Shutdown.Step, Shutdown.step] at taken
      split_ifs at taken
      obtain rfl := Option.some.inj taken
      refine ⟨stopping.listed, by simp, ?_, by simp, by simp⟩
      intro i same k below
      obtain rfl : i = 0 := by simpa using same.symm
      omega
  | handler => exact stopping.handlerStep taken

end Stopping

/-! ### What the handler leaves behind -/

/-- Where no two updates of a byte overlap until the signal arrives, and whatever the
children do from then on: `kill` and `waitpid` reach children of the server that have not
been reaped, except for one whose entry was about to be cleared when the signal arrived; and
once the handler waits it has stopped every child at work, and once it has exited none is
left, except for one that had just been forked and was not yet in `child_pids`. -/
theorem shutdown_complete {events : List ShutdownEvent} {s : Shutdown}
    (run : Run (Within Shutdown.Step Shutdown.Unraced) Shutdown.initial events s) :
    (∀ i : Fin MAX_CLIENTS, s.sharing.slots.childPids i ≠ INVALID_PID →
      s.sharing.parent = .clear i ∨
        ∃ c ∈ s.sharing.children, c.slot = i ∧ s.sharing.slots.childPids i = c.pid) ∧
    (s.stage = some .waiting → ∀ c ∈ s.sharing.children, c.stage.live = true →
      c.pid ∈ s.killed ∨ s.sharing.parent = .record c.slot c.pid) ∧
    (s.stage = some .exited → ∀ c ∈ s.sharing.children, c.stage.live = true →
      s.sharing.parent = .record c.slot c.pid) := by
  have stopping : Stopping s :=
    run.invariant .initial fun stopping taken => stopping.step taken.1 taken.2
  refine ⟨stopping.listed.entry, ?_, ?_⟩
  · intro waits c member live
    rcases stopping.listed.live c member live with recording | ⟨inside, entry⟩
    · exact .inr recording
    · have its := entry ⟨c.slot, inside⟩ rfl
      have valid : s.sharing.slots.childPids ⟨c.slot, inside⟩ ≠ INVALID_PID := by
        have := stopping.listed.positive c member
        rw [its, INVALID_PID]
        omega
      exact .inl (its ▸ stopping.waiting waits _ valid)
  · intro gone c member live
    rcases stopping.listed.live c member live with recording | ⟨inside, entry⟩
    · exact recording
    · have its := entry ⟨c.slot, inside⟩ rfl
      rw [stopping.exited gone, INVALID_PID] at its
      have := stopping.listed.positive c member
      omega

/-- The signal arrives when child 10 has been reaped and its entry has not been cleared,
with child 11 at work: `kill` is given both identifiers. -/
theorem shutdown_complete_reaped :
    ∃ s, Run (Within Shutdown.Step Shutdown.Unraced) Shutdown.initial
        [.run .connect, .run .parent, .run .parent, .run .parent, .run (.fork 10),
          .run .parent, .run .connect, .run .parent, .run .parent, .run .parent,
          .run .parent, .run (.fork 11), .run .parent, .run (.die 10), .run (.reap 10),
          .signal, .handler, .handler, .handler] s ∧
      s.stage = some .waiting ∧ s.killed = [10, 11] ∧
      s.sharing.children = [⟨11, 1, .serving⟩] ∧ s.sharing.parent = .clear 0 ∧
      (∀ i : Fin MAX_CLIENTS, s.sharing.slots.childPids i ≠ INVALID_PID →
        s.sharing.parent = .clear i ∨
          ∃ c ∈ s.sharing.children, c.slot = i ∧ s.sharing.slots.childPids i = c.pid) ∧
      (∀ c ∈ s.sharing.children, c.stage.live = true →
        c.pid ∈ s.killed ∨ s.sharing.parent = .record c.slot c.pid) := by
  have computed : (stepAll Shutdown.step Shutdown.Unraced Shutdown.initial
      [.run .connect, .run .parent, .run .parent, .run .parent, .run (.fork 10),
        .run .parent, .run .connect, .run .parent, .run .parent, .run .parent,
        .run .parent, .run (.fork 11), .run .parent, .run (.die 10), .run (.reap 10),
        .signal, .handler, .handler, .handler]).map
          (fun s => (s.stage, s.killed, s.sharing.children, s.sharing.parent)) =
      some (some .waiting, [10, 11], [⟨11, 1, .serving⟩], .clear 0) := by
    decide +kernel
  obtain ⟨s, computed, last⟩ := Option.map_eq_some_iff.mp computed
  have run := run_of_stepAll _ _ computed
  simp only [Prod.mk.injEq] at last
  obtain ⟨stage, killed, children, parent⟩ := last
  exact ⟨s, run, stage, killed, children, parent, (shutdown_complete run).1,
    (shutdown_complete run).2.1 stage⟩

end Spqr
