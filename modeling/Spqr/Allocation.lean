/-
Module: Spqr.Allocation
Purpose: The slots over whole runs of the server: accepted connections, children
  that leave or die, and their reaping, in any order.
Trusted boundary: none
Main exports:
  Child, Processes, ChildEvent, Processes.step, Processes.Sound, Allocated,
  slots_allocated
-/
import Spqr.Lib.Runs
import Spqr.Slots

namespace Spqr

open Labelled

/-! ### The processes -/

/-- How far a child has got. -/
inductive Stage where
  /-- in `server_manage_client_commands` -/
  | serving
  /-- past `set_bit(no_client, FREE)` -/
  | leaving
  /-- dead, and not yet reaped -/
  | zombie
deriving DecidableEq

structure Child where
  pid : ℤ
  slot : ℕ
  stage : Stage
deriving DecidableEq

/-- The parent's data and the children that it has not reaped. -/
structure Processes where
  slots : Slots
  children : List Child

/-- What happens to the children. -/
inductive ChildEvent where
  /-- `acceptConnection`, where `fork` returns this identifier -/
  | accept (pid : ℤ)
  /-- the child calls `set_bit(no_client, FREE)` -/
  | free (pid : ℤ)
  /-- and exits -/
  | exit (pid : ℤ)
  /-- the child dies, wherever it is -/
  | die (pid : ℤ)
  /-- `waitpid` returns this identifier -/
  | reap (pid : ℤ)

namespace Processes

def initial : Processes := ⟨.initial, []⟩

/-- The child with this identifier. -/
def find (p : Processes) (pid : ℤ) : Option Child :=
  p.children.find? fun c => c.pid = pid

/-- The slot of the child that is forked. -/
def forked (effects : List Effect) : Option ℕ :=
  effects.findSome? fun effect =>
    match effect with
    | .fork noClient _ => some noClient
    | _ => none

/-- A child gets on. -/
def advance (p : Processes) (pid : ℤ) (stage : Stage) : List Child :=
  p.children.map fun c => if c.pid = pid then { c with stage := stage } else c

/-- The state after an event, if it can happen. -/
def step (p : Processes) : ChildEvent → Option Processes
  | .accept pid => do
      let (slots, effects) := acceptConnection p.slots pid
      let slot ← forked effects
      if 0 < pid ∧ p.find pid = none then
        some ⟨slots, p.children ++ [⟨pid, slot, .serving⟩]⟩
      else none
  | .free pid => do
      let c ← p.find pid
      if c.stage = .serving then
        some ⟨p.slots.setBit c.slot .FREE, p.advance pid .leaving⟩
      else none
  | .exit pid => do
      let c ← p.find pid
      if c.stage = .leaving then some { p with children := p.advance pid .zombie }
      else none
  | .die pid => do
      let c ← p.find pid
      if c.stage = .zombie then none
      else some { p with children := p.advance pid .zombie }
  | .reap pid => do
      let c ← p.find pid
      if c.stage = .zombie then
        some ⟨reapChild p.slots pid, p.children.filter fun c => c.pid ≠ pid⟩
      else none

/-- The step relation of the processes. -/
def Step (before : Processes) (event : ChildEvent) (after : Processes) : Prop :=
  before.step event = some after

/-- A connection is accepted only while a slot is free. -/
def Room (p : Processes) : ChildEvent → Prop
  | .accept _ => ∃ i, p.slots.Free i
  | _ => True

end Processes

/-- What the slots say of the children, and the children of the slots. -/
structure Allocated (p : Processes) : Prop where
  /-- Children that serve a client have slots of their own, -/
  apart : ∀ c ∈ p.children, ∀ d ∈ p.children, c.stage = .serving →
    d.stage = .serving → c ≠ d → c.slot ≠ d.slot
  /-- and so ports of their own. -/
  ports : ∀ c ∈ p.children, ∀ d ∈ p.children, c.stage = .serving →
    d.stage = .serving → c ≠ d → PORT + c.slot ≠ PORT + d.slot
  inside : ∀ c ∈ p.children, c.stage = .serving → c.slot < MAX_CLIENTS
  busy : ∀ c ∈ p.children, c.stage = .serving → p.slots.getBit c.slot = 1
  stored : ∀ c ∈ p.children, c.stage = .serving →
    ∀ i : Fin MAX_CLIENTS, i = c.slot → p.slots.childPids i = c.pid
  /-- No slot is leaked. -/
  owned : ∀ i : Fin MAX_CLIENTS, p.slots.getBit i = 1 →
    ∃ c ∈ p.children, c.slot = i ∧ p.slots.childPids i = c.pid

/-! ### The invariant -/

namespace Processes

/-- Every entry of `child_pids` is a child that has not been reaped, in its slot;
children that serve a client have an entry, and so do the slots that are busy. -/
structure Sound (p : Processes) : Prop where
  distinct : (p.children.map Child.pid).Nodup
  positive : ∀ c ∈ p.children, 0 < c.pid
  inside : ∀ c ∈ p.children, c.slot < MAX_CLIENTS
  entry : ∀ i : Fin MAX_CLIENTS, p.slots.childPids i ≠ INVALID_PID →
    ∃ c ∈ p.children, c.slot = i ∧ p.slots.childPids i = c.pid
  serving : ∀ c ∈ p.children, c.stage = .serving →
    p.slots.Busy c.slot ∧
      ∀ i : Fin MAX_CLIENTS, i = c.slot → p.slots.childPids i = c.pid
  busy : ∀ i : Fin MAX_CLIENTS, p.slots.Busy i →
    p.slots.childPids i ≠ INVALID_PID

namespace Sound

variable {p p' : Processes} {pid : ℤ}

theorem initial : Sound Processes.initial := by
  have none_busy : ∀ i : Fin MAX_CLIENTS, ¬ Slots.initial.Busy i := by
    intro i
    have byte : (Vector.replicate SHM_SIZE (0 : UInt8))[i.val / 8]? = some 0 := by
      rw [Vector.getElem?_replicate, if_pos (Slots.byte_inside i.isLt)]
    rw [Slots.busy_iff_has, Slots.initial, Bitmask.has, Bitmask.byteOf, byte]
    simp
  exact ⟨List.nodup_nil, by simp [Processes.initial], by simp [Processes.initial],
    fun i stored => absurd rfl stored, by simp [Processes.initial],
    fun i busy => absurd busy (none_busy i)⟩

/-- Two children with one identifier are one child. -/
theorem unique (sound : Sound p) {c d : Child} (member : c ∈ p.children)
    (member' : d ∈ p.children) (same : c.pid = d.pid) : c = d :=
  List.inj_on_of_nodup_map sound.distinct member member' same

theorem of_find {c : Child} (found : p.find pid = some c) :
    c ∈ p.children ∧ c.pid = pid :=
  ⟨List.mem_of_find?_eq_some found, by simpa using List.find?_some found⟩

/-- A child that gets on keeps its identifier and its slot; one that serves a
client is another one, unless it is so set. -/
theorem of_advance {stage : Stage} {d : Child} (member : d ∈ p.advance pid stage) :
    ∃ c ∈ p.children, d.pid = c.pid ∧ d.slot = c.slot ∧
      (stage ≠ .serving → d.stage = .serving → d = c ∧ c.pid ≠ pid) := by
  obtain ⟨c, original, rfl⟩ := List.mem_map.mp member
  refine ⟨c, original, ?_⟩
  split_ifs with same
  · exact ⟨rfl, rfl, fun other serves => absurd serves other⟩
  · exact ⟨rfl, rfl, fun _ _ => ⟨rfl, same⟩⟩

theorem mem_advance {stage : Stage} {c : Child} (member : c ∈ p.children) :
    ∃ d ∈ p.advance pid stage, d.pid = c.pid ∧ d.slot = c.slot := by
  refine ⟨_, List.mem_map_of_mem member, ?_⟩
  split_ifs <;> exact ⟨rfl, rfl⟩

theorem advance_pids (stage : Stage) :
    (p.advance pid stage).map Child.pid = p.children.map Child.pid := by
  rw [advance, List.map_map]
  apply List.map_congr_left
  intro c _
  rw [Function.comp_apply]
  split_ifs <;> rfl

/-- A connection is accepted in a free slot. -/
theorem accept (sound : Sound p) {slot : ℕ}
    (lowest : IsLeast {i | p.slots.Free i} slot) (real : 0 < pid)
    (fresh : p.find pid = none) :
    Sound ⟨(acceptConnection p.slots pid).1,
      p.children ++ [⟨pid, slot, .serving⟩]⟩ := by
  have slotInside : slot < MAX_CLIENTS := lowest.1.1
  have idle : ¬ p.slots.Busy slot := (Slots.getBit_eq_zero_iff slot).mp lowest.1.2
  obtain ⟨_, bits, pids, _⟩ := accepted_of_free lowest pid
  have others : ∀ c ∈ p.children, c.pid ≠ pid := by
    simpa [find] using fresh
  refine ⟨?_, ?_, ?_, ?_, ?_, ?_⟩
  · rw [List.map_append, List.map_singleton, List.nodup_append']
    refine ⟨sound.distinct, List.nodup_singleton _, ?_⟩
    rw [List.disjoint_singleton]
    rintro member
    obtain ⟨c, member, same⟩ := List.mem_map.mp member
    exact others c member same
  · intro c member
    rcases List.mem_append.mp member with member | new
    · exact sound.positive c member
    · obtain rfl := List.mem_singleton.mp new
      exact real
  · intro c member
    rcases List.mem_append.mp member with member | new
    · exact sound.inside c member
    · obtain rfl := List.mem_singleton.mp new
      exact slotInside
  · intro i stored
    rw [pids] at stored ⊢
    by_cases here : i.val = slot
    · refine ⟨⟨pid, slot, .serving⟩, by simp, here.symm, ?_⟩
      exact if_pos here
    · rw [if_neg here] at stored ⊢
      obtain ⟨c, member, place, entry⟩ := sound.entry i stored
      exact ⟨c, List.mem_append_left _ member, place, entry⟩
  · intro c member serves
    rcases List.mem_append.mp member with member | new
    · obtain ⟨busy, entry⟩ := sound.serving c member serves
      have elsewhere : c.slot ≠ slot := fun same => idle (same ▸ busy)
      refine ⟨(bits _).mpr (.inr busy), fun i place => ?_⟩
      rw [pids, if_neg (fun here => elsewhere (place.symm.trans here))]
      exact entry i place
    · obtain rfl := List.mem_singleton.mp new
      exact ⟨(bits _).mpr (.inl rfl), fun i place => by rw [pids, if_pos place]⟩
  · intro i busy
    rw [pids]
    split_ifs with here
    · exact fun invalid => by simp [INVALID_PID] at invalid; omega
    · exact sound.busy i (((bits i).mp busy).resolve_left here)

/-- A child that serves a client frees its slot. -/
theorem free (sound : Sound p) {c : Child} (found : p.find pid = some c)
    (serves : c.stage = .serving) :
    Sound ⟨p.slots.setBit c.slot .FREE, p.advance pid .leaving⟩ := by
  obtain ⟨member, rfl⟩ := of_find found
  have inside := sound.inside c member
  refine ⟨?_, ?_, ?_, ?_, ?_, ?_⟩
  · rw [advance_pids]
    exact sound.distinct
  · intro d advanced
    obtain ⟨e, member', pid, _⟩ := of_advance advanced
    exact pid ▸ sound.positive e member'
  · intro d advanced
    obtain ⟨e, member', _, slot, _⟩ := of_advance advanced
    exact slot ▸ sound.inside e member'
  · intro i stored
    rw [Slots.setBit_childPids] at stored ⊢
    obtain ⟨d, member', place, entry⟩ := sound.entry i stored
    obtain ⟨e, advanced, pid, slot⟩ := mem_advance member'
    exact ⟨e, advanced, slot.trans place, entry.trans pid.symm⟩
  · intro d advanced serves'
    obtain ⟨e, member', _, _, kept⟩ := of_advance advanced
    obtain ⟨rfl, other⟩ := kept (by decide) serves'
    obtain ⟨busy, entry⟩ := sound.serving d member' serves'
    refine ⟨(Slots.busy_setBit_FREE inside _).mpr ⟨fun same => ?_, busy⟩, fun i place => ?_⟩
    · -- the entry of the slot would be both children's
      have mine := (sound.serving c member serves).2 ⟨c.slot, inside⟩ rfl
      have its := entry ⟨c.slot, inside⟩ same.symm
      exact other (its.symm.trans mine)
    · rw [Slots.setBit_childPids]
      exact entry i place
  · intro i busy
    rw [Slots.setBit_childPids]
    exact sound.busy i ((Slots.busy_setBit_FREE inside _).mp busy).2

/-- A child exits or dies. -/
theorem ends (sound : Sound p) :
    Sound { p with children := p.advance pid .zombie } := by
  refine ⟨?_, ?_, ?_, ?_, ?_, sound.busy⟩
  · rw [advance_pids]
    exact sound.distinct
  · intro d advanced
    obtain ⟨e, member, pid, _⟩ := of_advance advanced
    exact pid ▸ sound.positive e member
  · intro d advanced
    obtain ⟨e, member, _, slot, _⟩ := of_advance advanced
    exact slot ▸ sound.inside e member
  · intro i stored
    obtain ⟨d, member, place, entry⟩ := sound.entry i stored
    obtain ⟨e, advanced, pid, slot⟩ := mem_advance member
    exact ⟨e, advanced, slot.trans place, entry.trans pid.symm⟩
  · intro d advanced serves
    obtain ⟨e, member, _, _, kept⟩ := of_advance advanced
    obtain ⟨rfl, _⟩ := kept (by decide) serves
    exact sound.serving d member serves

/-- What reaping changes: the entry of the dead child, if it still has one, and
the bit that goes with it. -/
theorem reapChild_cases (sound : Sound p) {c : Child} (member : c ∈ p.children) :
    (reapChild p.slots c.pid = p.slots ∧ ∀ i, p.slots.childPids i ≠ c.pid) ∨
      ∃ i : Fin MAX_CLIENTS, i = c.slot ∧ p.slots.childPids i = c.pid ∧
        reapChild p.slots c.pid =
          (p.slots.storePid i INVALID_PID).setBit i .FREE := by
  unfold reapChild
  cases found : (List.finRange MAX_CLIENTS).find? fun i =>
      p.slots.childPids i = c.pid with
  | none =>
      refine .inl ⟨rfl, fun i => ?_⟩
      have missing := List.find?_eq_none.mp found i (List.mem_finRange i)
      simpa using missing
  | some i =>
      have stored : p.slots.childPids i = c.pid := by simpa using List.find?_some found
      have valid : p.slots.childPids i ≠ INVALID_PID := by
        have := sound.positive c member
        rw [stored, INVALID_PID]
        omega
      obtain ⟨d, member', place, entry⟩ := sound.entry i valid
      obtain rfl := sound.unique member' member (entry.symm.trans stored)
      exact .inr ⟨i, place.symm, stored, rfl⟩

/-- A dead child is reaped. -/
theorem reap (sound : Sound p) {c : Child} (found : p.find pid = some c)
    (dead : c.stage = .zombie) :
    Sound ⟨reapChild p.slots pid, p.children.filter fun c => c.pid ≠ pid⟩ := by
  obtain ⟨member, rfl⟩ := of_find found
  have remaining : ∀ d, d ∈ p.children.filter (fun d => d.pid ≠ c.pid) ↔
      d ∈ p.children ∧ d.pid ≠ c.pid := by
    simp
  have distinct : ((p.children.filter fun d => d.pid ≠ c.pid).map Child.pid).Nodup :=
    sound.distinct.sublist (List.filter_sublist.map Child.pid)
  rcases sound.reapChild_cases member with ⟨same, gone⟩ | ⟨k, place, stored, cleared⟩
  · rw [same]
    refine ⟨distinct, fun d kept => sound.positive d ((remaining d).mp kept).1,
      fun d kept => sound.inside d ((remaining d).mp kept).1, ?_,
      fun d kept => sound.serving d ((remaining d).mp kept).1, sound.busy⟩
    intro i valid
    obtain ⟨d, member', at_, entry⟩ := sound.entry i valid
    exact ⟨d, (remaining d).mpr ⟨member', fun same => gone i (entry.trans same)⟩, at_,
      entry⟩
  · rw [cleared]
    have pids : ∀ i, ((p.slots.storePid k INVALID_PID).setBit k .FREE).childPids i =
        if i = k then INVALID_PID else p.slots.childPids i := by
      intro i
      rw [Slots.setBit_childPids, Slots.storePid_childPids, Function.update_apply]
    have bits : ∀ i, ((p.slots.storePid k INVALID_PID).setBit k .FREE).Busy i ↔
        i ≠ k ∧ p.slots.Busy i := by
      intro i
      rw [Slots.busy_setBit_FREE k.isLt, Slots.storePid_busy]
    refine ⟨distinct, fun d kept => sound.positive d ((remaining d).mp kept).1,
      fun d kept => sound.inside d ((remaining d).mp kept).1, ?_, ?_, ?_⟩
    · intro i valid
      rw [pids] at valid ⊢
      split_ifs at valid ⊢ with here
      · exact absurd rfl valid
      · obtain ⟨d, member', at_, entry⟩ := sound.entry i valid
        refine ⟨d, (remaining d).mpr ⟨member', fun same => here ?_⟩, at_, entry⟩
        obtain rfl := sound.unique member' member same
        exact Fin.ext (at_.symm.trans place.symm)
    · intro d kept serves
      obtain ⟨member', other⟩ := (remaining d).mp kept
      obtain ⟨busy, entry⟩ := sound.serving d member' serves
      have elsewhere : d.slot ≠ k := fun here =>
        other ((entry k here.symm).symm.trans stored)
      refine ⟨(bits _).mpr ⟨elsewhere, busy⟩, fun i at_ => ?_⟩
      rw [pids, if_neg (fun here => elsewhere (by rw [← here, at_]))]
      exact entry i at_
    · intro i busy
      rw [bits] at busy
      rw [pids, if_neg (fun here => busy.1 (congrArg Fin.val here))]
      exact sound.busy i busy.2

/-- Every event keeps the invariant. -/
theorem step (sound : Sound p) {event : ChildEvent} (taken : Step p event p')
    (room : Room p event) : Sound p' := by
  cases event with
  | accept pid =>
      obtain ⟨slot, lowest⟩ := Slots.exists_lowest room
      have effects : forked (acceptConnection p.slots pid).2 = some slot := by
        rw [(accepted_of_free lowest pid).effects]
        rfl
      simp only [Step, Processes.step, effects, Option.bind_eq_bind,
        Option.bind_some] at taken
      split_ifs at taken with fresh
      obtain rfl := Option.some.inj taken
      exact sound.accept lowest fresh.1 fresh.2
  | free pid =>
      obtain ⟨c, found, taken⟩ := Option.bind_eq_some_iff.mp taken
      split_ifs at taken with serves
      obtain rfl := Option.some.inj taken
      exact sound.free found serves
  | exit pid =>
      obtain ⟨c, _, taken⟩ := Option.bind_eq_some_iff.mp taken
      split_ifs at taken
      obtain rfl := Option.some.inj taken
      exact sound.ends
  | die pid =>
      obtain ⟨c, _, taken⟩ := Option.bind_eq_some_iff.mp taken
      split_ifs at taken
      obtain rfl := Option.some.inj taken
      exact sound.ends
  | reap pid =>
      obtain ⟨c, found, taken⟩ := Option.bind_eq_some_iff.mp taken
      split_ifs at taken with dead
      obtain rfl := Option.some.inj taken
      exact sound.reap found dead

/-- What the invariant says of the slots. -/
theorem allocated (sound : Sound p) : Allocated p := by
  have apart : ∀ c ∈ p.children, ∀ d ∈ p.children, c.stage = .serving →
      d.stage = .serving → c ≠ d → c.slot ≠ d.slot := by
    intro c member d member' serves serves' other same
    have entry := (sound.serving c member serves).2
      ⟨c.slot, sound.inside c member⟩ rfl
    have entry' := (sound.serving d member' serves').2
      ⟨c.slot, sound.inside c member⟩ same
    exact other (sound.unique member member' (entry.symm.trans entry'))
  refine ⟨apart, ?_, ?_, ?_, ?_, ?_⟩
  · intro c member d member' serves serves' other same
    exact apart c member d member' serves serves' other (Nat.add_left_cancel same)
  · exact fun c member _ => sound.inside c member
  · exact fun c member serves => (sound.serving c member serves).1
  · exact fun c member serves => (sound.serving c member serves).2
  · exact fun i busy => sound.entry i (sound.busy i busy)

end Sound

end Processes

/-- In every run of the server, whatever the order of its events, children that
serve a client have slots of their own, and no slot is leaked. -/
theorem slots_allocated {events : List ChildEvent} {p : Processes}
    (run : Run (Within Processes.Step Processes.Room) Processes.initial events p) :
    Allocated p := by
  have sound : p.Sound :=
    run.invariant .initial fun sound taken => sound.step taken.1 taken.2
  exact sound.allocated

instance (p : Processes) : DecidablePred p.Room := fun event =>
  match event with
  | .accept _ => decidable_of_iff
      ((List.range MAX_CLIENTS).any fun i => p.slots.getBit i = 0) (by
        simp [Processes.Room, Slots.Free])
  | .free _ => .isTrue trivial
  | .exit _ => .isTrue trivial
  | .die _ => .isTrue trivial
  | .reap _ => .isTrue trivial

/-- The slot of the first child is given away again before the child is reaped;
the second one dies without freeing its slot. -/
theorem slots_allocated_reused :
    ∃ p, Run (Within Processes.Step Processes.Room) Processes.initial
        [.accept 10, .accept 11, .free 10, .accept 12, .exit 10, .die 11, .reap 10] p ∧
      p.children = [⟨11, 1, .zombie⟩, ⟨12, 0, .serving⟩] ∧ Allocated p := by
  have computed : (stepAll Processes.step Processes.Room Processes.initial
      [.accept 10, .accept 11, .free 10, .accept 12, .exit 10, .die 11,
        .reap 10]).map (fun p => p.children) =
      some [⟨11, 1, .zombie⟩, ⟨12, 0, .serving⟩] := by
    decide +kernel
  obtain ⟨p, computed, children⟩ := Option.map_eq_some_iff.mp computed
  have run := run_of_stepAll _ _ computed
  exact ⟨p, run, children, slots_allocated run⟩

end Spqr
