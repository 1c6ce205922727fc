/-
Module: Spqr.Sharing
Purpose: The slots over runs in which the parent and its children share the bitmask
  one load and one store at a time: what holds while their updates do not overlap,
  and what an overlap does.
Trusted boundary: a byte of the shared memory is loaded and stored as a whole
Main exports:
  SharingPc, Sharing, SharingEvent, Sharing.step, Sharing.Unraced, Sharing.Sound,
  Shared, sharing_allocated, lost_update
-/
import Spqr.Allocation

namespace Spqr

open Labelled

/-! ### Processes at their loads and stores -/

/-- The byte that `set_bit(client_id, state)` stores when it has loaded this one. -/
def BitState.apply (state : BitState) (clientId : ℕ) (loaded : UInt8) : UInt8 :=
  match state with
  | .BUSY => loaded ||| (1 <<< UInt8.ofNat (clientId % CHAR_BIT))
  | .FREE => loaded &&& ~~~(1 <<< UInt8.ofNat (clientId % CHAR_BIT))

/-- `shm_bitmask[byte_index] = byte` -/
def Slots.store (slots : Slots) (clientId : ℕ) (byte : UInt8) : Slots :=
  { slots with shmBitmask := slots.shmBitmask.setIfInBounds (clientId / CHAR_BIT) byte }

/-- Where `server_manage_client_connections` is. -/
inductive SharingPc where
  /-- in `select`, or in front of `waitpid` -/
  | select
  /-- at `get_bit(no_client)` -/
  | search (noClient : ℕ)
  /-- at the load of `set_bit(no_client, BUSY)` -/
  | acquire (noClient : ℕ)
  /-- and at its store -/
  | acquiring (noClient : ℕ) (loaded : UInt8)
  | fork (noClient : ℕ)
  /-- at `child_pids[no_client] = pid` -/
  | record (noClient : ℕ) (pid : ℤ)
  /-- at `child_pids[i] = INVALID_PID`, with the child reaped -/
  | clear (i : ℕ)
  /-- at the load of `set_bit(i, FREE)` -/
  | release (i : ℕ)
  /-- and at its store -/
  | releasing (i : ℕ) (loaded : UInt8)
deriving DecidableEq

/-- How far a child has got. -/
inductive SharerStage where
  | serving
  /-- at the store of `set_bit(no_client, FREE)` -/
  | freeing (loaded : UInt8)
  | leaving
  /-- dead, and not yet reaped -/
  | zombie
deriving DecidableEq

/-- The child may still be at work on its slot. -/
def SharerStage.live : SharerStage → Bool
  | .serving => true
  | .freeing _ => true
  | .leaving => false
  | .zombie => false

structure Sharer where
  pid : ℤ
  slot : ℕ
  stage : SharerStage
deriving DecidableEq

/-- The shared bitmask with `child_pids`, and the processes. -/
structure Sharing where
  slots : Slots
  parent : SharingPc
  children : List Sharer

/-- What happens next: one process gets as far as one access to the shared memory, or
one call. -/
inductive SharingEvent where
  /-- a handshake is completed -/
  | connect
  /-- the parent's next access -/
  | parent
  /-- `fork` returns this identifier -/
  | fork (pid : ℤ)
  /-- `waitpid` returns this identifier -/
  | reap (pid : ℤ)
  /-- the child's `set_bit(no_client, FREE)` loads the byte of its bit -/
  | load (pid : ℤ)
  /-- and stores it -/
  | store (pid : ℤ)
  | exit (pid : ℤ)
  | die (pid : ℤ)

namespace Sharing

def initial : Sharing := ⟨.initial, .select, []⟩

/-- The child with this identifier. -/
def find (s : Sharing) (pid : ℤ) : Option Sharer :=
  s.children.find? fun c => c.pid = pid

/-- A child gets on. -/
def advance (s : Sharing) (pid : ℤ) (stage : SharerStage) : List Sharer :=
  s.children.map fun c => if c.pid = pid then { c with stage := stage } else c

/-- The parent up to its next access. -/
def parentStep (s : Sharing) : Option Sharing :=
  match s.parent with
  | .search noClient =>
      if s.slots.getBit noClient = 0 then some { s with parent := .acquire noClient }
      else if noClient < MAX_CLIENTS - 1 then
        some { s with parent := .search (noClient + 1) }
      -- the client is told that the server is busy, and the search loop goes on
      else some { s with parent := .fork MAX_CLIENTS }
  | .acquire noClient =>
      some { s with parent := .acquiring noClient (s.slots.shmBitmask.byteOf noClient) }
  | .acquiring noClient loaded =>
      some { s with
        slots := s.slots.store noClient (BitState.BUSY.apply noClient loaded)
        parent := .fork noClient }
  | .record noClient pid =>
      some { s with slots := s.slots.storePid noClient pid, parent := .select }
  | .clear i =>
      some { s with slots := s.slots.storePid i INVALID_PID, parent := .release i }
  | .release i => some { s with parent := .releasing i (s.slots.shmBitmask.byteOf i) }
  | .releasing i loaded =>
      some { s with
        slots := s.slots.store i (BitState.FREE.apply i loaded)
        parent := .select }
  | _ => none

/-- The state after an event, if it can happen. -/
def step (s : Sharing) : SharingEvent → Option Sharing
  | .connect => if s.parent = .select then some { s with parent := .search 0 } else none
  | .parent => s.parentStep
  | .fork pid =>
      match s.parent with
      | .fork noClient =>
          if 0 < pid ∧ s.find pid = none then
            some { s with
              parent := .record noClient pid
              children := s.children ++ [⟨pid, noClient, .serving⟩] }
          else none
      | _ => none
  | .reap pid => do
      let c ← s.find pid
      if s.parent = .select ∧ c.stage = .zombie then
        let children := s.children.filter fun c => c.pid ≠ pid
        match (List.finRange MAX_CLIENTS).find? fun i => s.slots.childPids i = pid with
        | some i => some { s with parent := .clear i, children := children }
        | none => some { s with children := children }
      else none
  | .load pid => do
      let c ← s.find pid
      if c.stage = .serving then
        some { s with
          children := s.advance pid (.freeing (s.slots.shmBitmask.byteOf c.slot)) }
      else none
  | .store pid => do
      let c ← s.find pid
      match c.stage with
      | .freeing loaded =>
          some { s with
            slots := s.slots.store c.slot (BitState.FREE.apply c.slot loaded)
            children := s.advance pid .leaving }
      | _ => none
  | .exit pid => do
      let c ← s.find pid
      if c.stage = .leaving then some { s with children := s.advance pid .zombie }
      else none
  | .die pid => do
      let c ← s.find pid
      if c.stage = .zombie then none
      else some { s with children := s.advance pid .zombie }

/-- The step relation of the processes. -/
def Step (before : Sharing) (event : SharingEvent) (after : Sharing) : Prop :=
  before.step event = some after

/-- No other process has stored into the byte since it was loaded, and a child is forked
for a slot only. -/
def unraced (s : Sharing) : SharingEvent → Bool
  | .parent =>
      match s.parent with
      | .acquiring noClient loaded => s.slots.shmBitmask.byteOf noClient = loaded
      | .releasing i loaded => s.slots.shmBitmask.byteOf i = loaded
      | _ => true
  | .store pid =>
      match s.find pid with
      | some ⟨_, slot, .freeing loaded⟩ => s.slots.shmBitmask.byteOf slot = loaded
      | _ => true
  | .fork _ =>
      match s.parent with
      | .fork noClient => noClient < MAX_CLIENTS
      | _ => true
  | _ => true

/-- The event overlaps with no update of another process. -/
def Unraced (s : Sharing) (event : SharingEvent) : Prop := s.unraced event = true

instance (s : Sharing) (event : SharingEvent) : Decidable (s.Unraced event) :=
  inferInstanceAs (Decidable (_ = _))

end Sharing

/-- What the slots say of the children, and the children of the slots. -/
structure Shared (s : Sharing) : Prop where
  /-- Children at work have slots of their own. -/
  apart : ∀ c ∈ s.children, ∀ d ∈ s.children, c.stage.live = true →
    d.stage.live = true → c ≠ d → c.slot ≠ d.slot
  inside : ∀ c ∈ s.children, c.slot < MAX_CLIENTS
  busy : ∀ c ∈ s.children, c.stage.live = true → s.slots.getBit c.slot = 1
  /-- No slot is leaked: while the parent is not at work on one, every busy slot is
  that of a child that the parent is going to reap. -/
  owned : s.parent = .select → ∀ i : Fin MAX_CLIENTS, s.slots.getBit i = 1 →
    ∃ c ∈ s.children, c.slot = i ∧ s.slots.childPids i = c.pid

/-! ### One store -/

namespace Slots

variable {slots : Slots}

/-- A store of what `set_bit` makes of the byte that is still there is `set_bit`. -/
theorem store_apply (clientId : ℕ) (state : BitState) :
    slots.store clientId (state.apply clientId (slots.shmBitmask.byteOf clientId)) =
      slots.setBit clientId state := by
  cases state <;> rfl

end Slots

/-! ### The invariant -/

namespace SharingPc

/-- What the parent can rely on at each of its steps. -/
def Knows (s : Sharing) : SharingPc → Prop
  | .select => True
  | .search noClient => noClient < MAX_CLIENTS
  | .acquire noClient => noClient < MAX_CLIENTS ∧ ¬ s.slots.Busy noClient
  | .acquiring noClient _ => noClient < MAX_CLIENTS ∧ ¬ s.slots.Busy noClient
  | .fork noClient => noClient < MAX_CLIENTS → s.slots.Busy noClient ∧
      ∀ c ∈ s.children, c.stage.live = true → c.slot ≠ noClient
  | .record noClient pid => noClient < MAX_CLIENTS ∧
      (∃ c ∈ s.children, c.slot = noClient ∧ c.pid = pid) ∧
      ∀ c ∈ s.children, c.stage.live = true → c.slot = noClient → c.pid = pid
  | .clear i => i < MAX_CLIENTS ∧
      ∀ k : Fin MAX_CLIENTS, k = i → ∀ c ∈ s.children, s.slots.childPids k ≠ c.pid
  | .release i => i < MAX_CLIENTS ∧
      ∀ k : Fin MAX_CLIENTS, k = i → s.slots.childPids k = INVALID_PID
  | .releasing i _ => i < MAX_CLIENTS ∧
      ∀ k : Fin MAX_CLIENTS, k = i → s.slots.childPids k = INVALID_PID

/-- The parent is at work on this slot. -/
def holds (i : ℕ) : SharingPc → Prop
  | .fork noClient => i = noClient
  | .record noClient _ => i = noClient
  | .release j => i = j
  | .releasing j _ => i = j
  | _ => False

end SharingPc

namespace Sharing

/-- Every entry of `child_pids` is a child that has not been reaped, in its slot, unless the
parent is about to clear it; a child at work has its bit, and its entry as soon as the
parent has written it; a busy slot has an entry, unless the parent is at work on it. -/
structure Sound (s : Sharing) : Prop where
  distinct : (s.children.map Sharer.pid).Nodup
  positive : ∀ c ∈ s.children, 0 < c.pid
  inside : ∀ c ∈ s.children, c.slot < MAX_CLIENTS
  entry : ∀ i : Fin MAX_CLIENTS, s.slots.childPids i ≠ INVALID_PID →
    s.parent = .clear i ∨ ∃ c ∈ s.children, c.slot = i ∧ s.slots.childPids i = c.pid
  live : ∀ c ∈ s.children, c.stage.live = true → s.slots.Busy c.slot ∧
    (s.parent = .record c.slot c.pid ∨
      ∀ i : Fin MAX_CLIENTS, i = c.slot → s.slots.childPids i = c.pid)
  busy : ∀ i : Fin MAX_CLIENTS, s.slots.Busy i →
    s.parent.holds i ∨ s.slots.childPids i ≠ INVALID_PID
  knows : s.parent.Knows s

namespace Sound

variable {s s' : Sharing} {pid : ℤ}

theorem initial : Sound Sharing.initial := by
  have start : Processes.initial.Sound := .initial
  refine ⟨List.nodup_nil, by simp [Sharing.initial], by simp [Sharing.initial],
    fun i stored => absurd rfl stored, by simp [Sharing.initial], ?_, trivial⟩
  exact fun i busy => .inr (start.busy i busy)

/-- Unless the parent is about to clear it, an entry is a child. -/
theorem stored (sound : Sound s) (unclear : ∀ i, s.parent ≠ .clear i) {i : Fin MAX_CLIENTS}
    (valid : s.slots.childPids i ≠ INVALID_PID) :
    ∃ c ∈ s.children, c.slot = i ∧ s.slots.childPids i = c.pid :=
  (sound.entry i valid).resolve_left (unclear i)

/-- Two children with one identifier are one child. -/
theorem unique (sound : Sound s) {c d : Sharer} (member : c ∈ s.children)
    (member' : d ∈ s.children) (same : c.pid = d.pid) : c = d :=
  List.inj_on_of_nodup_map sound.distinct member member' same

/-- Two children at work have slots of their own. -/
theorem apart (sound : Sound s) {c d : Sharer} (member : c ∈ s.children)
    (member' : d ∈ s.children) (live : c.stage.live = true) (live' : d.stage.live = true)
    (other : c ≠ d) : c.slot ≠ d.slot := by
  intro same
  have known := sound.knows
  rcases (sound.live c member live).2 with recording | entry
  · rw [recording] at known
    have its := known.2.2 d member' live' same.symm
    exact other (sound.unique member member' its.symm)
  rcases (sound.live d member' live').2 with recording | entry'
  · rw [recording] at known
    exact other (sound.unique member member' (known.2.2 c member live same))
  · have inside := sound.inside c member
    have mine := entry ⟨c.slot, inside⟩ rfl
    exact other (sound.unique member member' (mine.symm.trans (entry' ⟨c.slot, inside⟩ same)))

theorem of_find {c : Sharer} (found : s.find pid = some c) :
    c ∈ s.children ∧ c.pid = pid :=
  ⟨List.mem_of_find?_eq_some found, by simpa using List.find?_some found⟩

theorem advance_pids (stage : SharerStage) :
    (s.advance pid stage).map Sharer.pid = s.children.map Sharer.pid := by
  rw [advance, List.map_map]
  apply List.map_congr_left
  intro c _
  rw [Function.comp_apply]
  split_ifs <;> rfl

/-- A child that has got on is one that was there before. -/
theorem of_advance (distinct : (s.children.map Sharer.pid).Nodup) {c : Sharer}
    (found : s.find pid = some c) {stage : SharerStage}
    (fades : stage.live = true → c.stage.live = true) {d : Sharer}
    (advanced : d ∈ s.advance pid stage) :
    ∃ e ∈ s.children, d.pid = e.pid ∧ d.slot = e.slot ∧
      (d.stage.live = true → e.stage.live = true ∧ (e = c → stage.live = true)) := by
  obtain ⟨member, rfl⟩ := of_find found
  obtain ⟨e, original, rfl⟩ := List.mem_map.mp advanced
  refine ⟨e, original, ?_⟩
  split_ifs with same
  · obtain rfl := List.inj_on_of_nodup_map distinct original member same
    exact ⟨rfl, rfl, fun live => ⟨fades live, fun _ => live⟩⟩
  · refine ⟨rfl, rfl, fun live => ⟨live, ?_⟩⟩
    rintro rfl
    exact absurd rfl same

/-- And every one that was there is still there. -/
theorem mem_advance {e : Sharer} (original : e ∈ s.children) (stage : SharerStage) :
    ∃ d ∈ s.advance pid stage, d.pid = e.pid ∧ d.slot = e.slot := by
  refine ⟨_, List.mem_map_of_mem original, ?_⟩
  split_ifs <;> exact ⟨rfl, rfl⟩

/-- What the parent knows is still so when a child gets on. -/
theorem knows_advance (sound : Sound s) {c : Sharer} (found : s.find pid = some c)
    {stage : SharerStage} (fades : stage.live = true → c.stage.live = true)
    {slots : Slots} (pids : slots.childPids = s.slots.childPids)
    (fewer : ∀ j, slots.Busy j → s.slots.Busy j)
    (kept : ∀ j, s.slots.Busy j →
      (c.stage.live = true → stage.live = false → j ≠ c.slot) → slots.Busy j) :
    s.parent.Knows { s with slots := slots, children := s.advance pid stage } := by
  have known := sound.knows
  have member := (of_find found).1
  cases parent : s.parent with
  | select => trivial
  | search noClient => rw [parent] at known; exact known
  | acquire noClient =>
      rw [parent] at known
      exact ⟨known.1, fun busy => known.2 (fewer _ busy)⟩
  | acquiring noClient loaded =>
      rw [parent] at known
      exact ⟨known.1, fun busy => known.2 (fewer _ busy)⟩
  | fork noClient =>
      rw [parent] at known
      intro inside
      obtain ⟨busy, vacant⟩ := known inside
      refine ⟨kept _ busy fun live _ => (vacant c member live).symm, ?_⟩
      intro d advanced live
      obtain ⟨e, original, _, sameSlot, was⟩ :=
        of_advance sound.distinct found fades advanced
      exact sameSlot ▸ vacant e original (was live).1
  | record noClient pid =>
      rw [parent] at known
      obtain ⟨inside, ⟨e, original, place, its⟩, only⟩ := known
      obtain ⟨d, advanced, samePid, sameSlot⟩ := mem_advance original stage
      refine ⟨inside, ⟨d, advanced, sameSlot.trans place, samePid.trans its⟩, ?_⟩
      intro d advanced live at_
      obtain ⟨e, original, samePid, sameSlot, was⟩ :=
        of_advance sound.distinct found fades advanced
      exact samePid.trans (only e original (was live).1 (sameSlot.symm.trans at_))
  | clear i =>
      rw [parent] at known
      refine ⟨known.1, fun k place d advanced => ?_⟩
      obtain ⟨e, original, samePid, _⟩ := of_advance sound.distinct found fades advanced
      dsimp only
      rw [pids, samePid]
      exact known.2 k place e original
  | release i =>
      rw [parent] at known
      exact ⟨known.1, fun k place => by dsimp only; rw [pids]; exact known.2 k place⟩
  | releasing i loaded =>
      rw [parent] at known
      exact ⟨known.1, fun k place => by dsimp only; rw [pids]; exact known.2 k place⟩

/-- A child gets on, and may have cleared its bit. -/
theorem child (sound : Sound s) {c : Sharer} (found : s.find pid = some c)
    {stage : SharerStage} (fades : stage.live = true → c.stage.live = true)
    {slots : Slots} (pids : slots.childPids = s.slots.childPids)
    (fewer : ∀ j, slots.Busy j → s.slots.Busy j)
    (others : ∀ j, s.slots.Busy j → slots.Busy j ∨
      j = c.slot ∧ c.stage.live = true ∧ stage.live = false) :
    Sound { s with slots := slots, children := s.advance pid stage } := by
  have member := (of_find found).1
  -- a bit that a live child or the parent needs is not the one that is cleared
  have kept : ∀ j, s.slots.Busy j →
      (c.stage.live = true → stage.live = false → j ≠ c.slot) → slots.Busy j := by
    intro j busy elsewhere
    rcases others j busy with stays | ⟨here, live, left⟩
    · exact stays
    · exact absurd here (elsewhere live left)
  refine ⟨?_, ?_, ?_, ?_, ?_, ?_, ?_⟩
  · dsimp only
    rw [advance_pids]
    exact sound.distinct
  · intro d advanced
    obtain ⟨e, original, same, _⟩ := of_advance sound.distinct found fades advanced
    exact same ▸ sound.positive e original
  · intro d advanced
    obtain ⟨e, original, _, same, _⟩ := of_advance sound.distinct found fades advanced
    exact same ▸ sound.inside e original
  · intro i stored
    dsimp only at stored ⊢
    rw [pids] at stored ⊢
    apply (sound.entry i stored).imp id
    rintro ⟨e, original, place, entry⟩
    obtain ⟨d, advanced, samePid, sameSlot⟩ := mem_advance original stage
    exact ⟨d, advanced, sameSlot.trans place, entry.trans samePid.symm⟩
  · intro d advanced live
    obtain ⟨e, original, samePid, sameSlot, was⟩ :=
      of_advance sound.distinct found fades advanced
    obtain ⟨live, mine⟩ := was live
    obtain ⟨busy, entry⟩ := sound.live e original live
    dsimp only
    rw [pids, samePid, sameSlot]
    refine ⟨kept _ busy fun live' left => ?_, entry⟩
    by_cases self : e = c
    · rw [mine self] at left
      cases left
    · exact sound.apart original member live live' self
  · intro i busy
    dsimp only
    rw [pids]
    exact sound.busy i (fewer i busy)
  · exact sound.knows_advance found fades pids fewer kept

/-- The parent gets on without storing anything. -/
theorem proceed (sound : Sound s) {pc : SharingPc}
    (was : ∀ noClient pid, s.parent ≠ .record noClient pid)
    (unclear : ∀ i, s.parent ≠ .clear i)
    (holds : ∀ i, s.parent.holds i → pc.holds i)
    (knows : pc.Knows { s with parent := pc }) : Sound { s with parent := pc } := by
  refine ⟨sound.distinct, sound.positive, sound.inside,
    fun i valid => .inr (sound.stored unclear valid), ?_, ?_, knows⟩
  · intro c member live
    obtain ⟨busy, recording | entry⟩ := sound.live c member live
    · exact absurd recording (was _ _)
    · exact ⟨busy, .inr entry⟩
  · intro i busy
    exact (sound.busy i busy).imp (holds i) id

/-- The parent sets the bit of a slot that it has found free. -/
theorem acquired (sound : Sound s) {noClient : ℕ} {loaded : UInt8}
    (parent : s.parent = .acquiring noClient loaded) :
    Sound { s with slots := s.slots.setBit noClient .BUSY, parent := .fork noClient } := by
  have known := sound.knows
  rw [parent] at known
  obtain ⟨inside, idle⟩ := known
  have vacant : ∀ c ∈ s.children, c.stage.live = true → c.slot ≠ noClient := by
    rintro c member live rfl
    exact idle (sound.live c member live).1
  refine ⟨sound.distinct, sound.positive, sound.inside, ?_, ?_, ?_, ?_⟩
  · dsimp only
    rw [Slots.setBit_childPids]
    exact fun i valid => .inr (sound.stored (by simp [parent]) valid)
  · intro c member live
    dsimp only
    rw [Slots.setBit_childPids]
    obtain ⟨busy, recording | entry⟩ := sound.live c member live
    · rw [parent] at recording
      cases recording
    · exact ⟨(Slots.busy_setBit_BUSY inside _).mpr (.inr busy), .inr entry⟩
  · intro i busy
    dsimp only at busy ⊢
    rw [Slots.setBit_childPids]
    rcases (Slots.busy_setBit_BUSY inside _).mp busy with here | busy
    · exact .inl here
    · rcases sound.busy i busy with held | entry
      · rw [parent] at held
        cases held
      · exact .inr entry
  · exact fun _ => ⟨(Slots.busy_setBit_BUSY inside _).mpr (.inl rfl), vacant⟩

/-- `fork` returns. -/
theorem forked (sound : Sound s) {noClient : ℕ} (parent : s.parent = .fork noClient)
    (inside : noClient < MAX_CLIENTS) (real : 0 < pid) (fresh : s.find pid = none) :
    Sound { s with
      parent := .record noClient pid
      children := s.children ++ [⟨pid, noClient, .serving⟩] } := by
  have known := sound.knows
  rw [parent] at known
  obtain ⟨busy, vacant⟩ := known inside
  have others : ∀ c ∈ s.children, c.pid ≠ pid := by
    simpa [find] using fresh
  refine ⟨?_, ?_, ?_, ?_, ?_, ?_, inside, ?_, ?_⟩
  · rw [List.map_append, List.map_singleton, List.nodup_append']
    refine ⟨sound.distinct, List.nodup_singleton _, ?_⟩
    rw [List.disjoint_singleton]
    rintro member
    obtain ⟨c, member, same⟩ := List.mem_map.mp member
    exact others c member same
  · intro c member
    rcases List.mem_append.mp member with member | new
    · exact sound.positive c member
    · obtain rfl := List.mem_singleton.mp new
      exact real
  · intro c member
    rcases List.mem_append.mp member with member | new
    · exact sound.inside c member
    · obtain rfl := List.mem_singleton.mp new
      exact inside
  · intro i valid
    obtain ⟨c, member, place, entry⟩ := sound.stored (by simp [parent]) valid
    exact .inr ⟨c, List.mem_append_left _ member, place, entry⟩
  · intro c member live
    rcases List.mem_append.mp member with member | new
    · obtain ⟨busy, recording | entry⟩ := sound.live c member live
      · rw [parent] at recording
        cases recording
      · exact ⟨busy, .inr entry⟩
    · obtain rfl := List.mem_singleton.mp new
      exact ⟨busy, .inl rfl⟩
  · intro i busy
    rcases sound.busy i busy with held | entry
    · rw [parent] at held
      exact .inl held
    · exact .inr entry
  · exact ⟨_, List.mem_append_right _ (List.mem_singleton_self _), rfl, rfl⟩
  · intro c member live at_
    rcases List.mem_append.mp member with member | new
    · exact absurd at_ (vacant c member live)
    · obtain rfl := List.mem_singleton.mp new
      rfl

/-- The parent writes the entry of the child that it has forked. -/
theorem recorded (sound : Sound s) {noClient : ℕ} (parent : s.parent = .record noClient pid) :
    Sound { s with slots := s.slots.storePid noClient pid, parent := .select } := by
  have known := sound.knows
  rw [parent] at known
  obtain ⟨inside, ⟨child, member, place, its⟩, only⟩ := known
  have pids : ∀ i : Fin MAX_CLIENTS, (s.slots.storePid noClient pid).childPids i =
      if i.val = noClient then pid else s.slots.childPids i := by
    intro i
    rw [Slots.storePid_childPids ⟨noClient, inside⟩, Function.update_apply]
    simp only [Fin.ext_iff]
  refine ⟨sound.distinct, sound.positive, sound.inside, ?_, ?_, ?_, trivial⟩
  · intro i stored
    dsimp only at stored ⊢
    rw [pids] at stored ⊢
    split_ifs at stored ⊢ with here
    · exact .inr ⟨child, member, place.trans here.symm, its.symm⟩
    · exact .inr (sound.stored (by simp [parent]) stored)
  · intro c member' live
    obtain ⟨busy, entry⟩ := sound.live c member' live
    refine ⟨(Slots.storePid_busy _ _ _).mpr busy, .inr fun i at_ => ?_⟩
    rw [pids]
    split_ifs with here
    · exact (only c member' live (at_.symm.trans here)).symm
    · rcases entry with recording | entry
      · rw [parent] at recording
        cases recording
        exact absurd at_ here
      · exact entry i at_
  · intro i busy
    apply Or.inr
    rw [pids]
    split_ifs with here
    · have := sound.positive child member
      rw [INVALID_PID]
      omega
    · rcases sound.busy i ((Slots.storePid_busy _ _ _).mp busy) with held | entry
      · rw [parent] at held
        exact absurd held here
      · exact entry

/-- The parent clears the bit of a child that it has reaped. -/
theorem released (sound : Sound s) {i : ℕ} {loaded : UInt8}
    (parent : s.parent = .releasing i loaded) :
    Sound { s with slots := s.slots.setBit i .FREE, parent := .select } := by
  have known := sound.knows
  rw [parent] at known
  obtain ⟨inside, cleared⟩ := known
  refine ⟨sound.distinct, sound.positive, sound.inside, ?_, ?_, ?_, trivial⟩
  · dsimp only
    rw [Slots.setBit_childPids]
    exact fun i valid => .inr (sound.stored (by simp [parent]) valid)
  · intro c member live
    dsimp only
    rw [Slots.setBit_childPids]
    obtain ⟨busy, recording | entry⟩ := sound.live c member live
    · rw [parent] at recording
      cases recording
    refine ⟨(Slots.busy_setBit_FREE inside _).mpr ⟨?_, busy⟩, .inr entry⟩
    -- a child at work would have an entry there
    rintro rfl
    have gone := cleared ⟨c.slot, inside⟩ rfl
    rw [entry ⟨c.slot, inside⟩ rfl, INVALID_PID] at gone
    have := sound.positive c member
    omega
  · intro k busy
    dsimp only at busy ⊢
    rw [Slots.setBit_childPids]
    obtain ⟨other, busy⟩ := (Slots.busy_setBit_FREE inside _).mp busy
    rcases sound.busy k busy with held | entry
    · rw [parent] at held
      exact absurd held other
    · exact .inr entry

/-- A dead child is reaped: the parent is going to clear its entry, if it still has one. -/
theorem reaped (sound : Sound s) {c : Sharer} (found : s.find pid = some c)
    (parent : s.parent = .select) (dead : c.stage = .zombie) :
    (∀ i : Fin MAX_CLIENTS, s.slots.childPids i = pid →
      Sound { s with
        parent := .clear i
        children := s.children.filter fun c => c.pid ≠ pid }) ∧
    ((∀ i, s.slots.childPids i ≠ pid) →
      Sound { s with children := s.children.filter fun c => c.pid ≠ pid }) := by
  obtain ⟨member, rfl⟩ := of_find found
  have remaining : ∀ d, d ∈ s.children.filter (fun d => d.pid ≠ c.pid) ↔
      d ∈ s.children ∧ d.pid ≠ c.pid := by
    simp
  have distinct : ((s.children.filter fun d => d.pid ≠ c.pid).map Sharer.pid).Nodup :=
    sound.distinct.sublist (List.filter_sublist.map Sharer.pid)
  constructor
  · intro k stored
    have valid : s.slots.childPids k ≠ INVALID_PID := by
      have := sound.positive c member
      rw [stored, INVALID_PID]
      omega
    have place : c.slot = k := by
      obtain ⟨d, member', place, entry⟩ := sound.stored (by simp [parent]) valid
      rwa [sound.unique member' member (entry.symm.trans stored)] at place
    refine ⟨distinct, fun d kept => sound.positive d ((remaining d).mp kept).1,
      fun d kept => sound.inside d ((remaining d).mp kept).1, ?_, ?_, ?_, k.isLt, ?_⟩
    · intro i valid
      obtain ⟨d, member', at_, entry⟩ := sound.stored (by simp [parent]) valid
      by_cases here : i = k
      · exact .inl (by rw [here])
      · refine .inr ⟨d, (remaining d).mpr ⟨member', fun same => here ?_⟩, at_, entry⟩
        obtain rfl := sound.unique member' member same
        exact Fin.ext (at_.symm.trans place)
    · intro d kept live
      obtain ⟨member', other⟩ := (remaining d).mp kept
      obtain ⟨busy, recording | entry⟩ := sound.live d member' live
      · rw [parent] at recording
        cases recording
      · exact ⟨busy, .inr entry⟩
    · intro i busy
      rcases sound.busy i busy with held | entry
      · rw [parent] at held
        cases held
      · exact .inr entry
    · intro i at_ d kept same
      obtain rfl : i = k := Fin.ext at_
      exact ((remaining d).mp kept).2 (same.symm.trans stored)
  · intro gone
    refine ⟨distinct, fun d kept => sound.positive d ((remaining d).mp kept).1,
      fun d kept => sound.inside d ((remaining d).mp kept).1, ?_,
      fun d kept => sound.live d ((remaining d).mp kept).1, sound.busy, ?_⟩
    · intro i valid
      obtain ⟨d, member', at_, entry⟩ := sound.stored (by simp [parent]) valid
      exact .inr ⟨d, (remaining d).mpr ⟨member', fun same => gone i (entry.trans same)⟩, at_,
        entry⟩
    · dsimp only
      rw [parent]
      trivial

/-- The parent clears the entry of a child that it has reaped. -/
theorem cleared (sound : Sound s) {i : ℕ} (parent : s.parent = .clear i) :
    Sound { s with slots := s.slots.storePid i INVALID_PID, parent := .release i } := by
  have known := sound.knows
  rw [parent] at known
  obtain ⟨inside, reaped⟩ := known
  have pids : ∀ k : Fin MAX_CLIENTS, (s.slots.storePid i INVALID_PID).childPids k =
      if k.val = i then INVALID_PID else s.slots.childPids k := by
    intro k
    rw [Slots.storePid_childPids ⟨i, inside⟩, Function.update_apply]
    simp only [Fin.ext_iff]
  refine ⟨sound.distinct, sound.positive, sound.inside, ?_, ?_, ?_, inside, ?_⟩
  · intro k valid
    dsimp only at valid ⊢
    rw [pids] at valid ⊢
    split_ifs at valid ⊢ with here
    · exact absurd rfl valid
    · refine .inr ((sound.entry k valid).resolve_left fun clearing => here ?_)
      rw [parent] at clearing
      exact (SharingPc.clear.inj clearing).symm
  · intro c member live
    obtain ⟨busy, recording | entry⟩ := sound.live c member live
    · rw [parent] at recording
      cases recording
    refine ⟨(Slots.storePid_busy _ _ _).mpr busy, .inr fun k at_ => ?_⟩
    dsimp only
    rw [pids, if_neg]
    · exact entry k at_
    · intro here
      exact reaped k here c member (entry k at_)
  · intro k busy
    dsimp only at busy ⊢
    rw [pids]
    split_ifs with here
    · exact .inl here
    · rcases sound.busy k ((Slots.storePid_busy _ _ _).mp busy) with held | entry
      · rw [parent] at held
        cases held
      · exact .inr entry
  · intro k at_
    dsimp only
    rw [pids, if_pos at_]

/-- The parent gets on, where no other process has stored into a byte that it has
loaded. -/
theorem parentGoesOn (sound : Sound s) (taken : s.parentStep = some s')
    (unraced : s.Unraced .parent) : Sound s' := by
  have known := sound.knows
  simp only [Unraced, Sharing.unraced] at unraced
  cases parent : s.parent with
  | select => simp [parentStep, parent] at taken
  | search noClient =>
      simp only [parentStep, parent] at taken
      rw [parent] at known
      have next : ∀ pc : SharingPc, pc.Knows { s with parent := pc } →
          Sound { s with parent := pc } := fun pc knows =>
        sound.proceed (by simp [parent]) (by simp [parent])
          (by simp [parent, SharingPc.holds]) knows
      split_ifs at taken with idle last
      · obtain rfl := Option.some.inj taken
        exact next _ ⟨known, (Slots.getBit_eq_zero_iff _).mp idle⟩
      · obtain rfl := Option.some.inj taken
        exact next _ (show noClient + 1 < MAX_CLIENTS by omega)
      · obtain rfl := Option.some.inj taken
        exact next _ fun inside => absurd inside (lt_irrefl _)
  | acquire noClient =>
      simp only [parentStep, parent] at taken
      rw [parent] at known
      obtain rfl := Option.some.inj taken
      exact sound.proceed (by simp [parent]) (by simp [parent])
        (by simp [parent, SharingPc.holds]) known
  | acquiring noClient loaded =>
      simp only [parentStep, parent] at taken
      rw [parent] at unraced
      obtain rfl := Option.some.inj taken
      rw [← of_decide_eq_true unraced, Slots.store_apply]
      exact sound.acquired parent
  | fork noClient => simp [parentStep, parent] at taken
  | record noClient pid =>
      simp only [parentStep, parent] at taken
      obtain rfl := Option.some.inj taken
      exact sound.recorded parent
  | clear i =>
      simp only [parentStep, parent] at taken
      obtain rfl := Option.some.inj taken
      exact sound.cleared parent
  | release i =>
      simp only [parentStep, parent] at taken
      rw [parent] at known
      obtain rfl := Option.some.inj taken
      exact sound.proceed (by simp [parent]) (by simp [parent])
        (by simp [parent, SharingPc.holds]) known
  | releasing i loaded =>
      simp only [parentStep, parent] at taken
      rw [parent] at unraced
      obtain rfl := Option.some.inj taken
      rw [← of_decide_eq_true unraced, Slots.store_apply]
      exact sound.released parent

/-- Every event that does not overlap keeps the invariant. -/
theorem step (sound : Sound s) {event : SharingEvent} (taken : Step s event s')
    (unraced : s.Unraced event) : Sound s' := by
  cases event with
  | connect =>
      simp only [Step, Sharing.step] at taken
      split_ifs at taken with parent
      obtain rfl := Option.some.inj taken
      have first : 0 < MAX_CLIENTS := by decide
      exact sound.proceed (by simp [parent]) (by simp [parent])
        (by simp [parent, SharingPc.holds]) first
  | parent => exact sound.parentGoesOn taken unraced
  | fork pid =>
      simp only [Step, Sharing.step] at taken
      split at taken
      · rename_i noClient parent
        split_ifs at taken with fresh
        obtain rfl := Option.some.inj taken
        simp only [Unraced, Sharing.unraced, parent] at unraced
        exact sound.forked parent (of_decide_eq_true unraced) fresh.1 fresh.2
      · cases taken
  | reap pid =>
      obtain ⟨c, found, taken⟩ := Option.bind_eq_some_iff.mp taken
      split_ifs at taken with dead
      obtain ⟨stored, gone⟩ := sound.reaped found dead.1 dead.2
      simp only at taken
      split at taken
      · rename_i i entry
        obtain rfl := Option.some.inj taken
        exact stored i (by simpa using List.find?_some entry)
      · rename_i missing
        obtain rfl := Option.some.inj taken
        refine gone fun i => ?_
        simpa using List.find?_eq_none.mp missing i (List.mem_finRange i)
  | load pid =>
      obtain ⟨c, found, taken⟩ := Option.bind_eq_some_iff.mp taken
      split_ifs at taken with serves
      obtain rfl := Option.some.inj taken
      exact sound.child found (fun _ => by rw [serves]; rfl) rfl (fun _ => id)
        fun _ busy => .inl busy
  | store pid =>
      obtain ⟨c, found, taken⟩ := Option.bind_eq_some_iff.mp taken
      split at taken
      · rename_i loaded stage
        obtain rfl := Option.some.inj taken
        have inside := sound.inside c (of_find found).1
        obtain ⟨_, slot, _⟩ := c
        obtain rfl := stage
        simp only [Unraced, Sharing.unraced, found] at unraced
        rw [← of_decide_eq_true unraced, Slots.store_apply]
        refine sound.child found (fun left => by cases left) (Slots.setBit_childPids _ _) ?_ ?_
        · exact fun j busy => ((Slots.busy_setBit_FREE inside _).mp busy).2
        · intro j busy
          by_cases here : j = slot
          · exact .inr ⟨here, rfl, rfl⟩
          · exact .inl ((Slots.busy_setBit_FREE inside _).mpr ⟨here, busy⟩)
      · cases taken
  | exit pid =>
      obtain ⟨c, found, taken⟩ := Option.bind_eq_some_iff.mp taken
      split_ifs at taken
      obtain rfl := Option.some.inj taken
      exact sound.child found (fun left => by cases left) rfl (fun _ => id)
        fun _ busy => .inl busy
  | die pid =>
      obtain ⟨c, found, taken⟩ := Option.bind_eq_some_iff.mp taken
      split_ifs at taken
      obtain rfl := Option.some.inj taken
      exact sound.child found (fun left => by cases left) rfl (fun _ => id)
        fun _ busy => .inl busy

/-- What the invariant says of the slots. -/
theorem shared (sound : Sound s) : Shared s where
  apart := fun _ member _ member' live live' other =>
    sound.apart member member' live live' other
  inside := sound.inside
  busy := fun c member live => (sound.live c member live).1
  owned := by
    intro parent i busy
    rcases sound.busy i busy with held | entry
    · rw [parent] at held
      cases held
    · exact sound.stored (by simp [parent]) entry

end Sound

end Sharing

/-- While no two updates of one byte overlap, children at work have slots of their own and
no slot is leaked, in whatever order the processes get at the shared memory. -/
theorem sharing_allocated {events : List SharingEvent} {s : Sharing}
    (run : Run (Within Sharing.Step Sharing.Unraced) Sharing.initial events s) :
    Shared s := by
  have sound : s.Sound :=
    run.invariant .initial fun sound taken => sound.step taken.1 taken.2
  exact sound.shared

/-- Two children, of which the first leaves before the parent looks for the second one's
slot, in the same byte. -/
theorem sharing_allocated_reused :
    ∃ s, Run (Within Sharing.Step Sharing.Unraced) Sharing.initial
        [.connect, .parent, .parent, .parent, .fork 10, .parent, .connect, .parent,
          .load 10, .store 10, .parent, .parent, .parent, .fork 11, .parent, .exit 10,
          .reap 10, .parent, .parent, .parent] s ∧
      s.children = [⟨11, 1, .serving⟩] ∧ Shared s := by
  have computed : (stepAll Sharing.step Sharing.Unraced Sharing.initial
      [.connect, .parent, .parent, .parent, .fork 10, .parent, .connect, .parent,
        .load 10, .store 10, .parent, .parent, .parent, .fork 11, .parent, .exit 10,
        .reap 10, .parent, .parent, .parent]).map (fun s => s.children) =
      some [⟨11, 1, .serving⟩] := by
    decide +kernel
  obtain ⟨s, computed, children⟩ := Option.map_eq_some_iff.mp computed
  have run := run_of_stepAll _ _ computed
  exact ⟨s, run, children, sharing_allocated run⟩

/-! ### Overlapping updates -/

namespace Sharing

variable {s s' : Sharing} {pid : ℤ}

theorem find_advance (slots : Slots) (parent : SharingPc) (other : ℤ)
    (stage : SharerStage) :
    find ⟨slots, parent, s.advance other stage⟩ pid =
      (s.find pid).map fun c => if c.pid = other then { c with stage := stage } else c := by
  have same : (fun c : Sharer => decide (c.pid = pid)) ∘
      (fun c => if c.pid = other then { c with stage := stage } else c) =
        fun c => decide (c.pid = pid) := by
    funext c
    rw [Function.comp_apply]
    split_ifs <;> rfl
  simp only [find, advance, List.find?_map, same]

theorem find_filter (slots : Slots) (parent : SharingPc) {other : ℤ}
    (different : other ≠ pid) :
    find ⟨slots, parent, s.children.filter fun c => c.pid ≠ pid⟩ other = s.find other := by
  rw [find, find, List.find?_filter]
  congr 1
  funext c
  by_cases here : c.pid = other
  · simp [here, different]
  · simp [here]

theorem parentStep_children (taken : s.parentStep = some s') :
    s'.children = s.children := by
  unfold parentStep at taken
  split at taken
  · split_ifs at taken <;> rw [← Option.some.inj taken]
  · rw [← Option.some.inj taken]
  · rw [← Option.some.inj taken]
  · rw [← Option.some.inj taken]
  · rw [← Option.some.inj taken]
  · rw [← Option.some.inj taken]
  · rw [← Option.some.inj taken]
  · cases taken

/-- If the child is at its store, then with this slot and this byte. -/
def Holding (pid : ℤ) (slot : ℕ) (loaded : UInt8) (s : Sharing) : Prop :=
  ∀ c, s.find pid = some c → ∀ byte, c.stage = .freeing byte →
    c.slot = slot ∧ byte = loaded

/-- A child gets on, this one to no new load. -/
theorem Holding.advance {slot : ℕ} {loaded : UInt8} (holding : Holding pid slot loaded s)
    (slots : Slots) (parent : SharingPc) {q : ℤ} {stage : SharerStage}
    (fresh : q = pid → ∀ byte, stage ≠ .freeing byte) :
    Holding pid slot loaded ⟨slots, parent, s.advance q stage⟩ := by
  intro c found byte freeing
  rw [find_advance] at found
  obtain ⟨d, there, rfl⟩ := Option.map_eq_some_iff.mp found
  split_ifs at freeing ⊢ with same
  · exact absurd freeing (fresh (same.symm.trans (Sound.of_find there).2) byte)
  · exact holding d there byte freeing

/-- A child is gone. -/
theorem Holding.filter {slot : ℕ} {loaded : UInt8} (holding : Holding pid slot loaded s)
    (slots : Slots) (parent : SharingPc) (q : ℤ) :
    Holding pid slot loaded ⟨slots, parent, s.children.filter fun c => c.pid ≠ q⟩ := by
  intro c found byte freeing
  obtain ⟨member, its⟩ := Sound.of_find found
  have remains : pid ≠ q := by
    rintro rfl
    simp [its] at member
  rw [find_filter slots parent remains] at found
  exact holding c found byte freeing

/-- Until it loads again, whatever the others do. -/
theorem Holding.step {slot : ℕ} {loaded : UInt8} (holding : Holding pid slot loaded s)
    {event : SharingEvent} (taken : Step s event s') (other : event ≠ .load pid) :
    Holding pid slot loaded s' := by
  cases event with
  | connect =>
      simp only [Step, Sharing.step] at taken
      split_ifs at taken
      obtain rfl := Option.some.inj taken
      exact holding
  | parent =>
      intro c found
      rw [find, parentStep_children taken] at found
      exact holding c found
  | fork q =>
      simp only [Step, Sharing.step] at taken
      split at taken
      · split_ifs at taken
        obtain rfl := Option.some.inj taken
        intro c found byte freeing
        simp only [find, List.find?_append, Option.or_eq_some_iff] at found
        rcases found with found | ⟨_, found⟩
        · exact holding c found byte freeing
        · rw [List.mem_singleton.mp (List.mem_of_find?_eq_some found)] at freeing
          cases freeing
      · cases taken
  | reap q =>
      obtain ⟨c, _, taken⟩ := Option.bind_eq_some_iff.mp taken
      split_ifs at taken
      simp only at taken
      split at taken
      · obtain rfl := Option.some.inj taken
        exact holding.filter _ _ q
      · obtain rfl := Option.some.inj taken
        exact holding.filter _ _ q
  | load q =>
      obtain ⟨c, _, taken⟩ := Option.bind_eq_some_iff.mp taken
      split_ifs at taken
      obtain rfl := Option.some.inj taken
      exact holding.advance _ _ fun same => absurd (congrArg SharingEvent.load same) other
  | store q =>
      obtain ⟨c, _, taken⟩ := Option.bind_eq_some_iff.mp taken
      split at taken
      · obtain rfl := Option.some.inj taken
        exact holding.advance _ _ fun _ _ => by simp
      · cases taken
  | exit q =>
      obtain ⟨c, _, taken⟩ := Option.bind_eq_some_iff.mp taken
      split_ifs at taken
      obtain rfl := Option.some.inj taken
      exact holding.advance _ _ fun _ _ => by simp
  | die q =>
      obtain ⟨c, _, taken⟩ := Option.bind_eq_some_iff.mp taken
      split_ifs at taken
      obtain rfl := Option.some.inj taken
      exact holding.advance _ _ fun _ _ => by simp

theorem Holding.run {slot : ℕ} {byte : UInt8} {events : List SharingEvent}
    (holding : Holding pid slot byte s) (run : Run Step s events s')
    (once : .load pid ∉ events) : Holding pid slot byte s' := by
  induction run with
  | refl => exact holding
  | tail _ final inductionHypothesis =>
      rw [List.mem_append, List.mem_singleton, not_or] at once
      exact (inductionHypothesis once.1).step final (Ne.symm once.2)

end Sharing

/-- What a store of `set_bit(client_id, FREE)` leaves of the other bits of its byte: what
they were when the byte was loaded. -/
theorem Slots.getBit_store {before slots : Slots} {clientId j : ℕ}
    (sameByte : j / CHAR_BIT = clientId / CHAR_BIT) (other : j ≠ clientId) :
    (slots.store clientId
      (BitState.FREE.apply clientId (before.shmBitmask.byteOf clientId))).getBit j =
      before.getBit j := by
  have small := Nat.mod_lt clientId (by decide : 0 < 8)
  have small' := Nat.mod_lt j (by decide : 0 < 8)
  rw [CHAR_BIT] at sameByte
  have apart : clientId % 8 ≠ j % 8 := by omega
  have loaded : before.shmBitmask.byteOf j = before.shmBitmask.byteOf clientId := by
    rw [Bitmask.byteOf, Bitmask.byteOf, sameByte]
  suffices same : (slots.store clientId (BitState.FREE.apply clientId
      (before.shmBitmask.byteOf clientId))).shmBitmask.has j =
        before.shmBitmask.has j by
    rw [Slots.getBit, Slots.getBit, Bitmask.get_eq, Bitmask.get_eq, same]
  by_cases inside : clientId / 8 < SHM_SIZE
  · rw [Bitmask.has, Bitmask.has, Slots.store, CHAR_BIT,
      Bitmask.byteOf_setIfInBounds _ inside, if_pos sameByte.symm, BitState.apply, CHAR_BIT,
      Bitmask.getLsbD_and_not_one _ small small', decide_eq_false apart, loaded]
    rfl
  · -- past the end every byte reads as zero
    have zero : ∀ mask : Bitmask SHM_SIZE, mask.byteOf j = 0 := by
      intro mask
      rw [Bitmask.byteOf, Vector.getElem?_eq_none (by omega)]
      rfl
    rw [Bitmask.has, Bitmask.has, zero, zero]

/-- Whatever other processes do to a byte between the load and the store of a child that
frees its slot is undone: every other bit of the byte reads as it did at the load. -/
theorem lost_update {pid : ℤ} {s loaded stored after : Sharing}
    {events : List SharingEvent} (load : Sharing.Step s (.load pid) loaded)
    (run : Run Sharing.Step loaded events stored) (once : .load pid ∉ events)
    (store : Sharing.Step stored (.store pid) after) :
    ∃ c, s.find pid = some c ∧ ∀ j, j / CHAR_BIT = c.slot / CHAR_BIT → j ≠ c.slot →
      after.slots.getBit j = s.slots.getBit j := by
  obtain ⟨c, found, load⟩ := Option.bind_eq_some_iff.mp load
  split_ifs at load
  obtain rfl := Option.some.inj load
  refine ⟨c, found, fun j sameByte other => ?_⟩
  have holding : Sharing.Holding pid c.slot (s.slots.shmBitmask.byteOf c.slot)
      { s with
        children := s.advance pid (.freeing (s.slots.shmBitmask.byteOf c.slot)) } := by
    intro d there byte freeing
    rw [Sharing.find_advance, found, Option.map_some,
      if_pos (Sharing.Sound.of_find found).2] at there
    obtain rfl := Option.some.inj there
    exact ⟨rfl, (SharerStage.freeing.inj freeing).symm⟩
  have held := holding.run run once
  obtain ⟨d, there, store⟩ := Option.bind_eq_some_iff.mp store
  split at store
  · rename_i byte freeing
    obtain ⟨slot, same⟩ := held d there byte freeing
    obtain rfl := Option.some.inj store
    dsimp only
    rw [same, slot]
    exact Slots.getBit_store sameByte other
  · cases store

/-- The parent takes slot 1 between the load and the store of the child that frees
slot 0: the two connections after that are given the slots 0 and 1. -/
theorem lost_update_twice :
    ∃ s loaded stored after last c, Sharing.Step s (.load 10) loaded ∧
      Run Sharing.Step loaded [.parent, .parent, .fork 11, .parent] stored ∧
      Sharing.Step stored (.store 10) after ∧
      Run Sharing.Step after
        [.connect, .parent, .parent, .parent, .fork 12, .parent, .connect, .parent,
          .parent, .parent, .parent, .fork 13, .parent] last ∧
      s.find 10 = some c ∧
      (∀ j, j / CHAR_BIT = c.slot / CHAR_BIT → j ≠ c.slot →
        after.slots.getBit j = s.slots.getBit j) ∧
      last.children =
        [⟨10, 0, .leaving⟩, ⟨11, 1, .serving⟩, ⟨12, 0, .serving⟩, ⟨13, 1, .serving⟩] := by
  have computed : ((stepAll Sharing.step (fun _ _ => True) Sharing.initial
      [.connect, .parent, .parent, .parent, .fork 10, .parent, .connect, .parent,
        .parent]).bind fun s => (s.step (.load 10)).bind fun loaded =>
      (stepAll Sharing.step (fun _ _ => True) loaded
        [.parent, .parent, .fork 11, .parent]).bind fun stored =>
      (stored.step (.store 10)).bind fun after =>
      (stepAll Sharing.step (fun _ _ => True) after
        [.connect, .parent, .parent, .parent, .fork 12, .parent, .connect, .parent,
          .parent, .parent, .parent, .fork 13, .parent]).map fun last => last.children) =
      some [⟨10, 0, .leaving⟩, ⟨11, 1, .serving⟩, ⟨12, 0, .serving⟩, ⟨13, 1, .serving⟩] := by
    decide +kernel
  obtain ⟨s, _, computed⟩ := Option.bind_eq_some_iff.mp computed
  obtain ⟨loaded, load, computed⟩ := Option.bind_eq_some_iff.mp computed
  obtain ⟨stored, between, computed⟩ := Option.bind_eq_some_iff.mp computed
  obtain ⟨after, store, computed⟩ := Option.bind_eq_some_iff.mp computed
  obtain ⟨last, later, children⟩ := Option.map_eq_some_iff.mp computed
  have middle := (run_of_stepAll _ _ between).mono fun taken => taken.1
  have final := (run_of_stepAll _ _ later).mono fun taken => taken.1
  obtain ⟨c, found, undone⟩ := lost_update load middle (by simp) store
  exact ⟨s, loaded, stored, after, last, c, load, middle, store, final, found, undone,
    children⟩

end Spqr
