/-
Module: Spqr.Closedown
Purpose: The second loop of `parent_server_signal_handler`, which waits for each child,
  together with the sessions of the children it has stopped.
Trusted boundary: none
Main exports:
  Closedown, ClosedownEvent, Closedown.step, Closedown.Begun, Left.countdown,
  closedown_ends, closedown_hangs
-/
import Spqr.Shutdown
import Spqr.Sigterm

namespace Spqr

open Labelled

/-! ### The parent, its children and their clients -/

/-- Every entry of `child_pids` is a child: the signal has not arrived between `waitpid` and
`child_pids[i] = INVALID_PID`. -/
structure Named (s : Sharing) : Prop extends Listed s where
  unclear : ∀ i, s.parent ≠ .clear i

/-- The processes of the server, and the sessions they serve. -/
structure Closedown where
  shutdown : Shutdown
  /-- The session of the child in each entry of `child_pids`. -/
  sessions : Fin MAX_CLIENTS → Option Terminated

/-- What happens next. -/
inductive ClosedownEvent where
  /-- a step of one session -/
  | session (i : Fin MAX_CLIENTS) (event : TerminatedEvent)
  /-- the `exit` at the end of the handler of a child -/
  | exit (i : Fin MAX_CLIENTS)
  /-- the end of a `waitpid`, or of the loop -/
  | handler

/-- A signal, which no process of the system makes on its own. -/
def ClosedownEvent.isSignal : ClosedownEvent → Bool
  | .session _ event => event.isSignal
  | _ => false

namespace Closedown

/-- The state after an event, if it can happen. -/
def step (inst : Installation) (s : Closedown) : ClosedownEvent → Option Closedown
  | .session i event => do
      let before ← s.sessions i
      let after ← before.step inst event
      some { s with sessions := Function.update s.sessions i (some after) }
  | .exit i => do
      let ended ← s.sessions i
      if ended.hasExited then
        (s.shutdown.step (.run (.die (s.shutdown.sharing.slots.childPids i)))).map
          fun shutdown => { s with shutdown := shutdown }
      else none
  | .handler =>
      (s.shutdown.step .handler).map fun shutdown => { s with shutdown := shutdown }

/-- The step relation. -/
def Step (inst : Installation) (before : Closedown) (event : ClosedownEvent)
    (after : Closedown) : Prop :=
  before.step inst event = some after

/-- `SIGQUIT` does not find a client at its prompt. -/
def spares (s : Closedown) : ClosedownEvent → Bool
  | .session i event =>
      match s.sessions i with
      | some t => t.spares event
      | none => true
  | _ => true

/-- The event spares the clients at their prompts. -/
def Spares (s : Closedown) (event : ClosedownEvent) : Prop := s.spares event = true

instance (s : Closedown) (event : ClosedownEvent) : Decidable (s.Spares event) :=
  inferInstanceAs (Decidable (_ = _))

/-- No signal reaches the client of this session. -/
def Unsignalled (i : Fin MAX_CLIENTS) (_ : Closedown) (event : ClosedownEvent) : Prop :=
  ∀ sig, event ≠ .session i (.run (.signal sig))

/-- The handler begins to wait: every entry of `child_pids` is a child that has been sent
`SIGTERM` and has a session, and it is dead only where its own handler has run to its
`exit`. -/
structure Begun (s : Closedown) : Prop where
  waiting : s.shutdown.stage = some .waiting
  named : Named s.shutdown.sharing
  sessions : ∀ i, s.shutdown.sharing.slots.childPids i ≠ INVALID_PID ↔
    (s.sessions i).isSome
  stage : ∀ i c t, s.shutdown.sharing.find (s.shutdown.sharing.slots.childPids i) = some c →
    s.sessions i = some t → c.stage = .serving ∨ c.stage = .zombie ∧ t.hasExited = true

/-- The entries of `child_pids` that are children. -/
def entries (s : Closedown) : ℕ :=
  (Finset.univ.filter fun i => s.shutdown.sharing.slots.childPids i ≠ INVALID_PID).card

end Closedown

/-! ### Entries and the children they name -/

namespace Named

variable {s : Sharing}

/-- An entry names a child. -/
theorem find_entry (named : Named s) {i : Fin MAX_CLIENTS}
    (valid : s.slots.childPids i ≠ INVALID_PID) :
    ∃ c, s.find (s.slots.childPids i) = some c := by
  obtain ⟨c, member, _, its⟩ := (named.entry i valid).resolve_left (named.unclear i)
  exact Option.isSome_iff_exists.mp (List.find?_isSome.mpr ⟨c, member, by simp [its]⟩)

/-- What is named by an entry is a child. -/
theorem valid (named : Named s) {i : Fin MAX_CLIENTS} {c : Sharer}
    (found : s.find (s.slots.childPids i) = some c) :
    s.slots.childPids i ≠ INVALID_PID := by
  obtain ⟨member, its⟩ := Sharing.Sound.of_find found
  have := named.positive c member
  rw [← its, INVALID_PID]
  omega

/-- No child has two entries. -/
theorem apart (named : Named s) {i j : Fin MAX_CLIENTS}
    (valid : s.slots.childPids i ≠ INVALID_PID)
    (same : s.slots.childPids j = s.slots.childPids i) : j = i := by
  obtain ⟨c, member, place, its⟩ := (named.entry i valid).resolve_left (named.unclear i)
  exact Fin.ext ((named.slot_eq member (its.symm.trans same.symm)).symm.trans place)

end Named

namespace Sharing

variable {s s' : Sharing} {pid other : ℤ} {c : Sharer}

/-- A child that dies is the only one to change. -/
theorem die_cases (taken : s.step (.die pid) = some s') :
    ∃ c, s.find pid = some c ∧ c.stage ≠ .zombie ∧ s'.slots = s.slots ∧
      s'.find pid = some { c with stage := .zombie } ∧
        ∀ other, other ≠ pid → s'.find other = s.find other := by
  obtain ⟨c, found, taken⟩ := Option.bind_eq_some_iff.mp taken
  split_ifs at taken with dead
  obtain rfl := Option.some.inj taken
  have its := (Sound.of_find found).2
  refine ⟨c, found, dead, rfl, ?_, fun other different => ?_⟩
  · rw [find_advance, found, Option.map_some, if_pos its]
  · rw [find_advance]
    cases present : s.find other with
    | none => rfl
    | some d =>
        have named := (Sound.of_find present).2
        rw [Option.map_some, if_neg (by rw [named]; exact different)]

theorem die_of_find (found : s.find pid = some c) (alive : c.stage ≠ .zombie) :
    ∃ s', s.step (.die pid) = some s' := by
  rw [step, found, Option.bind_eq_bind, Option.bind_some, if_neg alive]
  exact ⟨_, rfl⟩

end Sharing

theorem Slots.nextEntry_valid {slots : Slots} {i : ℕ} {k : Fin MAX_CLIENTS}
    (next : slots.nextEntry i = some k) : slots.childPids k ≠ INVALID_PID := by
  have := List.find?_some next
  simp only [decide_eq_true_eq] at this
  exact this.2

/-! ### How much is left to do -/

/-- What is left to do for an entry of `child_pids`: the end of its session, the `exit` of
the child and the `waitpid` of the parent. -/
inductive Entry (sharing : Sharing) (session : Option Terminated) (i : Fin MAX_CLIENTS) :
    ℕ → Prop where
  | free (entry : sharing.slots.childPids i = INVALID_PID) (nobody : session = none) :
      Entry sharing session i 0
  | reaped {t : Terminated} {n : ℕ} (entry : sharing.slots.childPids i = INVALID_PID)
      (here : session = some t) (exited : t.hasExited = true) (parting : Parting n t) :
      Entry sharing session i n
  | dead {c : Sharer} {t : Terminated} {n : ℕ}
      (found : sharing.find (sharing.slots.childPids i) = some c) (stage : c.stage = .zombie)
      (here : session = some t) (exited : t.hasExited = true) (parting : Parting n t) :
      Entry sharing session i (n + 1)
  | ending {c : Sharer} {t : Terminated} {n : ℕ}
      (found : sharing.find (sharing.slots.childPids i) = some c) (stage : c.stage = .serving)
      (here : session = some t) (parting : Parting n t) : Entry sharing session i (n + 2)

namespace Entry

variable {inst : Installation} {sharing sharing' : Sharing} {session : Option Terminated}
  {i : Fin MAX_CLIENTS} {n : ℕ} {c : Sharer} {t t' : Terminated} {event : TerminatedEvent}

/-- A change of the processes that does not concern this entry. -/
theorem frame (entry : Entry sharing session i n)
    (pids : sharing'.slots.childPids i = sharing.slots.childPids i)
    (find : sharing'.find (sharing.slots.childPids i) =
      sharing.find (sharing.slots.childPids i)) : Entry sharing' session i n := by
  cases entry with
  | free entry nobody => exact .free (pids.trans entry) nobody
  | reaped entry here exited parting => exact .reaped (pids.trans entry) here exited parting
  | dead found stage here exited parting =>
      exact .dead (by rw [pids, find]; exact found) stage here exited parting
  | ending found stage here parting =>
      exact .ending (by rw [pids, find]; exact found) stage here parting

/-- A step of the session. -/
theorem session_spends (entry : Entry sharing session i n) (here : session = some t)
    (taken : Within (Terminated.Step inst) Terminated.Spares t event t') :
    ∃ m, m < n ∧ Entry sharing (some t') i m := by
  cases entry with
  | free entry nobody =>
      rw [nobody] at here
      cases here
  | reaped entry here' exited parting =>
      obtain rfl := Option.some.inj (here.symm.trans here')
      obtain ⟨m, fewer, nearer⟩ := parting.spends taken
      exact ⟨m, fewer, .reaped entry rfl (Terminated.hasExited_step exited taken.1) nearer⟩
  | dead found stage here' exited parting =>
      obtain rfl := Option.some.inj (here.symm.trans here')
      obtain ⟨m, fewer, nearer⟩ := parting.spends taken
      exact ⟨m + 1, by omega,
        .dead found stage rfl (Terminated.hasExited_step exited taken.1) nearer⟩
  | ending found stage here' parting =>
      obtain rfl := Option.some.inj (here.symm.trans here')
      obtain ⟨m, fewer, nearer⟩ := parting.spends taken
      exact ⟨m + 2, by omega, .ending found stage rfl nearer⟩

/-- A child that dies has yet to be waited for. -/
theorem of_alive (entry : Entry sharing session i n) (named : Named sharing)
    (here : session = some t)
    (found : sharing.find (sharing.slots.childPids i) = some c) (alive : c.stage ≠ .zombie) :
    ∃ m, n = m + 2 ∧ Parting m t := by
  cases entry with
  | free entry nobody => exact absurd entry (named.valid found)
  | reaped entry here' exited parting => exact absurd entry (named.valid found)
  | dead found' stage here' exited parting =>
      obtain rfl := Option.some.inj (found.symm.trans found')
      exact absurd stage alive
  | ending found' stage here' parting =>
      obtain rfl := Option.some.inj (here.symm.trans here')
      exact ⟨_, rfl, parting⟩

/-- A child that is waited for has come to the `exit` of its handler. -/
theorem of_dead (entry : Entry sharing session i n) (named : Named sharing)
    (found : sharing.find (sharing.slots.childPids i) = some c) (dead : c.stage = .zombie) :
    ∃ m t, n = m + 1 ∧ session = some t ∧ t.hasExited = true ∧ Parting m t := by
  cases entry with
  | free entry nobody => exact absurd entry (named.valid found)
  | reaped entry here exited parting => exact absurd entry (named.valid found)
  | dead found' stage here exited parting => exact ⟨_, _, rfl, here, exited, parting⟩
  | ending found' stage here parting =>
      obtain rfl := Option.some.inj (found.symm.trans found')
      rw [dead] at stage
      cases stage

/-- Where the entry is cleared, the child is gone. -/
theorem of_cleared (entry : Entry sharing session i n) (named : Named sharing)
    (cleared : sharing.slots.childPids i = INVALID_PID) (here : session = some t) :
    t.hasExited = true ∧ Parting n t := by
  cases entry with
  | free entry nobody =>
      rw [nobody] at here
      cases here
  | reaped entry here' exited parting =>
      obtain rfl := Option.some.inj (here.symm.trans here')
      exact ⟨exited, parting⟩
  | dead found => exact absurd cleared (named.valid found)
  | ending found => exact absurd cleared (named.valid found)

end Entry

/-! ### One step -/

namespace Closedown

variable {inst : Installation} {s s' : Closedown} {n : ℕ} {event : ClosedownEvent}
  {i : Fin MAX_CLIENTS}

theorem session_cases {event : TerminatedEvent}
    (taken : Step inst s (.session i event) s') :
    ∃ t t', s.sessions i = some t ∧ Terminated.Step inst t event t' ∧
      s'.shutdown = s.shutdown ∧ s'.sessions = Function.update s.sessions i (some t') := by
  obtain ⟨t, here, taken⟩ := Option.bind_eq_some_iff.mp taken
  obtain ⟨t', moves, taken⟩ := Option.bind_eq_some_iff.mp taken
  obtain rfl := Option.some.inj taken
  exact ⟨t, t', here, moves, rfl, rfl⟩

/-- A child whose handler has come to its `exit` dies. -/
theorem exit_cases (named : Named s.shutdown.sharing) (taken : Step inst s (.exit i) s') :
    ∃ t c, s.sessions i = some t ∧ t.hasExited = true ∧
      s.shutdown.sharing.find (s.shutdown.sharing.slots.childPids i) = some c ∧
      c.stage ≠ .zombie ∧
      s'.sessions = s.sessions ∧ s'.shutdown.stage = s.shutdown.stage ∧
      Named s'.shutdown.sharing ∧
      s'.shutdown.sharing.slots = s.shutdown.sharing.slots ∧
      s'.shutdown.sharing.find (s.shutdown.sharing.slots.childPids i) =
        some { c with stage := .zombie } ∧
      ∀ j, j ≠ i → s'.shutdown.sharing.find (s.shutdown.sharing.slots.childPids j) =
        s.shutdown.sharing.find (s.shutdown.sharing.slots.childPids j) := by
  obtain ⟨t, here, taken⟩ := Option.bind_eq_some_iff.mp taken
  split_ifs at taken with exited
  obtain ⟨shutdown, dies, rfl⟩ := Option.map_eq_some_iff.mp taken
  simp only [Shutdown.step, SharingEvent.ofChild, or_true, if_true] at dies
  obtain ⟨sharing, moves, rfl⟩ := Option.map_eq_some_iff.mp dies
  obtain ⟨listed, _, parent⟩ :=
    named.toListed.child (by rfl) (show Sharing.Step _ (.die _) _ from moves)
  have kept : Named sharing := ⟨listed, parent.symm ▸ named.unclear⟩
  obtain ⟨c, found, alive, slots, dead, others⟩ := Sharing.die_cases moves
  have valid := named.valid found
  exact ⟨t, c, here, exited, found, alive, rfl, rfl, kept, slots, dead,
    fun j different => others _ fun same => different (named.apart valid same)⟩

/-- The parent reaps the child of its next entry, or has found none and exits. -/
theorem handler_cases (named : Named s.shutdown.sharing)
    (waiting : s.shutdown.stage = some .waiting) (taken : Step inst s .handler s') :
    s'.sessions = s.sessions ∧ Named s'.shutdown.sharing ∧
      ((∃ k c, s.shutdown.sharing.find (s.shutdown.sharing.slots.childPids k) = some c ∧
          c.stage = .zombie ∧ s'.shutdown.stage = some .waiting ∧
          s'.shutdown.sharing.slots.childPids k = INVALID_PID ∧
          ∀ j, j ≠ k → s'.shutdown.sharing.slots.childPids j =
              s.shutdown.sharing.slots.childPids j ∧
            s'.shutdown.sharing.find (s.shutdown.sharing.slots.childPids j) =
              s.shutdown.sharing.find (s.shutdown.sharing.slots.childPids j)) ∨
        (∀ j, s.shutdown.sharing.slots.childPids j = INVALID_PID) ∧
          s'.shutdown.sharing = s.shutdown.sharing ∧ s'.shutdown.stage = some .exited) := by
  obtain ⟨shutdown, waits, rfl⟩ := Option.map_eq_some_iff.mp taken
  simp only [Shutdown.step, Shutdown.handlerStep, waiting] at waits
  split at waits
  · rename_i k next
    have valid := Slots.nextEntry_valid next
    obtain ⟨c, found⟩ := named.find_entry valid
    simp only [found] at waits
    split_ifs at waits with dead
    obtain rfl := Option.some.inj waits
    refine ⟨rfl, ⟨named.toListed.waited, named.unclear⟩,
      .inl ⟨k, c, found, dead, rfl, ?_, fun j different => ?_⟩⟩
    · dsimp only
      rw [Slots.storePid_childPids, Function.update_self]
    · refine ⟨?_, Sharing.find_filter _ _ fun same => different (named.apart valid same)⟩
      dsimp only
      rw [Slots.storePid_childPids, Function.update_of_ne different]
  · rename_i next
    obtain rfl := Option.some.inj waits
    exact ⟨rfl, named, .inr ⟨fun j => Slots.nextEntry_eq_none next (Nat.zero_le j), rfl, rfl⟩⟩

/-- What is not a signal spares the clients. -/
theorem spares_of_own (own : event.isSignal = false) : s.Spares event := by
  cases event with
  | session i event =>
      rw [Spares, Closedown.spares]
      split
      · exact Terminated.spares_of_own own
      · rfl
  | _ => rfl

theorem not_handler (gone : s.shutdown.stage = some .exited) : ¬ Step inst s .handler s' := by
  intro taken
  obtain ⟨shutdown, waits, _⟩ := Option.map_eq_some_iff.mp taken
  simp [Shutdown.step, Shutdown.handlerStep, gone] at waits

/-- A session that is not over goes on by itself. -/
theorem step_of_parting {t : Terminated} (here : s.sessions i = some t)
    (parting : Parting n t) (left : n ≠ 0) :
    ∃ event s', event.isSignal = false ∧ Step inst s event s' := by
  obtain ⟨event, t', own, moves, _⟩ := @Parting.goesOn inst _ _ parting left
  refine ⟨.session i event, { s with sessions := Function.update s.sessions i (some t') },
    own, ?_⟩
  rw [Step, step, here, Option.bind_eq_bind, Option.bind_some, moves]
  rfl

/-- A child whose session is not over can go on with it, and then exit. -/
theorem step_of_serving {c : Sharer} (named : Named s.shutdown.sharing)
    (entry : Entry s.shutdown.sharing (s.sessions i) i n)
    (found : s.shutdown.sharing.find (s.shutdown.sharing.slots.childPids i) = some c)
    (stage : c.stage = .serving) :
    ∃ event s', event.isSignal = false ∧ Step inst s event s' := by
  cases entry with
  | free entry nobody => exact absurd entry (named.valid found)
  | reaped entry here exited parting => exact absurd entry (named.valid found)
  | dead found' stage' here exited parting =>
      obtain rfl := Option.some.inj (found.symm.trans found')
      rw [stage] at stage'
      cases stage'
  | @ending c' t n found' stage' here parting =>
      rcases Nat.eq_zero_or_pos n with rfl | some_
      · obtain ⟨sharing, dies⟩ := Sharing.die_of_find found (by rw [stage]; simp)
        exact ⟨.exit i, ⟨{ s.shutdown with sharing := sharing }, s.sessions⟩, rfl, by
          simp [Step, step, here, parting.ends.handler, Shutdown.step,
            SharingEvent.ofChild, dies]⟩
      · exact step_of_parting here parting (Nat.ne_of_gt some_)

/-- Where every entry is a dead child, the parent can go on. -/
theorem step_handler (waiting : s.shutdown.stage = some .waiting)
    (dead : ∀ k, s.shutdown.sharing.slots.childPids k ≠ INVALID_PID →
      ∃ c, s.shutdown.sharing.find (s.shutdown.sharing.slots.childPids k) = some c ∧
        c.stage = .zombie) : ∃ event s', event.isSignal = false ∧ Step inst s event s' := by
  suffices goes : ∃ s', Step inst s .handler s' by
    obtain ⟨s', taken⟩ := goes
    exact ⟨.handler, s', rfl, taken⟩
  simp only [Step, step, Shutdown.step, Shutdown.handlerStep, waiting]
  cases next : s.shutdown.sharing.slots.nextEntry 0 with
  | none => exact ⟨_, rfl⟩
  | some k =>
      obtain ⟨c, found, stage⟩ := dead k (Slots.nextEntry_valid next)
      simp [found, stage]

/-! ### How much the system has left -/

/-- So many steps may be left: those of the entries, and the `exit` of the parent. -/
structure Left (n : ℕ) (s : Closedown) : Prop where
  named : Named s.shutdown.sharing
  left : ∃ left : Fin MAX_CLIENTS → ℕ,
    (∀ i, Entry s.shutdown.sharing (s.sessions i) i (left i)) ∧
      (s.shutdown.stage = some .waiting ∧ ∑ i, left i + 1 = n ∨
        s.shutdown.stage = some .exited ∧ ∑ i, left i = n ∧
          ∀ i, s.shutdown.sharing.slots.childPids i = INVALID_PID)

namespace Left

/-- One entry has got on. -/
theorem of_entry {left : Fin MAX_CLIENTS → ℕ} {m : ℕ} (fewer : m < left i)
    (changed : Entry s.shutdown.sharing (s.sessions i) i m)
    (others : ∀ j, j ≠ i → Entry s.shutdown.sharing (s.sessions j) j (left j)) :
    ∃ left' : Fin MAX_CLIENTS → ℕ, ∑ j, left' j < ∑ j, left j ∧
      ∀ j, Entry s.shutdown.sharing (s.sessions j) j (left' j) := by
  refine ⟨Function.update left i m, sum_update_lt left fewer, fun j => ?_⟩
  by_cases here : j = i
  · subst here
    rw [Function.update_self]
    exact changed
  · rw [Function.update_of_ne here]
    exact others j here

theorem spends (left : Left n s) (taken : Within (Step inst) Spares s event s') :
    ∃ m, m < n ∧ Left m s' := by
  obtain ⟨named, left, entries, place⟩ := left
  obtain ⟨taken, spares⟩ := taken
  cases event with
  | session i event =>
      obtain ⟨t, t', here, moves, same, sessions⟩ := session_cases taken
      rw [Spares, Closedown.spares, here] at spares
      obtain ⟨m, fewer, changed⟩ := (entries i).session_spends here ⟨moves, spares⟩
      rw [← same] at named changed entries place
      obtain ⟨left', total, entries'⟩ : ∃ left' : Fin MAX_CLIENTS → ℕ,
          ∑ j, left' j < ∑ j, left j ∧
            ∀ j, Entry s'.shutdown.sharing (s'.sessions j) j (left' j) := by
        apply of_entry fewer
        · rw [sessions, Function.update_self]
          exact changed
        · intro j different
          rw [sessions, Function.update_of_ne different]
          exact entries j
      rcases place with ⟨waiting, rfl⟩ | ⟨gone, rfl, empty⟩
      · exact ⟨_, by omega, named, left', entries', .inl ⟨waiting, rfl⟩⟩
      · exact ⟨_, total, named, left', entries', .inr ⟨gone, rfl, empty⟩⟩
  | exit i =>
      obtain ⟨t, c, here, exited, found, alive, sessions, stage, kept, slots, dead, others⟩ :=
        exit_cases named taken
      obtain ⟨m, total, parting⟩ := (entries i).of_alive named here found alive
      rcases place with ⟨waiting, rfl⟩ | ⟨_, _, empty⟩
      · obtain ⟨left', fewer, entries'⟩ : ∃ left' : Fin MAX_CLIENTS → ℕ,
            ∑ j, left' j < ∑ j, left j ∧
              ∀ j, Entry s'.shutdown.sharing (s'.sessions j) j (left' j) := by
          apply of_entry (show m + 1 < left i by omega)
          · exact .dead (by rw [slots]; exact dead) rfl (by rw [sessions]; exact here) exited
              parting
          · intro j different
            rw [sessions]
            exact (entries j).frame (by rw [slots]) (others j different)
        exact ⟨_, by omega, kept, left', entries', .inl ⟨stage.trans waiting, rfl⟩⟩
      · exact absurd (empty i) (named.valid found)
  | handler =>
      rcases place with ⟨waiting, rfl⟩ | ⟨gone, _⟩
      · obtain ⟨sessions, kept, ⟨k, c, found, dead, still, cleared, others⟩ |
          ⟨empty, same, gone⟩⟩ := handler_cases named waiting taken
        · obtain ⟨m, t, total, here, exited, parting⟩ := (entries k).of_dead named found dead
          obtain ⟨left', fewer, entries'⟩ : ∃ left' : Fin MAX_CLIENTS → ℕ,
              ∑ j, left' j < ∑ j, left j ∧
                ∀ j, Entry s'.shutdown.sharing (s'.sessions j) j (left' j) := by
            apply of_entry (show m < left k by omega)
            · exact .reaped cleared (by rw [sessions]; exact here) exited parting
            · intro j different
              rw [sessions]
              exact (entries j).frame (others j different).1 (others j different).2
          exact ⟨_, by omega, kept, left', entries', .inl ⟨still, rfl⟩⟩
        · refine ⟨∑ i, left i, Nat.lt_succ_self _, kept, left, fun i => ?_, .inr ⟨gone, rfl, ?_⟩⟩
          · rw [sessions, same]
            exact entries i
          · rw [same]
            exact empty
      · exact absurd taken (not_handler gone)

/-- While something is left, there is a step that is no signal. -/
theorem goesOn (left : Left n s) (some_ : n ≠ 0) :
    ∃ event s', event.isSignal = false ∧ Within (Step inst) Spares s event s' := by
  suffices goes : ∃ event s', event.isSignal = false ∧ Step inst s event s' by
    obtain ⟨event, s', own, taken⟩ := goes
    exact ⟨event, s', own, taken, spares_of_own own⟩
  obtain ⟨named, left, entries, ⟨waiting, rfl⟩ | ⟨_, rfl, empty⟩⟩ := left
  · by_cases serving : ∃ i c, s.shutdown.sharing.find
        (s.shutdown.sharing.slots.childPids i) = some c ∧ c.stage = .serving
    · obtain ⟨i, c, found, stage⟩ := serving
      exact step_of_serving named (entries i) found stage
    · apply step_handler waiting
      intro k valid
      obtain ⟨c, found⟩ := named.find_entry valid
      refine ⟨c, found, ?_⟩
      have entry := entries k
      generalize left k = m at entry
      cases entry with
      | free entry nobody => exact absurd entry valid
      | reaped entry here exited parting => exact absurd entry valid
      | dead found' stage here exited parting =>
          obtain rfl := Option.some.inj (found.symm.trans found')
          exact stage
      | ending found' stage here parting => exact absurd ⟨k, _, found', stage⟩ serving
  · -- the parent is gone, and a client is not
    obtain ⟨i, _, more⟩ := Finset.exists_ne_zero_of_sum_ne_zero some_
    have entry := entries i
    cases here : s.sessions i with
    | some t =>
        exact step_of_parting here (entry.of_cleared named (empty i) here).2 more
    | none =>
        generalize left i = m at entry more
        cases entry with
        | free entry nobody => exact absurd rfl more
        | reaped entry here' => simp [here] at here'
        | dead found => exact absurd (empty i) (named.valid found)
        | ending found => exact absurd (empty i) (named.valid found)

theorem countdown :
    Countdown (Within (Step inst) Spares)
      (fun event : ClosedownEvent => event.isSignal = false) Left :=
  ⟨spends, goesOn⟩

/-- The parent is gone after its children, and after the clients that no signal stopped. -/
theorem exited (left : Left n s) (gone : s.shutdown.stage = some .exited) {t : Terminated}
    (here : s.sessions i = some t) :
    t.hasExited = true ∧ (t.signalled.handler = none → t.Closed) := by
  obtain ⟨named, left, entries, ⟨waiting, _⟩ | ⟨_, _, empty⟩⟩ := left
  · rw [waiting] at gone
    cases gone
  · obtain ⟨exited, parting⟩ := (entries i).of_cleared named (empty i) here
    exact ⟨exited, parting.closed_of_exited exited⟩

/-- Where nothing is left, everybody is gone. -/
theorem ends (left : Left 0 s) : s.shutdown.stage = some .exited ∧
    ∀ i t, s.sessions i = some t → t.Closed := by
  obtain ⟨named, left, entries, ⟨_, total⟩ | ⟨gone, total, empty⟩⟩ := left
  · exact absurd total (Nat.succ_ne_zero _)
  · refine ⟨gone, fun i t here => ?_⟩
    have parting := ((entries i).of_cleared named (empty i) here).2
    rw [Finset.sum_eq_zero_iff.mp total i (Finset.mem_univ i)] at parting
    exact parting.ends

/-- What is left for one entry when the parent begins to wait. -/
theorem entry_of_begun (begun : s.Begun)
    (undisturbed : ∀ t, s.sessions i = some t → ∃ before events, before.Undisturbed ∧
      Run (Within (Terminated.Step inst) Terminated.Spares) before events t) :
    ∃ k ≤ 12 * if s.shutdown.sharing.slots.childPids i ≠ INVALID_PID then 1 else 0,
      Entry s.shutdown.sharing (s.sessions i) i k := by
  split_ifs with valid
  · obtain ⟨t, here⟩ := Option.isSome_iff_exists.mp ((begun.sessions i).mp valid)
    obtain ⟨before, events, start, run⟩ := undisturbed t here
    obtain ⟨n, small, parting⟩ := Parting.of_undisturbed start
    obtain ⟨m, total, parting⟩ := Parting.countdown.run parting run
    obtain ⟨c, found⟩ := begun.named.find_entry valid
    rcases begun.stage i c t found here with serving | ⟨dead, exited⟩
    · exact ⟨m + 2, by omega, .ending found serving here parting⟩
    · exact ⟨m + 1, by omega, .dead found dead here exited parting⟩
  · refine ⟨0, le_rfl, .free (not_not.mp valid) ?_⟩
    by_contra somebody
    exact valid ((begun.sessions i).mpr (Option.isSome_iff_ne_none.mpr somebody))

theorem of_begun (begun : s.Begun)
    (undisturbed : ∀ i t, s.sessions i = some t → ∃ before events, before.Undisturbed ∧
      Run (Within (Terminated.Step inst) Terminated.Spares) before events t) :
    ∃ n ≤ 12 * s.entries + 1, Left n s := by
  choose left few entries using fun i => entry_of_begun begun (undisturbed i)
  refine ⟨∑ i, left i + 1, ?_, begun.named, left, entries, .inl ⟨begun.waiting, rfl⟩⟩
  rw [Closedown.entries, Finset.card_filter, Finset.mul_sum]
  exact Nat.succ_le_succ (Finset.sum_le_sum fun i _ => few i)

end Left

end Closedown

/-! ### Whether the parent comes to its `exit` -/

/-- One child, in the first slot. -/
def Closedown.single (t : Terminated) : Closedown where
  shutdown := ⟨⟨Slots.initial.storePid 0 10, .select, [⟨10, 0, .serving⟩]⟩, some .waiting, [10]⟩
  sessions i := if i.val = 0 then some t else none

theorem Closedown.begun_single (t : Terminated) : (single t).Begun := by
  have pids : ∀ i : Fin MAX_CLIENTS, (Slots.initial.storePid 0 10).childPids i =
      if i.val = 0 then 10 else INVALID_PID := by
    intro i
    rw [show (0 : ℕ) = (⟨0, by decide⟩ : Fin MAX_CLIENTS) from rfl, Slots.storePid_childPids,
      Function.update_apply]
    simp only [Fin.ext_iff]
    rfl
  have valid : ∀ i : Fin MAX_CLIENTS,
      (Slots.initial.storePid 0 10).childPids i ≠ INVALID_PID ↔ i.val = 0 := by
    intro i
    rw [pids]
    split_ifs with first <;> simp [first, INVALID_PID]
  refine ⟨rfl, ⟨⟨by simp [single], by simp [single], ?_, ?_, ?_⟩, ?_⟩, ?_, ?_⟩
  · intro i stored
    have first := (valid i).mp stored
    exact .inr ⟨⟨10, 0, .serving⟩, List.mem_singleton_self _, first.symm,
      (pids i).trans (if_pos first)⟩
  · intro i clearing
    cases clearing
  · intro c member _
    obtain rfl := List.mem_singleton.mp member
    exact .inr ⟨by decide, fun i first => (pids i).trans (if_pos first)⟩
  · intro i clearing
    cases clearing
  · intro i
    apply (valid i).trans
    simp only [single]
    split_ifs with first <;> simp [first]
  · intro i c u found _
    obtain rfl := List.mem_singleton.mp (Sharing.Sound.of_find found).1
    exact .inl rfl

namespace Closedown

variable {inst : Installation} {s s' : Closedown} {i : Fin MAX_CLIENTS}
  {event : ClosedownEvent}

/-- The parent waits for a child that will not die. -/
structure Hanging (i : Fin MAX_CLIENTS) (s : Closedown) : Prop where
  waiting : s.shutdown.stage = some .waiting
  named : Named s.shutdown.sharing
  child : ∃ c, s.shutdown.sharing.find (s.shutdown.sharing.slots.childPids i) = some c ∧
    c.stage ≠ .zombie
  session : ∃ t, s.sessions i = some t ∧ Stranded t

theorem Hanging.step (hanging : Hanging i s)
    (taken : Within (Step inst) (Unsignalled i) s event s') : Hanging i s' := by
  obtain ⟨waiting, named, ⟨c, found, alive⟩, t, here, stranded⟩ := hanging
  obtain ⟨taken, unsignalled⟩ := taken
  cases event with
  | session j event =>
      obtain ⟨u, u', there, moves, same, sessions⟩ := session_cases taken
      rw [← same] at waiting named found
      refine ⟨waiting, named, ⟨c, found, alive⟩, ?_⟩
      rw [sessions]
      by_cases own : i = j
      · subst own
        obtain rfl := Option.some.inj (here.symm.trans there)
        refine ⟨u', Function.update_self .., stranded.step moves ?_⟩
        rintro sig rfl
        exact unsignalled sig rfl
      · exact ⟨t, by rw [Function.update_of_ne own]; exact here, stranded⟩
  | exit j =>
      obtain ⟨u, d, there, exited, _, _, sessions, stage, kept, slots, _, others⟩ :=
        exit_cases named taken
      have different : i ≠ j := by
        rintro rfl
        obtain rfl := Option.some.inj (here.symm.trans there)
        rw [stranded.waits] at exited
        cases exited
      refine ⟨stage.trans waiting, kept, ⟨c, ?_, alive⟩, t, by rw [sessions]; exact here,
        stranded⟩
      rw [slots, others i different]
      exact found
  | handler =>
      obtain ⟨sessions, kept, ⟨k, d, found', dead, still, _, others⟩ | ⟨empty, _, _⟩⟩ :=
        handler_cases named waiting taken
      · have different : i ≠ k := by
          rintro rfl
          obtain rfl := Option.some.inj (found.symm.trans found')
          exact alive dead
        refine ⟨still, kept, ⟨c, ?_, alive⟩, t, by rw [sessions]; exact here, stranded⟩
        rw [(others i different).1, (others i different).2]
        exact found
      · exact absurd (empty i) (named.valid found)

/-- What the others do leaves a session as it is. -/
theorem freed_step (freed : ∃ t, s.sessions i = some t ∧ Freed t)
    (taken : Step inst s event s') : ∃ t, s'.sessions i = some t ∧ Freed t := by
  obtain ⟨t, here, freed⟩ := freed
  cases event with
  | session j event =>
      obtain ⟨u, u', there, moves, _, sessions⟩ := session_cases taken
      rw [sessions]
      by_cases own : i = j
      · subst own
        obtain rfl := Option.some.inj (here.symm.trans there)
        exact ⟨u', Function.update_self .., freed.step moves⟩
      · exact ⟨t, by rw [Function.update_of_ne own]; exact here, freed⟩
  | exit j =>
      obtain ⟨u, there, taken⟩ := Option.bind_eq_some_iff.mp taken
      split_ifs at taken
      obtain ⟨shutdown, _, rfl⟩ := Option.map_eq_some_iff.mp taken
      exact ⟨t, here, freed⟩
  | handler =>
      obtain ⟨shutdown, _, rfl⟩ := Option.map_eq_some_iff.mp taken
      exact ⟨t, here, freed⟩

end Closedown

/-- Where the handler of one child has discarded the only `FIN` that comes, or is going to,
the parent does not come to its `exit`, in no order of steps, while no signal reaches the
client of this child; the alarm that the client has set, or another signal, lets the child
go: from then on it has exited as soon as nothing is on its way to it. -/
theorem closedown_hangs {inst : Installation} {events : List ClosedownEvent}
    {s s' : Closedown} {i : Fin MAX_CLIENTS} {t : Terminated} (begun : s.Begun)
    (here : s.sessions i = some t) (stranded : Stranded t)
    (run : Run (Within (Closedown.Step inst) (Closedown.Unsignalled i)) s events s') :
    (s'.shutdown.stage = some .waiting ∧
      ∃ t', s'.sessions i = some t' ∧ t'.hasExited = false) ∧
    ∀ sig signalled later last,
      Closedown.Step inst s' (.session i (.run (.signal sig))) signalled →
      Run (Closedown.Step inst) signalled later last →
      ∃ t', last.sessions i = some t' ∧
        (t'.session.toServer = [] → t'.hasExited = true) := by
  have valid := (begun.sessions i).mpr (Option.isSome_iff_exists.mpr ⟨t, here⟩)
  obtain ⟨c, found⟩ := begun.named.find_entry valid
  have alive : c.stage ≠ .zombie := by
    intro dead
    rcases begun.stage i c t found here with serving | ⟨_, exited⟩
    · rw [serving] at dead
      cases dead
    · rw [stranded.waits] at exited
      cases exited
  have start : s.Hanging i := ⟨begun.waiting, begun.named, ⟨c, found, alive⟩, t, here, stranded⟩
  obtain ⟨waiting, _, _, t', here', stranded'⟩ : s'.Hanging i :=
    run.invariant start fun hanging taken => hanging.step taken
  refine ⟨⟨waiting, t', here', stranded'.waits⟩, fun sig signalled later last taken rest => ?_⟩
  obtain ⟨u, u', there, moves, _, sessions⟩ := Closedown.session_cases taken
  obtain rfl := Option.some.inj (here'.symm.trans there)
  have freed : ∃ t, signalled.sessions i = some t ∧ Freed t := by
    rw [sessions]
    exact ⟨u', Function.update_self .., stranded'.freed moves⟩
  obtain ⟨v, at_, freed⟩ := rest.invariant freed fun freed taken =>
    Closedown.freed_step freed taken
  exact ⟨v, at_, freed.hasExited⟩

/-- The user has typed `close`, and `SIGTERM` finds the child with the `FIN` of the client on
its way; an hour later the client's alarm goes off. -/
theorem closedown_hangs_close :
    ∃ t s' signalled last, Run (Terminated.Step committed) Terminated.initial
        [.run (.type (text "close\n") (.serving "notes" [])),
          .run (.toServer (.serving "notes" [])), .run (.toClient (.serving "notes" [])),
          .sigterm] t ∧
      Run (Within (Closedown.Step committed) (Closedown.Unsignalled ⟨0, by decide⟩)) (.single t)
        [.session ⟨0, by decide⟩ (.run (.toServer (.serving "notes" [])))] s' ∧
      Closedown.Step committed s' (.session ⟨0, by decide⟩ (.run (.signal .SIGALRM)))
        signalled ∧
      Run (Closedown.Step committed) signalled
        [.session ⟨0, by decide⟩ (.run (.toServer (.serving "notes" []))),
          .session ⟨0, by decide⟩ (.run (.toServer (.serving "notes" [])))] last ∧
      s'.shutdown.stage = some .waiting ∧
      ∃ t', last.sessions ⟨0, by decide⟩ = some t' ∧ t'.session.toServer = [] ∧
        (t'.session.toServer = [] → t'.hasExited = true) := by
  obtain ⟨t, reaches, stranded⟩ : ∃ t, Run (Terminated.Step committed) Terminated.initial
      [.run (.type (text "close\n") (.serving "notes" [])),
        .run (.toServer (.serving "notes" [])), .run (.toClient (.serving "notes" [])),
        .sigterm] t ∧ t = ⟨⟨⟨⟨.closeAwaitFINACK, cmd.CLOSE, 2⟩, ⟨.closeAwaitFIN, cmd.CLOSE, 1⟩,
        [⟨.text udp.FIN, none, 2⟩], [], 3⟩, none⟩, some ⟨.discarding, false⟩⟩ :=
    ⟨_, Terminated.reaches_stranded (by decide +kernel), rfl⟩
  have computed : ((Closedown.single t).step committed
      (.session ⟨0, by decide⟩ (.run (.toServer (.serving "notes" []))))).bind (fun s' =>
        (s'.step committed (.session ⟨0, by decide⟩ (.run (.signal .SIGALRM)))).bind
          fun signalled => (stepAll (fun s event => s.step committed event) (fun _ _ => True)
            signalled [.session ⟨0, by decide⟩ (.run (.toServer (.serving "notes" []))),
              .session ⟨0, by decide⟩ (.run (.toServer (.serving "notes" [])))]).map
                fun last => (last.sessions ⟨0, by decide⟩).map
                  fun t' => t'.session.toServer.length) = some (some 0) := by
    rw [stranded]
    decide +kernel
  obtain ⟨s', taken, computed⟩ := Option.bind_eq_some_iff.mp computed
  obtain ⟨signalled, alarm, computed⟩ := Option.bind_eq_some_iff.mp computed
  obtain ⟨last, computed, nothing⟩ := Option.map_eq_some_iff.mp computed
  have rest := (run_of_stepAll _ _ computed).mono And.left
  have run : Run (Within (Closedown.Step committed) (Closedown.Unsignalled ⟨0, by decide⟩))
      (.single t) [.session ⟨0, by decide⟩ (.run (.toServer (.serving "notes" [])))] s' :=
    Run.single ⟨taken, fun sig same => by cases same⟩
  obtain ⟨⟨waiting, _⟩, released⟩ :=
    closedown_hangs (Closedown.begun_single t) rfl (stranded ▸ .caught) run
  obtain ⟨t', there, ends⟩ := released _ _ _ _ alarm rest
  refine ⟨t, s', signalled, last, reaches, run, alarm, rest, waiting, t', there, ?_, ends⟩
  rw [there] at nothing
  exact List.eq_nil_of_length_eq_zero (Option.some.inj nothing)

end Spqr
