/-
Module: Spqr.Deadlock
Purpose: When a session cannot end in two waits that never match.
Trusted boundary: none
Main exports:
  Deadlocked, no_deadlock
-/
import Spqr.Turns

namespace Spqr

open Labelled

/-- In a `recvfrom` without a timeout, or in a drain loop. -/
def ClientPc.Hangs : ClientPc → Prop
  | .receiving _ _ => True
  | .getDrain _ _ _ => True
  | .putAwaitExist _ => True
  | .putAwaitStart _ => True
  | .closeAwaitFINACK => True
  | .closeAwaitFIN => True
  | _ => False

/-- The same of the server, which may also be gone. -/
def ServerPc.Hangs : ServerPc → Prop
  | .getAwaitStart => False
  | .sending _ _ => False
  | _ => True

/-- Nothing is under way but what a server that is gone does not take. -/
def Silent (s : Session) : Prop :=
  s.toClient = [] ∧
    match s.server.pc with
    | .exited => True
    | .crashed _ => True
    | _ => s.toServer = []

/-- Nothing is under way, the client is neither at a prompt nor finished, and only a
datagram from the other side would let either party go on. -/
def Deadlocked (s : Session) : Prop :=
  Silent s ∧ s.client.pc.Hangs ∧ s.server.pc.Hangs

instance (pc : ClientPc) : Decidable pc.Hangs := by
  induction pc using ClientPc.casesOn <;> unfold ClientPc.Hangs <;> infer_instance

instance (pc : ServerPc) : Decidable pc.Hangs := by
  induction pc using ServerPc.casesOn <;> unfold ServerPc.Hangs <;> infer_instance

instance (s : Session) : Decidable (Silent s) := by
  unfold Silent
  generalize s.server.pc = pc
  induction pc using ServerPc.casesOn <;> infer_instance

instance (s : Session) : Decidable (Deadlocked s) :=
  inferInstanceAs (Decidable (_ ∧ _))

/-- Parties in lockstep do not wait for each other: as long as the client hangs,
something is under way, or the server is inside `main_sender`. -/
theorem Session.InLockstep.not_deadlocked {inst : Installation} {s : Session}
    (lock : s.InLockstep inst True) : ¬ Deadlocked s := by
  obtain ⟨client, server, toServer, toClient, clock⟩ := s
  rintro ⟨⟨noneDown, noneUp⟩, clientHangs, serverHangs⟩
  dsimp only at noneUp noneDown clientHangs serverHangs
  cases lock with
  | behind behind ahead =>
      cases ahead with
      | prompt => exact clientHangs
      | _ => cases behind <;> simp at noneUp
  | unanswered => exact clientHangs
  | naming => exact clientHangs
  | choosing => exact clientHangs
  | finished => exact clientHangs
  | named => exact clientHangs
  | getting => exact serverHangs
  | outliving => exact serverHangs
  | putting => exact clientHangs
  | stored => exact clientHangs
  | fetching => exact serverHangs
  | offering => simp at noneUp
  | closing => simp at noneUp
  | stuck coarse => exact coarse trivial
  | _ => simp at noneDown

variable {inst : Installation}

/-- In every session whose steps take none of the branches that `Prudent` and
`Unhurried` rule out, however long its datagrams are under way, no two waits lock
each other. -/
theorem no_deadlock {moves : List Move} {s : Session}
    (run : Run (Within (Session.Step inst) fun s move =>
      Prudent s move ∧ Unhurried s move) Session.initial moves s) :
    ¬ Deadlocked s := by
  have lock : s.InLockstep inst True :=
    run.invariant .initial fun lock taken =>
      lock.step ⟨taken.2.1, fun _ => taken.2.2, fun coarse => absurd trivial coarse⟩
        taken.1
  exact lock.not_deadlocked

/-- A `GET` of a file with one byte, up to the client's next prompt. -/
def getOneByteWhole : List Move :=
  let env := Environment.serving "f" [7]
  getOneByte ++ List.replicate 9 (.toServer 0 env) ++
    [.serverTimeout env, .toClient 0 env]

theorem no_deadlock_getOneByte :
    ∃ s, Run (Within (Session.Step committed) fun s move =>
        Prudent s move ∧ Unhurried s move) Session.initial getOneByteWhole s ∧
      s.client.requests = 3 ∧ Silent s ∧ ¬ Deadlocked s := by
  have computed : (stepAll (Session.step committed)
      (fun s move => Prudent s move ∧ Unhurried s move) Session.initial
      getOneByteWhole).map (fun s => (s.client.requests, decide (Silent s))) =
      some (3, true) := by
    decide +kernel
  obtain ⟨s, computed, values⟩ := Option.map_eq_some_iff.mp computed
  simp only [Prod.mk.injEq, decide_eq_true_eq] at values
  have run := run_of_stepAll _ _ computed
  exact ⟨s, run, values.1, values.2, no_deadlock run⟩

/-! ### Sessions that lock -/

/-- A `PUT` of a file that is called `ABORT`: the server takes the name for the
message, and the client waits for an answer to it. -/
def putAbort : List Move :=
  let env := Environment.serving "ABORT" []
  [.type (text "put") env, .toServer 0 env, .toClient 0 env,
    .type (text "ABORT") env, .toServer 0 env]

theorem putAbort_deadlocked :
    ∃ moves s, Run (Within (Session.Step committed) fun _ _ => True)
      Session.initial moves s ∧ Deadlocked s := by
  have computed : (stepAll (Session.step committed) (fun _ _ => True)
      Session.initial putAbort).map (fun s => decide (Deadlocked s)) =
      some true := by
    decide +kernel
  obtain ⟨s, computed, locked⟩ := Option.map_eq_some_iff.mp computed
  exact ⟨_, s, run_of_stepAll _ _ computed, of_decide_eq_true locked⟩

/-- A file that is in the directory and that `fopen` fails for; no send gets
through. -/
def Environment.locked (name : String) : Environment :=
  ⟨[text name], false, true, 0, [], fun _ => .dropped⟩

/-- An empty directory in which `fopen` creates nothing. -/
def Environment.full : Environment := ⟨[], false, true, 0, [], fun _ => .dropped⟩

/-- One session for each of the four calls of `fopen`: `GET` where the client cannot
create its file, `GET` where the server cannot open its file, `PUT` where the server
cannot create its file, `PUT` where the client cannot open its file. -/
def fopenFails : List (List Move) :=
  let env := Environment.serving "f" [7]
  let failing := Environment.locked "f"
  let get : List Move :=
    [.type (text "get") env, .toServer 0 env, .toClient 0 env,
      .type (text "f") env, .toServer 0 env]
  let put : List Move :=
    [.type (text "put") env, .toServer 0 env, .toClient 0 env,
      .type (text "f") env]
  [get ++ [.toClient 0 failing, .serverTimeout env],
    get ++ [.toClient 0 env, .toServer 0 failing, .toClient 0 failing],
    put ++ [.toServer 0 .full, .toClient 0 env],
    put ++ [.toServer 0 { env with listing := [] }, .toClient 0 env,
      .toClient 0 failing, .type (text "list") env, .toServer 0 failing,
      .clientTimeout env, .toServer 0 failing]]

/-- Each of the four ends in a deadlock. -/
theorem fopenFails_deadlocked : ∀ moves ∈ fopenFails,
    ∃ s, Run (Within (Session.Step committed) fun _ _ => True)
      Session.initial moves s ∧ Deadlocked s := by
  have computed : ∀ moves ∈ fopenFails,
      (stepAll (Session.step committed) (fun _ _ => True) Session.initial
        moves).map (fun s => decide (Deadlocked s)) = some true := by
    decide +kernel
  intro moves member
  obtain ⟨s, computed, locked⟩ := Option.map_eq_some_iff.mp (computed moves member)
  exact ⟨s, run_of_stepAll _ _ computed, of_decide_eq_true locked⟩

end Spqr
