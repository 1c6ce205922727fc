/-
Module: Spqr.Slots
Purpose: The bitmask of the slots and the process identifiers of the children:
  what `server_manage_client_connections` does with a completed handshake and
  with a dead child.
Trusted boundary: none
Main exports:
  Slots, setBit, getBit, findSlot, Effect, acceptConnection, reapChild,
  acceptConnection_of_free, acceptConnection_full, accepts_iff_free
-/
import Mathlib.Order.Bounds.Basic
import Spqr.Lib.Bitmask
import Spqr.Texts

namespace Spqr

/-! ### Configuration -/

def PORT : ℕ := 6969

/-- `SWAP_DIGITS(PORT)` -/
def MAX_PORT : ℕ :=
  PORT % 10 * 1000 + PORT / 10 % 10 * 100 + PORT / 100 % 10 * 10 + PORT / 1000

def MAX_CLIENTS : ℕ := MAX_PORT - PORT
def CHAR_BIT : ℕ := 8
def SHM_SIZE : ℕ := (MAX_CLIENTS + 7) / CHAR_BIT
def INVALID_PID : ℤ := -1

def SPQR_SERVER_BUSY : Text := text "⏳ The server is completely busy."

/-- `bitmask_t` -/
inductive BitState where
  | FREE
  | BUSY
deriving DecidableEq

/-! ### The data of the parent -/

/-- `shm_bitmask`, which the children share, and `child_pids`. -/
structure Slots where
  shmBitmask : Bitmask SHM_SIZE
  childPids : Fin MAX_CLIENTS → ℤ

namespace Slots

/-- Both arrays as `server_manage_client_connections` sets them up. -/
def initial : Slots := ⟨Vector.replicate SHM_SIZE 0, fun _ => INVALID_PID⟩

/-- `set_bit` -/
def setBit (slots : Slots) (clientId : ℕ) (state : BitState) : Slots :=
  match state with
  | .BUSY => { slots with shmBitmask := slots.shmBitmask.set clientId }
  | .FREE => { slots with shmBitmask := slots.shmBitmask.clear clientId }

/-- `get_bit` -/
def getBit (slots : Slots) (clientId : ℕ) : UInt8 := slots.shmBitmask.get clientId

/-- The search for a slot, with the number of slots that are left to look at: what
it sends and the `no_client` that it leaves. -/
def findSlot (slots : Slots) : ℕ → Slots × List Text × ℕ
  | 0 => (slots, [], MAX_CLIENTS)
  | left + 1 =>
      let noClient := MAX_CLIENTS - (left + 1)
      if slots.getBit noClient = 0 then (slots.setBit noClient .BUSY, [], noClient)
      else
        let (after, sent, slot) := findSlot slots left
        -- `continue` goes on with the search loop
        if noClient = MAX_CLIENTS - 1 then (after, SPQR_SERVER_BUSY :: sent, slot)
        else (after, sent, slot)

/-- `child_pids[no_client] = pid` -/
def storePid (slots : Slots) (noClient : ℕ) (pid : ℤ) : Slots :=
  if inside : noClient < MAX_CLIENTS then
    { slots with childPids := Function.update slots.childPids ⟨noClient, inside⟩ pid }
  else slots

end Slots

/-- What the parent does besides changing its data. -/
inductive Effect where
  /-- a message to `client_addr` -/
  | send (message : Text)
  /-- a child for this slot, which binds this port -/
  | fork (noClient port : ℕ)
  /-- a write to `child_pids` -/
  | store (noClient : ℕ) (pid : ℤ)
deriving DecidableEq

/-- `"%d"` -/
def decimal (n : ℕ) : Text := text (toString n)

/-- What follows a completed handshake; `pid` is what `fork` returns. -/
def acceptConnection (slots : Slots) (pid : ℤ) : Slots × List Effect :=
  let (slots, sent, noClient) := slots.findSlot MAX_CLIENTS
  let port := (PORT + noClient) % 2 ^ 16
  (slots.storePid noClient pid,
    sent.map .send ++
      [.send (decimal port), .fork noClient port, .store noClient pid])

/-- `waitpid` has returned `wpid`. -/
def reapChild (slots : Slots) (wpid : ℤ) : Slots :=
  match (List.finRange MAX_CLIENTS).find? fun i => slots.childPids i = wpid with
  | some i => (slots.storePid i INVALID_PID).setBit i .FREE
  | none => slots

/-! ### One bit -/

namespace Slots

variable {slots : Slots}

theorem byte_inside {i : ℕ} (inside : i < MAX_CLIENTS) : i / 8 < SHM_SIZE := by
  have clients : MAX_CLIENTS = 2727 := rfl
  have size : SHM_SIZE = 341 := rfl
  omega

/-- A bit reads `BUSY`. -/
def Busy (slots : Slots) (i : ℕ) : Prop := slots.getBit i = 1

/-- A slot is free. -/
def Free (slots : Slots) (i : ℕ) : Prop := i < MAX_CLIENTS ∧ slots.getBit i = 0

instance (i : ℕ) : Decidable (slots.Busy i) := inferInstanceAs (Decidable (_ = _))

instance (i : ℕ) : Decidable (slots.Free i) := inferInstanceAs (Decidable (_ ∧ _))

theorem busy_iff_has (i : ℕ) : slots.Busy i ↔ slots.shmBitmask.has i = true :=
  Bitmask.get_eq_one_iff _ _

theorem getBit_eq_zero_iff (i : ℕ) : slots.getBit i = 0 ↔ ¬ slots.Busy i := by
  rw [busy_iff_has, Bool.not_eq_true]
  exact Bitmask.get_eq_zero_iff _ _

theorem busy_setBit_BUSY {i : ℕ} (inside : i < MAX_CLIENTS) (j : ℕ) :
    (slots.setBit i .BUSY).Busy j ↔ j = i ∨ slots.Busy j := by
  rw [busy_iff_has, busy_iff_has, setBit, Bitmask.has_set _ (byte_inside inside),
    Bool.or_eq_true, decide_eq_true_eq, eq_comm]

theorem busy_setBit_FREE {i : ℕ} (inside : i < MAX_CLIENTS) (j : ℕ) :
    (slots.setBit i .FREE).Busy j ↔ j ≠ i ∧ slots.Busy j := by
  rw [busy_iff_has, busy_iff_has, setBit, Bitmask.has_clear _ (byte_inside inside),
    Bool.and_eq_true, Bool.not_eq_true', decide_eq_false_iff_not, eq_comm]

@[simp] theorem setBit_childPids (i : ℕ) (state : BitState) :
    (slots.setBit i state).childPids = slots.childPids := by
  cases state <;> rfl

@[simp] theorem storePid_busy (i : ℕ) (pid : ℤ) (j : ℕ) :
    (slots.storePid i pid).Busy j ↔ slots.Busy j := by
  unfold storePid
  split <;> rfl

theorem storePid_childPids (i : Fin MAX_CLIENTS) (pid : ℤ) :
    (slots.storePid i pid).childPids = Function.update slots.childPids i pid := by
  rw [storePid, dif_pos i.isLt]

/-! ### The search -/

/-- The search stops at the lowest free slot from where it starts. -/
theorem findSlot_of_least {left slot : ℕ} (room : left ≤ MAX_CLIENTS)
    (later : MAX_CLIENTS - left ≤ slot) (free : slots.Free slot)
    (busy : ∀ j, MAX_CLIENTS - left ≤ j → j < slot → slots.Busy j) :
    slots.findSlot left = (slots.setBit slot .BUSY, [], slot) := by
  induction left with
  | zero =>
      have := free.1
      omega
  | succ left inductionHypothesis =>
      rw [findSlot]
      by_cases here : MAX_CLIENTS - (left + 1) = slot
      · rw [here, if_pos free.2]
      · have occupied := busy _ le_rfl (by omega)
        have last : MAX_CLIENTS - (left + 1) ≠ MAX_CLIENTS - 1 := by
          have := free.1
          omega
        rw [if_neg (by rw [getBit_eq_zero_iff]; exact not_not.mpr occupied),
          inductionHypothesis (by omega) (by omega) fun j from_ before =>
            busy j (by omega) before]
        exact if_neg last

/-- With no free slot the search says that the server is busy, and ends past the
last slot. -/
theorem findSlot_full (full : ∀ j < MAX_CLIENTS, slots.Busy j) {left : ℕ}
    (room : left ≤ MAX_CLIENTS) :
    slots.findSlot left =
      (slots, if left = 0 then [] else [SPQR_SERVER_BUSY], MAX_CLIENTS) := by
  induction left with
  | zero => rfl
  | succ left inductionHypothesis =>
      have occupied := full (MAX_CLIENTS - (left + 1)) (by omega)
      rw [findSlot, if_neg (by rw [getBit_eq_zero_iff]; exact not_not.mpr occupied),
        inductionHypothesis (by omega)]
      cases left with
      | zero => rfl
      | succ left => exact if_neg (by omega)

theorem free_or_full (slots : Slots) :
    (∃ i, slots.Free i) ∨ ∀ i < MAX_CLIENTS, slots.Busy i := by
  by_cases free : ∃ i, slots.Free i
  · exact .inl free
  · refine .inr fun i inside => ?_
    by_contra idle
    exact free ⟨i, inside, (getBit_eq_zero_iff i).mpr idle⟩

/-- A free slot gives a lowest one. -/
theorem exists_lowest (free : ∃ i, slots.Free i) :
    ∃ slot, IsLeast {i | slots.Free i} slot := by
  refine ⟨Nat.find free, Nat.find_spec free, ?_⟩
  intro i isFree
  exact Nat.find_min' free isFree

theorem busy_of_lt_lowest {slot : ℕ} (lowest : IsLeast {i | slots.Free i} slot)
    {j : ℕ} (lower : j < slot) : slots.Busy j := by
  by_contra idle
  have inside : j < MAX_CLIENTS := lower.trans lowest.1.1
  have := lowest.2 ⟨inside, (getBit_eq_zero_iff j).mpr idle⟩
  omega

end Slots

/-! ### A completed handshake -/

/-- A port number of a slot, or of one past the last, is not reduced. -/
theorem port_fits {slot : ℕ} (inside : slot ≤ MAX_CLIENTS) :
    (PORT + slot) % 2 ^ 16 = PORT + slot := by
  have clients : MAX_CLIENTS = 2727 := rfl
  have port : PORT = 6969 := rfl
  omega

/-- With a free slot, the lowest one is given away. -/
theorem acceptConnection_of_free {slots : Slots} {slot : ℕ}
    (lowest : IsLeast {i | slots.Free i} slot) (pid : ℤ) :
    acceptConnection slots pid =
      ((slots.setBit slot .BUSY).storePid slot pid,
        [.send (decimal (PORT + slot)), .fork slot (PORT + slot),
          .store slot pid]) := by
  have found := Slots.findSlot_of_least le_rfl (by omega) lowest.1
    fun j _ lower => Slots.busy_of_lt_lowest lowest lower
  rw [acceptConnection, found]
  simp only [port_fits lowest.1.1.le]
  rfl

/-- With none, the client is told that the server is busy, and then served on the
port past the last one. -/
theorem acceptConnection_full {slots : Slots}
    (full : ∀ i < MAX_CLIENTS, slots.Busy i) (pid : ℤ) :
    acceptConnection slots pid =
      (slots, [.send SPQR_SERVER_BUSY, .send (decimal MAX_PORT),
        .fork MAX_CLIENTS MAX_PORT, .store MAX_CLIENTS pid]) := by
  have kept : slots.storePid MAX_CLIENTS pid = slots :=
    dif_neg (Nat.lt_irrefl MAX_CLIENTS)
  have port : (PORT + MAX_CLIENTS) % 2 ^ 16 = MAX_PORT := rfl
  rw [acceptConnection, Slots.findSlot_full full le_rfl]
  simp only [port, kept]
  rfl

/-- The connection is accepted in this slot: its bit and its entry of `child_pids`
change, and the client learns its port. -/
structure Accepted (slots : Slots) (pid : ℤ) (slot : ℕ)
    (result : Slots × List Effect) : Prop where
  lowest : IsLeast {i | slots.Free i} slot
  bits : ∀ i, result.1.Busy i ↔ i = slot ∨ slots.Busy i
  pids : ∀ i : Fin MAX_CLIENTS,
    result.1.childPids i = if i.val = slot then pid else slots.childPids i
  effects : result.2 =
    [.send (decimal (PORT + slot)), .fork slot (PORT + slot), .store slot pid]

/-- The connection is rejected. -/
structure Rejected (slots : Slots) (result : Slots × List Effect) : Prop where
  kept : result.1 = slots
  effects : result.2 = [.send SPQR_SERVER_BUSY]

/-- What a completed handshake should lead to. -/
def AcceptsOrRejects (slots : Slots) (pid : ℤ) : Prop :=
  ((∃ i, slots.Free i) →
      ∃ slot, Accepted slots pid slot (acceptConnection slots pid)) ∧
    ((∀ i < MAX_CLIENTS, slots.Busy i) →
      Rejected slots (acceptConnection slots pid))

theorem accepted_of_free {slots : Slots} {slot : ℕ}
    (lowest : IsLeast {i | slots.Free i} slot) (pid : ℤ) :
    Accepted slots pid slot (acceptConnection slots pid) := by
  have inside : slot < MAX_CLIENTS := lowest.1.1
  rw [acceptConnection_of_free lowest]
  refine ⟨lowest, fun i => ?_, fun i => ?_, rfl⟩
  · rw [Slots.storePid_busy, Slots.busy_setBit_BUSY inside]
  · rw [Slots.storePid_childPids ⟨slot, inside⟩, Slots.setBit_childPids,
      Function.update_apply]
    simp only [Fin.ext_iff]

/-- A completed handshake leads to what it should exactly when a slot is free. -/
theorem accepts_iff_free (slots : Slots) (pid : ℤ) :
    AcceptsOrRejects slots pid ↔ ∃ i, slots.Free i := by
  constructor
  · rintro ⟨_, rejects⟩
    refine slots.free_or_full.resolve_right fun full => ?_
    have effects := (rejects full).effects
    rw [acceptConnection_full full] at effects
    simp at effects
  · intro free
    obtain ⟨slot, lowest⟩ := Slots.exists_lowest free
    refine ⟨fun _ => ⟨slot, accepted_of_free lowest pid⟩, fun full => ?_⟩
    have idle := (Slots.getBit_eq_zero_iff slot).mp lowest.1.2
    exact absurd (full slot lowest.1.1) idle

/-- Every slot is taken. -/
def fullServer : Slots := ⟨Vector.replicate SHM_SIZE 255, fun i => i + 1⟩

theorem fullServer_busy : ∀ i < MAX_CLIENTS, fullServer.Busy i := by
  intro i inside
  have byte : (Vector.replicate SHM_SIZE (255 : UInt8))[i / 8]? = some 255 := by
    rw [Vector.getElem?_replicate, if_pos (Slots.byte_inside inside)]
  have bits : ∀ k < 8, (255 : UInt8).toBitVec.getLsbD k = true := by decide
  rw [Slots.busy_iff_has, fullServer, Bitmask.has, Bitmask.byteOf, byte]
  exact bits _ (Nat.mod_lt i (by decide))

/-- The next client is told that the server is busy, and a child is forked for it
whose identifier is written past the end of `child_pids`. -/
theorem fullServer_accepts :
    ¬ AcceptsOrRejects fullServer 7 ∧
      (acceptConnection fullServer 7).2 =
        [.send SPQR_SERVER_BUSY, .send (decimal 9696), .fork 2727 9696,
          .store 2727 7] := by
  have effects := congrArg Prod.snd (acceptConnection_full fullServer_busy 7)
  refine ⟨fun accepts => ?_, effects⟩
  have rejected := (accepts.2 fullServer_busy).effects
  rw [effects] at rejected
  simp at rejected

end Spqr
