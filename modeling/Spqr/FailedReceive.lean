/-
Module: Spqr.FailedReceive
Purpose: `main_receiver` on the files of a disk, through each of its exits, and when
  a failure leaves the files as they were.
Trusted boundary: none
Main exports:
  ReceiveCalls, mainReceiverFiles, Restores, Untouched, failed_receive_restores_iff
-/
import Spqr.Lib.FileTree
import Spqr.Datagrams
import Spqr.PutPath
import Spqr.Session

namespace Spqr

open FileSystem

/-! ### All of `main_receiver` -/

/-- The results of the system calls of `main_receiver` after `fopen` and the
`sendto` of `START_TRANSFER`: what each `recvfrom` returns and what becomes of the
acknowledgment, and whether `fclose` and `remove` succeed. -/
structure ReceiveCalls where
  arrivals : List Arrival
  closes : Bool
  removes : Bool

/-- `main_receiver`: the disk that it leaves and what it returns. There is no result
while it waits for a datagram, once `spqr_assert` has ended the process, or after a
reaction that is undefined. -/
def mainReceiverFiles (inst : Installation) (links dir : ℕ) (disk : Disk)
    (pathname : Name) (permits started : Bool) (calls : ReceiveCalls) :
    Option (Disk × ℤ) :=
  match receiveTarget links dir disk pathname permits with
  | none => some (disk, TRANSFER_ERROR)
  | some target =>
      let opened := disk.applyOpen target
      if started = false then some (opened, TRANSFER_ERROR)
      else
        match receiveAll inst.cfg inst.fwrite .initial calls.arrivals with
        | none => none
        | some r =>
            match r.result with
            | none => none
            | some ret =>
                let filled := opened.write (disk.opened target) 0 r.file
                if calls.closes = false then none
                else if ret = TRANSFER_ERROR then
                  if calls.removes = false then none
                  else some (filled.remove links dir (components pathname), ret)
                else some (filled, EXIT_SUCCESS)

/-- Whatever arrives, a failure leaves every file and every directory as it was. -/
def Restores (inst : Installation) (links dir : ℕ) (disk : Disk) (pathname : Name)
    (permits started : Bool) : Prop :=
  ∀ calls after ret,
    mainReceiverFiles inst links dir disk pathname permits started calls =
        some (after, ret) →
      ret ≠ EXIT_SUCCESS → disk.Same after

/-- The path cannot be opened; or `START_TRANSFER` is sent and the path ends at a
missing entry; or it is not sent, and what is opened is a device, or a file that is
empty anyway. -/
def Untouched (links dir : ℕ) (disk : Disk) (pathname : Name) (permits started : Bool) :
    Prop :=
  receiveTarget links dir disk pathname permits = none ∨
    (started = true ∧ ∃ dir' name,
      disk.place links dir (components pathname) = some (dir', name) ∧
        name ∉ dots ∧ disk.lookup dir' name = none) ∨
    (started = false ∧ ∃ inode,
      receiveTarget links dir disk pathname permits = some (.device inode) ∨
        receiveTarget links dir disk pathname permits = some (.truncate inode) ∧
          disk.nodes inode = some (.regular []))

section

variable {inst : Installation} {links dir : ℕ} {disk : Disk} {pathname : Name}
  {permits started : Bool} {target : Disk.Target}

/-! ### The exits -/

/-- A failure after `START_TRANSFER` has been sent ends with the `remove`. -/
theorem mainReceiverFiles_failed {calls : ReceiveCalls} {after : Disk} {ret : ℤ}
    (opens : receiveTarget links dir disk pathname permits = some target)
    (returns : mainReceiverFiles inst links dir disk pathname permits true calls =
      some (after, ret)) (fails : ret ≠ EXIT_SUCCESS) :
    ∃ bytes, after = ((disk.applyOpen target).write (disk.opened target) 0 bytes).remove
      links dir (components pathname) := by
  rw [mainReceiverFiles, opens] at returns
  simp only [Bool.true_eq_false, if_false] at returns
  split at returns
  · simp at returns
  · rename_i r _
    split at returns
    · simp at returns
    · split_ifs at returns
      · obtain ⟨rfl, -⟩ := Prod.mk.inj (Option.some.inj returns)
        exact ⟨r.file, rfl⟩
      · obtain ⟨-, rfl⟩ := Prod.mk.inj (Option.some.inj returns)
        exact absurd rfl fails

theorem mainReceiverFiles_notStarted
    (opens : receiveTarget links dir disk pathname permits = some target)
    (calls : ReceiveCalls) :
    mainReceiverFiles inst links dir disk pathname permits false calls =
      some (disk.applyOpen target, TRANSFER_ERROR) := by
  rw [mainReceiverFiles, opens]
  rfl

theorem errorPacket_fits : errorPacket.Fits := by
  obtain ⟨payload, _, noPacketsToSend, noBytesToSend, size⟩ := Packet.Fits.zero
  exact ⟨payload, ⟨by decide, by decide⟩, noPacketsToSend, noBytesToSend, size⟩

/-- On an upload whose calls all succeed, `main_receiver` does to the disk what the
`PUT` branch does with its outcome. -/
theorem mainReceiverFiles_eq_put {request : Text} {arrivals : List Arrival}
    {r : Receiver} {ret : ℤ} (noAbort : request ≠ feedback.ABORT)
    (notListed : disk.isRegular dir request = false)
    (received : receiveAll inst.cfg inst.fwrite .initial arrivals = some r)
    (returned : r.result = some ret)
    (opens : receiveTarget links dir disk request permits = some target) :
    mainReceiverFiles inst links dir disk request permits true ⟨arrivals, true, true⟩ =
      some ((put links dir disk request permits ⟨r.file, ret⟩).final,
        mainReceiverRet ret) := by
  rw [mainReceiverFiles, opens, put_opens noAbort notListed opens]
  simp only [received, returned, mainReceiverRet]
  split_ifs <;> simp_all

/-- The sender gives up before its first packet has arrived. -/
def givenUp : ReceiveCalls where
  arrivals := [⟨some errorPacket.encode, .sent⟩]
  closes := true
  removes := true

theorem receiveAll_givenUp (inst : Installation) :
    receiveAll inst.cfg inst.fwrite .initial givenUp.arrivals =
      some { Receiver.initial with result := some TRANSFER_ERROR } := by
  have arrives : Receiver.initial.fill (some errorPacket.encode) = errorPacket :=
    errorPacket_fits.recvfrom_encode .zero
  have taken : Receiver.initial.take inst.cfg inst.fwrite
      ⟨some errorPacket.encode, .sent⟩ =
        some { Receiver.initial with result := some TRANSFER_ERROR } := by
    rw [Receiver.take, arrives]
    rfl
  simp only [receiveAll, givenUp, Labelled.feed, taken, Option.bind_some]
  rfl

theorem mainReceiverFiles_givenUp
    (opens : receiveTarget links dir disk pathname permits = some target) :
    mainReceiverFiles inst links dir disk pathname permits true givenUp =
      some (((disk.applyOpen target).write (disk.opened target) 0 []).remove links dir
        (components pathname), TRANSFER_ERROR) := by
  rw [mainReceiverFiles, opens]
  simp only [receiveAll_givenUp]
  rfl

/-! ### Sufficient -/

theorem restores_of_untouched
    (untouched : Untouched links dir disk pathname permits started) :
    Restores inst links dir disk pathname permits started := by
  intro calls after ret returns fails
  cases opens : receiveTarget links dir disk pathname permits with
  | none =>
      rw [mainReceiverFiles, opens] at returns
      obtain ⟨rfl, -⟩ := Prod.mk.inj (Option.some.inj returns)
      exact .refl disk
  | some target =>
      rcases untouched with refused | ⟨rfl, dir', name, led, bare, missing⟩ |
        ⟨rfl, inode, device | ⟨truncate, empty⟩⟩
      · simp [opens] at refused
      · obtain ⟨bytes, rfl⟩ := mainReceiverFiles_failed opens returns fails
        have noSlash : ∀ n ∈ components pathname, slash ∉ n :=
          fun n part => Disk.not_mem_components part
        obtain ⟨directory, noSlash⟩ := Disk.of_place led noSlash
        have created := openWrite_of_receiveTarget opens
        rw [Disk.openWrite_of_missing led bare missing] at created
        split_ifs at created
        obtain rfl := Option.some.inj created
        exact Disk.same_of_create_remove led directory ⟨noSlash, bare⟩ missing bytes
      · rw [mainReceiverFiles_notStarted opens] at returns
        obtain ⟨rfl, -⟩ := Prod.mk.inj (Option.some.inj returns)
        obtain rfl := Option.some.inj (opens.symm.trans device)
        exact .refl disk
      · rw [mainReceiverFiles_notStarted opens] at returns
        obtain ⟨rfl, -⟩ := Prod.mk.inj (Option.some.inj returns)
        obtain rfl := Option.some.inj (opens.symm.trans truncate)
        intro i node there
        rw [Disk.applyOpen, Disk.nodes_setNode]
        split_ifs with same
        · rw [← empty, ← same, there]
        · exact there

end

/-! ### Necessary -/

section

variable {links dir : ℕ} {tree : FileTree} {names : List Name} {target : Disk.Target}

/-- Removing a path after it has been opened for writing: only a missing entry at
its end is as it was. -/
theorem missing_of_same_removed
    (opens : tree.openWrite links dir names = some target)
    (same : tree.Same
      (((tree.applyOpen target).write (tree.opened target) 0 []).remove links dir names)) :
    ∃ dir' name, tree.place links dir names = some (dir', name) ∧ name ∉ dots ∧
      tree.lookup dir' name = none := by
  rcases Disk.of_openWrite opens with ⟨dir', name, rfl, resolved⟩ |
    ⟨inode, resolved, ⟨contents, rfl, regular⟩ | ⟨rfl, special⟩⟩
  · obtain ⟨missing, ⟨led, bare⟩ | ⟨where_, last, link, target, led, found, there⟩⟩ :=
      Disk.of_resolve_missing resolved
    · exact ⟨dir', name, led, bare, missing⟩
    · -- the link at the end is removed, and the new file stays
      have keeps := (Disk.Keeps.create missing).write (tree.unused _ le_rfl) 0 []
      have file : ∀ parent entries, Node.symlink target ≠ .directory parent entries := by
        simp
      exact absurd same (Disk.not_same_of_removed (keeps.place led) (keeps.lookup found)
        (keeps.files _ _ there file) file found)
  · obtain ⟨where_, last, entry, node, led, found, there, file⟩ :=
      FileTree.of_resolve_found resolved (Disk.not_directory_of_regular regular)
    have empty : (tree.setNode inode (.regular [])).nodes inode = some (.regular []) := by
      rw [Disk.nodes_setNode, if_pos rfl]
    have unwritten : (tree.applyOpen (.truncate inode)).write
        (tree.opened (.truncate inode)) 0 [] =
          (tree.setNode inode (.regular [])).setNode inode (.regular []) := by
      simp only [Disk.applyOpen, Disk.opened, Disk.write, empty]
      rfl
    rw [unwritten] at same
    have led' : ((tree.setNode inode (.regular [])).setNode inode (.regular [])).place
        links dir names = some (where_, last) := by
      rw [Disk.place_setRegular empty, Disk.place_setRegular regular, led]
    have found' : ((tree.setNode inode (.regular [])).setNode inode (.regular [])).lookup
        where_ last = some entry := by
      rw [Disk.lookup_setRegular empty, Disk.lookup_setRegular regular, found]
    apply absurd same
    by_cases itself : entry = inode
    · have there' : ((tree.setNode inode (.regular [])).setNode inode (.regular [])).nodes
          entry = some (.regular []) := by
        rw [itself, Disk.nodes_setNode, if_pos rfl]
      exact Disk.not_same_of_removed led' found' there' (by simp) found
    · have there' : ((tree.setNode inode (.regular [])).setNode inode (.regular [])).nodes
          entry = some node := by
        rw [Disk.nodes_setNode, if_neg itself, Disk.nodes_setNode, if_neg itself, there]
      exact Disk.not_same_of_removed led' found' there' file found
  · have noDirectory : ¬ tree.IsDirectory inode := by
      rintro ⟨parent, entries, here⟩
      simp [special] at here
    obtain ⟨where_, last, entry, node, led, found, there, file⟩ :=
      FileTree.of_resolve_found resolved noDirectory
    have unwritten : (tree.applyOpen (.device inode)).write
        (tree.opened (.device inode)) 0 [] = tree.toDisk := by
      simp only [Disk.applyOpen, Disk.opened, Disk.write, special]
    rw [unwritten] at same
    exact absurd same (Disk.not_same_of_removed led found there file found)

end

/-- A failure leaves every file and every directory as it was exactly when nothing is
opened; or `START_TRANSFER` is sent and the path ends at a missing entry; or it is
not sent, and what is opened is a device or an empty file. -/
theorem failed_receive_restores_iff (inst : Installation) (links dir : ℕ)
    (tree : FileTree) (pathname : Name) (permits started : Bool) :
    Restores inst links dir tree.toDisk pathname permits started ↔
      Untouched links dir tree.toDisk pathname permits started := by
  refine ⟨fun restores => ?_, restores_of_untouched⟩
  cases opens : receiveTarget links dir tree.toDisk pathname permits with
  | none => exact .inl opens
  | some target =>
      have opened := openWrite_of_receiveTarget opens
      cases started with
      | true =>
          have same := restores givenUp _ _ (mainReceiverFiles_givenUp opens) (by decide)
          exact .inr (.inl ⟨rfl, missing_of_same_removed opened same⟩)
      | false =>
          have same := restores givenUp _ _ (mainReceiverFiles_notStarted opens _)
            (by decide)
          refine .inr (.inr ⟨rfl, ?_⟩)
          rcases Disk.of_openWrite opened with ⟨dir', name, rfl, resolved⟩ |
            ⟨inode, _, ⟨contents, rfl, regular⟩ | ⟨rfl, _⟩⟩
          · obtain ⟨directory, plain⟩ := Disk.plain_of_resolve_missing resolved
              fun n part => Disk.not_mem_components part
            have missing := same.missing directory (Disk.of_resolve_missing resolved).1
            rw [Disk.lookup_create_plain directory plain] at missing
            simp at missing
          · have kept := same inode _ regular
            rw [Disk.applyOpen, Disk.nodes_setNode, if_pos rfl] at kept
            refine ⟨inode, .inr ⟨opens, ?_⟩⟩
            rw [regular, kept]
          · exact ⟨inode, .inl opens⟩

/-- A directory with an empty directory and a file `notes` in it. -/
def notesTree : FileTree where
  toDisk := besideNotes
  above := by
    intro dir parent entries here
    match dir, here with
    | 0, here =>
        obtain ⟨rfl, -⟩ := Node.directory.inj (Option.some.inj here)
        exact ⟨0, _, rfl⟩
    | 1, here =>
        obtain ⟨rfl, -⟩ := Node.directory.inj (Option.some.inj here)
        exact ⟨0, _, rfl⟩
    | 2, here => cases here
    | dir + 3, here => cases here

/-- If `START_TRANSFER` cannot be sent, the new file stays. If the sender gives up,
the file that was there under the name is gone. -/
theorem failed_receive_leaves_traces :
    (∃ after, mainReceiverFiles committed 8 0 notesTree.toDisk (text "new") true false
          givenUp = some (after, TRANSFER_ERROR) ∧
        notesTree.lookup 0 (text "new") = none ∧ after.lookup 0 (text "new") = some 3 ∧
          ¬ notesTree.Same after) ∧
      ∃ after, mainReceiverFiles committed 8 0 notesTree.toDisk (text "notes") true true
          givenUp = some (after, TRANSFER_ERROR) ∧
        notesTree.lookup 0 (text "notes") = some 2 ∧
          after.lookup 0 (text "notes") = none ∧ ¬ notesTree.Same after := by
  constructor
  · have opens : receiveTarget 8 0 notesTree.toDisk (text "new") true =
        some (.create 0 (text "new")) := by decide +kernel
    have before : notesTree.lookup 0 (text "new") = none := by decide +kernel
    have after : (notesTree.applyOpen (.create 0 (text "new"))).lookup 0 (text "new") =
        some 3 := by decide +kernel
    refine ⟨_, mainReceiverFiles_notStarted opens givenUp, before, after, fun same => ?_⟩
    have missing := same.missing ⟨0, _, rfl⟩ before
    rw [after] at missing
    simp at missing
  · have opens : receiveTarget 8 0 notesTree.toDisk (text "notes") true =
        some (.truncate 2) := by decide +kernel
    have before : notesTree.lookup 0 (text "notes") = some 2 := by decide +kernel
    have after : (((notesTree.applyOpen (.truncate 2)).write 2 0 []).remove 8 0
        (components (text "notes"))).lookup 0 (text "notes") = none := by decide +kernel
    refine ⟨_, mainReceiverFiles_givenUp opens, before, after, fun same => ?_⟩
    have still := same.lookup before
    rw [Disk.opened, after] at still
    simp at still

end Spqr
