/-
Module: Spqr.PutPath
Purpose: What the file name of a `PUT` makes `main_receiver` open, write and remove.
Trusted boundary: none
Main exports:
  UploadOutcome, PutEffect, put, OnlyCreates, NewOrRefused, put_only_creates_iff
-/
import Spqr.Lib.FileSystem
import Spqr.Texts

namespace Spqr

open FileSystem

/-! ### The command -/

/-- What becomes of an upload: the bytes written, and what
`receive_data_from_sender` returns. -/
structure UploadOutcome where
  written : List UInt8
  ret : ℤ

/-- What a `PUT` does to the disk: the path opened, the disk after `fopen` and the
disk after `main_receiver`. -/
structure PutEffect where
  target : Option Disk.Target
  opened : Disk
  final : Disk

/-- What `fopen(pathname, "wb")` leads to; `permits` tells whether the rights on the
files allow it. At most `links` links are followed. -/
def receiveTarget (links dir : ℕ) (disk : Disk) (pathname : Name) (permits : Bool) :
    Option Disk.Target :=
  if permits then disk.openWrite links dir (components pathname) else none

/-- The `PUT` branch for a file name. `dir` is the directory that
`SERVER_FILES_PATH` names. -/
def put (links dir : ℕ) (disk : Disk) (request : Text) (permits : Bool)
    (outcome : UploadOutcome) : PutEffect :=
  if request = feedback.ABORT then ⟨none, disk, disk⟩
  -- `get_server_files(child_sockfd, true, request)`
  else if disk.isRegular dir request then ⟨none, disk, disk⟩
  else
    match receiveTarget links dir disk request permits with
    | none => ⟨none, disk, disk⟩
    | some target =>
        let opened := disk.applyOpen target
        let filled := opened.write (disk.opened target) 0 outcome.written
        if outcome.ret = TRANSFER_ERROR then
          ⟨some target, opened, filled.remove links dir (components request)⟩
        else ⟨some target, opened, filled⟩

/-- Whatever becomes of the upload, what is opened is a new entry of the directory,
and all other files and entries stay. -/
def OnlyCreates (links dir : ℕ) (disk : Disk) (request : Text) (permits : Bool) : Prop :=
  ∀ outcome,
    (∀ target, (put links dir disk request permits outcome).target = some target →
      ∃ name, target = .create dir name ∧ disk.lookup dir name = none) ∧
    disk.Keeps (put links dir disk request permits outcome).opened ∧
    disk.Keeps (put links dir disk request permits outcome).final

/-- The command opens nothing, or its path ends at a missing entry of the directory
itself. -/
def NewOrRefused (links dir : ℕ) (disk : Disk) (request : Text) (permits : Bool) : Prop :=
  request = feedback.ABORT ∨ disk.isRegular dir request = true ∨
    receiveTarget links dir disk request permits = none ∨
    ∃ name, disk.place links dir (components request) = some (dir, name) ∧
      name ∉ dots ∧ disk.lookup dir name = none

/-! ### Which names are harmless -/

section

variable {links dir : ℕ} {disk : Disk} {request : Text} {permits : Bool}

theorem openWrite_of_receiveTarget {pathname : Name} {target : Disk.Target}
    (opens : receiveTarget links dir disk pathname permits = some target) :
    disk.openWrite links dir (components pathname) = some target := by
  unfold receiveTarget at opens
  split_ifs at opens
  exact opens

/-- A command that opens nothing changes nothing. -/
theorem put_refused {outcome : UploadOutcome}
    (refused : request = feedback.ABORT ∨ disk.isRegular dir request = true ∨
      receiveTarget links dir disk request permits = none) :
    put links dir disk request permits outcome = ⟨none, disk, disk⟩ := by
  by_cases abort : request = feedback.ABORT
  · rw [put, if_pos abort]
  · by_cases listed : disk.isRegular dir request = true
    · rw [put, if_neg abort, if_pos listed]
    · have opensNot := (refused.resolve_left abort).resolve_left listed
      rw [put, if_neg abort, if_neg listed, opensNot]

/-- A command that opens a path, and takes the whole upload. -/
theorem put_opens {target : Disk.Target} (noAbort : request ≠ feedback.ABORT)
    (notListed : disk.isRegular dir request = false)
    (opens : receiveTarget links dir disk request permits = some target)
    (written : List UInt8) (ret : ℤ) :
    put links dir disk request permits ⟨written, ret⟩ =
      ⟨some target, disk.applyOpen target,
        if ret = TRANSFER_ERROR then
          ((disk.applyOpen target).write (disk.opened target) 0 written).remove links dir
            (components request)
        else (disk.applyOpen target).write (disk.opened target) 0 written⟩ := by
  unfold put
  rw [if_neg noAbort, notListed, if_neg Bool.false_ne_true, opens]
  dsimp only
  split_ifs <;> rfl

theorem onlyCreates_of_refused
    (refused : request = feedback.ABORT ∨ disk.isRegular dir request = true ∨
      receiveTarget links dir disk request permits = none) :
    OnlyCreates links dir disk request permits := by
  intro outcome
  rw [put_refused refused]
  exact ⟨by simp, .refl disk, .refl disk⟩

/-- A new entry is created, written and removed, and nothing else. -/
theorem onlyCreates_of_missing {name : Text}
    (led : disk.place links dir (components request) = some (dir, name))
    (plain : name ∉ dots) (missing : disk.lookup dir name = none) :
    OnlyCreates links dir disk request permits := by
  by_cases refused : request = feedback.ABORT ∨ disk.isRegular dir request = true ∨
      receiveTarget links dir disk request permits = none
  · exact onlyCreates_of_refused refused
  · obtain ⟨noAbort, notListed, opens⟩ := by simpa only [not_or] using refused
    have target : receiveTarget links dir disk request permits =
        some (.create dir name) := by
      rw [receiveTarget, Disk.openWrite_of_missing led plain missing] at opens ⊢
      split_ifs at opens ⊢
      · rfl
      all_goals exact absurd rfl opens
    rintro ⟨written, ret⟩
    have opened : disk.Keeps (disk.applyOpen (.create dir name)) := .create missing
    have filled := opened.write (disk.unused disk.next le_rfl) 0 written
    rw [put_opens noAbort (Bool.eq_false_of_not_eq_true notListed) target]
    refine ⟨fun other same => ⟨name, (Option.some.inj same).symm, missing⟩, opened, ?_⟩
    dsimp only
    split_ifs
    · exact filled.remove led missing
    · exact filled

/-- An upload over an existing file does not leave it as it was. -/
theorem not_keeps_truncate {inode : ℕ} {contents : List UInt8}
    (regular : disk.nodes inode = some (.regular contents)) :
    ¬ disk.Keeps ((disk.applyOpen (.truncate inode)).write inode 0 (contents ++ [0])) := by
  intro keeps
  have kept := keeps.files inode _ regular (by simp)
  simp [Disk.applyOpen, Disk.write, Disk.overwrite, Disk.setNode] at kept

/-- A `PUT` only creates exactly when it opens nothing or its path ends at a missing
entry of the directory itself. -/
theorem put_only_creates_iff (links dir : ℕ) (disk : Disk) (request : Text)
    (permits : Bool) :
    OnlyCreates links dir disk request permits ↔
      NewOrRefused links dir disk request permits := by
  constructor
  · intro creates
    by_contra harmful
    obtain ⟨noAbort, notListed, opens, notNew⟩ := by
      simpa only [NewOrRefused, not_or] using harmful
    obtain ⟨target, opens⟩ := Option.ne_none_iff_exists'.mp opens
    have effect := put_opens noAbort (Bool.eq_false_of_not_eq_true notListed) opens
    rcases Disk.of_openWrite (openWrite_of_receiveTarget opens) with ⟨dir', name, rfl, resolved⟩ |
      ⟨inode, _, ⟨contents, rfl, regular⟩ | ⟨rfl, _⟩⟩
    · -- the new entry is in the directory, so the path ends in a link
      obtain ⟨_, new, _⟩ := (creates ⟨[], EXIT_SUCCESS⟩).1 _ (by rw [effect])
      obtain ⟨rfl, rfl⟩ := Disk.Target.create.inj new
      obtain ⟨missing, ⟨led, plain⟩ | ⟨where_, last, inode, link, led, found, node⟩⟩ :=
        Disk.of_resolve_missing resolved
      · exact notNew ⟨_, led, plain, missing⟩
      · have filled := (creates ⟨[], EXIT_SUCCESS⟩).2.2
        have failed := (creates ⟨[], TRANSFER_ERROR⟩).2.2
        rw [effect] at filled failed
        rw [if_neg (by decide)] at filled
        rw [if_pos rfl] at failed
        have gone := Disk.lookup_remove_link (filled.place led) (filled.lookup found)
          (filled.files inode _ node (by simp))
        rw [failed.lookup found] at gone
        simp at gone
    · have filled := (creates ⟨contents ++ [0], EXIT_SUCCESS⟩).2.2
      rw [effect, if_neg (by decide)] at filled
      exact not_keeps_truncate regular filled
    · obtain ⟨_, new, _⟩ := (creates ⟨[], EXIT_SUCCESS⟩).1 _ (by rw [effect])
      simp at new
  · rintro (abort | listed | refused | ⟨name, led, plain, missing⟩)
    · exact onlyCreates_of_refused (.inl abort)
    · exact onlyCreates_of_refused (.inr (.inl listed))
    · exact onlyCreates_of_refused (.inr (.inr refused))
    · exact onlyCreates_of_missing led plain missing

end

/-- The server's directory with `server-files/`, which is empty, and a file `notes`
beside it. -/
def besideNotes : Disk where
  nodes
    | 0 => some (.directory 0 fun name =>
        if name = text "server-files" then some 1
        else if name = text "notes" then some 2
        else none)
    | 1 => some (.directory 0 fun _ => none)
    | 2 => some (.regular [7])
    | _ => none
  root := 0
  next := 3
  unused := by
    intro inode later
    match inode, later with
    | inode + 3, _ => rfl

/-- The file outside is truncated before the first packet, and removed when the
upload fails. -/
theorem put_overwrites :
    ¬ OnlyCreates 8 1 besideNotes (text "../notes") true ∧
      besideNotes.contents 2 = [7] ∧
      (put 8 1 besideNotes (text "../notes") true ⟨[], EXIT_SUCCESS⟩).opened.contents 2 = [] ∧
      besideNotes.lookup 0 (text "notes") = some 2 ∧
      (put 8 1 besideNotes (text "../notes") true ⟨[], TRANSFER_ERROR⟩).final.lookup 0
        (text "notes") = none := by
  refine ⟨fun creates => ?_, by decide +kernel, by decide +kernel, by decide +kernel,
    by decide +kernel⟩
  have target : (put 8 1 besideNotes (text "../notes") true ⟨[], EXIT_SUCCESS⟩).target =
      some (.truncate 2) := by
    decide +kernel
  obtain ⟨_, new, _⟩ := (creates ⟨[], EXIT_SUCCESS⟩).1 _ target
  simp at new

end Spqr
