/-
Module: Spqr.Lib.FileTree
Purpose: When opening a path for writing, with or without removing it again,
  leaves every file and every directory as it was.
Trusted boundary: none
Main exports:
  FileTree, Disk.Same, Disk.same_of_create_remove, Disk.not_same_of_removed
-/
import Spqr.Lib.Directory

namespace FileSystem

/-- A disk on which what is above a directory is a directory. -/
structure FileTree extends Disk where
  above : ∀ dir parent entries, nodes dir = some (.directory parent entries) →
    toDisk.IsDirectory parent

namespace Disk

variable {disk after : Disk} {links dir inode : ℕ} {names : List Name} {name : Name}
  {contents : List UInt8}

/-- Every file and every directory is as it was. A file that is in no directory may
be left behind. -/
def Same (before after : Disk) : Prop :=
  ∀ inode node, before.nodes inode = some node → after.nodes inode = some node

theorem Same.refl (disk : Disk) : disk.Same disk := fun _ _ => id

theorem Same.lookup (same : disk.Same after) {entry : ℕ}
    (there : disk.lookup dir name = some entry) : after.lookup dir name = some entry := by
  unfold Disk.lookup at there
  split at there
  · rename_i parent entries here
    rw [Disk.lookup, same dir _ here]
    exact there
  · simp at there

theorem Same.missing (same : disk.Same after) (directory : disk.IsDirectory dir)
    (missing : disk.lookup dir name = none) : after.lookup dir name = none := by
  obtain ⟨parent, entries, here⟩ := directory
  rw [Disk.lookup, here] at missing
  rw [Disk.lookup, same dir _ here]
  exact missing

/-! ### Where paths end -/

theorem not_mem_components {path : Name} (part : name ∈ components path) :
    slash ∉ name := by
  induction path generalizing name with
  | nil =>
      rw [components, List.splitOn_nil, List.mem_singleton] at part
      simp [part]
  | cons byte path ih =>
      rw [components, List.splitOn_cons_eq_if_modifyHead, ← components] at part
      split at part
      · rcases List.mem_cons.mp part with rfl | part
        · simp
        · exact ih part
      · rename_i other
        cases split : components path with
        | nil => simp [split] at part
        | cons first rest =>
            rw [split, List.modifyHead_cons, List.mem_cons] at part
            rcases part with rfl | part
            · have head : slash ∉ first := ih (by rw [split]; exact List.mem_cons_self)
              rw [List.mem_cons, not_or]
              exact ⟨fun same => other (beq_iff_eq.mpr same.symm), head⟩
            · exact ih (by rw [split]; exact List.mem_cons_of_mem _ part)

/-- A walk ends in a directory, at a name of the path. -/
theorem walk_arrived {end_ : ℕ} (arrives : disk.walk dir names = .arrived end_ name) :
    disk.IsDirectory end_ ∧ name ∈ names := by
  induction names generalizing dir with
  | nil => simp [walk] at arrives
  | cons first rest ih =>
      cases rest with
      | nil =>
          rw [walk] at arrives
          split at arrives
          · rename_i parent entries here
            obtain ⟨rfl, rfl⟩ := Walk.arrived.inj arrives
            exact ⟨⟨parent, entries, here⟩, List.mem_singleton_self _⟩
          · simp at arrives
      | cons next rest =>
          rw [walk] at arrives
          split at arrives
          · simp at arrives
          · split at arrives
            · obtain ⟨directory, part⟩ := ih arrives
              exact ⟨directory, List.mem_cons_of_mem _ part⟩
            · simp at arrives
            · simp at arrives

theorem walk_link {end_ : ℕ} {target : Name} {rest : List Name}
    (stops : disk.walk dir names = .link target end_ rest) : ∀ n ∈ rest, n ∈ names := by
  induction names generalizing dir with
  | nil => simp [walk] at stops
  | cons first names ih =>
      cases names with
      | nil =>
          rw [walk] at stops
          split at stops <;> simp at stops
      | cons next names =>
          rw [walk] at stops
          split at stops
          · simp at stops
          · split at stops
            · intro n part
              exact List.mem_cons_of_mem _ (ih stops n part)
            · obtain ⟨-, -, rfl⟩ := Walk.link.inj stops
              intro n part
              exact List.mem_cons_of_mem _ part
            · simp at stops

/-- So does a path, whatever links it follows. -/
theorem of_place {end_ : ℕ} (led : disk.place links dir names = some (end_, name))
    (noSlash : ∀ n ∈ names, slash ∉ n) : disk.IsDirectory end_ ∧ slash ∉ name := by
  induction links generalizing dir names with
  | zero =>
      rw [place] at led
      split at led
      · rename_i arrives
        obtain ⟨rfl, rfl⟩ := Prod.mk.inj (Option.some.inj led)
        obtain ⟨directory, part⟩ := walk_arrived arrives
        exact ⟨directory, noSlash _ part⟩
      · simp at led
      · simp at led
  | succ links ih =>
      rw [place] at led
      split at led
      · rename_i arrives
        obtain ⟨rfl, rfl⟩ := Prod.mk.inj (Option.some.inj led)
        obtain ⟨directory, part⟩ := walk_arrived arrives
        exact ⟨directory, noSlash _ part⟩
      · simp at led
      · rename_i stops
        apply ih led
        intro n part
        rcases List.mem_append.mp part with part | part
        · exact not_mem_components part
        · exact noSlash n (walk_link stops n part)

/-- A path to a missing entry ends at a name that its directory may have. -/
theorem plain_of_resolve_missing {end_ : ℕ}
    (resolved : disk.resolve links dir names = .missing end_ name)
    (noSlash : ∀ n ∈ names, slash ∉ n) : disk.IsDirectory end_ ∧ Plain name := by
  induction links generalizing dir names with
  | zero =>
      unfold resolve at resolved
      split at resolved
      · simp at resolved
      · rename_i where_ last led
        split_ifs at resolved with dotted
        · split at resolved <;> simp at resolved
        · split at resolved
          · obtain ⟨rfl, rfl⟩ := Resolved.missing.inj resolved
            obtain ⟨directory, bare⟩ := of_place led noSlash
            exact ⟨directory, bare, dotted⟩
          · split at resolved <;> simp at resolved
  | succ links ih =>
      unfold resolve at resolved
      split at resolved
      · simp at resolved
      · rename_i where_ last led
        split_ifs at resolved with dotted
        · split at resolved <;> simp at resolved
        · split at resolved
          · obtain ⟨rfl, rfl⟩ := Resolved.missing.inj resolved
            obtain ⟨directory, bare⟩ := of_place led noSlash
            exact ⟨directory, bare, dotted⟩
          · split at resolved
            · exact ih resolved fun n part => not_mem_components part
            · simp at resolved
            · simp at resolved

/-! ### Other contents of a regular file -/

section Regular

variable (regular : disk.nodes inode = some (.regular contents)) (contents' : List UInt8)

include regular

theorem child_setRegular :
    (disk.setNode inode (.regular contents')).child dir name = disk.child dir name := by
  by_cases same : dir = inode
  · subst same
    simp [child, nodes_setNode, regular]
  · simp [child, lookup, nodes_setNode, same]

theorem walk_setRegular :
    (disk.setNode inode (.regular contents')).walk dir names = disk.walk dir names := by
  induction names generalizing dir with
  | nil => rfl
  | cons first rest ih =>
      cases rest with
      | nil =>
          rw [walk, walk, nodes_setNode]
          split_ifs with same
          · rw [same, regular]
          · rfl
      | cons next rest =>
          rw [walk, walk, child_setRegular regular]
          cases disk.child dir first with
          | none => rfl
          | some entry =>
              simp only [nodes_setNode]
              split_ifs with same
              · rw [same, regular]
              · rw [ih]

theorem place_setRegular :
    (disk.setNode inode (.regular contents')).place links dir names =
      disk.place links dir names := by
  induction links generalizing dir names with
  | zero => rw [place, place, walk_setRegular regular]
  | succ links ih =>
      rw [place, place, walk_setRegular regular]
      cases disk.walk dir names with
      | arrived end_ last => rfl
      | failed => rfl
      | link target end_ rest => exact ih

theorem lookup_setRegular :
    (disk.setNode inode (.regular contents')).lookup dir name = disk.lookup dir name := by
  by_cases same : dir = inode
  · subst same
    simp [lookup, nodes_setNode, regular]
  · simp [lookup, nodes_setNode, same]

end Regular

/-! ### A new name -/

/-- A directory as the new name leaves it. -/
theorem nodes_create_dir {end_ parent : ℕ} {entries : Name → Option ℕ}
    (here : disk.nodes end_ = some (.directory parent entries)) (plain : Plain name) :
    (disk.applyOpen (.create end_ name)).nodes end_ =
      some (.directory parent (Function.update entries name (some disk.next))) := by
  have kept : (disk.setNode disk.next (.regular [])).nodes end_ =
      some (.directory parent entries) := directory_setNode not_directory_next here
  rw [applyOpen, setEntry, kept]
  simp only [if_pos plain, nodes_setNode, if_true]

/-- A file that is created, written and removed leaves no trace. -/
theorem same_of_create_remove {end_ : ℕ}
    (led : disk.place links dir names = some (end_, name))
    (directory : disk.IsDirectory end_) (plain : Plain name)
    (missing : disk.lookup end_ name = none) (bytes : List UInt8) :
    disk.Same (((disk.applyOpen (.create end_ name)).write disk.next 0 bytes).remove
      links dir names) := by
  have elsewhere : disk.next ≠ end_ := directory.ne_next
  obtain ⟨parent, entries, here⟩ := directory
  have free : entries name = none := by
    simpa [lookup, here, plain] using missing
  have created := nodes_create_dir here plain
  have begun : (disk.applyOpen (.create end_ name)).nodes disk.next =
      some (.regular []) := by
    rw [nodes_create elsewhere, if_pos rfl]
  have led' := ((Keeps.create missing).write (disk.unused _ le_rfl) 0 bytes).place led
  obtain ⟨filled, filled_eq⟩ : ∃ filled,
      filled = (disk.applyOpen (.create end_ name)).write disk.next 0 bytes := ⟨_, rfl⟩
  rw [← filled_eq] at led' ⊢
  rw [write, begun] at filled_eq
  have nodes (i : ℕ) : filled.nodes i =
      if i = disk.next then some (.regular (overwrite [] 0 bytes))
      else (disk.applyOpen (.create end_ name)).nodes i := by
    rw [filled_eq]
    exact nodes_setNode
  have filled_dir := nodes end_
  rw [if_neg elsewhere.symm, created] at filled_dir
  have node : (filled.lookup end_ name).bind filled.nodes =
      some (.regular (overwrite [] 0 bytes)) := by
    simp only [lookup, filled_dir, if_pos plain, Function.update_self,
      Option.bind_some, nodes, if_true]
  intro i node' there
  rw [remove, led']
  simp only [node]
  by_cases same : i = end_
  · subst same
    obtain rfl := Option.some.inj (here.symm.trans there)
    rw [setEntry, filled_dir]
    simp only [if_pos plain, nodes_setNode, if_true, Function.update_idem, ← free,
      Function.update_eq_self]
  · have old : i ≠ disk.next := by
      rintro rfl
      simp [disk.unused _ le_rfl] at there
    rw [nodes_setEntry same, nodes, if_neg old, nodes_create same, if_neg old, there]

/-- A new name is a change. -/
theorem lookup_create_plain {end_ : ℕ} (directory : disk.IsDirectory end_)
    (plain : Plain name) :
    (disk.applyOpen (.create end_ name)).lookup end_ name = some disk.next := by
  obtain ⟨parent, entries, here⟩ := directory
  rw [lookup, nodes_create_dir here plain]
  simp [plain]

/-! ### A name that is there -/

/-- Removing a path that ends at a file, or a link, removes its entry. -/
theorem lookup_remove_file {where_ entry : ℕ} {last : Name} {node : Node}
    (led : disk.place links dir names = some (where_, last))
    (found : disk.lookup where_ last = some entry) (there : disk.nodes entry = some node)
    (file : ∀ parent entries, node ≠ .directory parent entries) :
    (disk.remove links dir names).lookup where_ last = none := by
  have node' : (disk.lookup where_ last).bind disk.nodes = some node := by
    rw [found]
    exact there
  rw [remove, led]
  simp only [node']
  cases node with
  | directory parent entries => exact absurd rfl (file parent entries)
  | regular contents => exact lookup_setEntry found none
  | symlink target => exact lookup_setEntry found none
  | special => exact lookup_setEntry found none

/-- So an entry is missing that was there. -/
theorem not_same_of_removed {filled : Disk} {where_ entry : ℕ} {last : Name} {node : Node}
    (led : filled.place links dir names = some (where_, last))
    (found : filled.lookup where_ last = some entry)
    (there : filled.nodes entry = some node)
    (file : ∀ parent entries, node ≠ .directory parent entries)
    (old : disk.lookup where_ last = some inode) :
    ¬ disk.Same (filled.remove links dir names) := by
  intro same
  have gone := lookup_remove_file led found there file
  rw [same.lookup old] at gone
  simp at gone

end Disk

namespace FileTree

open Disk

variable {tree : FileTree} {links dir inode : ℕ} {names : List Name} {name : Name}

/-- The names that are not looked up lead to directories. -/
theorem isDirectory_of_dots (dotted : name ∈ dots) {entry : ℕ}
    (found : tree.child dir name = some entry) : tree.IsDirectory entry := by
  unfold child at found
  split at found
  · rename_i parent entries here
    split_ifs at found with itself up
    · obtain rfl := Option.some.inj found
      exact ⟨parent, entries, here⟩
    · obtain rfl := Option.some.inj found
      exact tree.above dir parent entries here
    · simp only [dots, List.mem_cons, List.not_mem_nil, or_false] at dotted
      tauto
  · simp at found

/-- A path that leads to a file ends at an entry for it, or for a link. -/
theorem of_resolve_found (resolved : tree.resolve links dir names = .found inode)
    (file : ¬ tree.IsDirectory inode) :
    ∃ where_ last entry node, tree.place links dir names = some (where_, last) ∧
      tree.lookup where_ last = some entry ∧ tree.nodes entry = some node ∧
        ∀ parent entries, node ≠ .directory parent entries := by
  unfold resolve at resolved
  split at resolved
  · simp at resolved
  · rename_i where_ last led
    split_ifs at resolved with dotted
    · split at resolved
      · rename_i entry found
        obtain rfl := Resolved.found.inj resolved
        exact absurd (isDirectory_of_dots dotted found) file
      · simp at resolved
    · split at resolved
      · simp at resolved
      · rename_i entry found
        split at resolved
        · rename_i target link
          exact ⟨where_, last, entry, _, led, found, link, by simp⟩
        · rename_i node _ there
          obtain rfl := Resolved.found.inj resolved
          refine ⟨where_, last, entry, node, led, found, there, ?_⟩
          rintro parent entries rfl
          exact file ⟨parent, entries, there⟩
        · simp at resolved

end FileTree

end FileSystem
