/-
Module: Spqr.Lib.FileSystem
Purpose: Directories, files and links; how a path is resolved; what opening a path
  for writing, writing to it and removing it change.
Trusted boundary: none
Main exports:
  Node, Disk, Disk.place, Disk.resolve, Disk.openWrite, Disk.opened,
  Disk.applyOpen, Disk.write, Disk.remove, Disk.Keeps
-/
import Mathlib.Tactic

namespace FileSystem

/-- A file name, or a path. -/
abbrev Name := List UInt8

inductive Node where
  | regular (contents : List UInt8)
  | directory (parent : ℕ) (entries : Name → Option ℕ)
  | symlink (target : Name)
  /-- a device or a named pipe -/
  | special

/-- The files by their numbers. -/
structure Disk where
  nodes : ℕ → Option Node
  root : ℕ
  /-- The number of the next file. -/
  next : ℕ
  unused : ∀ inode, next ≤ inode → nodes inode = none

/-- `/` -/
def slash : UInt8 := 47

/-- The names between the slashes. Empty ones stand for the directory itself. -/
def components (path : Name) : List Name := path.splitOn slash

/-- Names that are not looked up: the empty one, `.` and `..`. -/
def dots : List Name := [[], [46], [46, 46]]

namespace Disk

/-! ### Paths -/

/-- A name that a directory may have an entry for. -/
def Plain (name : Name) : Prop := slash ∉ name ∧ name ∉ dots

instance (name : Name) : Decidable (Plain name) := inferInstanceAs (Decidable (_ ∧ _))

/-- The entry of a directory. -/
def lookup (disk : Disk) (dir : ℕ) (name : Name) : Option ℕ :=
  match disk.nodes dir with
  | some (.directory _ entries) => if Plain name then entries name else none
  | _ => none

/-- One name of a path. -/
def child (disk : Disk) (dir : ℕ) (name : Name) : Option ℕ :=
  match disk.nodes dir with
  | some (.directory parent _) =>
      if name = [] ∨ name = [46] then some dir
      else if name = [46, 46] then some parent
      else disk.lookup dir name
  | _ => none

/-- How far one gets without following a link. -/
inductive Walk where
  | arrived (dir : ℕ) (last : Name)
  | link (target : Name) (dir : ℕ) (rest : List Name)
  | failed

/-- All names but the last one, up to the first link. -/
def walk (disk : Disk) : ℕ → List Name → Walk
  | _, [] => .failed
  | dir, [last] =>
      match disk.nodes dir with
      | some (.directory _ _) => .arrived dir last
      | _ => .failed
  | dir, name :: next :: rest =>
      match disk.child dir name with
      | none => .failed
      | some inode =>
          match disk.nodes inode with
          | some (.directory _ _) => walk disk inode (next :: rest)
          | some (.symlink target) => .link target dir (next :: rest)
          | _ => .failed

/-- Where the target of a link is looked for. -/
def base (disk : Disk) (dir : ℕ) (target : Name) : ℕ :=
  if target.head? = some slash then disk.root else dir

/-- The directory and the name that a path ends at. At most `links` links are
followed on the way, and none at the end. -/
def place (disk : Disk) : ℕ → ℕ → List Name → Option (ℕ × Name)
  | links, dir, names =>
      match disk.walk dir names with
      | .arrived dir last => some (dir, last)
      | .failed => none
      | .link target dir rest =>
          match links with
          | 0 => none
          | links + 1 =>
              place disk links (disk.base dir target) (components target ++ rest)

/-- What a path stands for. -/
inductive Resolved where
  | missing (dir : ℕ) (name : Name)
  | found (inode : ℕ)
  | failed
deriving DecidableEq

/-- A link at the end is followed too. -/
def resolve (disk : Disk) : ℕ → ℕ → List Name → Resolved
  | links, dir, names =>
      match disk.place links dir names with
      | none => .failed
      | some (dir, last) =>
          if last ∈ dots then
            match disk.child dir last with
            | some inode => .found inode
            | none => .failed
          else
            match disk.lookup dir last with
            | none => .missing dir last
            | some inode =>
                match disk.nodes inode with
                | some (.symlink target) =>
                    match links with
                    | 0 => .failed
                    | links + 1 =>
                        resolve disk links (disk.base dir target) (components target)
                | some _ => .found inode
                | none => .failed

/-- The entry is a regular file, as `readdir` tells. -/
def isRegular (disk : Disk) (dir : ℕ) (name : Name) : Bool :=
  match (disk.lookup dir name).bind disk.nodes with
  | some (.regular _) => true
  | _ => false

/-! ### Changes -/

/-- What `fopen(path, "wb")` does. -/
inductive Target where
  | create (dir : ℕ) (name : Name)
  | truncate (inode : ℕ)
  | device (inode : ℕ)
deriving DecidableEq

/-- The longest name that a directory takes. -/
def NAME_MAX : ℕ := 255

/-- A path that ends in a directory, or nowhere, cannot be opened for writing. -/
def openWrite (disk : Disk) (links dir : ℕ) (names : List Name) : Option Target :=
  match disk.resolve links dir names with
  | .missing dir name =>
      if name.length ≤ NAME_MAX then some (.create dir name) else none
  | .found inode =>
      match disk.nodes inode with
      | some (.regular _) => some (.truncate inode)
      | some .special => some (.device inode)
      | _ => none
  | .failed => none

/-- What `fopen(path, "rb")` of a regular file finds. -/
def openRead (disk : Disk) (links dir : ℕ) (names : List Name) : Option ℕ :=
  match disk.resolve links dir names with
  | .found inode =>
      match disk.nodes inode with
      | some (.regular _) => some inode
      | _ => none
  | _ => none

def setNode (disk : Disk) (inode : ℕ) (node : Node) : Disk where
  nodes := Function.update disk.nodes inode (some node)
  root := disk.root
  next := max disk.next (inode + 1)
  unused := by
    intro i later
    have other : i ≠ inode := by omega
    rw [Function.update_of_ne other]
    exact disk.unused i (by omega)

/-- A directory gets or loses an entry. -/
def setEntry (disk : Disk) (dir : ℕ) (name : Name) (entry : Option ℕ) : Disk :=
  match disk.nodes dir with
  | some (.directory parent entries) =>
      if Plain name then
        disk.setNode dir (.directory parent (Function.update entries name entry))
      else disk
  | _ => disk

/-- The file behind a target. -/
def opened (disk : Disk) : Target → ℕ
  | .create _ _ => disk.next
  | .truncate inode => inode
  | .device inode => inode

/-- The disk after `fopen`. -/
def applyOpen (disk : Disk) : Target → Disk
  | .create dir name =>
      (disk.setNode disk.next (.regular [])).setEntry dir name (some disk.next)
  | .truncate inode => disk.setNode inode (.regular [])
  | .device _ => disk

def contents (disk : Disk) (inode : ℕ) : List UInt8 :=
  match disk.nodes inode with
  | some (.regular contents) => contents
  | _ => []

/-- A file after a write at some position; a gap is filled with zeros. -/
def overwrite (contents : List UInt8) (position : ℕ) (bytes : List UInt8) :
    List UInt8 :=
  (contents ++ List.replicate (position - contents.length) 0).take position ++ bytes ++
    contents.drop (position + bytes.length)

/-- A write to an open file. A device takes the bytes and keeps none. -/
def write (disk : Disk) (inode position : ℕ) (bytes : List UInt8) : Disk :=
  match disk.nodes inode with
  | some (.regular contents) =>
      disk.setNode inode (.regular (overwrite contents position bytes))
  | _ => disk

/-- `remove`; a link is removed and not followed. Directories are left alone: none
is ever opened for writing. -/
def remove (disk : Disk) (links dir : ℕ) (names : List Name) : Disk :=
  match disk.place links dir names with
  | none => disk
  | some (dir, last) =>
      match (disk.lookup dir last).bind disk.nodes with
      | none => disk
      | some (.directory _ _) => disk
      | some _ => disk.setEntry dir last none

/-! ### What is kept -/

/-- Every file is as it was, and every directory has the entries that it had. -/
structure Keeps (before after : Disk) : Prop where
  root : after.root = before.root
  files : ∀ inode node, before.nodes inode = some node →
    (∀ parent entries, node ≠ .directory parent entries) →
      after.nodes inode = some node
  entries : ∀ inode parent entries,
    before.nodes inode = some (.directory parent entries) →
      ∃ entries', after.nodes inode = some (.directory parent entries') ∧
        ∀ name entry, entries name = some entry → entries' name = some entry

namespace Keeps

variable {before disk : Disk}

theorem refl (disk : Disk) : Keeps disk disk :=
  ⟨rfl, fun _ _ there _ => there, fun _ _ entries there => ⟨entries, there, fun _ _ => id⟩⟩

/-- A file that was not there may be anything. -/
theorem setNode (keeps : Keeps before disk) {inode : ℕ}
    (fresh : before.nodes inode = none) (node : Node) :
    Keeps before (disk.setNode inode node) := by
  have other : ∀ i node', before.nodes i = some node' →
      (disk.setNode inode node).nodes i = disk.nodes i := by
    intro i node' there
    refine Function.update_of_ne (fun same => ?_) _ _
    rw [same, fresh] at there
    simp at there
  refine ⟨keeps.root, fun i node' there plain => ?_, fun i parent entries there => ?_⟩
  · rw [other i node' there]
    exact keeps.files i node' there plain
  · rw [other i _ there]
    exact keeps.entries i parent entries there

/-- So may an entry. -/
theorem setEntry (keeps : Keeps before disk) {dir : ℕ} {name : Name}
    (missing : before.lookup dir name = none) (entry : Option ℕ) :
    Keeps before (disk.setEntry dir name entry) := by
  unfold Disk.setEntry
  split
  · rename_i parent entries here
    split_ifs with plain
    · have others : ∀ i, i ≠ dir →
          (disk.setNode dir (.directory parent (Function.update entries name
            entry))).nodes i = disk.nodes i := by
        intro i different
        exact Function.update_of_ne different _ _
      refine ⟨keeps.root, fun i node there file => ?_,
        fun i parent' entries' there => ?_⟩
      · have different : i ≠ dir := by
          rintro rfl
          rw [keeps.files i node there file] at here
          exact file _ _ (Option.some.inj here)
        rw [others i different]
        exact keeps.files i node there file
      · obtain ⟨entries'', kept, still⟩ := keeps.entries i parent' entries' there
        by_cases same : i = dir
        · subst same
          obtain ⟨rfl, rfl⟩ := Node.directory.inj (Option.some.inj (here.symm.trans kept))
          refine ⟨_, Function.update_self .., fun name' entry' was => ?_⟩
          have different : name' ≠ name := by
            rintro rfl
            simp [Disk.lookup, there, plain, was] at missing
          rw [Function.update_of_ne different]
          exact still name' entry' was
        · rw [others i same]
          exact ⟨entries'', kept, still⟩
    · exact keeps
  · exact keeps

theorem write (keeps : Keeps before disk) {inode : ℕ}
    (fresh : before.nodes inode = none) (position : ℕ) (bytes : List UInt8) :
    Keeps before (disk.write inode position bytes) := by
  unfold Disk.write
  split
  · exact keeps.setNode fresh _
  · exact keeps

/-! Paths lead where they led. -/

theorem lookup (keeps : Keeps before disk) {dir entry : ℕ} {name : Name}
    (there : before.lookup dir name = some entry) : disk.lookup dir name = some entry := by
  unfold Disk.lookup at there
  split at there
  · rename_i parent entries here
    obtain ⟨entries', kept, still⟩ := keeps.entries dir parent entries here
    split_ifs at there with plain
    rw [Disk.lookup, kept]
    simp only [if_pos plain]
    exact still name entry there
  · simp at there

theorem child (keeps : Keeps before disk) {dir entry : ℕ} {name : Name}
    (there : before.child dir name = some entry) : disk.child dir name = some entry := by
  unfold Disk.child at there
  split at there
  · rename_i parent entries here
    obtain ⟨entries', kept, _⟩ := keeps.entries dir parent entries here
    rw [Disk.child, kept]
    dsimp only
    split_ifs at there ⊢
    · exact there
    · exact there
    · exact keeps.lookup there
  · simp at there

theorem walk (keeps : Keeps before disk) {dir : ℕ} {names : List Name}
    (arrives : before.walk dir names ≠ .failed) :
    disk.walk dir names = before.walk dir names := by
  induction names generalizing dir with
  | nil => exact absurd rfl arrives
  | cons name rest inductionHypothesis =>
      cases rest with
      | nil =>
          rw [Disk.walk] at arrives ⊢
          split at arrives
          · rename_i parent entries here
            obtain ⟨_, kept, _⟩ := keeps.entries dir parent entries here
            rw [Disk.walk, here, kept]
          · exact absurd rfl arrives
      | cons next rest =>
          rw [Disk.walk] at arrives ⊢
          cases found : before.child dir name with
          | none =>
              rw [found] at arrives
              exact absurd rfl arrives
          | some inode =>
              rw [found] at arrives
              rw [Disk.walk, found, keeps.child found]
              cases node : before.nodes inode with
              | none =>
                  simp only [node] at arrives
                  exact absurd rfl arrives
              | some node' =>
                  cases node' with
                  | directory parent entries =>
                      obtain ⟨_, kept, _⟩ := keeps.entries inode parent entries node
                      simp only [node] at arrives
                      simp only [kept, node]
                      exact inductionHypothesis arrives
                  | symlink target =>
                      have kept := keeps.files inode _ node (by simp)
                      simp only [kept, node]
                  | regular contents =>
                      simp only [node] at arrives
                      exact absurd rfl arrives
                  | special =>
                      simp only [node] at arrives
                      exact absurd rfl arrives

theorem place (keeps : Keeps before disk) {links dir : ℕ} {names : List Name}
    {end_ : ℕ × Name} (arrives : before.place links dir names = some end_) :
    disk.place links dir names = some end_ := by
  induction links generalizing dir names with
  | zero =>
      rw [Disk.place] at arrives
      have walks : disk.walk dir names = before.walk dir names :=
        keeps.walk fun failed => by simp [failed] at arrives
      rw [Disk.place, walks]
      exact arrives
  | succ links inductionHypothesis =>
      rw [Disk.place] at arrives
      have walks : disk.walk dir names = before.walk dir names :=
        keeps.walk fun failed => by simp [failed] at arrives
      rw [Disk.place, walks]
      cases where_ : before.walk dir names with
      | failed => simp [where_] at arrives
      | arrived dir last =>
          rw [where_] at arrives
          exact arrives
      | link target dir rest =>
          simp only [where_] at arrives ⊢
          rw [Disk.base, keeps.root, ← Disk.base]
          exact inductionHypothesis arrives

/-- A path that led nowhere may be removed again. -/
theorem remove (keeps : Keeps before disk) {links dir dir' : ℕ} {names : List Name}
    {name : Name} (led : before.place links dir names = some (dir', name))
    (missing : before.lookup dir' name = none) :
    Keeps before (disk.remove links dir names) := by
  rw [Disk.remove, keeps.place led]
  dsimp only
  split
  · exact keeps
  · exact keeps
  · exact keeps.setEntry missing none

/-- A path that led to a missing entry may be opened. -/
theorem create {dir : ℕ} {name : Name} (missing : disk.lookup dir name = none) :
    Keeps disk (disk.applyOpen (.create dir name)) :=
  ((refl disk).setNode (disk.unused _ le_rfl) _).setEntry missing _

end Keeps

/-! ### What a path that can be opened leads to -/

variable {disk : Disk} {links dir : ℕ} {names : List Name}

/-- A path to a missing entry. -/
theorem openWrite_of_missing {dir' : ℕ} {name : Name}
    (led : disk.place links dir names = some (dir', name)) (plain : name ∉ dots)
    (missing : disk.lookup dir' name = none) :
    disk.openWrite links dir names =
      if name.length ≤ NAME_MAX then some (.create dir' name) else none := by
  have resolved : disk.resolve links dir names = .missing dir' name := by
    unfold resolve
    rw [led]
    simp only [if_neg plain, missing]
  rw [openWrite, resolved]

/-- A path leads to a missing entry only if it ends there, or in a link. -/
theorem of_resolve_missing {dir' : ℕ} {name : Name}
    (resolved : disk.resolve links dir names = .missing dir' name) :
    disk.lookup dir' name = none ∧
      ((disk.place links dir names = some (dir', name) ∧ name ∉ dots) ∨
        ∃ where_ last inode target, disk.place links dir names = some (where_, last) ∧
          disk.lookup where_ last = some inode ∧
            disk.nodes inode = some (.symlink target)) := by
  induction links generalizing dir names with
  | zero =>
      unfold resolve at resolved
      split at resolved
      · simp at resolved
      · rename_i where_ last led
        split_ifs at resolved with plain
        · split at resolved <;> simp at resolved
        · split at resolved
          · rename_i missing
            obtain ⟨rfl, rfl⟩ := Resolved.missing.inj resolved
            exact ⟨missing, .inl ⟨led, plain⟩⟩
          · split at resolved <;> simp at resolved
  | succ links inductionHypothesis =>
      unfold resolve at resolved
      split at resolved
      · simp at resolved
      · rename_i where_ last led
        split_ifs at resolved with plain
        · split at resolved <;> simp at resolved
        · split at resolved
          · rename_i missing
            obtain ⟨rfl, rfl⟩ := Resolved.missing.inj resolved
            exact ⟨missing, .inl ⟨led, plain⟩⟩
          · rename_i inode found
            split at resolved
            · rename_i target link
              exact ⟨(inductionHypothesis resolved).1,
                .inr ⟨where_, last, inode, target, led, found, link⟩⟩
            · simp at resolved
            · simp at resolved

theorem of_openWrite {target : Target}
    (opens : disk.openWrite links dir names = some target) :
    (∃ dir' name, target = .create dir' name ∧
        disk.resolve links dir names = .missing dir' name) ∨
      ∃ inode, disk.resolve links dir names = .found inode ∧
        ((∃ contents, target = .truncate inode ∧
            disk.nodes inode = some (.regular contents)) ∨
          target = .device inode ∧ disk.nodes inode = some .special) := by
  unfold openWrite at opens
  split at opens
  · rename_i dir' name resolved
    split_ifs at opens
    exact .inl ⟨dir', name, (Option.some.inj opens).symm, resolved⟩
  · rename_i inode resolved
    split at opens
    · rename_i contents regular
      exact .inr ⟨inode, resolved, .inl ⟨contents, (Option.some.inj opens).symm, regular⟩⟩
    · rename_i special
      exact .inr ⟨inode, resolved, .inr ⟨(Option.some.inj opens).symm, special⟩⟩
    · simp at opens
  · simp at opens

theorem plain_of_lookup {name : Name} {entry : ℕ}
    (there : disk.lookup dir name = some entry) : Plain name := by
  unfold lookup at there
  split at there
  · split_ifs at there with plain
    exact plain
  · simp at there

theorem lookup_setEntry {name : Name} {entry : ℕ}
    (there : disk.lookup dir name = some entry) (new : Option ℕ) :
    (disk.setEntry dir name new).lookup dir name = new := by
  have plain := plain_of_lookup there
  unfold lookup at there
  split at there
  · rename_i parent entries here
    rw [setEntry, here]
    simp [lookup, setNode, plain]
  · simp at there

/-- Removing a path that ends in a link removes the link. -/
theorem lookup_remove_link {where_ inode : ℕ} {last target : Name}
    (led : disk.place links dir names = some (where_, last))
    (found : disk.lookup where_ last = some inode)
    (link : disk.nodes inode = some (.symlink target)) :
    (disk.remove links dir names).lookup where_ last = none := by
  have node : (disk.lookup where_ last).bind disk.nodes = some (.symlink target) := by
    rw [found]
    exact link
  rw [remove, led]
  simp only [node]
  exact lookup_setEntry found none

end Disk

end FileSystem
