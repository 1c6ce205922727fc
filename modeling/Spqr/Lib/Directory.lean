/-
Module: Spqr.Lib.Directory
Purpose: What opening, writing and removing a name of one directory do to its
  entries and to the files behind them.
Trusted boundary: none
Main exports:
  Disk.Sound, Disk.Ordinary, Disk.openWrite_name, Disk.openRead_name,
  Disk.lookup_create, Disk.lookup_remove, Disk.lookup_setNode, Disk.Stays
-/
import Spqr.Lib.FileSystem

namespace FileSystem

namespace Disk

def IsDirectory (disk : Disk) (inode : ℕ) : Prop :=
  ∃ parent entries, disk.nodes inode = some (.directory parent entries)

/-- A directory in a directory, with a file behind each of its entries. -/
structure Sound (disk : Disk) (dir : ℕ) : Prop where
  here : ∃ parent entries,
    disk.nodes dir = some (.directory parent entries) ∧ disk.IsDirectory parent
  behind : ∀ name inode, disk.lookup dir name = some inode → disk.nodes inode ≠ none

/-- There is no link and no device under this name. -/
def Ordinary (disk : Disk) (dir : ℕ) (name : Name) : Prop :=
  ∀ inode, disk.lookup dir name = some inode →
    disk.IsDirectory inode ∨ ∃ contents, disk.nodes inode = some (.regular contents)

variable {disk after : Disk} {links dir inode : ℕ} {name other : Name}
  {contents : List UInt8}

theorem Sound.isDirectory (sound : disk.Sound dir) : disk.IsDirectory dir := by
  obtain ⟨parent, entries, here, _⟩ := sound.here
  exact ⟨parent, entries, here⟩

theorem IsDirectory.ne_regular (directory : disk.IsDirectory dir)
    (regular : disk.nodes inode = some (.regular contents)) : inode ≠ dir := by
  rintro rfl
  obtain ⟨parent, entries, here⟩ := directory
  simp [here] at regular

theorem IsDirectory.ne_next (directory : disk.IsDirectory dir) : disk.next ≠ dir := by
  rintro rfl
  obtain ⟨parent, entries, here⟩ := directory
  simp [disk.unused _ le_rfl] at here

theorem isRegular_iff : disk.isRegular dir name = true ↔
    ∃ inode contents, disk.lookup dir name = some inode ∧
      disk.nodes inode = some (.regular contents) := by
  unfold isRegular
  constructor
  · intro listed
    split at listed
    · rename_i contents found
      obtain ⟨inode, entry, node⟩ := Option.bind_eq_some_iff.mp found
      exact ⟨inode, contents, entry, node⟩
    · exact absurd listed Bool.false_ne_true
  · rintro ⟨inode, contents, entry, node⟩
    simp [entry, node]

/-! ### Paths of one name -/

theorem components_name (noSlash : slash ∉ name) : components name = [name] :=
  List.splitOn_eq_singleton noSlash

theorem place_name (directory : disk.IsDirectory dir) :
    disk.place links dir [name] = some (dir, name) := by
  obtain ⟨parent, entries, here⟩ := directory
  have arrived : disk.walk dir [name] = .arrived dir name := by simp [walk, here]
  cases links <;> simp [place, arrived]

/-- An ordinary name leads to its own entry. -/
theorem resolve_name (sound : disk.Sound dir) (ordinary : disk.Ordinary dir name) :
    (disk.lookup dir name = none ∧ name ∉ dots ∧
        disk.resolve links dir [name] = .missing dir name) ∨
      (∃ inode, disk.IsDirectory inode ∧
        disk.resolve links dir [name] = .found inode) ∨
      ∃ inode contents, disk.lookup dir name = some inode ∧
        disk.nodes inode = some (.regular contents) ∧
          disk.resolve links dir [name] = .found inode := by
  have led : disk.place links dir [name] = some (dir, name) := place_name sound.isDirectory
  by_cases dotted : name ∈ dots
  · refine .inr (.inl ?_)
    obtain ⟨parent, entries, here, above⟩ := sound.here
    have found : ∃ inode, disk.child dir name = some inode ∧ disk.IsDirectory inode := by
      rw [child, here]
      dsimp only
      split_ifs with itself up
      · exact ⟨dir, rfl, parent, entries, here⟩
      · exact ⟨parent, rfl, above⟩
      · simp only [dots, List.mem_cons, List.not_mem_nil, or_false] at dotted
        tauto
    obtain ⟨inode, found, directory⟩ := found
    refine ⟨inode, directory, ?_⟩
    unfold resolve
    simp only [led, if_pos dotted, found]
  · cases entry : disk.lookup dir name with
    | none =>
        refine .inl ⟨rfl, dotted, ?_⟩
        unfold resolve
        simp only [led, if_neg dotted, entry]
    | some inode =>
        rcases ordinary inode entry with directory | ⟨contents, regular⟩
        · refine .inr (.inl ⟨inode, directory, ?_⟩)
          obtain ⟨parent, entries, node⟩ := directory
          unfold resolve
          simp only [led, if_neg dotted, entry, node]
        · refine .inr (.inr ⟨inode, contents, rfl, regular, ?_⟩)
          unfold resolve
          simp only [led, if_neg dotted, entry, regular]

/-- Opening an ordinary name for writing creates its entry or truncates its file. -/
theorem openWrite_name (sound : disk.Sound dir) (ordinary : disk.Ordinary dir name)
    {target : Target} (opens : disk.openWrite links dir [name] = some target) :
    (target = .create dir name ∧ disk.lookup dir name = none ∧ name ∉ dots) ∨
      ∃ inode contents, target = .truncate inode ∧
        disk.lookup dir name = some inode ∧
          disk.nodes inode = some (.regular contents) := by
  rcases @resolve_name disk links dir name sound ordinary with
    ⟨missing, plain, resolved⟩ | ⟨inode, ⟨parent, entries, node⟩, resolved⟩ |
    ⟨inode, contents, entry, regular, resolved⟩
  · simp only [openWrite, resolved] at opens
    split_ifs at opens
    exact .inl ⟨(Option.some.inj opens).symm, missing, plain⟩
  · simp [openWrite, resolved, node] at opens
  · simp only [openWrite, resolved, regular] at opens
    exact .inr ⟨inode, contents, (Option.some.inj opens).symm, entry, regular⟩

/-- Opening it for reading finds its file. -/
theorem openRead_name (sound : disk.Sound dir) (ordinary : disk.Ordinary dir name)
    (opens : disk.openRead links dir [name] = some inode) :
    disk.lookup dir name = some inode ∧
      ∃ contents, disk.nodes inode = some (.regular contents) := by
  rcases @resolve_name disk links dir name sound ordinary with
    ⟨missing, plain, resolved⟩ | ⟨found, ⟨parent, entries, node⟩, resolved⟩ |
    ⟨found, contents, entry, regular, resolved⟩
  · simp [openRead, resolved] at opens
  · simp [openRead, resolved, node] at opens
  · simp only [openRead, resolved, regular] at opens
    obtain rfl := Option.some.inj opens
    exact ⟨entry, contents, regular⟩

/-! ### Changes of one file -/

theorem nodes_setNode {i : ℕ} {node : Node} :
    (disk.setNode inode node).nodes i = if i = inode then some node else disk.nodes i :=
  Function.update_apply ..

/-- The entries stay when a file changes. -/
theorem lookup_setNode (directory : disk.IsDirectory dir) (elsewhere : inode ≠ dir)
    {node : Node} : (disk.setNode inode node).lookup dir other = disk.lookup dir other := by
  obtain ⟨parent, entries, here⟩ := directory
  rw [lookup, lookup, nodes_setNode, if_neg elsewhere.symm]

/-- Directories stay directories when another file changes, or none was there. -/
theorem directory_setNode (noDirectory : ¬ disk.IsDirectory inode) {node : Node}
    {i parent : ℕ} {entries : Name → Option ℕ}
    (directory : disk.nodes i = some (.directory parent entries)) :
    (disk.setNode inode node).nodes i = some (.directory parent entries) := by
  rw [nodes_setNode, if_neg, directory]
  rintro rfl
  exact noDirectory ⟨parent, entries, directory⟩

theorem not_directory_of_regular (regular : disk.nodes inode = some (.regular contents)) :
    ¬ disk.IsDirectory inode := by
  rintro ⟨parent, entries, directory⟩
  simp [directory] at regular

theorem not_directory_next : ¬ disk.IsDirectory disk.next := by
  rintro ⟨parent, entries, directory⟩
  simp [disk.unused _ le_rfl] at directory

/-- What a change must keep. -/
theorem Sound.of_changes (sound : disk.Sound dir)
    (directories : ∀ i parent entries, disk.nodes i = some (.directory parent entries) →
      ∃ entries', after.nodes i = some (.directory parent entries'))
    (behind : ∀ name inode, after.lookup dir name = some inode →
      after.nodes inode ≠ none) : after.Sound dir := by
  refine ⟨?_, behind⟩
  obtain ⟨parent, entries, here, parent', entries', above⟩ := sound.here
  obtain ⟨entries₁, here'⟩ := directories _ _ _ here
  obtain ⟨entries₂, above'⟩ := directories _ _ _ above
  exact ⟨parent, entries₁, here', parent', entries₂, above'⟩

theorem Sound.setNode (sound : disk.Sound dir)
    (regular : disk.nodes inode = some (.regular contents)) (contents' : List UInt8) :
    (disk.setNode inode (.regular contents')).Sound dir := by
  refine sound.of_changes (fun i parent entries there =>
    ⟨entries, directory_setNode (not_directory_of_regular regular) there⟩) ?_
  intro name i entry
  rw [lookup_setNode sound.isDirectory (sound.isDirectory.ne_regular regular)] at entry
  rw [nodes_setNode]
  split_ifs
  · simp
  · exact sound.behind name i entry

/-- Writing at the end appends. -/
theorem write_end (regular : disk.nodes inode = some (.regular contents))
    (bytes : List UInt8) :
    disk.write inode contents.length bytes =
      disk.setNode inode (.regular (contents ++ bytes)) := by
  have appended : overwrite contents contents.length bytes = contents ++ bytes := by
    simp [overwrite, List.drop_eq_nil_of_le]
  rw [write, regular]
  simp only [appended]

/-! ### Changes of one entry -/

theorem nodes_setEntry {i : ℕ} {entry : Option ℕ} (elsewhere : i ≠ dir) :
    (disk.setEntry dir name entry).nodes i = disk.nodes i := by
  unfold setEntry
  split
  · split_ifs
    · rw [nodes_setNode, if_neg elsewhere]
    · rfl
  · rfl

theorem lookup_setEntry_name (directory : disk.IsDirectory dir) (plain : Plain name)
    {entry : Option ℕ} :
    (disk.setEntry dir name entry).lookup dir other =
      if other = name then entry else disk.lookup dir other := by
  obtain ⟨parent, entries, here⟩ := directory
  by_cases same : other = name
  · subst same
    simp [setEntry, lookup, here, plain, nodes_setNode]
  · simp [setEntry, lookup, here, plain, nodes_setNode, same, Function.update_of_ne]

theorem directory_setEntry {i parent : ℕ} {entries : Name → Option ℕ} {entry : Option ℕ}
    (directory : disk.nodes i = some (.directory parent entries)) :
    ∃ entries', (disk.setEntry dir name entry).nodes i =
      some (.directory parent entries') := by
  by_cases same : i = dir
  · subst same
    unfold setEntry
    rw [directory]
    dsimp only
    split_ifs
    · exact ⟨_, by rw [nodes_setNode, if_pos rfl]⟩
    · exact ⟨entries, directory⟩
  · exact ⟨entries, by rw [nodes_setEntry same, directory]⟩

/-- Regular files stay as they are. -/
theorem regular_setEntry {i : ℕ} {entry : Option ℕ} :
    (disk.setEntry dir name entry).nodes i = some (.regular contents) ↔
      disk.nodes i = some (.regular contents) := by
  by_cases same : i = dir
  · subst same
    unfold setEntry
    split
    · rename_i parent entries here
      split_ifs
      · rw [nodes_setNode, if_pos rfl, here]
        simp
      · rfl
    · rfl
  · rw [nodes_setEntry same]

/-! A new name. -/

section Create

variable (sound : disk.Sound dir) (plain : Plain name)

include sound plain

theorem lookup_create :
    (disk.applyOpen (.create dir name)).lookup dir other =
      if other = name then some disk.next else disk.lookup dir other := by
  have directory : (disk.setNode disk.next (.regular [])).IsDirectory dir := by
    obtain ⟨parent, entries, here⟩ := sound.isDirectory
    exact ⟨parent, entries, directory_setNode not_directory_next here⟩
  rw [applyOpen, lookup_setEntry_name directory plain,
    lookup_setNode sound.isDirectory sound.isDirectory.ne_next]

omit sound plain in
theorem nodes_create {i : ℕ} (elsewhere : i ≠ dir) :
    (disk.applyOpen (.create dir name)).nodes i =
      if i = disk.next then some (.regular []) else disk.nodes i := by
  rw [applyOpen, nodes_setEntry elsewhere, nodes_setNode]

omit sound plain in
theorem directory_create {i parent : ℕ} {entries : Name → Option ℕ}
    (directory : disk.nodes i = some (.directory parent entries)) :
    ∃ entries', (disk.applyOpen (.create dir name)).nodes i =
      some (.directory parent entries') :=
  directory_setEntry (directory_setNode not_directory_next directory)

theorem Sound.create : (disk.applyOpen (.create dir name)).Sound dir := by
  refine sound.of_changes (fun _ _ _ => directory_create) ?_
  intro other i entry
  rw [lookup_create sound plain] at entry
  by_cases same : i = dir
  · subst same
    obtain ⟨parent, entries, here⟩ := sound.isDirectory
    obtain ⟨entries', here'⟩ : ∃ entries', (disk.applyOpen (.create i name)).nodes i =
        some (.directory parent entries') := directory_create here
    simp [here']
  · rw [nodes_create same]
    by_cases new : i = disk.next
    · simp [new]
    · rw [if_neg new]
      split_ifs at entry
      · exact absurd (Option.some.inj entry).symm new
      · exact sound.behind other i entry

end Create

/-! A name that goes. -/

section Remove

variable (sound : disk.Sound dir) (entry : disk.lookup dir name = some inode)
  (regular : disk.nodes inode = some (.regular contents))

include sound entry regular

theorem remove_name : disk.remove links dir [name] = disk.setEntry dir name none := by
  have node : (disk.lookup dir name).bind disk.nodes = some (.regular contents) := by
    rw [entry]
    exact regular
  rw [remove, place_name sound.isDirectory]
  simp only [node]

theorem lookup_remove :
    (disk.remove links dir [name]).lookup dir other =
      if other = name then none else disk.lookup dir other := by
  rw [remove_name sound entry regular,
    lookup_setEntry_name sound.isDirectory (plain_of_lookup entry)]

theorem nodes_remove {i : ℕ} (elsewhere : i ≠ dir) :
    (disk.remove links dir [name]).nodes i = disk.nodes i := by
  rw [remove_name sound entry regular, nodes_setEntry elsewhere]

theorem Sound.remove : (disk.remove links dir [name]).Sound dir := by
  rw [remove_name sound entry regular]
  refine sound.of_changes (fun _ _ _ => directory_setEntry) ?_
  intro other i found
  rw [lookup_setEntry_name sound.isDirectory (plain_of_lookup entry)] at found
  split_ifs at found
  by_cases same : i = dir
  · subst same
    obtain ⟨parent, entries, here⟩ := sound.isDirectory
    obtain ⟨entries', here'⟩ : ∃ entries', (disk.setEntry i name none).nodes i =
        some (.directory parent entries') := directory_setEntry here
    simp [here']
  · rw [nodes_setEntry same]
    exact sound.behind other i found

end Remove

/-! ### Names that stay -/

/-- The ordinary names are ordinary still, and those of a kind lead to the regular
files that they led to. -/
structure Stays (before after : Disk) (dir : ℕ) (kind : Name → Prop) : Prop where
  sound : after.Sound dir
  ordinary : ∀ name, before.Ordinary dir name → after.Ordinary dir name
  files : ∀ name inode contents, kind name → before.lookup dir name = some inode →
    before.nodes inode = some (.regular contents) →
      after.lookup dir name = some inode ∧
        ∃ contents', after.nodes inode = some (.regular contents')

namespace Stays

variable {kind : Name → Prop}

theorem isRegular (stays : Stays disk after dir kind) (chosen : kind name)
    (listed : disk.isRegular dir name = true) : after.isRegular dir name = true := by
  obtain ⟨inode, contents, entry, node⟩ := isRegular_iff.mp listed
  obtain ⟨entry', contents', node'⟩ := stays.files name inode contents chosen entry node
  exact isRegular_iff.mpr ⟨inode, contents', entry', node'⟩

theorem refl (sound : disk.Sound dir) : Stays disk disk dir kind :=
  ⟨sound, fun _ => id, fun _ _ contents _ entry node => ⟨entry, contents, node⟩⟩

theorem setNode (sound : disk.Sound dir)
    (regular : disk.nodes inode = some (.regular contents)) (contents' : List UInt8) :
    Stays disk (disk.setNode inode (.regular contents')) dir fun _ => True := by
  have entries : ∀ name, (disk.setNode inode (.regular contents')).lookup dir name =
      disk.lookup dir name := fun name =>
    lookup_setNode sound.isDirectory (sound.isDirectory.ne_regular regular)
  refine ⟨sound.setNode regular contents', fun name ordinary i entry => ?_,
    fun name i old _ entry node => ⟨(entries name).trans entry, ?_⟩⟩
  · rw [entries] at entry
    rcases ordinary i entry with ⟨parent, listing, directory⟩ | ⟨old, node⟩
    · exact .inl ⟨parent, listing,
        directory_setNode (not_directory_of_regular regular) directory⟩
    · rw [nodes_setNode]
      split_ifs
      · exact .inr ⟨_, rfl⟩
      · exact .inr ⟨old, node⟩
  · rw [nodes_setNode]
    split_ifs
    · exact ⟨_, rfl⟩
    · exact ⟨old, node⟩

theorem create (sound : disk.Sound dir) (plain : Plain name)
    (missing : disk.lookup dir name = none) :
    Stays disk (disk.applyOpen (.create dir name)) dir fun _ => True := by
  refine ⟨sound.create plain, fun other ordinary i entry => ?_,
    fun other i old _ entry node => ?_⟩
  · rw [lookup_create sound plain] at entry
    split_ifs at entry with new
    · obtain rfl := Option.some.inj entry
      exact .inr ⟨[], by rw [nodes_create sound.isDirectory.ne_next, if_pos rfl]⟩
    · rcases ordinary i entry with ⟨parent, listing, directory⟩ | ⟨old, node⟩
      · exact .inl ⟨parent, directory_create directory⟩
      · rw [nodes_create (sound.isDirectory.ne_regular node)]
        split_ifs
        · exact .inr ⟨_, rfl⟩
        · exact .inr ⟨old, node⟩
  · have different : other ≠ name := by
      rintro rfl
      simp [missing] at entry
    rw [lookup_create sound plain, if_neg different,
      nodes_create (sound.isDirectory.ne_regular node)]
    split_ifs
    · exact ⟨entry, _, rfl⟩
    · exact ⟨entry, old, node⟩

theorem remove (sound : disk.Sound dir) (entry : disk.lookup dir name = some inode)
    (regular : disk.nodes inode = some (.regular contents)) :
    Stays disk (disk.remove links dir [name]) dir fun other => other ≠ name := by
  refine ⟨sound.remove entry regular, fun other ordinary i found => ?_,
    fun other i old different found node => ?_⟩
  · rw [lookup_remove sound entry regular] at found
    split_ifs at found
    rcases ordinary i found with ⟨parent, listing, directory⟩ | ⟨old, node⟩
    · rw [remove_name sound entry regular]
      exact .inl ⟨parent, directory_setEntry directory⟩
    · rw [nodes_remove sound entry regular (sound.isDirectory.ne_regular node)]
      exact .inr ⟨old, node⟩
  · rw [lookup_remove sound entry regular, if_neg different,
      nodes_remove sound entry regular (sound.isDirectory.ne_regular node)]
    exact ⟨found, old, node⟩

end Stays

end Disk

end FileSystem
