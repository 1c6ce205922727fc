/-
Module: Spqr.Downloads
Purpose: When a `GET` delivers a file that was complete when it was opened.
Trusted boundary: none
Main exports:
  Delivers, Undisturbed, Downloads, Downloads.replace, Downloads.step,
  downloads_complete
-/
import Spqr.Integrity
import Spqr.Uploads

namespace Spqr

open FileSystem Labelled Transfer

namespace Store

/-! ### The property, and when it holds -/

/-- Nobody is writing this file. -/
def Unstored (s : Store) (inode : ℕ) : Prop :=
  ∀ child name upload, s.children child ≠ .storing name inode upload

/-- No `main_sender` is going to read more of this file. -/
def Unread (s : Store) (inode : ℕ) : Prop :=
  ∀ child whole t, s.children child = .fetching inode whole t →
    t.sender.phase ≠ .waitAck

/-- Every `GET` whose `main_sender` has succeeded has delivered a file that was
complete when it was opened. -/
def Delivers (s : Store) (stream : Stream) : Prop :=
  ∀ child inode whole t, s.children child = .fetching inode whole t →
    t.sender.phase = .returned EXIT_SUCCESS →
      ∃ file, whole = some file ∧ t.receiver.destination stream = some file

/-- A `PUT` is answered `NOT_EXIST` only for a name that `readdir` will tell once the
file is there; `fopen` truncates no file that is being written or read; and a `GET`
opens a file that nobody is writing, that no failed `fwrite` or `fclose` has left
incomplete, and whose number of packets fits. -/
def Undisturbed (links dir : ℕ) (s : Store) : StoreEvent → Prop
  | .putCheck _ request =>
      request = feedback.ABORT ∨ s.disk.isRegular dir request = true ∨
        slash ∉ request ∧ s.disk.Ordinary dir request
  | .putOpen child permits =>
      ∀ name inode, s.children child = .answered name →
        s.targetOf links dir name permits = some (.truncate inode) →
          s.Unstored inode ∧ s.Unread inode
  | .getOpen child permits _ =>
      ∀ name inode, s.children child = .found name →
        s.sourceOf links dir name permits = some inode →
          s.Unstored inode ∧ s.cut inode = false ∧
            packetCount (s.disk.contents inode) < 2 ^ 31
  | _ => True

/-! ### The invariant -/

/-- No other name leads to the regular file under this one. -/
def Sole (disk : Disk) (dir : ℕ) (name : Text) : Prop :=
  ∀ inode contents other, disk.lookup dir name = some inode →
    disk.nodes inode = some (.regular contents) →
      disk.lookup dir other = some inode → other = name

structure Downloads (cfg : Settings) (stream : Stream) (dir : ℕ) (s : Store) : Prop where
  sound : s.disk.Sound dir
  answered : ∀ {c name}, s.children c = .answered name →
    slash ∉ name ∧ s.disk.Ordinary dir name ∧ Sole s.disk dir name
  storing : ∀ {c name inode upload}, s.children c = .storing name inode upload →
    slash ∉ name ∧ s.disk.lookup dir name = some inode ∧
      s.disk.nodes inode = some (.regular upload.written) ∧ Sole s.disk dir name
  alone : ∀ {c d name name' inode upload upload'},
    s.children c = .storing name inode upload →
      s.children d = .storing name' inode upload' → c = d
  found : ∀ {c name}, s.children c = .found name →
    slash ∉ name ∧ s.disk.Ordinary dir name
  /-- What is listed and not being written is complete. -/
  settled : ∀ {name inode contents}, s.disk.lookup dir name = some inode →
    s.disk.nodes inode = some (.regular contents) → s.Unstored inode →
      s.cut inode = false → s.whole inode = some contents
  fetching : ∀ {c inode whole t}, s.children c = .fetching inode whole t →
    ∃ file, whole = some file ∧ Genuine cfg file stream t ∧
      (t.sender.phase = .waitAck →
        s.disk.nodes inode = some (.regular file) ∧ s.Unstored inode)

namespace Downloads

variable {cfg : Settings} {stream : Stream} {links dir child inode : ℕ} {s s' : Store}
  {event : StoreEvent} {name : Text} {upload : Upload}

theorem delivers (downloads : Downloads cfg stream dir s) (complete : Complete stream.fwrite) :
    s.Delivers stream := by
  intro c inode whole t here success
  obtain ⟨file, whole, genuine, _⟩ := downloads.fetching here
  exact ⟨file, whole, (genuine.delivered complete success).2⟩

theorem initial {disk : Disk} (sound : disk.Sound dir) :
    Downloads cfg stream dir (Store.initial disk) where
  sound := sound
  answered := by simp [Store.initial]
  storing := by simp [Store.initial]
  alone := by simp [Store.initial]
  found := by simp [Store.initial]
  settled := by
    intro name inode contents entry node unstored uncut
    have node' : disk.nodes inode = some (.regular contents) := node
    simp [Store.initial, node']
  fetching := by simp [Store.initial]

/-- The file of an upload is not being read. -/
theorem unread (downloads : Downloads cfg stream dir s)
    (here : s.children child = .storing name inode upload) : s.Unread inode := by
  intro d whole t there waiting
  obtain ⟨file, _, _, still⟩ := downloads.fetching there
  exact (still waiting).2 child name upload here

/-! ### Steps that leave the files alone -/

/-- A child goes on outside `main_receiver`. -/
theorem goto {held : List (ℕ × Text)} (downloads : Downloads cfg stream dir s)
    (before : ∀ name inode upload, s.children child ≠ .storing name inode upload)
    {pc : StorePc} (noStore : ∀ name inode upload, pc ≠ .storing name inode upload)
    (answered : ∀ name, pc = .answered name →
      slash ∉ name ∧ s.disk.Ordinary dir name ∧ Sole s.disk dir name)
    (found : ∀ name, pc = .found name → slash ∉ name ∧ s.disk.Ordinary dir name)
    (fetching : ∀ inode whole t, pc = .fetching inode whole t →
      ∃ file, whole = some file ∧ Genuine cfg file stream t ∧
        (t.sender.phase = .waitAck →
          s.disk.nodes inode = some (.regular file) ∧ s.Unstored inode)) :
    Downloads cfg stream dir { s.goto child pc with held := held } := by
  have storers : ∀ {c name inode upload}, (s.goto child pc).children c =
      .storing name inode upload → s.children c = .storing name inode upload := by
    intro c name inode upload here
    rw [goto_children] at here
    split_ifs at here
    · exact absurd here (noStore name inode upload)
    · exact here
  have unstored : ∀ {inode}, (s.goto child pc).Unstored inode ↔ s.Unstored inode := by
    intro inode
    refine ⟨fun none c name upload here => none c name upload ?_,
      fun none c name upload here => none c name upload (storers here)⟩
    rw [goto_children, if_neg]
    · exact here
    · rintro rfl
      exact before name inode upload here
  refine ⟨downloads.sound, fun {c} name here => ?_,
    fun here => downloads.storing (storers here),
    fun here there => downloads.alone (storers here) (storers there),
    fun {c} name here => ?_,
    fun entry node none uncut => downloads.settled entry node (unstored.mp none) uncut,
    fun {c} inode whole t here => ?_⟩
  · rw [goto_children] at here
    split_ifs at here
    · exact answered name here
    · exact downloads.answered here
  · rw [goto_children] at here
    split_ifs at here
    · exact found name here
    · exact downloads.found here
  · rw [goto_children] at here
    split_ifs at here
    · obtain ⟨file, full, genuine, still⟩ := fetching inode whole t here
      exact ⟨file, full, genuine, fun waiting =>
        ⟨(still waiting).1, unstored.mpr (still waiting).2⟩⟩
    · obtain ⟨file, full, genuine, still⟩ := downloads.fetching here
      exact ⟨file, full, genuine, fun waiting =>
        ⟨(still waiting).1, unstored.mpr (still waiting).2⟩⟩

/-- A command is over, or has not begun. -/
theorem idle {held : List (ℕ × Text)} (downloads : Downloads cfg stream dir s)
    (before : ∀ name inode upload, s.children child ≠ .storing name inode upload) :
    Downloads cfg stream dir { s.goto child .idle with held := held } :=
  downloads.goto before (by simp) (by simp) (by simp) (by simp)

/-! ### Steps of an upload -/

/-- What an upload may do to the files: one file changes, and the one entry that leads
to it. -/
structure Touches (before after : Disk) (dir : ℕ) (name : Text) (inode : ℕ) : Prop where
  sound : after.Sound dir
  ordinary : ∀ other, before.Ordinary dir other → after.Ordinary dir other
  was : before.lookup dir name = none ∨ before.lookup dir name = some inode
  now : after.lookup dir name = none ∨ after.lookup dir name = some inode
  only : ∀ other, before.lookup dir other = some inode → other = name
  entries : ∀ other, other ≠ name → after.lookup dir other = before.lookup dir other
  nodes : ∀ i contents, i ≠ inode →
    (after.nodes i = some (.regular contents) ↔ before.nodes i = some (.regular contents))

namespace Touches

variable {before after : Disk} (touches : Touches before after dir name inode)

include touches

/-- An entry that leads elsewhere was there. -/
theorem lookup {other : Text} {i : ℕ} (elsewhere : i ≠ inode)
    (entry : after.lookup dir other = some i) :
    other ≠ name ∧ before.lookup dir other = some i := by
  have different : other ≠ name := by
    rintro rfl
    rcases touches.now with gone | same
    · simp [gone] at entry
    · exact elsewhere (Option.some.inj (entry.symm.trans same))
  exact ⟨different, (touches.entries other different).symm.trans entry⟩

theorem ne_name {other : Text} {i : ℕ} (elsewhere : i ≠ inode)
    (entry : before.lookup dir other = some i) : other ≠ name := by
  rintro rfl
  rcases touches.was with missing | same
  · simp [missing] at entry
  · exact elsewhere (Option.some.inj (entry.symm.trans same))

theorem eq_name {other : Text} (entry : after.lookup dir other = some inode) :
    other = name := by
  by_contra different
  exact different (touches.only other ((touches.entries other different).symm.trans entry))

/-- Names that were the only ones still are. -/
theorem sole {other : Text} (sole : Sole before dir other) : Sole after dir other := by
  intro i contents third entry node entry'
  by_cases same : i = inode
  · subst same
    rw [touches.eq_name entry, touches.eq_name entry']
  · obtain ⟨_, was⟩ := touches.lookup same entry
    obtain ⟨_, was'⟩ := touches.lookup same entry'
    exact sole i contents third was ((touches.nodes i contents same).mp node) was'

end Touches

/-- A file that one name leads to is written or truncated. -/
theorem Touches.setNode {disk : Disk} {contents : List UInt8} (sound : disk.Sound dir)
    (entry : disk.lookup dir name = some inode)
    (node : disk.nodes inode = some (.regular contents)) (sole : Sole disk dir name)
    (contents' : List UInt8) :
    Touches disk (disk.setNode inode (.regular contents')) dir name inode where
  sound := sound.setNode node contents'
  ordinary := (Disk.Stays.setNode sound node contents').ordinary
  was := .inr entry
  now := .inr ((Disk.lookup_setNode sound.isDirectory
    (sound.isDirectory.ne_regular node)).trans entry)
  only := fun other => sole inode contents other entry node
  entries := fun other _ =>
    Disk.lookup_setNode sound.isDirectory (sound.isDirectory.ne_regular node)
  nodes := fun i _ elsewhere => by rw [Disk.nodes_setNode, if_neg elsewhere]

/-- It is created. -/
theorem Touches.create {disk : Disk} (sound : disk.Sound dir) (plain : Disk.Plain name)
    (missing : disk.lookup dir name = none) :
    Touches disk (disk.applyOpen (.create dir name)) dir name disk.next where
  sound := sound.create plain
  ordinary := (Disk.Stays.create sound plain missing).ordinary
  was := .inl missing
  now := .inr ((Disk.lookup_create sound plain).trans (if_pos rfl))
  only := fun other entry =>
    absurd (disk.unused _ le_rfl) (sound.behind other _ entry)
  entries := fun other different =>
    (Disk.lookup_create sound plain).trans (if_neg different)
  nodes := fun i contents elsewhere => by
    rw [Disk.applyOpen, Disk.regular_setEntry, Disk.nodes_setNode, if_neg elsewhere]

/-- It is removed. -/
theorem Touches.remove {disk : Disk} {contents : List UInt8} (sound : disk.Sound dir)
    (entry : disk.lookup dir name = some inode)
    (node : disk.nodes inode = some (.regular contents)) (sole : Sole disk dir name) :
    Touches disk (disk.remove links dir [name]) dir name inode where
  sound := sound.remove entry node
  ordinary := (Disk.Stays.remove sound entry node).ordinary
  was := .inr entry
  now := .inl ((Disk.lookup_remove sound entry node).trans (if_pos rfl))
  only := fun other => sole inode contents other entry node
  entries := fun other different =>
    (Disk.lookup_remove sound entry node).trans (if_neg different)
  nodes := fun i _ _ => by
    rw [Disk.remove_name sound entry node, Disk.regular_setEntry]

/-- It stays as it is. -/
theorem Touches.refl {disk : Disk} {contents : List UInt8} (sound : disk.Sound dir)
    (entry : disk.lookup dir name = some inode)
    (node : disk.nodes inode = some (.regular contents)) (sole : Sole disk dir name) :
    Touches disk disk dir name inode where
  sound := sound
  ordinary := fun _ => id
  was := .inr entry
  now := .inr entry
  only := fun other => sole inode contents other entry node
  entries := fun _ _ => rfl
  nodes := fun _ _ _ => Iff.rfl

/-- Who is writing which file, once the child has gone on. -/
theorem storing_goto {pc : StorePc}
    (own : ∀ name' i upload, pc = .storing name' i upload → i = inode)
    (others : ∀ c name upload, c ≠ child → s.children c ≠ .storing name inode upload)
    {c i : ℕ} {name' : Text} {upload : Upload}
    (here : (s.goto child pc).children c = .storing name' i upload) :
    (c = child ∧ i = inode) ∨
      c ≠ child ∧ i ≠ inode ∧ s.children c = .storing name' i upload := by
  rw [goto_children] at here
  split_ifs at here with same
  · exact .inl ⟨same, own name' i upload here⟩
  · refine .inr ⟨same, ?_, here⟩
    rintro rfl
    exact others c name' upload same here

/-- Another file is not written then if it was not before. -/
theorem unstored_goto {pc : StorePc}
    (own : ∀ name' i upload, pc = .storing name' i upload → i = inode)
    (others : ∀ c name upload, c ≠ child → s.children c ≠ .storing name inode upload)
    {i : ℕ} (elsewhere : i ≠ inode) (unstored : s.Unstored i) :
    (s.goto child pc).Unstored i := by
  intro c name' upload here
  rcases storing_goto own others here with ⟨_, same⟩ | ⟨_, _, there⟩
  · exact elsewhere same
  · exact unstored c name' upload there

/-- And a child that neither rests nor writes was there before. -/
theorem children_of_goto {pc pc' : StorePc} {c : ℕ}
    (stores : pc = .idle ∨ ∃ upload, pc = .storing name inode upload) (busy : pc' ≠ .idle)
    (noStore : ∀ name i upload, pc' ≠ .storing name i upload)
    (here : (s.goto child pc).children c = pc') : s.children c = pc' := by
  rw [goto_children] at here
  split_ifs at here
  · rcases stores with idle | ⟨upload, storing⟩
    · exact absurd (here.symm.trans idle) busy
    · exact absurd (here.symm.trans storing) (noStore name inode upload)
  · exact here

/-- One child writes, creates, truncates or removes its file. -/
theorem replace {disk : Disk} {held : List (ℕ × Text)} {whole : ℕ → Option (List UInt8)}
    {cut : ℕ → Bool} {pc : StorePc} (downloads : Downloads cfg stream dir s)
    (touches : Touches s.disk disk dir name inode)
    (others : ∀ c name upload, c ≠ child → s.children c ≠ .storing name inode upload)
    (unread : s.Unread inode)
    (before : ∀ name' i upload, s.children child = .storing name' i upload → i = inode)
    (ghosts : ∀ i, i ≠ inode → whole i = s.whole i ∧ cut i = s.cut i)
    (next : (pc = .idle ∧ ∀ contents, disk.lookup dir name = some inode →
        disk.nodes inode = some (.regular contents) → cut inode = false →
          whole inode = some contents) ∨
      ∃ upload, pc = .storing name inode upload ∧ slash ∉ name ∧
        disk.lookup dir name = some inode ∧ disk.nodes inode = some (.regular upload.written) ∧
          Sole s.disk dir name) :
    Downloads cfg stream dir
      { s.goto child pc with disk := disk, held := held, whole := whole, cut := cut } := by
  have stores : pc = .idle ∨ ∃ upload, pc = .storing name inode upload :=
    next.imp And.left fun ⟨upload, storing, _⟩ => ⟨upload, storing⟩
  have own : ∀ name' i upload, pc = .storing name' i upload → i = inode := by
    rintro name' i upload rfl
    rcases stores with idle | ⟨upload', storing⟩
    · cases idle
    · exact (StorePc.storing.inj storing).2.1
  constructor
  case sound => exact touches.sound
  case answered =>
    intro c other here
    obtain ⟨noSlash, ordinary, sole⟩ :=
      downloads.answered (children_of_goto stores (by simp) (by simp) here)
    exact ⟨noSlash, touches.ordinary other ordinary, touches.sole sole⟩
  case storing =>
    intro c other i upload here
    rcases storing_goto own others here with ⟨rfl, rfl⟩ | ⟨_, elsewhere, there⟩
    · rw [goto_children, if_pos rfl] at here
      rcases next with ⟨idle, _⟩ | ⟨upload', storing, noSlash, entry, node, sole⟩
      · simp [here] at idle
      · obtain ⟨rfl, _, rfl⟩ := StorePc.storing.inj (here.symm.trans storing)
        exact ⟨noSlash, entry, node, touches.sole sole⟩
    · obtain ⟨noSlash, entry, node, sole⟩ := downloads.storing there
      refine ⟨noSlash, ?_, (touches.nodes i upload.written elsewhere).mpr node,
        touches.sole sole⟩
      exact (touches.entries other (touches.ne_name elsewhere entry)).trans entry
  case alone =>
    intro c d one two i upload upload' here there
    rcases storing_goto own others here with ⟨first, at_⟩ | ⟨_, elsewhere, first⟩ <;>
      rcases storing_goto own others there with ⟨second, at_'⟩ | ⟨_, elsewhere', second⟩
    · rw [first, second]
    · exact absurd at_ elsewhere'
    · exact absurd at_' elsewhere
    · exact downloads.alone first second
  case found =>
    intro c other here
    obtain ⟨noSlash, ordinary⟩ :=
      downloads.found (children_of_goto stores (by simp) (by simp) here)
    exact ⟨noSlash, touches.ordinary other ordinary⟩
  case settled =>
    intro other i contents entry node none uncut
    by_cases same : i = inode
    · subst same
      rcases next with ⟨_, complete⟩ | ⟨upload, storing, _⟩
      · obtain rfl := touches.eq_name entry
        exact complete contents entry node uncut
      · exact absurd ((goto_children s child child pc).trans ((if_pos rfl).trans storing))
          (none child name upload)
    · obtain ⟨_, was⟩ := touches.lookup same entry
      have node' := (touches.nodes i contents same).mp node
      refine (ghosts i same).1.trans (downloads.settled was node'
        (fun c name' upload there => ?_) ((ghosts i same).2.symm.trans uncut))
      by_cases mine : c = child
      · rw [mine] at there
        exact same (before name' i upload there)
      · apply none c name' upload
        exact (goto_children s child c pc).trans ((if_neg mine).trans there)
  case fetching =>
    intro c i full t here
    have there := children_of_goto stores (by simp) (by simp) here
    obtain ⟨file, full, genuine, still⟩ := downloads.fetching there
    refine ⟨file, full, genuine, fun waiting => ?_⟩
    have elsewhere : i ≠ inode := by
      rintro rfl
      exact unread c _ t there waiting
    obtain ⟨node, none⟩ := still waiting
    exact ⟨(touches.nodes i file elsewhere).mpr node, unstored_goto own others elsewhere none⟩

/-- `fopen` creates a file, or truncates one that nobody writes or reads. -/
theorem opened {permits : Bool} {target : Disk.Target}
    (downloads : Downloads cfg stream dir s) (here : s.children child = .answered name)
    (found : s.targetOf links dir name permits = some target)
    (free : ∀ inode, target = .truncate inode → s.Unstored inode ∧ s.Unread inode) :
    Downloads cfg stream dir (s.opened child name target) := by
  obtain ⟨noSlash, ordinary, sole⟩ := downloads.answered here
  have before : ∀ {inode} name' i upload, s.children child = .storing name' i upload →
      i = inode := by
    intro inode name' i upload there
    simp [here] at there
  have ghosts : ∀ {inode} i, i ≠ inode →
      Function.update s.whole inode none i = s.whole i ∧
        Function.update s.cut inode false i = s.cut i := fun i elsewhere =>
    ⟨Function.update_of_ne elsewhere _ _, Function.update_of_ne elsewhere _ _⟩
  rcases Disk.openWrite_name downloads.sound ordinary (targetOf_name noSlash found) with
    ⟨rfl, missing, undotted⟩ | ⟨inode, contents, rfl, entry, node⟩
  · have plain : Disk.Plain name := ⟨noSlash, undotted⟩
    refine downloads.replace (.create downloads.sound plain missing)
      (fun c other upload _ there => ?_) (fun c whole t there waiting => ?_) before ghosts
      (.inr ⟨⟨[], []⟩, rfl, noSlash, ?_, ?_, sole⟩)
    · -- a new file is in nobody's hands
      obtain ⟨_, _, node, _⟩ := downloads.storing there
      simp [s.disk.unused _ le_rfl] at node
    · obtain ⟨file, _, _, still⟩ := downloads.fetching there
      have node := (still waiting).1
      simp [s.disk.unused _ le_rfl] at node
    · exact (Disk.lookup_create downloads.sound plain).trans (if_pos rfl)
    · exact (Disk.nodes_create downloads.sound.isDirectory.ne_next).trans (if_pos rfl)
  · obtain ⟨unstored, unread⟩ := free inode rfl
    refine downloads.replace (.setNode downloads.sound entry node sole [])
      (fun c other upload _ => unstored c other upload) unread before ghosts
      (.inr ⟨⟨[], []⟩, rfl, noSlash, ?_, ?_, sole⟩)
    · exact (Disk.lookup_setNode downloads.sound.isDirectory
        (downloads.sound.isDirectory.ne_regular node)).trans entry
    · exact Disk.nodes_setNode.trans (if_pos rfl)

section Storing

variable (downloads : Downloads cfg stream dir s)
  (here : s.children child = .storing name inode upload)

include downloads here

/-- Nobody else has its file. -/
theorem others (c : ℕ) (name' : Text) (upload' : Upload) (other : c ≠ child) :
    s.children c ≠ .storing name' inode upload' := fun there =>
  other (downloads.alone there here)

omit downloads in
theorem own (name' : Text) (i : ℕ) (upload' : Upload)
    (there : s.children child = .storing name' i upload') : i = inode := by
  rw [here] at there
  exact (StorePc.storing.inj there).2.1.symm

/-- Nothing is written out. -/
theorem given (bytes : List UInt8) :
    Downloads cfg stream dir (s.goto child (.storing name inode (upload.give bytes))) := by
  obtain ⟨noSlash, entry, node, sole⟩ := downloads.storing here
  have touches := Touches.refl downloads.sound entry node sole
  exact downloads.replace touches (downloads.others here) (downloads.unread here) (own here)
    (fun _ _ => ⟨rfl, rfl⟩) (.inr ⟨upload.give bytes, rfl, noSlash, entry, node, sole⟩)

theorem written (size : ℕ) :
    Downloads cfg stream dir (s.written child name inode upload size) := by
  obtain ⟨noSlash, entry, node, sole⟩ := downloads.storing here
  have writes := Disk.write_end node (upload.pending.take size)
  refine downloads.replace ?_ (downloads.others here) (downloads.unread here) (own here)
    (fun _ _ => ⟨rfl, rfl⟩) (.inr ⟨upload.flush size, rfl, noSlash, ?_, ?_, sole⟩)
  · rw [writes]
    exact .setNode downloads.sound entry node sole _
  · rw [writes, Disk.lookup_setNode downloads.sound.isDirectory
      (downloads.sound.isDirectory.ne_regular node)]
    exact entry
  · rw [writes, Disk.nodes_setNode, if_pos rfl]
    rfl

/-- What a failed upload leaves is under no name. -/
theorem failed : Downloads cfg stream dir (s.failed links dir child name) := by
  obtain ⟨noSlash, entry, node, sole⟩ := downloads.storing here
  have touches : Touches s.disk (s.disk.remove links dir (components name)) dir name
      inode := by
    rw [Disk.components_name noSlash]
    exact .remove downloads.sound entry node sole
  refine downloads.replace touches (downloads.others here) (downloads.unread here)
    (own here) (fun _ _ => ⟨rfl, rfl⟩) (.inl ⟨rfl, fun contents still _ _ => ?_⟩)
  rw [Disk.components_name noSlash, Disk.lookup_remove downloads.sound entry node,
    if_pos rfl] at still
  simp at still

/-- `fclose` has written out what was left. -/
theorem stored : Downloads cfg stream dir (s.stored child inode upload) := by
  obtain ⟨noSlash, entry, node, sole⟩ := downloads.storing here
  have touches := Touches.refl downloads.sound entry node sole
  refine downloads.replace touches (downloads.others here) (downloads.unread here)
    (own here) (fun i elsewhere => ⟨Function.update_of_ne elsewhere _ _, rfl⟩)
    (.inl ⟨rfl, fun contents _ still _ => ?_⟩)
  rw [Function.update_self, Node.regular.inj (Option.some.inj (node.symm.trans still))]

/-- What a child leaves that has failed to write is known to be incomplete. -/
theorem cutOff : Downloads cfg stream dir (s.cutOff child inode) := by
  obtain ⟨noSlash, entry, node, sole⟩ := downloads.storing here
  have touches := Touches.refl downloads.sound entry node sole
  refine downloads.replace touches (downloads.others here) (downloads.unread here)
    (own here) (fun i elsewhere => ⟨rfl, Function.update_of_ne elsewhere _ _⟩)
    (.inl ⟨rfl, fun contents _ _ uncut => ?_⟩)
  simp at uncut

end Storing

/-! ### Steps of a download -/

/-- While the file stays as it was, `wait_ack` reads what the transfer is of. -/
theorem refresh_eq {file : List UInt8} {t : Transfer}
    (genuine : Genuine cfg file stream t)
    (still : t.sender.phase = .waitAck → s.disk.nodes inode = some (.regular file)) :
    refresh s.disk inode t = t := by
  unfold refresh
  split
  · rename_i waiting
    obtain ⟨base, window⟩ := genuine.sender.window
    have contents : s.disk.contents inode = file := by
      rw [Disk.contents, still waiting]
    have rest : file.drop t.sender.counter = t.sender.unread := by
      rw [window.unread, window.counter, List.drop_eq_drop_iff]
      omega
    rw [contents, rest]
  · rfl

theorem started {permits : Bool} {send : ℕ → SendResult} {t : Transfer}
    (downloads : Downloads cfg stream dir s) (here : s.children child = .found name)
    (found : s.sourceOf links dir name permits = some inode)
    (starts : Transfer.start cfg (s.disk.contents inode) send = some t)
    (unstored : s.Unstored inode) (uncut : s.cut inode = false)
    (fits : packetCount (s.disk.contents inode) < 2 ^ 31) :
    Downloads cfg stream dir (s.goto child (.fetching inode (s.whole inode) t)) := by
  obtain ⟨noSlash, ordinary⟩ := downloads.found here
  obtain ⟨entry, file, node⟩ :=
    Disk.openRead_name downloads.sound ordinary (sourceOf_name noSlash found)
  have contents : s.disk.contents inode = file := by rw [Disk.contents, node]
  rw [contents] at starts fits
  apply downloads.goto (by simp [here]) (by simp) (by simp) (by simp)
  rintro i whole t' same
  obtain ⟨rfl, rfl, rfl⟩ := StorePc.fetching.inj same
  exact ⟨file, downloads.settled entry node unstored uncut, .start fits starts,
    fun _ => ⟨node, unstored⟩⟩

theorem moved {whole : Option (List UInt8)} {t t' : Transfer} {event : Event}
    (downloads : Downloads cfg stream dir s)
    (here : s.children child = .fetching inode whole t)
    (moves : Transfer.Step cfg stream (refresh s.disk inode t) event t') :
    Downloads cfg stream dir (s.goto child (.fetching inode whole t')) := by
  obtain ⟨file, full, genuine, still⟩ := downloads.fetching here
  rw [refresh_eq genuine fun waiting => (still waiting).1] at moves
  apply downloads.goto (by simp [here]) (by simp) (by simp) (by simp)
  rintro i whole' t'' same
  obtain ⟨rfl, rfl, rfl⟩ := StorePc.fetching.inj same
  exact ⟨file, full, genuine.step moves, fun waiting => still (moves.waiting waiting)⟩

/-- Every step that meets the condition keeps the invariant. -/
theorem step (downloads : Downloads cfg stream dir s)
    (taken : Step cfg stream links dir s event s')
    (undisturbed : Undisturbed links dir s event) : Downloads cfg stream dir s' := by
  cases step_iff.mp taken with
  | aborted idle noFile => exact downloads
  | answered idle noAbort unlisted =>
      rcases undisturbed with abort | listed | ⟨noSlash, ordinary⟩
      · exact absurd abort noAbort
      · simp [unlisted] at listed
      · refine downloads.goto (by simp [idle]) (by simp) ?_ (by simp) (by simp)
        rintro name same
        obtain rfl := StorePc.answered.inj same
        refine ⟨noSlash, ordinary, fun inode contents other entry node _ => ?_⟩
        rw [Disk.isRegular_iff.mpr ⟨inode, contents, entry, node⟩] at unlisted
        exact absurd unlisted (by decide)
  | refused here lost => exact downloads.idle (by simp [here])
  | opened here found =>
      refine downloads.opened here found fun inode same => ?_
      rw [same] at found
      exact undisturbed _ inode here found
  | given here => exact downloads.given here _
  | written here => exact downloads.written here _
  | failed here => exact downloads.failed here
  | stored here flushed => exact downloads.stored here
  | cutOff here lost => exact downloads.cutOff here
  | listed idle listed =>
      obtain ⟨inode, contents, entry, node⟩ := Disk.isRegular_iff.mp listed
      refine downloads.goto (by simp [idle]) (by simp) (by simp) ?_ (by simp)
      rintro name same
      obtain rfl := StorePc.found.inj same
      refine ⟨(Disk.plain_of_lookup entry).1, fun i entry' => .inr ⟨contents, ?_⟩⟩
      rw [← Option.some.inj (entry.symm.trans entry'), node]
  | unlisted idle unlisted => exact downloads
  | unread here lost => exact downloads.idle (by simp [here])
  | started here found starts =>
      obtain ⟨unstored, uncut, fits⟩ := undisturbed _ _ here found
      exact downloads.started here found starts unstored uncut fits
  | moved here moves => exact downloads.moved here moves
  | ended here returned => exact downloads.idle (by simp [here])

end Downloads

end Store

/-- Once `main_sender` has succeeded: what was in the file, if it was complete, and
how many bytes have arrived. -/
def StorePc.delivery (stream : Stream) :
    StorePc → Option (Option (List UInt8) × Option ℕ)
  | .fetching _ whole t =>
      if t.sender.phase = .returned EXIT_SUCCESS then
        some (whole, (t.receiver.destination stream).map List.length)
      else none
  | _ => none

theorem StorePc.of_delivery {stream : Stream} {pc : StorePc} {whole : Option (List UInt8)}
    {bytes : Option ℕ} (delivery : pc.delivery stream = some (whole, bytes)) :
    ∃ inode t, pc = .fetching inode whole t ∧
      t.sender.phase = .returned EXIT_SUCCESS := by
  unfold StorePc.delivery at delivery
  split at delivery
  · rename_i inode whole' t
    split_ifs at delivery with success
    obtain ⟨rfl, _⟩ := Prod.mk.inj (Option.some.inj delivery)
    exact ⟨inode, t, rfl, success⟩
  · simp at delivery

/-- Child 0 has stored one byte under a name that child 1 has been asked for. -/
def secondFinds : Store :=
  ((((firstAnswered.opened 0 (text "f") (.create 1 (text "f"))).goto 0
    (.storing (text "f") 3 ⟨[], [7]⟩)).written 0 (text "f") 3 ⟨[], [7]⟩ 1).stored 0 3
      ⟨[7], []⟩).goto 1 (.found (text "f"))

theorem run_secondFinds :
    Run (Within (Store.Step settings .roomy 8 1) (Store.Undisturbed 8 1))
      (Store.initial besideNotes)
      [.putCheck 0 (text "f"), .putOpen 0 true, .putGive 0 [7], .putWrite 0 1,
        .putEnd 0 EXIT_SUCCESS true, .getCheck 1 (text "f")] secondFinds := by
  let opened := firstAnswered.opened 0 (text "f") (.create 1 (text "f"))
  let given := opened.goto 0 (.storing (text "f") 3 ⟨[], [7]⟩)
  let written := given.written 0 (text "f") 3 ⟨[], [7]⟩ 1
  have target : Store.targetOf 8 1 firstAnswered (text "f") true =
      some (.create 1 (text "f")) := by decide +kernel
  have new : Store.Undisturbed 8 1 (Store.initial besideNotes)
      (.putCheck 0 (text "f")) := by
    refine .inr (.inr ⟨by decide +kernel, fun inode entry => ?_⟩)
    simp [Disk.lookup, Store.initial, besideNotes] at entry
  have creates : Store.Undisturbed 8 1 firstAnswered (.putOpen 0 true) := by
    intro name inode here found
    obtain rfl := StorePc.answered.inj
      ((rfl : firstAnswered.children 0 = .answered (text "f")).symm.trans here)
    simp [target] at found
  have step₁ : Store.Step settings .roomy 8 1 firstAnswered (.putOpen 0 true) opened :=
    Store.step_iff.mpr (.opened rfl target)
  have step₂ : Store.Step settings .roomy 8 1 opened (.putGive 0 [7]) given := rfl
  have step₃ : Store.Step settings .roomy 8 1 given (.putWrite 0 1) written :=
    Store.step_iff.mpr (.written rfl)
  have step₄ : Store.Step settings .roomy 8 1 written (.putEnd 0 EXIT_SUCCESS true)
      (written.stored 0 3 ⟨[7], []⟩) :=
    Store.step_iff.mpr (.stored rfl rfl)
  have step₅ : Store.Step settings .roomy 8 1 (written.stored 0 3 ⟨[7], []⟩)
      (.getCheck 1 (text "f")) secondFinds :=
    Store.step_iff.mpr (.listed rfl (by decide +kernel))
  exact (((((Run.single (And.intro step_firstAnswered new)).tail
    (And.intro step₁ creates)).tail (And.intro step₂ trivial)).tail
      (And.intro step₃ trivial)).tail (And.intro step₄ trivial)).tail
        (And.intro step₅ trivial)

/-- The transfer of that byte. -/
def oneByte : Transfer :=
  (Transfer.start settings [7] fun _ => .sent).get (by decide +kernel)

/-- Only the transfers go on. -/
def OnlyTransfers : Store → StoreEvent → Prop
  | _, .transfer _ _ => True
  | _, _ => False

instance (s : Store) : DecidablePred (OnlyTransfers s) := fun event => by
  induction event using StoreEvent.casesOn <;> unfold OnlyTransfers <;> infer_instance

theorem undisturbed_of_transfer {before after : Store} {event : StoreEvent}
    (taken : Within (fun s event s' => s.step settings .roomy 8 1 event = some s')
      OnlyTransfers before event after) :
    Within (Store.Step settings .roomy 8 1) (Store.Undisturbed 8 1) before event after := by
  obtain ⟨moves, only⟩ := taken
  cases event with
  | transfer child event => exact ⟨moves, trivial⟩
  | _ => exact absurd only id

end Spqr
