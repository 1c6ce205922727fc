/-
Module: Spqr.Uploads
Purpose: When uploads to one name exclude each other.
Trusted boundary: none
Main exports:
  Exclusive, CheckedAlone, Uploads, Uploads.step, uploads_exclusive
-/
import Spqr.Lib.Runs
import Spqr.PutPath
import Spqr.Store

namespace Spqr

open FileSystem Labelled

/-- The child is in no upload. -/
def StorePc.outside : StorePc → Bool
  | .answered _ => false
  | .storing _ _ _ => false
  | _ => true

namespace Store

/-! ### The property, and when it holds -/

/-- At most one child receives into a name, and a name that was answered `NOT_EXIST`
is not answered so to another child while that upload lasts or its file is there. -/
structure Exclusive (s : Store) : Prop where
  receiving : ∀ {c d name inode inode' bytes bytes'},
    s.children c = .storing name inode bytes →
      s.children d = .storing name inode' bytes' → c = d
  answered : ∀ {c d name}, (c, name) ∈ s.held → (d, name) ∈ s.held → c = d

/-- A `PUT` is answered `NOT_EXIST` only for a name that `readdir` will tell once the
file is there, and not between the check and the `fopen` of another `PUT` of it. -/
def CheckedAlone (dir : ℕ) (s : Store) : StoreEvent → Prop
  | .putCheck _ request =>
      request = feedback.ABORT ∨ s.disk.isRegular dir request = true ∨
        slash ∉ request ∧ s.disk.Ordinary dir request ∧
          ∀ other, s.children other ≠ .answered request
  | _ => True

/-! ### The invariant -/

structure Uploads (dir : ℕ) (s : Store) : Prop where
  sound : s.disk.Sound dir
  answered : ∀ {c name}, s.children c = .answered name →
    (c, name) ∈ s.held ∧ slash ∉ name ∧ s.disk.Ordinary dir name
  storing : ∀ {c name inode bytes}, s.children c = .storing name inode bytes →
    (c, name) ∈ s.held ∧ slash ∉ name ∧ s.disk.lookup dir name = some inode ∧
      ∃ contents, s.disk.nodes inode = some (.regular contents)
  /-- An upload that has not failed is about to open its file, or the file is there. -/
  held : ∀ {c name}, (c, name) ∈ s.held →
    s.children c = .answered name ∨ s.disk.isRegular dir name = true
  sole : ∀ {c d name}, (c, name) ∈ s.held → (d, name) ∈ s.held → c = d
  once : s.held.Nodup

theorem goto_children (s : Store) (child c : ℕ) (pc : StorePc) :
    (s.goto child pc).children c = if c = child then pc else s.children c :=
  Function.update_apply ..

namespace Uploads

variable {cfg : Settings} {stream : Stream} {links dir child inode : ℕ}
  {s s' : Store} {event : StoreEvent} {name : Text} {upload : Upload}

theorem exclusive (uploads : Uploads dir s) : Exclusive s where
  receiving here there := uploads.sole (uploads.storing here).1 (uploads.storing there).1
  answered := uploads.sole

theorem initial {disk : Disk} (sound : disk.Sound dir) :
    Uploads dir (Store.initial disk) where
  sound := sound
  answered := by simp [Store.initial]
  storing := by simp [Store.initial]
  held := by simp [Store.initial]
  sole := by simp [Store.initial]
  once := by simp [Store.initial]

/-- Steps outside an upload change nothing that matters. -/
theorem goto (uploads : Uploads dir s) (before : (s.children child).outside = true)
    {pc : StorePc} (after : pc.outside = true) : Uploads dir (s.goto child pc) := by
  refine ⟨uploads.sound, fun {c} name here => ?_, fun {c} name inode bytes here => ?_,
    fun {c} name member => ?_, uploads.sole, uploads.once⟩
  · rw [goto_children] at here
    split_ifs at here
    · simp [here, StorePc.outside] at after
    · exact uploads.answered here
  · rw [goto_children] at here
    split_ifs at here
    · simp [here, StorePc.outside] at after
    · exact uploads.storing here
  · rcases uploads.held member with here | listed
    · apply Or.inl
      rw [goto_children, if_neg]
      · exact here
      · rintro rfl
        simp [here, StorePc.outside] at before
    · exact .inr listed

/-- A name that is not listed and that nobody is about to open is in nobody's hold. -/
theorem not_held (uploads : Uploads dir s) (unlisted : s.disk.isRegular dir name = false)
    (alone : ∀ other, s.children other ≠ .answered name) (c : ℕ) :
    (c, name) ∉ s.held := by
  intro member
  rcases uploads.held member with here | listed
  · exact alone c here
  · simp [unlisted] at listed

theorem answer (uploads : Uploads dir s) (idle : s.children child = .idle)
    (noSlash : slash ∉ name) (ordinary : s.disk.Ordinary dir name)
    (unheld : ∀ c, (c, name) ∉ s.held) : Uploads dir (s.answer child name) := by
  refine ⟨uploads.sound, fun {c} other here => ?_, fun {c} other inode bytes here => ?_,
    fun {c} other member => ?_, fun {c d} other one two => ?_,
    List.nodup_cons.mpr ⟨unheld child, uploads.once⟩⟩
  · rw [Store.answer, goto_children] at here
    split_ifs at here with same
    · obtain rfl := StorePc.answered.inj here
      rw [same]
      exact ⟨List.mem_cons_self, noSlash, ordinary⟩
    · obtain ⟨member, rest⟩ := uploads.answered here
      exact ⟨List.mem_cons_of_mem _ member, rest⟩
  · rw [Store.answer, goto_children] at here
    split_ifs at here with same
    obtain ⟨member, rest⟩ := uploads.storing here
    exact ⟨List.mem_cons_of_mem _ member, rest⟩
  · rcases List.mem_cons.mp member with new | old
    · obtain ⟨rfl, rfl⟩ := Prod.mk.inj new
      apply Or.inl
      rw [Store.answer, goto_children, if_pos rfl]
    · rcases uploads.held old with here | listed
      · apply Or.inl
        rw [Store.answer, goto_children, if_neg]
        · exact here
        · rintro rfl
          simp [idle] at here
      · exact .inr listed
  · rcases List.mem_cons.mp one with new | old <;> rcases List.mem_cons.mp two with new' | old'
    · rw [(Prod.mk.inj new).1, (Prod.mk.inj new').1]
    · rw [(Prod.mk.inj new).2] at old'
      exact absurd old' (unheld d)
    · rw [(Prod.mk.inj new').2] at old
      exact absurd old (unheld c)
    · exact uploads.sole old old'

/-- `fopen` has failed: the upload is over. -/
theorem refuse (uploads : Uploads dir s) (here : s.children child = .answered name) :
    Uploads dir (s.refuse child name) := by
  have kept : ∀ {c other}, (c, other) ∈ s.held.erase (child, name) ↔
      (c, other) ≠ (child, name) ∧ (c, other) ∈ s.held := uploads.once.mem_erase_iff
  refine ⟨uploads.sound, fun {c} other there => ?_, fun {c} other inode bytes there => ?_,
    fun {c} other member => ?_, fun one two =>
      uploads.sole (List.mem_of_mem_erase one) (List.mem_of_mem_erase two),
    uploads.once.erase _⟩
  · rw [Store.refuse, goto_children] at there
    split_ifs at there with same
    obtain ⟨member, rest⟩ := uploads.answered there
    exact ⟨kept.mpr ⟨fun pair => same (Prod.mk.inj pair).1, member⟩, rest⟩
  · rw [Store.refuse, goto_children] at there
    split_ifs at there with same
    obtain ⟨member, rest⟩ := uploads.storing there
    exact ⟨kept.mpr ⟨fun pair => same (Prod.mk.inj pair).1, member⟩, rest⟩
  · obtain ⟨different, old⟩ := kept.mp member
    rcases uploads.held old with there | listed
    · apply Or.inl
      rw [Store.refuse, goto_children, if_neg]
      · exact there
      · rintro rfl
        rw [here] at there
        exact different (by rw [StorePc.answered.inj there])
    · exact .inr listed

/-- A child opens its file or writes to it. -/
theorem receive {disk : Disk} {whole : ℕ → Option (List UInt8)} {cut : ℕ → Bool}
    (uploads : Uploads dir s) (stays : s.disk.Stays disk dir fun _ => True)
    (mine : ∀ other, s.children child = .answered other → other = name)
    (member : (child, name) ∈ s.held) (noSlash : slash ∉ name)
    (entry : disk.lookup dir name = some inode)
    (regular : ∃ contents, disk.nodes inode = some (.regular contents)) :
    Uploads dir
      { s.goto child (.storing name inode upload) with
        disk := disk, whole := whole, cut := cut } := by
  refine ⟨stays.sound, fun {c} other there => ?_, fun {c} other i old there => ?_,
    fun {c} other held => ?_, uploads.sole, uploads.once⟩
  · rw [goto_children] at there
    split_ifs at there
    obtain ⟨held, plain, ordinary⟩ := uploads.answered there
    exact ⟨held, plain, stays.ordinary other ordinary⟩
  · rw [goto_children] at there
    split_ifs at there with same
    · obtain ⟨rfl, rfl, rfl⟩ := StorePc.storing.inj there
      rw [same]
      exact ⟨member, noSlash, entry, regular⟩
    · obtain ⟨held, plain, found, contents, node⟩ := uploads.storing there
      exact ⟨held, plain, stays.files other i contents trivial found node⟩
  · rcases uploads.held held with there | listed
    · by_cases same : c = child
      · -- the file that it was about to open is there now
        rw [same] at there
        obtain ⟨contents, node⟩ := regular
        rw [mine other there]
        exact .inr (Disk.isRegular_iff.mpr ⟨inode, contents, entry, node⟩)
      · apply Or.inl
        rw [goto_children, if_neg same]
        exact there
    · exact .inr (stays.isRegular trivial listed)

theorem opened {permits : Bool} {target : Disk.Target} (uploads : Uploads dir s)
    (here : s.children child = .answered name)
    (found : s.targetOf links dir name permits = some target) :
    Uploads dir (s.opened child name target) := by
  obtain ⟨member, noSlash, ordinary⟩ := uploads.answered here
  have mine : ∀ other, s.children child = .answered other → other = name := by
    intro other there
    exact (StorePc.answered.inj (here.symm.trans there)).symm
  rcases Disk.openWrite_name uploads.sound ordinary (targetOf_name noSlash found) with
    ⟨rfl, missing, undotted⟩ | ⟨inode, contents, rfl, entry, node⟩
  · refine uploads.receive (.create uploads.sound ⟨noSlash, undotted⟩ missing) mine
      member noSlash ?_ ⟨[], ?_⟩
    · rw [Disk.lookup_create uploads.sound ⟨noSlash, undotted⟩, if_pos rfl]
      rfl
    · rw [Disk.opened, Disk.nodes_create uploads.sound.isDirectory.ne_next, if_pos rfl]
  · refine uploads.receive (.setNode uploads.sound node []) mine member noSlash ?_ ⟨[], ?_⟩
    · rw [Disk.applyOpen, Disk.lookup_setNode uploads.sound.isDirectory
        (uploads.sound.isDirectory.ne_regular node)]
      exact entry
    · rw [Disk.opened, Disk.applyOpen, Disk.nodes_setNode, if_pos rfl]

/-- `fwrite` has taken some bytes. -/
theorem given {bytes : List UInt8} (uploads : Uploads dir s)
    (here : s.children child = .storing name inode upload) :
    Uploads dir (s.goto child (.storing name inode (upload.give bytes))) := by
  obtain ⟨member, noSlash, entry, contents, node⟩ := uploads.storing here
  refine uploads.receive (.refl uploads.sound) (fun other there => ?_) member noSlash
    entry ⟨contents, node⟩
  simp [here] at there

theorem written {size : ℕ} (uploads : Uploads dir s)
    (here : s.children child = .storing name inode upload) :
    Uploads dir (s.written child name inode upload size) := by
  obtain ⟨member, noSlash, entry, contents, node⟩ := uploads.storing here
  have writes : s.disk.write inode upload.written.length (upload.pending.take size) =
      s.disk.setNode inode (.regular (Disk.overwrite contents upload.written.length
        (upload.pending.take size))) := by
    rw [Disk.write, node]
  refine uploads.receive ?_ (fun other there => ?_) member noSlash ?_ ?_
  · rw [writes]
    exact .setNode uploads.sound node _
  · simp [here] at there
  · rw [writes, Disk.lookup_setNode uploads.sound.isDirectory
      (uploads.sound.isDirectory.ne_regular node)]
    exact entry
  · rw [writes, Disk.nodes_setNode, if_pos rfl]
    exact ⟨_, rfl⟩

/-- A failed upload removes its own file. -/
theorem failed (uploads : Uploads dir s)
    (here : s.children child = .storing name inode upload) :
    Uploads dir (s.failed links dir child name) := by
  obtain ⟨member, noSlash, entry, contents, node⟩ := uploads.storing here
  have stays : s.disk.Stays (s.disk.remove links dir (components name)) dir
      fun other => other ≠ name := by
    rw [Disk.components_name noSlash]
    exact .remove uploads.sound entry node
  have kept : ∀ {c other}, (c, other) ∈ s.held.erase (child, name) ↔
      (c, other) ≠ (child, name) ∧ (c, other) ∈ s.held := uploads.once.mem_erase_iff
  -- no other upload holds the name
  have others : ∀ {c other}, (c, other) ∈ s.held.erase (child, name) → other ≠ name := by
    rintro c other remains rfl
    obtain ⟨different, old⟩ := kept.mp remains
    exact different (by rw [uploads.sole old member])
  refine ⟨stays.sound, fun {c} other there => ?_, fun {c} other i old there => ?_,
    fun {c} other remains => ?_, fun one two =>
      uploads.sole (List.mem_of_mem_erase one) (List.mem_of_mem_erase two),
    uploads.once.erase _⟩
  · rw [Store.failed, goto_children] at there
    split_ifs at there with same
    obtain ⟨held, plain, ordinary⟩ := uploads.answered there
    exact ⟨kept.mpr ⟨fun pair => same (Prod.mk.inj pair).1, held⟩, plain,
      stays.ordinary other ordinary⟩
  · rw [Store.failed, goto_children] at there
    split_ifs at there with same
    obtain ⟨held, plain, found, old', node'⟩ := uploads.storing there
    have remains := kept.mpr ⟨fun pair => same (Prod.mk.inj pair).1, held⟩
    exact ⟨remains, plain, stays.files other i old' (others remains) found node'⟩
  · rcases uploads.held (List.mem_of_mem_erase remains) with there | listed
    · apply Or.inl
      rw [Store.failed, goto_children, if_neg]
      · exact there
      · rintro rfl
        simp [here] at there
    · exact .inr (stays.isRegular (others remains) listed)

/-- A completed upload leaves its file, and so does a child that dies. -/
theorem settled {whole : ℕ → Option (List UInt8)} {cut : ℕ → Bool}
    (uploads : Uploads dir s) (here : s.children child = .storing name inode upload) :
    Uploads dir { s.goto child .idle with whole := whole, cut := cut } := by
  have settled : Uploads dir (s.goto child .idle) := by
    refine ⟨uploads.sound, fun {c} other there => ?_, fun {c} other i old there => ?_,
      fun {c} other held => ?_, uploads.sole, uploads.once⟩
    · rw [goto_children] at there
      split_ifs at there
      exact uploads.answered there
    · rw [goto_children] at there
      split_ifs at there
      exact uploads.storing there
    · rcases uploads.held held with there | listed
      · apply Or.inl
        rw [goto_children, if_neg]
        · exact there
        · rintro rfl
          simp [here] at there
      · exact .inr listed
  exact ⟨settled.sound, settled.answered, settled.storing, settled.held, settled.sole,
    settled.once⟩

/-- Every step that meets the condition keeps the invariant. -/
theorem step (uploads : Uploads dir s) (taken : Step cfg stream links dir s event s')
    (checked : CheckedAlone dir s event) : Uploads dir s' := by
  cases step_iff.mp taken with
  | aborted idle noFile => exact uploads
  | answered idle noAbort unlisted =>
      rcases checked with abort | listed | ⟨noSlash, ordinary, alone⟩
      · exact absurd abort noAbort
      · simp [unlisted] at listed
      · exact uploads.answer idle noSlash ordinary (uploads.not_held unlisted alone)
  | refused here lost => exact uploads.refuse here
  | opened here found => exact uploads.opened here found
  | given here => exact uploads.given here
  | written here => exact uploads.written here
  | failed here => exact uploads.failed here
  | stored here => exact uploads.settled here
  | cutOff here => exact uploads.settled here
  | listed idle listed => exact uploads.goto (by rw [idle]; rfl) rfl
  | unlisted idle unlisted => exact uploads
  | unread here lost => exact uploads.goto (by rw [here]; rfl) rfl
  | started here found starts => exact uploads.goto (by rw [here]; rfl) rfl
  | moved here moves => exact uploads.goto (by rw [here]; rfl) rfl
  | ended here returned => exact uploads.goto (by rw [here]; rfl) rfl

end Uploads

end Store

theorem sound_besideNotes : besideNotes.Sound 1 where
  here := ⟨0, _, rfl, 0, _, rfl⟩
  behind := by
    intro name inode entry
    simp [Disk.lookup, besideNotes] at entry

/-- Child 0 has been answered `NOT_EXIST`. -/
def firstAnswered : Store := (Store.initial besideNotes).answer 0 (text "f")

theorem step_firstAnswered : Store.Step settings .roomy 8 1 (Store.initial besideNotes)
    (.putCheck 0 (text "f")) firstAnswered :=
  Store.step_iff.mpr (.answered rfl (by decide +kernel) (by decide +kernel))

end Spqr
