/-
Module: Spqr.Store
Purpose: `server-files/` under the `PUT` and `GET` commands of any number of server
  children, step by step.
Trusted boundary: none
Main exports:
  StorePc, Store, StoreEvent, Store.initial, Store.step, Store.step_iff
-/
import Spqr.Lib.Directory
import Spqr.Session

namespace Spqr

open FileSystem Transfer

/-! ### The children and the directory -/

/-- What `main_receiver` has given to its stream: what is in the file, and what the
stream keeps back. -/
structure Upload where
  written : List UInt8
  pending : List UInt8

/-- `fwrite` takes some bytes. -/
def Upload.give (u : Upload) (bytes : List UInt8) : Upload :=
  { u with pending := u.pending ++ bytes }

/-- The stream writes out the oldest bytes. -/
def Upload.flush (u : Upload) (size : ℕ) : Upload :=
  ⟨u.written ++ u.pending.take size, u.pending.drop size⟩

/-- Where a server child is between two of its steps on the files. -/
inductive StorePc where
  /-- no command is under way; or no child has this number any more -/
  | idle
  /-- `PUT`: `NOT_EXIST` is sent and `fopen` comes next -/
  | answered (name : Text)
  /-- in `main_receiver` -/
  | storing (name : Text) (inode : ℕ) (upload : Upload)
  /-- `GET`: the name is sent back and `main_sender` comes next -/
  | found (name : Text)
  /-- in `main_sender`, or back from it. `whole` is a ghost: the contents, if the
  file was complete when it was opened. -/
  | fetching (inode : ℕ) (whole : Option (List UInt8)) (transfer : Transfer)

/-- The disk and the children. All other fields are ghosts. -/
structure Store where
  disk : Disk
  children : ℕ → StorePc
  /-- Uploads that were answered `NOT_EXIST` and have not failed since. -/
  held : List (ℕ × Text)
  /-- What is in a file that was there from the start, or has been uploaded with
  success. -/
  whole : ℕ → Option (List UInt8)
  /-- A failed `fwrite` or `fclose` has left this file incomplete. -/
  cut : ℕ → Bool

/-- A step of a child. `permits` tells whether the rights on a file allow to open
it. -/
inductive StoreEvent where
  | putCheck (child : ℕ) (request : Text)
  | putOpen (child : ℕ) (permits : Bool)
  /-- `fwrite` takes these bytes -/
  | putGive (child : ℕ) (bytes : List UInt8)
  /-- the stream writes out so many of them, in `fwrite` or in `fclose` -/
  | putWrite (child : ℕ) (size : ℕ)
  /-- `receive_data_from_sender` has returned `ret`, and `fclose` returns -/
  | putEnd (child : ℕ) (ret : ℤ) (closes : Bool)
  | getCheck (child : ℕ) (request : Text)
  | getOpen (child : ℕ) (permits : Bool) (send : ℕ → SendResult)
  /-- something happens to the transfer of a `GET` -/
  | transfer (child : ℕ) (event : Event)
  /-- `main_sender` has returned -/
  | getEnd (child : ℕ)

namespace Store

/-- No command has been given. -/
def initial (disk : Disk) : Store where
  disk := disk
  children := fun _ => .idle
  held := []
  whole := fun inode =>
    match disk.nodes inode with
    | some (.regular contents) => some contents
    | _ => none
  cut := fun _ => false

/-- A child goes on. -/
def goto (s : Store) (child : ℕ) (pc : StorePc) : Store :=
  { s with children := Function.update s.children child pc }

/-- `get_server_files` has not found the name: `NOT_EXIST` is sent. -/
def answer (s : Store) (child : ℕ) (name : Text) : Store :=
  { s.goto child (.answered name) with held := (child, name) :: s.held }

/-- `fopen` has failed, and `main_receiver` returns `TRANSFER_ERROR`. -/
def refuse (s : Store) (child : ℕ) (name : Text) : Store :=
  { s.goto child .idle with held := s.held.erase (child, name) }

/-- `fopen` has succeeded. -/
def opened (s : Store) (child : ℕ) (name : Text) (target : Disk.Target) : Store :=
  let inode := s.disk.opened target
  { s.goto child (.storing name inode ⟨[], []⟩) with
    disk := s.disk.applyOpen target
    whole := Function.update s.whole inode none
    cut := Function.update s.cut inode false }

/-- The stream writes out a part of what it keeps back. -/
def written (s : Store) (child : ℕ) (name : Text) (inode : ℕ) (upload : Upload)
    (size : ℕ) : Store :=
  { s.goto child (.storing name inode (upload.flush size)) with
    disk := s.disk.write inode upload.written.length (upload.pending.take size) }

/-- `main_receiver` removes the file. -/
def failed (s : Store) (links dir child : ℕ) (name : Text) : Store :=
  { s.goto child .idle with
    disk := s.disk.remove links dir (components name)
    held := s.held.erase (child, name) }

/-- `main_receiver` has received the whole file. -/
def stored (s : Store) (child inode : ℕ) (upload : Upload) : Store :=
  { s.goto child .idle with
    whole := Function.update s.whole inode (some upload.written) }

/-- It leaves a part of it. -/
def cutOff (s : Store) (child inode : ℕ) : Store :=
  { s.goto child .idle with cut := Function.update s.cut inode true }

/-- The rest of the file as `wait_ack` would read it now. -/
def refresh (disk : Disk) (inode : ℕ) (t : Transfer) : Transfer :=
  match t.sender.phase with
  | .waitAck =>
      { t with
        sender := { t.sender with unread := (disk.contents inode).drop t.sender.counter } }
  | _ => t

/-- What `fopen(path, "wb")` leads to. -/
def targetOf (links dir : ℕ) (s : Store) (name : Text) (permits : Bool) :
    Option Disk.Target :=
  if permits then s.disk.openWrite links dir (components name) else none

/-- What `fopen(path, "rb")` leads to. -/
def sourceOf (links dir : ℕ) (s : Store) (name : Text) (permits : Bool) : Option ℕ :=
  if permits then s.disk.openRead links dir (components name) else none

/-- The state after a step, if the child can take it. `dir` is the directory that
`SERVER_FILES_PATH` names; at most `links` links are followed. The clients' streams are
`stream`. -/
def step (cfg : Settings) (stream : Stream) (links dir : ℕ) (s : Store) :
    StoreEvent → Option Store
  | .putCheck child request =>
      match s.children child with
      | .idle =>
          if request = feedback.ABORT then some s
          -- `EXIST` is sent
          else if s.disk.isRegular dir request then some s
          else some (s.answer child request)
      | _ => none
  | .putOpen child permits =>
      match s.children child with
      | .answered name =>
          match s.targetOf links dir name permits with
          | none => some (s.refuse child name)
          | some target => some (s.opened child name target)
      | _ => none
  | .putGive child bytes =>
      match s.children child with
      | .storing name inode upload =>
          some (s.goto child (.storing name inode (upload.give bytes)))
      | _ => none
  | .putWrite child size =>
      match s.children child with
      | .storing name inode upload => some (s.written child name inode upload size)
      | _ => none
  | .putEnd child ret closes =>
      match s.children child with
      | .storing name inode upload =>
          -- the `spqr_assert` around `fclose` ends the process
          if closes = false then some (s.cutOff child inode)
          else if ret = TRANSFER_ERROR then some (s.failed links dir child name)
          else if ret = EXIT_SUCCESS then
            -- `fclose` has written out what was left
            if upload.pending = [] then some (s.stored child inode upload) else none
          else some (s.cutOff child inode)
      | _ => none
  | .getCheck child request =>
      match s.children child with
      | .idle =>
          if s.disk.isRegular dir request then some (s.goto child (.found request))
          -- `SPQR_FILENAME_NOT_FOUND` is sent
          else some s
      | _ => none
  | .getOpen child permits send =>
      match s.children child with
      | .found name =>
          match s.sourceOf links dir name permits with
          | none => some (s.goto child .idle)
          | some inode =>
              (Transfer.start cfg (s.disk.contents inode) send).map fun t =>
                s.goto child (.fetching inode (s.whole inode) t)
      | _ => none
  | .transfer child event =>
      match s.children child with
      | .fetching inode whole t =>
          ((refresh s.disk inode t).step cfg stream event).map fun t =>
            s.goto child (.fetching inode whole t)
      | _ => none
  | .getEnd child =>
      match s.children child with
      | .fetching _ _ t =>
          match t.sender.phase with
          | .returned _ => some (s.goto child .idle)
          | _ => none
      | _ => none

/-- The step relation of the store. -/
def Step (cfg : Settings) (stream : Stream) (links dir : ℕ) (before : Store)
    (event : StoreEvent) (after : Store) : Prop :=
  before.step cfg stream links dir event = some after

/-! ### Everything one step can do -/

/-- What happens to the files, the uploads and the children. -/
inductive Happens (cfg : Settings) (stream : Stream) (links dir : ℕ) (s : Store) :
    StoreEvent → Store → Prop where
  | aborted {child : ℕ} {request : Text} (idle : s.children child = .idle)
      (noFile : request = feedback.ABORT ∨ s.disk.isRegular dir request = true) :
      Happens cfg stream links dir s (.putCheck child request) s
  | answered {child : ℕ} {request : Text} (idle : s.children child = .idle)
      (noAbort : request ≠ feedback.ABORT)
      (unlisted : s.disk.isRegular dir request = false) :
      Happens cfg stream links dir s (.putCheck child request) (s.answer child request)
  | refused {child : ℕ} {name : Text} {permits : Bool}
      (here : s.children child = .answered name)
      (lost : s.targetOf links dir name permits = none) :
      Happens cfg stream links dir s (.putOpen child permits) (s.refuse child name)
  | opened {child : ℕ} {name : Text} {permits : Bool} {target : Disk.Target}
      (here : s.children child = .answered name)
      (found : s.targetOf links dir name permits = some target) :
      Happens cfg stream links dir s (.putOpen child permits) (s.opened child name target)
  | given {child inode : ℕ} {name : Text} {upload : Upload} {bytes : List UInt8}
      (here : s.children child = .storing name inode upload) :
      Happens cfg stream links dir s (.putGive child bytes)
        (s.goto child (.storing name inode (upload.give bytes)))
  | written {child inode size : ℕ} {name : Text} {upload : Upload}
      (here : s.children child = .storing name inode upload) :
      Happens cfg stream links dir s (.putWrite child size)
        (s.written child name inode upload size)
  | failed {child inode : ℕ} {name : Text} {upload : Upload}
      (here : s.children child = .storing name inode upload) :
      Happens cfg stream links dir s (.putEnd child TRANSFER_ERROR true)
        (s.failed links dir child name)
  | stored {child inode : ℕ} {name : Text} {upload : Upload}
      (here : s.children child = .storing name inode upload)
      (flushed : upload.pending = []) :
      Happens cfg stream links dir s (.putEnd child EXIT_SUCCESS true)
        (s.stored child inode upload)
  | cutOff {child inode : ℕ} {name : Text} {upload : Upload} {ret : ℤ} {closes : Bool}
      (here : s.children child = .storing name inode upload)
      (lost : closes = false ∨ ret ≠ TRANSFER_ERROR ∧ ret ≠ EXIT_SUCCESS) :
      Happens cfg stream links dir s (.putEnd child ret closes) (s.cutOff child inode)
  | listed {child : ℕ} {request : Text} (idle : s.children child = .idle)
      (listed : s.disk.isRegular dir request = true) :
      Happens cfg stream links dir s (.getCheck child request) (s.goto child (.found request))
  | unlisted {child : ℕ} {request : Text} (idle : s.children child = .idle)
      (unlisted : s.disk.isRegular dir request = false) :
      Happens cfg stream links dir s (.getCheck child request) s
  | unread {child : ℕ} {name : Text} {permits : Bool} {send : ℕ → SendResult}
      (here : s.children child = .found name)
      (lost : s.sourceOf links dir name permits = none) :
      Happens cfg stream links dir s (.getOpen child permits send) (s.goto child .idle)
  | started {child inode : ℕ} {name : Text} {permits : Bool} {send : ℕ → SendResult}
      {t : Transfer} (here : s.children child = .found name)
      (found : s.sourceOf links dir name permits = some inode)
      (starts : Transfer.start cfg (s.disk.contents inode) send = some t) :
      Happens cfg stream links dir s (.getOpen child permits send)
        (s.goto child (.fetching inode (s.whole inode) t))
  | moved {child inode : ℕ} {whole : Option (List UInt8)} {event : Event}
      {t t' : Transfer} (here : s.children child = .fetching inode whole t)
      (moves : Transfer.Step cfg stream (refresh s.disk inode t) event t') :
      Happens cfg stream links dir s (.transfer child event)
        (s.goto child (.fetching inode whole t'))
  | ended {child inode : ℕ} {whole : Option (List UInt8)} {t : Transfer} {ret : ℤ}
      (here : s.children child = .fetching inode whole t)
      (returned : t.sender.phase = .returned ret) :
      Happens cfg stream links dir s (.getEnd child) (s.goto child .idle)

variable {cfg : Settings} {stream : Stream} {links dir : ℕ} {s s' : Store}
  {event : StoreEvent}

theorem step_iff :
    Step cfg stream links dir s event s' ↔ Happens cfg stream links dir s event s' := by
  unfold Step
  constructor
  · intro taken
    cases event with
    | putCheck child request =>
        simp only [step] at taken
        split at taken
        · rename_i idle
          split_ifs at taken with abort listed
          · obtain rfl := Option.some.inj taken
            exact .aborted idle (.inl abort)
          · obtain rfl := Option.some.inj taken
            exact .aborted idle (.inr listed)
          · obtain rfl := Option.some.inj taken
            exact .answered idle abort (Bool.eq_false_of_not_eq_true listed)
        · simp at taken
    | putOpen child permits =>
        simp only [step] at taken
        split at taken
        · rename_i name here
          cases found : s.targetOf links dir name permits with
          | none =>
              rw [found] at taken
              obtain rfl := Option.some.inj taken
              exact .refused here found
          | some target =>
              rw [found] at taken
              obtain rfl := Option.some.inj taken
              exact .opened here found
        · simp at taken
    | putGive child bytes =>
        simp only [step] at taken
        split at taken
        · rename_i name inode upload here
          obtain rfl := Option.some.inj taken
          exact .given here
        · simp at taken
    | putWrite child size =>
        simp only [step] at taken
        split at taken
        · rename_i name inode upload here
          obtain rfl := Option.some.inj taken
          exact .written here
        · simp at taken
    | putEnd child ret closes =>
        simp only [step] at taken
        split at taken
        · rename_i name inode upload here
          split_ifs at taken with dies error success flushed
          · obtain rfl := Option.some.inj taken
            exact .cutOff here (.inl dies)
          · obtain rfl := Option.some.inj taken
            rw [error, Bool.eq_true_of_not_eq_false dies]
            exact .failed here
          · obtain rfl := Option.some.inj taken
            rw [success, Bool.eq_true_of_not_eq_false dies]
            exact .stored here flushed
          · obtain rfl := Option.some.inj taken
            exact .cutOff here (.inr ⟨error, success⟩)
        · simp at taken
    | getCheck child request =>
        simp only [step] at taken
        split at taken
        · rename_i idle
          split_ifs at taken with listed
          · obtain rfl := Option.some.inj taken
            exact .listed idle listed
          · obtain rfl := Option.some.inj taken
            exact .unlisted idle (Bool.eq_false_of_not_eq_true listed)
        · simp at taken
    | getOpen child permits send =>
        simp only [step] at taken
        split at taken
        · rename_i name here
          cases found : s.sourceOf links dir name permits with
          | none =>
              rw [found] at taken
              obtain rfl := Option.some.inj taken
              exact .unread here found
          | some inode =>
              rw [found] at taken
              obtain ⟨t, starts, rfl⟩ := Option.map_eq_some_iff.mp taken
              exact .started here found starts
        · simp at taken
    | transfer child event =>
        simp only [step] at taken
        split at taken
        · rename_i inode whole t here
          obtain ⟨t', moves, rfl⟩ := Option.map_eq_some_iff.mp taken
          exact .moved here moves
        · simp at taken
    | getEnd child =>
        simp only [step] at taken
        split at taken
        · rename_i inode whole t here
          split at taken
          · rename_i ret returned
            obtain rfl := Option.some.inj taken
            exact .ended here returned
          · simp at taken
        · simp at taken
  · intro happens
    cases happens with
    | aborted idle noFile =>
        rcases noFile with abort | listed
        · simp [step, idle, abort]
        · simp [step, idle, listed]
    | answered idle noAbort unlisted => simp [step, idle, noAbort, unlisted]
    | refused here lost => simp [step, here, lost]
    | opened here found => simp [step, here, found]
    | given here => simp [step, here]
    | written here => simp [step, here]
    | failed here => simp [step, here]
    | stored here flushed =>
        have other : EXIT_SUCCESS ≠ TRANSFER_ERROR := by decide
        simp [step, here, flushed, other]
    | cutOff here lost =>
        rcases lost with dies | ⟨noError, noSuccess⟩
        · simp [step, here, dies]
        · simp [step, here, noError, noSuccess]
    | listed idle listed => simp [step, idle, listed]
    | unlisted idle unlisted => simp [step, idle, unlisted]
    | unread here lost => simp [step, here, lost]
    | started here found starts => simp [step, here, found, starts]
    | moved here moves => exact (by simp only [step, here]; rw [moves]; rfl)
    | ended here returned => simp [step, here, returned]

theorem targetOf_name {name : Text} {permits : Bool} {target : Disk.Target}
    (noSlash : slash ∉ name)
    (found : s.targetOf links dir name permits = some target) :
    s.disk.openWrite links dir [name] = some target := by
  unfold targetOf at found
  split_ifs at found
  rwa [Disk.components_name noSlash] at found

theorem sourceOf_name {name : Text} {permits : Bool} {inode : ℕ}
    (noSlash : slash ∉ name)
    (found : s.sourceOf links dir name permits = some inode) :
    s.disk.openRead links dir [name] = some inode := by
  unfold sourceOf at found
  split_ifs at found
  rwa [Disk.components_name noSlash] at found

end Store

end Spqr
