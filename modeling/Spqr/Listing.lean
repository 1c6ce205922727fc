/-
Module: Spqr.Listing
Purpose: The listing of the server's files, entry by entry of the directory, and
  when the datagrams that carry it carry all of it.
Trusted boundary: none
Main exports:
  Dirent, getServerFiles, regularNames, getServerFiles_list, getServerFiles_find,
  listing_whole_iff
-/
import Spqr.Texts
import Spqr.Lib.LineBuffer

namespace Spqr

open LineBuffer

/-! ### Reading the directory -/

def DT_REG : UInt8 := 8

/-- `struct dirent`, as far as it is read. -/
structure Dirent where
  dType : UInt8
  dName : Text
  deriving Repr, DecidableEq

/-- The locals of `get_server_files`, and the datagrams sent so far. The buffer is
its text, without the zeros behind it. -/
structure ListLoop where
  buffer : Text
  offset : ℕ
  fileFound : Bool
  sent : List Text
  deriving Repr, DecidableEq

def LISTING_HEADER : Text := text "List of files availables on the server:\n"

def ListLoop.first : ListLoop :=
  { buffer := LISTING_HEADER, offset := LISTING_HEADER.length, fileFound := false,
    sent := [] }

/-- The entry as `snprintf` leaves it in the buffer, with the room there is, and
the flush. -/
def ListLoop.print (s : ListLoop) (filename : Text) : ListLoop :=
  let line := listingEntry filename
  let room := MAX_READ_LINE - s.offset - 1
  let s := { s with
    buffer := s.buffer.take s.offset ++ line.take room
    offset := s.offset + line.length }
  if MAX_READ_LINE - 1 ≤ s.offset then
    { s with sent := s.sent ++ [s.buffer], buffer := [], offset := 0 }
  else s

/-- The `while` loop over `readdir`; with `true`, the function has returned. -/
def listLoop (option : Bool) (filename : Text) : ListLoop → List Dirent → ListLoop × Bool
  | s, [] => (s, false)
  | s, dp :: entries =>
      if dp.dType = DT_REG then
        let s := { s with fileFound := true }
        if option = true ∧ filename = dp.dName then (s, true)
        else if option = false then listLoop option filename (s.print dp.dName) entries
        else listLoop option filename s entries
      else listLoop option filename s entries

/-- What follows the loop: a directory without files has a text of its own, and
what is left in the buffer is sent. -/
def ListLoop.finish (s : ListLoop) (option : Bool) : List Text :=
  let buffer :=
    if s.fileFound then s.buffer else text "\n⚠️  Still no files for now.\n"
  if option = false ∧ 0 < s.offset then s.sent ++ [buffer] else s.sent

/-- `get_server_files`: the datagrams it sends and what it returns. -/
def getServerFiles (option : Bool) (filename : Text) (entries : List Dirent) :
    List Text × Bool :=
  match listLoop option filename .first entries with
  | (s, true) => (s.sent, true)
  | (s, false) => (s.finish option, false)

/-- The names that the loop does not skip. -/
def regularNames (entries : List Dirent) : List Text :=
  (entries.filter fun dp => dp.dType = DT_REG).map Dirent.dName

theorem regularNames_cons (dp : Dirent) (entries : List Dirent) :
    regularNames (dp :: entries) =
      if dp.dType = DT_REG then dp.dName :: regularNames entries
      else regularNames entries := by
  rw [regularNames, List.filter_cons]
  split <;> rename_i regular <;> simp_all [regularNames]

/-! ### What it computes -/

/-- Between two entries the text ends at the offset, short of the end of the
buffer. -/
structure ListLoop.Begun (s : ListLoop) : Prop where
  text : s.buffer.length = s.offset
  short : s.offset < MAX_READ_LINE - 1

theorem ListLoop.begun_first : ListLoop.first.Begun :=
  ⟨rfl, by decide +kernel⟩

/-- One entry: a buffer that is reached is sent with what fits of it. -/
theorem ListLoop.print_cases {s : ListLoop} (begun : s.Begun) (filename : Text) :
    (s.print filename).Begun ∧
      (s.print filename).fileFound = s.fileFound ∧
      (if MAX_READ_LINE - 1 ≤ (s.buffer ++ listingEntry filename).length then
        (s.print filename).sent =
            s.sent ++ [(s.buffer ++ listingEntry filename).take (MAX_READ_LINE - 1)] ∧
          (s.print filename).buffer = []
      else (s.print filename).sent = s.sent ∧
          (s.print filename).buffer = s.buffer ++ listingEntry filename) := by
  have short := begun.short
  have old : s.buffer.take s.offset = s.buffer :=
    List.take_of_length_le begun.text.le
  have whole : s.buffer ++ (listingEntry filename).take (MAX_READ_LINE - s.offset - 1) =
      (s.buffer ++ listingEntry filename).take (MAX_READ_LINE - 1) := by
    have inside : s.buffer.length ≤ MAX_READ_LINE - 1 := by
      rw [begun.text]
      exact short.le
    rw [List.take_append, List.take_of_length_le inside, begun.text,
      Nat.sub_right_comm]
  rw [List.length_append, begun.text]
  unfold ListLoop.print
  simp only [old, whole]
  split
  · exact ⟨⟨rfl, Nat.zero_lt_of_lt short⟩, rfl, rfl, rfl⟩
  · rename_i below
    rw [Nat.not_le] at below
    have uncut : (s.buffer ++ listingEntry filename).take (MAX_READ_LINE - 1) =
        s.buffer ++ listingEntry filename := by
      apply List.take_of_length_le
      rw [List.length_append, begun.text]
      exact below.le
    rw [uncut]
    refine ⟨⟨?_, below⟩, rfl, rfl, rfl⟩
    rw [List.length_append, begun.text]

/-- The loop with `option` false sends what the names alone decide. -/
theorem listLoop_list (filename : Text) (entries : List Dirent) {s : ListLoop}
    (begun : s.Begun) :
    (listLoop false filename s entries).2 = false ∧
      (listLoop false filename s entries).1.Begun ∧
      (listLoop false filename s entries).1.fileFound =
        (s.fileFound || !(regularNames entries).isEmpty) ∧
      (listLoop false filename s entries).1.sent ++
          listNames (listLoop false filename s entries).1.buffer [] =
        s.sent ++ listNames s.buffer (regularNames entries) := by
  induction entries generalizing s with
  | nil => simp [listLoop, begun, regularNames]
  | cons dp entries ih =>
      rw [listLoop, regularNames_cons]
      by_cases regular : dp.dType = DT_REG
      · have found : ({ s with fileFound := true } : ListLoop).Begun :=
          ⟨begun.text, begun.short⟩
        obtain ⟨printed, kept, cases⟩ := ListLoop.print_cases found dp.dName
        obtain ⟨ret, rest, flag, out⟩ := ih printed
        simp only [regular, if_true, Bool.false_eq_true, false_and, if_false]
        refine ⟨ret, rest, ?_, ?_⟩
        · rw [flag, kept]
          simp
        · rw [out, listNames]
          split at cases
          · rename_i reached
            rw [if_pos reached, cases.1, cases.2, List.append_assoc]
            rfl
          · rename_i below
            rw [if_neg below, cases.1, cases.2]
      · simp only [regular, if_false]
        exact ih begun

/-- Entries that are not regular files are passed over. -/
theorem listLoop_none {option : Bool} {filename : Text} {entries : List Dirent}
    (none : regularNames entries = []) (s : ListLoop) :
    listLoop option filename s entries = (s, false) := by
  induction entries with
  | nil => rfl
  | cons dp entries ih =>
      rw [regularNames_cons] at none
      split at none
      · cases none
      · rename_i special
        rw [listLoop, if_neg special]
        exact ih none

theorem ListLoop.finish_first :
    ListLoop.first.finish false = [text "\n⚠️  Still no files for now.\n"] := by
  decide +kernel

theorem ListLoop.finish_found {s : ListLoop} (begun : s.Begun)
    (found : s.fileFound = true) :
    s.finish false = s.sent ++ listNames s.buffer [] := by
  have text := begun.text
  rw [finish, listNames]
  by_cases empty : s.buffer = []
  · rw [empty, List.length_nil] at text
    rw [if_pos empty, ← text]
    simp
  · have some : 0 < s.offset := by
      rw [← text]
      exact List.length_pos_iff.mpr empty
    rw [if_neg empty, if_pos ⟨rfl, some⟩, if_pos found]

/-- `get_server_files(child_sockfd, false, …)` sends the listing of the regular
files and returns `false`. -/
theorem getServerFiles_list (filename : Text) (entries : List Dirent) :
    getServerFiles false filename entries =
      (listServerFiles (regularNames entries), false) := by
  rw [getServerFiles, listServerFiles]
  by_cases empty : regularNames entries = []
  · rw [listLoop_none empty, if_pos empty]
    exact Prod.ext ListLoop.finish_first rfl
  · obtain ⟨ret, begun, found, out⟩ :=
      listLoop_list filename entries ListLoop.begun_first
    generalize listLoop false filename .first entries = last at *
    obtain ⟨s, returned⟩ := last
    obtain rfl : returned = false := ret
    have flag : s.fileFound = true := by
      rw [found]
      simp [empty]
    rw [if_neg empty]
    refine Prod.ext ?_ rfl
    exact (ListLoop.finish_found begun flag).trans out

/-- With `option` true the loop only looks for the name. -/
theorem listLoop_find (filename : Text) (entries : List Dirent) (s : ListLoop) :
    (listLoop true filename s entries).1.sent = s.sent ∧
      (listLoop true filename s entries).2 =
        decide (filename ∈ regularNames entries) := by
  induction entries generalizing s with
  | nil => simp [listLoop, regularNames]
  | cons dp entries ih =>
      rw [listLoop, regularNames_cons]
      split
      · by_cases same : filename = dp.dName
        · simp [same]
        · simp only [same, and_false, if_false, Bool.true_eq_false, List.mem_cons,
            false_or]
          exact ih _
      · exact ih s

/-- With `option` true nothing is sent, and the value returned says whether there
is a regular file of this name. -/
theorem getServerFiles_find (filename : Text) (entries : List Dirent) :
    getServerFiles true filename entries =
      ([], decide (filename ∈ regularNames entries)) := by
  obtain ⟨sent, found⟩ := listLoop_find filename entries .first
  rw [getServerFiles]
  generalize listLoop true filename .first entries = last at *
  obtain ⟨s, returned⟩ := last
  cases returned with
  | true => exact Prod.ext sent found
  | false => exact Prod.ext sent found

/-! ### What of the listing arrives -/

/-- The header and a complete line for every regular file. -/
def completeListing (names : List Text) : Text :=
  LISTING_HEADER ++ (names.map listingEntry).flatten

/-- Laid end to end behind the header, no line lies across a multiple of the
number of characters that a buffer holds. -/
def LinesFit (names : List Text) : Prop :=
  ∀ before name after, names = before ++ name :: after →
    (completeListing before).length % (MAX_READ_LINE - 1) + (listingEntry name).length
      ≤ MAX_READ_LINE - 1

theorem listNames_eq (buffer : Text) (names : List Text) :
    listNames buffer names =
      packed (MAX_READ_LINE - 1) buffer (names.map listingEntry) := by
  induction names generalizing buffer with
  | nil =>
      rw [listNames, List.map_nil, packed]
      cases buffer <;> rfl
  | cons name names ih =>
      simp only [listNames, List.map_cons, packed, ih]

theorem linesFit_iff (names : List Text) :
    LinesFit names ↔
      Fits (MAX_READ_LINE - 1) LISTING_HEADER.length (names.map listingEntry) := by
  rw [fits_iff, LinesFit]
  constructor
  · intro fit before line after split
    obtain ⟨first, rest, rfl, rfl, rest_eq⟩ := List.map_eq_append_iff.mp split
    obtain ⟨name, last, rfl, rfl, rfl⟩ := List.map_eq_cons_iff.mp rest_eq
    have bound := fit first name last rfl
    rw [completeListing, List.length_append] at bound
    exact bound
  · intro fit before name after split
    have bound := fit (before.map listingEntry) (listingEntry name)
      (after.map listingEntry) (by rw [split]; simp)
    rw [completeListing, List.length_append]
    exact bound

/-- With at least one regular file, the datagrams laid end to end are the complete
listing exactly when no line lies across the end of a buffer. -/
theorem listing_whole_iff (filename : Text) {entries : List Dirent}
    (some : regularNames entries ≠ []) :
    (getServerFiles false filename entries).1.flatten =
        completeListing (regularNames entries) ↔
      LinesFit (regularNames entries) := by
  rw [getServerFiles_list, listServerFiles, if_neg some, listNames_eq, linesFit_iff]
  have short : LISTING_HEADER.length < MAX_READ_LINE - 1 := ListLoop.begun_first.short
  exact flatten_packed_iff _ short (Nat.mod_eq_of_lt short)

/-- Four files with names of 255 bytes. -/
def fourLongNames : List Dirent :=
  [97, 98, 99, 100].map fun first =>
    { dType := DT_REG, dName := first :: List.replicate 254 120 }

/-- The last of their lines is cut, and its rest is not sent at all. -/
theorem listing_not_whole :
    regularNames fourLongNames ≠ [] ∧
      (∀ name ∈ regularNames fourLongNames, 1 ≤ name.length ∧ name.length ≤ 255) ∧
      (getServerFiles false [] fourLongNames).1.flatten ≠
        completeListing (regularNames fourLongNames) := by
  decide +kernel

/-- A directory as `readdir` gives it, with entries that are no regular files. -/
def fewFiles : List Dirent :=
  [⟨4, text "."⟩, ⟨DT_REG, text "roma.txt"⟩, ⟨4, text ".."⟩, ⟨DT_REG, text "lupa.png"⟩,
    ⟨DT_REG, text "inno"⟩]

theorem listing_whole_several :
    (getServerFiles false [] fewFiles).1.flatten = completeListing (regularNames fewFiles) ∧
      LinesFit (regularNames fewFiles) := by
  have some : regularNames fewFiles ≠ [] := by decide +kernel
  have whole : (getServerFiles false [] fewFiles).1.flatten =
      completeListing (regularNames fewFiles) := by
    decide +kernel
  exact ⟨whole, (listing_whole_iff [] some).mp whole⟩

end Spqr
