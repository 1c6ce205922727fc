/-
Module: Spqr.Texts
Purpose: The text messages of a session: the commands, the feedback and what
  the server answers, as the bytes that are sent.
Trusted boundary: none
Main exports:
  Text, readLine, cString, bufferHolds, overruns, spqrUpper, listServerFiles
-/
import Spqr.Packet

namespace Spqr

/-- A C string, without its terminator. -/
abbrev Text := List UInt8

instance : LawfulBEq Text := inferInstance

def text (literal : String) : Text := literal.toUTF8.toList

/-- `MAX_READ_LINE` -/
def MAX_READ_LINE : ℕ := 1024

namespace udp

def FIN : Text := text "FIN"
def FINACK : Text := text "FINACK"

end udp

namespace cmd

def LIST : Text := text "LIST"
def GET : Text := text "GET"
def PUT : Text := text "PUT"
def CLOSE : Text := text "CLOSE"

end cmd

namespace file

def EXIST : Text := text "EXIST"
def NOT_EXIST : Text := text "NOT_EXIST"

end file

namespace feedback

def START_TRANSFER : Text := text "START_TRANSFER"
def TRANSFER_COMPLETED : Text := text "TRANSFER_COMPLETED"
def TRANSFER_ERROR : Text := text "TRANSFER_ERROR"
def EXIT : Text := text "EXIT"
def ABORT : Text := text "ABORT"

end feedback

def SPQR_INSERT_FILENAME : Text := text "📂 Insert file to transfer: "
def SPQR_FILENAME_NOT_FOUND : Text := text "❓ Filename not found."
def SPQR_COMMAND_NOT_FOUND : Text := text "⚠️ Command not found, please retry.\n"

/-! ### Texts on which the loops branch -/

theorem PUT_ne_GET : cmd.PUT ≠ cmd.GET := by
  decide +kernel

theorem CLOSE_ne : cmd.CLOSE ≠ cmd.GET ∧ cmd.CLOSE ≠ cmd.PUT := by
  decide +kernel

theorem EXIT_ne : feedback.EXIT ≠ cmd.LIST ∧ feedback.EXIT ≠ cmd.GET ∧
    feedback.EXIT ≠ cmd.PUT ∧ feedback.EXIT ≠ cmd.CLOSE := by
  decide +kernel

theorem NOT_EXIST_ne : file.NOT_EXIST ≠ file.EXIST ∧ file.NOT_EXIST ≠ cmd.GET ∧
    file.NOT_EXIST ≠ cmd.PUT ∧ file.NOT_EXIST ≠ cmd.CLOSE := by
  decide +kernel

/-! ### Strings in buffers -/

/-- What `fgets` and the cut at the newline leave of a typed line. -/
def readLine (typed : List UInt8) : Text :=
  (typed.take (MAX_READ_LINE - 1)).takeWhile fun byte => byte != 10 && byte != 0

/-- The string in a buffer of `MAX_READ_LINE` zeros after a datagram has been
read into it. -/
def cString (datagram : List UInt8) : Text :=
  (datagram.take MAX_READ_LINE).takeWhile fun byte => byte != 0

/-- `strcmp(buffer, message) == 0`, where that is decided inside the buffer. -/
def bufferHolds (buffer : List UInt8) (message : Text) : Bool :=
  (message ++ [0]).isPrefixOf buffer

/-- `strcmp(buffer, message)` reads on past the end of the buffer. -/
def overruns (buffer : List UInt8) (message : Text) : Bool :=
  buffer.isPrefixOf message

/-- `toupper` in the C locale. -/
def toUpper (byte : UInt8) : UInt8 :=
  if 97 ≤ byte ∧ byte ≤ 122 then byte - 32 else byte

/-- `spqr_upper` -/
def spqrUpper (message : Text) : Text := message.map toUpper

/-! ### The listing -/

/-- `strrchr(filename, '.')` -/
def extension (filename : Text) : Option Text :=
  if filename.contains 46 then
    some (46 :: (filename.reverse.takeWhile fun byte => byte != 46).reverse)
  else none

/-- `get_file_emoji` -/
def getFileEmoji (filename : Text) : Text :=
  match extension filename with
  | none => text "❓"
  | some ext =>
      if ext = text ".txt" then text "📄"
      else if ext = text ".jpg" ∨ ext = text ".jpeg" ∨ ext = text ".png" then
        text "🖼️"
      else if ext = text ".mp4" then text "🎥"
      else if ext = text ".mp3" then text "🎵"
      else if ext = text ".pdf" then text "📚"
      else if ext = text ".zip" then text "📦"
      else text "📂"

/-- `"  %s %s\n"` -/
def listingEntry (filename : Text) : Text :=
  text "  " ++ getFileEmoji filename ++ text " " ++ filename ++ text "\n"

/-- The loop of `get_server_files` over the names, with the text in the buffer:
a full buffer is sent, with its last entry cut, and a new one is begun. -/
def listNames : Text → List Text → List Text
  | buffer, [] => if buffer = [] then [] else [buffer]
  | buffer, filename :: names =>
      let buffer := buffer ++ listingEntry filename
      if MAX_READ_LINE - 1 ≤ buffer.length then
        buffer.take (MAX_READ_LINE - 1) :: listNames [] names
      else listNames buffer names

/-- The datagrams that `get_server_files(child_sockfd, false, "")` sends for
these regular files. -/
def listServerFiles (names : List Text) : List Text :=
  if names = [] then [text "\n⚠️  Still no files for now.\n"]
  else listNames (text "List of files availables on the server:\n") names

end Spqr
