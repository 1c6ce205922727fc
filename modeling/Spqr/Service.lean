/-
Module: Spqr.Service
Purpose: What a session is for: `GET` copies a file from `server-files/` to
  `client-files/`, `PUT` one that the server lacks the other way; and a session
  together with the two directories that its parties work on.
Trusted boundary: none
Main exports:
  Files, Service, Exchange, Service.Step, Service.kept, Service.origin, Site,
  Site.step, Backed, Undisturbed
-/
import Mathlib.Data.List.AList
import Spqr.Lockstep

namespace Spqr

open Labelled

/-- The regular files of a directory that holds nothing else. -/
abbrev Files := AList fun _ : Text => List UInt8

namespace Files

variable {files : Files} {name : Text} {contents : List UInt8}

/-- A file that is made and removed leaves the others. -/
theorem erase_insert : (files.insert name contents).erase name = files.erase name := by
  apply AList.ext
  exact List.kerase_cons_eq rfl

/-- Where there was none, all of them. -/
theorem erase_insert_of_new (new : name ∉ files) :
    (files.insert name contents).erase name = files := by
  rw [erase_insert]
  exact AList.ext (List.kerase_of_notMem_keys new)

end Files

/-! ### The service -/

/-- `client-files/` and `server-files/`. -/
structure Service where
  client : Files
  server : Files

/-- What one command has done to them. -/
inductive Exchange where
  | get (name : Text)
  /-- A `GET` that fails removes the client's own file of that name. -/
  | lose (name : Text)
  | put (name : Text)

namespace Service

inductive Step : Service → Exchange → Service → Prop where
  | get {client server : Files} {name : Text} {contents : List UInt8}
      (stored : server.lookup name = some contents) :
      Step ⟨client, server⟩ (.get name) ⟨client.insert name contents, server⟩
  | lose {client server : Files} {name : Text} (asked : name ∈ server) :
      Step ⟨client, server⟩ (.lose name) ⟨client.erase name, server⟩
  | put {client server : Files} {name : Text} {contents : List UInt8}
      (chosen : client.lookup name = some contents) (new : name ∉ server) :
      Step ⟨client, server⟩ (.put name) ⟨client, server.insert name contents⟩

variable {before after : Service} {exchanges : List Exchange} {name : Text}
  {contents : List UInt8}

/-- What the server has it keeps. -/
theorem kept (run : Run Step before exchanges after)
    (stored : before.server.lookup name = some contents) :
    after.server.lookup name = some contents := by
  induction run with
  | refl => exact stored
  | tail _ taken holds =>
      cases taken with
      | get => exact holds
      | lose => exact holds
      | @put client server other _ chosen new =>
          have elsewhere : name ≠ other := by
            rintro rfl
            exact new (AList.lookup_isSome.mp (by rw [holds]; rfl))
          rw [AList.lookup_insert_ne elsewhere]
          exact holds

/-- One of the two directories has this file. -/
def Holds (s : Service) (name : Text) (contents : List UInt8) : Prop :=
  s.client.lookup name = some contents ∨ s.server.lookup name = some contents

/-- Nothing is in a file that was not under its name from the start. -/
theorem origin (run : Run Step before exchanges after)
    (found : after.Holds name contents) : before.Holds name contents := by
  induction run with
  | refl => exact found
  | tail prior taken inductionHypothesis =>
      apply inductionHypothesis
      cases taken with
      | @get client server other contents' stored =>
          rcases found with found | found
          · by_cases same : name = other
            · subst same
              rw [AList.lookup_insert] at found
              exact .inr (found ▸ stored)
            · rw [AList.lookup_insert_ne same] at found
              exact .inl found
          · exact .inr found
      | @lose client server other asked =>
          rcases found with found | found
          · by_cases same : name = other
            · subst same
              rw [AList.lookup_erase] at found
              simp at found
            · rw [AList.lookup_erase_ne same] at found
              exact .inl found
          · exact .inr found
      | @put client server other contents' chosen new =>
          rcases found with found | found
          · exact .inl found
          · by_cases same : name = other
            · subst same
              rw [AList.lookup_insert] at found
              exact .inl (found ▸ chosen)
            · rw [AList.lookup_insert_ne same] at found
              exact .inr found

end Service

/-! ### A session and its directories -/

/-- A session, the files of both parties, and the names in `client_pathname` and
`server_pathname`. -/
structure Site where
  session : Session
  clientFiles : Files
  serverFiles : Files
  clientPathname : Text
  serverPathname : Text

/-- `fopen(pathname, "wb")` -/
def Files.create (opens : Bool) (name : Text) (files : Files) : Files :=
  if opens then files.insert name [] else files

/-- `main_receiver` has written so far, or the stream has been closed, or the file
has been removed. Nobody reads the file before it is closed. -/
def Receiver.save (stream : Stream) (r : Receiver) (name : Text) (files : Files) : Files :=
  if r.result = none then files.insert name r.file
  else
    match r.destination stream with
    | some contents => files.insert name contents
    | none => files.erase name

/-- What the disk and `fclose` do in one step. -/
def Environment.stream (inst : Installation) (env : Environment) : Stream :=
  ⟨inst.fwrite, env.closes, env.kept⟩

/-- `client_pathname` and `client-files/` after the client's reaction to a
datagram. -/
def Client.files (inst : Installation) (env : Environment) (c : Client)
    (datagram : Datagram) (pathname : Text) (files : Files) : Text × Files :=
  let message := cString datagram.payload.bytes
  match c.pc with
  | .getAwaitReply =>
      if message = SPQR_FILENAME_NOT_FOUND then (pathname, files)
      else (message, files.create env.opens message)
  | .receiving _ r =>
      match receiverRead inst env r datagram.payload with
      | some (r, _) => (pathname, r.save (env.stream inst) pathname files)
      | none => (pathname, files)
  | _ => (pathname, files)

/-- `server_pathname` and `server-files/` after the server's. -/
def Server.files (inst : Installation) (env : Environment) (s : Server)
    (datagram : Datagram) (pathname : Text) (files : Files) : Text × Files :=
  let message := cString datagram.payload.bytes
  match s.pc with
  | .getAwaitFilename => (if message ∈ env.listing then message else pathname, files)
  | .putAwaitName =>
      if message = feedback.ABORT ∨ message ∈ env.listing then (pathname, files)
      else (message, files.create env.opens message)
  | .receiving _ r _ =>
      match receiverRead inst env r datagram.payload with
      | some (r, _) => (pathname, r.save (env.stream inst) pathname files)
      | none => (pathname, files)
  | _ => (pathname, files)

namespace Site

/-- The connection is open, and nothing has been typed. -/
def opened (client server : Files) : Site where
  session := .initial
  clientFiles := client
  serverFiles := server
  clientPathname := []
  serverPathname := []

/-- The client has taken a datagram. -/
def clientTook (inst : Installation) (env : Environment) (s : Site)
    (datagram : Datagram) (session : Session) : Site :=
  let (pathname, files) :=
    s.session.client.files inst env datagram s.clientPathname s.clientFiles
  { s with session := session, clientPathname := pathname, clientFiles := files }

/-- The server has. -/
def serverTook (inst : Installation) (env : Environment) (s : Site)
    (datagram : Datagram) (session : Session) : Site :=
  let (pathname, files) :=
    s.session.server.files inst env datagram s.serverPathname s.serverFiles
  { s with session := session, serverPathname := pathname, serverFiles := files }

/-- The state after a move, if the move can happen. -/
def step (inst : Installation) (s : Site) (move : Move) : Option Site := do
  let session ← s.session.step inst move
  match move with
  | .toServer k env => do
      let datagram ← s.session.toServer[k]?
      pure (s.serverTook inst env datagram session)
  | .toClient k env => do
      let datagram ← s.session.toClient[k]?
      pure (s.clientTook inst env datagram session)
  | _ => pure { s with session := session }

end Site

/-- What a party finds around it is in its directory: the names in any order, and the
contents of the file that `main_sender` opens. The directory itself is not opened for
writing. -/
def Backed (s : Site) : Move → Prop
  | .type _ env => env.listing.Perm s.clientFiles.keys
  | .toServer _ env => env.listing.Perm s.serverFiles.keys ∧
      match s.session.server.pc with
      | .getAwaitStart => env.opens = true →
          s.serverFiles.lookup s.serverPathname = some env.contents
      | _ => True
  | .toClient _ env =>
      match s.session.client.pc with
      | .putAwaitStart name => env.opens = true →
          s.clientFiles.lookup name = some env.contents
      | _ => True
  | .clientTimeout env =>
      match s.session.client.pc with
      | .getAwaitReply => env.opens = false
      | _ => True
  | .serverTimeout _ => True

/-- The server answers a command within the second that `get_user_input` waits. -/
def InTime (s : Session) : Move → Prop
  | .clientTimeout _ =>
      match s.client.pc with
      | .awaitReply => Quiet s
      | _ => True
  | _ => True

/-- The parties work on their directories and take none of the branches that put them
out of step. -/
structure Undisturbed (s : Site) (move : Move) : Prop where
  backed : Backed s move
  prudent : Prudent s.session move
  unhurried : Unhurried s.session move
  inTime : InTime s.session move

/-- The step relation of a site. -/
def Site.Step (inst : Installation) (before : Site) (move : Move) (after : Site) :
    Prop :=
  before.step inst move = some after

instance (s : Site) (move : Move) : Decidable (Backed s move) := by
  induction move using Move.casesOn <;> unfold Backed
  · infer_instance
  · generalize s.session.server.pc = pc
    induction pc using ServerPc.casesOn <;> infer_instance
  · generalize s.session.client.pc = pc
    induction pc using ClientPc.casesOn <;> infer_instance
  · generalize s.session.client.pc = pc
    induction pc using ClientPc.casesOn <;> infer_instance
  · infer_instance

instance (s : Session) (move : Move) : Decidable (InTime s move) := by
  induction move using Move.casesOn <;> unfold InTime
  · infer_instance
  · infer_instance
  · infer_instance
  · generalize s.client.pc = pc
    induction pc using ClientPc.casesOn <;> infer_instance
  · infer_instance

instance (s : Site) (move : Move) : Decidable (Undisturbed s move) :=
  decidable_of_iff
    (Backed s move ∧ Prudent s.session move ∧ Unhurried s.session move ∧
      InTime s.session move)
    ⟨fun ⟨backed, prudent, unhurried, inTime⟩ => ⟨backed, prudent, unhurried, inTime⟩,
      fun undisturbed =>
        ⟨undisturbed.backed, undisturbed.prudent, undisturbed.unhurried, undisturbed.inTime⟩⟩

/-- The parties of a site do what they do in a session. -/
theorem Site.moved {inst : Installation} {before after : Site} {move : Move}
    (taken : before.Step inst move after) :
    before.session.Step inst move after.session := by
  unfold Site.Step Site.step at taken
  simp only [Option.bind_eq_bind, Option.bind_eq_some_iff] at taken
  obtain ⟨session, moved, result⟩ := taken
  cases move with
  | toServer k env =>
      simp only [Option.bind_eq_some_iff, Option.pure_def, Option.some.injEq] at result
      obtain ⟨d, found, rfl⟩ := result
      exact moved
  | toClient k env =>
      simp only [Option.bind_eq_some_iff, Option.pure_def, Option.some.injEq] at result
      obtain ⟨d, found, rfl⟩ := result
      exact moved
  | _ =>
      obtain rfl := Option.some.inj result
      exact moved

end Spqr
