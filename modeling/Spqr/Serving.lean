/-
Module: Spqr.Serving
Purpose: A session on its two directories is a run of the service: whatever is
  typed, delayed or timed out, files change only as `GET` and `PUT` say.
Trusted boundary: none
Main exports:
  Shows, Link, Serving, Serving.step, serves, server_files_persist,
  files_genuine
-/
import Spqr.Lib.Simulation
import Spqr.Service
import Spqr.Turns

namespace Spqr

open Labelled Transfer

variable {inst : Installation} {svc : Service}

/-! ### What the directories show -/

/-- A directory in which the client is receiving a file: the bytes so far are there
instead. -/
def ClientPc.shown (name : Text) (files : Files) : ClientPc → Files
  | .receiving _ r => files.insert name r.file
  | _ => files

/-- The same of the server. -/
def ServerPc.shown (name : Text) (files : Files) : ServerPc → Files
  | .receiving _ r _ => files.insert name r.file
  | _ => files

/-- The directories hold what the service says, but for a file that is arriving. -/
structure Shows (s : Site) (svc : Service) : Prop where
  client : s.clientFiles = s.session.client.pc.shown s.clientPathname svc.client
  server : s.serverFiles = s.session.server.pc.shown s.serverPathname svc.server

/-! ### What the two parties agree on -/

/-- Both ends of a transfer mean the same file, and it is the one that is sent. -/
def Link (inst : Installation) (svc : Service) (clientName serverName : Text)
    (c : Client) (s : Server) (toServer toClient : List Datagram) : Prop :=
  match c.pc, s.pc with
  | .getAwaitReply, .getAwaitStart => c.request = serverName
  | .receiving _ _, .getAwaitStart => clientName = serverName
  | .receiving _ r, .sending _ sender => clientName = serverName ∧
      ∃ contents packets acks, svc.server.lookup serverName = some contents ∧
        Ongoing inst contents ⟨sender, r, packets, acks⟩ toClient toServer
  | .receiving _ _, .head => clientName ∈ svc.server
  | .putAwaitExist name, .receiving _ _ _ => name = serverName
  | .putAwaitStart name, .receiving _ _ _ => name = serverName
  | .sending _ sender, .receiving _ r _ =>
      ∃ contents packets acks, svc.client.lookup serverName = some contents ∧
        Ongoing inst contents ⟨sender, r, packets, acks⟩ toServer toClient
  | _, _ => True

/-- The client is at neither end of a transfer. -/
def ClientPc.Plain : ClientPc → Prop
  | .getAwaitReply => False
  | .receiving _ _ => False
  | .putAwaitExist _ => False
  | .putAwaitStart _ => False
  | .sending _ _ => False
  | _ => True

/-- It closes the connection, or has closed it. -/
def ClientPc.Closing : ClientPc → Prop
  | .closeAwaitFINACK => True
  | .closeAwaitFIN => True
  | .finished => True
  | _ => False

/-- Nothing that the server still reads starts a transfer. -/
def Released (s : Server) (toServer : List Datagram) : Prop :=
  match s.pc with
  | .head => ∀ d ∈ toServer,
      d.payload = .text udp.FIN ∨ d.payload = .text udp.FINACK
  | .closeAwaitFIN => True
  | .closeAwaitFINACK => True
  | .exited => True
  | _ => False

section

variable {clientName serverName : Text} {c c' : Client} {s s' : Server}
  {toServer toClient out : List Datagram}

theorem ClientPc.Plain.link {pc : ClientPc} {request : Text} {n : ℕ} (plain : pc.Plain) :
    Link inst svc clientName serverName ⟨pc, request, n⟩ s toServer toClient := by
  unfold Link
  cases pc <;> trivial

theorem ClientPc.Plain.shown {pc : ClientPc} (plain : pc.Plain) (files : Files) :
    pc.shown clientName files = files := by
  cases pc with
  | receiving => exact plain.elim
  | _ => rfl

/-- At the head of its loop the client is at a prompt, unless the command is
`CLOSE`. -/
theorem Client.start_plain {pc : ClientPc} {request : Text} {n : ℕ}
    (starts : Client.start ⟨pc, request, n⟩ = (c', out)) :
    c'.pc.Plain ∧
      (c'.pc.Closing → request = cmd.CLOSE ∧
        ∀ d ∈ out, d.payload = .text udp.FIN) := by
  unfold Client.start at starts
  split_ifs at starts with close <;> obtain ⟨rfl, rfl⟩ := Prod.mk.inj starts
  · exact ⟨trivial, fun _ => ⟨close, by simp⟩⟩
  all_goals exact ⟨trivial, fun closing => closing.elim⟩

/-- What a client that closes the connection sends changes nothing. -/
theorem Released.append (released : Released s toServer)
    (texts : ∀ d ∈ out, d.payload = .text udp.FIN ∨ d.payload = .text udp.FINACK) :
    Released s (toServer ++ out) := by
  unfold Released at released ⊢
  split at released
  · intro d member
    rcases List.mem_append.mp member with old | new
    · exact released d old
    · exact texts d new
  all_goals exact released

end

/-- The service stays as it is or makes one exchange. -/
def Advances (before after : Service) : Prop :=
  before = after ∨ ∃ exchange, Service.Step before exchange after

theorem Advances.run {before after : Service} (advances : Advances before after) :
    ∃ exchanges, Run Service.Step before exchanges after := by
  rcases advances with rfl | ⟨exchange, taken⟩
  · exact ⟨[], .refl⟩
  · exact ⟨[exchange], .single taken⟩

/-- What is known between two steps of a session. -/
structure Serving (inst : Installation) (s : Site) (svc : Service) : Prop where
  lock : s.session.InLockstep inst True
  shows : Shows s svc
  /-- An upload has a new name. -/
  fresh : ∀ t r size, s.session.server.pc = .receiving t r size →
    s.serverPathname ∉ svc.server
  link : Link inst svc s.clientPathname s.serverPathname s.session.client
    s.session.server s.session.toServer s.session.toClient
  leaving : s.session.client.pc.Closing →
    Released s.session.server s.session.toServer

/-! ### The client's steps -/

/-- What the client's step leaves: the service has gone on at the client's side
only. -/
structure ClientDone (inst : Installation) (svc : Service) (serverName : Text)
    (c' : Client) (s : Server) (toServer toClient : List Datagram)
    (left : Text × Files) (svc' : Service) : Prop where
  advances : Advances svc svc'
  server : svc'.server = svc.server
  shows : left.2 = c'.pc.shown left.1 svc'.client
  link : Link inst svc' left.1 serverName c' s toServer toClient
  leaving : c'.pc.Closing → Released s toServer

section

variable {c c' : Client} {s : Server} {toServer toClient out : List Datagram}
  {clock k : ℕ} {d : Datagram} {env : Environment} {clientName serverName : Text}

/-- A client that is at neither end of a transfer afterwards has changed nothing. -/
theorem ClientDone.of_plain (plain : c'.pc.Plain)
    (leaving : c'.pc.Closing → Released s toServer) :
    ClientDone inst svc serverName c' s toServer toClient (clientName, svc.client) svc where
  advances := .inl rfl
  server := rfl
  shows := (plain.shown _).symm
  link := plain.link
  leaving := leaving

/-- The receiver has written some more. -/
theorem save_running {stream : Stream} {r r' : Receiver} {files : Files} {name : Text}
    (running : r'.result = none) :
    r'.save stream name (files.insert name r.file) = files.insert name r'.file := by
  rw [Receiver.save, if_pos running]
  exact AList.insert_insert _

/-- It has all of the file. -/
theorem save_finished {file : List UInt8} {T : Transfer}
    {packets acks : List Datagram} (ongoing : Ongoing inst file T packets acks)
    (complete : Complete inst.fwrite) (finished : T.receiver.Finished) {r : Receiver}
    {stream : Stream} (closes : stream.closes = true) {files : Files} {name : Text} :
    T.receiver.save stream name (files.insert name r.file) = files.insert name file := by
  have success : T.receiver.result = some EXIT_SUCCESS := by
    refine finished.resolve_right fun short => ?_
    obtain ⟨k, incomplete⟩ := ongoing.genuine.receiver.short short
    exact absurd (complete k) (Nat.not_le.mpr incomplete)
  rw [Receiver.save, if_neg (by simp [success]),
    ongoing.genuine.receiver.destination_eq closes success]
  exact AList.insert_insert _

/-- The client takes a datagram. -/
theorem Serving.clientTakes (complete : Complete inst.fwrite)
    (lock : Lockstep inst True c s toServer toClient)
    (allowed : Allowed True ⟨c, s, toServer, toClient, clock⟩ (.toClient k env))
    (backed : Backed ⟨⟨c, s, toServer, toClient, clock⟩,
      c.pc.shown clientName svc.client, svc.server, clientName, serverName⟩
        (.toClient k env))
    (link : Link inst svc clientName serverName c s toServer toClient)
    (leaving : c.pc.Closing → Released s toServer)
    (found : toClient[k]? = some d)
    (receives : c.receive inst env clock d = some (c', out)) :
    ∃ svc', ClientDone inst svc serverName c' s (toServer ++ out) (toClient.eraseIdx k)
      (c.files inst env d clientName (c.pc.shown clientName svc.client)) svc' := by
  have turn := allowed.prudent d found
  have unhurried := allowed.unhurried trivial d found
  simp only at turn unhurried
  cases lock with
  | answered follows answers noFinack =>
      obtain ⟨rfl, rfl⟩ := Channels.at_singleton found
      simp only [Client.receive, Option.some.injEq] at receives
      rw [Client.afterUserInput, if_neg follows.noExit] at receives
      obtain ⟨plain, closing⟩ := Client.start_plain receives
      refine ⟨svc, .of_plain plain fun close => ?_⟩
      have pc := follows.pc
      rw [(closing close).1, if_neg (by decide +kernel), if_neg (by decide +kernel),
        if_pos rfl] at pc
      simp [Released, pc]
  | late fine noFinack =>
      obtain rfl := turn.oldest
      obtain rfl := Option.some.inj found
      simp only [Client.receive, if_neg noFinack] at receives
      obtain ⟨rfl, rfl⟩ := Prod.mk.inj (Option.some.inj receives)
      refine ⟨svc, .of_plain trivial fun _ => ?_⟩
      rw [List.append_nil]
      exact leaving trivial
  | missing =>
      obtain ⟨rfl, rfl⟩ := Channels.at_singleton found
      simp only [Client.receive, Payload.bytes, cString_NOT_FOUND, if_true,
        Option.some.injEq] at receives
      obtain ⟨plain, closing⟩ := Client.start_plain receives
      simp only [Client.files, Payload.bytes, cString_NOT_FOUND, if_true]
      refine ⟨svc, .of_plain plain fun close => ?_⟩
      exact absurd (closing close).1 (by decide +kernel)
  | @found line accepted n m whole harmless other =>
      obtain ⟨rfl, rfl⟩ := Channels.at_singleton found
      simp only [Client.receive, Payload.bytes, whole, if_neg other,
        Option.some.injEq, Client.mainReceiver] at receives
      simp only [ClientPc.Unhurried, Payload.bytes, whole] at unhurried
      rw [if_pos (unhurried other)] at receives
      obtain ⟨rfl, rfl⟩ := Prod.mk.inj receives
      simp only [Client.files, Payload.bytes, whole, if_neg other, Files.create,
        if_pos (unhurried other)]
      exact ⟨svc, .inl rfl, rfl, rfl, link, fun closing => closing.elim⟩
  | @getting line accepted n m t _ T _ _ fine harmless ongoing listening =>
      obtain ⟨same, contents, packets, acks, stored, ongoing⟩ := link
      simp only [Client.receive] at receives
      obtain ⟨⟨r, sent⟩, reads, result⟩ := Option.map_eq_some_iff.mp receives
      have closes : env.closes = true := unhurried
      obtain ⟨outcome, next⟩ := ongoing.receiverRead listening found closes reads
        (Client.acksOf_payload ⟨.receiving t T.receiver, line, n⟩ t sent)
      simp only [Client.files, reads, ClientPc.shown]
      rcases outcome with listening | ⟨finished, ret, returned, success⟩
      · simp only [listening] at result
        obtain ⟨rfl, rfl⟩ := Prod.mk.inj result
        exact ⟨svc, .inl rfl, rfl, save_running listening,
          ⟨same, contents, _, _, stored, next⟩, fun closing => closing.elim⟩
      · simp only [returned, Client.afterLoop, closes, if_true, success] at result
        obtain ⟨rfl, rfl⟩ := Prod.mk.inj result
        exact ⟨⟨svc.client.insert clientName contents, svc.server⟩,
          .inr ⟨.get clientName, .get (same ▸ stored)⟩, rfl,
          save_finished next complete finished closes, trivial, fun closing => closing.elim⟩
  | outliving fine harmless ongoing finished =>
      have noText := ongoing.noText d (List.mem_of_getElem? found)
      simp only [Client.receive, unhurried.2 noText, Bool.false_eq_true,
        if_false] at receives
      obtain ⟨rfl, rfl⟩ := Prod.mk.inj (Option.some.inj receives)
      exact ⟨svc, .of_plain trivial fun closing => closing.elim⟩
  | @abandoned line accepted n m t r e marker fine harmless listening error text =>
      have first : k = 0 := by
        cases k with
        | zero => rfl
        | succ k =>
            obtain ⟨_, rfl⟩ := Channels.at_singleton found
            exact turn.of_text ⟨_, text⟩
      subst first
      obtain rfl := Option.some.inj found
      have closes : env.closes = true := unhurried
      simp only [Client.receive, error, receiverRead_error, Option.map_some,
        Client.afterLoop, closes, if_true] at receives
      obtain ⟨rfl, rfl⟩ := Prod.mk.inj (Option.some.inj receives)
      refine ⟨⟨svc.client.erase clientName, svc.server⟩,
        .inr ⟨.lose clientName, .lose link⟩, rfl, ?_, trivial,
        fun closing => closing.elim⟩
      simp only [Client.files, error, receiverRead_error, Receiver.save,
        Receiver.destination, Environment.stream, closes, and_self, if_true,
        reduceCtorEq, if_false]
      exact Files.erase_insert
  | @got line accepted n m t ret buffer packets marker harmless marked =>
      simp only [Client.receive] at receives
      split_ifs at receives with ends
      · obtain ⟨plain, closing⟩ := Client.start_plain (Option.some.inj receives)
        refine ⟨svc, .of_plain plain fun close => ?_⟩
        exact fun e member => .inl ((closing close).2 e member)
      · obtain ⟨rfl, rfl⟩ := Prod.mk.inj (Option.some.inj receives)
        exact ⟨svc, .of_plain trivial fun closing => closing.elim⟩
  | refused =>
      obtain ⟨rfl, rfl⟩ := Channels.at_singleton found
      simp only [Client.receive, Payload.bytes, cString_EXIST, if_true,
        Option.some.injEq] at receives
      obtain ⟨plain, closing⟩ := Client.start_plain receives
      refine ⟨svc, .of_plain plain fun close => ?_⟩
      exact absurd (closing close).1 (by decide +kernel)
  | welcomed =>
      obtain rfl := turn.oldest
      obtain rfl := Option.some.inj found
      simp only [Client.receive, Payload.bytes, cString_NOT_EXIST] at receives
      rw [if_neg (by decide +kernel)] at receives
      obtain ⟨rfl, rfl⟩ := Prod.mk.inj (Option.some.inj receives)
      exact ⟨svc, .inl rfl, rfl, rfl, link, fun closing => closing.elim⟩
  | storing =>
      obtain ⟨rfl, rfl⟩ := Channels.at_singleton found
      simp only [Client.receive, Payload.bytes, cString_START, if_true,
        Option.getD_some] at receives
      obtain ⟨opens, fits⟩ := unhurried cString_START
      rw [Client.mainSender, if_pos opens] at receives
      obtain ⟨⟨sender, packets⟩, started, result⟩ := Option.map_eq_some_iff.mp receives
      obtain ⟨rfl, rfl⟩ := Prod.mk.inj result
      obtain rfl : _ = serverName := link
      exact ⟨svc, .inl rfl, rfl, rfl,
        ⟨env.contents, _, _, backed opens,
          .start fits started (Client.packetsOf_payload _ _ _)⟩,
        fun closing => closing.elim⟩
  | @putting accepted n m t size _ T _ _ fine ongoing listening =>
      obtain ⟨contents, packets, acks, stored, ongoing⟩ := link
      obtain ⟨T', rfl, same, next⟩ := Client.sends ongoing found receives
      refine ⟨svc, .inl rfl, rfl, rfl, ⟨contents, T'.packets, T'.acks, stored, ?_⟩,
        fun closing => closing.elim⟩
      rw [← same]
      exact next
  | stored fine ongoing finished =>
      obtain ⟨T', rfl, same, next⟩ := Client.sends ongoing found receives
      exact ⟨svc, .inl rfl, rfl, rfl, trivial, fun closing => closing.elim⟩
  | acknowledged agreed =>
      obtain rfl := turn.oldest
      obtain rfl := Option.some.inj found
      simp only [Client.receive, Payload.bytes, cString_FINACK, if_true] at receives
      obtain ⟨rfl, rfl⟩ := Prod.mk.inj (Option.some.inj receives)
      exact ⟨svc, .of_plain trivial fun _ => trivial⟩
  | ending =>
      obtain ⟨rfl, rfl⟩ := Channels.at_singleton found
      simp only [Client.receive, Payload.bytes, cString_FIN, if_true] at receives
      obtain ⟨rfl, rfl⟩ := Prod.mk.inj (Option.some.inj receives)
      exact ⟨svc, .of_plain trivial fun _ => trivial⟩
  | finished => simp [Client.receive] at receives
  | unwelcome coarse => exact absurd trivial coarse
  | stuck coarse => exact absurd trivial coarse
  | _ => simp at found

/-- The user types a line. -/
theorem Serving.types (lock : Lockstep inst True c s toServer toClient)
    {typed : List UInt8} (types : c.type env typed = some (c', out)) :
    ClientDone inst svc serverName c' s (toServer ++ out) toClient
      (clientName, c.pc.shown clientName svc.client) svc := by
  cases lock with
  | behind behind ahead =>
      cases ahead with
      | prompt =>
          simp only [Client.type, Option.some.injEq] at types
          obtain ⟨rfl, rfl⟩ := Prod.mk.inj types
          exact .of_plain trivial fun closing => closing.elim
      | _ => simp [Client.type] at types
  | naming =>
      simp only [Client.type, Option.some.injEq] at types
      obtain ⟨rfl, rfl⟩ := Prod.mk.inj types
      exact ⟨.inl rfl, rfl, rfl, trivial, fun closing => closing.elim⟩
  | choosing =>
      simp only [Client.type] at types
      split_ifs at types with known
      · obtain ⟨rfl, rfl⟩ := Prod.mk.inj (Option.some.inj types)
        exact ⟨.inl rfl, rfl, rfl, trivial, fun closing => closing.elim⟩
      · simp only [Option.some.injEq, Client.andThen, Client.sendText] at types
        obtain rfl := congrArg Prod.fst types
        obtain ⟨plain, closing⟩ := Client.start_plain rfl
        refine .of_plain plain fun close => ?_
        exact absurd (closing close).1 (by decide +kernel)
  | stuck coarse => exact absurd trivial coarse
  | _ => simp [Client.type] at types

/-- The client's `recvfrom` times out. -/
theorem Serving.clientExpires (lock : Lockstep inst True c s toServer toClient)
    (allowed : Allowed True ⟨c, s, toServer, toClient, clock⟩ (.clientTimeout env))
    (inTime : InTime ⟨c, s, toServer, toClient, clock⟩ (.clientTimeout env))
    (link : Link inst svc clientName serverName c s toServer toClient)
    (expires : c.timeout inst env clock = some (c', out)) :
    ClientDone inst svc serverName c' s (toServer ++ out) toClient
      (clientName, c.pc.shown clientName svc.client) svc := by
  have prudent := allowed.prudent
  simp only [Prudent] at prudent
  simp only [InTime] at inTime
  have closing_NOT_EXIST : file.NOT_EXIST ≠ cmd.CLOSE := by decide +kernel
  cases lock with
  | behind behind ahead =>
      cases ahead with
      | asked whole => exact absurd inTime.1 (by simp)
      | _ => simp [Client.timeout] at expires
  | answered follows answers noFinack => exact absurd inTime.2 (by simp)
  | unanswered =>
      simp only [Client.timeout, Client.afterUserInput_EXIT, Option.some.injEq] at expires
      obtain ⟨rfl, rfl⟩ := Prod.mk.inj expires
      exact .of_plain trivial fun _ => trivial
  | named => exact absurd prudent.1 (by simp)
  | missing => exact absurd prudent.2 (by simp)
  | found => exact absurd prudent.2 (by simp)
  | outliving fine harmless ongoing finished =>
      simp only [Client.timeout] at expires
      obtain ⟨rfl, rfl⟩ := Prod.mk.inj (Option.some.inj expires)
      exact .of_plain trivial fun closing => closing.elim
  | got harmless marked =>
      simp only [Client.timeout] at expires
      obtain ⟨rfl, rfl⟩ := Prod.mk.inj (Option.some.inj expires)
      exact .of_plain trivial fun closing => closing.elim
  | @putting accepted n m t size _ T _ _ fine ongoing listening =>
      obtain ⟨contents, packets, acks, stored, ongoing⟩ := link
      rcases Client.sendingExpires ongoing expires with
        ⟨T', rfl, same, next⟩ | ⟨_, finished, _⟩ | ⟨_, _, e, later, _, rfl, starts⟩
      · refine ⟨.inl rfl, rfl, rfl, ⟨contents, T'.packets, T'.acks, stored, ?_⟩,
          fun closing => closing.elim⟩
        rw [← same]
        exact next
      · simp [Receiver.Finished, listening] at finished
      · obtain ⟨plain, closing⟩ := Client.start_plain starts
        exact .of_plain plain fun close => absurd (closing close).1 closing_NOT_EXIST
  | stored fine ongoing finished =>
      rcases Client.sendingExpires ongoing expires with
        ⟨T', rfl, same, next⟩ | ⟨_, _, completes⟩ | ⟨_, _, e, later, _, rfl, starts⟩
      · exact ⟨.inl rfl, rfl, rfl, trivial, fun closing => closing.elim⟩
      · simp only [Client.completed, Client.andThen, Client.sendText] at completes
        obtain rfl := congrArg Prod.fst completes
        obtain ⟨plain, closing⟩ := Client.start_plain rfl
        exact .of_plain plain fun close => absurd (closing close).1 closing_NOT_EXIST
      · obtain ⟨plain, closing⟩ := Client.start_plain starts
        exact .of_plain plain fun close => absurd (closing close).1 closing_NOT_EXIST
  | stuck coarse => exact absurd trivial coarse
  | _ => simp [Client.timeout] at expires

end

/-! ### The server's steps -/

/-- What the server's step leaves. -/
structure ServerDone (inst : Installation) (svc : Service) (clientName : Text)
    (c : Client) (s' : Server) (toServer toClient : List Datagram)
    (left : Text × Files) (svc' : Service) : Prop where
  advances : Advances svc svc'
  client : svc'.client = svc.client
  shows : left.2 = s'.pc.shown left.1 svc'.server
  fresh : ∀ t r size, s'.pc = .receiving t r size → left.1 ∉ svc'.server
  link : Link inst svc' clientName left.1 c s' toServer toClient
  leaving : c.pc.Closing → Released s' toServer

/-- The server is in `main_receiver`. -/
def ServerPc.Writing : ServerPc → Prop
  | .receiving _ _ _ => True
  | _ => False

instance (pc : ServerPc) : Decidable pc.Writing := by
  induction pc using ServerPc.casesOn <;> unfold ServerPc.Writing <;> infer_instance

section

variable {c : Client} {s s' : Server} {toServer toClient out : List Datagram}
  {clock k : ℕ} {d : Datagram} {env : Environment} {clientName serverName : Text}

theorem ServerPc.shown_of_not_writing {pc : ServerPc} (idle : ¬ pc.Writing)
    (name : Text) (files : Files) : pc.shown name files = files := by
  cases pc with
  | receiving => exact absurd trivial idle
  | _ => rfl

/-- Outside `main_receiver` the server has changed nothing. -/
theorem ServerDone.of_idle (idle : ¬ s'.pc.Writing)
    (link : Link inst svc clientName serverName c s' toServer toClient)
    (leaving : c.pc.Closing → Released s' toServer) :
    ServerDone inst svc clientName c s' toServer toClient (serverName, svc.server) svc where
  advances := .inl rfl
  client := rfl
  shows := (s'.pc.shown_of_not_writing idle _ _).symm
  fresh := fun t r size pc => absurd (by rw [pc]; trivial) idle
  link := link
  leaving := leaving

theorem ClientPc.Closing.plain {pc : ClientPc} (closing : pc.Closing) : pc.Plain := by
  cases pc <;> trivial

/-- A command does not lead into `main_receiver`. -/
theorem Server.command_idle {accepted command : Text} {n : ℕ} :
    ¬ (Server.command env ⟨.head, accepted, n⟩ command).1.pc.Writing := by
  unfold Server.command
  dsimp only
  split_ifs <;> exact id

/-- Once the client closes the connection, the server does nothing else. -/
theorem Released.receives (released : Released s toServer)
    (found : toServer[k]? = some d) {fresh : ℕ}
    (receives : s.receive inst env fresh d = some (s', out)) (name : Text)
    (files : Files) :
    Released s' (toServer.eraseIdx k) ∧ ¬ s.pc.Writing ∧ ¬ s'.pc.Writing ∧
      s.files inst env d name files = (name, files) := by
  obtain ⟨pc, accepted, answering⟩ := s
  cases pc with
  | head =>
      have kept : ∀ e ∈ toServer.eraseIdx k,
          e.payload = .text udp.FIN ∨ e.payload = .text udp.FINACK :=
        fun e member => released e (List.eraseIdx_subset member)
      have unknown : ∀ request : Text, request = udp.FIN ∨ request = udp.FINACK →
          Server.command env ⟨.head, accepted, d.request⟩ (spqrUpper request) =
            (⟨.head, spqrUpper request, d.request⟩,
              [Server.sendText ⟨.head, spqrUpper request, d.request⟩
                SPQR_COMMAND_NOT_FOUND]) := by
        rintro request (rfl | rfl) <;> unfold Server.command <;> dsimp only <;>
          rw [if_neg (by decide +kernel), if_neg (by decide +kernel),
            if_neg (by decide +kernel), if_neg (by decide +kernel),
            if_neg (by decide +kernel)]
      have read : cString d.payload.bytes = udp.FIN ∨
          cString d.payload.bytes = udp.FINACK := by
        rcases released d (List.mem_of_getElem? found) with text | text
        · rw [text]
          exact .inl cString_FIN
        · rw [text]
          exact .inr cString_FINACK
      simp only [Server.receive, unknown _ read] at receives
      obtain ⟨rfl, rfl⟩ := Prod.mk.inj (Option.some.inj receives)
      exact ⟨kept, id, id, rfl⟩
  | closeAwaitFIN =>
      simp only [Server.receive] at receives
      split_ifs at receives <;>
        obtain ⟨rfl, rfl⟩ := Prod.mk.inj (Option.some.inj receives) <;>
        exact ⟨trivial, id, id, rfl⟩
  | closeAwaitFINACK =>
      simp only [Server.receive] at receives
      obtain ⟨rfl, rfl⟩ := Prod.mk.inj (Option.some.inj receives)
      exact ⟨trivial, id, id, rfl⟩
  | exited => simp [Server.receive] at receives
  | _ => exact released.elim

/-- Nor does it time out. -/
theorem Released.not_expires (released : Released s toServer) :
    s.timeout inst env = none := by
  obtain ⟨pc, accepted, answering⟩ := s
  cases pc <;> first | rfl | exact released.elim

/-- The server takes a datagram while the client is at a prompt, or waits for the
answer to a command. -/
theorem Serving.behindTakes {pre later : List Datagram} (behind : Behind True s pre)
    (texts : ∀ e ∈ later, e.payload.IsText) (plain : c.pc.Plain)
    (open_ : ¬ c.pc.Closing)
    (fresh : ∀ t r size, s.pc = .receiving t r size → serverName ∉ svc.server)
    (turn : InTurn k s.pc.role d) (unhurried : s.pc.Unhurried env d)
    (found : (pre ++ later)[k]? = some d)
    (receives : s.receive inst env clock d = some (s', out)) :
    ServerDone inst svc clientName c s' ((pre ++ later).eraseIdx k) (toClient ++ out)
      (s.files inst env d serverName (s.pc.shown serverName svc.server)) svc := by
  have link : ∀ s toServer toClient name,
      Link inst svc clientName name c s toServer toClient := fun _ _ _ _ => plain.link
  have closed : ∀ s toServer, c.pc.Closing → Released s toServer :=
    fun _ _ closing => absurd closing open_
  cases behind with
  | @head accepted answering =>
      simp only [Server.receive, Option.some.injEq] at receives
      obtain rfl : _ = s' := congrArg Prod.fst receives
      exact .of_idle Server.command_idle (link _ _ _ _) (closed _ _)
  | aborted =>
      obtain rfl := turn.oldest
      obtain rfl := Option.some.inj found
      simp only [Server.receive, Payload.bytes, cString_ABORT, if_true] at receives
      obtain ⟨rfl, rfl⟩ := Prod.mk.inj (Option.some.inj receives)
      simp only [Server.files, Payload.bytes, cString_ABORT, true_or, if_true]
      exact .of_idle id (link _ _ _ _) (closed _ _)
  | completed strays whole =>
      simp only [Server.receive] at receives
      split_ifs at receives <;>
        obtain ⟨rfl, rfl⟩ := Prod.mk.inj (Option.some.inj receives) <;>
        exact .of_idle id (link _ _ _ _) (closed _ _)
  | @failed t r size accepted answering e fine listening error =>
      have first : k = 0 := by
        rcases turn with first | ⟨noText, _⟩
        · exact first
        · cases k with
          | zero => rfl
          | succ k => exact absurd (texts d (List.mem_of_getElem? found)) noText
      subst first
      obtain rfl := Option.some.inj found
      have closes : env.closes = true := unhurried
      simp only [Server.receive, error, receiverRead_error, Option.map_some,
        Server.afterLoop, closes, if_true] at receives
      obtain ⟨rfl, rfl⟩ := Prod.mk.inj (Option.some.inj receives)
      simp only [Server.files, error, receiverRead_error, Receiver.save,
        Receiver.destination, Environment.stream, closes, and_self, if_true,
        reduceCtorEq, if_false, ServerPc.shown]
      rw [Files.erase_insert_of_new (fresh t r size rfl)]
      exact .of_idle id (link _ _ _ _) (closed _ _)

/-- The server takes a datagram. -/
theorem Serving.serverTakes (complete : Complete inst.fwrite)
    (lock : Lockstep inst True c s toServer toClient)
    (allowed : Allowed True ⟨c, s, toServer, toClient, clock⟩ (.toServer k env))
    (backed : Backed ⟨⟨c, s, toServer, toClient, clock⟩, svc.client,
      s.pc.shown serverName svc.server, clientName, serverName⟩ (.toServer k env))
    (fresh : ∀ t r size, s.pc = .receiving t r size → serverName ∉ svc.server)
    (link : Link inst svc clientName serverName c s toServer toClient)
    (leaving : c.pc.Closing → Released s toServer)
    (found : toServer[k]? = some d)
    (receives : s.receive inst env clock d = some (s', out)) :
    ∃ svc', ServerDone inst svc clientName c s' (toServer.eraseIdx k) (toClient ++ out)
      (s.files inst env d serverName (s.pc.shown serverName svc.server)) svc' := by
  by_cases closing : c.pc.Closing
  · obtain ⟨released, idle, idle', same⟩ := (leaving closing).receives found receives
      serverName svc.server
    rw [s.pc.shown_of_not_writing idle, same]
    exact ⟨svc, .of_idle idle' closing.plain.link fun _ => released⟩
  obtain ⟨turn, _⟩ := allowed.prudent d found
  have unhurried := allowed.unhurried trivial d found
  simp only at turn unhurried
  have closed : ∀ s toServer, c.pc.Closing → Released s toServer :=
    fun _ _ close => absurd close closing
  cases lock with
  | behind behind ahead =>
      refine ⟨svc, behindTakes behind ahead.texts ?_ closing fresh turn unhurried found receives⟩
      cases ahead <;> trivial
  | late fine noFinack => exact absurd trivial closing
  | @named line accepted n m whole =>
      obtain ⟨rfl, rfl⟩ := Channels.at_singleton found
      simp only [Server.receive, Payload.bytes, whole] at receives
      simp only [Server.files, Payload.bytes, whole]
      split_ifs at receives with known <;>
        obtain ⟨rfl, rfl⟩ := Prod.mk.inj (Option.some.inj receives)
      · rw [if_pos known]
        exact ⟨svc, .of_idle id rfl (closed _ _)⟩
      · rw [if_neg known]
        exact ⟨svc, .of_idle id trivial (closed _ _)⟩
  | @fetching line accepted n m t harmless =>
      obtain ⟨rfl, rfl⟩ := Channels.at_singleton found
      simp only [Server.receive, Payload.bytes, cString_START, if_true,
        Option.getD_some] at receives
      obtain ⟨opens, fits⟩ := unhurried cString_START
      rw [Server.mainSender, if_pos opens] at receives
      obtain ⟨⟨sender, packets⟩, started, result⟩ := Option.map_eq_some_iff.mp receives
      obtain ⟨rfl, rfl⟩ := Prod.mk.inj result
      exact ⟨svc, .of_idle id
        ⟨link, env.contents, _, _, backed.2 opens,
          .start fits started (Server.packetsOf_payload _ _ _)⟩ (closed _ _)⟩
  | @getting line accepted n m t _ T _ _ fine harmless ongoing listening =>
      obtain ⟨same, contents, packets, acks, stored, ongoing⟩ := link
      obtain ⟨T', rfl, receiver, next⟩ := Server.sends ongoing found receives
      refine ⟨svc, .of_idle id
        ⟨same, contents, T'.packets, T'.acks, stored, ?_⟩ (closed _ _)⟩
      rw [← receiver]
      exact next
  | outliving fine harmless ongoing finished =>
      obtain ⟨T', rfl, _, next⟩ := Server.sends ongoing found receives
      exact ⟨svc, .of_idle id trivial (closed _ _)⟩
  | @offering name accepted n m whole noAbort =>
      obtain ⟨rfl, rfl⟩ := Channels.at_singleton found
      simp only [Server.receive, Payload.bytes, whole, Server.mainReceiver] at receives
      simp only [ServerPc.Unhurried, Payload.bytes, whole] at unhurried
      simp only [Server.files, Payload.bytes, whole]
      split_ifs at receives with abort known opens
      · exact absurd abort (noAbort trivial)
      · obtain ⟨rfl, rfl⟩ := Prod.mk.inj (Option.some.inj receives)
        rw [if_pos (.inr known)]
        exact ⟨svc, .of_idle id trivial (closed _ _)⟩
      · obtain ⟨rfl, rfl⟩ := Prod.mk.inj (Option.some.inj receives)
        rw [if_neg (not_or.mpr ⟨abort, known⟩), Files.create, if_pos opens]
        refine ⟨svc, .inl rfl, rfl, rfl, fun _ _ _ _ => ?_, rfl, closed _ _⟩
        exact fun there => known (backed.1.mem_iff.mpr (AList.mem_keys.mp there))
      · exact absurd (unhurried abort known) opens
  | @putting accepted n m t size _ T _ _ fine ongoing listening =>
      obtain ⟨contents, packets, acks, stored, ongoing⟩ := link
      simp only [Server.receive] at receives
      obtain ⟨⟨r, sent⟩, reads, result⟩ := Option.map_eq_some_iff.mp receives
      have closes : env.closes = true := unhurried
      obtain ⟨outcome, next⟩ := ongoing.receiverRead listening found closes reads
        (Server.acksOf_payload ⟨.receiving t T.receiver size, accepted, d.request⟩ t
          sent)
      have new := fresh t T.receiver size rfl
      simp only [Server.files, reads, ServerPc.shown]
      rcases outcome with listening | ⟨finished, ret, returned, success⟩
      · simp only [listening] at result
        obtain ⟨rfl, rfl⟩ := Prod.mk.inj result
        exact ⟨svc, .inl rfl, rfl, save_running listening, fun _ _ _ _ => new,
          ⟨contents, _, _, stored, next⟩, closed _ _⟩
      · simp only [returned, Server.afterLoop, closes, if_true, success] at result
        obtain ⟨rfl, rfl⟩ := Prod.mk.inj result
        refine ⟨⟨svc.client, svc.server.insert serverName contents⟩,
          .inr ⟨.put serverName, .put stored new⟩, rfl,
          save_finished next complete finished closes, fun _ _ _ pc => ?_, trivial, closed _ _⟩
        rw [Server.afterReceiver, if_neg (by decide)] at pc
        simp at pc
  | @stored accepted n m t contents buffer T _ _ fine ongoing finished =>
      have noText := ongoing.noText d (List.mem_of_getElem? found)
      simp only [Server.receive, unhurried.2 noText, Bool.false_eq_true,
        if_false] at receives
      split_ifs at receives
      obtain ⟨rfl, rfl⟩ := Prod.mk.inj (Option.some.inj receives)
      exact ⟨svc, .of_idle id trivial (closed _ _)⟩
  | closing agreed => exact absurd trivial closing
  | finished => exact absurd trivial closing
  | _ => simp at found

/-- The server's `recvfrom` times out. -/
theorem Serving.serverExpires (lock : Lockstep inst True c s toServer toClient)
    (allowed : Allowed True ⟨c, s, toServer, toClient, clock⟩ (.serverTimeout env))
    (link : Link inst svc clientName serverName c s toServer toClient)
    (leaving : c.pc.Closing → Released s toServer)
    (expires : s.timeout inst env = some (s', out)) :
    ServerDone inst svc clientName c s' toServer (toClient ++ out)
      (serverName, s.pc.shown serverName svc.server) svc := by
  by_cases closing : c.pc.Closing
  · rw [(leaving closing).not_expires] at expires
    simp at expires
  have prudent := allowed.prudent
  simp only [Prudent] at prudent
  have closed : ∀ s toServer, c.pc.Closing → Released s toServer :=
    fun _ _ close => absurd close closing
  cases lock with
  | behind behind ahead =>
      cases behind with
      | completed strays whole =>
          simp only [Server.timeout] at expires
          obtain ⟨rfl, rfl⟩ := Prod.mk.inj (Option.some.inj expires)
          refine .of_idle id ?_ (closed _ _)
          cases ahead <;> trivial
      | _ => simp [Server.timeout] at expires
  | answered follows answers noFinack =>
      rw [Server.timeout, follows.pc] at expires
      split_ifs at expires
  | late fine noFinack => exact absurd trivial closing
  | found => exact absurd prudent.2 (by simp)
  | fetching => exact absurd prudent.1 (by simp)
  | getting fine harmless ongoing listening =>
      obtain ⟨same, contents, packets, acks, stored, ongoing⟩ := link
      rcases Server.sendingExpires ongoing expires with
        ⟨T', rfl, receiver, next⟩ | ⟨_, rfl, _⟩
      · refine .of_idle id ⟨same, contents, T'.packets, T'.acks, stored, ?_⟩ (closed _ _)
        rw [← receiver]
        exact next
      · refine .of_idle id ?_ (closed _ _)
        exact AList.lookup_isSome.mp (by rw [same, stored]; rfl)
  | outliving fine harmless ongoing finished =>
      rcases Server.sendingExpires ongoing expires with
        ⟨T', rfl, _, next⟩ | ⟨_, rfl, _⟩
      · exact .of_idle id trivial (closed _ _)
      · exact .of_idle id trivial (closed _ _)
  | stored fine ongoing finished =>
      simp only [Server.timeout] at expires
      obtain ⟨rfl, rfl⟩ := Prod.mk.inj (Option.some.inj expires)
      exact .of_idle id trivial (closed _ _)
  | finished => exact absurd trivial closing
  | stuck coarse => exact absurd trivial coarse
  | _ => simp [Server.timeout] at expires

end

/-! ### Whole sessions -/

theorem Serving.opened {client server : Files} :
    Serving inst (.opened client server) ⟨client, server⟩ where
  lock := .initial
  shows := ⟨rfl, rfl⟩
  fresh := fun _ _ _ pc => by simp [Site.opened, Session.initial] at pc
  link := trivial
  leaving := fun closing => closing.elim

/-- Every step of a site is a step of the service, or none. -/
theorem Serving.step (complete : Complete inst.fwrite) {before after : Site} {move : Move}
    (serving : Serving inst before svc) (undisturbed : Undisturbed before move)
    (taken : before.Step inst move after) :
    ∃ svc', Advances svc svc' ∧ Serving inst after svc' := by
  have moved := Site.moved taken
  obtain ⟨⟨c, s, toServer, toClient, clock⟩, clientFiles, serverFiles, clientName,
    serverName⟩ := before
  obtain ⟨lock, ⟨shownClient, shownServer⟩, fresh, link, leaving⟩ := serving
  obtain ⟨backed, prudent, unhurried, inTime⟩ := undisturbed
  dsimp only at shownClient shownServer
  subst shownClient shownServer
  have allowed : Allowed True ⟨c, s, toServer, toClient, clock⟩ move :=
    ⟨prudent, fun _ => unhurried, fun coarse => absurd trivial coarse⟩
  have lock' := lock.step allowed moved
  clear moved
  unfold Site.Step Site.step Session.step at taken
  cases move with
  | type typed env =>
      simp only [Option.bind_eq_bind, Option.bind_eq_some_iff, Option.map_eq_some_iff,
        Option.pure_def, Option.some.injEq] at taken
      obtain ⟨_, ⟨⟨c', out⟩, types, rfl⟩, rfl⟩ := taken
      have done : ClientDone inst svc serverName c' s (toServer ++ out) toClient
          (clientName, c.pc.shown clientName svc.client) svc := Serving.types lock types
      exact ⟨svc, .inl rfl, lock', ⟨done.shows, rfl⟩, fresh, done.link, done.leaving⟩
  | toServer k env =>
      simp only [Option.bind_eq_bind, Option.bind_eq_some_iff, Option.pure_def,
        Option.some.injEq] at taken
      obtain ⟨_, ⟨d, found, ⟨s', out⟩, receives, rfl⟩, _, found', rfl⟩ := taken
      obtain rfl := Option.some.inj (found'.symm.trans found)
      obtain ⟨svc', done⟩ :=
        serverTakes complete lock allowed backed fresh link leaving found receives
      exact ⟨svc', done.advances, lock', ⟨done.client ▸ rfl, done.shows⟩, done.fresh,
        done.link, done.leaving⟩
  | toClient k env =>
      simp only [Option.bind_eq_bind, Option.bind_eq_some_iff, Option.pure_def,
        Option.some.injEq] at taken
      obtain ⟨_, ⟨d, found, ⟨c', out⟩, receives, rfl⟩, _, found', rfl⟩ := taken
      obtain rfl := Option.some.inj (found'.symm.trans found)
      obtain ⟨svc', done⟩ :=
        clientTakes complete lock allowed backed link leaving found receives
      refine ⟨svc', done.advances, lock', ⟨done.shows, done.server ▸ rfl⟩, ?_, done.link,
        done.leaving⟩
      exact done.server ▸ fresh
  | clientTimeout env =>
      simp only [Option.bind_eq_bind, Option.bind_eq_some_iff, Option.map_eq_some_iff,
        Option.pure_def, Option.some.injEq] at taken
      obtain ⟨_, ⟨⟨c', out⟩, expires, rfl⟩, rfl⟩ := taken
      have done := clientExpires lock allowed inTime link expires
      exact ⟨svc, .inl rfl, lock', ⟨done.shows, rfl⟩, fresh, done.link, done.leaving⟩
  | serverTimeout env =>
      simp only [Option.bind_eq_bind, Option.bind_eq_some_iff, Option.map_eq_some_iff,
        Option.pure_def, Option.some.injEq] at taken
      obtain ⟨_, ⟨⟨s', out⟩, expires, rfl⟩, rfl⟩ := taken
      have done := serverExpires lock allowed link leaving expires
      exact ⟨svc, .inl rfl, lock', ⟨rfl, done.shows⟩, done.fresh, done.link, done.leaving⟩

/-- So a site simulates the service. -/
theorem Serving.simulates (complete : Complete inst.fwrite) :
    Simulates (Within (Site.Step inst) Undisturbed) Service.Step (Serving inst) where
  follow := by
    rintro before move after svc serving ⟨taken, undisturbed⟩
    obtain ⟨svc', advances, serving'⟩ := serving.step complete undisturbed taken
    obtain ⟨exchanges, run⟩ := advances.run
    exact ⟨exchanges, svc', run, serving'⟩

/-- On disks that take every `fwrite`, every session, whatever is typed, whatever the
files are called and hold and however its datagrams are delayed, is a run of the service,
as long as no party takes a branch that puts it out of step: step by step, what the two
directories show is what `GET`, `PUT` and failed `GET`s have made of them, except for a
file that is arriving. -/
theorem serves (complete : Complete inst.fwrite) :
    (∀ client server, Serving inst (.opened client server) ⟨client, server⟩) ∧
    Simulates (Within (Site.Step inst) Undisturbed) Service.Step (Serving inst) ∧
    (∀ s svc, Serving inst s svc → Shows s svc) ∧
    ∀ client server moves s,
      Run (Within (Site.Step inst) Undisturbed) (.opened client server) moves s →
        ∃ exchanges svc, Run Service.Step ⟨client, server⟩ exchanges svc ∧ Shows s svc := by
  refine ⟨fun _ _ => .opened, Serving.simulates complete, fun _ _ serving => serving.shows,
    fun client server moves s run => ?_⟩
  obtain ⟨exchanges, svc, served, serving⟩ :=
    (Serving.simulates complete).run run .opened
  exact ⟨exchanges, svc, served, serving.shows⟩

/-- A `PUT` of a file that the server does not have. -/
def uploadOneByte : List Move :=
  let here := Environment.serving "file.txt" [7]
  let nothing := { here with listing := [] }
  [.type (text "put") here, .toServer 0 nothing, .toClient 0 here,
    .type (text "file.txt") here, .toServer 0 nothing, .toClient 0 here,
    .toClient 0 here, .toServer 0 here] ++
  List.replicate 11 (.toClient 0 here) ++ [.clientTimeout here, .toServer 0 here]

/-- A `GET` that brings it back. -/
def fetchOneByte : List Move :=
  let here := Environment.serving "file.txt" [7]
  [.type (text "get") here, .toServer 0 here, .toClient 0 here,
    .type (text "file.txt") here, .toServer 0 here, .toClient 0 here,
    .toServer 0 here, .toClient 0 here] ++
  List.replicate 11 (.toServer 0 here) ++ [.serverTimeout here, .toClient 0 here]

/-- `file.txt`, with one byte in it. -/
def Files.oneByte : Files := AList.singleton (text "file.txt") [7]

/-- Both can happen. -/
theorem oneByte_runs :
    ∃ s s', Run (Within (Site.Step committed) Undisturbed) (.opened .oneByte ∅)
        uploadOneByte s ∧
      Run (Within (Site.Step committed) Undisturbed) s fetchOneByte s' ∧
      s.serverFiles.lookup (text "file.txt") = some [7] ∧
      ∀ t r size, s.session.server.pc ≠ .receiving t r size := by
  have computed : ((stepAll (Site.step committed) Undisturbed (.opened .oneByte ∅)
      uploadOneByte).bind fun s =>
        (stepAll (Site.step committed) Undisturbed s fetchOneByte).map fun _ =>
          (s.serverFiles.lookup (text "file.txt"), decide s.session.server.pc.Writing)) =
      some (some [7], false) := by
    decide +kernel
  obtain ⟨s, first, second⟩ := Option.bind_eq_some_iff.mp computed
  obtain ⟨s', second, values⟩ := Option.map_eq_some_iff.mp second
  obtain ⟨stored, idle⟩ := Prod.mk.inj values
  refine ⟨s, s', run_of_stepAll _ _ first, run_of_stepAll _ _ second, stored, ?_⟩
  intro t r size pc
  exact of_decide_eq_false idle (by rw [pc]; trivial)

theorem serves_oneByte :
    ∃ s, Run (Within (Site.Step committed) Undisturbed) (.opened .oneByte ∅)
        (uploadOneByte ++ fetchOneByte) s ∧
      ∃ exchanges svc, Run Service.Step ⟨.oneByte, ∅⟩ exchanges svc ∧ Shows s svc := by
  obtain ⟨_, s', first, second, _⟩ := oneByte_runs
  have run := first.trans second
  exact ⟨s', run, (serves fun _ => le_rfl).2.2.2 _ _ _ _ run⟩

/-! ### What a user can rely on -/

namespace Serving

variable {s : Site} {name : Text} {contents : List UInt8}

/-- What is not arriving is on the server's side of the service. -/
theorem lookup_server (serving : Serving inst s svc)
    (whole : ∀ t r size, s.session.server.pc = .receiving t r size →
      name ≠ s.serverPathname) :
    s.serverFiles.lookup name = svc.server.lookup name := by
  rw [serving.shows.server]
  cases pc : s.session.server.pc with
  | receiving t r size => exact AList.lookup_insert_ne (whole t r size pc)
  | _ => rfl

theorem lookup_client (serving : Serving inst s svc)
    (whole : ∀ t r, s.session.client.pc = .receiving t r → name ≠ s.clientPathname) :
    s.clientFiles.lookup name = svc.client.lookup name := by
  rw [serving.shows.client]
  cases pc : s.session.client.pc with
  | receiving t r => exact AList.lookup_insert_ne (whole t r pc)
  | _ => rfl

end Serving

/-- A file that is in `server-files/` at any time, and is not just being uploaded, stays
there with its contents whatever the session does afterwards. -/
theorem server_files_persist (complete : Complete inst.fwrite) {client server : Files}
    {moves more : List Move} {s s' : Site} {name : Text} {contents : List UInt8}
    (run : Run (Within (Site.Step inst) Undisturbed) (.opened client server) moves s)
    (rest : Run (Within (Site.Step inst) Undisturbed) s more s')
    (stored : s.serverFiles.lookup name = some contents)
    (whole : ∀ t r size, s.session.server.pc = .receiving t r size →
      name ≠ s.serverPathname) :
    s'.serverFiles.lookup name = some contents := by
  obtain ⟨_, svc, _, serving⟩ := (Serving.simulates complete).run run .opened
  obtain ⟨_, svc', served, serving'⟩ := (Serving.simulates complete).run rest serving
  rw [serving.lookup_server whole] at stored
  have kept := Service.kept served stored
  rw [serving'.lookup_server, kept]
  -- an upload that is under way has a new name
  rintro t r size pc rfl
  exact serving'.fresh t r size pc (AList.lookup_isSome.mp (by rw [kept]; rfl))

theorem server_files_persist_oneByte :
    ∃ s s', Run (Within (Site.Step committed) Undisturbed) (.opened .oneByte ∅)
        uploadOneByte s ∧
      Run (Within (Site.Step committed) Undisturbed) s fetchOneByte s' ∧
      s'.serverFiles.lookup (text "file.txt") = some [7] := by
  obtain ⟨s, s', run, rest, stored, idle⟩ := oneByte_runs
  exact ⟨s, s', run, rest, server_files_persist (fun _ => le_rfl) run rest stored
    fun t r size pc => absurd pc (idle t r size)⟩

/-- Whatever is in a file of either directory, and is not just arriving there, was in a
file of that name in one of them when the connection was opened. -/
theorem files_genuine (complete : Complete inst.fwrite) {client server : Files}
    {moves : List Move} {s : Site} {name : Text} {contents : List UInt8}
    (run : Run (Within (Site.Step inst) Undisturbed) (.opened client server) moves s)
    (found : (s.clientFiles.lookup name = some contents ∧
        ∀ t r, s.session.client.pc = .receiving t r → name ≠ s.clientPathname) ∨
      (s.serverFiles.lookup name = some contents ∧
        ∀ t r size, s.session.server.pc = .receiving t r size →
          name ≠ s.serverPathname)) :
    client.lookup name = some contents ∨ server.lookup name = some contents := by
  obtain ⟨_, svc, served, serving⟩ := (Serving.simulates complete).run run .opened
  apply Service.origin served
  rcases found with ⟨found, whole⟩ | ⟨found, whole⟩
  · exact .inl ((serving.lookup_client whole).symm.trans found)
  · exact .inr ((serving.lookup_server whole).symm.trans found)

theorem files_genuine_oneByte :
    ∃ s, Run (Within (Site.Step committed) Undisturbed) (.opened .oneByte ∅)
        uploadOneByte s ∧
      (Files.oneByte.lookup (text "file.txt") = some [7] ∨
        (∅ : Files).lookup (text "file.txt") = some [7]) := by
  obtain ⟨s, _, run, _, stored, idle⟩ := oneByte_runs
  exact ⟨s, run, files_genuine (fun _ => le_rfl) run
    (.inr ⟨stored, fun t r size pc => absurd pc (idle t r size)⟩)⟩

end Spqr
