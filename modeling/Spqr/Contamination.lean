/-
Module: Spqr.Contamination
Purpose: When the transfers of a session stay apart: the client and the server
  play the roles of `Isolation`, and the sessions in which every packet and
  every acknowledgment is consumed inside its own transfer.
Trusted boundary: none
Main exports:
  ClientPc.role, ServerPc.role, Tidy, Apart, Contained, contained
-/
import Spqr.Isolation
import Spqr.ReceiverWindow
import Spqr.SenderWindow

namespace Spqr

open Labelled Transfer

/-! ### The parties as roles -/

/-- A process that has died in `main_receiver` is like one whose drain loop never
ends: what is on its way to it is not taken outside the transfer. -/
def ClientPc.role : ClientPc → Role
  | .receiving transfer _ => .receiving transfer
  | .getDrain transfer _ _ => .draining transfer
  | .sending transfer _ => .sending transfer
  | .crashed transfer => .draining transfer
  | _ => .outside

def ServerPc.role : ServerPc → Role
  | .receiving transfer _ _ => .receiving transfer
  | .putDrain transfer _ => .draining transfer
  | .sending transfer _ => .sending transfer
  | .crashed transfer => .draining transfer
  | _ => .outside

/-- The party sends plain texts only, and is outside any transfer. -/
def Talks (role : Role) (out : List Datagram) : Prop :=
  role = .outside ∧ ∀ d ∈ out, d.Plain

namespace Datagram

theorem plain_text (message : Text) (n : ℕ) : Plain ⟨.text message, none, n⟩ :=
  ⟨rfl, message, rfl⟩

theorem plain_singleton (message : Text) (n : ℕ) :
    ∀ d ∈ [(⟨.text message, none, n⟩ : Datagram)], d.Plain :=
  List.forall_mem_singleton.mpr (plain_text message n)

theorem packetOf_map (packets : List Packet) (t n : ℕ) :
    ∀ d ∈ packets.map fun packet => (⟨.packet packet, some t, n⟩ : Datagram),
      d.PacketOf t := by
  intro d member
  obtain ⟨packet, _, rfl⟩ := List.mem_map.mp member
  exact ⟨rfl, packet, rfl⟩

theorem ackOf_map (acks : List AckPacket) (t n : ℕ) :
    ∀ d ∈ acks.map fun ack => (⟨.ack ack, some t, n⟩ : Datagram), d.AckOf t := by
  intro d member
  obtain ⟨ack, _, rfl⟩ := List.mem_map.mp member
  exact ⟨rfl, ack, rfl⟩

end Datagram

namespace Client

theorem closeConnection_talks (c : Client) :
    Talks c.closeConnection.1.pc.role c.closeConnection.2 :=
  ⟨rfl, Datagram.plain_singleton _ _⟩

theorem start_talks (c : Client) : Talks c.start.1.pc.role c.start.2 := by
  unfold start
  split_ifs
  · exact c.closeConnection_talks
  · exact ⟨rfl, by simp⟩
  · exact ⟨rfl, by simp⟩
  · exact ⟨rfl, by simp⟩

theorem afterUserInput_talks (c : Client) :
    Talks c.afterUserInput.1.pc.role c.afterUserInput.2 := by
  unfold afterUserInput
  split_ifs
  · exact c.closeConnection_talks
  · exact c.start_talks

theorem completed_talks (c : Client) :
    Talks c.completed.1.pc.role c.completed.2 := by
  refine ⟨(start_talks _).1, ?_⟩
  intro d member
  rcases List.mem_append.mp member with first | rest
  · exact Datagram.plain_singleton _ _ d first
  · exact (start_talks _).2 d rest

theorem afterSender_talks (c : Client) (ret : ℤ) :
    Talks (c.afterSender ret).1.pc.role (c.afterSender ret).2 := by
  unfold afterSender
  split_ifs
  · exact c.start_talks
  · exact c.completed_talks

end Client

namespace Server

theorem command_talks (env : Environment) (s : Server) (outside : s.pc.role = .outside)
    (request : Text) :
    Talks (s.command env request).1.pc.role (s.command env request).2 := by
  unfold command
  simp only
  split_ifs
  · refine ⟨outside, ?_⟩
    intro d member
    obtain ⟨message, _, rfl⟩ := List.mem_map.mp member
    exact Datagram.plain_text _ _
  · exact ⟨rfl, Datagram.plain_singleton _ _⟩
  · exact ⟨rfl, Datagram.plain_singleton _ _⟩
  · exact ⟨rfl, Datagram.plain_singleton _ _⟩
  · exact ⟨rfl, by simp⟩
  · exact ⟨outside, Datagram.plain_singleton _ _⟩

theorem afterSender_talks (s : Server) (ret : ℤ) :
    Talks (s.afterSender ret).1.pc.role (s.afterSender ret).2 := by
  unfold afterSender
  simp only
  split_ifs
  · exact ⟨rfl, Datagram.plain_singleton _ _⟩
  · exact ⟨rfl, Datagram.plain_singleton _ _⟩
  · exact ⟨rfl, by simp⟩

end Server

/-! ### What the transfer functions do -/

theorem refill_phase {cfg : Settings} {send : ℕ → SendResult} {budget k : ℕ} {n : ℤ}
    {s s' : Sender} {packets : List Packet}
    (runs : refill cfg send k n budget s = some (s', packets)) : s'.phase = s.phase :=
  (@refill_invariant cfg send (fun x => x.phase = s.phase) (fun _ => True)
    (fun _ same => same) (fun _ _ same _ => ⟨trivial, same⟩) (fun same => same)
    _ _ _ _ _ _ rfl runs).1

/-- `main_sender` returns on a timeout only. -/
theorem senderRead_running {cfg : Settings} {send : ℕ → SendResult}
    {s s' : Sender} {payload : Payload} {packets : List Packet}
    (reads : senderRead cfg send s payload = some (s', packets)) (ret : ℤ) :
    s'.phase ≠ .returned ret := by
  unfold senderRead at reads
  split at reads
  · rename_i waits
    simp only [waitAck_eq] at reads
    split_ifs at reads
    · obtain ⟨rfl, _⟩ := Prod.mk.inj (Option.some.inj reads)
      simp
    · obtain ⟨rfl, _⟩ := Prod.mk.inj (Option.some.inj reads)
      simp [waits]
    · rw [refill_phase reads]
      simp [Sender.mark, waits]
  · obtain ⟨rfl, _⟩ := Prod.mk.inj (Option.some.inj reads)
    simp [mainSenderDrain]
  · simp at reads

/-- A timeout makes `main_sender` return from its drain loop only, and what it
sends then is the error packet. -/
theorem expire_returned {cfg : Settings} {send : ℕ → SendResult}
    {s s' : Sender} {packets : List Packet} {ret : ℤ}
    (expires : expire cfg s send = some (s', packets))
    (returned : s'.phase = .returned ret) :
    (∃ last, s.phase = .drain last) ∧
      ∀ packet ∈ packets, packet.seqNum = SEQ_NUM_ERROR := by
  unfold expire at expires
  split at expires
  · rename_i waits
    simp only [waitAckTimeout] at expires
    split_ifs at expires
    · obtain ⟨rfl, _⟩ := Prod.mk.inj (Option.some.inj expires)
      simp at returned
    · obtain ⟨rfl, _⟩ := Prod.mk.inj (Option.some.inj expires)
      simp [waits] at returned
  · rename_i last drains
    refine ⟨⟨last, drains⟩, ?_⟩
    simp only [mainSenderReturn] at expires
    split_ifs at expires <;>
      obtain ⟨_, rfl⟩ := Prod.mk.inj (Option.some.inj expires) <;>
      simp [errorPacket]
  · simp at expires

theorem processAvailable_result {cfg : Settings} {fwrite : ℕ → ℕ} {n : ℕ} {r r' : Receiver}
    (runs : processAvailable cfg fwrite n r = some r') :
    r'.result = r.result ∨ r'.result = some WRITE_BYTE_ERROR :=
  @processAvailable_invariant cfg fwrite
    (fun x => x.result = r.result ∨ x.result = some WRITE_BYTE_ERROR)
    (fun same _ _ => same) (fun _ _ _ => .inr rfl) _ _ _ (.inl rfl) runs

theorem Receiver.loopCondition_result (r : Receiver) :
    r.loopCondition.result = r.result ∨
      r.loopCondition.result = some EXIT_SUCCESS := by
  unfold Receiver.loopCondition
  split
  · exact .inl rfl
  · exact .inr rfl

/-- `receive_data_from_sender` reports that the transfer failed exactly on the
error packet. -/
theorem receiveDataFromSender_result {cfg : Settings} {fwrite : ℕ → ℕ}
    {send : SendResult} {r r' : Receiver} {newPacket : Packet}
    {acks : List AckPacket} (listening : r.result = none)
    (reads : receiveDataFromSender cfg fwrite send r newPacket = some (r', acks)) :
    (newPacket.seqNum = SEQ_NUM_ERROR ∧ r'.result = some TRANSFER_ERROR ∧
        acks = []) ∨
      (newPacket.seqNum ≠ SEQ_NUM_ERROR ∧ (r'.result = none ∨
        r'.result = some EXIT_SUCCESS ∨ r'.result = some WRITE_BYTE_ERROR)) := by
  have noted : (r.noteFirst newPacket).result = none :=
    (r.noteFirst_fields newPacket).2.2.2.2.1.trans listening
  have negative : SEQ_NUM_ERROR < 0 := by decide
  have positive := cfg.windowPos
  rcases reaction_cases reads with ⟨error, rfl, rfl⟩ | ⟨past, rfl, -⟩ |
    ⟨nonneg, -, -, rfl, -⟩ | ⟨nonneg, -, -, processed, runs, rest⟩
  · exact .inl ⟨error, rfl, rfl⟩
  · refine .inr ⟨by omega, r.loopCondition_result.imp (fun same => ?_) .inl⟩
    rw [same, listening]
  · exact .inr ⟨by omega, .inl noted⟩
  · refine .inr ⟨by omega, ?_⟩
    have outcome := processAvailable_result runs
    rw [show ((r.noteFirst newPacket).store newPacket).result = none from noted] at outcome
    rcases rest with ⟨-, rfl, -⟩ | ⟨running, acknowledged⟩
    · exact outcome.imp id .inr
    · obtain ⟨rfl, -⟩ := Prod.mk.inj acknowledged
      refine (Receiver.loopCondition_result _).imp (fun same => ?_) .inl
      rw [same]
      split <;> exact running

/-- The loop of `main_receiver` fails, and without a word, exactly on the error
packet. -/
theorem receiverRead_cases {inst : Installation} {env : Environment}
    {r r' : Receiver} {payload : Payload} {acks : List AckPacket}
    (listening : r.result = none)
    (reads : receiverRead inst env r payload = some (r', acks)) :
    ((payload.readPacket r.newPacket).seqNum = SEQ_NUM_ERROR ∧
        r'.result = some TRANSFER_ERROR ∧ acks = []) ∨
      ((payload.readPacket r.newPacket).seqNum ≠ SEQ_NUM_ERROR ∧
        (r'.result = none ∨
          ∃ ret, r'.result = some ret ∧ mainReceiverRet ret = EXIT_SUCCESS)) := by
  unfold receiverRead Spqr.mainReceiver at reads
  split at reads
  · simp at reads
  · rename_i reaction sent reacts
    rcases receiveDataFromSender_result listening reacts with
      ⟨error, failed, silent⟩ | ⟨genuine, codes⟩
    · rw [failed] at reads
      obtain ⟨rfl, rfl⟩ := Prod.mk.inj (Option.some.inj reads)
      exact .inl ⟨error, failed, by simp [silent, finalAcks]⟩
    · refine .inr ⟨genuine, ?_⟩
      have same : r' = reaction := by
        split at reads <;> exact (Prod.mk.inj (Option.some.inj reads)).1.symm
      rw [same]
      rcases codes with code | code | code
      · exact .inl code
      · exact .inr ⟨_, code, rfl⟩
      · exact .inr ⟨_, code, rfl⟩

/-! ### Tidy sessions -/

/-- Nothing that a party would have to take in the transfer is left for it. -/
def Settled (t : ℕ) (peer : Role) (rest : List Datagram) : Prop :=
  (∀ e ∈ rest, ¬ e.PacketOf t) ∧ peer ≠ .sending t

instance (t : ℕ) (peer : Role) (rest : List Datagram) :
    Decidable (Settled t peer rest) := by
  unfold Settled
  infer_instance

/-- A text message. -/
def Payload.IsText (payload : Payload) : Prop := ∃ message, payload = .text message

instance (payload : Payload) : Decidable payload.IsText :=
  match payload with
  | .text message => isTrue ⟨message, rfl⟩
  | .packet _ => isFalse fun ⟨_, text⟩ => by simp at text
  | .ack _ => isFalse fun ⟨_, text⟩ => by simp at text

/-- The server takes the datagram neither too early to start a transfer or to
leave one, nor for a packet that it is not. -/
def ServerPc.Takes (peer : Role) (rest : List Datagram) (d : Datagram) :
    ServerPc → Prop
  | .getAwaitStart =>
      cString d.payload.bytes = feedback.START_TRANSFER → d.transfer ≠ none
  | .receiving t r _ =>
      (d.payload.IsText → peer = .sending t) ∧
        ((d.payload.readPacket r.newPacket).seqNum = SEQ_NUM_ERROR →
          Settled t peer rest)
  | .putDrain t serverPathname =>
      bufferHolds (LittleEndian.overlay d.payload.bytes serverPathname)
          feedback.TRANSFER_COMPLETED →
        Settled t peer rest
  | _ => True

/-- The same of the client. -/
def ClientPc.Takes (peer : Role) (rest : List Datagram) (d : Datagram) :
    ClientPc → Prop
  | .putAwaitStart _ =>
      cString d.payload.bytes = feedback.START_TRANSFER → d.transfer ≠ none
  | .receiving t _ => d.payload.IsText → peer = .sending t
  | .getDrain t ret serverResponse =>
      drainEnds (drainRead ret serverResponse d.payload.bytes) →
        Settled t peer rest
  | _ => True

/-- `main_sender` leaves its drain loop only when no acknowledgment is on its way
and nothing is left that the receiver would still acknowledge. -/
def Leaves (t : ℕ) (phase : SenderPhase) (peer : Role)
    (incoming outgoing : List Datagram) : Prop :=
  match phase with
  | .drain _ =>
      (∀ e ∈ incoming, ¬ e.AckOf t) ∧
        (peer = .receiving t → ∀ e ∈ outgoing, ¬ e.PacketOf t)
  | _ => True

/-- The move neither starts a transfer nor leaves one too early. -/
def Tidy (s : Session) : Move → Prop
  | .type _ _ => True
  | .toServer k _ => ∀ d ∈ s.toServer[k]?,
      s.server.pc.Takes s.client.pc.role (s.toServer.eraseIdx k) d
  | .toClient k _ => ∀ d ∈ s.toClient[k]?,
      s.client.pc.Takes s.server.pc.role (s.toClient.eraseIdx k) d
  | .clientTimeout _ =>
      match s.client.pc with
      | .sending t sender =>
          Leaves t sender.phase s.server.pc.role s.toClient s.toServer
      | _ => True
  | .serverTimeout _ =>
      match s.server.pc with
      | .sending t sender =>
          Leaves t sender.phase s.client.pc.role s.toServer s.toClient
      | _ => True

instance (peer : Role) (rest : List Datagram) (d : Datagram) (pc : ServerPc) :
    Decidable (pc.Takes peer rest d) := by
  induction pc using ServerPc.casesOn <;> unfold ServerPc.Takes <;> infer_instance

instance (peer : Role) (rest : List Datagram) (d : Datagram) (pc : ClientPc) :
    Decidable (pc.Takes peer rest d) := by
  induction pc using ClientPc.casesOn <;> unfold ClientPc.Takes <;> infer_instance

instance (t : ℕ) (phase : SenderPhase) (peer : Role)
    (incoming outgoing : List Datagram) :
    Decidable (Leaves t phase peer incoming outgoing) := by
  induction phase using SenderPhase.casesOn <;> unfold Leaves <;> infer_instance

instance (s : Session) (move : Move) : Decidable (Tidy s move) :=
  match move with
  | .type _ _ => isTrue trivial
  | .toServer k _ => inferInstanceAs (Decidable (∀ d ∈ s.toServer[k]?, _))
  | .toClient k _ => inferInstanceAs (Decidable (∀ d ∈ s.toClient[k]?, _))
  | .clientTimeout _ => by
      unfold Tidy
      generalize s.client.pc = pc
      induction pc using ClientPc.casesOn <;> infer_instance
  | .serverTimeout _ => by
      unfold Tidy
      generalize s.server.pc = pc
      induction pc using ServerPc.casesOn <;> infer_instance

/-- Every packet and every acknowledgment goes to a party that is inside its
transfer. -/
structure Apart (s : Session) : Prop where
  toServer : Isolated s.server.pc.role s.client.pc.role s.toServer s.toClient s.clock
  toClient : Isolated s.client.pc.role s.server.pc.role s.toClient s.toServer s.clock
  clientListens : ∀ t r, s.client.pc = .receiving t r → r.result = none
  serverListens : ∀ t r n, s.server.pc = .receiving t r n → r.result = none

/-- What is taken out of a channel starts nothing that is left in it. -/
theorem Isolated.taken {p q : Role} {toP toQ : List Datagram} {clock k : ℕ}
    {d : Datagram} (iso : Isolated p q toP toQ clock) (found : toP[k]? = some d) :
    d ∈ toP ∧ ∀ t, d.starts = some t →
      ∀ e ∈ toP.eraseIdx k, e.starts ≠ some t := by
  refine ⟨List.mem_of_getElem? found, ?_⟩
  intro t starts e later named
  obtain ⟨inside, rfl⟩ := List.getElem?_eq_some_iff.mp found
  have perm := (List.getElem_cons_eraseIdx_perm inside).filterMap Datagram.starts
  have distinct := perm.nodup_iff.mpr iso.distinct
  rw [List.filterMap_cons_some starts, List.nodup_cons] at distinct
  exact distinct.1 (List.mem_filterMap.mpr ⟨e, later, named⟩)

/-- Talk is a step of a party outside. -/
theorem Talks.step {clock : ℕ} {p role : Role} {toP rest out : List Datagram}
    {consumed : Option Datagram} (talks : Talks role out) :
    RoleStep clock p toP consumed rest .outside role out := by
  obtain ⟨rfl, plain⟩ := talks
  exact .talk plain

theorem start_of_text {d : Datagram} {message : Text} {t : ℕ}
    (payload : d.payload = .text message) (transfer : d.transfer = some t) :
    d.starts = some t := by
  rw [Datagram.starts, payload]
  exact transfer

/-- A party outside reads texts only. -/
theorem Isolated.text_outside {q : Role} {toP toQ : List Datagram} {clock : ℕ}
    (iso : Isolated .outside q toP toQ clock) {d : Datagram} (member : d ∈ toP) :
    ∃ message, d.payload = .text message := by
  cases payload : d.payload with
  | text message => exact ⟨message, rfl⟩
  | packet contents =>
      obtain ⟨t, transfer, _⟩ := iso.packets d member contents payload
      exact absurd ⟨transfer, contents, payload⟩ (iso.texts_outside d member t).1
  | ack contents =>
      obtain ⟨t, transfer, _⟩ := iso.acks d member contents payload
      exact absurd ⟨transfer, contents, payload⟩ (iso.texts_outside d member t).2

/-- A listening `main_receiver` reads the packets of its transfer, and texts. -/
theorem Isolated.heard {q : Role} {toP toQ : List Datagram} {clock t : ℕ}
    (iso : Isolated (.receiving t) q toP toQ clock) {d : Datagram} (member : d ∈ toP)
    (tidy : d.payload.IsText → q = .sending t)
    (stale : Packet) :
    (d.PacketOf t ∨ q = .sending t) ∧
      ((d.payload.readPacket stale).seqNum ≠ SEQ_NUM_ERROR → q = .sending t) := by
  cases payload : d.payload with
  | text message =>
      have runs := tidy ⟨message, payload⟩
      exact ⟨.inr runs, fun _ => runs⟩
  | packet contents =>
      obtain ⟨t', transfer, place⟩ := iso.packets d member contents payload
      obtain ⟨rfl, runs⟩ : t = t' ∧ (contents.seqNum ≠ SEQ_NUM_ERROR → q = .sending t') := by
        simpa using place
      exact ⟨.inl ⟨transfer, contents, payload⟩, runs⟩
  | ack contents =>
      obtain ⟨_, _, sends⟩ := iso.acks d member contents payload
      simp at sends

namespace Client

variable {inst : Installation} {env : Environment} {s : Session} {c' : Client}
  {out : List Datagram}

theorem afterLoop_role (c : Client) (closes : Bool) (t : ℕ) (ret : ℤ) :
    (c.afterLoop closes t ret).pc.role = .draining t := by
  unfold afterLoop
  split <;> rfl

theorem mainReceiver_role (clock : ℕ) (p : Role) (toP rest : List Datagram)
    (consumed : Option Datagram) (c : Client) (env : Environment) :
    RoleStep clock p toP consumed rest .outside (c.mainReceiver env clock).1.pc.role
        (c.mainReceiver env clock).2 ∧
      ∀ t r, (c.mainReceiver env clock).1.pc = .receiving t r → r.result = none := by
  unfold mainReceiver
  split_ifs
  · refine ⟨@RoleStep.listen _ _ _ _ _ [] _ _ (by simp), ?_⟩
    intro t r pc
    obtain ⟨_, rfl⟩ := ClientPc.receiving.inj pc
    rfl
  · exact ⟨.refuse, fun t r pc => by simp [afterReceiver] at pc⟩

theorem not_receiving {pc : ClientPc} (quiet : ∀ t, pc.role ≠ .receiving t) :
    ∀ t r, pc = .receiving t r → r.result = none := by
  rintro t r rfl
  exact absurd rfl (quiet t)

/-- The client's step on a datagram is a step of its role. -/
theorem receive_role (apart : Apart s) {k : ℕ} {d : Datagram}
    (found : s.toClient[k]? = some d) (tidy : Tidy s (.toClient k env))
    (receives : s.client.receive inst env s.clock d = some (c', out)) :
    RoleStep s.clock s.server.pc.role s.toServer (some d) (s.toClient.eraseIdx k)
        s.client.pc.role c'.pc.role out ∧
      ∀ t r, c'.pc = .receiving t r → r.result = none := by
  have member : d ∈ s.toClient := List.mem_of_getElem? found
  have iso := apart.toClient
  replace tidy := tidy d found
  have talks : ∀ {result : Client × List Datagram}, result = (c', out) →
      Talks result.1.pc.role result.2 →
      RoleStep s.clock s.server.pc.role s.toServer (some d) (s.toClient.eraseIdx k)
          .outside c'.pc.role out ∧
        ∀ t r, c'.pc = .receiving t r → r.result = none := by
    rintro _ rfl talks
    exact ⟨talks.step, not_receiving fun t => by simp [talks.1]⟩
  unfold receive at receives
  cases pc : s.client.pc with
  | prompt => simp [pc] at receives
  | getPrompt => simp [pc] at receives
  | putPrompt => simp [pc] at receives
  | finished | crashed => simp [pc] at receives
  | awaitReply =>
      simp only [pc] at receives
      exact talks (Option.some.inj receives) (afterUserInput_talks _)
  | getAwaitReply =>
      simp only [pc] at receives
      split_ifs at receives
      · exact talks (Option.some.inj receives) (start_talks _)
      · have opens := mainReceiver_role s.clock s.server.pc.role s.toServer
          (s.toClient.eraseIdx k) (some d) s.client env
        rwa [Option.some.inj receives] at opens
  | receiving t r =>
      simp only [pc] at receives
      obtain ⟨⟨r', acks⟩, reads, result⟩ := Option.map_eq_some_iff.mp receives
      rw [pc] at iso
      simp only [pc] at tidy
      obtain ⟨genuine, runs⟩ := iso.heard member tidy r.newPacket
      rcases receiverRead_cases (apart.clientListens t r pc) reads with
        ⟨_, ret, silent⟩ | ⟨packet, running | ⟨ret, returned, _⟩⟩
      · simp only [ret] at result
        obtain ⟨rfl, rfl⟩ := Prod.mk.inj result
        have left := afterLoop_role s.client env.closes t TRANSFER_ERROR
        rw [silent]
        exact ⟨.abandon rfl genuine (.inl left), not_receiving fun t => by simp [left]⟩
      · simp only [running] at result
        obtain ⟨rfl, rfl⟩ := Prod.mk.inj result
        refine ⟨.answer (.inl rfl) (runs packet) (Datagram.ackOf_map _ _ _), ?_⟩
        intro t r pc
        obtain ⟨_, rfl⟩ := ClientPc.receiving.inj pc
        exact running
      · simp only [returned] at result
        obtain ⟨rfl, rfl⟩ := Prod.mk.inj result
        have left := afterLoop_role s.client env.closes t ret
        exact ⟨.answer (.inr left) (runs packet) (Datagram.ackOf_map _ _ _),
          not_receiving fun t => by simp [left]⟩
  | getDrain t ret serverResponse =>
      simp only [pc] at receives tidy
      split_ifs at receives with ends
      · obtain ⟨outside, plain⟩ := s.client.start_talks
        rw [Option.some.inj receives] at outside plain
        obtain ⟨settled, ended⟩ := tidy ends
        rw [outside]
        exact ⟨.leave plain settled ended, not_receiving fun t => by simp [outside]⟩
      · obtain ⟨rfl, rfl⟩ := Prod.mk.inj (Option.some.inj receives)
        exact ⟨.drain, fun t r pc => by simp at pc⟩
  | putAwaitExist filename =>
      simp only [pc] at receives
      split_ifs at receives
      · exact talks (Option.some.inj receives) (start_talks _)
      · exact talks (Option.some.inj receives) ⟨rfl, by simp⟩
  | putAwaitStart filename =>
      simp only [pc] at receives tidy
      split_ifs at receives with starts
      · rw [pc] at iso
        obtain ⟨message, payload⟩ := iso.text_outside member
        obtain ⟨t, transfer⟩ := Option.ne_none_iff_exists'.mp (tidy starts)
        unfold mainSender at receives
        split_ifs at receives
        · obtain ⟨⟨sender, packets⟩, _, result⟩ := Option.map_eq_some_iff.mp receives
          obtain ⟨rfl, rfl⟩ := Prod.mk.inj result
          rw [transfer]
          exact ⟨.begin rfl (start_of_text payload transfer)
            (Datagram.packetOf_map _ _ _), fun t r pc => by simp at pc⟩
        · exact talks (Option.some.inj receives) (afterSender_talks _ _)
      · exact talks (Option.some.inj receives) (completed_talks _)
  | sending t sender =>
      simp only [pc] at receives
      obtain ⟨⟨sender', packets⟩, reads, result⟩ := Option.map_eq_some_iff.mp receives
      have running := senderRead_running reads
      unfold sendingTo at result
      split at result
      · rename_i ret returned
        exact absurd returned (running ret)
      · obtain ⟨rfl, rfl⟩ := Prod.mk.inj result
        exact ⟨.send (Datagram.packetOf_map _ _ _), fun t r pc => by simp at pc⟩
  | closeAwaitFINACK =>
      simp only [pc] at receives
      split_ifs at receives
      · exact talks (Option.some.inj receives) ⟨rfl, by simp⟩
      · exact talks (Option.some.inj receives) ⟨rfl, by simp⟩
  | closeAwaitFIN =>
      simp only [pc] at receives
      split_ifs at receives
      · exact talks (Option.some.inj receives) ⟨rfl, Datagram.plain_singleton _ _⟩
      · exact talks (Option.some.inj receives) ⟨rfl, by simp⟩

/-- So is its step on a timeout. -/
theorem timeout_role (tidy : Tidy s (.clientTimeout env))
    (expires : s.client.timeout inst env s.clock = some (c', out)) :
    RoleStep s.clock s.server.pc.role s.toServer none s.toClient
        s.client.pc.role c'.pc.role out ∧
      ∀ t r, c'.pc = .receiving t r → r.result = none := by
  unfold timeout at expires
  cases pc : s.client.pc with
  | awaitReply =>
      simp only [pc] at expires
      have talks := afterUserInput_talks ⟨.awaitReply, feedback.EXIT, s.client.requests⟩
      rw [Option.some.inj expires] at talks
      exact ⟨talks.step, not_receiving fun t => by simp [talks.1]⟩
  | getAwaitReply =>
      simp only [pc] at expires
      have opens := mainReceiver_role s.clock s.server.pc.role s.toServer s.toClient
        none ⟨.getAwaitReply, feedback.EXIT, s.client.requests⟩ env
      rwa [Option.some.inj expires] at opens
  | getDrain t ret serverResponse =>
      simp only [pc] at expires
      obtain ⟨rfl, rfl⟩ := Prod.mk.inj (Option.some.inj expires)
      rw [pc]
      exact ⟨.drain, fun t r pc => by simp at pc⟩
  | sending t sender =>
      simp only [pc] at expires
      obtain ⟨⟨sender', packets⟩, reacts, result⟩ := Option.map_eq_some_iff.mp expires
      unfold sendingTo at result
      split at result
      · rename_i ret returned
        obtain ⟨drained, errors⟩ := expire_returned reacts returned
        obtain ⟨last, drains⟩ := drained
        simp only [Tidy, pc, drains, Leaves] at tidy
        obtain ⟨settled, unanswered⟩ := tidy
        obtain ⟨outside, plain⟩ := s.client.afterSender_talks ret
        obtain rfl : (s.client.afterSender ret).1 = c' := congrArg Prod.fst result
        obtain rfl : s.client.packetsOf t packets ++ (s.client.afterSender ret).2 =
          out := congrArg Prod.snd result
        refine ⟨?_, not_receiving fun t => by simp [outside]⟩
        rw [outside]
        refine .finish ?_ plain settled unanswered
        intro e member
        obtain ⟨packet, sent, rfl⟩ := List.mem_map.mp member
        exact ⟨rfl, packet, rfl, errors packet sent⟩
      · obtain ⟨rfl, rfl⟩ := Prod.mk.inj result
        exact ⟨.send (Datagram.packetOf_map _ _ _), fun t r pc => by simp at pc⟩
  | _ => simp [pc] at expires

/-- So is what it does with a typed line. -/
theorem type_role {typed : List UInt8}
    (types : s.client.type env typed = some (c', out)) :
    RoleStep s.clock s.server.pc.role s.toServer none s.toClient
        s.client.pc.role c'.pc.role out ∧
      ∀ t r, c'.pc = .receiving t r → r.result = none := by
  have talks : s.client.pc.role = .outside ∧ Talks c'.pc.role out := by
    unfold type at types
    cases pc : s.client.pc with
    | prompt =>
        simp only [pc] at types
        obtain ⟨rfl, rfl⟩ := Prod.mk.inj (Option.some.inj types)
        exact ⟨rfl, rfl, Datagram.plain_singleton _ _⟩
    | getPrompt =>
        simp only [pc] at types
        obtain ⟨rfl, rfl⟩ := Prod.mk.inj (Option.some.inj types)
        exact ⟨rfl, rfl, Datagram.plain_singleton _ _⟩
    | putPrompt =>
        simp only [pc] at types
        split_ifs at types
        · obtain ⟨rfl, rfl⟩ := Prod.mk.inj (Option.some.inj types)
          exact ⟨rfl, rfl, Datagram.plain_singleton _ _⟩
        · obtain ⟨rfl, rfl⟩ := Prod.mk.inj (Option.some.inj types)
          refine ⟨rfl, (start_talks _).1, ?_⟩
          intro d member
          rcases List.mem_append.mp member with first | rest
          · exact Datagram.plain_singleton _ _ d first
          · exact (start_talks _).2 d rest
    | _ => simp [pc] at types
  rw [talks.1]
  exact ⟨talks.2.step, not_receiving fun t => by simp [talks.2.1]⟩

end Client

namespace Server

variable {inst : Installation} {env : Environment} {s : Session} {s' : Server}
  {out : List Datagram}

theorem not_receiving {pc : ServerPc} (quiet : ∀ t, pc.role ≠ .receiving t) :
    ∀ t r n, pc = .receiving t r n → r.result = none := by
  rintro t r n rfl
  exact absurd rfl (quiet t)

theorem afterLoop_error (s : Server) (closes : Bool) (t n : ℕ) :
    (s.afterLoop closes t TRANSFER_ERROR n).pc.role = .outside ∨
      (s.afterLoop closes t TRANSFER_ERROR n).pc.role = .draining t := by
  unfold afterLoop
  split
  · exact .inl rfl
  · exact .inr rfl

theorem afterLoop_quiet (s : Server) (closes : Bool) (t n : ℕ) (ret : ℤ) (t' : ℕ) :
    (s.afterLoop closes t ret n).pc.role ≠ .receiving t' := by
  unfold afterLoop afterReceiver
  split_ifs <;> simp [ServerPc.role]

theorem afterLoop_success (s : Server) (closes : Bool) (t n : ℕ) {ret : ℤ}
    (success : mainReceiverRet ret = EXIT_SUCCESS) :
    (s.afterLoop closes t ret n).pc.role = .draining t := by
  unfold afterLoop afterReceiver
  rw [success]
  split <;> rfl

/-- The server's step on a datagram is a step of its role. -/
theorem receive_role (apart : Apart s) {k : ℕ} {d : Datagram}
    (found : s.toServer[k]? = some d) (tidy : Tidy s (.toServer k env))
    (receives : s.server.receive inst env s.clock d = some (s', out)) :
    RoleStep s.clock s.client.pc.role s.toClient (some d) (s.toServer.eraseIdx k)
        s.server.pc.role s'.pc.role out ∧
      ∀ t r n, s'.pc = .receiving t r n → r.result = none := by
  have member : d ∈ s.toServer := List.mem_of_getElem? found
  have iso := apart.toServer
  replace tidy := tidy d found
  have talks : ∀ {result : Server × List Datagram}, result = (s', out) →
      Talks result.1.pc.role result.2 →
      RoleStep s.clock s.client.pc.role s.toClient (some d) (s.toServer.eraseIdx k)
          .outside s'.pc.role out ∧
        ∀ t r n, s'.pc = .receiving t r n → r.result = none := by
    rintro _ rfl talks
    exact ⟨talks.step, not_receiving fun t => by simp [talks.1]⟩
  unfold receive at receives
  cases pc : s.server.pc with
  | exited | crashed => simp [pc] at receives
  | head =>
      simp only [pc] at receives
      exact talks (Option.some.inj receives) (command_talks _ _ rfl _)
  | getAwaitFilename =>
      simp only [pc] at receives
      split_ifs at receives
      · exact talks (Option.some.inj receives) ⟨rfl, Datagram.plain_singleton _ _⟩
      · exact talks (Option.some.inj receives) ⟨rfl, Datagram.plain_singleton _ _⟩
  | getAwaitStart =>
      simp only [pc] at receives tidy
      split_ifs at receives with starts
      · rw [pc] at iso
        obtain ⟨message, payload⟩ := iso.text_outside member
        obtain ⟨t, transfer⟩ := Option.ne_none_iff_exists'.mp (tidy starts)
        unfold mainSender at receives
        split_ifs at receives
        · obtain ⟨⟨sender, packets⟩, _, result⟩ := Option.map_eq_some_iff.mp receives
          obtain ⟨rfl, rfl⟩ := Prod.mk.inj result
          rw [transfer]
          exact ⟨.begin rfl (start_of_text payload transfer)
            (Datagram.packetOf_map _ _ _), fun t r n pc => by simp at pc⟩
        · exact talks (Option.some.inj receives) (afterSender_talks _ _)
      · exact talks (Option.some.inj receives) (afterSender_talks _ _)
  | sending t sender =>
      simp only [pc] at receives
      obtain ⟨⟨sender', packets⟩, reads, result⟩ := Option.map_eq_some_iff.mp receives
      have running := senderRead_running reads
      unfold sendingTo at result
      split at result
      · rename_i ret returned
        exact absurd returned (running ret)
      · obtain ⟨rfl, rfl⟩ := Prod.mk.inj result
        exact ⟨.send (Datagram.packetOf_map _ _ _), fun t r n pc => by simp at pc⟩
  | putAwaitName =>
      simp only [pc, mainReceiver] at receives
      split_ifs at receives
      · exact talks (Option.some.inj receives) ⟨rfl, by simp⟩
      · exact talks (Option.some.inj receives) ⟨rfl, Datagram.plain_singleton _ _⟩
      · obtain ⟨rfl, rfl⟩ := Prod.mk.inj (Option.some.inj receives)
        refine ⟨@RoleStep.listen _ _ _ _ _ [_] _ _ (Datagram.plain_singleton _ _), ?_⟩
        intro t r n pc
        obtain ⟨_, rfl, _⟩ := ServerPc.receiving.inj pc
        rfl
      · exact talks (Option.some.inj receives) ⟨rfl, Datagram.plain_singleton _ _⟩
  | receiving t r pathSize =>
      simp only [pc] at receives
      obtain ⟨⟨r', acks⟩, reads, result⟩ := Option.map_eq_some_iff.mp receives
      rw [pc] at iso
      simp only [pc] at tidy
      obtain ⟨heard, settled⟩ := tidy
      obtain ⟨genuine, runs⟩ := iso.heard member heard r.newPacket
      rcases receiverRead_cases (apart.serverListens t r pathSize pc) reads with
        ⟨error, ret, silent⟩ | ⟨packet, running | ⟨ret, returned, success⟩⟩
      · simp only [ret] at result
        obtain ⟨rfl, rfl⟩ := Prod.mk.inj result
        rw [silent]
        refine ⟨.abandon rfl genuine ?_, not_receiving (afterLoop_quiet _ _ _ _ _)⟩
        rcases afterLoop_error { s.server with answering := d.request } env.closes t
          pathSize with left | left
        · exact .inr ⟨left, settled error⟩
        · exact .inl left
      · simp only [running] at result
        obtain ⟨rfl, rfl⟩ := Prod.mk.inj result
        refine ⟨.answer (.inl rfl) (runs packet) (Datagram.ackOf_map _ _ _), ?_⟩
        intro t r n pc
        obtain ⟨_, rfl, _⟩ := ServerPc.receiving.inj pc
        exact running
      · simp only [returned] at result
        obtain ⟨rfl, rfl⟩ := Prod.mk.inj result
        have left := afterLoop_success { s.server with answering := d.request } env.closes t
          pathSize success
        exact ⟨.answer (.inr left) (runs packet) (Datagram.ackOf_map _ _ _),
          not_receiving (afterLoop_quiet _ _ _ _ _)⟩
  | putDrain t serverPathname =>
      simp only [pc] at receives tidy
      split_ifs at receives with _ ends
      · obtain ⟨rfl, rfl⟩ := Prod.mk.inj (Option.some.inj receives)
        obtain ⟨settled, ended⟩ := tidy ends
        exact ⟨.leave (by simp) settled ended, fun t r n pc => by simp at pc⟩
      · obtain ⟨rfl, rfl⟩ := Prod.mk.inj (Option.some.inj receives)
        exact ⟨.drain, fun t r n pc => by simp at pc⟩
  | closeAwaitFIN =>
      simp only [pc] at receives
      split_ifs at receives
      · exact talks (Option.some.inj receives)
          ⟨rfl, by simp [sendText, Datagram.plain_text]⟩
      · exact talks (Option.some.inj receives) ⟨rfl, by simp⟩
  | closeAwaitFINACK =>
      simp only [pc] at receives
      exact talks (Option.some.inj receives) ⟨rfl, by simp⟩

/-- So is its step on a timeout. -/
theorem timeout_role (tidy : Tidy s (.serverTimeout env))
    (expires : s.server.timeout inst env = some (s', out)) :
    RoleStep s.clock s.client.pc.role s.toClient none s.toServer
        s.server.pc.role s'.pc.role out ∧
      ∀ t r n, s'.pc = .receiving t r n → r.result = none := by
  unfold timeout at expires
  cases pc : s.server.pc with
  | getAwaitStart =>
      simp only [pc] at expires
      obtain ⟨rfl, rfl⟩ := Prod.mk.inj (Option.some.inj expires)
      exact ⟨.talk (by simp), fun t r n pc => by simp at pc⟩
  | putDrain t serverPathname =>
      simp only [pc] at expires
      obtain ⟨rfl, rfl⟩ := Prod.mk.inj (Option.some.inj expires)
      rw [pc]
      exact ⟨.drain, fun t r n pc => by simp at pc⟩
  | sending t sender =>
      simp only [pc] at expires
      obtain ⟨⟨sender', packets⟩, reacts, result⟩ := Option.map_eq_some_iff.mp expires
      unfold sendingTo at result
      split at result
      · rename_i ret returned
        obtain ⟨drained, errors⟩ := expire_returned reacts returned
        obtain ⟨last, drains⟩ := drained
        simp only [Tidy, pc, drains, Leaves] at tidy
        obtain ⟨settled, unanswered⟩ := tidy
        obtain ⟨outside, plain⟩ := s.server.afterSender_talks ret
        obtain rfl : (s.server.afterSender ret).1 = s' := congrArg Prod.fst result
        obtain rfl : s.server.packetsOf t packets ++ (s.server.afterSender ret).2 =
          out := congrArg Prod.snd result
        refine ⟨?_, not_receiving fun t => by simp [outside]⟩
        rw [outside]
        refine .finish ?_ plain settled unanswered
        intro e member
        obtain ⟨packet, sent, rfl⟩ := List.mem_map.mp member
        exact ⟨rfl, packet, rfl, errors packet sent⟩
      · obtain ⟨rfl, rfl⟩ := Prod.mk.inj result
        exact ⟨.send (Datagram.packetOf_map _ _ _), fun t r n pc => by simp at pc⟩
  | _ => simp [pc] at expires

end Server

/-! ### Whole sessions -/

theorem Apart.initial : Apart Session.initial := by
  have empty : Isolated .outside .outside [] [] 0 := by
    constructor <;> simp [Role.transfer]
  exact ⟨empty, empty, fun t r pc => by simp [Session.initial] at pc,
    fun t r n pc => by simp [Session.initial] at pc⟩

/-- A tidy step keeps the transfers apart. -/
theorem Apart.step {inst : Installation} {before after : Session} {move : Move}
    (apart : Apart before) (tidy : Tidy before move)
    (taken : before.Step inst move after) : Apart after := by
  unfold Session.Step at taken
  cases move with
  | type typed env =>
      obtain ⟨⟨c', out⟩, types, rfl⟩ := Option.map_eq_some_iff.mp taken
      obtain ⟨role, listens⟩ := Client.type_role types
      obtain ⟨toServer, toClient⟩ := role.preserves apart.toServer apart.toClient
        (List.Sublist.refl _) (by simp)
      exact ⟨toServer, toClient, listens, apart.serverListens⟩
  | toServer k env =>
      simp only [Session.step, Option.bind_eq_bind, Option.bind_eq_some_iff,
        Option.pure_def, Option.some.injEq] at taken
      obtain ⟨d, found, ⟨s', out⟩, receives, rfl⟩ := taken
      obtain ⟨role, listens⟩ := Server.receive_role apart found tidy receives
      obtain ⟨toClient, toServer⟩ := role.preserves apart.toClient apart.toServer
        (List.eraseIdx_sublist _ _)
        (fun d' same => by
          obtain rfl := Option.some.inj same
          exact apart.toServer.taken found)
      exact ⟨toServer, toClient, apart.clientListens, listens⟩
  | toClient k env =>
      simp only [Session.step, Option.bind_eq_bind, Option.bind_eq_some_iff,
        Option.pure_def, Option.some.injEq] at taken
      obtain ⟨d, found, ⟨c', out⟩, receives, rfl⟩ := taken
      obtain ⟨role, listens⟩ := Client.receive_role apart found tidy receives
      obtain ⟨toServer, toClient⟩ := role.preserves apart.toServer apart.toClient
        (List.eraseIdx_sublist _ _)
        (fun d' same => by
          obtain rfl := Option.some.inj same
          exact apart.toClient.taken found)
      exact ⟨toServer, toClient, listens, apart.serverListens⟩
  | clientTimeout env =>
      obtain ⟨⟨c', out⟩, expires, rfl⟩ := Option.map_eq_some_iff.mp taken
      obtain ⟨role, listens⟩ := Client.timeout_role tidy expires
      obtain ⟨toServer, toClient⟩ := role.preserves apart.toServer apart.toClient
        (List.Sublist.refl _) (by simp)
      exact ⟨toServer, toClient, listens, apart.serverListens⟩
  | serverTimeout env =>
      obtain ⟨⟨s', out⟩, expires, rfl⟩ := Option.map_eq_some_iff.mp taken
      obtain ⟨role, listens⟩ := Server.timeout_role tidy expires
      obtain ⟨toClient, toServer⟩ := role.preserves apart.toClient apart.toServer
        (List.Sublist.refl _) (by simp)
      exact ⟨toServer, toClient, apart.clientListens, listens⟩

/-- A packet or an acknowledgment that this move consumes was sent in the transfer
that its consumer is inside. -/
def Contained (s : Session) : Move → Prop
  | .toServer k _ => ∀ d ∈ s.toServer[k]?, ¬ d.payload.IsText →
      d.transfer ≠ none ∧ s.server.pc.role.transfer = d.transfer
  | .toClient k _ => ∀ d ∈ s.toClient[k]?, ¬ d.payload.IsText →
      d.transfer ≠ none ∧ s.client.pc.role.transfer = d.transfer
  | _ => True

theorem Isolated.inside {p q : Role} {toP toQ : List Datagram} {clock : ℕ}
    (iso : Isolated p q toP toQ clock) {d : Datagram} (member : d ∈ toP)
    (noText : ¬ d.payload.IsText) : d.transfer ≠ none ∧ p.transfer = d.transfer := by
  cases payload : d.payload with
  | text message => exact absurd ⟨message, payload⟩ noText
  | packet contents =>
      obtain ⟨t, transfer, rfl | ⟨rfl, _⟩⟩ := iso.packets d member contents payload
      · exact ⟨by simp [transfer], transfer.symm⟩
      · exact ⟨by simp [transfer], transfer.symm⟩
  | ack contents =>
      obtain ⟨t, transfer, rfl⟩ := iso.acks d member contents payload
      exact ⟨by simp [transfer], transfer.symm⟩

/-- In every session of tidy moves, whatever the delays, the order of the
datagrams, the names and the results of `fopen`, transfers stay apart. -/
theorem contained {inst : Installation} {moves : List Move} {s : Session}
    (run : Run (Within (Session.Step inst) Tidy) Session.initial moves s)
    (move : Move) : Contained s move := by
  have apart : Apart s :=
    run.invariant .initial fun apart taken => apart.step taken.2 taken.1
  cases move with
  | toServer k env =>
      intro d found noText
      exact apart.toServer.inside (List.mem_of_getElem? found) noText
  | toClient k env =>
      intro d found noText
      exact apart.toClient.inside (List.mem_of_getElem? found) noText
  | _ => trivial

/-- A `GET` of a file with one byte, up to the first of the last acknowledgments
that the server takes; nine are still on their way. -/
def getOneByte : List Move :=
  let env := Environment.serving "f" [7]
  [.type (text "get") env, .toServer 0 env, .toClient 0 env, .type (text "f") env,
    .toServer 0 env, .toClient 0 env, .toServer 0 env, .toClient 0 env,
    .toServer 0 env, .toServer 0 env]

/-- The rest of that `GET`, and then a `PUT` of another file, up to the last
acknowledgments of the server. -/
def getAndPut : List Move :=
  let env := Environment.serving "f" [7]
  let other := Environment.serving "g" [8]
  getOneByte ++ List.replicate 9 (.toServer 0 env) ++
    [.serverTimeout env, .toClient 0 env, .type (text "put") other, .toServer 0 env,
      .toClient 0 other, .type (text "g") other, .toServer 0 env, .toClient 0 other,
      .toClient 0 other, .toServer 0 env]

theorem contained_getAndPut :
    ∃ s, Run (Within (Session.Step committed) Tidy) Session.initial getAndPut s ∧
      s.toClient.map (fun d => d.transfer) = List.replicate 11 (some 25) ∧
      Contained s (.toClient 0 (Environment.serving "g" [8])) := by
  have computed : (stepAll (Session.step committed) Tidy Session.initial
      getAndPut).map (fun s => s.toClient.map (fun d => d.transfer)) =
        some (List.replicate 11 (some 25)) := by
    decide +kernel
  obtain ⟨s, computed, transfers⟩ := Option.map_eq_some_iff.mp computed
  have run := run_of_stepAll _ _ computed
  exact ⟨s, run, transfers, contained run _⟩

/-- The server's drain loop times out before the other nine arrive: it takes the
next one for a command. -/
theorem ack_read_as_command :
    ∃ moves s after env,
      Run (Within (Session.Step committed) fun _ _ => True) Session.initial
        moves s ∧
      s.Step committed (.toServer 0 env) after ∧
      ¬ Contained s (.toServer 0 env) := by
  have computed : (stepAll (Session.step committed) (fun _ _ => True)
      Session.initial (getOneByte ++ [.serverTimeout (.serving "f" [7])])).map
      (fun s => (s.server.pc.role, s.toServer.head?.map fun d => d.transfer,
        s.toServer.head?.all fun d => !decide d.payload.IsText,
        (s.step committed (.toServer 0 (.serving "f" [7]))).isSome)) =
      some (.outside, some (some 5), true, true) := by
    decide +kernel
  obtain ⟨s, computed, values⟩ := Option.map_eq_some_iff.mp computed
  simp only [Prod.mk.injEq] at values
  obtain ⟨outside, transfer, noText, goesOn⟩ := values
  obtain ⟨d, head, named⟩ := Option.map_eq_some_iff.mp transfer
  obtain ⟨after, taken⟩ := Option.isSome_iff_exists.mp goesOn
  refine ⟨_, s, after, _, run_of_stepAll _ _ computed, taken, fun contained => ?_⟩
  have inside := (contained d (List.head?_eq_getElem? ▸ head) (by
    simpa [head] using noText)).2
  rw [outside, named] at inside
  exact absurd inside (by decide)

end Spqr
