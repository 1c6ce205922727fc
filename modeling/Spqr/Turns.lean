/-
Module: Spqr.Turns
Purpose: Every step of a session that takes none of the branches of `Lockstep`
  leads from one pair of waits to another.
Trusted boundary: none
Main exports:
  Lockstep.serverTakes, Lockstep.clientTakes, Lockstep.types,
  Lockstep.clientExpires, Lockstep.serverExpires, Session.InLockstep.step
-/
import Spqr.Lib.Channels
import Spqr.Lockstep
import Spqr.Notices

namespace Spqr

open Labelled Transfer

variable {inst : Installation} {stepwise : Prop}

/-! ### Channels -/

/-- Outside a transfer a party takes the oldest datagram. -/
theorem InTurn.oldest {k : ℕ} {d : Datagram} (turn : InTurn k .outside d) : k = 0 :=
  turn.resolve_right fun ⟨_, inside⟩ => inside rfl

/-- So it does with a text. -/
theorem InTurn.of_text {k : ℕ} {role : Role} {d : Datagram} (turn : InTurn k role d)
    (text : d.payload.IsText) : k = 0 :=
  turn.resolve_right fun ⟨noText, _⟩ => noText text

/-! ### The server on its way back to the head -/

theorem receiverRead_error (inst : Installation) (env : Environment) (r : Receiver) :
    receiverRead inst env r (.packet errorPacket) =
      some ({ r with result := some TRANSFER_ERROR }, []) := by
  have silent : finalAcks env.closes TRANSFER_ERROR r.sizeReceived = [] :=
    if_pos (.inr rfl)
  exact congrArg (fun acks => some (_, acks)) silent

theorem Ahead.texts {c : Client} {later : List Datagram} (ahead : Ahead stepwise c later) :
    ∀ e ∈ later, e.payload.IsText := by
  cases ahead <;> simp [Payload.IsText]

theorem Behind.atHead {s : Server} (behind : Behind stepwise s []) : s.pc = .head := by
  generalize nothing : ([] : List Datagram) = pre at behind
  cases behind with
  | head => rfl
  | aborted => simp at nothing
  | completed => simp at nothing
  | failed => simp at nothing

/-- Whatever the client has sent in the meantime, the server reads what it is behind
with, and says nothing. -/
theorem Behind.receives {s s' : Server} {pre later : List Datagram}
    (behind : Behind stepwise s pre) (texts : ∀ e ∈ later, e.payload.IsText)
    (left : pre ≠ []) {k : ℕ} {d : Datagram} (found : (pre ++ later)[k]? = some d)
    (turn : InTurn k s.pc.role d) {env : Environment}
    (unhurried : stepwise → s.pc.Unhurried env d) {fresh : ℕ} {out : List Datagram}
    (receives : s.receive inst env fresh d = some (s', out)) :
    out = [] ∧ ∃ pre', Behind stepwise s' pre' ∧
      (pre ++ later).eraseIdx k = pre' ++ later := by
  cases behind with
  | head => exact absurd rfl left
  | aborted =>
      obtain rfl := turn.oldest
      obtain rfl := Option.some.inj found
      simp only [Server.receive, Payload.bytes, cString_ABORT, if_true] at receives
      obtain ⟨rfl, rfl⟩ := Prod.mk.inj (Option.some.inj receives)
      exact ⟨rfl, [], .head, rfl⟩
  | @completed t buffer _ _ n packets strays whole =>
      simp only [Server.receive] at receives
      by_cases isText : d.payload.IsText
      · -- the oldest datagram is the marker itself
        obtain rfl := turn.of_text isText
        obtain rfl : packets = [] := by
          cases packets with
          | nil => rfl
          | cons first rest =>
              obtain rfl := Option.some.inj found
              exact absurd isText (strays _ List.mem_cons_self)
        obtain rfl := Option.some.inj found
        have terminated : buffer[feedback.TRANSFER_COMPLETED.length]? = some 0 := by
          rcases whole with fine | ⟨_, terminated⟩
          · exact (unhurried fine).1 isText
          · exact terminated
        rw [Payload.bytes, if_pos (bufferHolds_overlay terminated)] at receives
        split_ifs at receives
        obtain ⟨rfl, rfl⟩ := Prod.mk.inj (Option.some.inj receives)
        exact ⟨rfl, [], .head, rfl⟩
      · have early : k < packets.length := by
          by_contra late
          rw [List.append_assoc, List.getElem?_append_right (by omega)] at found
          have member := List.mem_of_getElem? found
          rcases List.mem_append.mp member with marker | new
          · rw [List.mem_singleton.mp marker] at isText
            exact isText ⟨_, rfl⟩
          · exact isText (texts d new)
        rcases whole with fine | ⟨rfl, _⟩
        · simp only [(unhurried fine).2 isText, Bool.false_eq_true, if_false] at receives
          split_ifs at receives
          obtain ⟨rfl, rfl⟩ := Prod.mk.inj (Option.some.inj receives)
          refine ⟨rfl,
            packets.eraseIdx k ++ [⟨.text feedback.TRANSFER_COMPLETED, none, n⟩],
            .completed ?_ (.inl fine), ?_⟩
          · exact fun e member => strays e (List.eraseIdx_subset member)
          · rw [List.append_assoc, List.eraseIdx_append_of_lt_length early,
              List.append_assoc]
        · simp at early
  | @failed t r size _ _ e fine listening error =>
      have first : k = 0 := by
        rcases turn with first | ⟨noText, _⟩
        · exact first
        · cases k with
          | zero => rfl
          | succ k => exact absurd (texts d (List.mem_of_getElem? found)) noText
      subst first
      obtain rfl := Option.some.inj found
      have closes : env.closes = true := unhurried fine
      simp only [Server.receive, error, receiverRead_error, Option.map_some,
        Server.afterLoop, closes, if_true] at receives
      obtain ⟨rfl, rfl⟩ := Prod.mk.inj (Option.some.inj receives)
      exact ⟨rfl, [], .head, rfl⟩

/-! ### The client on its way out of `GET` -/

namespace Marked

variable {n : ℕ} {ret : ℤ} {buffer : List UInt8} {packets : List Datagram}
  {marker : Datagram}

/-- The oldest datagram is a text only if it is the marker. -/
theorem oldest_text (marked : Marked stepwise n ret buffer packets marker) {k : ℕ}
    {d : Datagram} (found : (packets ++ [marker])[k]? = some d) (oldest : k = 0)
    (isText : d.payload.IsText) : packets = [] ∧ d = marker := by
  subst oldest
  cases packets with
  | nil => exact ⟨rfl, (Option.some.inj found).symm⟩
  | cons first rest =>
      obtain rfl := Option.some.inj found
      exact absurd isText (marked.strays _ List.mem_cons_self)

/-- Any other is a packet of a transfer that is looked at step by step. -/
theorem stray (marked : Marked stepwise n ret buffer packets marker) {k : ℕ}
    {d : Datagram} (found : (packets ++ [marker])[k]? = some d)
    (noText : ¬ d.payload.IsText) : k < packets.length ∧ stepwise := by
  have early : k < packets.length := by
    by_contra late
    rw [List.getElem?_append_right (by omega)] at found
    obtain ⟨_, rfl⟩ := Channels.at_singleton found
    rcases marked.text with text | ⟨text, _⟩
    · exact noText ⟨_, text⟩
    · exact noText ⟨_, text⟩
  refine ⟨early, marked.whole.resolve_right ?_⟩
  rintro ⟨rfl, _⟩
  simp at early

/-- The marker ends the loop. -/
theorem ends (marked : Marked stepwise n ret buffer packets marker)
    (terminated : stepwise → buffer[marker.payload.bytes.length]? = some 0) :
    drainEnds (drainRead ret buffer marker.payload.bytes) = true := by
  rcases marked.whole with fine | ⟨_, _, ends⟩
  · replace terminated := terminated fine
    rcases marked.text with text | ⟨text, rfl⟩
    · have room : feedback.TRANSFER_ERROR.length ≤
          if ret = EXIT_SUCCESS then feedback.TRANSFER_COMPLETED.length
          else feedback.TRANSFER_ERROR.length := by
        split_ifs
        · decide +kernel
        · exact le_rfl
      rw [text, Payload.bytes] at terminated ⊢
      rw [drainEnds, drainRead, List.take_of_length_le room,
        bufferHolds_overlay terminated, Bool.or_true]
    · rw [text, Payload.bytes] at terminated ⊢
      rw [drainEnds, drainRead, if_pos rfl, List.take_length,
        bufferHolds_overlay terminated, Bool.true_or]
  · exact ends

end Marked

/-! ### The server's turn -/

theorem Server.packetsOf_payload (s : Server) (t : ℕ) (packets : List Packet) :
    (s.packetsOf t packets).map Datagram.payload = packets.map .packet := by
  simp [Server.packetsOf]

theorem Server.acksOf_payload (s : Server) (t : ℕ) (acks : List AckPacket) :
    (s.acksOf t acks).map Datagram.payload = acks.map .ack := by
  simp [Server.acksOf]

theorem Server.sendingTo_running {s : Server} {t : ℕ} {sender : Sender}
    {packets : List Packet} (running : ∀ ret, sender.phase ≠ .returned ret) :
    s.sendingTo t sender packets =
      ({ s with pc := .sending t sender }, s.packetsOf t packets) := by
  unfold Server.sendingTo
  split
  · rename_i ret returned
    exact absurd returned (running ret)
  · rfl

theorem Client.acksOf_payload (c : Client) (t : ℕ) (acks : List AckPacket) :
    (c.acksOf t acks).map Datagram.payload = acks.map .ack := by
  simp [Client.acksOf]

/-- Inside `main_sender` the server goes on with the transfer. -/
theorem Server.sends {contents : List UInt8} {T : Transfer}
    {packets acks : List Datagram}
    (ongoing : Ongoing inst contents T packets acks) {k : ℕ} {d : Datagram}
    (found : acks[k]? = some d) {env : Environment} {fresh t n : ℕ} {accepted : Text}
    {s' : Server} {out : List Datagram}
    (receives : Server.receive inst env fresh ⟨.sending t T.sender, accepted, n⟩ d =
      some (s', out)) :
    ∃ T', s' = ⟨.sending t T'.sender, accepted, d.request⟩ ∧
      T'.receiver = T.receiver ∧
      Ongoing inst contents T' (packets ++ out) (acks.eraseIdx k) := by
  simp only [Server.receive] at receives
  obtain ⟨⟨sender, sent⟩, reads, result⟩ := Option.map_eq_some_iff.mp receives
  have next := ongoing.senderRead found reads
    (Server.packetsOf_payload ⟨.sending t T.sender, accepted, d.request⟩ t sent)
  rw [Server.sendingTo_running next.running] at result
  obtain ⟨rfl, rfl⟩ := Prod.mk.inj result
  exact ⟨_, rfl, rfl, next⟩

theorem Client.packetsOf_payload (c : Client) (t : ℕ) (packets : List Packet) :
    (c.packetsOf t packets).map Datagram.payload = packets.map .packet := by
  simp [Client.packetsOf]

theorem Client.sendingTo_running {c : Client} {t : ℕ} {sender : Sender}
    {packets : List Packet} (running : ∀ ret, sender.phase ≠ .returned ret) :
    c.sendingTo t sender packets =
      ({ c with pc := .sending t sender }, c.packetsOf t packets) := by
  unfold Client.sendingTo
  split
  · rename_i ret returned
    exact absurd returned (running ret)
  · rfl

/-- So does the client. -/
theorem Client.sends {contents : List UInt8} {T : Transfer}
    {packets acks : List Datagram}
    (ongoing : Ongoing inst contents T packets acks) {k : ℕ} {d : Datagram}
    (found : acks[k]? = some d) {env : Environment} {fresh t n : ℕ} {request : Text}
    {c' : Client} {out : List Datagram}
    (receives : Client.receive inst env fresh ⟨.sending t T.sender, request, n⟩ d =
      some (c', out)) :
    ∃ T', c' = ⟨.sending t T'.sender, request, n⟩ ∧ T'.receiver = T.receiver ∧
      Ongoing inst contents T' (packets ++ out) (acks.eraseIdx k) := by
  simp only [Client.receive] at receives
  obtain ⟨⟨sender, sent⟩, reads, result⟩ := Option.map_eq_some_iff.mp receives
  have next := ongoing.senderRead found reads
    (Client.packetsOf_payload ⟨.sending t T.sender, request, n⟩ t sent)
  rw [Client.sendingTo_running next.running] at result
  obtain ⟨rfl, rfl⟩ := Prod.mk.inj result
  exact ⟨_, rfl, rfl, next⟩

/-- A reply that does not come ends the session. -/
theorem Client.afterUserInput_EXIT (pc : ClientPc) (n : ℕ) :
    Client.afterUserInput ⟨pc, feedback.EXIT, n⟩ =
      (⟨.closeAwaitFINACK, feedback.EXIT, n + 1⟩, [⟨.text udp.FIN, none, n + 1⟩]) := by
  rw [Client.afterUserInput, if_pos rfl]
  rfl

theorem Client.sendingTo_returned {c : Client} {t : ℕ} {sender : Sender}
    {packets : List Packet} {ret : ℤ} (returned : sender.phase = .returned ret) :
    c.sendingTo t sender packets =
      ((c.afterSender ret).1, c.packetsOf t packets ++ (c.afterSender ret).2) := by
  rw [Client.sendingTo, returned]
  rfl

/-- A timeout lets the client go on with the transfer, or leave it in good order or
with the error packet. -/
theorem Client.sendingExpires {contents : List UInt8} {T : Transfer}
    {packets acks : List Datagram}
    (ongoing : Ongoing inst contents T packets acks) {env : Environment}
    {fresh t n : ℕ} {request : Text} {c' : Client} {out : List Datagram}
    (expires : Client.timeout inst env fresh ⟨.sending t T.sender, request, n⟩ =
      some (c', out)) :
    (∃ T', c' = ⟨.sending t T'.sender, request, n⟩ ∧ T'.receiver = T.receiver ∧
      Ongoing inst contents T' (packets ++ out) acks) ∨
    ((∃ last, T.sender.phase = .drain last) ∧ T.receiver.Finished ∧
      Client.completed ⟨.sending t T.sender, request, n⟩ = (c', out)) ∨
    ((∃ last, T.sender.phase = .drain last) ∧ MAX_ERRORS ≤ T.sender.maxErrors ∧
      ∃ e later, e.payload = .packet errorPacket ∧ out = e :: later ∧
        Client.start ⟨.sending t T.sender, request, n⟩ = (c', later)) := by
  simp only [Client.timeout] at expires
  obtain ⟨⟨sender, sent⟩, reacts, result⟩ := Option.map_eq_some_iff.mp expires
  rcases ongoing.expire reacts
      (Client.packetsOf_payload ⟨.sending t T.sender, request, n⟩ t sent) with
    ⟨running, next⟩ | ⟨drains, ⟨returned, silent, finished⟩ |
      ⟨returned, error, gaveUp⟩⟩
  · rw [Client.sendingTo_running running] at result
    obtain ⟨rfl, rfl⟩ := Prod.mk.inj result
    exact .inl ⟨⟨sender, T.receiver, _, _⟩, rfl, rfl, next⟩
  · rw [Client.sendingTo_returned returned, silent] at result
    exact .inr (.inl ⟨drains, finished, result⟩)
  · rw [Client.sendingTo_returned returned] at result
    obtain ⟨e, only, payload⟩ := List.map_eq_singleton_iff.mp error
    rw [only] at result
    obtain ⟨rfl, rfl⟩ := Prod.mk.inj result
    exact .inr (.inr ⟨drains, gaveUp, e, _, payload, rfl, rfl⟩)

theorem Server.sendingTo_returned {s : Server} {t : ℕ} {sender : Sender}
    {packets : List Packet} {ret : ℤ} (returned : sender.phase = .returned ret) :
    s.sendingTo t sender packets =
      ((s.afterSender ret).1, s.packetsOf t packets ++ (s.afterSender ret).2) := by
  rw [Server.sendingTo, returned]

/-- So does a timeout the server, which then says how the transfer ended. -/
theorem Server.sendingExpires {contents : List UInt8} {T : Transfer}
    {packets acks : List Datagram}
    (ongoing : Ongoing inst contents T packets acks) {env : Environment} {t n : ℕ}
    {accepted : Text} {s' : Server} {out : List Datagram}
    (expires : Server.timeout inst env ⟨.sending t T.sender, accepted, n⟩ =
      some (s', out)) :
    (∃ T', s' = ⟨.sending t T'.sender, accepted, n⟩ ∧ T'.receiver = T.receiver ∧
      Ongoing inst contents T' (packets ++ out) acks) ∨
    ((∃ last, T.sender.phase = .drain last) ∧ s' = ⟨.head, accepted, n⟩ ∧
      (T.receiver.Finished ∧
          out = [⟨.text feedback.TRANSFER_COMPLETED, none, n⟩] ∨
        ∃ e, e.payload = .packet errorPacket ∧
          out = [e, ⟨.text feedback.TRANSFER_ERROR, none, n⟩])) := by
  simp only [Server.timeout] at expires
  obtain ⟨⟨sender, sent⟩, reacts, result⟩ := Option.map_eq_some_iff.mp expires
  rcases ongoing.expire reacts
      (Server.packetsOf_payload ⟨.sending t T.sender, accepted, n⟩ t sent) with
    ⟨running, next⟩ | ⟨drains, ⟨returned, silent, finished⟩ |
      ⟨returned, error, gaveUp⟩⟩
  · rw [Server.sendingTo_running running] at result
    obtain ⟨rfl, rfl⟩ := Prod.mk.inj result
    exact .inl ⟨⟨sender, T.receiver, _, _⟩, rfl, rfl, next⟩
  · rw [Server.sendingTo_returned returned, silent, Server.afterSender,
      if_pos rfl] at result
    obtain ⟨rfl, rfl⟩ := Prod.mk.inj result
    exact .inr ⟨drains, rfl, .inl ⟨finished, rfl⟩⟩
  · obtain ⟨e, only, payload⟩ := List.map_eq_singleton_iff.mp error
    rw [Server.sendingTo_returned returned, only, Server.afterSender,
      if_neg (by decide), if_pos rfl] at result
    obtain ⟨rfl, rfl⟩ := Prod.mk.inj result
    exact .inr ⟨drains, rfl, .inr ⟨e, payload, rfl⟩⟩

/-- A command is answered once, and with a `FINACK` never; `EXIT` is not answered. -/
theorem Server.command_cases {env : Environment} {accepted : Text} {n : ℕ}
    {command : Text}
    (single : command = cmd.LIST → (listServerFiles env.listing).length = 1) :
    (command = feedback.EXIT ∧
      Server.command env ⟨.head, accepted, n⟩ command =
        (⟨.closeAwaitFIN, command, n⟩, [])) ∨
    ∃ s reply, Server.command env ⟨.head, accepted, n⟩ command = (s, [reply]) ∧
      Follows command n s ∧ reply.request = n ∧
        cString reply.payload.bytes ≠ udp.FINACK := by
  unfold Server.command
  simp only
  split_ifs with list get put close exit
  · obtain ⟨message, only⟩ := List.length_eq_one_iff.mp (single list)
    rw [only, List.map_singleton]
    refine .inr ⟨_, _, rfl, ⟨?_, rfl, rfl, ?_⟩, rfl, listing_ne_FINACK only⟩
    · subst list
      rw [if_neg (by decide +kernel), if_neg (by decide +kernel),
        if_neg (by decide +kernel)]
    · subst list
      decide +kernel
  · refine .inr ⟨_, _, rfl, ⟨(if_pos get).symm, rfl, rfl, ?_⟩, rfl, ?_⟩
    · subst get
      decide +kernel
    · exact (by decide +kernel : cString SPQR_INSERT_FILENAME ≠ udp.FINACK)
  · refine .inr ⟨_, _, rfl, ⟨?_, rfl, rfl, ?_⟩, rfl, ?_⟩
    · rw [if_neg get, if_pos put]
    · subst put
      decide +kernel
    · exact (by decide +kernel : cString cmd.PUT ≠ udp.FINACK)
  · refine .inr ⟨_, _, rfl, ⟨?_, rfl, rfl, ?_⟩, rfl, ?_⟩
    · rw [if_neg get, if_neg put, if_pos close]
    · subst close
      decide +kernel
    · exact (by decide +kernel : cString cmd.CLOSE ≠ udp.FINACK)
  · exact .inl ⟨exit, rfl⟩
  · refine .inr ⟨_, _, rfl, ⟨?_, rfl, rfl, exit⟩, rfl, ?_⟩
    · rw [if_neg get, if_neg put, if_neg close]
    · exact (by decide +kernel : cString SPQR_COMMAND_NOT_FOUND ≠ udp.FINACK)

namespace Lockstep

variable {c : Client} {s : Server} {toServer toClient : List Datagram}
  {clock k : ℕ} {d : Datagram} {env : Environment}

/-- At the head the server takes what the client has sent last. -/
theorem ofCommand {accepted : Text} {later : List Datagram}
    (ahead : Ahead stepwise c later) (oldest : k = 0) (found : later[k]? = some d)
    (single : spqrUpper (cString d.payload.bytes) = cmd.LIST →
      (listServerFiles env.listing).length = 1) {s' : Server} {out : List Datagram}
    (takes : Server.command env ⟨.head, accepted, d.request⟩
      (spqrUpper (cString d.payload.bytes)) = (s', out)) :
    Lockstep inst stepwise c s' (later.eraseIdx k) out := by
  subst oldest
  have cases := @Server.command_cases _ accepted d.request _ single
  rw [takes] at cases
  cases ahead with
  | prompt => simp at found
  | asked whole =>
      obtain rfl := Option.some.inj found
      rcases cases with ⟨_, runs⟩ | ⟨s', reply, runs, follows, answers, noFinack⟩
      · obtain ⟨rfl, rfl⟩ := Prod.mk.inj runs
        exact .unanswered
      · obtain ⟨rfl, rfl⟩ := Prod.mk.inj runs
        simp only [Payload.bytes, whole] at follows
        exact .answered follows answers noFinack
  | gone fine =>
      obtain rfl := Option.some.inj found
      rcases cases with ⟨_, runs⟩ | ⟨s', reply, runs, _, _, noFinack⟩
      · obtain ⟨rfl, rfl⟩ := Prod.mk.inj runs
        exact .closing (.inl fine)
      · obtain ⟨rfl, rfl⟩ := Prod.mk.inj runs
        exact .late fine noFinack
  | closing fine =>
      obtain rfl := Option.some.inj found
      rcases cases with ⟨exit, _⟩ | ⟨s', reply, runs, _, _, noFinack⟩
      · exact absurd exit
          (by decide +kernel : spqrUpper (cString udp.FIN) ≠ feedback.EXIT)
      · obtain ⟨rfl, rfl⟩ := Prod.mk.inj runs
        exact .late fine noFinack

/-- The server takes a datagram. -/
theorem serverTakes (lock : Lockstep inst stepwise c s toServer toClient)
    (allowed : Allowed stepwise ⟨c, s, toServer, toClient, clock⟩ (.toServer k env))
    (found : toServer[k]? = some d) {s' : Server} {out : List Datagram}
    (receives : s.receive inst env clock d = some (s', out)) :
    Lockstep inst stepwise c s' (toServer.eraseIdx k) (toClient ++ out) := by
  obtain ⟨turn, prudent⟩ := allowed.prudent d found
  have unhurried := fun fine => allowed.unhurried fine d found
  have atomic := fun coarse => allowed.atomic coarse d found
  simp only at turn prudent unhurried atomic
  cases lock with
  | @behind _ _ pre later behind ahead =>
      by_cases left : pre = []
      · subst left
        obtain ⟨pc, accepted, answering⟩ := s
        obtain rfl : pc = .head := behind.atHead
        simp only [Server.receive, Option.some.injEq] at receives
        exact ofCommand ahead turn.oldest found prudent receives
      · obtain ⟨rfl, pre', behind', rest⟩ :=
          behind.receives ahead.texts left found turn unhurried receives
        rw [rest]
        exact .behind behind' ahead
  | late fine noFinack => exact .late fine noFinack
  | @named line accepted n m whole =>
      obtain ⟨rfl, rfl⟩ := Channels.at_singleton found
      simp only [Server.receive, Payload.bytes, whole] at receives
      simp only [Payload.bytes, whole] at prudent atomic
      split_ifs at receives with known
      · obtain ⟨rfl, rfl⟩ := Prod.mk.inj (Option.some.inj receives)
        obtain ⟨noGet, noPut, other⟩ := prudent known
        refine .found whole ⟨noGet, noPut, ?_⟩ other
        by_cases fine : stepwise
        · exact .inl fine
        · exact .inr (atomic fine known)
      · obtain ⟨rfl, rfl⟩ := Prod.mk.inj (Option.some.inj receives)
        exact .missing
  | @fetching line accepted n m t harmless =>
      obtain ⟨rfl, rfl⟩ := Channels.at_singleton found
      have fine : stepwise := Classical.not_not.mp atomic
      simp only [Server.receive, Payload.bytes, cString_START, if_true,
        Option.getD_some] at receives
      obtain ⟨opens, fits⟩ := unhurried fine cString_START
      rw [Server.mainSender, if_pos opens] at receives
      obtain ⟨⟨sender, packets⟩, started, result⟩ := Option.map_eq_some_iff.mp receives
      obtain ⟨rfl, rfl⟩ := Prod.mk.inj result
      exact .getting fine harmless
        (.start fits started (Server.packetsOf_payload _ _ _)) rfl
  | getting fine harmless ongoing listening =>
      obtain ⟨T', rfl, same, next⟩ := Server.sends ongoing found receives
      rw [← same] at listening ⊢
      exact .getting fine harmless next listening
  | outliving fine harmless ongoing finished =>
      obtain ⟨T', rfl, same, next⟩ := Server.sends ongoing found receives
      exact .outliving fine harmless next (same ▸ finished)
  | @offering name accepted n m whole noAbort =>
      obtain ⟨rfl, rfl⟩ := Channels.at_singleton found
      simp only [Server.receive, Payload.bytes, whole, Server.mainReceiver] at receives
      simp only [ServerPc.Unhurried, Payload.bytes, whole] at unhurried
      split_ifs at receives with abort known opens
      · obtain ⟨rfl, rfl⟩ := Prod.mk.inj (Option.some.inj receives)
        exact .stuck (fun fine => noAbort fine abort) trivial trivial
      · obtain ⟨rfl, rfl⟩ := Prod.mk.inj (Option.some.inj receives)
        exact .refused
      · obtain ⟨rfl, rfl⟩ := Prod.mk.inj (Option.some.inj receives)
        exact .welcomed
      · obtain ⟨rfl, rfl⟩ := Prod.mk.inj (Option.some.inj receives)
        exact .unwelcome fun fine => opens (unhurried fine abort known)
  | @putting accepted n m t size contents T _ _ fine ongoing listening =>
      simp only [Server.receive] at receives
      obtain ⟨⟨r, sent⟩, reads, result⟩ := Option.map_eq_some_iff.mp receives
      have closes : env.closes = true := unhurried fine
      obtain ⟨outcome, next⟩ := ongoing.receiverRead listening found closes reads
        (Server.acksOf_payload ⟨.receiving t T.receiver size, accepted, d.request⟩ t
          sent)
      rcases outcome with listening | ⟨finished, ret, returned, success⟩
      · simp only [listening] at result
        obtain ⟨rfl, rfl⟩ := Prod.mk.inj result
        exact .putting fine next listening
      · simp only [returned, Server.afterLoop, closes, if_true, success] at result
        obtain ⟨rfl, rfl⟩ := Prod.mk.inj result
        exact .stored (T := ⟨T.sender, r, _, _⟩) fine next finished
  | @stored accepted n m t contents buffer T _ _ fine ongoing finished =>
      have noText := ongoing.noText d (List.mem_of_getElem? found)
      simp only [Server.receive, (unhurried fine).2 noText, Bool.false_eq_true,
        if_false] at receives
      split_ifs at receives
      obtain ⟨rfl, rfl⟩ := Prod.mk.inj (Option.some.inj receives)
      rw [List.append_nil]
      exact .stored (T := { T with packets := T.packets.eraseIdx k }) fine
        (ongoing.strayed k) finished
  | @closing request accepted n m agreed =>
      obtain ⟨rfl, rfl⟩ := Channels.at_singleton found
      simp only [Server.receive, Payload.bytes, cString_FIN, if_true] at receives
      obtain ⟨rfl, rfl⟩ := Prod.mk.inj (Option.some.inj receives)
      exact .acknowledged (agreed.imp id fun accepts close => (accepts close).1)
  | finished => exact .finished
  | _ => simp at found

/-! ### The client's turn -/

/-- Back at `start:` with no command left in `request`, the client is ahead. -/
theorem ofStart {pre : List Datagram} (behind : Behind stepwise s pre)
    {pc : ClientPc} {request : Text} {n : ℕ} (harmless : Harmless stepwise request)
    {c' : Client} {out : List Datagram}
    (starts : Client.start ⟨pc, request, n⟩ = (c', out)) :
    Lockstep inst stepwise c' s (pre ++ out) [] := by
  obtain ⟨noGet, noPut, noClose⟩ := harmless
  unfold Client.start at starts
  simp only [if_neg noGet, if_neg noPut] at starts
  split_ifs at starts with close
  · obtain ⟨rfl, rfl⟩ := Prod.mk.inj starts
    exact .behind behind (.closing (noClose.resolve_right fun other => other close))
  · obtain ⟨rfl, rfl⟩ := Prod.mk.inj starts
    exact .behind behind .prompt

/-- `got` with the server's notice alone. -/
theorem gotAlone {line accepted : Text} {n m t : ℕ} {ret : ℤ} {buffer : List UInt8}
    {marker : Datagram} (harmless : Harmless stepwise line)
    (marked : Marked stepwise n ret buffer [] marker) :
    Lockstep inst stepwise ⟨.getDrain t ret buffer, line, n⟩ ⟨.head, accepted, m⟩
      [] [marker] :=
  @Lockstep.got inst stepwise line accepted n m t ret buffer [] marker harmless marked

/-- And so it is when it has sent `TRANSFER_COMPLETED`. -/
theorem ofCompleted {packets : List Datagram} {request : Text} {n : ℕ}
    (behind : Behind stepwise s
      (packets ++ [⟨.text feedback.TRANSFER_COMPLETED, none, n + 1⟩]))
    {pc : ClientPc} (harmless : Harmless stepwise request) {c' : Client}
    {out : List Datagram}
    (completes : Client.completed ⟨pc, request, n⟩ = (c', out)) :
    Lockstep inst stepwise c' s (packets ++ out) [] := by
  simp only [Client.completed, Client.andThen, Client.sendText] at completes
  obtain rfl := congrArg Prod.fst completes
  obtain rfl := congrArg Prod.snd completes
  rw [← List.append_assoc]
  exact ofStart behind harmless rfl

/-- `ofCompleted` with nothing before it, and a buffer that is long enough. -/
theorem completedAlone {t : ℕ} {buffer : List UInt8} {accepted : Text}
    {answering : ℕ} (whole : buffer[feedback.TRANSFER_COMPLETED.length]? = some 0)
    {pc : ClientPc} {request : Text} {n : ℕ} (harmless : Harmless stepwise request)
    {c' : Client} {out : List Datagram}
    (completes : Client.completed ⟨pc, request, n⟩ = (c', out)) :
    Lockstep inst stepwise c' ⟨.putDrain t buffer, accepted, answering⟩ out [] := by
  have behind : Behind stepwise ⟨.putDrain t buffer, accepted, answering⟩
      ([] ++ [⟨.text feedback.TRANSFER_COMPLETED, none, n + 1⟩]) :=
    .completed (by simp) (.inr ⟨rfl, whole⟩)
  exact ofCompleted behind harmless completes

theorem harmless_empty : Harmless stepwise [] :=
  ⟨by decide +kernel, by decide +kernel, .inr (by decide +kernel)⟩

theorem harmless_NOT_EXIST : Harmless stepwise file.NOT_EXIST :=
  have ⟨_, noGet, noPut, noClose⟩ := NOT_EXIST_ne
  ⟨noGet, noPut, .inr noClose⟩

/-- The client has read the answer to its command. -/
theorem ofReply {command : Text} {n : ℕ} (follows : Follows command n s)
    {pc : ClientPc} {c' : Client} {out : List Datagram}
    (goesOn : Client.afterUserInput ⟨pc, command, n⟩ = (c', out)) :
    Lockstep inst stepwise c' s out [] := by
  obtain ⟨serverPc, accepted, answering⟩ := s
  obtain ⟨same, accepts, answers, noExit⟩ := follows
  dsimp only at same accepts answers
  subst same accepts answers
  rw [Client.afterUserInput, if_neg noExit, Client.start] at goesOn
  simp only at goesOn
  split_ifs at goesOn with close get put <;>
    obtain ⟨rfl, rfl⟩ := Prod.mk.inj goesOn
  · subst close
    rw [if_neg CLOSE_ne.1, if_neg CLOSE_ne.2, if_pos rfl]
    exact .closing (.inr fun _ => ⟨rfl, rfl⟩)
  · subst get
    rw [if_pos rfl]
    exact .naming
  · subst put
    rw [if_neg PUT_ne_GET, if_pos rfl]
    exact .choosing
  · rw [if_neg get, if_neg put, if_neg close]
    exact .behind .head .prompt

/-- The client takes a datagram. -/
theorem clientTakes (lock : Lockstep inst stepwise c s toServer toClient)
    (allowed : Allowed stepwise ⟨c, s, toServer, toClient, clock⟩ (.toClient k env))
    (found : toClient[k]? = some d) {c' : Client} {out : List Datagram}
    (receives : c.receive inst env clock d = some (c', out)) :
    Lockstep inst stepwise c' s (toServer ++ out) (toClient.eraseIdx k) := by
  have turn := allowed.prudent d found
  have unhurried := fun fine => allowed.unhurried fine d found
  have atomic := allowed.atomic
  simp only [Atomic] at turn unhurried atomic
  cases lock with
  | answered follows answers noFinack =>
      obtain ⟨rfl, rfl⟩ := Channels.at_singleton found
      simp only [Client.receive, Option.some.injEq] at receives
      exact ofReply follows receives
  | late fine noFinack =>
      obtain rfl := turn.oldest
      obtain rfl := Option.some.inj found
      simp only [Client.receive, if_neg noFinack] at receives
      obtain ⟨rfl, rfl⟩ := Prod.mk.inj (Option.some.inj receives)
      exact .finished
  | missing =>
      obtain ⟨rfl, rfl⟩ := Channels.at_singleton found
      simp only [Client.receive, Payload.bytes, cString_NOT_FOUND, if_true,
        Option.some.injEq] at receives
      exact ofStart .head harmless_empty receives
  | found whole harmless other =>
      obtain ⟨rfl, rfl⟩ := Channels.at_singleton found
      simp only [Client.receive, Payload.bytes, whole, if_neg other,
        Option.some.injEq, Client.mainReceiver] at receives
      simp only [ClientPc.Unhurried, Payload.bytes, whole] at unhurried
      split_ifs at receives with opens
      · obtain ⟨rfl, rfl⟩ := Prod.mk.inj receives
        exact .fetching harmless
      · obtain ⟨rfl, rfl⟩ := Prod.mk.inj receives
        exact .stuck (fun fine => opens (unhurried fine other)) trivial trivial
  | @getting line accepted n m t contents T _ _ fine harmless ongoing listening =>
      simp only [Client.receive] at receives
      obtain ⟨⟨r, sent⟩, reads, result⟩ := Option.map_eq_some_iff.mp receives
      have closes : env.closes = true := unhurried fine
      obtain ⟨outcome, next⟩ := ongoing.receiverRead listening found closes reads
        (Client.acksOf_payload ⟨.receiving t T.receiver, line, n⟩ t sent)
      rcases outcome with listening | ⟨finished, ret, returned, success⟩
      · simp only [listening] at result
        obtain ⟨rfl, rfl⟩ := Prod.mk.inj result
        exact .getting (T := ⟨T.sender, r, _, _⟩) fine harmless next listening
      · simp only [returned, Client.afterLoop, closes, if_true, success] at result
        obtain ⟨rfl, rfl⟩ := Prod.mk.inj result
        exact .outliving (T := ⟨T.sender, r, _, _⟩) fine harmless next finished
  | @outliving line accepted n m t contents buffer T _ _ fine harmless ongoing
      finished =>
      have noText := ongoing.noText d (List.mem_of_getElem? found)
      simp only [Client.receive, (unhurried fine).2 noText, Bool.false_eq_true,
        if_false] at receives
      obtain ⟨rfl, rfl⟩ := Prod.mk.inj (Option.some.inj receives)
      rw [List.append_nil]
      exact .outliving (T := { T with packets := T.packets.eraseIdx k }) fine
        harmless (ongoing.strayed k) finished
  | @abandoned line accepted n m t r e marker fine harmless listening error text =>
      have first : k = 0 := by
        cases k with
        | zero => rfl
        | succ k =>
            obtain ⟨_, rfl⟩ := Channels.at_singleton found
            exact turn.of_text ⟨_, text⟩
      subst first
      obtain rfl := Option.some.inj found
      have closes : env.closes = true := unhurried fine
      simp only [Client.receive, error, receiverRead_error, Option.map_some,
        Client.afterLoop, closes, if_true] at receives
      obtain ⟨rfl, rfl⟩ := Prod.mk.inj (Option.some.inj receives)
      exact gotAlone harmless ⟨by simp, .inl text, .inl fine⟩
  | @got line accepted n m t ret buffer packets marker harmless marked =>
      simp only [Client.receive] at receives
      by_cases isText : d.payload.IsText
      · obtain rfl := turn.of_text isText
        obtain ⟨rfl, rfl⟩ := marked.oldest_text found rfl isText
        rw [if_pos (marked.ends fun fine => (unhurried fine).1 isText)] at receives
        exact ofStart .head harmless (Option.some.inj receives)
      · obtain ⟨early, fine⟩ := marked.stray found isText
        rw [if_neg (by simp [(unhurried fine).2 isText])] at receives
        obtain ⟨rfl, rfl⟩ := Prod.mk.inj (Option.some.inj receives)
        rw [List.eraseIdx_append_of_lt_length early]
        exact .got harmless ⟨fun e member =>
          marked.strays e (List.eraseIdx_subset member), marked.text, .inl fine⟩
  | refused =>
      obtain ⟨rfl, rfl⟩ := Channels.at_singleton found
      simp only [Client.receive, Payload.bytes, cString_EXIST, if_true,
        Option.some.injEq] at receives
      exact ofStart .head harmless_empty receives
  | welcomed =>
      obtain rfl := turn.oldest
      obtain rfl := Option.some.inj found
      simp only [Client.receive, Payload.bytes, cString_NOT_EXIST] at receives
      rw [if_neg NOT_EXIST_ne.1] at receives
      obtain ⟨rfl, rfl⟩ := Prod.mk.inj (Option.some.inj receives)
      exact .storing
  | unwelcome coarse =>
      obtain ⟨rfl, rfl⟩ := Channels.at_singleton found
      simp only [Client.receive, Payload.bytes, cString_NOT_EXIST] at receives
      rw [if_neg NOT_EXIST_ne.1] at receives
      obtain ⟨rfl, rfl⟩ := Prod.mk.inj (Option.some.inj receives)
      exact .stuck coarse trivial trivial
  | storing =>
      obtain ⟨rfl, rfl⟩ := Channels.at_singleton found
      have fine : stepwise := Classical.not_not.mp atomic
      simp only [Client.receive, Payload.bytes, cString_START, if_true,
        Option.getD_some] at receives
      obtain ⟨opens, fits⟩ := unhurried fine cString_START
      rw [Client.mainSender, if_pos opens] at receives
      obtain ⟨⟨sender, packets⟩, started, result⟩ := Option.map_eq_some_iff.mp receives
      obtain ⟨rfl, rfl⟩ := Prod.mk.inj result
      exact .putting fine (.start fits started (Client.packetsOf_payload _ _ _)) rfl
  | putting fine ongoing listening =>
      obtain ⟨T', rfl, same, next⟩ := Client.sends ongoing found receives
      rw [← same] at listening ⊢
      exact .putting fine next listening
  | stored fine ongoing finished =>
      obtain ⟨T', rfl, same, next⟩ := Client.sends ongoing found receives
      exact .stored fine next (same ▸ finished)
  | acknowledged agreed =>
      obtain rfl := turn.oldest
      obtain rfl := Option.some.inj found
      simp only [Client.receive, Payload.bytes, cString_FINACK, if_true] at receives
      obtain ⟨rfl, rfl⟩ := Prod.mk.inj (Option.some.inj receives)
      exact .ending
  | ending =>
      obtain ⟨rfl, rfl⟩ := Channels.at_singleton found
      simp only [Client.receive, Payload.bytes, cString_FIN, if_true] at receives
      obtain ⟨rfl, rfl⟩ := Prod.mk.inj (Option.some.inj receives)
      exact .finished
  | finished => simp [Client.receive] at receives
  | _ => simp at found

/-- The user types a line. -/
theorem types (lock : Lockstep inst stepwise c s toServer toClient)
    {typed : List UInt8}
    (allowed : Allowed stepwise ⟨c, s, toServer, toClient, clock⟩ (.type typed env))
    {c' : Client} {out : List Datagram}
    (types : c.type env typed = some (c', out)) :
    Lockstep inst stepwise c' s (toServer ++ out) toClient := by
  have unhurried := allowed.unhurried
  simp only [Unhurried] at unhurried
  have whole := cString_readLine typed
  cases lock with
  | @behind _ _ pre later behind ahead =>
      cases ahead with
      | prompt =>
          simp only [Client.type, Option.some.injEq] at types
          obtain ⟨rfl, rfl⟩ := Prod.mk.inj types
          rw [List.append_nil]
          exact .behind behind (.asked whole)
      | _ => simp [Client.type] at types
  | naming =>
      simp only [Client.type, Option.some.injEq] at types
      obtain ⟨rfl, rfl⟩ := Prod.mk.inj types
      exact .named whole
  | choosing =>
      simp only [Client.type] at types
      split_ifs at types with known
      · obtain ⟨rfl, rfl⟩ := Prod.mk.inj (Option.some.inj types)
        exact .offering whole fun fine => unhurried fine known
      · simp only [Option.some.injEq, Client.andThen, Client.sendText] at types
        obtain rfl := congrArg Prod.fst types
        obtain rfl := congrArg Prod.snd types
        exact ofStart (.aborted) harmless_empty rfl
  | @stuck pc request n _ coarse waits idle =>
      cases pc with
      | putAwaitExist | putAwaitStart | getDrain => simp [Client.type] at types
      | _ => exact waits.elim
  | _ => simp [Client.type] at types

/-- The client's `recvfrom` times out. -/
theorem clientExpires (lock : Lockstep inst stepwise c s toServer toClient)
    (allowed : Allowed stepwise ⟨c, s, toServer, toClient, clock⟩
      (.clientTimeout env))
    {c' : Client} {out : List Datagram}
    (expires : c.timeout inst env clock = some (c', out)) :
    Lockstep inst stepwise c' s (toServer ++ out) toClient := by
  have prudent := allowed.prudent
  have unhurried := allowed.unhurried
  have atomic := allowed.atomic
  simp only [Prudent, Unhurried, Atomic] at prudent unhurried atomic
  cases lock with
  | @behind _ _ pre later behind ahead =>
      cases ahead with
      | @asked line n whole =>
          simp only [Client.timeout, Client.afterUserInput_EXIT, Option.some.injEq]
          at expires
          obtain ⟨rfl, rfl⟩ := Prod.mk.inj expires
          have fine : stepwise := by
            by_contra coarse
            have quiet := (atomic coarse).1
            simp at quiet
          rw [List.append_assoc]
          exact .behind behind (.gone fine)
      | _ => simp [Client.timeout] at expires
  | answered follows answers noFinack =>
      simp only [Client.timeout, Client.afterUserInput_EXIT, Option.some.injEq] at expires
      obtain ⟨rfl, rfl⟩ := Prod.mk.inj expires
      have fine : stepwise := by
        by_contra coarse
        have quiet := (atomic coarse).2
        simp at quiet
      exact .late fine noFinack
  | unanswered =>
      simp only [Client.timeout, Client.afterUserInput_EXIT, Option.some.injEq] at expires
      obtain ⟨rfl, rfl⟩ := Prod.mk.inj expires
      exact .closing (.inr fun same => absurd same EXIT_ne.2.2.2)
  | named => exact absurd prudent.1 (by simp)
  | missing => exact absurd prudent.2 (by simp)
  | found => exact absurd prudent.2 (by simp)
  | outliving fine harmless ongoing finished =>
      simp only [Client.timeout] at expires
      obtain ⟨rfl, rfl⟩ := Prod.mk.inj (Option.some.inj expires)
      rw [List.append_nil]
      exact .outliving fine harmless ongoing finished
  | got harmless marked =>
      simp only [Client.timeout] at expires
      obtain ⟨rfl, rfl⟩ := Prod.mk.inj (Option.some.inj expires)
      exact .got harmless marked
  | @putting accepted n m t size contents T _ _ fine ongoing listening =>
      obtain ⟨drained, _⟩ := unhurried fine
      rcases Client.sendingExpires ongoing expires with
        ⟨T', rfl, same, next⟩ | ⟨_, finished, _⟩ |
        ⟨⟨last, drains⟩, _, e, later, error, rfl, starts⟩
      · rw [← same] at listening ⊢
        exact .putting fine next listening
      · simp [Receiver.Finished, listening] at finished
      · rw [drains] at drained
        obtain ⟨rfl, unsent⟩ := drained
        obtain rfl := unsent rfl
        exact ofStart (.failed fine listening error) harmless_NOT_EXIST starts
  | @stored accepted n m t contents buffer T _ _ fine ongoing finished =>
      obtain ⟨drained, patient⟩ := unhurried fine
      rcases Client.sendingExpires ongoing expires with
        ⟨T', rfl, same, next⟩ | ⟨⟨last, drains⟩, _, completes⟩ | ⟨_, gaveUp, _⟩
      · exact .stored fine next (same ▸ finished)
      · rw [drains] at drained
        obtain ⟨rfl, _⟩ := drained
        exact ofCompleted (.completed ongoing.noText (.inl fine)) harmless_NOT_EXIST
          completes
      · exact absurd (patient gaveUp) (by simp [ServerPc.role])
  | @stuck pc request n _ coarse waits idle =>
      cases pc with
      | putAwaitExist | putAwaitStart => simp [Client.timeout] at expires
      | getDrain t ret buffer =>
          simp only [Client.timeout] at expires
          obtain ⟨rfl, rfl⟩ := Prod.mk.inj (Option.some.inj expires)
          exact .stuck coarse waits idle
      | _ => exact waits.elim
  | _ => simp [Client.timeout] at expires

/-- The server's `recvfrom` times out. -/
theorem serverExpires (lock : Lockstep inst stepwise c s toServer toClient)
    (allowed : Allowed stepwise ⟨c, s, toServer, toClient, clock⟩
      (.serverTimeout env))
    {s' : Server} {out : List Datagram}
    (expires : s.timeout inst env = some (s', out)) :
    Lockstep inst stepwise c s' toServer (toClient ++ out) := by
  have prudent := allowed.prudent
  have unhurried := allowed.unhurried
  simp only [Prudent, Unhurried] at prudent unhurried
  cases lock with
  | behind behind ahead =>
      cases behind with
      | completed strays whole =>
          simp only [Server.timeout] at expires
          obtain ⟨rfl, rfl⟩ := Prod.mk.inj (Option.some.inj expires)
          exact .behind (.completed strays whole) ahead
      | _ => simp [Server.timeout] at expires
  | answered follows answers noFinack =>
      rw [Server.timeout, follows.pc] at expires
      split_ifs at expires
  | late fine noFinack => exact .late fine noFinack
  | found => exact absurd prudent.2 (by simp)
  | fetching => exact absurd prudent.1 (by simp)
  | getting fine harmless ongoing listening =>
      have drained := unhurried fine
      dsimp only at drained
      rcases Server.sendingExpires ongoing expires with
        ⟨T', rfl, same, next⟩ | ⟨⟨last, drains⟩, rfl, ⟨finished, rfl⟩ | ⟨e, error, rfl⟩⟩
      · rw [← same] at listening ⊢
        exact .getting fine harmless next listening
      · simp [Receiver.Finished, listening] at finished
      · rw [drains] at drained
        obtain ⟨rfl, unsent⟩ := drained
        obtain rfl := unsent rfl
        exact .abandoned fine harmless listening error rfl
  | outliving fine harmless ongoing finished =>
      have drained := unhurried fine
      dsimp only at drained
      rcases Server.sendingExpires ongoing expires with
        ⟨T', rfl, same, next⟩ | ⟨⟨last, drains⟩, rfl, ⟨_, rfl⟩ | ⟨e, error, rfl⟩⟩
      · exact .outliving fine harmless next (same ▸ finished)
      · rw [drains] at drained
        obtain ⟨rfl, _⟩ := drained
        exact .got harmless ⟨ongoing.noText, .inr ⟨rfl, rfl⟩, .inl fine⟩
      · rw [drains] at drained
        obtain ⟨rfl, _⟩ := drained
        rw [show [e, _] = [e] ++ [_] from rfl, ← List.append_assoc]
        refine .got harmless ⟨?_, .inl rfl, .inl fine⟩
        intro stray member
        rcases List.mem_append.mp member with old | new
        · exact ongoing.noText stray old
        · rw [List.mem_singleton.mp new, error]
          simp [Payload.IsText]
  | stored fine ongoing finished =>
      simp only [Server.timeout] at expires
      obtain ⟨rfl, rfl⟩ := Prod.mk.inj (Option.some.inj expires)
      rw [List.append_nil]
      exact .stored fine ongoing finished
  | finished => exact .finished
  | @stuck _ _ _ s coarse waits idle =>
      obtain ⟨pc, accepted, answering⟩ := s
      cases pc with
      | head | exited => simp [Server.timeout] at expires
      | getAwaitStart =>
          simp only [Server.timeout] at expires
          obtain ⟨rfl, rfl⟩ := Prod.mk.inj (Option.some.inj expires)
          exact .stuck coarse waits trivial
      | _ => exact idle.elim
  | _ => simp [Server.timeout] at expires

end Lockstep

/-! ### Whole sessions -/

/-- The two parties of the session wait as `Lockstep` says. -/
def Session.InLockstep (inst : Installation) (stepwise : Prop) (s : Session) : Prop :=
  Lockstep inst stepwise s.client s.server s.toServer s.toClient

theorem Session.InLockstep.initial : Session.initial.InLockstep inst stepwise :=
  .behind .head .prompt

/-- A step that takes none of the branches keeps the parties in lockstep. -/
theorem Session.InLockstep.step {before after : Session} {move : Move}
    (lock : before.InLockstep inst stepwise) (allowed : Allowed stepwise before move)
    (taken : before.Step inst move after) : after.InLockstep inst stepwise := by
  unfold Session.Step at taken
  cases move with
  | type typed env =>
      obtain ⟨⟨c', out⟩, types, rfl⟩ := Option.map_eq_some_iff.mp taken
      exact Lockstep.types lock allowed types
  | toServer k env =>
      simp only [Session.step, Option.bind_eq_bind, Option.bind_eq_some_iff,
        Option.pure_def, Option.some.injEq] at taken
      obtain ⟨d, found, ⟨s', out⟩, receives, rfl⟩ := taken
      exact Lockstep.serverTakes lock allowed found receives
  | toClient k env =>
      simp only [Session.step, Option.bind_eq_bind, Option.bind_eq_some_iff,
        Option.pure_def, Option.some.injEq] at taken
      obtain ⟨d, found, ⟨c', out⟩, receives, rfl⟩ := taken
      exact Lockstep.clientTakes lock allowed found receives
  | clientTimeout env =>
      obtain ⟨⟨c', out⟩, expires, rfl⟩ := Option.map_eq_some_iff.mp taken
      exact Lockstep.clientExpires lock allowed expires
  | serverTimeout env =>
      obtain ⟨⟨s', out⟩, expires, rfl⟩ := Option.map_eq_some_iff.mp taken
      exact Lockstep.serverExpires lock allowed expires

end Spqr
