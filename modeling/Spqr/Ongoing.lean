/-
Module: Spqr.Ongoing
Purpose: A transfer that two parties of a session are inside: the datagrams
  between them are those of a `Transfer`, and their steps are steps of it.
Trusted boundary: none
Main exports:
  Ongoing, Ongoing.start, Ongoing.receiverRead, Ongoing.strayed,
  Ongoing.senderRead, Ongoing.expire
-/
import Mathlib.Data.List.InsertIdx
import Spqr.Contamination
import Spqr.Integrity

namespace Spqr

open Labelled Transfer

/-- The stream of a `main_receiver` whose `fclose` succeeds. -/
def Installation.stream (inst : Installation) : Stream := ⟨inst.fwrite, true, 0⟩

/-- The datagrams `packets` and `acks` between two parties are those of the
transfer `T` of `file`, whose sender has not returned. -/
structure Ongoing (inst : Installation) (file : List UInt8) (T : Transfer)
    (packets acks : List Datagram) : Prop where
  genuine : Genuine inst.cfg file inst.stream T
  running : ∀ ret, T.sender.phase ≠ .returned ret
  /-- The sender has not given up. -/
  chunks : ∀ packet ∈ T.packets, packet ≠ errorPacket
  packets : packets.map Datagram.payload = T.packets.map .packet
  acks : acks.map Datagram.payload = T.acks.map .ack

/-- A datagram in a channel carries what the transfer has there. -/
theorem payload_at {α : Type*} {wrap : α → Payload} {datagrams : List Datagram}
    {contents : List α}
    (same : datagrams.map Datagram.payload = contents.map wrap) {k : ℕ}
    {d : Datagram} (found : datagrams[k]? = some d) :
    ∃ value, contents[k]? = some value ∧ d.payload = wrap value := by
  have there : (contents.map wrap)[k]? = some d.payload := by
    rw [← same, List.getElem?_map, found]
    rfl
  rw [List.getElem?_map] at there
  obtain ⟨value, known, wrapped⟩ := Option.map_eq_some_iff.mp there
  exact ⟨value, known, wrapped.symm⟩

/-- Taking it out keeps the two alike. -/
theorem payload_eraseIdx {α : Type*} {wrap : α → Payload}
    {datagrams : List Datagram} {contents : List α}
    (same : datagrams.map Datagram.payload = contents.map wrap) (k : ℕ) :
    (datagrams.eraseIdx k).map Datagram.payload =
      (contents.eraseIdx k).map wrap := by
  rw [← List.eraseIdx_map, same, List.eraseIdx_map]

theorem length_ackBytes (ack : AckPacket) :
    min (Payload.ack ack).bytes.length sizeofAckPacket = sizeofAckPacket := by
  rw [Payload.bytes, AckPacket.length_encode, Nat.min_self]

/-- An acknowledgment that `main_sender` reads. -/
theorem senderRead_ack (cfg : Settings) (send : ℕ → SendResult) (s : Sender)
    (ack : AckPacket) : senderRead cfg send s (.ack ack) = receiveAck cfg s ack send := by
  unfold senderRead receiveAck
  rw [length_ackBytes]
  rfl

namespace Ongoing

variable {inst : Installation} {file : List UInt8} {T : Transfer}
  {packets acks : List Datagram}

/-- `main_sender` has answered `START_TRANSFER`. -/
theorem start (fits : packetCount file < 2 ^ 31) {send : ℕ → SendResult}
    {s : Sender} {first : List Packet} {out : List Datagram}
    (started : mainSenderStart inst.cfg file send = some (s, first))
    (sent : out.map Datagram.payload = first.map .packet) :
    Ongoing inst file ⟨s, .initial, first, []⟩ out [] := by
  have transferStarts : Transfer.start inst.cfg file send
      = some ⟨s, .initial, first, []⟩ := by
    rw [Transfer.start, started]
    rfl
  obtain ⟨s', first', runs, begun⟩ := mainSenderStart_spec inst.cfg fits send
  obtain ⟨rfl, rfl⟩ := Prod.mk.inj (Option.some.inj (runs.symm.trans started))
  refine ⟨.start fits transferStarts, ?_, ?_, sent, rfl⟩
  · simp [begun.phase]
  · obtain ⟨_, _, carries, _⟩ := begun.carried
    intro packet member
    obtain ⟨g, _, chunk⟩ := Carries.of_mem carries member
    exact chunk.ne_errorPacket

/-- What is in the packets' channel is no text. -/
theorem packet_at (ongoing : Ongoing inst file T packets acks) {k : ℕ}
    {d : Datagram} (found : packets[k]? = some d) :
    ∃ packet, T.packets[k]? = some packet ∧ d.payload = .packet packet :=
  payload_at ongoing.packets found

theorem noText (ongoing : Ongoing inst file T packets acks) :
    ∀ d ∈ packets, ¬ d.payload.IsText := by
  rintro d member ⟨message, text⟩
  obtain ⟨k, found⟩ := List.getElem?_of_mem member
  obtain ⟨packet, _, payload⟩ := ongoing.packet_at found
  rw [text] at payload
  simp at payload

/-- The drain loop of the receiver's party has taken a packet. -/
theorem strayed (ongoing : Ongoing inst file T packets acks) (k : ℕ) :
    Ongoing inst file { T with packets := T.packets.eraseIdx k }
      (packets.eraseIdx k) acks where
  genuine := ongoing.genuine.of_subset List.eraseIdx_subset (List.Subset.refl _)
  running := ongoing.running
  chunks := fun packet member =>
    ongoing.chunks packet (List.eraseIdx_subset member)
  packets := payload_eraseIdx ongoing.packets k
  acks := ongoing.acks

/-- `main_receiver` has taken a packet. It goes on, or it has received all that
it is going to. -/
theorem receiverRead (ongoing : Ongoing inst file T packets acks)
    (listening : T.receiver.result = none) {k : ℕ} {d : Datagram}
    (found : packets[k]? = some d) {env : Environment} (closes : env.closes = true)
    {r : Receiver} {sent : List AckPacket} {out : List Datagram}
    (reads : Spqr.receiverRead inst env T.receiver d.payload = some (r, sent))
    (carried : out.map Datagram.payload = sent.map .ack) :
    (r.result = none ∨ r.Finished ∧
        ∃ ret, r.result = some ret ∧ mainReceiverRet ret = EXIT_SUCCESS) ∧
      Ongoing inst file
        ⟨T.sender, r, T.packets.eraseIdx k, T.acks ++ sent⟩
        (packets.eraseIdx k) (acks ++ out) := by
  obtain ⟨packet, there, payload⟩ := ongoing.packet_at found
  rw [payload, Spqr.receiverRead, closes] at reads
  have member := List.mem_of_getElem? there
  obtain ⟨r', sent', reacts, genuine⟩ :=
    ongoing.genuine.receive listening member (env.send 0)
  obtain ⟨rfl, rfl⟩ := Prod.mk.inj (Option.some.inj (reacts.symm.trans reads))
  refine ⟨?_, genuine.of_subset List.eraseIdx_subset (List.Subset.refl _),
    ongoing.running,
    fun packet member => ongoing.chunks packet (List.eraseIdx_subset member),
    payload_eraseIdx ongoing.packets k, ?_⟩
  · rcases ongoing.genuine.packets packet member with rfl | ⟨g, chunk⟩
    · exact absurd rfl (ongoing.chunks _ member)
    · obtain ⟨r, regular, final, reacts', _, _, outcome, _⟩ :=
        mainReceiver_genuine ongoing.genuine.receiver listening chunk
          (ongoing.genuine.announced member chunk) true (env.send 0)
      obtain ⟨rfl, _⟩ := Prod.mk.inj (Option.some.inj (reacts'.symm.trans reads))
      refine outcome.imp id fun finished => ⟨finished, ?_⟩
      rcases finished with success | short
      · exact ⟨_, success, rfl⟩
      · exact ⟨_, short, rfl⟩
  · rw [List.map_append, List.map_append, ongoing.acks, carried]

/-- `main_sender` has taken an acknowledgment, and goes on. -/
theorem senderRead (ongoing : Ongoing inst file T packets acks) {k : ℕ}
    {d : Datagram} (found : acks[k]? = some d) {send : ℕ → SendResult}
    {s : Sender} {sent : List Packet} {out : List Datagram}
    (reads : Spqr.senderRead inst.cfg send T.sender d.payload = some (s, sent))
    (carried : out.map Datagram.payload = sent.map .packet) :
    Ongoing inst file
      ⟨s, T.receiver, T.packets ++ sent, T.acks.eraseIdx k⟩
      (packets ++ out) (acks.eraseIdx k) := by
  have running := senderRead_running reads
  obtain ⟨ack, there, payload⟩ := payload_at ongoing.acks found
  rw [payload, senderRead_ack] at reads
  obtain ⟨s', sent', reacts, chunks, genuine⟩ :=
    ongoing.genuine.acknowledged (List.mem_of_getElem? there) ongoing.running send
  obtain ⟨rfl, rfl⟩ := Prod.mk.inj (Option.some.inj (reacts.symm.trans reads))
  refine ⟨genuine.of_subset (List.Subset.refl _) List.eraseIdx_subset, running,
    ?_, ?_, payload_eraseIdx ongoing.acks k⟩
  · intro packet member
    rcases List.mem_append.mp member with old | new
    · exact ongoing.chunks packet old
    · obtain ⟨g, chunk⟩ := chunks packet new
      exact chunk.ne_errorPacket
  · rw [List.map_append, List.map_append, ongoing.packets, carried]

/-- `main_sender` has timed out. It goes on, or it leaves its drain loop: in good
order, and then the receiver has finished, or with the error packet. -/
theorem expire (ongoing : Ongoing inst file T packets acks)
    {send : ℕ → SendResult} {s : Sender} {sent : List Packet}
    {out : List Datagram}
    (expires : Transfer.expire inst.cfg T.sender send = some (s, sent))
    (carried : out.map Datagram.payload = sent.map .packet) :
    ((∀ ret, s.phase ≠ .returned ret) ∧
      Ongoing inst file ⟨s, T.receiver, T.packets ++ sent, T.acks⟩
        (packets ++ out) acks) ∨
    ((∃ last, T.sender.phase = .drain last) ∧
      (s.phase = .returned EXIT_SUCCESS ∧ out = [] ∧ T.receiver.Finished ∨
        s.phase = .returned TRANSFER_ERROR ∧
          out.map Datagram.payload = [.packet errorPacket] ∧
          MAX_ERRORS ≤ T.sender.maxErrors)) := by
  obtain ⟨s', sent', reacts, outcome, genuine⟩ :=
    ongoing.genuine.expired ongoing.running send
  obtain ⟨rfl, rfl⟩ := Prod.mk.inj (Option.some.inj (reacts.symm.trans expires))
  by_cases returned : ∃ ret, s'.phase = .returned ret
  · obtain ⟨ret, returned⟩ := returned
    obtain ⟨last, drains⟩ := (expire_returned expires returned).1
    refine .inr ⟨⟨last, drains⟩, ?_⟩
    have nonneg := ongoing.genuine.sender.drained last drains
    have noWriteError : last ≠ WRITE_BYTE_ERROR := by
      simp only [WRITE_BYTE_ERROR]
      omega
    rw [Transfer.expire, drains] at expires
    simp only [mainSenderReturn, if_neg noWriteError] at expires
    split_ifs at expires with gaveUp <;>
      obtain ⟨rfl, rfl⟩ := Prod.mk.inj (Option.some.inj expires)
    · exact .inr ⟨rfl, carried, gaveUp⟩
    · exact .inl ⟨rfl, List.map_eq_nil_iff.mp carried,
        (ongoing.genuine.ended (by simp [drains]) (Nat.not_le.mp gaveUp)).2⟩
  · have running : ∀ ret, s'.phase ≠ .returned ret := fun ret same =>
      returned ⟨ret, same⟩
    refine .inl ⟨running, genuine, running, ?_, ?_, ongoing.acks⟩
    · intro packet member
      rcases List.mem_append.mp member with old | new
      · exact ongoing.chunks packet old
      · obtain ⟨g, chunk⟩ := outcome.resolve_left returned packet new
        exact chunk.ne_errorPacket
    · rw [List.map_append, List.map_append, ongoing.packets, carried]

end Ongoing

end Spqr
