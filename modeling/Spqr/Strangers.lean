/-
Module: Spqr.Strangers
Purpose: What datagrams from other addresses than the client's do to a server child.
Trusted boundary: none
Main exports:
  Addressed, ChildInput, ChildOutput, Addressed.react, StrangersIgnored, Unnoticed,
  strangers_ignored
-/
import Spqr.Lib.Unwinding
import Spqr.Session

namespace Spqr

open Unwinding

/-! ### The child and its socket -/

/-- A server child with the global `client_addr`, which every `recvfrom` sets and
every `sendto` uses. -/
structure Addressed where
  server : Server
  clientAddr : ℕ
  /-- Ghost: in the drain loop of `PUT`, the buffer may hold bytes of a stranger. -/
  strange : Bool

inductive ChildInput where
  | arrival (source : ℕ) (payload : Payload) (env : Environment)
  /-- the timeout of a `recvfrom`, where it has one -/
  | timeout (env : Environment)

/-- What the child sends, and what it does to `server-files/`. -/
inductive ChildOutput where
  | sent (address : ℕ) (payload : Payload)
  | created (filename : Text)
  | wrote (bytes : List UInt8)
  /-- the file that is being received -/
  | removed
deriving DecidableEq

/-- The child is in a `recvfrom` with a timeout. -/
def ServerPc.timed : ServerPc → Bool
  | .getAwaitStart => true
  | .sending _ _ => true
  | .putDrain _ _ => true
  | _ => false

namespace Addressed

/-- The child at the head of its loop. -/
def start (announced : ℕ) : Addressed := ⟨⟨.head, [], 0⟩, announced, false⟩

/-- The datagrams of one step. -/
def sends (address : ℕ) (datagrams : List Datagram) : List ChildOutput :=
  datagrams.map fun datagram => .sent address datagram.payload

/-- What one `recvfrom` makes of `server-files/`. -/
def fileOutputs (inst : Installation) (env : Environment) (s : Server)
    (payload : Payload) : List ChildOutput :=
  match s.pc with
  | .putAwaitName =>
      let filename := cString payload.bytes
      if filename = feedback.ABORT ∨ filename ∈ env.listing ∨ env.opens = false then []
      else [.created filename]
  | .receiving _ r _ =>
      match receiverRead inst env r payload with
      | none => []
      | some (r', _) =>
          if r'.result = some TRANSFER_ERROR ∧ env.closes = true then [.removed]
          else [.wrote (r'.file.drop r.file.length)]
  | _ => []

/-- Whether a stranger's bytes are in the buffer afterwards. -/
def strangeAfter (announced : ℕ) (c : Addressed) (source : ℕ) (payload : Payload) :
    Bool :=
  match c.server.pc with
  | .putDrain _ buffer =>
      if source = announced then
        c.strange && payload.bytes.length < feedback.TRANSFER_COMPLETED.length
      else c.strange || LittleEndian.overlay payload.bytes buffer != buffer
  | _ => false

/-- One input. A child that has left has closed its socket. -/
def react (inst : Installation) (announced : ℕ) (c : Addressed) :
    ChildInput → Option (Addressed × List ChildOutput)
  | .arrival source payload env =>
      if c.server.pc.gone then some (c, [])
      else
        (c.server.receive inst env 0 ⟨payload, none, c.server.answering⟩).map
          fun (server, datagrams) =>
            (⟨server, source, c.strangeAfter announced source payload⟩,
              fileOutputs inst env c.server payload ++ sends source datagrams)
  | .timeout env =>
      if c.server.pc.timed then
        (c.server.timeout inst env).map fun (server, datagrams) =>
          ({ c with server := server }, sends c.clientAddr datagrams)
      else some (c, [])

end Addressed

/-- Timeouts, and datagrams from the client itself. -/
def ChildInput.own (announced : ℕ) : ChildInput → Bool
  | .arrival source _ _ => source = announced
  | .timeout _ => true

/-- What is sent to the client. -/
def sentTo (announced : ℕ) (outputs : List ChildOutput) : List Payload :=
  outputs.filterMap fun
    | .sent address payload => if address = announced then some payload else none
    | _ => none

/-- What is done to `server-files/`. -/
def fileEffects (outputs : List ChildOutput) : List ChildOutput :=
  outputs.filter fun
    | .sent _ _ => false
    | _ => true

/-- Without the datagrams of strangers the client is sent the same, and the same is
done to the files; and nothing is sent to anybody else. -/
structure StrangersIgnored (inst : Installation) (announced : ℕ)
    (inputs : List ChildInput) : Prop where
  sent : (answers (Addressed.react inst announced) (.start announced) inputs).map
      (sentTo announced) =
    (answers (Addressed.react inst announced) (.start announced)
      (inputs.filter (ChildInput.own announced))).map (sentTo announced)
  files : (answers (Addressed.react inst announced) (.start announced) inputs).map
      fileEffects =
    (answers (Addressed.react inst announced) (.start announced)
      (inputs.filter (ChildInput.own announced))).map fileEffects
  only : ∀ outputs, answers (Addressed.react inst announced) (.start announced) inputs =
    some outputs → ∀ address payload, .sent address payload ∈ outputs →
      address = announced

/-- A datagram of a stranger is taken when the child is waiting for nothing but the
end, or in the drain loop of `PUT`, where the comparison fails inside the buffer and it
changes no byte that `TRANSFER_COMPLETED` will not replace; and the client sends
nothing shorter there while a stranger's bytes are in the buffer. -/
def Unnoticed (announced : ℕ) (c : Addressed) : ChildInput → Prop
  | .arrival source payload _ =>
      match c.server.pc with
      | .putDrain _ buffer =>
          if source = announced then
            c.strange = true →
              feedback.TRANSFER_COMPLETED.length ≤ payload.bytes.length
          else
            overruns (LittleEndian.overlay payload.bytes buffer)
                feedback.TRANSFER_COMPLETED = false ∧
              bufferHolds (LittleEndian.overlay payload.bytes buffer)
                feedback.TRANSFER_COMPLETED = false ∧
              (LittleEndian.overlay payload.bytes buffer).drop
                  feedback.TRANSFER_COMPLETED.length =
                buffer.drop feedback.TRANSFER_COMPLETED.length
      | .closeAwaitFINACK => True
      | .exited => True
      | .crashed _ => True
      | _ => source = announced
  | .timeout _ => True

/-! ### The child with and without strangers -/

/-- The child that hears everybody and the child that hears its client only. -/
inductive Alike (announced : ℕ) (all own : Addressed) : Prop where
  | same (server : all.server = own.server)
      (address : all.clientAddr = announced ∨
        ∃ transfer buffer, all.server.pc = .putDrain transfer buffer)
      (home : own.clientAddr = announced)
  /-- A stranger's bytes are in the buffer of the drain loop. -/
  | buffers {transfer : ℕ} {buffer buffer' : List UInt8}
      (draining : all.server.pc = .putDrain transfer buffer)
      (server : own.server = { all.server with pc := .putDrain transfer buffer' })
      (strange : all.strange = true) (length : buffer.length = buffer'.length)
      (tail : buffer.drop feedback.TRANSFER_COMPLETED.length =
        buffer'.drop feedback.TRANSFER_COMPLETED.length)
      (home : own.clientAddr = announced)
  /-- A stranger's datagram has ended the closing handshake. -/
  | ended (left : all.server.pc.gone = true)
      (closing : own.server.pc = .closeAwaitFINACK ∨ own.server.pc.gone = true)
      (home : own.clientAddr = announced)

namespace Addressed

variable {inst : Installation} {announced source : ℕ} {c all own : Addressed}
  {payload : Payload} {env : Environment} {input : ChildInput}

theorem react_arrival (alive : c.server.pc.gone = false) :
    c.react inst announced (.arrival source payload env) =
      (c.server.receive inst env 0 ⟨payload, none, c.server.answering⟩).map
        fun (server, datagrams) =>
          (⟨server, source, c.strangeAfter announced source payload⟩,
            fileOutputs inst env c.server payload ++ sends source datagrams) := by
  simp only [react, alive, Bool.false_eq_true, if_false]

theorem react_gone (left : c.server.pc.gone = true) :
    c.react inst announced (.arrival source payload env) = some (c, []) := by
  simp only [react, left, if_true]

theorem react_closing (closing : c.server.pc = .closeAwaitFINACK) :
    c.react inst announced (.arrival source payload env) =
      some (⟨{ c.server with pc := .exited }, source, false⟩, []) := by
  rw [react_arrival (by rw [closing]; rfl)]
  simp [Server.receive, closing, fileOutputs, strangeAfter, sends]

theorem react_drain {transfer : ℕ} {buffer : List UInt8}
    (draining : c.server.pc = .putDrain transfer buffer) :
    c.react inst announced (.arrival source payload env) =
      if overruns (LittleEndian.overlay payload.bytes buffer)
          feedback.TRANSFER_COMPLETED then none
      else some (⟨{ c.server with
        pc :=
          if bufferHolds (LittleEndian.overlay payload.bytes buffer)
            feedback.TRANSFER_COMPLETED then .head
          else .putDrain transfer (LittleEndian.overlay payload.bytes buffer) },
        source, c.strangeAfter announced source payload⟩, []) := by
  rw [react_arrival (by rw [draining]; rfl)]
  simp only [Server.receive, draining, fileOutputs]
  split_ifs <;> rfl

theorem react_drain_timeout {transfer : ℕ} {buffer : List UInt8}
    (draining : c.server.pc = .putDrain transfer buffer) :
    c.react inst announced (.timeout env) = some (c, []) := by
  simp [react, draining, Server.timeout, ServerPc.timed, sends]

theorem untimed_of_gone {pc : ServerPc} (gone : pc.gone = true) : pc.timed = false := by
  cases pc with
  | exited | crashed => rfl
  | _ => cases gone

theorem react_timeout_closing (waits : c.server.pc = .closeAwaitFINACK ∨
    c.server.pc.gone = true) : c.react inst announced (.timeout env) = some (c, []) := by
  rcases waits with waits | waits
  · simp [react, waits, ServerPc.timed]
  · simp [react, untimed_of_gone waits]

end Addressed

namespace Alike

open Addressed

variable {inst : Installation} {announced source : ℕ} {all own : Addressed}
  {payload : Payload} {env : Environment} {input : ChildInput}

/-- Both children answer the client alike. -/
theorem arrival (alike : Alike announced all own)
    (unnoticed : Unnoticed announced all (.arrival announced payload env)) :
    (all.react inst announced (.arrival announced payload env) = none ∧
        own.react inst announced (.arrival announced payload env) = none) ∨
      ∃ all' own' outputs,
        all.react inst announced (.arrival announced payload env) = some (all', outputs) ∧
          own.react inst announced (.arrival announced payload env) =
            some (own', outputs) ∧ Alike announced all' own' := by
  cases alike with
  | same server address home =>
      cases left : all.server.pc.gone with
      | true =>
          exact .inr ⟨all, own, [], react_gone left, react_gone (server ▸ left),
            .same server address home⟩
      | false =>
        rw [react_arrival left, react_arrival (server ▸ left), server]
        cases own.server.receive inst env 0 ⟨payload, none, own.server.answering⟩ with
        | none => exact .inl ⟨rfl, rfl⟩
        | some result => exact .inr ⟨_, _, _, rfl, rfl, .same rfl (.inl rfl) rfl⟩
  | @buffers transfer buffer buffer' draining server strange length tail home =>
      -- the client's datagram is long enough to replace what the stranger wrote
      have long : feedback.TRANSFER_COMPLETED.length ≤ payload.bytes.length := by
        simp only [Unnoticed, draining, if_pos] at unnoticed
        exact unnoticed strange
      have cleared : LittleEndian.overlay payload.bytes buffer =
          LittleEndian.overlay payload.bytes buffer' := by
        rw [LittleEndian.overlay, LittleEndian.overlay, length,
          ← Nat.add_sub_cancel' long, ← List.drop_drop, ← List.drop_drop, tail]
      have draining' : own.server.pc = .putDrain transfer buffer' := by rw [server]
      rw [react_drain draining, react_drain draining', cleared]
      by_cases past : overruns (LittleEndian.overlay payload.bytes buffer')
          feedback.TRANSFER_COMPLETED = true
      · exact .inl ⟨if_pos past, if_pos past⟩
      · refine .inr ⟨_, _, [], if_neg past, if_neg past, .same ?_ (.inl rfl) rfl⟩
        rw [server]
  | ended left closing home =>
      apply Or.inr
      rcases closing with closing | left'
      · exact ⟨all, _, [], react_gone left, react_closing closing,
          .ended left (.inr rfl) rfl⟩
      · exact ⟨all, own, [], react_gone left, react_gone left',
          .ended left (.inr left') home⟩

/-- Both time out alike. -/
theorem timeout (alike : Alike announced all own) :
    (all.react inst announced (.timeout env) = none ∧
        own.react inst announced (.timeout env) = none) ∨
      ∃ all' own' outputs, all.react inst announced (.timeout env) = some (all', outputs) ∧
        own.react inst announced (.timeout env) = some (own', outputs) ∧
          Alike announced all' own' := by
  cases alike with
  | same server address home =>
      rcases address with address | ⟨transfer, buffer, draining⟩
      · simp only [react, server, address, home]
        split_ifs
        · cases own.server.timeout inst env with
          | none => exact .inl ⟨rfl, rfl⟩
          | some result =>
              exact .inr ⟨_, _, _, rfl, rfl, .same rfl (.inl rfl) rfl⟩
        · exact .inr ⟨all, own, [], rfl, rfl, .same server (.inl address) home⟩
      · exact .inr ⟨all, own, [], react_drain_timeout draining,
          react_drain_timeout (server ▸ draining),
          .same server (.inr ⟨transfer, buffer, draining⟩) home⟩
  | @buffers transfer buffer buffer' draining server strange length tail home =>
      have draining' : own.server.pc = .putDrain transfer buffer' := by rw [server]
      exact .inr ⟨all, own, [], react_drain_timeout draining,
        react_drain_timeout draining', .buffers draining server strange length tail home⟩
  | ended left closing home =>
      exact .inr ⟨all, own, [], react_timeout_closing (.inr left),
        react_timeout_closing closing, .ended left closing home⟩

/-- A stranger is not answered. -/
theorem stranger (alike : Alike announced all own) (foreign : source ≠ announced)
    (unnoticed : Unnoticed announced all (.arrival source payload env)) :
    ∃ all', all.react inst announced (.arrival source payload env) = some (all', []) ∧
      Alike announced all' own := by
  have strangeAfter_drain : ∀ {transfer buffer},
      all.server.pc = .putDrain transfer buffer →
        all.strangeAfter announced source payload =
          (all.strange || LittleEndian.overlay payload.bytes buffer != buffer) := by
    intro transfer buffer draining
    simp only [strangeAfter, draining, if_neg foreign]
  have drained : ∀ {transfer buffer}, all.server.pc = .putDrain transfer buffer →
      all.react inst announced (.arrival source payload env) =
          some (⟨{ all.server with
            pc := .putDrain transfer (LittleEndian.overlay payload.bytes buffer) },
            source, all.strangeAfter announced source payload⟩, []) ∧
        (LittleEndian.overlay payload.bytes buffer).drop
            feedback.TRANSFER_COMPLETED.length =
          buffer.drop feedback.TRANSFER_COMPLETED.length := by
    intro transfer buffer draining
    simp only [Unnoticed, draining, if_neg foreign] at unnoticed
    obtain ⟨inside, goesOn, tail⟩ := unnoticed
    refine ⟨?_, tail⟩
    rw [react_drain draining, inside, goesOn]
    rfl
  cases alike with
  | same server address home =>
      cases waits : all.server.pc with
      | putDrain transfer buffer =>
          obtain ⟨reacts, tail⟩ := drained waits
          refine ⟨_, reacts, ?_⟩
          by_cases kept : LittleEndian.overlay payload.bytes buffer = buffer
          · refine .same ?_ (.inr ⟨transfer, _, rfl⟩) home
            rw [kept, ← waits, ← server]
          · refine @Alike.buffers announced _ own transfer _ buffer rfl ?_ ?_ ?_ tail home
            · rw [← waits, ← server]
            · rw [strangeAfter_drain waits]
              simp [kept]
            · exact LittleEndian.length_overlay _ _
      | closeAwaitFINACK =>
          exact ⟨_, react_closing waits, .ended rfl (.inl (server ▸ waits)) home⟩
      | exited | crashed =>
          exact ⟨all, react_gone (by rw [waits]; rfl), .same server address home⟩
      | _ =>
          simp only [Unnoticed, waits] at unnoticed
          exact absurd unnoticed foreign
  | @buffers transfer buffer buffer' draining server strange length tail home =>
      obtain ⟨reacts, tail'⟩ := drained draining
      refine ⟨_, reacts, .buffers rfl server ?_ ?_ (tail'.trans tail) home⟩
      · rw [strangeAfter_drain draining, strange]
        rfl
      · rw [LittleEndian.length_overlay, length]
  | ended left closing home => exact ⟨all, react_gone left, .ended left closing home⟩

theorem lockstep (alike : Alike announced all own) (unnoticed : Unnoticed announced all input)
    (mine : input.own announced = true) :
    (all.react inst announced input = none ∧ own.react inst announced input = none) ∨
      ∃ all' own' outputs, all.react inst announced input = some (all', outputs) ∧
        own.react inst announced input = some (own', outputs) ∧
          Alike announced all' own' := by
  cases input with
  | arrival source payload env =>
      obtain rfl : source = announced := of_decide_eq_true mine
      exact alike.arrival unnoticed
  | timeout env => exact alike.timeout

theorem silent (alike : Alike announced all own) (unnoticed : Unnoticed announced all input)
    (other : input.own announced = false) :
    ∃ all', all.react inst announced input = some (all', []) ∧
      Alike announced all' own := by
  cases input with
  | arrival source payload env =>
      exact alike.stranger (of_decide_eq_false other) unnoticed
  | timeout env => exact absurd other (by simp [ChildInput.own])

end Alike

/-! ### Whole sequences -/

section

variable {inst : Installation} {announced : ℕ} {inputs : List ChildInput}

theorem sent_fileOutputs {env : Environment} {s : Server} {payload payload' : Payload}
    {address : ℕ} :
    .sent address payload' ∉ Addressed.fileOutputs inst env s payload := by
  unfold Addressed.fileOutputs
  split
  · dsimp only
    split_ifs <;> simp
  · split
    · simp
    · split_ifs <;> simp
  · simp

/-- A child that hears its client only sends to nobody else. -/
theorem home_outputs {c after : Addressed} {input : ChildInput}
    {outputs : List ChildOutput} (home : c.clientAddr = announced)
    (mine : input.own announced = true)
    (reacts : c.react inst announced input = some (after, outputs)) :
    after.clientAddr = announced ∧
      ∀ output ∈ outputs, ∀ address payload, output = .sent address payload →
        address = announced := by
  have sends_home : ∀ datagrams : List Datagram,
      ∀ address payload, .sent address payload ∈ Addressed.sends announced datagrams →
        address = announced := by
    intro datagrams address payload member
    obtain ⟨datagram, _, same⟩ := List.mem_map.mp member
    exact (ChildOutput.sent.inj same).1.symm
  cases input with
  | arrival source payload env =>
      obtain rfl : source = announced := of_decide_eq_true mine
      cases left : c.server.pc.gone with
      | true =>
        rw [Addressed.react_gone left] at reacts
        obtain ⟨rfl, rfl⟩ := Prod.mk.inj (Option.some.inj reacts)
        exact ⟨home, by simp⟩
      | false =>
        rw [Addressed.react_arrival left] at reacts
        obtain ⟨result, _, same⟩ := Option.map_eq_some_iff.mp reacts
        obtain ⟨rfl, rfl⟩ := Prod.mk.inj same
        refine ⟨rfl, ?_⟩
        rintro output member address payload' rfl
        rcases List.mem_append.mp member with file | sent
        · exact absurd file sent_fileOutputs
        · exact sends_home _ address payload' sent
  | timeout env =>
      simp only [Addressed.react] at reacts
      split_ifs at reacts
      · obtain ⟨result, _, same⟩ := Option.map_eq_some_iff.mp reacts
        obtain ⟨rfl, rfl⟩ := Prod.mk.inj same
        refine ⟨home, ?_⟩
        rintro output member address payload' rfl
        rw [home] at member
        exact sends_home _ address payload' member
      · obtain ⟨rfl, rfl⟩ := Prod.mk.inj (Option.some.inj reacts)
        exact ⟨home, by simp⟩

/-- Where every stranger's datagram goes unnoticed, the child cannot be told from one that
hears its client only. -/
theorem strangers_ignored
    (unnoticed : Admits (Addressed.react inst announced) (Unnoticed announced)
      (.start announced) inputs) : StrangersIgnored inst announced inputs := by
  have start : Alike announced (.start announced) (.start announced) :=
    .same rfl (.inl rfl) rfl
  have same := answers_filter (Addressed.react inst announced) (Unnoticed announced)
    (ChildInput.own announced) (Alike announced)
    (fun _ _ _ alike meets mine => alike.lockstep meets mine)
    (fun _ _ _ alike meets other => alike.silent meets other) start unnoticed
  refine ⟨by rw [same], by rw [same], fun outputs answered => ?_⟩
  rw [same] at answered
  have own : ∀ input ∈ inputs.filter (ChildInput.own announced),
      input.own announced = true := fun input member => List.of_mem_filter member
  have good := answers_all (Addressed.react inst announced) (ChildInput.own announced)
    (fun c => c.clientAddr = announced)
    (fun output => ∀ address payload, output = .sent address payload →
      address = announced)
    (fun _ _ _ _ home mine reacts => home_outputs home mine reacts) rfl own answered
  exact fun address payload member => good _ member address payload rfl

end

instance (announced : ℕ) (c : Addressed) : DecidablePred (Unnoticed announced c) :=
  fun input => by
    unfold Unnoticed
    split
    · split <;> infer_instance
    · infer_instance

/-- An upload. A stranger speaks in the drain loop. -/
def overheard (stranger : ℕ) : List ChildInput :=
  let env := Environment.serving "notes" []
  [.arrival 1 (.text cmd.PUT) env, .arrival 1 (.text (text "upload")) env,
    .arrival 1 (.packet (filledPacket [7] 0 1 1)) env,
    .arrival stranger (.text cmd.LIST) env,
    .arrival 1 (.text feedback.TRANSFER_COMPLETED) env]

/-- A stranger that is not noticed. -/
theorem strangers_ignored_overheard :
    StrangersIgnored committed 1 (overheard 2) ∧
      (answers (Addressed.react committed 1) (.start 1) (overheard 2)).map fileEffects =
        some [.created (text "upload"), .wrote [7]] :=
  ⟨strangers_ignored (by decide +kernel), by decide +kernel⟩

/-- A stranger says `PUT`, and is told so. The `LIST` of the client is then taken for a
file name: a file is created, and nothing is listed. -/
theorem stranger_creates_file :
    ¬ StrangersIgnored committed 1
        [.arrival 2 (.text cmd.PUT) (.serving "notes" []),
          .arrival 1 (.text cmd.LIST) (.serving "notes" [])] ∧
      answers (Addressed.react committed 1) (.start 1)
          [.arrival 2 (.text cmd.PUT) (.serving "notes" []),
            .arrival 1 (.text cmd.LIST) (.serving "notes" [])] =
        some [.sent 2 (.text cmd.PUT), .created cmd.LIST, .sent 1 (.text file.NOT_EXIST),
          .sent 1 (.text feedback.START_TRANSFER)] := by
  have outputs : answers (Addressed.react committed 1) (.start 1)
      [.arrival 2 (.text cmd.PUT) (.serving "notes" []),
        .arrival 1 (.text cmd.LIST) (.serving "notes" [])] =
      some [.sent 2 (.text cmd.PUT), .created cmd.LIST, .sent 1 (.text file.NOT_EXIST),
        .sent 1 (.text feedback.START_TRANSFER)] := by
    decide +kernel
  refine ⟨fun ignored => ?_, outputs⟩
  exact absurd (ignored.only _ outputs 2 _ List.mem_cons_self) (by decide)

end Spqr
