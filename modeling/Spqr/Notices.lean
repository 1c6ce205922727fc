/-
Module: Spqr.Notices
Purpose: The loops that wait for the notice at the end of a transfer, after any
  leftover datagrams and timeouts, and on which notices they end.
Trusted boundary: none
Main exports:
  bufferHolds_overlay_iff, Client.Drains, Server.Drains, NoticeFits,
  drain_ends_on_notice, put_wait_ends_on_notice
-/
import Spqr.Session

namespace Spqr

open Labelled LittleEndian

/-! ### A text read over a buffer -/

/-- A text that is read over a buffer is recognised exactly when a zero follows
it there. -/
theorem bufferHolds_overlay_iff {message buffer : List UInt8} :
    bufferHolds (overlay message buffer) message = true ↔
      buffer[message.length]? = some 0 := by
  rw [bufferHolds, List.isPrefixOf_iff_prefix, overlay]
  rcases Nat.lt_or_ge message.length buffer.length with inside | short
  · rw [List.take_of_length_le inside.le, List.prefix_append_right_inj,
      List.drop_eq_getElem_cons inside, List.getElem?_eq_getElem inside,
      Option.some.injEq, List.cons_prefix_cons, eq_comm]
    simp
  · rw [List.drop_eq_nil_of_le short, List.append_nil,
      List.getElem?_eq_none short]
    constructor
    · intro starts
      have length := starts.length_le
      simp only [List.length_append, List.length_singleton, List.length_take]
        at length
      omega
    · simp

theorem bufferHolds_overlay {message buffer : List UInt8}
    (terminated : buffer[message.length]? = some 0) :
    bufferHolds (overlay message buffer) message = true :=
  bufferHolds_overlay_iff.mpr terminated

/-- What a recognised buffer holds, byte by byte. -/
theorem bufferHolds_getElem? {message buffer : List UInt8} {k : ℕ}
    (holds : bufferHolds buffer message = true) (inside : k ≤ message.length) :
    buffer[k]? = (message ++ [0])[k]? := by
  rw [bufferHolds, List.isPrefixOf_iff_prefix, List.prefix_iff_getElem?] at holds
  have bound : k < (message ++ [(0 : UInt8)]).length := by
    rw [List.length_append, List.length_singleton]
    exact Nat.lt_succ_of_le inside
  rw [holds k bound, List.getElem?_eq_getElem bound]

/-! ### Iterations of a drain loop -/

/-- The datagrams among these arrivals; `none` stands for a timeout. -/
def bytesOf (arrivals : List (Option Datagram)) : List (List UInt8) :=
  arrivals.filterMap (Option.map fun datagram => datagram.payload.bytes)

theorem bytesOf_timeout (arrivals : List (Option Datagram)) :
    bytesOf (arrivals ++ [none]) = bytesOf arrivals := by
  simp [bytesOf]

theorem bytesOf_datagram (arrivals : List (Option Datagram)) (d : Datagram) :
    bytesOf (arrivals ++ [some d]) = bytesOf arrivals ++ [d.payload.bytes] := by
  simp [bytesOf]

namespace Client

/-- An iteration of the drain loop of `GET`. -/
def drainTurn (inst : Installation) (env : Environment) (fresh : ℕ) (c : Client) :
    Option Datagram → Option Client
  | some datagram => (c.receive inst env fresh datagram).map Prod.fst
  | none => (c.timeout inst env fresh).map Prod.fst

/-- An iteration after which the loop goes on. -/
def Drains (inst : Installation) (c : Client) (arrival : Option Datagram)
    (c' : Client) : Prop :=
  (∃ env fresh, c.drainTurn inst env fresh arrival = some c') ∧
    ∃ t ret buffer, c'.pc = .getDrain t ret buffer

end Client

namespace Server

/-- An iteration of the loop after `main_receiver` in the `PUT` branch. -/
def drainTurn (inst : Installation) (env : Environment) (fresh : ℕ) (s : Server) :
    Option Datagram → Option Server
  | some datagram => (s.receive inst env fresh datagram).map Prod.fst
  | none => (s.timeout inst env).map Prod.fst

/-- An iteration after which the loop goes on. -/
def Drains (inst : Installation) (s : Server) (arrival : Option Datagram)
    (s' : Server) : Prop :=
  (∃ env fresh, s.drainTurn inst env fresh arrival = some s') ∧
    ∃ t buffer, s'.pc = .putDrain t buffer

end Server

/-! ### The client after a `GET` -/

/-- `main_receiver` returns one of two codes. -/
theorem Receiver.ret_outcome {r : Receiver} {closes : Bool} {ret : ℤ}
    (returned : r.ret closes = some ret) : ret = EXIT_SUCCESS ∨ ret = TRANSFER_ERROR := by
  rw [Receiver.ret, Option.ite_none_right_eq_some] at returned
  obtain ⟨result, _, rfl⟩ := Option.map_eq_some_iff.mp returned.2
  unfold mainReceiverRet
  split_ifs with failed
  · exact .inr failed
  · exact .inl rfl

/-- The notices that the drain loop of `GET` recognises after these arrivals: its
`recvfrom` takes no more bytes than the notice that the client expects has, and a
shorter notice is followed by what was there before. -/
def NoticeFits (ret : ℤ) (notice : Text) (arrivals : List (Option Datagram)) : Prop :=
  ret = EXIT_SUCCESS ∧ (notice = feedback.TRANSFER_COMPLETED ∨
      lastByte feedback.TRANSFER_ERROR.length (bytesOf arrivals) = 0) ∨
    ret = TRANSFER_ERROR ∧ notice = feedback.TRANSFER_ERROR

/-- `server_response` in the drain loop, as far as it decides the comparisons. -/
structure ResponseBuffer (ret : ℤ) (arrivals : List (Option Datagram))
    (serverResponse : List UInt8) : Prop where
  length : serverResponse.length = MAX_READ_LINE
  afterError : serverResponse[feedback.TRANSFER_ERROR.length]? =
    some (if ret = EXIT_SUCCESS
      then lastByte feedback.TRANSFER_ERROR.length (bytesOf arrivals) else 0)
  afterCompleted : serverResponse[feedback.TRANSFER_COMPLETED.length]? = some 0

namespace ResponseBuffer

variable {ret : ℤ} {arrivals : List (Option Datagram)} {serverResponse : List UInt8}

theorem initial (ret : ℤ) : ResponseBuffer ret [] (List.replicate MAX_READ_LINE 0) := by
  refine ⟨List.length_replicate, ?_, by decide +kernel⟩
  have zero : (List.replicate MAX_READ_LINE (0 : UInt8))[
      feedback.TRANSFER_ERROR.length]? = some 0 := by
    decide +kernel
  rw [zero]
  split_ifs <;> rfl

theorem timeout (drained : ResponseBuffer ret arrivals serverResponse) :
    ResponseBuffer ret (arrivals ++ [none]) serverResponse := by
  obtain ⟨length, afterError, afterCompleted⟩ := drained
  exact ⟨length, by rw [bytesOf_timeout, afterError], afterCompleted⟩

theorem error_lt : feedback.TRANSFER_ERROR.length < MAX_READ_LINE := by decide +kernel

theorem completed_lt : feedback.TRANSFER_COMPLETED.length < MAX_READ_LINE := by
  decide +kernel

theorem error_lt_completed :
    feedback.TRANSFER_ERROR.length < feedback.TRANSFER_COMPLETED.length := by
  decide +kernel

theorem datagram (drained : ResponseBuffer ret arrivals serverResponse) (d : Datagram) :
    ResponseBuffer ret (arrivals ++ [some d])
      (drainRead ret serverResponse d.payload.bytes) := by
  obtain ⟨length, afterError, afterCompleted⟩ := drained
  refine ⟨by rw [drainRead, length_overlay, length], ?_, ?_⟩
  · rw [bytesOf_datagram, drainRead]
    by_cases success : ret = EXIT_SUCCESS
    · rw [if_pos success] at afterError ⊢
      rw [if_pos success, getElem?_overlay (length ▸ error_lt), lastByte_concat,
        afterError, List.getElem?_take_of_lt error_lt_completed, List.length_take]
      split_ifs with reached
      · have inside := (Nat.lt_min.mp reached).2
        rw [List.getElem?_eq_getElem inside, Option.getD_some]
      · have past : d.payload.bytes.length ≤ feedback.TRANSFER_ERROR.length := by
          have := error_lt_completed
          omega
        rw [List.getElem?_eq_none past, Option.getD_none]
    · rw [if_neg success] at afterError ⊢
      rw [if_neg success, getElem?_overlay (length ▸ error_lt), afterError,
        List.length_take]
      exact if_neg (by omega)
  · rw [drainRead, getElem?_overlay (length ▸ completed_lt), afterCompleted,
      List.length_take]
    have size : (if ret = EXIT_SUCCESS then feedback.TRANSFER_COMPLETED.length
        else feedback.TRANSFER_ERROR.length) ≤ feedback.TRANSFER_COMPLETED.length := by
      split_ifs
      · exact le_rfl
      · exact error_lt_completed.le
    exact if_neg (by omega)

/-- A buffer that begins like one notice does not hold the other. -/
theorem distinct {notice message buffer : List UInt8}
    (starts : buffer[9]? = notice[9]?) (inside : 9 ≤ message.length)
    (differs : notice[9]? ≠ (message ++ [0])[9]?) :
    bufferHolds buffer message = false := by
  by_contra holds
  have same := bufferHolds_getElem? (Bool.eq_true_of_not_eq_false holds) inside
  exact differs (starts.symm.trans same)

theorem overlay_start {datagram memory : List UInt8}
    (length : memory.length = MAX_READ_LINE) (long : 9 < datagram.length) :
    (overlay datagram memory)[9]? = datagram[9]? := by
  rw [getElem?_overlay (length ▸ by decide), if_pos long]

/-- The buffer holds `TRANSFER_ERROR` and no other notice. -/
theorem holds_error (length : serverResponse.length = MAX_READ_LINE) :
    drainEnds (overlay feedback.TRANSFER_ERROR serverResponse) = true ↔
      serverResponse[feedback.TRANSFER_ERROR.length]? = some 0 := by
  have notCompleted : bufferHolds (overlay feedback.TRANSFER_ERROR serverResponse)
      feedback.TRANSFER_COMPLETED = false :=
    distinct (overlay_start length (by decide +kernel)) (by decide +kernel)
      (by decide +kernel)
  rw [drainEnds, notCompleted, Bool.false_or, bufferHolds_overlay_iff]

/-- The drain loop ends on a notice that fits, and on no other. -/
theorem ends_iff (drained : ResponseBuffer ret arrivals serverResponse)
    (outcome : ret = EXIT_SUCCESS ∨ ret = TRANSFER_ERROR) {notice : Text}
    (sent : notice = feedback.TRANSFER_COMPLETED ∨ notice = feedback.TRANSFER_ERROR) :
    drainEnds (drainRead ret serverResponse notice) = true ↔
      NoticeFits ret notice arrivals := by
  obtain ⟨length, afterError, afterCompleted⟩ := drained
  have other : EXIT_SUCCESS ≠ TRANSFER_ERROR := by decide
  have differ : feedback.TRANSFER_COMPLETED ≠ feedback.TRANSFER_ERROR := by
    decide +kernel
  rw [drainRead]
  rcases outcome with rfl | rfl
  · rw [if_pos rfl] at afterError ⊢
    rcases sent with rfl | rfl
    · rw [List.take_length, drainEnds, bufferHolds_overlay afterCompleted]
      simp [NoticeFits]
    · rw [List.take_of_length_le error_lt_completed.le, holds_error length,
        afterError, Option.some.injEq]
      simp [NoticeFits, other, differ.symm]
  · rw [if_neg other.symm] at afterError ⊢
    rcases sent with rfl | rfl
    · -- the notice is cut to the length of the other one
      have cut : (feedback.TRANSFER_COMPLETED.take
          feedback.TRANSFER_ERROR.length).length = feedback.TRANSFER_ERROR.length := by
        decide +kernel
      have long : 9 < feedback.TRANSFER_ERROR.length := by decide +kernel
      have notError : bufferHolds (overlay (feedback.TRANSFER_COMPLETED.take
          feedback.TRANSFER_ERROR.length) serverResponse)
          feedback.TRANSFER_ERROR = false :=
        distinct (overlay_start length (long.trans_eq cut.symm)) long.le
          (by decide +kernel)
      have notCompleted : bufferHolds (overlay (feedback.TRANSFER_COMPLETED.take
          feedback.TRANSFER_ERROR.length) serverResponse)
          feedback.TRANSFER_COMPLETED = false := by
        by_contra holds
        have same := bufferHolds_getElem? (Bool.eq_true_of_not_eq_false holds)
          error_lt_completed.le
        rw [getElem?_overlay (length ▸ error_lt), if_neg (by rw [cut]; exact lt_irrefl _),
          afterError] at same
        exact absurd same (by decide +kernel)
      rw [drainEnds, notError, notCompleted]
      simp [NoticeFits, other.symm, differ]
    · rw [List.take_length, holds_error length]
      simp [NoticeFits, afterError]

end ResponseBuffer

/-- At `start:` the client has left the loop. -/
theorem Client.start_leaves (c : Client) (t : ℕ) (ret : ℤ) (buffer : List UInt8) :
    c.start.1.pc ≠ .getDrain t ret buffer := by
  unfold Client.start Client.closeConnection Client.sendText
  split_ifs <;> simp

/-- An iteration that does not end the loop. -/
theorem Client.receive_goesOn {inst : Installation} {env : Environment} {fresh : ℕ}
    {t : ℕ} {ret : ℤ} {buffer : List UInt8} {request : Text} {n : ℕ} {d : Datagram}
    (goesOn : drainEnds (drainRead ret buffer d.payload.bytes) = false) :
    Client.receive inst env fresh ⟨.getDrain t ret buffer, request, n⟩ d =
      some (⟨.getDrain t ret (drainRead ret buffer d.payload.bytes), request, n⟩,
        []) := by
  simp only [Client.receive, goesOn, Bool.false_eq_true, if_false]

theorem Client.goesOn_ne_start {inst : Installation} {env : Environment} {fresh : ℕ}
    {t : ℕ} {ret : ℤ} {buffer : List UInt8} {request : Text} {n : ℕ} {d : Datagram}
    (goesOn : drainEnds (drainRead ret buffer d.payload.bytes) = false) (c : Client) :
    Client.receive inst env fresh ⟨.getDrain t ret buffer, request, n⟩ d ≠
      some c.start := by
  rw [Client.receive_goesOn goesOn]
  intro same
  have pc := congrArg (fun result => result.1.pc) (Option.some.inj same)
  exact Client.start_leaves _ _ _ _ pc.symm

/-- The drain loop keeps its buffer and nothing else. -/
theorem Client.drains_kept {inst : Installation} {t : ℕ} {ret : ℤ}
    {pc : ClientPc} {request : Text} {n : ℕ} {arrivals : List (Option Datagram)}
    {c : Client}
    (leftovers : Run (Client.Drains inst)
      (Client.afterReceiver ⟨pc, request, n⟩ t ret) arrivals c) :
    ∃ serverResponse, c = ⟨.getDrain t ret serverResponse, request, n⟩ ∧
      ResponseBuffer ret arrivals serverResponse := by
  induction leftovers with
  | refl => exact ⟨_, rfl, .initial ret⟩
  | @tail middle last arrivals arrival prior final inductionHypothesis =>
      obtain ⟨serverResponse, rfl, drained⟩ := inductionHypothesis
      obtain ⟨⟨env, fresh, turn⟩, t', ret', buffer', stays⟩ := final
      cases arrival with
      | none =>
          obtain rfl := Option.some.inj turn
          exact ⟨_, rfl, drained.timeout⟩
      | some d =>
          obtain ⟨⟨after, out⟩, receives, rfl⟩ := Option.map_eq_some_iff.mp turn
          simp only [Client.receive] at receives
          split_ifs at receives with ends
          · have started := congrArg Prod.fst (Option.some.inj receives)
            rw [← started] at stays
            exact absurd stays (Client.start_leaves _ _ _ _)
          · obtain ⟨rfl, _⟩ := Prod.mk.inj (Option.some.inj receives)
            exact ⟨_, rfl, drained.datagram d⟩

/-- Whatever `main_receiver` returned and whatever came before it, the drain loop
of `GET` ends on the iteration that receives a notice exactly when the notice
fits. -/
theorem drain_ends_on_notice {inst : Installation} {t : ℕ} {ret : ℤ} {c c' : Client}
    (outcome : ret = EXIT_SUCCESS ∨ ret = TRANSFER_ERROR)
    {arrivals : List (Option Datagram)}
    (leftovers : Run (Client.Drains inst) (c.afterReceiver t ret) arrivals c')
    {notice : Datagram}
    (sent : notice.payload = .text feedback.TRANSFER_COMPLETED ∨
      notice.payload = .text feedback.TRANSFER_ERROR) (env : Environment) (fresh : ℕ) :
    c'.receive inst env fresh notice = some c'.start ↔
      NoticeFits ret notice.payload.bytes arrivals := by
  obtain ⟨serverResponse, rfl, drained⟩ := Client.drains_kept leftovers
  have text : notice.payload.bytes = feedback.TRANSFER_COMPLETED ∨
      notice.payload.bytes = feedback.TRANSFER_ERROR := by
    rcases sent with sent | sent
    · exact .inl (by rw [sent]; rfl)
    · exact .inr (by rw [sent]; rfl)
  rw [← drained.ends_iff outcome text]
  cases ends : drainEnds (drainRead ret serverResponse notice.payload.bytes) with
  | true => simp only [Client.receive, ends, if_true]
  | false => exact iff_of_false (Client.goesOn_ne_start ends _) Bool.false_ne_true

/-- The only data packet of a file of 1500 letters, once more. -/
def duplicate : Datagram :=
  ⟨.packet { Packet.zero with
      payload := List.replicate PACKET_SIZE 65
      noPacketsToSend := 1
      noBytesToSend := 1500
      size := 1500 }, some 0, 1⟩

/-- A client whose `main_receiver` has just returned. -/
def clientReceived : Client := ⟨.receiving 0 .initial, text "f", 2⟩

theorem Client.drains_duplicate :
    Run (Client.Drains committed) (clientReceived.afterReceiver 0 EXIT_SUCCESS)
      [some duplicate] ⟨.getDrain 0 EXIT_SUCCESS (drainRead EXIT_SUCCESS
        (List.replicate MAX_READ_LINE 0) duplicate.payload.bytes), text "f", 2⟩ := by
  have goesOn : drainEnds (drainRead EXIT_SUCCESS (List.replicate MAX_READ_LINE 0)
      duplicate.payload.bytes) = false := by
    decide +kernel
  refine .single ⟨⟨.serving "f" [], 0, ?_⟩, _, _, _, rfl⟩
  rw [Client.drainTurn, clientReceived, Client.afterReceiver, Client.receive_goesOn goesOn]
  rfl

theorem drain_ends_on_notice_duplicate :
    ∃ c', Run (Client.Drains committed) (clientReceived.afterReceiver 0 EXIT_SUCCESS)
        [some duplicate] c' ∧
      c'.receive committed (.serving "f" []) 0
        ⟨.text feedback.TRANSFER_COMPLETED, none, 2⟩ = some c'.start := by
  refine ⟨_, Client.drains_duplicate, ?_⟩
  exact (drain_ends_on_notice (.inl rfl) Client.drains_duplicate (.inl rfl)
    (.serving "f" []) 0).mpr (.inl ⟨rfl, .inl rfl⟩)

/-- The receiver has the file and the server gave up: a letter of the duplicate is
left behind `TRANSFER_ERROR`. And when the receiver failed, `TRANSFER_COMPLETED` is
cut, even if nothing came before it. -/
theorem error_after_duplicate_unnoticed :
    (∃ c', Run (Client.Drains committed) (clientReceived.afterReceiver 0 EXIT_SUCCESS)
        [some duplicate] c' ∧
      c'.receive committed (.serving "f" []) 0
        ⟨.text feedback.TRANSFER_ERROR, none, 2⟩ ≠ some c'.start) ∧
    (clientReceived.afterReceiver 0 TRANSFER_ERROR).receive committed (.serving "f" []) 0
        ⟨.text feedback.TRANSFER_COMPLETED, none, 2⟩ ≠
      some (clientReceived.afterReceiver 0 TRANSFER_ERROR).start := by
  constructor
  · refine ⟨_, Client.drains_duplicate, ?_⟩
    apply Client.goesOn_ne_start
    decide +kernel
  · rw [clientReceived, Client.afterReceiver]
    apply Client.goesOn_ne_start
    decide +kernel

/-! ### The server after a `PUT` -/

/-- `server_pathname` in that loop, as far as it decides the comparison. -/
structure PathBuffer (filename : Text) (arrivals : List (Option Datagram))
    (serverPathname : List UInt8) : Prop where
  length : serverPathname.length = Server.pathSize filename
  afterCompleted : feedback.TRANSFER_COMPLETED.length < Server.pathSize filename →
    serverPathname[feedback.TRANSFER_COMPLETED.length]? =
      some (lastByte feedback.TRANSFER_COMPLETED.length (bytesOf arrivals))

namespace PathBuffer

variable {filename : Text} {arrivals : List (Option Datagram)}
  {serverPathname : List UInt8}

theorem initial (filename : Text) :
    PathBuffer filename [] (List.replicate (Server.pathSize filename) 0) := by
  refine ⟨List.length_replicate, fun room => ?_⟩
  rw [List.getElem?_replicate, if_pos room]
  rfl

theorem timeout (waits : PathBuffer filename arrivals serverPathname) :
    PathBuffer filename (arrivals ++ [none]) serverPathname := by
  obtain ⟨length, afterCompleted⟩ := waits
  exact ⟨length, by rwa [bytesOf_timeout]⟩

theorem datagram (waits : PathBuffer filename arrivals serverPathname)
    (d : Datagram) :
    PathBuffer filename (arrivals ++ [some d])
      (overlay d.payload.bytes serverPathname) := by
  obtain ⟨length, afterCompleted⟩ := waits
  refine ⟨by rw [length_overlay, length], fun room => ?_⟩
  rw [bytesOf_datagram]
  exact lastByte_overlay (length ▸ room) (afterCompleted room)

/-- There is room for the zero from names of five bytes on. -/
theorem room_iff (filename : Text) :
    feedback.TRANSFER_COMPLETED.length < Server.pathSize filename ↔
      5 ≤ filename.length := by
  have completed : feedback.TRANSFER_COMPLETED.length = 18 := by decide +kernel
  have path : (text "server-files/").length = 13 := by decide +kernel
  rw [Server.pathSize, completed, path]
  omega

/-- For such a name no comparison reads past the buffer. -/
theorem inside (waits : PathBuffer filename arrivals serverPathname)
    (long : 5 ≤ filename.length) (bytes : List UInt8) :
    overruns (overlay bytes serverPathname) feedback.TRANSFER_COMPLETED = false := by
  have room : feedback.TRANSFER_COMPLETED.length < (overlay bytes serverPathname).length := by
    rw [length_overlay, waits.length]
    exact (room_iff filename).mpr long
  rw [overruns, Bool.eq_false_iff, Ne, List.isPrefixOf_iff_prefix]
  exact fun starts => absurd starts.length_le room.not_ge

theorem holds_iff (waits : PathBuffer filename arrivals serverPathname) :
    bufferHolds (overlay feedback.TRANSFER_COMPLETED serverPathname)
        feedback.TRANSFER_COMPLETED = true ↔
      5 ≤ filename.length ∧
        lastByte feedback.TRANSFER_COMPLETED.length (bytesOf arrivals) = 0 := by
  obtain ⟨length, afterCompleted⟩ := waits
  rw [bufferHolds_overlay_iff, ← room_iff]
  by_cases room : feedback.TRANSFER_COMPLETED.length < Server.pathSize filename
  · rw [afterCompleted room, Option.some.injEq]
    exact ⟨fun zero => ⟨room, zero⟩, And.right⟩
  · rw [List.getElem?_eq_none (by omega)]
    exact ⟨nofun, fun both => absurd both.1 room⟩

end PathBuffer

/-- An iteration that does not end the loop. -/
theorem Server.receive_goesOn {inst : Installation} {env : Environment} {fresh : ℕ}
    {t n : ℕ} {buffer : List UInt8} {accepted : Text} {d : Datagram}
    (inside : overruns (overlay d.payload.bytes buffer)
      feedback.TRANSFER_COMPLETED = false)
    (goesOn : bufferHolds (overlay d.payload.bytes buffer)
      feedback.TRANSFER_COMPLETED = false) :
    Server.receive inst env fresh ⟨.putDrain t buffer, accepted, n⟩ d =
      some (⟨.putDrain t (overlay d.payload.bytes buffer), accepted, d.request⟩,
        []) := by
  simp only [Server.receive, inside, goesOn, Bool.false_eq_true, if_false]

/-- The loop keeps its buffer, and the process nothing else that it reads. -/
theorem Server.drains_kept {inst : Installation} {t : ℕ} {filename : Text}
    {s s' : Server} {arrivals : List (Option Datagram)}
    (leftovers : Run (Server.Drains inst)
      (s.afterReceiver t EXIT_SUCCESS (Server.pathSize filename)) arrivals s') :
    ∃ serverPathname, s'.pc = .putDrain t serverPathname ∧
      PathBuffer filename arrivals serverPathname := by
  induction leftovers with
  | refl => exact ⟨_, rfl, .initial filename⟩
  | @tail middle last arrivals arrival prior final inductionHypothesis =>
      obtain ⟨serverPathname, pc, waits⟩ := inductionHypothesis
      obtain ⟨⟨env, fresh, turn⟩, t', buffer', stays⟩ := final
      cases arrival with
      | none =>
          simp only [Server.drainTurn, Server.timeout, pc, Option.map_some] at turn
          obtain rfl := Option.some.inj turn
          exact ⟨_, pc, waits.timeout⟩
      | some d =>
          obtain ⟨⟨after, out⟩, receives, rfl⟩ := Option.map_eq_some_iff.mp turn
          simp only [Server.receive, pc] at receives
          split_ifs at receives with _ ends
          · obtain ⟨rfl, _⟩ := Prod.mk.inj (Option.some.inj receives)
            simp at stays
          · obtain ⟨rfl, _⟩ := Prod.mk.inj (Option.some.inj receives)
            exact ⟨_, rfl, waits.datagram d⟩

/-- Whatever came before it, the loop after `main_receiver` ends on the iteration
that receives `TRANSFER_COMPLETED` exactly when the name leaves room for the text
and its end, and no earlier datagram has put something else there. -/
theorem put_wait_ends_on_notice {inst : Installation} {t : ℕ} {filename : Text}
    {s s' : Server} {arrivals : List (Option Datagram)}
    (leftovers : Run (Server.Drains inst)
      (s.afterReceiver t EXIT_SUCCESS (Server.pathSize filename)) arrivals s')
    {notice : Datagram} (sent : notice.payload = .text feedback.TRANSFER_COMPLETED)
    (env : Environment) (fresh : ℕ) :
    s'.receive inst env fresh notice =
        some ({ s' with answering := notice.request, pc := .head }, []) ↔
      5 ≤ filename.length ∧
        lastByte feedback.TRANSFER_COMPLETED.length (bytesOf arrivals) = 0 := by
  obtain ⟨serverPathname, pc, waits⟩ := Server.drains_kept leftovers
  rw [← waits.holds_iff]
  simp only [Server.receive, pc, sent, Payload.bytes]
  split_ifs with past ends
  · refine iff_of_false nofun fun holds => ?_
    have inside := waits.inside (waits.holds_iff.mp holds).1 feedback.TRANSFER_COMPLETED
    exact absurd past (Bool.eq_false_iff.mp inside)
  · exact iff_of_true rfl ends
  · refine iff_of_false (fun same => ?_) ends
    have pc := congrArg (fun result => result.1.pc) (Option.some.inj same)
    simp at pc

/-- A server child whose `main_receiver` has just returned. -/
def serverStored : Server :=
  ⟨.receiving 0 .initial (Server.pathSize (text "hello")), cmd.PUT, 1⟩

theorem Server.drains_duplicate :
    Run (Server.Drains committed)
      (serverStored.afterReceiver 0 EXIT_SUCCESS (Server.pathSize (text "hello")))
      [some duplicate] ⟨.putDrain 0 (overlay duplicate.payload.bytes
        (List.replicate (Server.pathSize (text "hello")) 0)), cmd.PUT, 1⟩ := by
  have goesOn : bufferHolds (overlay duplicate.payload.bytes
      (List.replicate (Server.pathSize (text "hello")) 0))
      feedback.TRANSFER_COMPLETED = false := by
    decide +kernel
  have success : EXIT_SUCCESS ≠ TRANSFER_ERROR := by decide
  refine .single ⟨⟨.serving "f" [], 0, ?_⟩, _, _, rfl⟩
  rw [Server.drainTurn, serverStored, Server.afterReceiver, if_neg success,
    Server.receive_goesOn (by decide +kernel) goesOn]
  rfl

/-- An acknowledgment that the same client sent in a `GET`, late. It is zero where
the end of the notice will be. -/
def lateAck : Datagram := ⟨.ack { AckPacket.zero with writeByte := 7 }, some 0, 1⟩

theorem put_wait_ends_on_notice_lateAck :
    ∃ s', Run (Server.Drains committed)
        (serverStored.afterReceiver 0 EXIT_SUCCESS (Server.pathSize (text "hello")))
        [none, some lateAck] s' ∧
      s'.receive committed (.serving "f" []) 0
          ⟨.text feedback.TRANSFER_COMPLETED, none, 2⟩ =
        some ({ s' with answering := 2, pc := .head }, []) := by
  have goesOn : bufferHolds (overlay lateAck.payload.bytes
      (List.replicate (Server.pathSize (text "hello")) 0))
      feedback.TRANSFER_COMPLETED = false := by
    decide +kernel
  have success : EXIT_SUCCESS ≠ TRANSFER_ERROR := by decide
  have leftovers : Run (Server.Drains committed)
      (serverStored.afterReceiver 0 EXIT_SUCCESS (Server.pathSize (text "hello")))
      ([none] ++ [some lateAck]) ⟨.putDrain 0 (overlay lateAck.payload.bytes
        (List.replicate (Server.pathSize (text "hello")) 0)), cmd.PUT, 1⟩ := by
    refine .tail (.single ⟨⟨.serving "f" [], 0, rfl⟩, _, _, rfl⟩)
      ⟨⟨.serving "f" [], 0, ?_⟩, _, _, rfl⟩
    rw [Server.drainTurn, serverStored, Server.afterReceiver, if_neg success,
      Server.receive_goesOn (by decide +kernel) goesOn]
    rfl
  exact ⟨_, leftovers, (put_wait_ends_on_notice leftovers rfl (.serving "f" []) 0).mpr
    (by decide +kernel)⟩

/-- The duplicate leaves a letter where the notice should end. -/
theorem completed_after_duplicate_unnoticed :
    ∃ s', Run (Server.Drains committed)
        (serverStored.afterReceiver 0 EXIT_SUCCESS (Server.pathSize (text "hello")))
        [some duplicate] s' ∧
      s'.receive committed (.serving "f" []) 0
          ⟨.text feedback.TRANSFER_COMPLETED, none, 2⟩ ≠
        some ({ s' with answering := 2, pc := .head }, []) := by
  have goesOn : bufferHolds (overlay (Payload.text feedback.TRANSFER_COMPLETED).bytes
      (overlay duplicate.payload.bytes
        (List.replicate (Server.pathSize (text "hello")) 0)))
      feedback.TRANSFER_COMPLETED = false := by
    decide +kernel
  refine ⟨_, Server.drains_duplicate, ?_⟩
  rw [Server.receive_goesOn (by decide +kernel) goesOn]
  simp

end Spqr
