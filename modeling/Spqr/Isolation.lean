/-
Module: Spqr.Isolation
Purpose: Which datagrams of a transfer can reach a party outside it: the two
  ends as roles, and the invariant of the datagrams between them.
Trusted boundary: none
Main exports:
  Role, RoleStep, Isolated, RoleStep.preserves
-/
import Spqr.Session

namespace Spqr

open Labelled

/-! ### Roles -/

/-- The part of a transfer that a party plays. -/
inductive Role where
  | outside
  /-- inside `main_receiver` -/
  | receiving (transfer : ℕ)
  /-- in the drain loop after `main_receiver` -/
  | draining (transfer : ℕ)
  /-- inside `main_sender` -/
  | sending (transfer : ℕ)
deriving DecidableEq

/-- The transfer that a party is inside. -/
def Role.transfer : Role → Option ℕ
  | .outside => none
  | .receiving t => some t
  | .draining t => some t
  | .sending t => some t

namespace Datagram

/-- A packet of the transfer. -/
def PacketOf (t : ℕ) (d : Datagram) : Prop :=
  d.transfer = some t ∧ ∃ contents, d.payload = .packet contents

/-- The packet that tells that the sender of the transfer has given up. -/
def ErrorOf (t : ℕ) (d : Datagram) : Prop :=
  d.transfer = some t ∧
    ∃ contents, d.payload = .packet contents ∧ contents.seqNum = SEQ_NUM_ERROR

/-- An acknowledgment of the transfer. -/
def AckOf (t : ℕ) (d : Datagram) : Prop :=
  d.transfer = some t ∧ ∃ contents, d.payload = .ack contents

instance (t : ℕ) (d : Datagram) : Decidable (d.PacketOf t) :=
  match payload : d.payload with
  | .packet contents =>
      decidable_of_iff (d.transfer = some t)
        ⟨fun named => ⟨named, contents, payload⟩, And.left⟩
  | .text _ => isFalse fun ⟨_, _, packet⟩ => by simp [payload] at packet
  | .ack _ => isFalse fun ⟨_, _, packet⟩ => by simp [payload] at packet

instance (t : ℕ) (d : Datagram) : Decidable (d.AckOf t) :=
  match payload : d.payload with
  | .ack contents =>
      decidable_of_iff (d.transfer = some t)
        ⟨fun named => ⟨named, contents, payload⟩, And.left⟩
  | .text _ => isFalse fun ⟨_, _, ack⟩ => by simp [payload] at ack
  | .packet _ => isFalse fun ⟨_, _, ack⟩ => by simp [payload] at ack

/-- A text that belongs to no transfer. -/
def Plain (d : Datagram) : Prop :=
  d.transfer = none ∧ ∃ message, d.payload = .text message

/-- The transfer that a `START_TRANSFER` of a `main_receiver` starts. -/
def starts (d : Datagram) : Option ℕ :=
  match d.payload with
  | .text _ => d.transfer
  | _ => none

end Datagram

/-- The datagrams on the way to a party with role `p` from one with role `q`. -/
structure Isolated (p q : Role) (toP toQ : List Datagram) (clock : ℕ) : Prop where
  packets : ∀ d ∈ toP, ∀ contents, d.payload = .packet contents →
    ∃ t, d.transfer = some t ∧ (p = .draining t ∨
      p = .receiving t ∧ (contents.seqNum ≠ SEQ_NUM_ERROR → q = .sending t))
  acks : ∀ d ∈ toP, ∀ contents, d.payload = .ack contents →
    ∃ t, d.transfer = some t ∧ p = .sending t
  served : ∀ t, p = .sending t → q = .receiving t ∨ q = .draining t
  starts : ∀ d ∈ toP, ∀ t, d.starts = some t →
    q = .receiving t ∧ p ≠ .sending t ∧ ∀ e ∈ toQ, ¬ e.PacketOf t
  distinct : (toP.filterMap Datagram.starts).Nodup
  fresh : ∀ d ∈ toP, ∀ t, d.transfer = some t → t < clock
  freshRole : ∀ t, p.transfer = some t → t < clock

/-- What a party with role `q` can do in one step: it may take a datagram, which
leaves `rest` of those on the way to it, it changes its role and it sends. -/
inductive RoleStep (clock : ℕ) (p : Role) (toP : List Datagram)
    (consumed : Option Datagram) (rest : List Datagram) :
    Role → Role → List Datagram → Prop where
  /-- Commands and replies. -/
  | talk {out : List Datagram} (plain : ∀ d ∈ out, d.Plain) :
      RoleStep clock p toP consumed rest .outside .outside out
  /-- `main_receiver` opens the destination. -/
  | listen {before : List Datagram} {message : Text} {request : ℕ}
      (plain : ∀ d ∈ before, d.Plain) :
      RoleStep clock p toP consumed rest .outside (.receiving clock)
        (before ++ [⟨.text message, some clock, request⟩])
  /-- `main_receiver` fails to open it. -/
  | refuse : RoleStep clock p toP consumed rest .outside (.draining clock) []
  /-- `main_sender` begins. -/
  | begin {t : ℕ} {d : Datagram} {out : List Datagram}
      (heard : consumed = some d) (starts : d.starts = some t)
      (packets : ∀ e ∈ out, e.PacketOf t) :
      RoleStep clock p toP consumed rest .outside (.sending t) out
  /-- `receive_data_from_sender` answers a running sender. -/
  | answer {t : ℕ} {q' : Role} {out : List Datagram}
      (stays : q' = .receiving t ∨ q' = .draining t) (running : p = .sending t)
      (acks : ∀ e ∈ out, e.AckOf t) :
      RoleStep clock p toP consumed rest (.receiving t) q' out
  /-- It reads that the sender has given up. -/
  | abandon {t : ℕ} {q' : Role} {d : Datagram} (heard : consumed = some d)
      (genuine : d.PacketOf t ∨ p = .sending t)
      (leaves : q' = .draining t ∨ q' = .outside ∧
        (∀ e ∈ rest, ¬ e.PacketOf t) ∧ p ≠ .sending t) :
      RoleStep clock p toP consumed rest (.receiving t) q' []
  /-- The drain loop goes on. -/
  | drain {t : ℕ} :
      RoleStep clock p toP consumed rest (.draining t) (.draining t) []
  /-- The drain loop ends. -/
  | leave {t : ℕ} {out : List Datagram} (plain : ∀ d ∈ out, d.Plain)
      (settled : ∀ e ∈ rest, ¬ e.PacketOf t) (ended : p ≠ .sending t) :
      RoleStep clock p toP consumed rest (.draining t) .outside out
  /-- `main_sender` sends. -/
  | send {t : ℕ} {out : List Datagram} (packets : ∀ e ∈ out, e.PacketOf t) :
      RoleStep clock p toP consumed rest (.sending t) (.sending t) out
  /-- `main_sender` returns. -/
  | finish {t : ℕ} {errors out : List Datagram} (error : ∀ e ∈ errors, e.ErrorOf t)
      (plain : ∀ d ∈ out, d.Plain) (settled : ∀ e ∈ rest, ¬ e.AckOf t)
      (unanswered : p = .receiving t → ∀ e ∈ toP, ¬ e.PacketOf t) :
      RoleStep clock p toP consumed rest (.sending t) .outside (errors ++ out)

namespace Datagram

variable {t : ℕ} {d : Datagram}

theorem Plain.starts_eq (plain : d.Plain) : d.starts = none := by
  obtain ⟨transfer, message, payload⟩ := plain
  rw [starts, payload, transfer]

theorem PacketOf.starts_eq (packet : d.PacketOf t) : d.starts = none := by
  obtain ⟨_, contents, payload⟩ := packet
  rw [starts, payload]

theorem AckOf.starts_eq (ack : d.AckOf t) : d.starts = none := by
  obtain ⟨_, contents, payload⟩ := ack
  rw [starts, payload]

theorem ErrorOf.packetOf (error : d.ErrorOf t) : d.PacketOf t := by
  obtain ⟨transfer, contents, payload, _⟩ := error
  exact ⟨transfer, contents, payload⟩

theorem transfer_of_starts (starts : d.starts = some t) : d.transfer = some t := by
  unfold Datagram.starts at starts
  split at starts
  · exact starts
  · simp at starts

end Datagram

namespace Isolated

variable {p q p' q' : Role} {toP toQ rest out : List Datagram} {clock t : ℕ}

/-- Time passes. -/
theorem tick (iso : Isolated p q toP toQ clock) :
    Isolated p q toP toQ (clock + 1) :=
  { iso with
    fresh := fun d member t named => (iso.fresh d member t named).trans (by omega)
    freshRole := fun t named => (iso.freshRole t named).trans (by omega) }

/-- A datagram is taken. -/
theorem take (iso : Isolated p q toP toQ clock) (remain : rest.Sublist toP) :
    Isolated p q rest toQ clock where
  packets d member := iso.packets d (remain.subset member)
  acks d member := iso.acks d (remain.subset member)
  served := iso.served
  starts d member := iso.starts d (remain.subset member)
  distinct := iso.distinct.sublist (remain.filterMap _)
  fresh d member := iso.fresh d (remain.subset member)
  freshRole := iso.freshRole

/-- A datagram is taken on the other side. -/
theorem takeBack (iso : Isolated p q toP toQ clock) (remain : rest.Sublist toQ) :
    Isolated p q toP rest clock :=
  { iso with
    starts := fun d member t named =>
      have ⟨listens, idle, early⟩ := iso.starts d member t named
      ⟨listens, idle, fun e later => early e (remain.subset later)⟩ }

/-- Something is sent that starts no transfer. -/
theorem append (iso : Isolated p q toP toQ clock)
    (quiet : ∀ d ∈ out, d.starts = none)
    (packets : ∀ d ∈ out, ∀ contents, d.payload = .packet contents →
      ∃ t, d.transfer = some t ∧ (p = .draining t ∨
        p = .receiving t ∧ (contents.seqNum ≠ SEQ_NUM_ERROR → q = .sending t)))
    (acks : ∀ d ∈ out, ∀ contents, d.payload = .ack contents →
      ∃ t, d.transfer = some t ∧ p = .sending t)
    (fresh : ∀ d ∈ out, ∀ t, d.transfer = some t → t < clock) :
    Isolated p q (toP ++ out) toQ clock where
  packets d member := (List.mem_append.mp member).elim (iso.packets d) (packets d)
  acks d member := (List.mem_append.mp member).elim (iso.acks d) (acks d)
  served := iso.served
  starts d member t named := by
    rcases List.mem_append.mp member with old | new
    · exact iso.starts d old t named
    · simp [quiet d new] at named
  distinct := by
    rw [List.filterMap_append, List.filterMap_eq_nil_iff.mpr quiet,
      List.append_nil]
    exact iso.distinct
  fresh d member := (List.mem_append.mp member).elim (iso.fresh d) (fresh d)
  freshRole := iso.freshRole

/-- Something is sent on the other side, but no packet of a transfer that is yet
to start. -/
theorem appendBack (iso : Isolated p q toP toQ clock)
    (started : ∀ e ∈ out, ∀ t, e.PacketOf t → ∀ d ∈ toP, d.starts ≠ some t) :
    Isolated p q toP (toQ ++ out) clock :=
  { iso with
    starts := fun d member t named => by
      obtain ⟨listens, idle, early⟩ := iso.starts d member t named
      refine ⟨listens, idle, fun e later packet => ?_⟩
      rcases List.mem_append.mp later with old | new
      · exact early e old packet
      · exact started e new t packet d member named }

/-- The party on the way to which the datagrams are takes another role. -/
theorem become (iso : Isolated p q toP toQ clock)
    (packets : ∀ e ∈ toP, ∀ t, e.PacketOf t → p' = .draining t ∨
      p' = .receiving t ∧ (p = .draining t → q = .sending t))
    (acks : ∀ e ∈ toP, ∀ t, ¬ e.AckOf t)
    (served : ∀ t, p' = .sending t → q = .receiving t ∨ q = .draining t)
    (starts : ∀ e ∈ toP, ∀ t, e.starts = some t → p' ≠ .sending t)
    (freshRole : ∀ t, p'.transfer = some t → t < clock) :
    Isolated p' q toP toQ clock where
  packets d member contents payload := by
    obtain ⟨t, transfer, place⟩ := iso.packets d member contents payload
    refine ⟨t, transfer, (packets d member t ⟨transfer, contents, payload⟩).imp id ?_⟩
    rintro ⟨listens, before⟩
    refine ⟨listens, fun genuine => ?_⟩
    rcases place with drains | ⟨_, runs⟩
    · exact before drains
    · exact runs genuine
  acks d member contents payload := by
    obtain ⟨t, transfer, _⟩ := iso.acks d member contents payload
    exact absurd ⟨transfer, contents, payload⟩ (acks d member t)
  served := served
  starts d member t named :=
    have ⟨listens, _, early⟩ := iso.starts d member t named
    ⟨listens, starts d member t named, early⟩
  distinct := iso.distinct
  fresh := iso.fresh
  freshRole := freshRole

/-- The party that the datagrams come from takes another role. -/
theorem becomeBack (iso : Isolated p q toP toQ clock)
    (running : ∀ t, p = .receiving t → q = .sending t →
      q' = .sending t ∨ ∀ e ∈ toP, ¬ e.PacketOf t)
    (served : ∀ t, p = .sending t → q' = .receiving t ∨ q' = .draining t)
    (starts : ∀ e ∈ toP, ∀ t, e.starts = some t → q' = .receiving t) :
    Isolated p q' toP toQ clock where
  packets d member contents payload := by
    obtain ⟨t, transfer, place⟩ := iso.packets d member contents payload
    refine ⟨t, transfer, place.imp id ?_⟩
    rintro ⟨listens, runs⟩
    refine ⟨listens, fun genuine => ?_⟩
    rcases running t listens (runs genuine) with goesOn | none
    · exact goesOn
    · exact absurd ⟨transfer, contents, payload⟩ (none d member)
  acks := iso.acks
  served := served
  starts d member t named :=
    have ⟨_, idle, early⟩ := iso.starts d member t named
    ⟨starts d member t named, idle, early⟩
  distinct := iso.distinct
  fresh := iso.fresh
  freshRole := iso.freshRole

/-- A `main_receiver` announces itself. -/
theorem announce (iso : Isolated p (.receiving t) toP toQ clock) {message : Text}
    {request : ℕ} (idle : p ≠ .sending t) (early : ∀ e ∈ toQ, ¬ e.PacketOf t)
    (first : ∀ d ∈ toP, d.transfer ≠ some t) (numbered : t < clock) :
    Isolated p (.receiving t) (toP ++ [⟨.text message, some t, request⟩]) toQ
      clock where
  packets d member contents payload := by
    rcases List.mem_append.mp member with old | new
    · exact iso.packets d old contents payload
    · rw [List.mem_singleton.mp new] at payload
      simp at payload
  acks d member contents payload := by
    rcases List.mem_append.mp member with old | new
    · exact iso.acks d old contents payload
    · rw [List.mem_singleton.mp new] at payload
      simp at payload
  served := iso.served
  starts d member t' named := by
    rcases List.mem_append.mp member with old | new
    · exact iso.starts d old t' named
    · rw [List.mem_singleton.mp new] at named
      obtain rfl : t = t' := Option.some.inj named
      exact ⟨rfl, idle, early⟩
  distinct := by
    rw [List.filterMap_append]
    apply iso.distinct.append (by simp [Datagram.starts])
    intro t' old new
    obtain rfl : t' = t := by simpa [Datagram.starts] using new
    obtain ⟨d, member, named⟩ := List.mem_filterMap.mp old
    exact first d member (Datagram.transfer_of_starts named)
  fresh d member t' named := by
    rcases List.mem_append.mp member with old | new
    · exact iso.fresh d old t' named
    · rw [List.mem_singleton.mp new] at named
      obtain rfl : t = t' := Option.some.inj named
      exact numbered
  freshRole := iso.freshRole

theorem appendPlain (iso : Isolated p q toP toQ clock)
    (plain : ∀ d ∈ out, d.Plain) : Isolated p q (toP ++ out) toQ clock := by
  refine iso.append (fun d member => (plain d member).starts_eq) ?_ ?_ ?_
  · intro d member contents payload
    obtain ⟨_, message, text⟩ := plain d member
    simp [text] at payload
  · intro d member contents payload
    obtain ⟨_, message, text⟩ := plain d member
    simp [text] at payload
  · intro d member t transfer
    simp [(plain d member).1] at transfer

theorem appendPlainBack (iso : Isolated p q toP toQ clock)
    (plain : ∀ d ∈ out, d.Plain) : Isolated p q toP (toQ ++ out) clock := by
  apply iso.appendBack
  rintro d member t ⟨transfer, _⟩
  simp [(plain d member).1] at transfer

/-- Packets of a running transfer. -/
theorem appendPackets (iso : Isolated p q toP toQ clock)
    (packets : ∀ d ∈ out, d.PacketOf t) (numbered : t < clock)
    (place : p = .draining t ∨ p = .receiving t ∧
      (q = .sending t ∨ ∀ d ∈ out, d.ErrorOf t)) :
    Isolated p q (toP ++ out) toQ clock := by
  refine iso.append (fun d member => (packets d member).starts_eq) ?_ ?_ ?_
  · intro d member contents payload
    refine ⟨t, (packets d member).1, place.imp id ?_⟩
    rintro ⟨listens, runs | errors⟩
    · exact ⟨listens, fun _ => runs⟩
    · refine ⟨listens, fun genuine => ?_⟩
      obtain ⟨_, contents', payload', error⟩ := errors d member
      obtain rfl : contents = contents' := by simpa [payload] using payload'
      exact absurd error genuine
  · intro d member contents payload
    obtain ⟨_, _, packet⟩ := packets d member
    simp [payload] at packet
  · intro d member t' transfer
    obtain rfl : t = t' := Option.some.inj ((packets d member).1.symm.trans transfer)
    exact numbered

/-- Seen from the other side: no `START_TRANSFER` of that transfer is left. -/
theorem appendPacketsBack (iso : Isolated p q toP toQ clock)
    (packets : ∀ e ∈ out, e.PacketOf t) (begun : ∀ d ∈ toP, d.starts ≠ some t) :
    Isolated p q toP (toQ ++ out) clock := by
  apply iso.appendBack
  intro e member t' packet d later
  obtain rfl : t = t' := Option.some.inj ((packets e member).1.symm.trans packet.1)
  exact begun d later

theorem appendAcks (iso : Isolated p q toP toQ clock)
    (acks : ∀ d ∈ out, d.AckOf t) (numbered : t < clock) (runs : p = .sending t) :
    Isolated p q (toP ++ out) toQ clock := by
  refine iso.append (fun d member => (acks d member).starts_eq) ?_ ?_ ?_
  · intro d member contents payload
    obtain ⟨_, _, ack⟩ := acks d member
    simp [payload] at ack
  · intro d member contents payload
    exact ⟨t, (acks d member).1, runs⟩
  · intro d member t' transfer
    obtain rfl : t = t' := Option.some.inj ((acks d member).1.symm.trans transfer)
    exact numbered

theorem appendAcksBack (iso : Isolated p q toP toQ clock)
    (acks : ∀ d ∈ out, d.AckOf t) : Isolated p q toP (toQ ++ out) clock := by
  apply iso.appendBack
  rintro d member t' ⟨_, _, packet⟩
  obtain ⟨_, _, ack⟩ := acks d member
  simp [packet] at ack

/-- Only texts are on the way to a party outside. -/
theorem texts_outside (iso : Isolated .outside q toP toQ clock) :
    ∀ e ∈ toP, ∀ t, ¬ e.PacketOf t ∧ ¬ e.AckOf t := by
  intro e member t
  constructor
  · rintro ⟨_, contents, payload⟩
    obtain ⟨_, _, drains | ⟨listens, _⟩⟩ := iso.packets e member contents payload
    · simp at drains
    · simp at listens
  · rintro ⟨_, contents, payload⟩
    obtain ⟨_, _, sends⟩ := iso.acks e member contents payload
    simp at sends

/-- Acknowledgments go to senders only. -/
theorem no_ack (iso : Isolated p q toP toQ clock) (quiet : ∀ t, p ≠ .sending t) :
    ∀ e ∈ toP, ∀ t, ¬ e.AckOf t := by
  rintro e member t ⟨_, contents, payload⟩
  obtain ⟨t', _, sends⟩ := iso.acks e member contents payload
  exact quiet t' sends

/-- Packets go to their own transfer. -/
theorem packet_place (iso : Isolated p q toP toQ clock) {e : Datagram}
    (member : e ∈ toP) (packet : e.PacketOf t) :
    p = .draining t ∨ p = .receiving t := by
  obtain ⟨transfer, contents, payload⟩ := packet
  obtain ⟨t', transfer', place⟩ := iso.packets e member contents payload
  obtain rfl : t = t' := Option.some.inj (transfer.symm.trans transfer')
  exact place.imp id And.left

/-! ### Changes of role -/

/-- `main_receiver` opens the destination or fails to: no transfer is under way to a
party outside. -/
theorem enter (toward : Isolated p .outside toP rest clock)
    (back : Isolated .outside p rest toP clock)
    (enters : q' = .receiving t ∨ q' = .draining t) (numbered : t < clock) :
    Isolated p q' toP rest clock ∧ Isolated q' p rest toP clock := by
  constructor
  · exact toward.becomeBack (fun t' _ sends => by simp at sends)
      (fun t' sends => by simpa using toward.served t' sends)
      (fun e member t' named => by simpa using (toward.starts e member t' named).1)
  · exact back.become
      (fun e member t' packet => absurd packet (back.texts_outside e member t').1)
      (fun e member t' => (back.texts_outside e member t').2)
      (fun t' sends => by rcases enters with rfl | rfl <;> simp at sends)
      (fun e member t' named sends => by
        rcases enters with rfl | rfl <;> simp at sends)
      (fun t' named => by
        rcases enters with rfl | rfl <;> exact (Option.some.inj named) ▸ numbered)

/-- `main_sender` begins. -/
theorem beginSending (toward : Isolated p .outside toP rest clock)
    (back : Isolated .outside p rest toP clock) (listens : p = .receiving t)
    (unique : ∀ e ∈ rest, e.starts ≠ some t) (numbered : t < clock) :
    Isolated p (.sending t) toP rest clock ∧
      Isolated (.sending t) p rest toP clock := by
  constructor
  · exact toward.becomeBack (fun t' other sends => by simp at sends)
      (fun t' sends => by simp [listens] at sends)
      (fun e member t' named => by simpa using (toward.starts e member t' named).1)
  · exact back.become
      (fun e member t' packet => absurd packet (back.texts_outside e member t').1)
      (fun e member t' => (back.texts_outside e member t').2)
      (fun t' same => by
        obtain rfl : t = t' := by simpa using same
        exact .inl listens)
      (fun e member t' named same => by
        obtain rfl : t = t' := by simpa using same
        exact unique e member named)
      (fun t' named => by
        obtain rfl : t = t' := Option.some.inj named
        exact numbered)

/-- `receive_data_from_sender` answers a running sender, or returns. -/
theorem answer (toward : Isolated p (.receiving t) toP rest clock)
    (back : Isolated (.receiving t) p rest toP clock)
    (stays : q' = .receiving t ∨ q' = .draining t) (runs : p = .sending t) :
    Isolated p q' toP rest clock ∧ Isolated q' p rest toP clock := by
  constructor
  · exact toward.becomeBack (fun t' listens _ => by simp [runs] at listens)
      (fun t' sends => by
        obtain rfl : t = t' := by simpa [runs] using sends
        exact stays)
      (fun e member t' named => by
        obtain ⟨listens, idle, _⟩ := toward.starts e member t' named
        obtain rfl : t = t' := by simpa using listens
        exact absurd runs idle)
  · exact back.become
      (fun e member t' packet => by
        obtain rfl : t = t' := by simpa using back.packet_place member packet
        exact stays.symm.imp id fun same => ⟨same, by simp⟩)
      (back.no_ack fun t' sends => by simp at sends)
      (fun t' sends => by rcases stays with rfl | rfl <;> simp at sends)
      (fun e member t' named sends => by
        rcases stays with rfl | rfl <;> simp at sends)
      (fun t' named => by
        rcases stays with rfl | rfl <;>
          exact (Option.some.inj named) ▸ back.freshRole t rfl)

/-- It returns because the sender has given up. -/
theorem abandon (toward : Isolated p (.receiving t) toP rest clock)
    (back : Isolated (.receiving t) p rest toP clock)
    (begun : ∀ e ∈ toP, ∀ t', e.starts ≠ some t')
    (leaves : q' = .draining t ∨ q' = .outside ∧
      (∀ e ∈ rest, ¬ e.PacketOf t) ∧ p ≠ .sending t) :
    Isolated p q' toP rest clock ∧ Isolated q' p rest toP clock := by
  constructor
  · refine toward.becomeBack (fun t' _ sends => by simp at sends) (fun t' sends => ?_)
      (fun e member t' named => absurd named (begun e member t'))
    obtain rfl : t = t' := by simpa using toward.served t' sends
    exact leaves.symm.imp (fun gone => absurd sends gone.2.2) id
  · refine back.become (fun e member t' packet => ?_)
      (back.no_ack fun t' sends => by simp at sends)
      (fun t' sends => ?_) (fun e member t' named sends => ?_) (fun t' named => ?_)
    · obtain rfl : t = t' := by simpa using back.packet_place member packet
      exact leaves.imp id fun gone => absurd packet (gone.2.1 e member)
    · rcases leaves with rfl | ⟨rfl, _⟩ <;> simp at sends
    · rcases leaves with rfl | ⟨rfl, _⟩ <;> simp at sends
    · rcases leaves with rfl | ⟨rfl, _⟩
      · exact (Option.some.inj named) ▸ back.freshRole t rfl
      · simp [Role.transfer] at named

/-- A drain loop ends. -/
theorem leave (toward : Isolated p (.draining t) toP rest clock)
    (back : Isolated (.draining t) p rest toP clock)
    (settled : ∀ e ∈ rest, ¬ e.PacketOf t) (ended : p ≠ .sending t) :
    Isolated p .outside toP rest clock ∧ Isolated .outside p rest toP clock := by
  constructor
  · exact toward.becomeBack (fun t' _ sends => by simp at sends)
      (fun t' sends => by
        obtain rfl : t = t' := by simpa using toward.served t' sends
        exact absurd sends ended)
      (fun e member t' named => by simpa using (toward.starts e member t' named).1)
  · exact back.become
      (fun e member t' packet => by
        obtain rfl : t = t' := by simpa using back.packet_place member packet
        exact absurd packet (settled e member))
      (back.no_ack fun t' sends => by simp at sends)
      (fun t' sends => by simp at sends) (fun e member t' named => by simp)
      (fun t' named => by simp [Role.transfer] at named)

/-- `main_sender` returns. -/
theorem finish (toward : Isolated p (.sending t) toP rest clock)
    (back : Isolated (.sending t) p rest toP clock)
    (settled : ∀ e ∈ rest, ¬ e.AckOf t)
    (unanswered : p = .receiving t → ∀ e ∈ toP, ¬ e.PacketOf t) :
    Isolated p .outside toP rest clock ∧ Isolated .outside p rest toP clock := by
  constructor
  · exact toward.becomeBack
      (fun t' listens sends => by
        obtain rfl : t = t' := by simpa using sends
        exact .inr (unanswered listens))
      (fun t' sends => by simpa using toward.served t' sends)
      (fun e member t' named => by simpa using (toward.starts e member t' named).1)
  · exact back.become
      (fun e member t' packet => by simpa using back.packet_place member packet)
      (fun e member t' ack => by
        obtain ⟨transfer, contents, payload⟩ := ack
        obtain ⟨t'', transfer', sends⟩ := back.acks e member contents payload
        obtain rfl : t = t'' := by simpa using sends
        exact settled e member ⟨transfer', contents, payload⟩)
      (fun t' sends => by simp at sends) (fun e member t' named => by simp)
      (fun t' named => by simp [Role.transfer] at named)

end Isolated

/-! ### One step -/

/-- A step of either party keeps both directions isolated. -/
theorem RoleStep.preserves {clock : ℕ} {p q q' : Role}
    {toP toQ rest out : List Datagram} {consumed : Option Datagram}
    (toward : Isolated p q toP toQ clock) (back : Isolated q p toQ toP clock)
    (remain : rest.Sublist toQ)
    (taken : ∀ d, consumed = some d → d ∈ toQ ∧
      ∀ t, d.starts = some t → ∀ e ∈ rest, e.starts ≠ some t)
    (step : RoleStep clock p toP consumed rest q q' out) :
    Isolated p q' (toP ++ out) rest (clock + 1) ∧
      Isolated q' p rest (toP ++ out) (clock + 1) := by
  have toward' := (toward.takeBack remain).tick
  have back' := (back.take remain).tick
  cases step with
  | talk plain =>
      exact ⟨toward'.appendPlain plain, back'.appendPlainBack plain⟩
  | @listen before message request plain =>
      obtain ⟨toward'', back''⟩ :=
        toward'.enter back' (.inl rfl) clock.lt_succ_self
      -- nobody else has this number
      have first : ∀ d ∈ toP ++ before, d.transfer ≠ some clock := by
        intro d member transfer
        rcases List.mem_append.mp member with old | new
        · exact absurd (toward.fresh d old clock transfer) (Nat.lt_irrefl _)
        · simp [(plain d new).1] at transfer
      rw [← List.append_assoc]
      refine ⟨(toward''.appendPlain plain).announce
          (fun sends => by simpa using toward.served clock sends)
          (fun e member => (back'.texts_outside e member clock).1) first (by omega),
        (back''.appendPlainBack plain).appendBack ?_⟩
      rintro e member t ⟨_, _, packet⟩
      rw [List.mem_singleton.mp member] at packet
      simp at packet
  | refuse =>
      rw [List.append_nil]
      exact toward'.enter back' (.inr rfl) clock.lt_succ_self
  | @begin t d out heard starts packets =>
      obtain ⟨member, unique⟩ := taken d heard
      have listens := (back.starts d member t starts).1
      have numbered := back.fresh d member t (Datagram.transfer_of_starts starts)
      obtain ⟨toward'', back''⟩ :=
        toward'.beginSending back' listens (unique t starts) (by omega)
      exact ⟨toward''.appendPackets packets (by omega) (.inr ⟨listens, .inl rfl⟩),
        back''.appendPacketsBack packets (unique t starts)⟩
  | @answer t q' out stays runs acks =>
      obtain ⟨toward'', back''⟩ := toward'.answer back' stays runs
      exact ⟨toward''.appendAcks acks (back'.freshRole t rfl) runs,
        back''.appendAcksBack acks⟩
  | @abandon t q' d heard genuine leaves =>
      -- the transfer has started, so no `START_TRANSFER` of it is left
      have begun : ∀ e ∈ toP, ∀ t', e.starts ≠ some t' := by
        intro e member t' named
        obtain ⟨listens, idle, early⟩ := toward.starts e member t' named
        obtain rfl : t = t' := by simpa using listens
        rcases genuine with packet | runs
        · exact early d (taken d heard).1 packet
        · exact idle runs
      rw [List.append_nil]
      exact toward'.abandon back' begun leaves
  | drain =>
      rw [List.append_nil]
      exact ⟨toward', back'⟩
  | @leave t out plain settled ended =>
      obtain ⟨toward'', back''⟩ := toward'.leave back' settled ended
      exact ⟨toward''.appendPlain plain, back''.appendPlainBack plain⟩
  | @send t out packets =>
      refine ⟨toward'.appendPackets packets (back'.freshRole t rfl) ?_,
        back'.appendPacketsBack packets fun d later named =>
          (back'.starts d later t named).2.1 rfl⟩
      exact (back.served t rfl).symm.imp id fun listens => ⟨listens, .inl rfl⟩
  | @finish t errors out error plain settled unanswered =>
      obtain ⟨toward'', back''⟩ := toward'.finish back' settled unanswered
      have packets : ∀ e ∈ errors, e.PacketOf t := fun e member =>
        (error e member).packetOf
      rw [← List.append_assoc]
      refine ⟨(toward''.appendPackets packets (back'.freshRole t rfl) ?_).appendPlain
          plain,
        (back''.appendPacketsBack packets fun d later named =>
          (back'.starts d later t named).2.1 rfl).appendPlainBack plain⟩
      exact (back.served t rfl).symm.imp id fun listens => ⟨listens, .inr error⟩

end Spqr
