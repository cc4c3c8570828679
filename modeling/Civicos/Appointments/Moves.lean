import Civicos.Appointments.Operations
import Civicos.Appointments.System

/-!
# Booking operations as moves

Every transaction of a booking operation is a sequence of moves. A property of the store that each
move keeps is kept by all of them.
-/
namespace Civicos.Appointments

open Library Library.Transaction Relation
open Payments (Uuid)

/-- What a sequence of moves may do: whether it may book and mark a no-show, the slots that it may
free, and the bookings whose attendance it may count. -/
structure Permits where
  book : Prop := True
  miss : Prop := True
  free : Uuid → Prop := fun _ => True
  count : Store → Booking → Prop := fun _ _ => True

inductive Move (seen : Store) (P : Permits) : Store → Store → Prop where
  | opened {b x s t} (book : P.book) (h : Opened b x s t) (root : b.rescheduledFrom = none)
      (depth : b.rescheduleCount = 0) : Move seen P s t
  | closed {old new x s t} (free : P.free x.pk) (h : Closed old new x s t)
      (kept : new.rescheduled = old.rescheduled) : Move seen P s t
  | moved {old new b x y s m t} (free : P.free x.pk) (h : Moved old new b x y s m t)
      (movable : Movable seen old b.slot) : Move seen P s t
  | confirmed {old s t} (h : Confirmed old s t) : Move seen P s t
  | completed {old s t} (count : P.count s old) (h : Completed seen old s t) : Move seen P s t
  | absent {policy old s t} (miss : P.miss) (h : Absent seen policy old s t) : Move seen P s t
  | tagged {old new s t} (h : Tagged old new s t) : Move seen P s t
  | locked {x s t} (h : Restatused x .blocked s t) : Move seen P s t
  | reopened {x s t} (free : P.free x.pk)
      (h : Restatused x (occupancy x.spacesUsed x.capacity) s t) : Move seen P s t
  | noted {s t} (h : Audited s t) (path : ∀ k, t.statusPath k = s.statusPath k) : Move seen P s t

/-- What `reschedule_booking` asks of the row. -/
def Booking.movable (old : Booking) : Bool := old.status = .confirmed ∧ old.noShow = false

abbrev Moves (seen : Store) (P : Permits) : Store → Store → Prop := ReflTransGen (Move seen P)

/-- What every move keeps, a sequence of moves keeps. -/
theorem Moves.keeps {seen s t : Store} {P : Permits} {I : Store → Prop} (h : Moves seen P s t)
    (keep : ∀ s t, Move seen P s t → I s → I t) (hs : I s) : I t := by
  induction h with
  | refl => exact hs
  | tail _ hmove ih => exact keep _ _ hmove ih

variable {seen s t : Store} {P : Permits} {u : Unit} {now : Instant} {booking : Uuid}
  {actor : Option User} {reason : String} {ip : Option String} {b booking' : Booking}

theorem createBooking_moves {own : List Booking} {slot : Uuid} {citizen : ℕ} {intake : Intake}
    (hbook : P.book) (h : createBooking seen own now slot citizen intake actor ip s = .ok (b, t)) :
    Move seen P s t := by
  obtain ⟨x, policy, hopened, -, -, -, hroot, hdepth, -⟩ := createBooking_ok h
  exact .opened hbook hopened hroot hdepth

theorem Move.earlier (h : Move seen P s t) : Earlier s t := by
  cases h with
  | opened _ h => exact h.earlier
  | closed _ h => exact h.earlier
  | moved _ h => exact h.earlier
  | confirmed h => exact h.earlier
  | completed _ h => exact h.earlier
  | absent _ h => exact h.earlier
  | tagged h => exact h.earlier
  | locked h => exact h.earlier
  | reopened _ h => exact h.earlier
  | noted h => exact .of_eq h.bookings

theorem Move.frame (h : Move seen P s t) : Frame s t := by
  cases h with
  | opened _ h => exact h.toFrame
  | closed _ h => exact h.toFrame
  | moved _ h =>
    have hclosed := h.closed.toFrame
    have hopened := h.opened.toFrame
    exact ⟨hopened.catalog.trans hclosed.catalog, hopened.clock.trans hclosed.clock,
      hopened.adminBlocked.trans hclosed.adminBlocked⟩
  | confirmed h => exact h.toFrame
  | completed _ h => exact h.toFrame
  | absent _ h => exact h.toFrame
  | tagged h =>
    rw [h.2.1]
    exact ⟨rfl, rfl, rfl⟩
  | locked h =>
    rw [h.2]
    exact ⟨rfl, rfl, rfl⟩
  | reopened _ h =>
    rw [h.2]
    exact ⟨rfl, rfl, rfl⟩
  | noted h => exact h.toFrame

theorem cancelBooking_moves
    (hfree : ∀ old, s.bookings.get booking = some old → old.status.isActive = true →
      P.free old.slot)
    (h : cancelBooking seen now booking actor reason ip s = .ok (b, t)) : Move seen P s t := by
  obtain ⟨old, x, hold, -, hkept, -, hclosed⟩ := cancelBooking_ok h
  exact .closed (hclosed.slot ▸ hfree old hold hclosed.active) hclosed hkept

theorem rejectBooking_moves
    (hfree : ∀ old, s.bookings.get booking = some old → old.status = .pending → P.free old.slot)
    (h : rejectBooking now booking actor reason ip s = .ok (b, t)) : Move seen P s t := by
  obtain ⟨old, x, hold, hstatus, hkept, hclosed⟩ := rejectBooking_ok h
  exact .closed (hclosed.slot ▸ hfree old hold (hclosed.pending_of_rejected hstatus)) hclosed hkept

theorem rescheduleBooking_moves {newSlot : Uuid}
    (hfree : ∀ old, s.bookings.get booking = some old → old.movable = true → P.free old.slot)
    (h : rescheduleBooking seen now booking newSlot actor reason ip s = .ok (b, t)) :
    Move seen P s t := by
  obtain ⟨old, new, x, y, m, hold, hmoved, rfl, hallowed, -⟩ := rescheduleBooking_ok h
  have hmovable : old.movable = true := by
    simp [Booking.movable, hmoved.confirmed, hmoved.present]
  exact .moved (hmoved.closed.slot ▸ hfree old hold hmovable) hmoved hallowed

/-! ## The GovStack adapter -/

theorem saveGovStack_moves {k : Uuid} {exclusive : Option Bool} {entityId : Option String}
    (h : saveGovStack k exclusive entityId s = .ok (u, t)) : Moves seen P s t := by
  obtain ⟨-, rfl⟩ | ⟨old, new, -, htagged, -⟩ := saveGovStack_ok h
  · exact .refl
  · exact .single (.tagged htagged)

theorem lockSlot_moves {k : Uuid} (h : lockSlot k s = .ok (u, t)) : Move seen P s t := by
  obtain ⟨x, -, hx⟩ := lockSlot_ok h
  exact .locked hx

theorem unlockSlot_moves {k : Uuid} (hfree : P.free k) (h : unlockSlot k s = .ok (u, t)) :
    Move seen P s t := by
  obtain ⟨x, rfl, hx⟩ := unlockSlot_ok h
  exact .reopened hfree hx

theorem bookEvents_moves {citizen : User} {events : List Uuid} {created bs : List Booking}
    (hbook : P.book) (h : bookEvents seen now citizen events created s = .ok (bs, t)) :
    Moves seen P s t := by
  induction events generalizing created s with
  | nil =>
    obtain ⟨-, rfl⟩ := pure_ok.mp h
    exact .refl
  | cons event rest ih =>
    obtain ⟨x, -, h₁⟩ := found_bind.mp h
    obtain ⟨a, -, h₂⟩ := found_bind.mp h₁
    obtain ⟨b, s₁, hcreate, h₃⟩ := bind_ok.mp h₂
    exact (ReflTransGen.single (createBooking_moves hbook hcreate)).trans (ih h₃)

theorem tagBookings_moves {exclusive : Bool} {entityId : String} {bs : List Booking}
    (h : tagBookings exclusive entityId bs s = .ok (u, t)) : Moves seen P s t := by
  induction bs generalizing s with
  | nil =>
    obtain ⟨-, rfl⟩ := pure_ok.mp h
    exact .refl
  | cons b rest ih =>
    obtain ⟨_, s₁, hsave, h₁⟩ := bind_ok.mp h
    obtain ⟨s₂, hlock, h₂⟩ := when_ok h₁
    have hlocked : Moves seen P s₁ s₂ := by
      obtain ⟨-, hlock⟩ | ⟨-, rfl⟩ := hlock
      · exact .single (lockSlot_moves hlock)
      · exact .refl
    exact ((saveGovStack_moves hsave).trans hlocked).trans (ih h₂)

theorem resolveSubscriber_ok {participantType participantId : String} {citizen : User}
    (h : resolveSubscriber seen participantType participantId s = .ok (citizen, t)) :
    t = s ∧ parseInt participantId = some (citizen.pk : ℤ) := by
  unfold resolveSubscriber at h
  obtain ⟨-, h₁⟩ := guard_ok h
  obtain ⟨-, h₂⟩ := guard_ok h₁
  obtain ⟨pk, hpk, h₃⟩ := found_bind.mp h₂
  obtain ⟨hcitizen, hsame⟩ := found_ok.mp h₃
  have hfound := List.find?_some hcitizen
  simp only [decide_eq_true_eq] at hfound
  exact ⟨hsame, hpk.trans (congrArg some hfound.1.symm)⟩

theorem validateParticipantEntityId_ok {raw id : String}
    (h : validateParticipantEntityId seen raw s = .ok (id, t)) : t = s := by
  unfold validateParticipantEntityId at h
  split at h
  · exact (pure_ok.mp h).2
  · obtain ⟨pk, -, h₁⟩ := found_bind.mp h
    obtain ⟨-, h₂⟩ := guard_ok h₁
    exact (pure_ok.mp h₂).2

/-- The citizen for whom a request books, as the code reads the participant. -/
def AppointmentCreation.participant (r : AppointmentCreation) : Option ℤ :=
  parseInt <| match r.callerCitizenId with
    | some caller => if r.participantId = "" then toString caller else r.participantId
    | none => r.participantId

theorem appointmentCreate_parts {r : AppointmentCreation} {bs : List Booking}
    (h : appointmentCreate seen now r s = .ok (bs, t)) :
    ∃ (citizen : User) (entityId : String) (m : Store), r.participant = some (citizen.pk : ℤ) ∧
      bookEvents seen now citizen (sortedEventIds r.eventIds) [] s = .ok (bs, m) ∧
      tagBookings r.exclusive entityId bs m = .ok ((), t) := by
  unfold appointmentCreate at h
  obtain ⟨-, h₁⟩ := guard_ok h
  obtain ⟨citizen, s₁, hcitizen, h₂⟩ := bind_ok.mp h₁
  obtain ⟨rfl, hparticipant⟩ := resolveSubscriber_ok hcitizen
  obtain ⟨-, h₃⟩ := guard_ok h₂
  obtain ⟨entityId, s₂, hentity, h₄⟩ := bind_ok.mp h₃
  obtain rfl := validateParticipantEntityId_ok hentity
  obtain ⟨created, s₃, hbook, h₅⟩ := bind_ok.mp h₄
  obtain ⟨_, s₄, htag, h₆⟩ := bind_ok.mp h₅
  obtain ⟨rfl, rfl⟩ := pure_ok.mp h₆
  exact ⟨citizen, entityId, s₃, hparticipant, hbook, htag⟩

theorem appointmentCreate_moves {r : AppointmentCreation} {bs : List Booking}
    (hbook : P.book) (h : appointmentCreate seen now r s = .ok (bs, t)) : Moves seen P s t := by
  obtain ⟨citizen, entityId, m, -, hevents, htag⟩ := appointmentCreate_parts h
  exact (bookEvents_moves hbook hevents).trans (tagBookings_moves htag)

/-- What is left of a modification that returns: its four steps. -/
theorem appointmentModify_parts {r : AppointmentModification}
    (h : appointmentModify seen now r s = .ok (b, t)) :
    ∃ status entityId read moved booking m₁ m₂ m₃,
      statusTransition r.statusId = .ok status ∧
      seen.bookings.get r.appointmentId = some read ∧
      moveAppointment seen now read r.eventId s = .ok (moved, m₁) ∧
      transition seen now moved status m₁ = .ok (booking, m₂) ∧
      toggleExclusive booking r.exclusive m₂ = .ok ((), m₃) ∧
      saveEntityId booking entityId m₃ = .ok ((), t) := by
  unfold appointmentModify at h
  obtain ⟨status, s₁, hlift, h₁⟩ := bind_ok.mp h
  obtain ⟨hstatus, rfl⟩ := lift_ok.mp hlift
  obtain ⟨entityId, s₂, hentity, h₂⟩ := bind_ok.mp h₁
  obtain rfl : s₂ = s₁ := by
    cases hraw : r.participantEntityId with
    | none =>
      rw [hraw] at hentity
      exact (pure_ok.mp hentity).2
    | some raw =>
      rw [hraw] at hentity
      obtain ⟨id, s₃, hid, h₃⟩ := bind_ok.mp hentity
      exact (pure_ok.mp h₃).2.trans (validateParticipantEntityId_ok hid)
  obtain ⟨read, hread, h₃⟩ := found_bind.mp h₂
  obtain ⟨moved, m₁, hmoved, h₄⟩ := bind_ok.mp h₃
  obtain ⟨booking, m₂, hbooking, h₅⟩ := bind_ok.mp h₄
  obtain ⟨_, m₃, htoggle, h₆⟩ := bind_ok.mp h₅
  obtain ⟨_, m₄, hsave, h₇⟩ := bind_ok.mp h₆
  obtain ⟨-, rfl⟩ := pure_ok.mp h₇
  exact ⟨status, entityId, read, moved, booking, m₁, m₂, m₃, hstatus, hread, hmoved, hbooking,
    htoggle, hsave⟩

/-- A move to another event: the old booking is replaced, and the new one takes over its columns. -/
theorem moveTo_parts {read : Booking} {event : Uuid}
    (h : moveTo seen now read event s = .ok (b, t)) :
    ∃ citizen c m₁ m₂,
      rescheduleBooking seen now read.pk event (some citizen) "" none s = .ok (c, m₁) ∧
      saveGovStack c.pk (some read.govstackExclusive) (some read.govstackParticipantEntityId) m₁ =
        .ok ((), m₂) ∧
      b = { c with
        govstackExclusive := read.govstackExclusive
        govstackParticipantEntityId := read.govstackParticipantEntityId } ∧
      (read.govstackExclusive = true ∧ (∃ m₃, lockSlot c.slot m₂ = .ok ((), m₃) ∧
          saveGovStack read.pk (some false) none m₃ = .ok ((), t)) ∨
        read.govstackExclusive = false ∧ t = m₂) := by
  unfold moveTo at h
  obtain ⟨x, hx, h₁⟩ := found_bind.mp h
  obtain ⟨citizen, s₁, hcitizen, h₂⟩ := bind_ok.mp h₁
  obtain ⟨-, rfl⟩ := found_ok.mp hcitizen
  obtain ⟨c, m₁, hc, h₃⟩ := bind_ok.mp h₂
  obtain ⟨_, m₂, hsave, h₄⟩ := bind_ok.mp h₃
  obtain rfl : x.pk = event := Table.pk_of_get hx
  refine ⟨citizen, c, m₁, m₂, hc, hsave, ?_⟩
  split at h₄
  next hexclusive =>
    obtain ⟨_, m₃, hlock, h₅⟩ := bind_ok.mp h₄
    obtain ⟨_, m₄, hclear, h₆⟩ := bind_ok.mp h₅
    obtain ⟨rfl, rfl⟩ := pure_ok.mp h₆
    exact ⟨rfl, .inl ⟨hexclusive, m₃, hlock, hclear⟩⟩
  next hexclusive =>
    obtain ⟨rfl, rfl⟩ := pure_ok.mp h₄
    exact ⟨rfl, .inr ⟨by simpa using hexclusive, rfl⟩⟩

/-- The row of a booking in hand has not moved to another slot or citizen. -/
def Current (s : Store) (b : Booking) : Prop :=
  ∃ row, s.bookings.get b.pk = some row ∧ row.slot = b.slot ∧ row.citizen = b.citizen

theorem Current.of_get (h : s.bookings.get b.pk = some b) : Current s b := ⟨b, h, rfl, rfl⟩

/-- What a move to another event leaves: a new booking, current in the store. -/
structure MovedTo (seen : Store) (read b : Booking) (event : Uuid) (s t : Store) : Prop where
  row : t.bookings.get b.pk = some b
  slot : b.slot = event
  open_ : ∃ x, s.slots.get event = some x ∧ x.isOpen = true
  present : b.noShow = false
  confirmed : b.status = .confirmed
  citizen : ∀ old, s.bookings.get read.pk = some old → b.citizen = old.citizen
  records : t.noShowRecords = s.noShowRecords

theorem saveGovStack_row {k : Uuid} {exclusive : Option Bool} {entityId : Option String}
    {row : Booking} (h : saveGovStack k exclusive entityId s = .ok (u, t))
    (hk : s.bookings.get k = some row) :
    t.bookings.get k = some { row with
      govstackExclusive := exclusive.getD row.govstackExclusive
      govstackParticipantEntityId := entityId.getD row.govstackParticipantEntityId } := by
  obtain ⟨B, hB, rfl⟩ := write_replaces h hk rfl
  have hpk : row.pk = k := Table.pk_of_get hk
  exact hpk ▸ hB.get_new

theorem saveGovStack_frame {k j : Uuid} {exclusive : Option Bool} {entityId : Option String}
    (h : saveGovStack k exclusive entityId s = .ok (u, t)) (hne : k ≠ j) :
    t.bookings.get j = s.bookings.get j := by
  obtain ⟨-, rfl⟩ | ⟨old, new, hold, ⟨hB, -⟩, -⟩ := saveGovStack_ok h
  · rfl
  · have hpk : old.pk = k := Table.pk_of_get hold
    exact hB.get_of_ne fun heq => hne (hpk.symm.trans heq)

theorem saveGovStack_others {k : Uuid} {exclusive : Option Bool} {entityId : Option String}
    (h : saveGovStack k exclusive entityId s = .ok (u, t)) :
    t = { s with bookings := t.bookings } := by
  obtain ⟨-, rfl⟩ | ⟨old, new, -, ⟨-, ht, -⟩, -⟩ := saveGovStack_ok h
  · rfl
  · exact ht

theorem moveTo_ok {read : Booking} {event : Uuid} (h : moveTo seen now read event s = .ok (b, t)) :
    MovedTo seen read b event s t := by
  obtain ⟨citizen, c, m₁, m₂, hreschedule, htag, rfl, hrest⟩ := moveTo_parts h
  obtain ⟨old, new, x, y, m, hold, hmoved, hslot, -, hopen⟩ := rescheduleBooking_ok hreschedule
  have hc : m₁.bookings.get c.pk = some c := Table.get_inserted hmoved.opened.bookings
  have hrow := saveGovStack_row htag hc
  have hne : read.pk ≠ c.pk := by
    have hpk : old.pk = read.pk := Table.pk_of_get hold
    have hapart := (Table.insert_ok.mp hmoved.opened.bookings).1.2 new
      hmoved.closed.bookings.new_mem
    have hnew : new.pk = old.pk := hmoved.closed.same.pk
    exact fun heq => hapart.1 (hnew.trans (hpk.trans heq))
  have hm₂ := saveGovStack_others htag
  have hlast : t.bookings.get c.pk = m₂.bookings.get c.pk ∧ t.noShowRecords = m₂.noShowRecords := by
    obtain ⟨-, m₃, hlock, hclear⟩ | ⟨-, rfl⟩ := hrest
    · obtain ⟨z, -, -, hz⟩ := lockSlot_ok hlock
      rw [saveGovStack_frame hclear hne, saveGovStack_others hclear, hz]
      exact ⟨rfl, rfl⟩
    · exact ⟨rfl, rfl⟩
  exact {
    row := hlast.1.trans hrow
    slot := hslot
    open_ := hopen
    present := hmoved.opened.fresh.1
    confirmed := hmoved.status
    citizen := fun a ha => by
      obtain rfl : old = a := Option.some.inj (hold.symm.trans ha)
      exact hmoved.citizen
    records := by rw [hlast.2, hm₂]; exact hmoved.records }

theorem moveTo_moves {read : Booking} {event : Uuid}
    (hfree : ∀ old, s.bookings.get read.pk = some old → old.movable = true → P.free old.slot)
    (h : moveTo seen now read event s = .ok (b, t)) : Moves seen P s t := by
  obtain ⟨citizen, c, m₁, m₂, hreschedule, htag, -, hrest⟩ := moveTo_parts h
  have hmove : Moves seen P s m₁ := .single (rescheduleBooking_moves hfree hreschedule)
  refine (hmove.trans (saveGovStack_moves htag)).trans ?_
  obtain ⟨-, m₃, hlock, hclear⟩ | ⟨-, rfl⟩ := hrest
  · exact (ReflTransGen.single (lockSlot_moves hlock)).trans (saveGovStack_moves hclear)
  · exact .refl

/-- The booking in hand after a transition is the one before, or its new row. -/
theorem transition_ok {status : Option StatusTransition}
    (h : transition seen now booking' status s = .ok (b, t)) :
    status = none ∧ b = booking' ∧ t = s ∨
    ∃ old, s.bookings.get booking'.pk = some old ∧ b.pk = booking'.pk ∧ b.slot = old.slot ∧
      t.bookings.get b.pk = some b ∧
      (status = some .confirmed ∧ b = { old with status := .confirmed } ∧ Confirmed old s t ∨
      status = some .completed ∧ b = { old with status := .completed } ∧ Completed seen old s t ∨
      (status = some .rejected ∧ b.status = .rejected ∨ status = some .cancelled ∧
        b.status = .cancelled) ∧ b.rescheduled = old.rescheduled ∧ ∃ x, Closed old b x s t) := by
  match status with
  | none =>
    obtain ⟨rfl, rfl⟩ := pure_ok.mp h
    exact .inl ⟨rfl, rfl, rfl⟩
  | some .confirmed =>
    obtain ⟨old, hold, rfl, hconfirmed⟩ := confirmBooking_ok h
    have hpk : old.pk = booking'.pk := Table.pk_of_get hold
    exact .inr ⟨old, hold, hpk, rfl, hconfirmed.bookings.get_new, .inl ⟨rfl, rfl, hconfirmed⟩⟩
  | some .rejected =>
    obtain ⟨old, x, hold, hstatus, hkept, hclosed⟩ := rejectBooking_ok h
    have hpk : old.pk = booking'.pk := Table.pk_of_get hold
    exact .inr ⟨old, hold, hclosed.same.pk.trans hpk, hclosed.same.slot,
      hclosed.same.pk ▸ hclosed.bookings.get_new,
      .inr (.inr ⟨.inl ⟨rfl, hstatus⟩, hkept, x, hclosed⟩)⟩
  | some .cancelled =>
    obtain ⟨citizen, s₁, hcitizen, hcancel⟩ := bind_ok.mp h
    obtain ⟨-, rfl⟩ := found_ok.mp hcitizen
    obtain ⟨old, x, hold, hstatus, hkept, -, hclosed⟩ := cancelBooking_ok hcancel
    have hpk : old.pk = booking'.pk := Table.pk_of_get hold
    exact .inr ⟨old, hold, hclosed.same.pk.trans hpk, hclosed.same.slot,
      hclosed.same.pk ▸ hclosed.bookings.get_new,
      .inr (.inr ⟨.inr ⟨rfl, hstatus⟩, hkept, x, hclosed⟩)⟩
  | some .completed =>
    obtain ⟨old, hold, rfl, hcompleted⟩ := completeBooking_ok h
    have hpk : old.pk = booking'.pk := Table.pk_of_get hold
    exact .inr ⟨old, hold, hpk, rfl, hcompleted.bookings.get_new,
      .inr (.inl ⟨rfl, rfl, hcompleted⟩)⟩

/-- The transitions that give the space of a booking back. -/
def StatusTransition.closes (old : Booking) : StatusTransition → Bool
  | rejected => old.status = .pending
  | cancelled => old.status.isActive
  | _ => false

theorem transition_moves {status : Option StatusTransition}
    (hfree : ∀ old, s.bookings.get booking'.pk = some old → status.any (·.closes old) = true →
      P.free old.slot)
    (hcount : ∀ old, s.bookings.get booking'.pk = some old → status = some .completed →
      P.count s old)
    (h : transition seen now booking' status s = .ok (b, t)) : Moves seen P s t := by
  obtain ⟨-, -, rfl⟩ | ⟨old, hold, -, -, -, hcases⟩ := transition_ok h
  · exact .refl
  · obtain ⟨-, -, hconfirmed⟩ | ⟨hstatus, -, hcompleted⟩ | ⟨hstatus, hkept, x, hclosed⟩ := hcases
    · exact .single (.confirmed hconfirmed)
    · exact .single (.completed (hcount old hold hstatus) hcompleted)
    · have hcloses : status.any (·.closes old) = true := by
        obtain ⟨rfl, hnew⟩ | ⟨rfl, -⟩ := hstatus
        · simpa [StatusTransition.closes] using hclosed.pending_of_rejected hnew
        · exact hclosed.active
      exact .single (.closed (hclosed.slot ▸ hfree old hold hcloses) hclosed hkept)

theorem toggleExclusive_moves {exclusive : Option Bool}
    (hfree : exclusive = some false → P.free b.slot)
    (h : toggleExclusive b exclusive s = .ok (u, t)) : Moves seen P s t := by
  match exclusive with
  | none =>
    obtain ⟨-, rfl⟩ := pure_ok.mp h
    exact .refl
  | some false =>
    obtain ⟨_, s₁, hsave, hunlock⟩ := bind_ok.mp h
    exact (saveGovStack_moves hsave).trans (.single (unlockSlot_moves (hfree rfl) hunlock))
  | some true =>
    obtain ⟨_, s₁, hsave, hlock⟩ := bind_ok.mp h
    refine (saveGovStack_moves hsave).trans ?_
    by_cases hactive : b.status.isActive = true
    · simp only [hactive, if_true] at hlock
      exact .single (lockSlot_moves hlock)
    · simp only [hactive] at hlock
      obtain ⟨-, rfl⟩ := pure_ok.mp hlock
      exact .refl

theorem saveEntityId_moves {entityId : Option String}
    (h : saveEntityId b entityId s = .ok (u, t)) : Moves seen P s t := by
  cases entityId with
  | none =>
    obtain ⟨-, rfl⟩ := pure_ok.mp h
    exact .refl
  | some id => exact saveGovStack_moves h

namespace AppointmentModification

def closes (r : AppointmentModification) (old : Booking) : Bool :=
  (statusTransition r.statusId).toOption.any (·.any (·.closes old))

def completes (r : AppointmentModification) : Bool :=
  (statusTransition r.statusId).toOption = some (some .completed)

def moves (r : AppointmentModification) (slot : Uuid) : Bool := r.eventId.any (· ≠ slot)

/-- Whether a modification frees the slot in which its booking stands. -/
def frees (r : AppointmentModification) (old : Booking) : Bool :=
  r.exclusive = some false ∨ (r.moves old.slot ∧ old.movable) ∨ r.closes old

end AppointmentModification

/-- A booking that a call on booking `k` finds in the store `m` on its way: that booking itself, or
one that it has just opened for the same citizen. -/
def OnTheWay (s : Store) (k : Uuid) (m : Store) (old : Booking) : Prop :=
  m = s ∧ s.bookings.get k = some old ∨ m.noShowRecords = s.noShowRecords ∧ old.noShow = false ∧
    ∃ a, s.bookings.get k = some a ∧ old.citizen = a.citizen

/-- Either the booking that was read stays in hand, or another event was asked for. -/
theorem moveAppointment_ok {read : Booking} {eventId : Option Uuid}
    (h : moveAppointment seen now read eventId s = .ok (b, t)) :
    b = read ∧ t = s ∧ eventId.any (· ≠ read.slot) = false ∨
    ∃ event, eventId = some event ∧ eventId.any (· ≠ read.slot) = true ∧
      moveTo seen now read event s = .ok (b, t) := by
  cases eventId with
  | none =>
    obtain ⟨rfl, rfl⟩ := pure_ok.mp h
    exact .inl ⟨rfl, rfl, rfl⟩
  | some event =>
    change (if event = read.slot then pure read else moveTo seen now read event) s = .ok (b, t) at h
    by_cases hsame : event = read.slot
    · rw [if_pos hsame] at h
      obtain ⟨rfl, rfl⟩ := pure_ok.mp h
      exact .inl ⟨rfl, rfl, by simp [hsame]⟩
    · rw [if_neg hsame] at h
      exact .inr ⟨event, rfl, by simp [hsame], h⟩

/-- Steps 2 to 4, on the booking `moved` in hand. -/
theorem appointmentModify_rest {status : Option StatusTransition} {exclusive : Option Bool}
    {entityId : Option String} {moved c : Booking} {m₁ m₂ m₃ : Store} (hcurrent : Current m₁ moved)
    (hunlock : exclusive = some false → P.free moved.slot)
    (hclose : ∀ a, m₁.bookings.get moved.pk = some a → status.any (·.closes a) = true →
      P.free a.slot)
    (hcount : ∀ a, m₁.bookings.get moved.pk = some a → status = some .completed → P.count m₁ a)
    (htransition : transition seen now moved status m₁ = .ok (c, m₂))
    (htoggle : toggleExclusive c exclusive m₂ = .ok ((), m₃))
    (hsave : saveEntityId c entityId m₃ = .ok ((), t)) : Moves seen P m₁ t := by
  have hslot : c.slot = moved.slot := by
    obtain ⟨-, rfl, -⟩ | ⟨a, ha, -, hslot, -⟩ := transition_ok htransition
    · rfl
    · obtain ⟨row, hrow, hrowslot, -⟩ := hcurrent
      obtain rfl : row = a := Option.some.inj (hrow.symm.trans ha)
      exact hslot.trans hrowslot
  exact ((transition_moves hclose hcount htransition).trans
    (toggleExclusive_moves (fun hx => hslot ▸ hunlock hx) htoggle)).trans (saveEntityId_moves hsave)

theorem appointmentModify_moves {r : AppointmentModification} (hseen : Earlier seen s)
    (hfree : ∀ old, s.bookings.get r.appointmentId = some old → r.frees old = true →
      P.free old.slot)
    (hopen : ∀ k x, s.slots.get k = some x → x.isOpen = true → P.free k)
    (hcount : ∀ m old, r.completes = true → OnTheWay s r.appointmentId m old → P.count m old)
    (h : appointmentModify seen now r s = .ok (b, t)) : Moves seen P s t := by
  obtain ⟨status, entityId, read, moved, c, m₁, m₂, m₃, hstatus, hread, hmoved,
    htransition, htoggle,
    hsave⟩ := appointmentModify_parts h
  have hpk : read.pk = r.appointmentId := Table.pk_of_get hread
  obtain ⟨old, hold, honward⟩ := hseen.keeps _ _ hread
  have hslot : read.slot = old.slot := honward.slot.symm
  have hcloses : ∀ a, status.any (·.closes a) = true → r.closes a = true := by
    simp [AppointmentModification.closes, hstatus, Except.toOption]
  have hcompletes : status = some .completed → r.completes = true := by
    rintro rfl
    simp [AppointmentModification.completes, hstatus, Except.toOption]
  obtain ⟨rfl, rfl, -⟩ | ⟨event, hevent, hother, hto⟩ := moveAppointment_ok hmoved
  · refine appointmentModify_rest ⟨old, hpk ▸ hold, honward.slot, honward.citizen⟩ (fun hx => ?_)
      (fun a ha hs => ?_) (fun a ha hs => ?_) htransition htoggle hsave
    · exact hslot ▸ hfree old hold (by simp [AppointmentModification.frees, hx])
    · exact hfree a (hpk ▸ ha) (by simp [AppointmentModification.frees, hcloses a hs])
    · exact hcount _ a (hcompletes hs) (.inl ⟨rfl, hpk ▸ ha⟩)
  · have hmovedTo := moveTo_ok hto
    obtain ⟨x, hx, hxopen⟩ := hmovedTo.open_
    have hnew : P.free moved.slot := hmovedTo.slot ▸ hopen event x hx hxopen
    have hrow : ∀ a, m₁.bookings.get moved.pk = some a → moved = a := fun a ha =>
      Option.some.inj (hmovedTo.row.symm.trans ha)
    have hfirst : Moves seen P s m₁ := by
      refine moveTo_moves (fun a ha hmovable => ?_) hto
      obtain rfl : old = a := Option.some.inj (hold.symm.trans (hpk ▸ ha))
      have hmoves : r.moves old.slot = true := hslot ▸ hother
      exact hfree old hold (by simp [AppointmentModification.frees, hmovable, hmoves])
    refine hfirst.trans (appointmentModify_rest (.of_get hmovedTo.row) (fun _ => hnew)
      (fun a ha _ => hrow a ha ▸ hnew) (fun a ha hs => ?_) htransition htoggle hsave)
    obtain rfl := hrow a ha
    exact hcount _ _ (hcompletes hs) (.inr ⟨hmovedTo.records, hmovedTo.present, old, hold,
      hmovedTo.citizen old (hpk.symm ▸ hold)⟩)

theorem appointmentDelete_ok {id : Uuid} {caller : Option ℕ}
    (h : appointmentDelete seen now id caller s = .ok (b, t)) :
    ∃ citizen, cancelBooking seen now id (some citizen) "" none s = .ok (b, t) := by
  unfold appointmentDelete at h
  obtain ⟨read, hread, h₁⟩ := found_bind.mp h
  obtain ⟨-, h₂⟩ := guard_ok h₁
  obtain ⟨citizen, s₁, hcitizen, h₃⟩ := bind_ok.mp h₂
  obtain ⟨-, rfl⟩ := found_ok.mp hcitizen
  obtain rfl : read.pk = id := Table.pk_of_get hread
  exact ⟨citizen, h₃⟩

theorem resolveBooking_ok {eventId subscriberId : String}
    (h : resolveBooking seen eventId subscriberId s = .ok (b, t)) : t = s := by
  unfold resolveBooking at h
  obtain ⟨citizen, -, h₁⟩ := found_bind.mp h
  obtain ⟨slot, -, h₂⟩ := found_bind.mp h₁
  match hrows : seen.bookings.rows.filter fun b => b.slot = slot ∧ (b.citizen : ℤ) = citizen with
  | [] =>
    rw [hrows] at h₂
    cases h₂
  | [row] =>
    rw [hrows] at h₂
    exact (pure_ok.mp h₂).2
  | _ :: _ :: _ =>
    rw [hrows] at h₂
    cases h₂

theorem logCreate_ok {r : LogDetails} {entry : BookingAuditLog}
    (h : logCreate seen r s = .ok (entry, t)) :
    Audited s t ∧ ∀ k, t.statusPath k = s.statusPath k := by
  unfold logCreate at h
  obtain ⟨-, h₁⟩ := guard_ok h
  obtain ⟨-, h₂⟩ := guard_ok h₁
  obtain ⟨refs, s₁, hlift, h₃⟩ := bind_ok.mp h₂
  obtain ⟨-, rfl⟩ := lift_ok.mp hlift
  obtain ⟨booking, s₂, hbooking, h₄⟩ := bind_ok.mp h₃
  obtain rfl := resolveBooking_ok hbooking
  obtain ⟨-, h₅⟩ := guard_ok h₄
  obtain ⟨rfl, A, hA, rfl⟩ := create_ok.mp h₅
  refine ⟨⟨⟨rfl, rfl, rfl⟩, rfl, rfl, rfl, rfl⟩, fun k => ?_⟩
  have hrows := (Table.insert_ok.mp hA).2
  simp only [Store.statusPath, Store.auditTable] at hrows ⊢
  rw [hrows, List.filter_append, List.map_append]
  simp

theorem logCreate_moves {r : LogDetails} {entry : BookingAuditLog}
    (h : logCreate seen r s = .ok (entry, t)) : Move seen P s t :=
  .noted (logCreate_ok h).1 (logCreate_ok h).2

end Civicos.Appointments
