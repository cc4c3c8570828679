import Civicos.Appointments.Store
import Civicos.Library.Triple

/-!
# The booking lifecycle

Every function is one transaction. Rows that it locks are read from the current store; `seen` is
the committed store from which it reads the others, as it stood at some moment of the call.
-/
namespace Civicos.Appointments

open Library Library.Transaction
open Payments (Uuid Json Value orElse)

/-- The value of a query, or what its absence raises. -/
def found {α : Type} (missing : AppointmentError) : Option α → Tx α
  | some a => pure a
  | none => throw missing

theorem found_bind {α β : Type} {missing : AppointmentError} {o : Option α}
    {f : α → Tx β} {s : Store}
    {r : β × Store} :
    (found missing o >>= f) s = .ok r ↔ ∃ a, o = some a ∧ f a s = .ok r := by
  cases o with
  | none => simp [found, bind_apply, Except.bind]
  | some a => simp [found]

theorem found_ok {α : Type} {missing : AppointmentError} {o : Option α} {a : α} {s t : Store} :
    found missing o s = .ok (a, t) ↔ o = some a ∧ t = s := by
  cases o with
  | none => simp [found]
  | some b => simp [found, eq_comm]

/-! ## Helpers -/

def occupancy (spacesUsed capacity : ℕ) : SlotStatus :=
  if spacesUsed = 0 then .available else if spacesUsed < capacity then .partiallyBooked else .full

/-- Save the counter of a locked slot, with the status that follows from it. -/
def updateSlotStatus (slot : Slot) : Tx Unit :=
  write Store.slotTable .ofViolation slot.pk fun row =>
    { row with spacesUsed := slot.spacesUsed, status := occupancy slot.spacesUsed slot.capacity }

/-- `slot.spaces_used = max(0, slot.spaces_used - 1)` on a locked slot. -/
def releaseSpace (slot : Slot) : Tx Unit := do
  modify fun s => { s with clipped := s.clipped + if slot.spacesUsed = 0 then 1 else 0 }
  updateSlotStatus { slot with spacesUsed := slot.spacesUsed - 1 }

def actorRole : Option User → String
  | none => "system"
  | some actor => if actor.isStaff then "organizer" else "subscriber"

def actorId : Option User → String
  | none => "system"
  | some actor => toString actor.pk

def writeAuditLog (booking : Uuid) (action : String) (actor : Option User)
    (previousStatus newStatus : String) (detail : Json) (actorIp : Option String) : Tx Unit := do
  let _ ← create Store.auditTable .ofViolation fun pk =>
    { pk
      booking := some booking
      action
      actorId := actorId actor
      actorIp
      previousStatus
      newStatus
      detail
      actorRole := actorRole actor }

/-- The insert of a loser meets the unique index, and the committed record is read instead. -/
def getOrCreateNoShowRecord (seen : Store) (citizen : ℕ) : Tx ClientNoShowRecord :=
  match seen.recordOf citizen with
  | some record => pure record
  | none => do
    match (← get).recordOf citizen with
    | some record => return record
    | none => create Store.recordTable .ofViolation fun pk => { pk, citizen }

/-- The appointment type of a slot, which no transaction changes. -/
def appointmentTypeOf (seen : Store) (slot : Slot) : Tx AppointmentType :=
  found (.doesNotExist "AppointmentType") (seen.catalog.appointmentType slot.appointmentType)

/-! ## Creating -/

/-- Bookings that count against a citizen's limit. -/
def activeCount (bookings : List Booking) (citizen : ℕ) : ℕ :=
  bookings.countP fun b => b.citizen = citizen ∧ b.status.isActive

/-- A confirmed or completed booking for the same service type, not before `cutoff`. -/
def hasRecent (seen : Store) (bookings : List Booking) (citizen serviceType : ℕ)
    (cutoff : Instant) : Bool :=
  bookings.any fun b =>
    b.citizen = citizen ∧ b.status ∈ [BookingStatus.confirmed, .completed] ∧
      ((seen.slots.get b.slot).any fun x =>
        ((seen.catalog.appointmentType x.appointmentType).any (·.serviceType = serviceType)) ∧
          cutoff ≤ x.startDatetime)

/-- Steps 3 to 5, on the locked slot. -/
def checkBookable (seen : Store) (bookings : List Booking) (now : Instant) (slot : Slot)
    (citizen : ℕ) : Tx AppointmentType := do
  if !slot.isOpen || slot.capacity ≤ slot.spacesUsed then
    throw (.slotFullError ("Slot " ++ toString slot.pk ++ " is full (spaces_used=" ++
      toString slot.spacesUsed ++ ", capacity=" ++ toString slot.capacity ++
      "). Offer waitlist instead."))
  let appointmentType ← appointmentTypeOf seen slot
  let policy := seen.catalog.resolvePolicy appointmentType slot.location
  if 0 < policy.bookingFrequencyDays ∧ hasRecent seen bookings citizen appointmentType.serviceType
      (now - days policy.bookingFrequencyDays) then
    throw (.frequencyWindowError ("Citizen " ++ toString citizen ++
      " has a recent booking within the " ++ toString policy.bookingFrequencyDays ++
      "-day frequency window."))
  if policy.maxActiveBookingsPerCitizen ≤ activeCount bookings citizen then
    throw (.maxActiveBookingsError ("Citizen " ++ toString citizen ++ " already has " ++
      toString (activeCount bookings citizen) ++ " active booking(s). Maximum is " ++
      toString policy.maxActiveBookingsPerCitizen ++ "."))
  return appointmentType

def AppointmentType.initialStatus (appointmentType : AppointmentType) : BookingStatus :=
  if appointmentType.requiresStaffConfirmation then .pending else .confirmed

def writeConsentLog (booking : Uuid) (intake : Intake) (actor : Option User)
    (actorIp : Option String) : Tx Unit :=
  if intake.consentRecordedAt.isSome then
    writeAuditLog booking "consent_recorded" actor "" ""
      [("consent_version", .str intake.consentVersion)] actorIp
  else pure ()

/-- `own` are the bookings that the surrounding transaction has created before. -/
def createBooking (seen : Store) (own : List Booking) (now : Instant) (slot : Uuid) (citizen : ℕ)
    (intake : Intake) (actor : Option User) (actorIp : Option String) : Tx Booking := do
  if (seen.recordOf citizen).any (·.isSuspended) then
    throw (.citizenSuspendedError ("Citizen " ++ toString citizen ++
      " is suspended from self-booking. A staff member must review and clear the suspension."))
  let slot ← lookup Store.slotTable (.doesNotExist "Slot") slot
  let appointmentType ← checkBookable seen (seen.bookings.rows ++ own) now slot citizen
  let status := appointmentType.initialStatus
  let booking ← create Store.bookingTable .ofViolation fun pk =>
    { pk, slot := slot.pk, citizen, status, intake, createdAt := now }
  updateSlotStatus { slot with spacesUsed := slot.spacesUsed + 1 }
  writeAuditLog booking.pk "created" actor "" status.text
    [("slot_id", .str (toString slot.pk)), ("appointment_type_slug", .str appointmentType.slug),
      ("channel", .str intake.bookingChannel), ("auto_confirmed", .bool (status = .confirmed))]
      actorIp
  writeConsentLog booking.pk intake actor actorIp
  return booking

/-! ## Closing -/

namespace Booking

def cancel (now : Instant) (actor : Option User) (reason : String) (isLate : Bool)
    (row : Booking) : Booking :=
  { row with
    status := .cancelled
    cancelledAt := some now
    cancelledBy := actor.map (·.pk)
    cancellationReason := reason
    lateCancellation := isLate }

def reject (now : Instant) (actor : Option User) (reason : String) (row : Booking) : Booking :=
  { row with
    status := .rejected
    cancelledAt := some now
    cancelledBy := actor.map (·.pk)
    cancellationReason := reason }

/-- The end of a booking that a later one replaces. -/
def replace (now : Instant) (actor : Option User) (reason : String) (row : Booking) : Booking :=
  { row with
    status := .cancelled
    rescheduled := true
    cancelledAt := some now
    cancelledBy := actor.map (·.pk)
    cancellationReason := orElse reason "Rescheduled by citizen/staff." }

end Booking

def cancelAction : Option User → String
  | none => "cancelled_system"
  | some actor => if actor.isStaff then "cancelled_staff" else "cancelled_citizen"

def countLateCancellation (seen : Store) (citizen : ℕ) : Tx Unit := do
  let record ← getOrCreateNoShowRecord seen citizen
  write Store.recordTable .ofViolation record.pk fun row =>
    { row with lateCancellationCount := record.lateCancellationCount + 1 }

def cancelBooking (seen : Store) (now : Instant) (booking : Uuid) (actor : Option User)
    (reason : String) (actorIp : Option String) : Tx Booking := do
  let booking ← lookup Store.bookingTable (.doesNotExist "Booking") booking
  if booking.status ∈ [BookingStatus.cancelled, .completed, .rejected] then
    throw (.invalidStatusTransitionError ("Cannot cancel booking " ++ toString booking.pk ++
      ": already in terminal status '" ++ booking.status.text ++ "'."))
  let slotRead ← found (.doesNotExist "Slot") (seen.slots.get booking.slot)
  let appointmentType ← appointmentTypeOf seen slotRead
  let policy := seen.catalog.resolvePolicy appointmentType slotRead.location
  let isLate : Bool := now + hours policy.cancellationNoticeHours > slotRead.startDatetime
  let wasConfirmed : Bool := booking.status = .confirmed
  write Store.bookingTable .ofViolation booking.pk (.cancel now actor reason isLate)
  let slot ← lookup Store.slotTable (.doesNotExist "Slot") booking.slot
  releaseSpace slot
  if isLate ∧ wasConfirmed then countLateCancellation seen booking.citizen
  writeAuditLog booking.pk (cancelAction actor) actor booking.status.text
    BookingStatus.cancelled.text
    [("late", .bool isLate), ("slot_id", .str (toString booking.slot)),
      ("was_confirmed", .bool wasConfirmed)] actorIp
  return booking.cancel now actor reason isLate

def rejectBooking (now : Instant) (booking : Uuid) (actor : Option User) (reason : String)
    (actorIp : Option String) : Tx Booking := do
  let booking ← lookup Store.bookingTable (.doesNotExist "Booking") booking
  if booking.status ≠ .pending then
    throw (.invalidStatusTransitionError ("Cannot reject booking " ++ toString booking.pk ++
      ": status is '" ++ booking.status.text ++ "', expected 'pending'."))
  write Store.bookingTable .ofViolation booking.pk (.reject now actor reason)
  let slot ← lookup Store.slotTable (.doesNotExist "Slot") booking.slot
  releaseSpace slot
  writeAuditLog booking.pk "rejected" actor booking.status.text BookingStatus.rejected.text
    [("slot_id", .str (toString booking.slot))] actorIp
  return booking.reject now actor reason

/-! ## Advancing -/

def confirmBooking (booking : Uuid) (actor : Option User) (actorIp : Option String) :
    Tx Booking := do
  let booking ← lookup Store.bookingTable (.doesNotExist "Booking") booking
  if booking.status ≠ .pending then
    throw (.invalidStatusTransitionError ("Cannot confirm booking " ++ toString booking.pk ++
      ": status is '" ++ booking.status.text ++ "', expected 'pending'."))
  write Store.bookingTable .ofViolation booking.pk fun row => { row with status := .confirmed }
  writeAuditLog booking.pk "confirmed" actor booking.status.text BookingStatus.confirmed.text []
    actorIp
  return { booking with status := .confirmed }

def countAttendance (seen : Store) (citizen : ℕ) : Tx Unit := do
  let record ← getOrCreateNoShowRecord seen citizen
  write Store.recordTable .ofViolation record.pk fun row =>
    { row with totalAppointments := record.totalAppointments + 1 }

def completeBooking (seen : Store) (booking : Uuid) (actor : Option User)
    (actorIp : Option String) : Tx Booking := do
  let booking ← lookup Store.bookingTable (.doesNotExist "Booking") booking
  if booking.status ≠ .confirmed then
    throw (.invalidStatusTransitionError ("Cannot complete booking " ++ toString booking.pk ++
      ": status is '" ++ booking.status.text ++ "', expected 'confirmed'."))
  write Store.bookingTable .ofViolation booking.pk fun row => { row with status := .completed }
  countAttendance seen booking.citizen
  writeAuditLog booking.pk "completed" actor booking.status.text BookingStatus.completed.text
    [("slot_id", .str (toString booking.slot))] actorIp
  return { booking with status := .completed }

namespace ClientNoShowRecord

def flag (record : ClientNoShowRecord) (actor : Option User) (now : Instant) : ClientNoShowRecord :=
  if record.isFlagged then record
  else { record with isFlagged := true, flaggedAt := some now, flaggedBy := actor.map (·.pk) }

/-- One more no-show under a policy. -/
def noShow (record : ClientNoShowRecord) (policy : SchedulingPolicy) (actor : Option User)
    (now : Instant) : ClientNoShowRecord :=
  let record := { record with
    noShowCount := record.noShowCount + 1
    totalAppointments := record.totalAppointments + 1
    lastNoShowAt := some now }
  if policy.noShowSuspensionThreshold ≤ record.noShowCount then
    { record with isSuspended := true }.flag actor now
  else if policy.noShowWarningThreshold ≤ record.noShowCount then record.flag actor now
  else record

end ClientNoShowRecord

/-- Save the columns that a no-show changes. -/
def saveNoShow (record : ClientNoShowRecord) : Tx Unit :=
  write Store.recordTable .ofViolation record.pk fun row =>
    { row with
      noShowCount := record.noShowCount
      totalAppointments := record.totalAppointments
      lastNoShowAt := record.lastNoShowAt
      isFlagged := record.isFlagged
      flaggedAt := record.flaggedAt
      flaggedBy := record.flaggedBy
      isSuspended := record.isSuspended }

def markNoShow (seen : Store) (now : Instant) (booking : Uuid) (actor : Option User)
    (actorIp : Option String) : Tx Booking := do
  let booking ← lookup Store.bookingTable (.doesNotExist "Booking") booking
  if booking.status ≠ .confirmed then
    throw (.invalidStatusTransitionError ("Cannot mark no-show for booking " ++
      toString booking.pk ++ ": status is '" ++ booking.status.text ++ "', expected 'confirmed'."))
  if booking.noShow then
    throw (.invalidStatusTransitionError ("Booking " ++ toString booking.pk ++
      " is already marked as no-show."))
  write Store.bookingTable .ofViolation booking.pk fun row => { row with noShow := true }
  let record ← getOrCreateNoShowRecord seen booking.citizen
  let slotRead ← found (.doesNotExist "Slot") (seen.slots.get booking.slot)
  let appointmentType ← appointmentTypeOf seen slotRead
  let policy := seen.catalog.resolvePolicy appointmentType slotRead.location
  let record := record.noShow policy actor now
  saveNoShow record
  writeAuditLog booking.pk "no_show_marked" actor BookingStatus.confirmed.text
    BookingStatus.confirmed.text
    [("no_show_count", .int record.noShowCount), ("is_flagged", .bool record.isFlagged),
      ("is_suspended", .bool record.isSuspended), ("slot_id", .str (toString booking.slot))] actorIp
  return { booking with noShow := true }

/-! ## Rescheduling -/

/-- What `reschedule_booking` checks of the booking. -/
def checkReschedulable (seen : Store) (now : Instant) (booking : Booking) (newSlot : Uuid) :
    Tx Unit := do
  if booking.status ≠ .confirmed then
    throw (.invalidStatusTransitionError ("Cannot reschedule booking " ++ toString booking.pk ++
      ": status is '" ++ booking.status.text ++ "', expected 'confirmed'."))
  if booking.noShow then
    throw (.invalidStatusTransitionError ("Cannot reschedule booking " ++ toString booking.pk ++
      ": booking is marked as a no-show."))
  let oldSlotRead ← found (.doesNotExist "Slot") (seen.slots.get booking.slot)
  let newSlotRead ← found (.doesNotExist "Slot") (seen.slots.get newSlot)
  let appointmentType ← appointmentTypeOf seen oldSlotRead
  let policy := seen.catalog.resolvePolicy appointmentType newSlotRead.location
  if policy.maxRescheduleCount ≤ booking.rescheduleCount then
    throw (.rescheduleCountError ("Booking " ++ toString booking.pk ++
      " has reached the maximum reschedule count (" ++ toString policy.maxRescheduleCount ++ ")."))
  if oldSlotRead.startDatetime ≤ now + hours policy.rescheduleNoticeHours then
    throw (.rescheduleWindowError ("Cannot reschedule: within " ++
      toString policy.rescheduleNoticeHours ++ "h of appointment start."))

/-- Both slots stay locked; when they are one row, the space given up is the one taken. -/
def rescheduleBooking (seen : Store) (now : Instant) (booking newSlot : Uuid) (actor : Option User)
    (reason : String) (actorIp : Option String) : Tx Booking := do
  let booking ← lookup Store.bookingTable (.doesNotExist "Booking") booking
  checkReschedulable seen now booking newSlot
  let oldSlot ← lookup Store.slotTable (.doesNotExist "Slot") booking.slot
  let newSlotLocked ← lookup Store.slotTable (.doesNotExist "Slot") newSlot
  if !newSlotLocked.isOpen || newSlotLocked.capacity ≤ newSlotLocked.spacesUsed then
    throw (.slotFullError ("New slot " ++ toString newSlotLocked.pk ++
      " is full — cannot reschedule."))
  write Store.bookingTable .ofViolation booking.pk (.replace now actor reason)
  releaseSpace oldSlot
  let newBooking ← create Store.bookingTable .ofViolation fun pk =>
    { pk
      slot := newSlotLocked.pk
      citizen := booking.citizen
      status := .confirmed
      intake := booking.intake
      rescheduledFrom := some booking.pk
      rescheduleCount := booking.rescheduleCount + 1
      createdAt := now }
  let newSlotLocked ← lookup Store.slotTable (.doesNotExist "Slot") newSlot
  updateSlotStatus { newSlotLocked with spacesUsed := newSlotLocked.spacesUsed + 1 }
  writeAuditLog booking.pk "rescheduled" actor booking.status.text BookingStatus.cancelled.text
    [("new_booking_id", .str (toString newBooking.pk)),
      ("new_slot_id", .str (toString newSlotLocked.pk))] actorIp
  writeAuditLog newBooking.pk "created" actor "" BookingStatus.confirmed.text
    [("rescheduled_from", .str (toString booking.pk)),
      ("old_slot_id", .str (toString booking.slot)),
      ("reschedule_count", .int newBooking.rescheduleCount)] actorIp
  return newBooking

end Civicos.Appointments
