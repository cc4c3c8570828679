import Civicos.Appointments.SlotService

/-!
# The GovStack appointment and log interface

An adapter over the booking lifecycle. An exclusive booking blocks its slot.
-/
namespace Civicos.Appointments

open Library Library.Transaction
open Payments (Uuid strip lower)

/-! ## Validation -/

/-- `_resolve_subscriber` -/
def resolveSubscriber (seen : Store) (participantType participantId : String) : Tx User := do
  let normalised := strip participantType
  if normalised ≠ "" ∧ normalised ≠ "subscriber" then
    throw (.valueError ("participant_type must be 'subscriber' — no other participant types " ++
      "are supported for appointment booking."))
  if strip participantId = "" then throw (.valueError "participant_id is required.")
  let userPk ← found (.valueError "participant_id must be an integer User primary key.")
    (parseInt participantId)
  found (.doesNotExist "User")
    (seen.catalog.users.find? fun u => (u.pk : ℤ) = userPk ∧ !u.isStaff ∧ u.isActive)

/-- `_validate_participant_entity_id` -/
def validateParticipantEntityId (seen : Store) (participantEntityId : String) : Tx String := do
  let raw := strip participantEntityId
  if raw = "" then return ""
  let orgPk ← found
    (.valueError "participant_entity_id must be an integer Organization primary key.")
      (parseInt raw)
  if ¬ seen.catalog.organizations.any (fun pk => (pk : ℤ) = orgPk) then
    throw (.valueError "participant_entity_id does not reference a known entity.")
  return raw

/-- `_derive_appointment_mode` -/
def deriveAppointmentMode (appointmentType : AppointmentType) : String :=
  if appointmentType.mode = "hybrid" then "in_person" else appointmentType.mode

/-! ## The exclusive flag -/

/-- `_lock_slot` -/
def lockSlot (slot : Uuid) : Tx Unit := do
  let slot ← lookup Store.slotTable (.doesNotExist "Slot") slot
  write Store.slotTable .ofViolation slot.pk fun row => { row with status := .blocked }

/-- `_unlock_slot` -/
def unlockSlot (slot : Uuid) : Tx Unit := do
  let slot ← lookup Store.slotTable (.doesNotExist "Slot") slot
  write Store.slotTable .ofViolation slot.pk fun row =>
    { row with status := occupancy slot.spacesUsed slot.capacity }

/-- Save the GovStack columns of a booking. -/
def saveGovStack (booking : Uuid) (exclusive : Option Bool) (participantEntityId : Option String) :
    Tx Unit :=
  write Store.bookingTable .ofViolation booking fun row =>
    { row with
      govstackExclusive := exclusive.getD row.govstackExclusive
      govstackParticipantEntityId := participantEntityId.getD row.govstackParticipantEntityId }

/-! ## Appointments -/

/-- `str` of a UUID sorts as the UUID does. -/
def sortedEventIds (eventIds : List Uuid) : List Uuid := eventIds.mergeSort (· ≤ ·)

/-- The loop that books one event after the other. -/
def bookEvents (seen : Store) (now : Instant) (citizen : User) :
    List Uuid → List Booking → Tx (List Booking)
  | [], created => return created
  | event :: rest, created => do
    let slot ← found (.doesNotExist "Slot") (seen.slots.get event)
    let appointmentType ← appointmentTypeOf seen slot
    let booking ← createBooking seen created now slot.pk citizen.pk
      { appointmentMode := deriveAppointmentMode appointmentType, bookingChannel := "api" }
      (some citizen) none
    bookEvents seen now citizen rest (created ++ [booking])

/-- The loop that writes the GovStack columns and blocks the slots. -/
def tagBookings (exclusive : Bool) (entityId : String) : List Booking → Tx Unit
  | [] => return
  | booking :: rest => do
    saveGovStack booking.pk (some exclusive) (some entityId)
    if exclusive then lockSlot booking.slot
    tagBookings exclusive entityId rest

structure AppointmentCreation where
  eventIds : List Uuid
  participantType : String := ""
  participantId : String := ""
  participantEntityId : String := ""
  exclusive : Bool := false
  callerCitizenId : Option ℕ := none
deriving DecidableEq

def appointmentCreate (seen : Store) (now : Instant) (r : AppointmentCreation) :
    Tx (List Booking) := do
  if r.eventIds = [] then throw (.valueError "At least one event_id is required.")
  let participantId := match r.callerCitizenId with
    | some caller => if r.participantId = "" then toString caller else r.participantId
    | none => r.participantId
  let citizen ← resolveSubscriber seen r.participantType participantId
  if r.callerCitizenId.any (· ≠ citizen.pk) then
    throw (.appointmentOwnershipError
      "Caller may not create an appointment for a different citizen.")
  let entityId ← validateParticipantEntityId seen r.participantEntityId
  let created ← bookEvents seen now citizen (sortedEventIds r.eventIds) []
  tagBookings r.exclusive entityId created
  return created

structure AppointmentModification where
  appointmentId : Uuid
  eventId : Option Uuid := none
  statusId : String := ""
  exclusive : Option Bool := none
  participantEntityId : Option String := none
deriving DecidableEq

/-- The transitions that `appointment_modify` maps a `status_id` to. -/
inductive StatusTransition where
  | confirmed
  | rejected
  | cancelled
  | completed
deriving DecidableEq, Repr

/-- `none` for a blank status. -/
def statusTransition (statusId : String) : Except AppointmentError (Option StatusTransition) :=
  match lower (strip statusId) with
  | "" => .ok none
  | "confirmed" => .ok (some .confirmed)
  | "rejected" => .ok (some .rejected)
  | "cancelled" => .ok (some .cancelled)
  | "completed" => .ok (some .completed)
  | _ => .error (.valueError ("Unsupported status_id. Must be one of: " ++
      "cancelled, completed, confirmed, rejected, or blank."))

def userOf (seen : Store) (pk : ℕ) : Tx User :=
  found (.doesNotExist "User") (seen.catalog.users.find? (·.pk = pk))

/-- Move to the new event, with the GovStack columns of the booking that was read. -/
def moveTo (seen : Store) (now : Instant) (booking : Booking) (event : Uuid) : Tx Booking := do
  let newSlot ← found (.doesNotExist "Slot") (seen.slots.get event)
  let citizen ← userOf seen booking.citizen
  let newBooking ← rescheduleBooking seen now booking.pk newSlot.pk (some citizen) "" none
  saveGovStack newBooking.pk (some booking.govstackExclusive)
    (some booking.govstackParticipantEntityId)
  if booking.govstackExclusive then
    lockSlot newBooking.slot
    saveGovStack booking.pk (some false) none
  return { newBooking with
    govstackExclusive := booking.govstackExclusive
    govstackParticipantEntityId := booking.govstackParticipantEntityId }

/-- Step 1: the event, if another one is asked for. -/
def moveAppointment (seen : Store) (now : Instant) (booking : Booking) : Option Uuid → Tx Booking
  | none => return booking
  | some event => if event = booking.slot then return booking else moveTo seen now booking event

/-- Step 2: the transition, on whichever booking is current. -/
def transition (seen : Store) (now : Instant) (booking : Booking) :
    Option StatusTransition → Tx Booking
  | none => return booking
  | some .confirmed => confirmBooking booking.pk (some seen.catalog.govstackOrganizer) none
  | some .rejected => rejectBooking now booking.pk (some seen.catalog.govstackOrganizer) "" none
  | some .cancelled => do
    let citizen ← userOf seen booking.citizen
    cancelBooking seen now booking.pk (some citizen) "" none
  | some .completed => completeBooking seen booking.pk none none

/-- Step 3: the exclusive flag. A booking that this call has ended does not block its slot. -/
def toggleExclusive (booking : Booking) : Option Bool → Tx Unit
  | none => return
  | some exclusive => do
    saveGovStack booking.pk (some exclusive) none
    if exclusive then
      if booking.status.isActive then lockSlot booking.slot
    else unlockSlot booking.slot

/-- `None` means that no entity was supplied. -/
def entityIdToSet (seen : Store) : Option String → Tx (Option String)
  | none => return none
  | some raw => do
    let entityId ← validateParticipantEntityId seen raw
    return some entityId

/-- Step 4: the entity. -/
def saveEntityId (booking : Booking) : Option String → Tx Unit
  | none => return
  | some entityId => saveGovStack booking.pk none (some entityId)

def appointmentModify (seen : Store) (now : Instant) (r : AppointmentModification) :
    Tx Booking := do
  let status ← statusTransition r.statusId
  let entityId ← entityIdToSet seen r.participantEntityId
  let read ← found (.doesNotExist "Booking") (seen.bookings.get r.appointmentId)
  let moved ← moveAppointment seen now read r.eventId
  let booking ← transition seen now moved status
  toggleExclusive booking r.exclusive
  saveEntityId booking entityId
  return { booking with
    govstackExclusive := r.exclusive.getD booking.govstackExclusive
    govstackParticipantEntityId := entityId.getD booking.govstackParticipantEntityId }

def appointmentDelete (seen : Store) (now : Instant) (appointmentId : Uuid)
    (callerCitizenId : Option ℕ) : Tx Booking := do
  let booking ← found (.doesNotExist "Booking") (seen.bookings.get appointmentId)
  if callerCitizenId.any (· ≠ booking.citizen) then
    throw (.appointmentOwnershipError "Caller does not own this appointment.")
  let citizen ← userOf seen booking.citizen
  cancelBooking seen now booking.pk (some citizen) "" none

/-! ## Log entries -/

structure LogDetails where
  loggerRole : String
  loggerId : String := ""
  logCategory : String
  logData : String
  entityId : String := ""
deriving DecidableEq

/-- The value behind the last `key:` among the comma-separated pairs. -/
def logReference (key logData : String) : String :=
  let pairs := ((logData.toList.splitOn ',').map fun pair => strip (String.ofList pair)).filter
    fun pair => ':' ∈ pair.toList
  let named := pairs.filter fun pair =>
    strip (String.ofList (pair.toList.takeWhile (· ≠ ':'))) = key
  match named.getLast? with
  | some pair => strip (String.ofList ((pair.toList.dropWhile (· ≠ ':')).drop 1))
  | none => ""

/-- `_parse_log_data_refs` -/
def parseLogDataRefs (logData : String) : Except AppointmentError (String × String) :=
  let eventId := logReference "event_id" logData
  let subscriberId := logReference "subscriber_id" logData
  if strip logData = "" ∨ eventId = "" ∨ subscriberId = "" then
    .error (.logDataParseError ("log_data must include event_id and subscriber_id key:value " ++
      "pairs identifying the target booking."))
  else .ok (eventId, subscriberId)

/-- The row that a `get` finds. -/
def theOnly : List Booking → Tx Booking
  | [] => throw (.doesNotExist "Booking")
  | [booking] => return booking
  | _ => throw (.multipleObjectsReturned "Booking")

/-- `_resolve_booking`; an event that does not exist has no bookings. -/
def resolveBooking (seen : Store) (eventId subscriberId : String) : Tx Booking := do
  let citizen ← found
    (.valueError "subscriber_id parsed from log_data must be an integer User primary key.")
    (parseInt subscriberId)
  let slot ← found (.validationError "is not a valid UUID.") eventId.toNat?
  theOnly (seen.bookings.rows.filter fun b => b.slot = slot ∧ (b.citizen : ℤ) = citizen)

def organizationOf (seen : Store) (booking : Booking) : Option ℕ :=
  ((seen.slots.get booking.slot).bind fun slot => seen.catalog.location slot.location).map
    (·.organization)

def logCreate (seen : Store) (r : LogDetails) : Tx BookingAuditLog := do
  if r.loggerRole ∉ ["admin", "organizer", "resource", "subscriber", "system"] then
    throw (.valueError ("Invalid logger_role '" ++ r.loggerRole ++ "'. Must be one of: " ++
      "['admin', 'organizer', 'resource', 'subscriber', 'system']."))
  if strip r.logCategory = "" then throw (.valueError "log_category is required.")
  let (eventId, subscriberId) ← parseLogDataRefs r.logData
  let booking ← resolveBooking seen eventId subscriberId
  if r.entityId ≠ "" ∧ !(parseInt r.entityId).any fun pk =>
      (organizationOf seen booking).any fun organization => (organization : ℤ) = pk then
    throw (.logEntityMismatchError
      "entity_id does not match the resolved booking's organization.")
  create Store.auditTable .ofViolation fun pk =>
    { pk
      booking := some booking.pk
      action := r.logCategory
      actorId := r.loggerId
      detail := [("log_data", .str r.logData)]
      actorRole := r.loggerRole }

end Civicos.Appointments
