import Civicos.Appointments.BookingService

/-!
# Slots and events

How administrators and the event interface change slots that exist. Event identifiers are
well-formed UUIDs and the datetimes of an event are parsed.
-/
namespace Civicos.Appointments

open Library Library.Transaction
open Payments (Uuid strip lower)

/-- Python's `int` on a string: a sign, and digits with single underscores between them. -/
def parseInt (value : String) : Option ℤ :=
  let text := (strip value).toList
  let digits := if text.head? = some '+' ∨ text.head? = some '-' then text.tail else text
  let sign : ℤ := if text.head? = some '-' then -1 else 1
  if (digits.splitOn '_').all fun part => part ≠ [] ∧ part.all Char.isDigit then
    some (sign * Nat.ofDigitChars 10 (digits.filter (· ≠ '_')) 0)
  else none

namespace SlotStatus

def text : SlotStatus → String
  | available => "available"
  | partiallyBooked => "partial"
  | full => "full"
  | blocked => "blocked"
  | cancelled => "cancelled"
  | completed => "completed"

def ofText (s : String) : Option SlotStatus :=
  [available, partiallyBooked, full, blocked, cancelled, completed].find? (·.text = s)

end SlotStatus

/-! ## Administrators -/

def hasBookingsError (slot : Slot) (count : ℕ) (advice : String) : AppointmentError :=
  .slotHasBookingsError ("Slot " ++ toString slot.pk ++ " has " ++ toString count ++
    " active booking(s). " ++ advice)

def activeBookingCount (s : Store) (slot : Uuid) : ℕ :=
  (s.bookingsOf slot).countP (·.status.isActive)

/-- The note of a slot with a reason behind a tag. -/
def noted (note tag reason : String) : String :=
  if reason = "" then note
  else if note = "" then tag ++ " " ++ reason
  else strip (note ++ "\n" ++ tag ++ " " ++ reason)

def blockSlot (slot : Uuid) (reason : String) : Tx Slot := do
  let slot ← lookup Store.slotTable (.doesNotExist "Slot") slot
  if slot.status ∈ [SlotStatus.completed, .cancelled] then
    throw (.valueError ("Cannot block slot " ++ toString slot.pk ++
      ": slot is already in terminal state '" ++ slot.status.text ++
      "'. Completed and cancelled slots are immutable for audit integrity."))
  if slot.status = .blocked then return slot
  let count := activeBookingCount (← get) slot.pk
  if 0 < count then
    throw (hasBookingsError slot count "Cancel them before blocking the slot.")
  let block (row : Slot) : Slot :=
    { row with
      status := .blocked
      internalNote := noted slot.internalNote "[BLOCKED]" reason }
  write Store.slotTable .ofViolation slot.pk block
  modify fun s => { s with adminBlocked := slot.pk :: s.adminBlocked }
  return block slot

/-- The slot is no longer one that `block_slot` has closed. -/
def forgetBlock (slot : Uuid) : Tx Unit :=
  modify fun s => { s with adminBlocked := s.adminBlocked.filter (· ≠ slot) }

def cancelSlot (slot : Uuid) (reason : String) : Tx Slot := do
  let slot ← lookup Store.slotTable (.doesNotExist "Slot") slot
  if slot.status = .completed then
    throw (.valueError ("Cannot cancel slot " ++ toString slot.pk ++
      ": slot is already completed. Completed slots are immutable for audit integrity."))
  if slot.status = .cancelled then return slot
  let count := activeBookingCount (← get) slot.pk
  if 0 < count then
    throw (hasBookingsError slot count
      "Cancel the bookings via the booking service before cancelling the slot.")
  let cancel (row : Slot) : Slot :=
    { row with
      status := .cancelled
      internalNote := noted slot.internalNote "[CANCELLED]" reason }
  write Store.slotTable .ofViolation slot.pk cancel
  forgetBlock slot.pk
  return cancel slot

def isPast (now : Instant) (slot : Slot) : Bool :=
  slot.endDatetime < now ∧ slot.status ∈ [SlotStatus.available, .partiallyBooked, .full]

def completeSlots : List Slot → Tx Unit
  | [] => return
  | slot :: rest => do
    write Store.slotTable .ofViolation slot.pk fun row => { row with status := .completed }
    completeSlots rest

def markPastSlotsCompleted (now : Instant) : Tx ℕ := do
  let past := (← get).slots.rows.filter (isPast now)
  completeSlots past
  return past.length

/-! ## Events -/

/-- `_map_status` -/
def mapStatus (raw : String) : Except AppointmentError SlotStatus :=
  if raw = "" then .ok .available
  else if lower (strip raw) = "open" then .ok .available
  else match SlotStatus.ofText (lower (strip raw)) with
    | some status => .ok status
    | none => .error (.valueError ("Invalid status value '" ++ raw ++ "'. Must be one of: " ++
        "available, blocked, cancelled, completed, full, partial, or 'open'."))

/-- `_clamp_capacity` -/
def clampCapacity (raw : String) : Except AppointmentError ℕ :=
  if strip raw = "" then .ok 1
  else match parseInt raw with
    | some value => .ok (max 1 (min 100 value)).toNat
    | none => .error (.valueError ("subscriber_limit must be an integer, got '" ++ raw ++ "'."))

/-- `_compute_duration`, of an end after its start. -/
def computeDuration (start finish : Instant) : ℕ :=
  (max 5 (min 480 ((finish - start) / 60000000))).toNat

/-- The changes that an `event_modify` asks for, `none` for what it leaves alone. `location` and
`category` are what the service resolves the venue and the category to. -/
structure EventChanges where
  status : Option String := none
  fromDt : Option Instant := none
  toDt : Option Instant := none
  subscriberLimit : Option String := none
  category : Option (String × ℕ) := none
  location : Option ℕ := none
deriving DecidableEq

namespace EventChanges

def onSlot (changes : EventChanges) (status : Option SlotStatus) (capacity : Option ℕ)
    (slot : Slot) : Slot :=
  { slot with
    status := status.getD slot.status
    startDatetime := changes.fromDt.getD slot.startDatetime
    effectiveStart := changes.fromDt.getD slot.effectiveStart
    endDatetime := changes.toDt.getD slot.endDatetime
    effectiveEnd := changes.toDt.getD slot.effectiveEnd
    capacity := capacity.getD slot.capacity
    location := changes.location.getD slot.location }

/-- `slot` is the changed one. -/
def onAppointmentType (changes : EventChanges) (capacity : Option ℕ) (slot : Slot)
    (appointmentType : AppointmentType) : AppointmentType :=
  { appointmentType with
    durationMinutes :=
      if (changes.fromDt.isSome ∨ changes.toDt.isSome) ∧ slot.startDatetime < slot.endDatetime then
        computeDuration slot.startDatetime slot.endDatetime
      else appointmentType.durationMinutes
    capacityPerSlot := capacity.getD appointmentType.capacityPerSlot
    mode := (changes.category.map (·.1)).getD appointmentType.mode
    serviceType := (changes.category.map (·.2)).getD appointmentType.serviceType }

end EventChanges

/-- A parsed field of a request that may be absent. -/
def parseField {α : Type} (parse : String → Except AppointmentError α) :
    Option String → Except AppointmentError (Option α)
  | none => .ok none
  | some raw => (parse raw).map some

def eventModify (event : Uuid) (changes : EventChanges) : Tx Slot := do
  let slot ← lookup Store.slotTable (.doesNotExist "Slot") event
  let status ← parseField mapStatus changes.status
  let capacity ← parseField clampCapacity changes.subscriberLimit
  let changed := changes.onSlot status capacity slot
  modify fun s => { s with catalog := { s.catalog with
    appointmentTypes := s.catalog.appointmentTypes.map fun a =>
      if a.pk = slot.appointmentType then changes.onAppointmentType capacity changed a else a } }
  write Store.slotTable .ofViolation slot.pk (changes.onSlot status capacity)
  if status.isSome then forgetBlock slot.pk
  return changed

def eventDelete (event : Uuid) : Tx Unit := do
  let slot ← lookup Store.slotTable (.doesNotExist "Slot") event
  write Store.slotTable .ofViolation slot.pk fun row => { row with status := .cancelled }
  forgetBlock slot.pk

end Civicos.Appointments
