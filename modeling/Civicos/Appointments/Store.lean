import Civicos.Payments.Values

/-!
# Appointments: rows

Slots, bookings, their audit log and the no-show records, with the configuration that the booking
service reads. Instants are whole microseconds.
-/
namespace Civicos.Appointments

open Library Library.Transaction
open Payments (Uuid Json Value)

abbrev Instant := ℤ

def minutes (n : ℕ) : Instant := n * 60000000

def hours (n : ℕ) : Instant := n * 3600000000

def days (n : ℕ) : Instant := n * 86400000000

/-! ## Configuration -/

structure SchedulingPolicy where
  minLeadTimeHours : ℕ := 1
  maxAdvanceDays : ℕ := 180
  slotIntervalMinutes : ℕ := 15
  bufferBeforeMinutes : ℕ := 0
  bufferAfterMinutes : ℕ := 5
  cancellationNoticeHours : ℕ := 24
  rescheduleNoticeHours : ℕ := 24
  maxRescheduleCount : ℕ := 3
  maxActiveBookingsPerCitizen : ℕ := 3
  bookingFrequencyDays : ℕ := 0
  noShowWarningThreshold : ℕ := 1
  noShowSuspensionThreshold : ℕ := 3
deriving DecidableEq, Repr

structure AppointmentType where
  pk : ℕ
  slug : String
  serviceType : ℕ
  durationMinutes : ℕ := 30
  mode : String := "in_person"
  capacityPerSlot : ℕ := 1
  schedulingPolicy : Option SchedulingPolicy := none
  requiresStaffConfirmation : Bool := true
  nonPunitiveNoShow : Bool := false
deriving DecidableEq, Repr

structure Location where
  pk : ℕ
  organization : ℕ
  schedulingPolicy : Option SchedulingPolicy := none
deriving DecidableEq, Repr

structure User where
  pk : ℕ
  isStaff : Bool := false
  isActive : Bool := true
deriving DecidableEq, Repr

/-- What administrators set up; `settings` holds `CIVICOS["APPOINTMENTS"]`. -/
structure Catalog where
  appointmentTypes : List AppointmentType := []
  locations : List Location := []
  organizations : List ℕ := []
  users : List User := []
  govstackOrganizer : User := ⟨0, true, true⟩
  settings : SchedulingPolicy := { bufferAfterMinutes := 0 }
  pendingBookingTimeoutMinutes : ℕ := 30
deriving DecidableEq

namespace Catalog

def appointmentType (c : Catalog) (pk : ℕ) : Option AppointmentType :=
  c.appointmentTypes.find? (·.pk = pk)

def location (c : Catalog) (pk : ℕ) : Option Location := c.locations.find? (·.pk = pk)

/-- The policy of the appointment type, else of the location, else the settings. -/
def resolvePolicy (c : Catalog) (appointmentType : AppointmentType) (location : ℕ) :
    SchedulingPolicy :=
  match appointmentType.schedulingPolicy with
  | some policy => policy
  | none => ((c.location location).bind (·.schedulingPolicy)).getD c.settings

end Catalog

/-! ## Slots -/

/-- `partiallyBooked` is stored as "partial". -/
inductive SlotStatus where
  | available
  | partiallyBooked
  | full
  | blocked
  | cancelled
  | completed
deriving DecidableEq, Repr

structure Slot where
  pk : Uuid
  appointmentType : ℕ
  staff : ℕ
  location : ℕ
  startDatetime : Instant
  endDatetime : Instant
  effectiveStart : Instant
  effectiveEnd : Instant
  capacity : ℕ := 1
  spacesUsed : ℕ := 0
  status : SlotStatus := .available
  internalNote : String := ""
deriving DecidableEq, Repr

/-- A condition of a `CheckConstraint`. -/
def condition {α : Type} (name : String) (holds : α → Bool) : Check α := ⟨.check name, holds⟩

namespace Slot

def schema : Schema Slot where
  pk := pk
  checks := [
    condition "appt_slot_end_after_start" fun s => s.startDatetime < s.endDatetime,
    condition "appt_slot_spaces_lte_capacity" fun s => s.spacesUsed ≤ s.capacity,
    condition "appt_slot_eff_start_lte_start" fun s => s.effectiveStart ≤ s.startDatetime,
    condition "appt_slot_eff_end_gte_end" fun s => s.endDatetime ≤ s.effectiveEnd,
    condition "appt_slot_capacity_gte_1" fun s => 1 ≤ s.capacity]

/-- The statuses in which a slot takes bookings. -/
def isOpen (s : Slot) : Bool := s.status ∈ [SlotStatus.available, .partiallyBooked]

end Slot

/-! ## Bookings -/

inductive BookingStatus where
  | pending
  | confirmed
  | rejected
  | cancelled
  | completed
deriving DecidableEq, Repr

namespace BookingStatus

def text : BookingStatus → String
  | pending => "pending"
  | confirmed => "confirmed"
  | rejected => "rejected"
  | cancelled => "cancelled"
  | completed => "completed"

/-- `Booking.is_active` -/
def isActive (s : BookingStatus) : Bool := s ∈ [pending, confirmed]

/-- The statuses in which a booking occupies a space of its slot. -/
def holdsSpace (s : BookingStatus) : Bool := s ∈ [pending, confirmed, completed]

end BookingStatus

/-- The answers given with a booking, which a rescheduled booking takes over. -/
structure Intake where
  appointmentMode : String := "in_person"
  formResponses : Json := []
  bookingChannel : String := "online"
  language : String := "en"
  interpreterNeeded : Bool := false
  interpreterLanguage : String := ""
  accessibilityNeeds : String := ""
  consentRecordedAt : Option Instant := none
  consentVersion : String := ""
deriving DecidableEq

structure Booking where
  pk : Uuid
  slot : Uuid
  citizen : ℕ
  status : BookingStatus := .pending
  noShow : Bool := false
  rescheduled : Bool := false
  rescheduledFrom : Option Uuid := none
  rescheduleCount : ℕ := 0
  cancelledAt : Option Instant := none
  cancelledBy : Option ℕ := none
  cancellationReason : String := ""
  lateCancellation : Bool := false
  intake : Intake := {}
  govstackExclusive : Bool := false
  govstackParticipantEntityId : String := ""
  createdAt : Instant
deriving DecidableEq

namespace Booking

def schema : Schema Booking where
  pk := pk
  checks := [
    .width "booking_channel" 20 (·.intake.bookingChannel),
    .width "language" 5 (·.intake.language),
    .width "appointment_mode" 20 (·.intake.appointmentMode),
    .width "interpreter_language" 50 (·.intake.interpreterLanguage),
    .width "consent_version" 20 (·.intake.consentVersion),
    .width "govstack_participant_entity_id" 32 govstackParticipantEntityId]

end Booking

structure BookingAuditLog where
  pk : Uuid
  booking : Option Uuid
  action : String
  actorId : String
  actorIp : Option String := none
  previousStatus : String := ""
  newStatus : String := ""
  detail : Json := []
  actorRole : String
deriving DecidableEq

def BookingAuditLog.schema : Schema BookingAuditLog where
  pk := pk
  checks := [
    .width "action" 30 action,
    .width "actor_id" 50 actorId,
    .width "previous_status" 20 previousStatus,
    .width "new_status" 20 newStatus,
    .width "actor_role" 30 actorRole]

structure ClientNoShowRecord where
  pk : Uuid
  citizen : ℕ
  noShowCount : ℕ := 0
  lateCancellationCount : ℕ := 0
  totalAppointments : ℕ := 0
  lastNoShowAt : Option Instant := none
  isFlagged : Bool := false
  flaggedAt : Option Instant := none
  flaggedBy : Option ℕ := none
  isSuspended : Bool := false
deriving DecidableEq

namespace ClientNoShowRecord

def uniqueCitizen : Index ClientNoShowRecord where
  name := "citizen_id"
  Key := ℕ
  key r := some r.citizen

def schema : Schema ClientNoShowRecord where
  pk := pk
  indexes := [uniqueCitizen]

end ClientNoShowRecord

/-! ## The store -/

/-- `clock` is the last reading of the clock. `adminBlocked` and `clipped` are not columns: they
record which slots `block_slot` has closed, and how often a count was cut off at zero. -/
structure Store where
  catalog : Catalog := {}
  slots : Table Slot.schema := .empty
  bookings : Table Booking.schema := .empty
  auditLog : Table BookingAuditLog.schema := .empty
  noShowRecords : Table ClientNoShowRecord.schema := .empty
  clock : Instant := 0
  adminBlocked : List Uuid := []
  clipped : ℕ := 0
deriving DecidableEq

/-- The exceptions of the booking services, with their messages. -/
inductive AppointmentError where
  | slotFullError (message : String)
  | citizenSuspendedError (message : String)
  | frequencyWindowError (message : String)
  | maxActiveBookingsError (message : String)
  | rescheduleCountError (message : String)
  | rescheduleWindowError (message : String)
  | invalidStatusTransitionError (message : String)
  | slotHasBookingsError (message : String)
  | appointmentOwnershipError (message : String)
  | logDataParseError (message : String)
  | logEntityMismatchError (message : String)
  | valueError (message : String)
  | validationError (message : String)
  | attributeError (message : String)
  | doesNotExist (model : String)
  | multipleObjectsReturned (model : String)
  | integrityError (constraint : String)
  | dataError (column : String)
deriving DecidableEq, Repr

def AppointmentError.ofViolation : Violation → AppointmentError
  | .unique index => integrityError index
  | .check name => integrityError name
  | .width column => dataError column

abbrev Tx := Transaction AppointmentError Store

namespace Store

def slotTable : Lens Store (Table Slot.schema) where
  get s := s.slots
  set t s := { s with slots := t }
  get_set _ _ := rfl
  set_get _ := rfl
  set_set _ _ _ := rfl

def bookingTable : Lens Store (Table Booking.schema) where
  get s := s.bookings
  set t s := { s with bookings := t }
  get_set _ _ := rfl
  set_get _ := rfl
  set_set _ _ _ := rfl

def auditTable : Lens Store (Table BookingAuditLog.schema) where
  get s := s.auditLog
  set t s := { s with auditLog := t }
  get_set _ _ := rfl
  set_get _ := rfl
  set_set _ _ _ := rfl

def recordTable : Lens Store (Table ClientNoShowRecord.schema) where
  get s := s.noShowRecords
  set t s := { s with noShowRecords := t }
  get_set _ _ := rfl
  set_get _ := rfl
  set_set _ _ _ := rfl

def bookingsOf (s : Store) (slot : Uuid) : List Booking := s.bookings.rows.filter (·.slot = slot)

def recordOf (s : Store) (citizen : ℕ) : Option ClientNoShowRecord :=
  s.noShowRecords.rows.find? (·.citizen = citizen)

end Store

end Civicos.Appointments
