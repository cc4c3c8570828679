import Civicos.Appointments.BookingService
import Civicos.Library.Scan

/-!
# Availability

The windows of a staff member are walked with the interval of the policy, date by date. Candidates
whose effective interval overlaps a stored slot that is open, booked or blocked are left out.
-/
namespace Civicos.Appointments

open Library
open Payments (Uuid)

/-! ## Agendas -/

/-- `date.isoweekday()`, where a date is its proleptic Gregorian ordinal -/
def isoWeekday (date : ℤ) : ℕ := ((date + 6) % 7).toNat + 1

/-- The instant at which the clocks show a minute of a date. Offsets change, but by at most a day
from one midnight to the next. -/
structure TimeZone where
  utc : ℤ → ℕ → Instant
  midnight_le : ∀ {d e : ℤ}, d ≤ e → utc d 0 ≤ utc e 0

/-- A zone whose offset never changes -/
def TimeZone.fixed (offset : Instant) : TimeZone where
  utc date minute := date * days 1 + minutes minute - offset
  midnight_le h :=
    Int.sub_le_sub_right (Int.add_le_add_right (Int.mul_le_mul_of_nonneg_right h (by decide)) _) _

structure StaffProfile where
  pk : ℕ
  location : Option ℕ
  appointmentTypes : List ℕ
  isAcceptingBookings : Bool := true
  maxDailyAppointments : Option ℕ := none
deriving DecidableEq, Repr

/-- Times are minutes of the day. -/
structure AvailabilityTemplate where
  staff : ℕ
  dayOfWeek : ℕ
  startTime : ℕ
  endTime : ℕ
  validFrom : ℤ
  validUntil : Option ℤ := none
deriving DecidableEq, Repr

def AvailabilityTemplate.isActiveOn (t : AvailabilityTemplate) (date : ℤ) : Bool :=
  t.validFrom ≤ date ∧ ∀ last ∈ t.validUntil, date ≤ last

inductive ExceptionType where
  | holiday
  | leave
  | override
  | training
deriving DecidableEq, Repr

structure StaffException where
  pk : ℕ
  staff : ℕ
  exceptionDate : ℤ
  exceptionType : ExceptionType
  overrideStartTime : Option ℕ := none
  overrideEndTime : Option ℕ := none
deriving DecidableEq, Repr

/-- What is set up about the staff -/
structure Agenda where
  staffProfiles : List StaffProfile := []
  templates : List AvailabilityTemplate := []
  exceptions : List StaffException := []
deriving DecidableEq, Repr

namespace Agenda

/-- `order_by("-pk").first()` -/
def exceptionOn (a : Agenda) (staff : ℕ) (date : ℤ) : Option StaffException :=
  ((a.exceptions.filter fun e => e.staff = staff ∧ e.exceptionDate = date).mergeSort
    fun d e => e.pk ≤ d.pk).head?

/-- The windows of a date, in local time -/
def availWindows (a : Agenda) (staff : ℕ) (date : ℤ) : List (ℕ × ℕ) :=
  let templates := a.templates.filter fun t =>
    t.staff = staff ∧ t.dayOfWeek = isoWeekday date ∧ t.isActiveOn date
  if templates = [] then
    []
  else
    match a.exceptionOn staff date with
    | none => templates.map fun t => (t.startTime, t.endTime)
    | some e =>
      match e.exceptionType, e.overrideStartTime, e.overrideEndTime with
      | .override, some start, some finish => [(start, finish)]
      | _, _, _ => []

end Agenda

/-! ## Schedules -/

/-- What the service has read about a staff member before its first date; `zone` is the time zone of
the location. -/
structure Schedule where
  appointmentType : AppointmentType
  staff : ℕ
  location : ℕ
  zone : TimeZone
  maxDailyAppointments : Option ℕ
  policy : SchedulingPolicy
  now : Instant

structure Candidate where
  staffId : ℕ
  locationId : ℕ
  appointmentTypeId : ℕ
  startDatetime : Instant
  endDatetime : Instant
  effectiveStart : Instant
  effectiveEnd : Instant
  availableSpaces : ℕ
deriving DecidableEq, Repr

/-- Whether the half-open intervals overlap -/
def overlaps (aStart aEnd bStart bEnd : Instant) : Bool := aStart < bEnd ∧ bStart < aEnd

/-- The statuses of the busy-times query -/
def Slot.isBusy (x : Slot) : Bool :=
  x.status ∈ [SlotStatus.available, .partiallyBooked, .full, .blocked]

namespace Schedule

def dayStart (h : Schedule) (date : ℤ) : Instant := h.zone.utc date 0

def dayEnd (h : Schedule) (date : ℤ) : Instant := h.dayStart date + days 1

def windows (h : Schedule) (a : Agenda) (date : ℤ) : List (Instant × Instant) :=
  (a.availWindows h.staff date).map fun w => (h.zone.utc date w.1, h.zone.utc date w.2)

def maxBuffer (h : Schedule) : Instant :=
  minutes (max h.policy.bufferBeforeMinutes h.policy.bufferAfterMinutes)

def busyTimes (h : Schedule) (slots : List Slot) (date : ℤ) : List (Instant × Instant) :=
  (slots.filter fun x => x.staff = h.staff ∧ x.effectiveStart < h.dayEnd date + h.maxBuffer ∧
    h.dayStart date - h.maxBuffer < x.effectiveEnd ∧ x.isBusy).map fun x =>
      (x.effectiveStart, x.effectiveEnd)

/-- The spaces that are used of the slots that start in an interval -/
def spacesUsed (staff : ℕ) (slots : List Slot) (start finish : Instant) : ℕ :=
  ((slots.filter fun x => x.staff = staff ∧ start ≤ x.startDatetime ∧ x.startDatetime < finish ∧
    0 < x.spacesUsed).map (·.spacesUsed)).sum

/-- `confirmed_today >= daily_cap` -/
def atDailyCap (h : Schedule) (slots : List Slot) (date : ℤ) : Bool :=
  h.maxDailyAppointments.any (· ≤ spacesUsed h.staff slots (h.dayStart date) (h.dayEnd date))

def earliestAllowed (h : Schedule) : Instant := h.now + hours h.policy.minLeadTimeHours

def latestAllowed (h : Schedule) : Option Instant :=
  if 0 < h.policy.maxAdvanceDays then some (h.now + days h.policy.maxAdvanceDays) else none

def stride (h : Schedule) : Instant := minutes h.policy.slotIntervalMinutes

def candidate (h : Schedule) (start : Instant) : Candidate :=
  let slotEnd := start + minutes h.appointmentType.durationMinutes
  { staffId := h.staff
    locationId := h.location
    appointmentTypeId := h.appointmentType.pk
    startDatetime := start
    endDatetime := slotEnd
    effectiveStart := start - minutes h.policy.bufferBeforeMinutes
    effectiveEnd := slotEnd + minutes h.policy.bufferAfterMinutes
    availableSpaces := h.appointmentType.capacityPerSlot }

/-- The loop over the grid of a window, from `start` on. There is no result when it is not over
after `fuel` turns. -/
def walk (h : Schedule) (busy : List (Instant × Instant)) (availEnd : Instant) :
    ℕ → Instant → Option (List Candidate)
  | 0, _ => none
  | fuel + 1, start =>
    let c := h.candidate start
    if availEnd < c.effectiveEnd then
      some []
    else if start < h.earliestAllowed then
      h.walk busy availEnd fuel (start + h.stride)
    else if h.latestAllowed.any (· < start) then
      some []
    else if busy.any fun b => overlaps c.effectiveStart c.effectiveEnd b.1 b.2 then
      h.walk busy availEnd fuel (start + h.stride)
    else
      (h.walk busy availEnd fuel (start + h.stride)).map fun cs => c :: cs

/-- Turns enough for a window, unless the interval is 0 -/
def turns (h : Schedule) (w : Instant × Instant) : ℕ := ((w.2 - w.1) / h.stride).toNat + 2

/-- The results of one date -/
def daySlots (h : Schedule) (a : Agenda) (slots : List Slot) (date : ℤ) :
    Option (List Candidate) :=
  if h.atDailyCap slots date then
    some []
  else do
    let found ← (h.windows a date).mapM fun w =>
      h.walk (h.busyTimes slots date) w.2 (h.turns w) w.1
    return found.flatten

end Schedule

/-! ## The service -/

/-- The arguments of `get_available_slots` -/
structure Query where
  appointmentType : AppointmentType
  dateFrom : ℤ
  dateTo : ℤ
  location : Option ℕ := none
  staff : Option ℕ := none
  citizen : Option ℕ := none
deriving DecidableEq, Repr

def Query.dates (q : Query) : List ℤ :=
  (List.range (q.dateTo + 1 - q.dateFrom).toNat).map fun n : ℕ => q.dateFrom + n

/-- The tables that the service reads; `zones` are the time zones of the locations. -/
structure Office where
  appointments : Store := {}
  agenda : Agenda := {}
  zones : ℕ → TimeZone := fun _ => .fixed 0

namespace Office

def slots (o : Office) : List Slot := o.appointments.slots.rows

/-- The schedule of an eligible staff member who has a location -/
def schedule (o : Office) (q : Query) (now : Instant) (p : StaffProfile) : Option Schedule := do
  let location ← p.location
  return {
    appointmentType := q.appointmentType
    staff := p.pk
    location
    zone := o.zones location
    maxDailyAppointments := p.maxDailyAppointments
    policy := o.appointments.catalog.resolvePolicy q.appointmentType location
    now }

def eligibleStaff (o : Office) (q : Query) : List StaffProfile :=
  o.agenda.staffProfiles.filter fun p =>
    q.appointmentType.pk ∈ p.appointmentTypes ∧ p.isAcceptingBookings ∧
      (∀ staff ∈ q.staff, p.pk = staff) ∧ ∀ location ∈ q.location, p.location = some location

def schedules (o : Office) (q : Query) (now : Instant) : List Schedule :=
  (o.eligibleStaff q).filterMap (o.schedule q now)

/-- Frequency control, with the policy of the appointment type or the settings -/
def citizenBlocked (o : Office) (q : Query) (now : Instant) : Bool :=
  let policy := q.appointmentType.schedulingPolicy.getD o.appointments.catalog.settings
  q.citizen.any fun citizen => 0 < policy.bookingFrequencyDays ∧
    hasRecent o.appointments o.appointments.bookings.rows citizen q.appointmentType.serviceType
      (now - days policy.bookingFrequencyDays)

/-- `get_available_slots` -/
def getAvailableSlots (o : Office) (q : Query) (now : Instant) : Option (List Candidate) :=
  if o.citizenBlocked q now then
    some []
  else do
    let found ← q.dates.mapM fun date =>
      (o.schedules q now).mapM fun h => h.daySlots o.agenda o.slots date
    return found.flatten.flatten.mergeSort fun c d => c.startDatetime ≤ d.startDatetime

end Office

end Civicos.Appointments
