import Civicos.Library.Rows
import Civicos.Payments.Values

/-!
# Volunteers: rows

Shifts with their bookings and waitlists, and the ledger of volunteer hours. Instants are whole
microseconds, hours are whole hundredths.
-/
namespace Civicos.Volunteers

open Library Library.Transaction

abbrev Instant := ℤ

/-- `DecimalField(decimal_places=2)` -/
abbrev Hundredths := ℕ

/-- `n` hours. -/
def hours (n : ℕ) : Hundredths := n * 100

structure Opportunity where
  pk : ℕ
  volunteerCapacity : Option ℕ := none
deriving DecidableEq, Repr

/-! ## Shifts -/

structure ShiftState where
  isCancelled : Bool := false
  cancelledAt : Option Instant := none
  cancelledBy : Option ℕ := none
  cancellationReason : String := ""
deriving DecidableEq, Repr

structure Shift extends ShiftState where
  pk : ℕ
  opportunity : ℕ
  startDatetime : Instant
  endDatetime : Instant
  capacity : Option ℕ := none
  waitlistEnabled : Bool := true
  waitlistCap : Option ℕ := none
deriving DecidableEq, Repr

namespace Shift

def schema : Schema Shift where
  pk := pk
  checks := [⟨.check "vol_shift_end_after_start", fun x => x.startDatetime < x.endDatetime⟩]

def withState (f : Shift → ShiftState) (x : Shift) : Shift := { x with toShiftState := f x }

theorem preserves (f : Shift → ShiftState) : schema.Preserves (withState f) where
  pk _ := rfl
  key _ hi := by cases hi
  valid x hx c hc := by
    have hholds := hx c hc
    obtain rfl := List.mem_singleton.mp hc
    exact hholds

/-- `duration_hours`, which rounds halves to even. -/
def durationHours (x : Shift) : Hundredths :=
  let length := (x.endDatetime - x.startDatetime).toNat
  let whole := length / 36000000
  let rest := length % 36000000
  if rest < 18000000 ∨ rest = 18000000 ∧ whole % 2 = 0 then whole else whole + 1

end Shift

/-! ## Bookings -/

inductive BookingStatus where
  | confirmed
  | waitlisted
  | cancelled
  | noShow
  | completed
deriving DecidableEq, Repr

structure BookingState where
  status : BookingStatus := .confirmed
  waitlistPosition : Option ℕ := none
  cancelledAt : Option Instant := none
  cancellationReason : String := ""
deriving DecidableEq, Repr

structure ShiftBooking extends BookingState where
  pk : ℕ
  shift : ℕ
  volunteer : ℕ
deriving DecidableEq, Repr

namespace ShiftBooking

/-- `unique_together`; the status is not part of it. -/
def shiftVolunteer : Index ShiftBooking where
  name := "volunteers_shiftbooking_shift_id_volunteer_id_uniq"
  Key := ℕ × ℕ
  key b := some (b.shift, b.volunteer)

def schema : Schema ShiftBooking where
  pk := pk
  indexes := [shiftVolunteer]

def withState (f : ShiftBooking → BookingState) (b : ShiftBooking) : ShiftBooking :=
  { b with toBookingState := f b }

theorem preserves (f : ShiftBooking → BookingState) : schema.Preserves (withState f) where
  pk _ := rfl
  key i hi b := by
    obtain rfl := List.mem_singleton.mp hi
    rfl
  valid _ _ c hc := by cases hc

end ShiftBooking

/-! ## Hours -/

structure VolunteerProfile where
  pk : ℕ
  user : ℕ
  totalHoursApproved : Hundredths := 0
deriving DecidableEq, Repr

namespace VolunteerProfile

def schema : Schema VolunteerProfile where
  pk := pk

def withTotal (total : Hundredths) (v : VolunteerProfile) : VolunteerProfile :=
  { v with totalHoursApproved := total }

theorem preserves (total : Hundredths) : schema.Preserves (withTotal total) where
  pk _ := rfl
  key _ hi := by cases hi
  valid _ _ c hc := by cases hc

end VolunteerProfile

inductive LogStatus where
  | pending
  | approved
  | rejected
deriving DecidableEq, Repr

structure LogState where
  status : LogStatus := .pending
  approvedBy : Option ℕ := none
  approvedAt : Option Instant := none
  rejectionReason : String := ""
deriving DecidableEq, Repr

structure HoursLog extends LogState where
  pk : ℕ
  volunteer : ℕ
  opportunity : Option ℕ := none
  shift : Option ℕ := none
  hours : Hundredths
  description : String := ""
deriving DecidableEq, Repr

namespace HoursLog

def volunteerShift : Index HoursLog where
  name := "vol_hourslog_unique_vol_shift"
  Key := ℕ × ℕ
  key l := l.shift.map fun shift => (l.volunteer, shift)

def schema : Schema HoursLog where
  pk := pk
  indexes := [volunteerShift]
  checks := [⟨.check "vol_hourslog_range", fun l => 0 < l.hours ∧ l.hours ≤ Volunteers.hours 24⟩]

def withState (f : HoursLog → LogState) (l : HoursLog) : HoursLog := { l with toLogState := f l }

theorem preserves (f : HoursLog → LogState) : schema.Preserves (withState f) where
  pk _ := rfl
  key i hi l := by
    obtain rfl := List.mem_singleton.mp hi
    rfl
  valid l hl c hc := by
    have hholds := hl c hc
    obtain rfl := List.mem_singleton.mp hc
    exact hholds

end HoursLog

structure RecognitionMilestone where
  pk : ℕ
  volunteer : ℕ
  hoursThreshold : Hundredths
  notificationSent : Bool := false
deriving DecidableEq, Repr

namespace RecognitionMilestone

def volunteerThreshold : Index RecognitionMilestone where
  name := "volunteers_recognitionmilestone_volunteer_id_hours_threshold_uniq"
  Key := ℕ × Hundredths
  key m := some (m.volunteer, m.hoursThreshold)

def schema : Schema RecognitionMilestone where
  pk := pk
  indexes := [volunteerThreshold]
  checks := [⟨.check "vol_milestone_threshold_min", fun m => hours 1 ≤ m.hoursThreshold⟩]

end RecognitionMilestone

/-! ## The store -/

structure Store where
  /-- The clock of the database. -/
  now : Instant := 0
  opportunities : List Opportunity := []
  shifts : Numbered Shift.schema := .empty
  profiles : Numbered VolunteerProfile.schema := .empty
  /-- The volunteers with an approved application, and its opportunity. -/
  approved : List (ℕ × ℕ) := []
  bookings : Numbered ShiftBooking.schema := .empty
  hoursLogs : Numbered HoursLog.schema := .empty
  milestones : Numbered RecognitionMilestone.schema := .empty

inductive VolunteerError where
  | permissionDenied (message : String)
  | validationError (field message : String)
  | doesNotExist (model : String)
  | integrityError (constraint : String)
deriving DecidableEq, Repr

def VolunteerError.ofViolation : Violation → VolunteerError
  | .unique index => integrityError index
  | .check name => integrityError name
  | .width column => integrityError column

abbrev Tx := Transaction VolunteerError Store

namespace Store

def shiftTable : Lens Store (Numbered Shift.schema) where
  get s := s.shifts
  set t s := { s with shifts := t }
  get_set _ _ := rfl
  set_get _ := rfl
  set_set _ _ _ := rfl

def profileTable : Lens Store (Numbered VolunteerProfile.schema) where
  get s := s.profiles
  set t s := { s with profiles := t }
  get_set _ _ := rfl
  set_get _ := rfl
  set_set _ _ _ := rfl

def bookingTable : Lens Store (Numbered ShiftBooking.schema) where
  get s := s.bookings
  set t s := { s with bookings := t }
  get_set _ _ := rfl
  set_get _ := rfl
  set_set _ _ _ := rfl

def logTable : Lens Store (Numbered HoursLog.schema) where
  get s := s.hoursLogs
  set t s := { s with hoursLogs := t }
  get_set _ _ := rfl
  set_get _ := rfl
  set_set _ _ _ := rfl

def milestoneTable : Lens Store (Numbered RecognitionMilestone.schema) where
  get s := s.milestones
  set t s := { s with milestones := t }
  get_set _ _ := rfl
  set_get _ := rfl
  set_set _ _ _ := rfl

/-- `effective_capacity`; none is unlimited. -/
def effectiveCapacity (s : Store) (x : Shift) : Option ℕ :=
  match x.capacity with
  | some capacity => some capacity
  | none => (s.opportunities.find? (·.pk = x.opportunity)).bind (·.volunteerCapacity)

/-- The bookings of a shift with a status, oldest first. -/
def bookingsOf (s : Store) (shift : ℕ) (status : BookingStatus) : List ShiftBooking :=
  s.bookings.rows.filter fun b => b.shift = shift ∧ b.status = status

end Store

/-- The user who calls, with the permissions that the services ask for. -/
structure Actor where
  pk : ℕ
  changeShiftbooking : Bool := false
  changeShift : Bool := false
  changeHourslog : Bool := false
deriving DecidableEq, Repr

end Civicos.Volunteers
