import Mathlib.Data.List.MinMax
import Mathlib.Order.WithBot
import Civicos.Library.Pool
import Civicos.Volunteers.Store

/-!
# Booking shifts

Every service function checks its caller and the row that it is given, and then works in one
transaction that locks the rows it writes and checks the state again.
-/
namespace Civicos.Volunteers

open Library Library.Transaction
open Payments (clip strip)

def shiftOf (shift : ℕ) : Tx Shift := fetch Store.shiftTable (.doesNotExist "Shift") shift

def profileOf (volunteer : ℕ) : Tx VolunteerProfile :=
  fetch Store.profileTable (.doesNotExist "VolunteerProfile") volunteer

def bookingOf (booking : ℕ) : Tx ShiftBooking :=
  fetch Store.bookingTable (.doesNotExist "ShiftBooking") booking

def saveBooking (booking : ℕ) (f : ShiftBooking → BookingState) : Tx Unit :=
  rewriteRows Store.bookingTable (·.pk = booking) (.withState f) (ShiftBooking.preserves f)

/-! ## `book_shift` -/

def isCancelledError : VolunteerError := .validationError "shift" "This shift has been cancelled."

/-- The checks of `book_shift` before its transaction. -/
def bookShiftChecks (shift volunteer : ℕ) (actor : Actor) : Tx Unit := do
  let x ← shiftOf shift
  let profile ← profileOf volunteer
  if actor.pk ≠ profile.user then
    throw (.permissionDenied ("User #" ++ toString actor.pk ++
      " cannot act on behalf of VolunteerProfile #" ++ toString profile.pk ++ "."))
  if x.isCancelled then throw isCancelledError
  let s ← get
  if x.startDatetime ≤ s.now then
    throw (.validationError "shift" "You cannot book a shift that has already started.")
  if (profile.pk, x.opportunity) ∉ s.approved then
    throw (.validationError "volunteer"
      "You must have an approved application for this opportunity to book a shift.")

/-- The position behind everybody who waits. -/
def nextPosition (waitlist : List ShiftBooking) : ℕ :=
  (waitlist.filterMap (·.waitlistPosition)).max?.getD 0 + 1

/-- `full_clean` and `save` of a new booking. The shift is locked, so that nobody else can insert
the pair that `full_clean` has not found. -/
def createBooking (shift volunteer : ℕ) (state : BookingState) : Tx ShiftBooking := do
  let s ← get
  if state.waitlistPosition.any (32767 < ·) then
    throw (.validationError "waitlist_position"
      "Ensure this value is less than or equal to 32767.")
  if s.bookings.rows.any fun b => b.shift = shift ∧ b.volunteer = volunteer then
    throw (.validationError "__all__" "Shift booking with this Shift and Volunteer already exists.")
  append Store.bookingTable
    (fun _ => .validationError "shift" "You are already booked for this shift.")
    fun pk => { toBookingState := state, pk, shift, volunteer }

/-- The transaction of `book_shift`. -/
def bookShift (shift volunteer : ℕ) : Tx ShiftBooking := do
  let x ← shiftOf shift
  if x.isCancelled then throw isCancelledError
  let s ← get
  let confirmed := (s.bookingsOf x.pk .confirmed).length
  if (s.effectiveCapacity x).all (confirmed < ·) then
    createBooking x.pk volunteer { status := .confirmed }
  else if x.waitlistEnabled then
    let waitlist := s.bookingsOf x.pk .waitlisted
    if x.waitlistCap.any (· ≤ waitlist.length) then
      throw (.validationError "shift" "The waitlist for this shift is full.")
    createBooking x.pk volunteer
      { status := .waitlisted, waitlistPosition := some (nextPosition waitlist) }
  else throw (.validationError "shift" "This shift is fully booked.")

/-! ## `cancel_booking` -/

def BookingStatus.cancellable : BookingStatus → Bool
  | confirmed | waitlisted => true
  | _ => false

def notCancellable : VolunteerError := .validationError "status" "This booking cannot be cancelled."

def cancelBookingChecks (booking : ℕ) (actor : Actor) : Tx Unit := do
  let b ← bookingOf booking
  let profile ← profileOf b.volunteer
  if ¬ (actor.pk = profile.user ∨ actor.changeShiftbooking) then
    throw (.permissionDenied ("User #" ++ toString actor.pk ++ " may not cancel booking #" ++
      toString b.pk ++ "."))
  if ¬ b.status.cancellable then throw notCancellable

/-- The column to sort a waitlist by; null positions are sorted last. -/
def ShiftBooking.rank (b : ShiftBooking) : WithTop ℕ := b.waitlistPosition

/-- The first of the waitlist. -/
def nextUp (waitlist : List ShiftBooking) : Option ShiftBooking := waitlist.argmin (·.rank)

/-- The columns of a booking that is cancelled, with the reason as it is stored. -/
def ShiftBooking.cancelledAs (now : Instant) (reason : String) (b : ShiftBooking) : BookingState :=
  { b.toBookingState with
    status := .cancelled
    cancelledAt := some now
    cancellationReason := reason }

def ShiftBooking.promoted (b : ShiftBooking) : BookingState :=
  { b.toBookingState with
    status := .confirmed
    waitlistPosition := none }

/-- The promotion of the first of the waitlist. -/
def promoteNext (shift : ℕ) : Tx (Option ShiftBooking) := do
  let s ← get
  match nextUp (s.bookingsOf shift .waitlisted) with
  | none => return none
  | some next =>
    saveBooking next.pk (·.promoted)
    return some next

/-- The transaction of `cancel_booking`, with the booking that is promoted. -/
def cancelBooking (booking : ℕ) (reason : String) : Tx (Option ShiftBooking) := do
  let given ← bookingOf booking
  let x ← shiftOf given.shift
  if x.isCancelled then
    throw (.validationError "__all__"
      "Cannot modify a booking on a shift that has already been cancelled.")
  let b ← bookingOf booking
  if ¬ b.status.cancellable then throw notCancellable
  let s ← get
  saveBooking b.pk (ShiftBooking.cancelledAs s.now (clip 300 reason))
  if b.status = .confirmed ∧ x.waitlistEnabled then promoteNext b.shift
  else return none

/-! ## After the shift -/

def requirePermission (actor : Actor) (granted : Bool) (permission : String) : Tx Unit :=
  if granted then return ()
  else throw (.permissionDenied ("User #" ++ toString actor.pk ++ " does not have '" ++
    permission ++ "'."))

def markNoShowChecks (booking : ℕ) (actor : Actor) : Tx Unit := do
  requirePermission actor actor.changeShiftbooking "volunteers.change_shiftbooking"
  let b ← bookingOf booking
  if b.status ≠ .confirmed then
    throw (.validationError "status" "Only confirmed bookings can be marked as no-show.")
  let x ← shiftOf b.shift
  let s ← get
  if s.now < x.startDatetime then
    throw (.validationError "shift" "Cannot mark a no-show before the shift starts.")

def markNoShow (booking : ℕ) : Tx Unit := do
  let b ← bookingOf booking
  if b.status ≠ .confirmed then
    throw (.validationError "status" "Only confirmed bookings can be marked as no-show.")
  saveBooking b.pk fun b => { b.toBookingState with status := .noShow }

def completeBookingChecks (booking : ℕ) (actor : Actor) : Tx Unit := do
  requirePermission actor actor.changeShiftbooking "volunteers.change_shiftbooking"
  let b ← bookingOf booking
  if b.status ≠ .confirmed then
    throw (.validationError "status" "Only confirmed bookings can be marked as completed.")
  let x ← shiftOf b.shift
  let s ← get
  if s.now < x.endDatetime then
    throw (.validationError "shift" "Cannot mark complete before the shift ends.")

def completeBooking (booking : ℕ) : Tx Unit := do
  let b ← bookingOf booking
  if b.status ≠ .confirmed then
    throw (.validationError "status" "Only confirmed bookings can be marked as completed.")
  saveBooking b.pk fun b => { b.toBookingState with status := .completed }
  let x ← shiftOf b.shift
  let s ← get
  if x.durationHours = 0 ∨ s.hoursLogs.rows.any (fun l => l.volunteer = b.volunteer ∧
      l.shift = some x.pk) then return ()
  else
    let _ ← append Store.logTable .ofViolation fun pk =>
      { pk
        volunteer := b.volunteer
        opportunity := some x.opportunity
        shift := some x.pk
        hours := min x.durationHours (hours 24) }

/-! ## `cancel_shift` -/

def alreadyCancelled : VolunteerError :=
  .validationError "shift" "This shift is already cancelled."

def cancelShiftChecks (shift : ℕ) (actor : Actor) (reason : String) : Tx Unit := do
  requirePermission actor actor.changeShift "volunteers.change_shift"
  let x ← shiftOf shift
  if x.isCancelled then throw alreadyCancelled
  if strip reason = "" then
    throw (.validationError "reason" "A cancellation reason is required.")

def cancelShift (shift : ℕ) (actor : Actor) (reason : String) : Tx Unit := do
  let x ← shiftOf shift
  if x.isCancelled then throw alreadyCancelled
  let s ← get
  let cancelled (x : Shift) : ShiftState := { x.toShiftState with
    isCancelled := true
    cancelledAt := some s.now
    cancelledBy := some actor.pk
    cancellationReason := strip reason }
  rewriteRows Store.shiftTable (·.pk = x.pk) (.withState cancelled) (Shift.preserves cancelled)
  let reason := clip 299 ("Shift cancelled: " ++ strip reason)
  rewriteRows Store.bookingTable (fun b => b.shift = x.pk ∧ b.status.cancellable)
    (.withState (ShiftBooking.cancelledAs s.now reason)) (ShiftBooking.preserves _)

/-! ## Calls -/

inductive Call where
  | bookShift (shift volunteer : ℕ) (actor : Actor)
  | cancelBooking (booking : ℕ) (actor : Actor) (reason : String)
  | markNoShow (booking : ℕ) (actor : Actor)
  | completeBooking (booking : ℕ) (actor : Actor)
  | cancelShift (shift : ℕ) (actor : Actor) (reason : String)
deriving DecidableEq, Repr

namespace Call

/-- What a call checks before its transaction. -/
def checks : Call → Tx Unit
  | bookShift shift volunteer actor => bookShiftChecks shift volunteer actor
  | cancelBooking booking actor _ => cancelBookingChecks booking actor
  | markNoShow booking actor => markNoShowChecks booking actor
  | completeBooking booking actor => completeBookingChecks booking actor
  | cancelShift shift actor reason => cancelShiftChecks shift actor reason

/-- The transaction of a call, without the row that it returns. -/
def perform : Call → Tx Unit
  | bookShift shift volunteer _ => do
    let _ ← Volunteers.bookShift shift volunteer
  | cancelBooking booking _ reason => do
    let _ ← Volunteers.cancelBooking booking reason
  | markNoShow booking _ => Volunteers.markNoShow booking
  | completeBooking booking _ => Volunteers.completeBooking booking
  | cancelShift shift actor reason => Volunteers.cancelShift shift actor reason

end Call

/-- A call before its checks, between them and its transaction, and afterwards. -/
inductive Worker where
  | called (c : Call)
  | checked (c : Call)
  | returned (c : Call)
  | raised (c : Call) (e : VolunteerError)
  | dead
deriving DecidableEq

namespace Worker

def entry : Worker → Bool
  | called _ => true
  | _ => false

def act (s : Store) : Worker → Unit → Option (Store × Worker)
  | called c, () =>
    match commit c.checks s with
    | (.ok _, _) => some (s, checked c)
    | (.error e, _) => some (s, raised c e)
  | checked c, () =>
    match commit c.perform s with
    | (.ok _, t) => some (t, returned c)
    | (.error e, _) => some (s, raised c e)
  | returned _, _ => none
  | raised _ _, _ => none
  | dead, _ => none

end Worker

/-- What happens besides the calls: time passes, and applications are decided. -/
inductive Event where
  | pass (time : ℕ)
  | approve (approved : List (ℕ × ℕ))
deriving DecidableEq

/-- Any number of calls, interleaved; nobody has booked yet. -/
def shifts : Program Store Worker Unit Event where
  Init s := s.bookings = .empty
  entry := Worker.entry
  halted := .dead
  act := Worker.act
  env s
    | .pass time => some { s with now := s.now + time }
    | .approve approved => some { s with approved }

end Civicos.Volunteers
