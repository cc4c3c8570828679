import Civicos.Appointments.GovStackAppointment
import Civicos.Library.Pool

/-!
# The appointment system

Any number of calls run at once. Between the moment at which a call reads what it does not lock
and its transaction, others may commit. The clean-up job for pending bookings is a worker that
goes through its list booking by booking.
-/
namespace Civicos.Appointments

open Library Library.Transaction
open Payments (Uuid)

inductive Request where
  | createBooking (slot : Uuid) (citizen : ℕ) (intake : Intake) (actor : Option User)
      (actorIp : Option String)
  | confirmBooking (booking : Uuid) (actor : Option User) (actorIp : Option String)
  | rejectBooking (booking : Uuid) (actor : Option User) (reason : String) (actorIp : Option String)
  | cancelBooking (booking : Uuid) (actor : Option User) (reason : String) (actorIp : Option String)
  | rescheduleBooking (booking newSlot : Uuid) (actor : Option User) (reason : String)
      (actorIp : Option String)
  | markNoShow (booking : Uuid) (actor : Option User) (actorIp : Option String)
  | completeBooking (booking : Uuid) (actor : Option User) (actorIp : Option String)
  | appointmentCreate (r : AppointmentCreation)
  | appointmentModify (r : AppointmentModification)
  | appointmentDelete (appointmentId : Uuid) (callerCitizenId : Option ℕ)
  | logCreate (r : LogDetails)
  | blockSlot (slot : Uuid) (reason : String)
  | cancelSlot (slot : Uuid) (reason : String)
  | eventModify (event : Uuid) (changes : EventChanges)
  | eventDelete (event : Uuid)
  | markPastSlotsCompleted
deriving DecidableEq

namespace Request

/-- The transaction of a request, without the value that it returns. -/
def perform (seen : Store) (now : Instant) : Request → Tx Unit
  | createBooking slot citizen intake actor ip => do
    let _ ← Appointments.createBooking seen [] now slot citizen intake actor ip
  | confirmBooking booking actor ip => do
    let _ ← Appointments.confirmBooking booking actor ip
  | rejectBooking booking actor reason ip => do
    let _ ← Appointments.rejectBooking now booking actor reason ip
  | cancelBooking booking actor reason ip => do
    let _ ← Appointments.cancelBooking seen now booking actor reason ip
  | rescheduleBooking booking newSlot actor reason ip => do
    let _ ← Appointments.rescheduleBooking seen now booking newSlot actor reason ip
  | markNoShow booking actor ip => do
    let _ ← Appointments.markNoShow seen now booking actor ip
  | completeBooking booking actor ip => do
    let _ ← Appointments.completeBooking seen booking actor ip
  | appointmentCreate r => do
    let _ ← Appointments.appointmentCreate seen now r
  | appointmentModify r => do
    let _ ← Appointments.appointmentModify seen now r
  | appointmentDelete appointmentId callerCitizenId => do
    let _ ← Appointments.appointmentDelete seen now appointmentId callerCitizenId
  | logCreate r => do
    let _ ← Appointments.logCreate seen r
  | blockSlot slot reason => do
    let _ ← Appointments.blockSlot slot reason
  | cancelSlot slot reason => do
    let _ ← Appointments.cancelSlot slot reason
  | eventModify event changes => do
    let _ ← Appointments.eventModify event changes
  | eventDelete event => Appointments.eventDelete event
  | markPastSlotsCompleted => do
    let _ ← Appointments.markPastSlotsCompleted now

/-- The last log line of four operations reads `actor.pk`, after the commit. -/
def lacksActor : Request → Bool
  | confirmBooking _ none _ => true
  | rejectBooking _ none _ _ => true
  | rescheduleBooking _ _ none _ _ => true
  | markNoShow _ none _ => true
  | _ => false

/-- What the caller gets, once the transaction has ended. -/
def respond (r : Request) : Except AppointmentError Unit → Except AppointmentError Unit
  | .ok () =>
    if r.lacksActor then .error (.attributeError "'NoneType' object has no attribute 'pk'")
    else .ok ()
  | .error e => .error e

end Request

/-! ## Workers -/

/-- The bookings that a run of the clean-up job still has to look at. -/
structure Sweep where
  cutoff : Instant
  pks : List Uuid
deriving DecidableEq

inductive Task where
  | call (r : Request) (job : Option Sweep)
  | running (r : Request) (seen : Store) (job : Option Sweep)
  | sweep
  | sweeping (job : Sweep)
  | done (answer : Except AppointmentError Unit)
deriving DecidableEq

/-- The request whose transaction is next. -/
def Task.request : Task → Option Request
  | running r _ _ => some r
  | _ => none

namespace Store

/-- At most 200 pending bookings from before the cutoff, the newest first. -/
def expiredPending (s : Store) (now : Instant) : Sweep :=
  let cutoff := now - minutes s.catalog.pendingBookingTimeoutMinutes
  let expired := s.bookings.rows.filter fun b => b.status = .pending ∧ b.createdAt < cutoff
  ⟨cutoff, ((expired.mergeSort fun a b => b.createdAt ≤ a.createdAt).take 200).map (·.pk)⟩

end Store

/-- `cancel_booking(booking=booking, actor=None, reason="Pending timeout exceeded.")` -/
def timeoutRequest (booking : Uuid) : Request :=
  .cancelBooking booking none "Pending timeout exceeded." none

namespace Task

/-- A booking of the list is read again, without a lock. Errors of a cancellation are logged. -/
def act (db : Store) (now : Instant) : Task → Option (Store × Task)
  | call r job => some (db, running r db job)
  | running r seen job =>
    let (answer, db') := commit (r.perform seen now) db
    match job with
    | some job => some (db', sweeping job)
    | none => some (db', done (r.respond answer))
  | sweep => some (db, sweeping (db.expiredPending now))
  | sweeping ⟨_, []⟩ => some (db, done (.ok ()))
  | sweeping ⟨cutoff, pk :: pks⟩ =>
    if (db.bookings.get pk).any (·.status = .pending) then
      some (db, call (timeoutRequest pk) (some ⟨cutoff, pks⟩))
    else some (db, sweeping ⟨cutoff, pks⟩)
  | done _ => none

end Task

/-! ## The system -/

/-- What happens beside the calls: configuration, new slots, and staff who lift a suspension. -/
inductive Administration where
  | configure (catalog : Catalog)
  | insertSlot (slot : Slot)
  | clearSuspension (record : Uuid)
deriving DecidableEq

def administer (db : Store) : Administration → Option Store
  | .configure catalog => some { db with catalog }
  | .insertSlot slot =>
    if slot.spacesUsed = 0 then
      match db.slots.insert slot with
      | .ok slots => some { db with slots }
      | .error _ => none
    else none
  | .clearSuspension record =>
    match db.noShowRecords.update record fun row => { row with isSuspended := false } with
    | .ok noShowRecords => some { db with noShowRecords }
    | .error _ => none

/-- Nothing is booked yet. -/
structure Store.Initial (s : Store) : Prop where
  bookings : s.bookings.rows = []
  auditLog : s.auditLog.rows = []
  records : s.noShowRecords.rows = []
  unused : ∀ x ∈ s.slots.rows, x.spacesUsed = 0
  adminBlocked : s.adminBlocked = []
  clipped : s.clipped = 0

def system : Program Store Task Instant Administration where
  Init := Store.Initial
  entry
    | .call _ none => true
    | .sweep => true
    | _ => false
  halted := .done (.ok ())
  act db task now := if db.clock ≤ now then task.act { db with clock := now } now else none
  env := administer

abbrev Label := Pool.Label Task Instant Administration

/-- Calls one after the other, as workers `first`, `first + 1` and so on. -/
def serial (now : Instant) (first : ℕ) : List Request → List Label
  | [] => []
  | r :: rest =>
    .spawn (.call r none) :: .act first now :: .act first now :: serial now (first + 1) rest

theorem initial_empty : system.machine.Init ⟨{}, []⟩ := ⟨⟨rfl, rfl, rfl, by decide, rfl, rfl⟩, rfl⟩

/-- An appointment type whose bookings staff confirm, and two empty slots of two spaces a week
on. -/
def clinic : List Label :=
  [.env (.configure {
    appointmentTypes := [{ pk := 1, slug := "permit", serviceType := 1 }]
    users := [⟨7, false, true⟩, ⟨8, false, true⟩, ⟨9, true, true⟩] }),
  .env (.insertSlot ⟨1, 1, 1, 1, days 7, days 8, days 7, days 8, 2, 0, .available, ""⟩),
  .env (.insertSlot ⟨2, 1, 1, 1, days 14, days 15, days 14, days 15, 2, 0, .available, ""⟩)]

end Civicos.Appointments
