import Civicos.Library.Signal
import Civicos.Volunteers.HonorariumRecord
import Civicos.Volunteers.ShiftSteps

/-!
# Who is told

Every service sends its signals when its transaction has committed. Most receivers are connected to
the label of a model, while the model itself sends the signals.
-/
namespace Civicos.Volunteers.Notices

open Library Library.Transaction
open Honoraria (HonorariumCall Honorarium Faults alertThreshold t4aThreshold)

/-! ## Mails and signals -/

inductive Recipient where
  | volunteer (pk : ℕ)
  | coordinator (user : ℕ)
deriving DecidableEq, Repr

structure Mail where
  recipient : Recipient
  subjectKey : String
  about : ℕ
deriving DecidableEq, Repr

/-- The objects that signals are sent by or connected to -/
inductive Sender where
  | model (name : String)
  | label (text : String)
deriving DecidableEq, Repr

def bookedMail (b : ShiftBooking) : Mail where
  recipient := .volunteer b.volunteer
  subjectKey := "volunteer_shift_booked"
  about := b.pk

def shiftCancelledMail (b : ShiftBooking) : Mail where
  recipient := .volunteer b.volunteer
  subjectKey := "volunteer_shift_cancelled"
  about := b.pk

def bookingCancelledMail (b : ShiftBooking) : Mail where
  recipient := .volunteer b.volunteer
  subjectKey := "volunteer_booking_cancelled"
  about := b.pk

def t4aMail (h : Honorarium) : Mail where
  recipient := .coordinator h.createdBy
  subjectKey := "volunteer_honorarium_t4a_alert"
  about := h.pk

def craAlertMail (h : Honorarium) : Mail where
  recipient := .coordinator h.createdBy
  subjectKey := "volunteer_honorarium_cra_near_alert"
  about := h.pk

/-! ## Receivers -/

def notifyVolunteerOnShiftBooked (e : Store × ℕ) : List Mail :=
  (e.1.bookings.get e.2).toList.map bookedMail

/-- Every booking of the shift that is cancelled by now -/
def notifyVolunteersOnShiftCancelled (e : Store × ℕ) : List Mail :=
  match e.1.shifts.get e.2 with
  | none => []
  | some x => (e.1.bookingsOf x.pk .cancelled).map shiftCancelledMail

def notifyVolunteerOnBookingCancelled (e : Store × ℕ) : List Mail :=
  (e.1.bookings.get e.2).toList.map bookingCancelledMail

def notifyCoordinatorOnT4aThreshold (e : Honoraria.Store × ℕ) : List Mail :=
  (e.1.honoraria.get e.2).toList.map t4aMail

def notifyCoordinatorOnCraAlert (e : Honoraria.Store × ℕ) : List Mail :=
  (e.1.honoraria.get e.2).toList.map craAlertMail

def shiftBooked : Signal Sender (Store × ℕ) Mail :=
  [⟨some (.label "volunteers.ShiftBooking"), notifyVolunteerOnShiftBooked⟩]

def shiftCancelled : Signal Sender (Store × ℕ) Mail :=
  [⟨some (.label "volunteers.Shift"), notifyVolunteersOnShiftCancelled⟩]

def shiftBookingCancelled : Signal Sender (Store × ℕ) Mail :=
  [⟨none, notifyVolunteerOnBookingCancelled⟩]

/-- Nothing is connected. -/
def honorariumCreated : Signal Sender (Honoraria.Store × ℕ) Mail := []

def t4aThresholdReached : Signal Sender (Honoraria.Store × ℕ) Mail :=
  [⟨some (.label "volunteers.Honorarium"), notifyCoordinatorOnT4aThreshold⟩]

def craAlertThresholdReached : Signal Sender (Honoraria.Store × ℕ) Mail :=
  [⟨some (.label "volunteers.Honorarium"), notifyCoordinatorOnCraAlert⟩]

/-! ## After the commit -/

/-- `mails` have been sent; `due` are those that somebody concerned should get. -/
structure Hall where
  shifts : Store := {}
  honoraria : Honoraria.Store := {}
  mails : List Mail := []
  due : List Mail := []

namespace Hall

/-- What `create_honorarium` sees -/
def desk (h : Hall) : Honoraria.Store := { h.honoraria with profiles := h.shifts.profiles }

end Hall

inductive Callback where
  | booked (booking : ℕ)
  | cancelled (booking : ℕ)
  | shiftCancelled (shift : ℕ)
  | honorarium (pk : ℕ)
deriving DecidableEq, Repr

/-- `_post_commit` of an honorarium, with the total of the year as it is by now -/
def postHonorarium (s : Honoraria.Store) (pk : ℕ) : List Mail :=
  match s.honoraria.get pk with
  | none => []
  | some x =>
    honorariumCreated.send (.model "Honorarium") (s, x.pk) ++
      if x.paymentType = .honorarium then
        let ytd := s.cumulativeYtd x.volunteer (yearOf x.paymentDate)
        if t4aThreshold ≤ ytd then t4aThresholdReached.send (.model "Honorarium") (s, x.pk)
        else if alertThreshold ≤ ytd then
          craAlertThresholdReached.send (.model "Honorarium") (s, x.pk)
        else []
      else []

namespace Callback

/-- The row is read again, and the signal is sent. -/
def run (h : Hall) : Callback → List Mail
  | booked booking =>
    match h.shifts.bookings.get booking with
    | none => []
    | some b => Notices.shiftBooked.send (.model "ShiftBooking") (h.shifts, b.pk)
  | cancelled booking =>
    match h.shifts.bookings.get booking with
    | none => []
    | some b => shiftBookingCancelled.send (.model "ShiftBooking") (h.shifts, b.pk)
  | shiftCancelled shift =>
    match h.shifts.shifts.get shift with
    | none => []
    | some x => Notices.shiftCancelled.send (.model "Shift") (h.shifts, x.pk)
  | honorarium pk => postHonorarium h.desk pk

end Callback

/-! ## Who is concerned -/

def onShift (shift : ℕ) (b : ShiftBooking) : Bool := b.shift = shift && b.status.cancellable

/-- The transaction of a call, with what it does after its commit and the mails that are due -/
def transaction : Call → Tx (List Callback × List Mail)
  | .bookShift shift volunteer _ => do
    let b ← bookShift shift volunteer
    return ([.booked b.pk], [bookedMail b])
  | .cancelBooking booking _ reason => do
    let promoted ← cancelBooking booking reason
    return (promoted.toList.map (.booked ·.pk) ++ [.cancelled booking],
      promoted.toList.map bookedMail)
  | .cancelShift shift actor reason => do
    let s ← get
    cancelShift shift actor reason
    return ([.shiftCancelled shift],
      (s.bookings.rows.filter (onShift shift)).map shiftCancelledMail)
  | c => do
    c.perform
    return ([], [])

/-- The alert that is due for a committed honorarium -/
def alerts (s : Honoraria.Store) (pk : ℕ) : List Mail :=
  match s.honoraria.get pk with
  | none => []
  | some x =>
    if x.paymentType = .honorarium then
      let ytd := s.cumulativeYtd x.volunteer (yearOf x.paymentDate)
      if t4aThreshold ≤ ytd then [t4aMail x]
      else if alertThreshold ≤ ytd then [craAlertMail x]
      else []
    else []

/-! ## Any number of calls -/

inductive Worker where
  | shift (w : Volunteers.Worker)
  | paying (c : HonorariumCall) (faults : Faults)
  | posting (callbacks : List Callback)
  | refused (e : Honoraria.HonorariumError)
  | dead

namespace Worker

def entry : Worker → Bool
  | shift w => w.entry
  | paying _ _ => true
  | _ => false

def act (h : Hall) : Worker → Option (Hall × Worker)
  | shift (.checked c) =>
    match commit (transaction c) h.shifts with
    | (.ok (callbacks, due), t) =>
      some ({ h with shifts := t, due := h.due ++ due }, posting callbacks)
    | (.error e, _) => some (h, shift (.raised c e))
  | shift w => (w.act h.shifts ()).map fun r => ({ h with shifts := r.1 }, shift r.2)
  | paying c faults =>
    match Honoraria.createHonorarium c faults h.desk with
    | (.ok x, t) =>
      some ({ h with honoraria := t, due := h.due ++ alerts t x.pk }, posting [.honorarium x.pk])
    | (.error e, t) => some ({ h with honoraria := t }, refused e)
  | posting (callback :: rest) =>
    some ({ h with mails := h.mails ++ callback.run h }, posting rest)
  | posting [] | refused _ | dead => none

end Worker

/-- Any number of calls, interleaved with each other and with the callbacks -/
def notices : Library.Program Hall Worker Unit Event where
  Init h := h.mails = [] ∧ h.due = []
  entry := Worker.entry
  halted := .dead
  act h w _ := w.act h
  env h
    | .pass time => some { h with shifts := { h.shifts with now := h.shifts.now + time } }
    | .approve approved => some { h with shifts := { h.shifts with approved } }

end Civicos.Volunteers.Notices
