import Civicos.Volunteers.Scheduling

/-!
# Volunteer hours

A coordinator approves or rejects a log of hours. What an approval defers to its commit runs later
and in any order: it adds up the approved hours of the volunteer under the lock of the profile, and
awards a milestone for each threshold that the total has passed since the approval.
-/
namespace Civicos.Volunteers

open Library Library.Transaction
open Payments (clip strip)

/-- `MILESTONE_THRESHOLDS` -/
def milestoneThresholds : List Hundredths := [25, 50, 100, 250, 500, 1000].map hours

def logOf (log : ℕ) : Tx HoursLog := fetch Store.logTable (.doesNotExist "HoursLog") log

/-- `full_clean` finds nothing in a row that the table has accepted. -/
def saveLog (log : ℕ) (f : HoursLog → LogState) : Tx Unit :=
  rewriteRows Store.logTable (·.pk = log) (.withState f) (HoursLog.preserves f)

/-! ## `approve_hours` -/

def notApprovable : VolunteerError :=
  .validationError "status" "Only pending hours logs can be approved."

/-- A log that is pending. -/
def pendingLog (log : ℕ) (refusal : VolunteerError) : Tx HoursLog := do
  let l ← logOf log
  if l.status ≠ .pending then throw refusal
  return l

def approveHoursChecks (log : ℕ) (actor : Actor) : Tx Unit := do
  requirePermission actor actor.changeHourslog "volunteers.change_hourslog"
  let _ ← pendingLog log notApprovable

/-- The transaction of `approve_hours` until it reads the total; it holds the lock of the log. -/
def readOldTotal (log : ℕ) : Tx Hundredths := do
  let l ← pendingLog log notApprovable
  let profile ← profileOf l.volunteer
  return profile.totalHoursApproved

def HoursLog.approvedAs (now : Instant) (actor : Actor) (l : HoursLog) : LogState :=
  { l.toLogState with
    status := .approved
    approvedBy := some actor.pk
    approvedAt := some now }

/-- The write of `approve_hours`. -/
def approveHours (log : ℕ) (actor : Actor) : Tx HoursLog := do
  let l ← pendingLog log notApprovable
  let s ← get
  saveLog l.pk (HoursLog.approvedAs s.now actor)
  return l

/-! ## `reject_hours` -/

def notRejectable : VolunteerError :=
  .validationError "status" "Only pending hours logs can be rejected."

def rejectHoursChecks (log : ℕ) (actor : Actor) (reason : String) : Tx Unit := do
  requirePermission actor actor.changeHourslog "volunteers.change_hourslog"
  if strip reason = "" then
    throw (.validationError "reason" "A rejection reason is required.")
  let _ ← pendingLog log notRejectable

def HoursLog.rejectedAs (reason : String) (l : HoursLog) : LogState :=
  { l.toLogState with
    status := .rejected
    rejectionReason := clip 300 (strip reason) }

def rejectHours (log : ℕ) (reason : String) : Tx HoursLog := do
  let l ← pendingLog log notRejectable
  saveLog l.pk (HoursLog.rejectedAs reason)
  return l

/-! ## Callbacks -/

/-- What is left of the callback of an approval: everything; the write of the total that it has
added up, for which it holds the lock of the profile; or the milestones of these thresholds. -/
inductive Progress where
  | queued
  | summed (total : Hundredths)
  | awarding (thresholds : List Hundredths)
deriving DecidableEq, Repr

structure Callback where
  pk : ℕ
  volunteer : ℕ
  oldTotal : Hundredths
  progress : Progress := .queued
deriving DecidableEq, Repr

namespace Callback

def schema : Schema Callback where
  pk := pk

def withProgress (progress : Progress) (c : Callback) : Callback := { c with progress }

theorem preserves (progress : Progress) : schema.Preserves (withProgress progress) where
  pk _ := rfl
  key _ hi := by cases hi
  valid _ _ c hc := by cases hc

/-- A callback between its sum and its write. -/
def locks (c : Callback) : Bool :=
  match c.progress with
  | .summed _ => true
  | _ => false

end Callback

/-- The store with the callbacks that are pending. `decided` records which logs have been decided,
and how. -/
structure Ledger where
  store : Store := {}
  callbacks : Numbered Callback.schema := .empty
  decided : List (ℕ × LogStatus) := []

abbrev LedgerTx := Transaction VolunteerError Ledger

namespace Ledger

def storeLens : Lens Ledger Store where
  get u := u.store
  set s u := { u with store := s }
  get_set _ _ := rfl
  set_get _ := rfl
  set_set _ _ _ := rfl

def callbackTable : Lens Ledger (Numbered Callback.schema) where
  get u := u.callbacks
  set t u := { u with callbacks := t }
  get_set _ _ := rfl
  set_get _ := rfl
  set_set _ _ _ := rfl

def record (log : ℕ) (status : LogStatus) (u : Ledger) : Ledger :=
  { u with decided := u.decided ++ [(log, status)] }

end Ledger

/-- The commit of `approve_hours`, which leaves its callback behind. -/
def commitApproval (log : ℕ) (actor : Actor) (oldTotal : Hundredths) : LedgerTx Unit := do
  let l ← zoom Ledger.storeLens (approveHours log actor)
  let _ ← append Ledger.callbackTable .ofViolation fun pk =>
    { pk, volunteer := l.volunteer, oldTotal }
  modify (·.record l.pk .approved)

def commitRejection (log : ℕ) (reason : String) : LedgerTx Unit := do
  let l ← zoom Ledger.storeLens (rejectHours log reason)
  modify (·.record l.pk .rejected)

/-- The sum over the approved logs of a volunteer. -/
def Store.approvedHours (s : Store) (volunteer : ℕ) : Hundredths :=
  ((s.hoursLogs.rows.filter fun l => l.volunteer = volunteer ∧ l.status = .approved).map
    (·.hours)).sum

def saveProgress (callback : ℕ) (progress : Progress) : LedgerTx Unit :=
  rewriteRows Ledger.callbackTable (·.pk = callback) (.withProgress progress)
    (Callback.preserves progress)

def saveTotal (volunteer : ℕ) (total : Hundredths) : Tx Unit :=
  rewriteRows Store.profileTable (·.pk = volunteer) (.withTotal total)
    (VolunteerProfile.preserves total)

/-- `get_or_create`; a row that another callback inserts after the look is found by the index. -/
def getOrCreateMilestone (volunteer : ℕ) (threshold : Hundredths) : Tx Unit := do
  let s ← get
  if s.milestones.rows.any fun m => m.volunteer = volunteer ∧ m.hoursThreshold = threshold then
    return ()
  else
    let _ ← append Store.milestoneTable .ofViolation fun pk =>
      { pk, volunteer, hoursThreshold := threshold }

/-- The next block of a callback: the sum of `_recompute_total_hours`, its write, and then each
round of `_check_milestones`. -/
def runCallback (c : Callback) : LedgerTx Unit :=
  match c.progress with
  | .queued => do
    let profile ← zoom Ledger.storeLens (profileOf c.volunteer)
    let u ← get
    saveProgress c.pk (.summed (u.store.approvedHours profile.pk))
  | .summed total => do
    zoom Ledger.storeLens (saveTotal c.volunteer total)
    saveProgress c.pk
      (.awarding (milestoneThresholds.filter fun threshold =>
        c.oldTotal < threshold ∧ threshold ≤ total))
  | .awarding (threshold :: rest) => do
    zoom Ledger.storeLens (getOrCreateMilestone c.volunteer threshold)
    saveProgress c.pk (.awarding rest)
  | .awarding [] => removeRows Ledger.callbackTable (·.pk = c.pk)

/-- Whether a callback would wait for the lock of the profile. -/
def Ledger.waits (u : Ledger) (c : Callback) : Bool :=
  c.progress = .queued ∧ u.callbacks.rows.any fun a => a.volunteer = c.volunteer ∧ a.locks

/-! ## Calls -/

inductive HoursCall where
  | approve (log : ℕ) (actor : Actor)
  | reject (log : ℕ) (actor : Actor) (reason : String)
deriving DecidableEq, Repr

def HoursCall.checks : HoursCall → Tx Unit
  | approve log actor => approveHoursChecks log actor
  | reject log actor reason => rejectHoursChecks log actor reason

inductive HoursWorker where
  | called (c : HoursCall)
  | checked (c : HoursCall)
  | holding (log : ℕ) (actor : Actor) (oldTotal : Hundredths)
  | returned (c : HoursCall)
  | raised (c : HoursCall) (e : VolunteerError)
  | dead
deriving DecidableEq, Repr

namespace HoursWorker

def entry : HoursWorker → Bool
  | called _ => true
  | _ => false

def act (u : Ledger) : HoursWorker → Unit → Option (Ledger × HoursWorker)
  | called c, () =>
    match commit c.checks u.store with
    | (.ok _, _) => some (u, checked c)
    | (.error e, _) => some (u, raised c e)
  | checked (.approve log actor), () =>
    match commit (readOldTotal log) u.store with
    | (.ok oldTotal, _) => some (u, holding log actor oldTotal)
    | (.error e, _) => some (u, raised (.approve log actor) e)
  | holding log actor oldTotal, () =>
    match commit (commitApproval log actor oldTotal) u with
    | (.ok _, v) => some (v, returned (.approve log actor))
    | (.error e, _) => some (u, raised (.approve log actor) e)
  | checked (.reject log actor reason), () =>
    match commit (commitRejection log reason) u with
    | (.ok _, v) => some (v, returned (.reject log actor reason))
    | (.error e, _) => some (u, raised (.reject log actor reason) e)
  | returned _, _ => none
  | raised _ _, _ => none
  | dead, _ => none

end HoursWorker

/-- What happens besides the calls: a volunteer registers, logs hours, or a pending callback runs
its next block. A callback that raises ends. -/
inductive LedgerEvent where
  | pass (time : ℕ)
  | register (user : ℕ)
  | log (volunteer : ℕ) (opportunity shift : Option ℕ) (hours : Hundredths) (description : String)
  | callback (pk : ℕ)
deriving DecidableEq, Repr

/-- A new log is pending, and belongs to a volunteer. -/
def insertLog (volunteer : ℕ) (opportunity shift : Option ℕ) (hours : Hundredths)
    (description : String) : Tx Unit := do
  let profile ← profileOf volunteer
  let _ ← append Store.logTable .ofViolation fun pk =>
    { pk, volunteer := profile.pk, opportunity, shift, hours, description }

def insertProfile (user : ℕ) : Tx Unit := do
  let _ ← append Store.profileTable .ofViolation fun pk => { pk, user }

/-- Any number of calls and callbacks, interleaved; no hours have been logged yet. -/
def hoursLedger : Program Ledger HoursWorker Unit LedgerEvent where
  Init u := u.store.hoursLogs = .empty ∧ u.store.profiles = .empty ∧ u.store.milestones = .empty ∧
    u.callbacks = .empty ∧ u.decided = []
  entry := HoursWorker.entry
  halted := .dead
  act := HoursWorker.act
  env u
    | .pass time => some { u with store := { u.store with now := u.store.now + time } }
    | .register user => some (commit (zoom Ledger.storeLens (insertProfile user)) u).2
    | .log volunteer opportunity shift hours description =>
      some (commit (zoom Ledger.storeLens
        (insertLog volunteer opportunity shift hours description)) u).2
    | .callback pk => (u.callbacks.get pk).bind fun c =>
      if u.waits c then none
      else match commit (runCallback c) u with
        | (.ok _, v) => some v
        | (.error _, v) => some { v with callbacks := v.callbacks.keep (·.pk ≠ pk) }

end Civicos.Volunteers
