import Civicos.Scheduler.Runtime
import Civicos.Library.Machine

/-!
# The scheduler as a system

Alert schedules are made and modified through the GovStack interface. A state is the store, with
the admissions that calls have asked of a current schedule; every transaction is one step, in any
order, at any clock reading and with any token.
-/
namespace Civicos.Scheduler

open Library Library.Transaction
open Payments (Uuid Json Digest clip)
open Appointments (Instant)

/-! ## Alert schedules -/

/-- `_validate_target_category` -/
def validateTargetCategory (targetCategory : String) : Tx Unit := do
  if targetCategory ∉ ["", "subscriber", "resource"] then
    throw (.valueError ("Invalid target_category '" ++ targetCategory ++
      "'. Must be one of: 'subscriber', 'resource', or blank (all)."))

def resolveEvent (event : Uuid) : Tx Unit := do
  let s ← get
  if event ∉ s.events then throw (.doesNotExist "Slot")

/-- `_resolve_message`; `none` is an id that is not an integer. -/
def resolveMessage (message : Option ℕ) : Tx ℕ := fun s =>
  match message.filter (· ∈ s.messages) with
  | some pk => .ok (pk, s)
  | none => .error (.doesNotExist "GovStackMessage")

/-- `_parse_datetime_str`, whose result is given, and `_validate_future_datetime`. -/
def futureDatetime (parsed : Except String Instant) (now : Instant) : Tx Instant := fun s =>
  match parsed with
  | .error message => .error (.valueError message)
  | .ok instant =>
    if instant ≤ now then .error (.valueError "alert_datetime must be in the future.")
    else .ok (instant, s)

structure AlertCreation where
  event : Uuid
  message : Option ℕ
  targetCategory : String := ""
  alertDatetime : Except String Instant
deriving DecidableEq

def alertScheduleCreate (r : AlertCreation) (now : Instant) : Tx AlertSchedule := do
  validateTargetCategory r.targetCategory
  resolveEvent r.event
  let message ← resolveMessage r.message
  let alertDatetime ← futureDatetime r.alertDatetime now
  add Store.scheduleTable fun pk =>
    { pk, slot := r.event, message, targetCategory := r.targetCategory, alertDatetime }

structure AlertChanges where
  event : Option Uuid := none
  targetCategory : Option String := none
  message : Option (Option ℕ) := none
  alertDatetime : Option (Except String Instant) := none
deriving DecidableEq

/-- The new value of a column that is only checked when it is supplied. -/
def supplied {α β : Type} (value : Option α) (current : β) (check : α → Tx β) : Tx β :=
  match value with
  | none => return current
  | some a => check a

/-- Whether a task has to be rescheduled, and the task before. -/
def alertScheduleModify (schedule : ℕ) (r : AlertChanges) (now : Instant) :
    Tx (Bool × String) := do
  let row ← scheduleRow schedule
  let slot ← supplied r.event row.slot fun event => do
    resolveEvent event
    return event
  let targetCategory ← supplied r.targetCategory row.targetCategory fun category => do
    validateTargetCategory category
    return category
  let message ← supplied r.message row.message resolveMessage
  let alertDatetime ← supplied r.alertDatetime row.alertDatetime (futureDatetime · now)
  let moved := alertDatetime ≠ row.alertDatetime
  if slot ≠ row.slot ∨ targetCategory ≠ row.targetCategory ∨ message ≠ row.message ∨ moved then
    let _ ← fenceScheduleForModify row now
  saveSchedule row.pk (fun x => { x with
    slot
    targetCategory
    message
    alertDatetime
    dispatched := row.dispatched ∧ ¬ moved }) (AlertSchedule.preserves fun _ => rfl)
  return (moved ∨ ¬ row.dispatched ∧ message ≠ row.message, row.celeryTaskId)

/-! ## Operations -/

inductive Operation where
  | alertScheduleCreate (r : AlertCreation) (now : Instant)
  | alertScheduleModify (schedule : ℕ) (r : AlertChanges) (now : Instant)
  | fenceScheduleForModify (schedule : ℕ) (now : Instant)
  | admitScheduleGeneration (r : AdmissionRequest) (now : Instant)
  | dispatchAlertSchedule (schedule : ℕ) (recipients : List Recipient) (now : Instant)
  | claim (key : Digest String) (leaseSeconds : ℤ) (now : Instant) (token : Uuid)
  | succeed (key : Digest String) (leaseToken : Uuid)
  | fail (key : Digest String) (leaseToken : Uuid) (errorClass : String) (now : Instant)
  | acknowledge (key : Digest String) (now : Instant)
  | replay (key : Digest String) (now : Instant)
  | reapExpired (now : Instant)
  | cancelSchedule (schedule : ℕ) (now : Instant)
  | deleteSchedule (schedule : ℕ) (now : Instant)
  | rearmSchedule (schedule : ℕ) (now : Instant)
  | claimOutbox (leaseSeconds : ℤ) (owner : String) (now : Instant) (token : Uuid)
  | markOutboxPublished (outbox : ℕ) (token : Uuid) (generation : ℕ) (now : Instant)
  | markOutboxFailed (outbox : ℕ) (token : Uuid) (generation : ℕ) (errorClass : String)
      (unknownHandoff : Bool) (now : Instant)
  | replayOutbox (outbox : ℕ) (now : Instant)
deriving DecidableEq

namespace Operation

/-- The transaction of an operation, without the value that it returns. -/
def perform : Operation → Tx Unit
  | alertScheduleCreate r now => do
    let _ ← Scheduler.alertScheduleCreate r now
  | alertScheduleModify schedule r now => do
    let _ ← Scheduler.alertScheduleModify schedule r now
  | fenceScheduleForModify schedule now => do
    let row ← scheduleRow schedule
    let _ ← Scheduler.fenceScheduleForModify row now
  | admitScheduleGeneration r now => do
    let _ ← Scheduler.admitScheduleGeneration r now
  | dispatchAlertSchedule schedule recipients now => do
    let _ ← Scheduler.dispatchAlertSchedule schedule recipients now
  | claim key leaseSeconds now token => do
    let _ ← Scheduler.claim key leaseSeconds now token
  | succeed key leaseToken => do
    let _ ← Scheduler.succeed key leaseToken
  | fail key leaseToken errorClass now => do
    let _ ← Scheduler.fail key leaseToken errorClass now
  | acknowledge key now => do
    let _ ← Scheduler.acknowledge key now
  | replay key now => do
    let _ ← Scheduler.replay key now
  | reapExpired now => do
    let _ ← Scheduler.reapExpired now
  | cancelSchedule schedule now => do
    let _ ← Scheduler.cancelSchedule schedule now
  | deleteSchedule schedule now => do
    let _ ← Scheduler.deleteSchedule schedule now
  | rearmSchedule schedule now => do
    let _ ← Scheduler.rearmSchedule schedule now
  | claimOutbox leaseSeconds owner now token => do
    let _ ← Scheduler.claimOutbox leaseSeconds owner now token
  | markOutboxPublished outbox token generation now => do
    let _ ← Scheduler.markOutboxPublished outbox token generation now
  | markOutboxFailed outbox token generation errorClass unknownHandoff now => do
    let _ ← Scheduler.markOutboxFailed outbox token generation errorClass unknownHandoff now
  | replayOutbox outbox now => do
    let _ ← Scheduler.replayOutbox outbox now

end Operation

/-! ## The machine -/

/-- One recipient of one generation of a schedule. -/
structure Target where
  schedule : ℕ
  generation : ℕ
  recipient : Recipient
deriving DecidableEq, Repr

namespace Store

/-- The targets that an admission asks for, if the schedule may be admitted in that generation. -/
def targets (s : Store) (schedule : ℕ) (expected : ℕ → Bool) (recipients : List Recipient) :
    List Target :=
  match s.schedules.get schedule with
  | none => []
  | some x =>
    if x.deliveryAdmittable ∧ expected x.deliveryGeneration then
      recipients.map fun recipient => ⟨x.pk, x.deliveryGeneration, recipient⟩
    else []

end Store

def Operation.requests (s : Store) : Operation → List Target
  | admitScheduleGeneration r _ =>
    s.targets r.schedule (fun generation => r.expectedGeneration = generation) r.recipients
  | dispatchAlertSchedule schedule recipients _ => s.targets schedule (fun _ => true) recipients
  | _ => []

structure State where
  store : Store
  requested : List Target := []

/-- No schedules yet; events, messages and settings are whatever they are. -/
structure Store.Initial (s : Store) : Prop where
  schedules : s.schedules = .empty
  deliveries : s.deliveries = .empty
  outbox : s.outbox = .empty

def system : Machine State Operation where
  Init s := s.store.Initial ∧ s.requested = []
  step s op := some {
    store := (commit op.perform s.store).2
    requested := s.requested ++ op.requests s.store }

/-- One event and one message. -/
def oneEvent : State := { store := { events := [1], messages := [1] } }

theorem oneEvent_initial : system.Init oneEvent := ⟨⟨rfl, rfl, rfl⟩, rfl⟩

end Civicos.Scheduler
