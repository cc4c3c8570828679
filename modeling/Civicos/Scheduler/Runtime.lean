import Mathlib.Data.List.Dedup
import Mathlib.Data.List.Sort
import Civicos.Scheduler.Store

/-!
# The scheduler runtime

Admission of schedule generations, the leases of deliveries, fencing, and the publisher's outbox.
Every function is one transaction; workers do their I/O between two of them.
-/
namespace Civicos.Scheduler

open Library Library.Transaction
open Payments (Uuid Json Digest clip)
open Appointments (Instant)

/-! ## Rows -/

/-- A new row under the next number. -/
def add {α : Type} {S : Schema α} (ℓ : Lens Store (Numbered S)) (build : ℕ → α) : Tx α := fun s =>
  match (ℓ.get s).insert build with
  | .ok t => .ok (build (ℓ.get s).next, ℓ.set t s)
  | .error v => .error (.ofViolation v)

def scheduleRow (schedule : ℕ) : Tx AlertSchedule := fun s =>
  match s.schedules.get schedule with
  | some x => .ok (x, s)
  | none => .error (.doesNotExist "GovStackAlertSchedule")

def saveSchedule (schedule : ℕ) (f : AlertSchedule → AlertSchedule)
    (hf : AlertSchedule.schema.Preserves f) : Tx Unit :=
  modify fun s => { s with schedules := s.schedules.rewrite (·.pk = schedule) f hf }

def deliveryOf (key : Digest String) : Tx RecipientDelivery := fun s =>
  match s.deliveries.rows.find? (·.idempotencyKey = key) with
  | some d => .ok (d, s)
  | none => .error (.doesNotExist "SchedulerRecipientDelivery")

def updateDeliveries (p : RecipientDelivery → Bool) (f : RecipientDelivery → DeliveryState) :
    Tx Unit :=
  modify fun s => { s with
    deliveries := s.deliveries.rewrite p (.withState f) (RecipientDelivery.preserves f) }

def updateOutbox (p : SchedulerOutbox → Bool) (f : SchedulerOutbox → OutboxState) : Tx Unit :=
  modify fun s => { s with
    outbox := s.outbox.rewrite p (.withState f) (SchedulerOutbox.preserves f) }

/-! ## Admission -/

/-- `recipient_idempotency_key` -/
def recipientIdempotencyKey (schedule generation : ℕ) (recipient : Recipient) : Digest String :=
  .sha256 (toString schedule ++ ":" ++ toString generation ++ ":" ++ recipient.kind ++ ":" ++
    recipient.ref)

/-- `sorted` on the pairs. -/
def Recipient.le (a b : Recipient) : Bool :=
  a.kind.toList < b.kind.toList ∨ a.kind = b.kind ∧ ¬ b.ref.toList < a.ref.toList

def canonicalRecipients (recipients : List Recipient) : List Recipient :=
  recipients.dedup.insertionSort fun a b => a.le b

structure AdmissionRequest where
  schedule : ℕ
  expectedGeneration : ℤ
  recipients : List Recipient
  ownerKey : Option String := none
  correlationId : Option String := none
  payload : Option Json := none
  maxAttempts : ℕ := 3
deriving DecidableEq

structure Admission where
  outcome : AdmissionOutcome
  generation : ℕ
  created : ℕ := 0
  deliveries : List RecipientDelivery := []
deriving DecidableEq

/-- `value or default` -/
def orDefault (value : Option String) (default : String) : String :=
  (value.filter (· ≠ "")).getD default

namespace Store

def deliveryFor (s : Store) (schedule generation : ℕ) (recipient : Recipient) :
    Option RecipientDelivery :=
  s.deliveries.rows.find? fun d =>
    d.schedule = schedule ∧ d.dispatchGeneration = generation ∧ d.recipient = recipient

end Store

def newDelivery (r : AdmissionRequest) (schedule generation : ℕ) (recipient : Recipient)
    (now : Instant) (pk : ℕ) : RecipientDelivery :=
  { pk
    schedule
    dispatchGeneration := generation
    recipient
    idempotencyKey := recipientIdempotencyKey schedule generation recipient
    ownerKey := clip 180 (orDefault r.ownerKey ("schedule:" ++ toString schedule))
    correlationId := clip 180 (orDefault r.correlationId
      ("scheduler:" ++ toString schedule ++ ":" ++ toString generation))
    payload := r.payload.getD []
    maxAttempts := r.maxAttempts
    nextAttemptAt := some now }

/-- `_materialize_locked`. When the insert fails, `get_or_create` looks again; the schedule is
locked, so that nobody else has inserted the row, and the error is raised. -/
def materializeLocked (r : AdmissionRequest) (schedule generation : ℕ) (now : Instant)
    (recipient : Recipient) : Tx (RecipientDelivery × Bool) := do
  let s ← get
  match s.deliveryFor schedule generation recipient with
  | some delivery => return (delivery, false)
  | none =>
    let delivery ← add Store.deliveryTable (newDelivery r schedule generation recipient now)
    let _ ← add Store.outboxTable fun pk => { pk, delivery := delivery.pk, availableAt := now }
    return (delivery, true)

def materializeAll (r : AdmissionRequest) (schedule generation : ℕ) (now : Instant) :
    List Recipient → Tx (List RecipientDelivery × ℕ)
  | [] => return ([], 0)
  | recipient :: rest => do
    let (delivery, created) ← materializeLocked r schedule generation now recipient
    let (deliveries, count) ← materializeAll r schedule generation now rest
    return (delivery :: deliveries, (if created then 1 else 0) + count)

theorem AlertSchedule.preserves {f : AlertSchedule → AlertSchedule} (h : ∀ x, (f x).pk = x.pk) :
    AlertSchedule.schema.Preserves f where
  pk := h
  key i hi := by simp [AlertSchedule.schema] at hi
  valid _ _ c hc := by simp [AlertSchedule.schema] at hc

def markAdmitted (schedule generation : ℕ) (outcome : AdmissionOutcome) : Tx Unit :=
  saveSchedule schedule (fun x => { x with
    admittedGeneration := some generation
    admissionOutcome := some outcome }) (AlertSchedule.preserves fun _ => rfl)

def admitScheduleGeneration (r : AdmissionRequest) (now : Instant) : Tx Admission := do
  let schedule ← scheduleRow r.schedule
  let generation := schedule.deliveryGeneration
  if !schedule.deliveryAdmittable then
    return { outcome := .notAdmittable, generation }
  else if r.expectedGeneration ≠ generation then
    return { outcome := .staleGeneration, generation }
  else if canonicalRecipients r.recipients = [] then
    if schedule.admittedGeneration = some generation then
      return { outcome := .duplicate, generation }
    else
      markAdmitted schedule.pk generation .zeroRecipients
      return { outcome := .zeroRecipients, generation }
  else
    let (deliveries, created) ←
      materializeAll r schedule.pk generation now (canonicalRecipients r.recipients)
    if schedule.admittedGeneration = some generation ∧ created = 0 then
      return { outcome := .duplicate, generation, deliveries }
    else
      markAdmitted schedule.pk generation .created
      return { outcome := .created, generation, created, deliveries }

/-- `dispatch_alert_schedule`, with the recipients that it finds among bookings, staff and
resources: whatever generation is current is admitted. -/
def dispatchAlertSchedule (schedule : ℕ) (recipients : List Recipient) (now : Instant) :
    Tx Admission := do
  let row ← scheduleRow schedule
  admitScheduleGeneration {
    schedule := row.pk
    expectedGeneration := row.deliveryGeneration
    recipients
    ownerKey := some ("schedule:" ++ toString row.pk)
    correlationId := some ("scheduler:" ++ toString row.pk ++ ":" ++ toString
      row.deliveryGeneration)
    payload := some [] } now

/-! ## Deliveries -/

/-- `claim`; `token` is the new lease token. -/
def claim (key : Digest String) (leaseSeconds : ℤ) (now : Instant) (token : Uuid) :
    Tx (Option Uuid) := do
  let row ← deliveryOf key
  if row.status.isTerminal ∨ row.nextAttemptAt.any (now < ·) ∨ row.leaseExpiresAt.any (now < ·) then
    return none
  else
    updateDeliveries (·.pk = row.pk) fun d => { d.toDeliveryState with
      status := .inFlight
      attempts := row.attempts + 1
      leaseToken := some token
      leaseExpiresAt := some (now + seconds leaseSeconds) }
    return some token

/-- `_with_valid_lease` -/
def RecipientDelivery.heldBy (d : RecipientDelivery) (leaseToken : Uuid) : Bool :=
  d.status = .inFlight ∧ d.leaseToken = some leaseToken

def succeed (key : Digest String) (leaseToken : Uuid) : Tx Bool := do
  let row ← deliveryOf key
  if !row.heldBy leaseToken then return false
  else
    updateDeliveries (·.pk = row.pk) fun d => { d.toDeliveryState with
      status := .delivered
      leaseToken := none
      leaseExpiresAt := none
      lastError := "" }
    return true

/-- What becomes of an attempt that has failed, or whose lease has run out. -/
def RecipientDelivery.failed (d : RecipientDelivery) (now retryAt : Instant) : DeliveryState :=
  if d.maxAttempts ≤ d.attempts then
    { d.toDeliveryState with
      leaseToken := none
      leaseExpiresAt := none
      status := .deadLetter
      deadLetteredAt := some now
      nextAttemptAt := none }
  else
    { d.toDeliveryState with
      leaseToken := none
      leaseExpiresAt := none
      status := .retry
      nextAttemptAt := some retryAt }

def fail (key : Digest String) (leaseToken : Uuid) (errorClass : String) (now : Instant) :
    Tx Bool := do
  let row ← deliveryOf key
  if !row.heldBy leaseToken then return false
  else
    updateDeliveries (·.pk = row.pk) fun d =>
      { d.failed now (now + seconds (min 3600 (2 ^ min d.attempts 10))) with
        lastError := clip 240 errorClass }
    return true

def acknowledge (key : Digest String) (now : Instant) : Tx Bool := do
  let row ← deliveryOf key
  if row.status ≠ .delivered then return false
  else
    updateDeliveries (·.pk = row.pk) fun d => { d.toDeliveryState with
      status := .acknowledged
      acknowledgedAt := some now }
    return true

def replay (key : Digest String) (now : Instant) : Tx Bool := do
  let row ← deliveryOf key
  if row.status ≠ .deadLetter then return false
  else
    updateDeliveries (·.pk = row.pk) fun d => { d.toDeliveryState with
      status := .retry
      nextAttemptAt := some now
      lastError := ""
      deadLetteredAt := none }
    return true

def RecipientDelivery.expired (now : Instant) (d : RecipientDelivery) : Bool :=
  d.status = .inFlight ∧ d.leaseExpiresAt.any (· < now)

def reapExpired (now : Instant) : Tx ℕ := do
  let s ← get
  updateDeliveries (·.expired now) fun d => d.failed now now
  return s.deliveries.rows.countP (·.expired now)

/-! ## Fencing -/

/-- The rows that `_fence_locked_schedule_child_work` cancels. -/
def RecipientDelivery.fencedBy (schedule : ℕ) (d : RecipientDelivery) : Bool :=
  d.schedule = schedule ∧ !d.status.isTerminal

/-- An outbox row of one of the schedule's deliveries that may still be published. -/
def SchedulerOutbox.fencedBy (deliveries : List RecipientDelivery) (schedule : ℕ)
    (o : SchedulerOutbox) : Bool :=
  (deliveries.any fun d => d.pk = o.delivery ∧ d.schedule = schedule) ∧
    o.publishedAt = none ∧ o.cancelledAt = none

def fenceLockedScheduleChildWork (schedule : ℕ) (now : Instant) : Tx ℕ := do
  let s ← get
  updateDeliveries (·.fencedBy schedule) fun d => { d.toDeliveryState with
    status := .cancelled
    cancelledAt := some now
    leaseToken := none
    leaseExpiresAt := none }
  updateOutbox (·.fencedBy s.deliveries.rows schedule) fun o => { o.toOutboxState with
    cancelledAt := some now
    publisherState := .cancelled
    publisherStateChangedAt := some now
    publisherToken := none
    publisherOwner := ""
    publisherLeaseExpiresAt := none }
  return s.deliveries.rows.countP (·.fencedBy schedule)

/-- The next generation, not yet admitted. -/
def advanceGeneration (schedule : AlertSchedule) : Tx Unit :=
  saveSchedule schedule.pk (fun x => { x with
    deliveryGeneration := schedule.deliveryGeneration + 1
    deliveryAdmittable := true
    admittedGeneration := none
    admissionOutcome := none }) (AlertSchedule.preserves fun _ => rfl)

/-- The caller holds the row. -/
def fenceScheduleForModify (schedule : AlertSchedule) (now : Instant) : Tx ℕ := do
  let fenced ← fenceLockedScheduleChildWork schedule.pk now
  advanceGeneration schedule
  return fenced

def cancelSchedule (schedule : ℕ) (now : Instant) : Tx ℕ := do
  let row ← scheduleRow schedule
  saveSchedule row.pk (fun x => { x with
    deliveryAdmittable := false
    admittedGeneration := none
    admissionOutcome := none }) (AlertSchedule.preserves fun _ => rfl)
  fenceLockedScheduleChildWork row.pk now

/-- Deliveries and outbox rows go with their schedule. -/
def deleteCascade (schedule : ℕ) : Tx Unit :=
  modify fun s => { s with
    schedules := s.schedules.keep (·.pk ≠ schedule)
    deliveries := s.deliveries.keep (·.schedule ≠ schedule)
    outbox := s.outbox.keep fun o =>
      !s.deliveries.rows.any fun d => d.pk = o.delivery ∧ d.schedule = schedule }

def deleteSchedule (schedule : ℕ) (now : Instant) : Tx ℕ := do
  let row ← scheduleRow schedule
  let fenced ← fenceLockedScheduleChildWork row.pk now
  deleteCascade row.pk
  return fenced

/-- `fenced` is not given for a schedule that is admittable anyway. -/
def rearmSchedule (schedule : ℕ) (now : Instant) : Tx (ℕ × Option ℕ) := do
  let row ← scheduleRow schedule
  if row.deliveryAdmittable then return (row.deliveryGeneration, none)
  else
    let fenced ← fenceLockedScheduleChildWork row.pk now
    advanceGeneration row
    return (row.deliveryGeneration + 1, some fenced)

/-! ## The publisher -/

/-- `_publisher_backoff` -/
def PublisherPolicy.backoff (p : PublisherPolicy) (attempt : ℕ) : Instant :=
  seconds (min p.maxSeconds (p.baseSeconds * 2 ^ (attempt - 1)))

/-- `_clear_publisher_lease` -/
def OutboxState.withoutLease (o : OutboxState) : OutboxState :=
  { o with publisherToken := none, publisherOwner := "", publisherLeaseExpiresAt := none }

namespace SchedulerOutbox

/-- Neither published nor cancelled. -/
def isOpen (o : SchedulerOutbox) : Bool := o.publishedAt = none ∧ o.cancelledAt = none

def claimable (now : Instant) (o : SchedulerOutbox) : Bool :=
  o.isOpen ∧ o.availableAt ≤ now ∧
    (o.publisherState ∈ [PublisherState.pending, .localFailure, .unknownHandoff] ∨
      o.publisherState = .claimed ∧ o.publisherLeaseExpiresAt.any (· < now)) ∧
    o.publisherLeaseExpiresAt.all (· < now)

/-- The row is claimed under this token and generation. -/
def claimedBy (outbox : ℕ) (token : Uuid) (generation : ℕ) (o : SchedulerOutbox) : Bool :=
  o.pk = outbox ∧ o.isOpen ∧ o.publisherState = .claimed ∧ o.publisherToken = some token ∧
    o.publisherGeneration = generation

end SchedulerOutbox

structure OutboxClaim where
  outbox : ℕ
  idempotencyKey : Digest String
  token : Uuid
  generation : ℕ
deriving DecidableEq

/-- `claim_outbox`; rows stand in the order of their ids. -/
def claimOutbox (leaseSeconds : ℤ) (owner : String) (now : Instant) (token : Uuid) :
    Tx (Option OutboxClaim) := do
  let s ← get
  match s.outbox.rows.find? (·.claimable now) with
  | none => return none
  | some row =>
    if s.policy.maxAttempts ≤ row.publishAttempts then
      updateOutbox (·.pk = row.pk) fun o => { o.withoutLease with
        publisherState := .exhausted
        exhaustedAt := some now
        publisherStateChangedAt := some now }
      return none
    else
      updateOutbox (·.pk = row.pk) fun o => { o.toOutboxState with
        publisherGeneration := row.publisherGeneration + 1
        publisherToken := some token
        publisherOwner := clip 120 owner
        publisherLeaseExpiresAt := some (now + seconds leaseSeconds)
        publishAttempts := row.publishAttempts + 1
        publisherState := .claimed
        publisherStateChangedAt := some now }
      match s.deliveries.get row.delivery with
      | none => throw (.doesNotExist "SchedulerRecipientDelivery")
      | some delivery =>
        return some ⟨row.pk, delivery.idempotencyKey, token, row.publisherGeneration + 1⟩

def markOutboxPublished (outbox : ℕ) (token : Uuid) (generation : ℕ) (now : Instant) :
    Tx Bool := do
  let s ← get
  updateOutbox (·.claimedBy outbox token generation) fun o => { o.withoutLease with
    publishedAt := some now
    publisherState := .published
    publisherStateChangedAt := some now
    publisherFailureClass := ""
    exhaustedAt := none
    lastError := "" }
  return s.outbox.rows.any (·.claimedBy outbox token generation)

/-- What becomes of a claimed row whose publication has failed. -/
def SchedulerOutbox.failed (o : SchedulerOutbox) (policy : PublisherPolicy) (errorClass : String)
    (unknownHandoff : Bool) (now : Instant) : OutboxState :=
  let state := { o.withoutLease with
    publisherFailureClass := clip 32 errorClass
    lastError := clip 240 errorClass
    publisherStateChangedAt := some now }
  if policy.maxAttempts ≤ o.publishAttempts then
    { state with
      publisherState := .exhausted
      exhaustedAt := some now
      availableAt := now }
  else
    { state with
      publisherState := if unknownHandoff then .unknownHandoff else .localFailure
      availableAt := now + policy.backoff o.publishAttempts }

/-- `mark_outbox_failed`, and with `unknownHandoff` `mark_outbox_unknown_handoff`. -/
def markOutboxFailed (outbox : ℕ) (token : Uuid) (generation : ℕ) (errorClass : String)
    (unknownHandoff : Bool) (now : Instant) : Tx Bool := do
  let s ← get
  updateOutbox (·.claimedBy outbox token generation) fun o =>
    o.failed s.policy errorClass unknownHandoff now
  return s.outbox.rows.any (·.claimedBy outbox token generation)

def SchedulerOutbox.replayable (outbox : ℕ) (o : SchedulerOutbox) : Bool :=
  o.pk = outbox ∧ o.publisherState = .exhausted ∧ o.isOpen

def replayOutbox (outbox : ℕ) (now : Instant) : Tx Bool := do
  let s ← get
  updateOutbox (·.replayable outbox) fun o => { o.withoutLease with
    publisherState := .pending
    publisherFailureClass := ""
    publisherStateChangedAt := some now
    exhaustedAt := none
    publishAttempts := 0
    availableAt := now }
  return s.outbox.rows.any (·.replayable outbox)

end Civicos.Scheduler
