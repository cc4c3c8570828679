import Civicos.Library.Numbered
import Civicos.Appointments.Store

/-!
# The alert scheduler: rows

Alert schedules, the deliveries to single recipients and the publisher's outbox. A delivery and an
outbox row have columns that never change, and columns of their state.
-/
namespace Civicos.Scheduler

open Library Library.Transaction
open Payments (Uuid Json Digest clip)
open Appointments (Instant)

def seconds (n : ℤ) : Instant := n * 1000000

/-! ## Schedules -/

inductive AdmissionOutcome where
  | notAdmittable
  | staleGeneration
  | duplicate
  | zeroRecipients
  | created
deriving DecidableEq, Repr

structure AlertSchedule where
  pk : ℕ
  slot : Uuid
  message : ℕ
  targetCategory : String := ""
  alertDatetime : Instant
  celeryTaskId : String := ""
  dispatched : Bool := false
  deliveryGeneration : ℕ := 1
  deliveryAdmittable : Bool := true
  admittedGeneration : Option ℕ := none
  admissionOutcome : Option AdmissionOutcome := none
deriving DecidableEq, Repr

def AlertSchedule.schema : Schema AlertSchedule where
  pk := pk

/-! ## Deliveries -/

inductive DeliveryStatus where
  | pending
  | inFlight
  | retry
  | delivered
  | acknowledged
  | cancelled
  | deadLetter
deriving DecidableEq, Repr

/-- `TERMINAL` -/
def DeliveryStatus.isTerminal (s : DeliveryStatus) : Bool :=
  s ∈ [delivered, acknowledged, cancelled, deadLetter]

structure Recipient where
  kind : String
  ref : String
deriving DecidableEq, Repr

structure DeliveryState where
  status : DeliveryStatus := .pending
  attempts : ℕ := 0
  nextAttemptAt : Option Instant := none
  leaseToken : Option Uuid := none
  leaseExpiresAt : Option Instant := none
  lastError : String := ""
  acknowledgedAt : Option Instant := none
  cancelledAt : Option Instant := none
  deadLetteredAt : Option Instant := none
deriving DecidableEq, Repr

structure RecipientDelivery extends DeliveryState where
  pk : ℕ
  schedule : ℕ
  dispatchGeneration : ℕ
  recipient : Recipient
  idempotencyKey : Digest String
  correlationId : String
  ownerKey : String
  payload : Json := []
  maxAttempts : ℕ := 3
deriving DecidableEq

namespace RecipientDelivery

def uniqueKey : Index RecipientDelivery where
  name := "idempotency_key"
  Key := Digest String
  key d := some d.idempotencyKey

def uniqueRecipient : Index RecipientDelivery where
  name := "appt_sched_delivery_generation_recipient_uniq"
  Key := ℕ × ℕ × Recipient
  key d := some (d.schedule, d.dispatchGeneration, d.recipient)

def schema : Schema RecipientDelivery where
  pk := pk
  indexes := [uniqueKey, uniqueRecipient]
  checks := [
    .width "recipient_kind" 30 (·.recipient.kind),
    .width "recipient_ref" 180 (·.recipient.ref),
    .width "correlation_id" 180 correlationId,
    .width "owner_key" 180 ownerKey]

def withState (f : RecipientDelivery → DeliveryState) (d : RecipientDelivery) : RecipientDelivery :=
  { d with toDeliveryState := f d }

theorem preserves (f : RecipientDelivery → DeliveryState) : schema.Preserves (withState f) where
  pk _ := rfl
  key i hi d := by
    simp only [schema, List.mem_cons, List.not_mem_nil, or_false] at hi
    obtain rfl | rfl := hi <;> rfl
  valid d hd c hc := by
    have hholds := hd c hc
    simp only [schema, List.mem_cons, List.not_mem_nil, or_false] at hc
    obtain rfl | rfl | rfl | rfl := hc <;> exact hholds

end RecipientDelivery

/-! ## The outbox -/

inductive PublisherState where
  | pending
  | claimed
  | localFailure
  | unknownHandoff
  | published
  | exhausted
  | cancelled
deriving DecidableEq, Repr

structure OutboxState where
  publishedAt : Option Instant := none
  cancelledAt : Option Instant := none
  availableAt : Instant
  publishAttempts : ℕ := 0
  publisherState : PublisherState := .pending
  publisherFailureClass : String := ""
  publisherStateChangedAt : Option Instant := none
  exhaustedAt : Option Instant := none
  publisherGeneration : ℕ := 0
  publisherToken : Option Uuid := none
  publisherOwner : String := ""
  publisherLeaseExpiresAt : Option Instant := none
  lastError : String := ""
deriving DecidableEq, Repr

structure SchedulerOutbox extends OutboxState where
  pk : ℕ
  delivery : ℕ
deriving DecidableEq, Repr

namespace SchedulerOutbox

def uniqueDelivery : Index SchedulerOutbox where
  name := "delivery_id"
  Key := ℕ
  key o := some o.delivery

def schema : Schema SchedulerOutbox where
  pk := pk
  indexes := [uniqueDelivery]

def withState (f : SchedulerOutbox → OutboxState) (o : SchedulerOutbox) : SchedulerOutbox :=
  { o with toOutboxState := f o }

theorem preserves (f : SchedulerOutbox → OutboxState) : schema.Preserves (withState f) where
  pk _ := rfl
  key i hi o := by
    simp only [schema, List.mem_singleton] at hi
    rw [hi]
    rfl
  valid _ _ c hc := by simp [schema] at hc

end SchedulerOutbox

/-! ## The store -/

/-- `GOVSTACK_SCHEDULER_PUBLISH_MAX_ATTEMPTS` and the two settings of the back-off. -/
structure PublisherPolicy where
  maxAttempts : ℤ := 3
  baseSeconds : ℤ := 30
  maxSeconds : ℤ := 900
deriving DecidableEq, Repr

structure Store where
  policy : PublisherPolicy := {}
  events : List Uuid := []
  messages : List ℕ := []
  schedules : Numbered AlertSchedule.schema := .empty
  deliveries : Numbered RecipientDelivery.schema := .empty
  outbox : Numbered SchedulerOutbox.schema := .empty

inductive SchedulerError where
  | doesNotExist (model : String)
  | valueError (message : String)
  | integrityError (constraint : String)
  | dataError (column : String)
deriving DecidableEq, Repr

def SchedulerError.ofViolation : Violation → SchedulerError
  | .unique index => integrityError index
  | .check name => integrityError name
  | .width column => dataError column

abbrev Tx := Transaction SchedulerError Store

namespace Store

def scheduleTable : Lens Store (Numbered AlertSchedule.schema) where
  get s := s.schedules
  set t s := { s with schedules := t }
  get_set _ _ := rfl
  set_get _ := rfl
  set_set _ _ _ := rfl

def deliveryTable : Lens Store (Numbered RecipientDelivery.schema) where
  get s := s.deliveries
  set t s := { s with deliveries := t }
  get_set _ _ := rfl
  set_get _ := rfl
  set_set _ _ _ := rfl

def outboxTable : Lens Store (Numbered SchedulerOutbox.schema) where
  get s := s.outbox
  set t s := { s with outbox := t }
  get_set _ _ := rfl
  set_get _ := rfl
  set_set _ _ _ := rfl

end Store

end Civicos.Scheduler
