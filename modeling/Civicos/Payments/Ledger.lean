import Civicos.Payments.Provider

/-!
# The payment ledger

Rows, constraints and status machine of the provider-neutral execution records.
-/
namespace Civicos.Payments

open Library

/-! ## Payment attempts -/

inductive AttemptStatus where
  | pending
  | retryable
  | uncertain
  | settled
  | rejected
  | review
  | deadLetter
deriving DecidableEq, Repr

namespace AttemptStatus

def text : AttemptStatus → String
  | pending => "pending"
  | retryable => "retryable"
  | uncertain => "uncertain"
  | settled => "settled"
  | rejected => "rejected"
  | review => "review"
  | deadLetter => "dead_letter"

def allowedTransitions : AttemptStatus → List AttemptStatus
  | pending => [retryable, uncertain, settled, rejected, review]
  | retryable => [pending, uncertain, settled, rejected, review, deadLetter]
  | uncertain => [uncertain, settled, rejected, review, deadLetter]
  | review => [pending, deadLetter]
  | settled => []
  | rejected => []
  | deadLetter => []

def isTerminal (s : AttemptStatus) : Bool := s ∈ [settled, rejected, deadLetter]

end AttemptStatus

/-- What the provider side is reported to say: the outcome column of an observation and the
provider status of a reconciliation. -/
inductive Report where
  | settled
  | rejected
  | uncertain
  | manualReview
  | unknown
  | other (text : String)
deriving DecidableEq, Repr

namespace Report

def text : Report → String
  | settled => "settled"
  | rejected => "rejected"
  | uncertain => "uncertain"
  | manualReview => "manual_review"
  | unknown => "unknown"
  | other t => t

/-- Slicing a column only touches free text. -/
def clip (n : ℕ) : Report → Report
  | other t => other (Payments.clip n t)
  | r => r

/-- The attempt status that a final report stands for. -/
def final : Report → Option AttemptStatus
  | settled => some .settled
  | rejected => some .rejected
  | _ => none

end Report

inductive SubmissionKind where
  | submit
  | poll
deriving DecidableEq, Repr

/-- The JSON column `submission_intent`. -/
inductive SubmissionIntent where
  | empty
  | command (id : Uuid)
  | execution (kind : SubmissionKind) (requestId : String) (generation : ℕ)
deriving DecidableEq, Repr

/-- The JSON column `recovery_evidence`. -/
inductive RecoveryEvidence where
  | empty
  | ambiguous (code providerAttemptId externalTransactionId : String)
  | identified (providerAttemptId externalTransactionId : String)
deriving DecidableEq, Repr

/-- `evidence.get("ambiguous_outcome")` -/
def RecoveryEvidence.ambiguousOutcome : RecoveryEvidence → Bool
  | ambiguous .. => true
  | _ => false

structure PaymentAttempt where
  pk : Uuid
  tenantId : String
  operation : String
  requestId : String
  payloadFingerprint : Digest Json
  amount : Option Cents := none
  currency : String := ""
  correlationId : String := ""
  sourceBbId : String := ""
  status : AttemptStatus := .pending
  claimToken : String := ""
  claimExpiresAt : Option Instant := none
  claimGeneration : ℕ := 0
  claimHeartbeatAt : Option Instant := none
  submissionIntent : SubmissionIntent := .empty
  recoveryEvidence : RecoveryEvidence := .empty
  providerAttemptId : String := ""
  externalTransactionId : String := ""
  failureCode : String := ""
  failureCategory : String := ""
  retryable : Bool := false
  attemptCount : ℕ := 0
  nextRetryAt : Option Instant := none
  lastError : String := ""
  version : ℕ := 1
deriving DecidableEq, Repr

namespace PaymentAttempt

def isTerminal (a : PaymentAttempt) : Bool := a.status.isTerminal

/-- The columns fixed when the row is created. -/
def identity (a : PaymentAttempt) :
    Uuid × String × String × String × Digest Json × Option Cents × String :=
  (a.pk, a.tenantId, a.operation, a.requestId, a.payloadFingerprint, a.amount, a.currency)

def scopeRequest : Index PaymentAttempt where
  name := "gs_attempt_scope_request_uniq"
  Key := String × String × String
  key a := some (a.tenantId, a.operation, a.requestId)

def schema : Schema PaymentAttempt where
  pk := pk
  indexes := [scopeRequest]
  checks := [
    .width "tenant_id" 100 tenantId,
    .width "claim_token" 128 claimToken,
    .width "request_id" 100 requestId,
    .width "operation" 30 operation,
    .width "correlation_id" 100 correlationId,
    .width "source_bb_id" 50 sourceBbId,
    .width "provider_attempt_id" 100 providerAttemptId,
    .width "external_transaction_id" 100 externalTransactionId,
    .width "currency" 3 currency,
    .width "failure_code" 50 failureCode,
    .width "failure_category" 30 failureCategory,
    .width "last_error" 255 lastError]

end PaymentAttempt

/-! ## Execution intents -/

structure PaymentExecutionIntent where
  pk : Uuid
  attempt : Uuid
  scope : String
  operation : String
  requestIdentity : String
  payloadFingerprint : Digest Json
  providerCorrelation : String := ""
  submitStartedAt : Option Instant := none
  submitAdmissionGeneration : Option ℕ := none
  correlated : Bool := false
deriving DecidableEq, Repr

namespace PaymentExecutionIntent

def oneToOne : Index PaymentExecutionIntent where
  name := "attempt_id"
  Key := Uuid
  key i := some i.attempt

def executionIdentity : Index PaymentExecutionIntent where
  name := "gs_exec_intent_identity_uniq"
  Key := String × String × String
  key i := some (i.scope, i.operation, i.requestIdentity)

def schema : Schema PaymentExecutionIntent where
  pk := pk
  indexes := [oneToOne, executionIdentity]
  checks := [
    .width "scope" 100 scope,
    .width "operation" 30 operation,
    .width "request_identity" 100 requestIdentity,
    .width "provider_correlation" 160 providerCorrelation]

end PaymentExecutionIntent

/-! ## Evidence -/

structure ProviderObservation where
  pk : Uuid
  attempt : Uuid
  tenantId : String
  observationKind : String
  observationId : String
  providerTransactionId : String
  eventId : String
  amount : Cents
  currency : String
  outcome : Report
  verified : Bool
  verificationMethod : String
  bindingHash : Digest String
  acceptedFinality : Bool
  metadata : Json
deriving DecidableEq, Repr

namespace ProviderObservation

def kindProvider : String := "provider"

def kindId : Index ProviderObservation where
  name := "gs_observation_kind_id_uniq"
  Key := String × String
  key o := some (o.observationKind, o.observationId)

def oneAcceptedFinality : Index ProviderObservation where
  name := "gs_one_accepted_finality"
  Key := Uuid
  key o := if o.acceptedFinality then some o.attempt else none

def schema : Schema ProviderObservation where
  pk := pk
  indexes := [kindId, oneAcceptedFinality]
  checks := [
    .width "tenant_id" 100 tenantId,
    .width "observation_kind" 20 observationKind,
    .width "observation_id" 160 observationId,
    .width "provider_transaction_id" 100 providerTransactionId,
    .width "event_id" 160 eventId,
    .width "currency" 3 currency,
    .width "verification_method" 80 verificationMethod]

end ProviderObservation

inductive ReconciliationStatus where
  | matched
  | mismatch
  | unknown
deriving DecidableEq, Repr

def ReconciliationStatus.text : ReconciliationStatus → String
  | matched => "matched"
  | mismatch => "mismatch"
  | unknown => "unknown"

structure PaymentReconciliation where
  pk : Uuid
  attempt : Uuid
  providerStatus : Report
  internalStatus : AttemptStatus
  sourceBbStatus : String
  status : ReconciliationStatus
  externalTransactionId : String
deriving DecidableEq, Repr

def PaymentReconciliation.schema : Schema PaymentReconciliation where
  pk := pk
  checks := [
    .width "source_bb_status" 30 sourceBbStatus,
    .width "external_transaction_id" 100 externalTransactionId]

/-! ## Callback outbox and audit trail -/

inductive CallbackStatus where
  | pending
  | delivered
  | retry
  | dead
deriving DecidableEq, Repr

structure CallbackDelivery where
  pk : Uuid
  attempt : Uuid
  callbackUrl : String
  payload : Json
  payloadHash : Digest Json
  status : CallbackStatus := .pending
  deliveryCount : ℕ := 0
  nextAttemptAt : Option Instant := none
  lastHttpStatus : Option ℕ := none
  lastError : String := ""
deriving DecidableEq, Repr

namespace CallbackDelivery

def attemptPayload : Index CallbackDelivery where
  name := "gs_callback_attempt_payload_uniq"
  Key := Uuid × Digest Json
  key d := some (d.attempt, d.payloadHash)

def schema : Schema CallbackDelivery where
  pk := pk
  indexes := [attemptPayload]
  checks := [
    .width "callback_url" 500 callbackUrl,
    .width "last_error" 255 lastError]

end CallbackDelivery

inductive AuditAction where
  | beneficiaryRegistered
  | beneficiaryUpdated
  | batchReceived
  | validationRequested
  | validationCompleted
  | voucherPreactivated
  | voucherActivated
  | voucherRedeemed
  | voucherCancelled
  | billPaymentRequested
  | billPaid
  | paymentAttemptCreated
  | paymentOutcomeRecorded
  | paymentRetryScheduled
  | paymentUncertain
  | callbackQueued
  | callbackDelivered
  | callbackDeadLettered
  | reconciliationRecorded
  | paymentReviewRequired
  | batchDecisionRecorded
deriving DecidableEq, Repr

/-- Append-only: entries are never rewritten or deleted. -/
structure AuditEntry where
  action : AuditAction
  actorBbId : String
  objectType : String
  objectPk : String
  requestId : String
  details : Json
deriving DecidableEq, Repr

/-- The column, if any, that a new entry does not fit. -/
def AuditEntry.overflow (e : AuditEntry) : Option String :=
  if 50 < e.actorBbId.length then some "actor_bb_id"
  else if 20 < e.requestId.length then some "request_id"
  else none

/-! ## The store -/

structure Ledger where
  registrations : List ProviderRegistration := []
  attempts : Table PaymentAttempt.schema := .empty
  intents : Table PaymentExecutionIntent.schema := .empty
  observations : Table ProviderObservation.schema := .empty
  reconciliations : Table PaymentReconciliation.schema := .empty
  callbacks : Table CallbackDelivery.schema := .empty
  audits : List AuditEntry := []
deriving DecidableEq

namespace Ledger

def attemptTable : Lens Ledger (Table PaymentAttempt.schema) where
  get l := l.attempts
  set t l := { l with attempts := t }
  get_set _ _ := rfl
  set_get _ := rfl
  set_set _ _ _ := rfl

def intentTable : Lens Ledger (Table PaymentExecutionIntent.schema) where
  get l := l.intents
  set t l := { l with intents := t }
  get_set _ _ := rfl
  set_get _ := rfl
  set_set _ _ _ := rfl

def observationTable : Lens Ledger (Table ProviderObservation.schema) where
  get l := l.observations
  set t l := { l with observations := t }
  get_set _ _ := rfl
  set_get _ := rfl
  set_set _ _ _ := rfl

def reconciliationTable : Lens Ledger (Table PaymentReconciliation.schema) where
  get l := l.reconciliations
  set t l := { l with reconciliations := t }
  get_set _ _ := rfl
  set_get _ := rfl
  set_set _ _ _ := rfl

def callbackTable : Lens Ledger (Table CallbackDelivery.schema) where
  get l := l.callbacks
  set t l := { l with callbacks := t }
  get_set _ _ := rfl
  set_get _ := rfl
  set_set _ _ _ := rfl

def attempt (l : Ledger) (pk : Uuid) : Option PaymentAttempt := l.attempts.get pk

/-- `filter(tenant_id=…, operation=…, request_id=…).first()` -/
def attemptFor (l : Ledger) (tenantId operation requestId : String) : Option PaymentAttempt :=
  l.attempts.rows.find? fun a =>
    a.tenantId = tenantId ∧ a.operation = operation ∧ a.requestId = requestId

/-- The outbox row of one callback event. -/
def delivery (l : Ledger) (attempt : Uuid) (payloadHash : Digest Json) :
    Option CallbackDelivery :=
  l.callbacks.rows.find? fun d => d.attempt = attempt ∧ d.payloadHash = payloadHash

/-- The execution intent of an attempt, `filter(attempt_id=pk).first()`. -/
def intentOf (l : Ledger) (pk : Uuid) : Option PaymentExecutionIntent :=
  l.intents.rows.find? (·.attempt = pk)

/-- The execution intent with a canonical identity. -/
def intentFor (l : Ledger) (scope operation requestIdentity : String) :
    Option PaymentExecutionIntent :=
  l.intents.rows.find? fun i =>
    i.scope = scope ∧ i.operation = operation ∧ i.requestIdentity = requestIdentity

/-- The observations that carry an attempt's finality. -/
def accepted (l : Ledger) (pk : Uuid) : List ProviderObservation :=
  l.observations.rows.filter fun o => o.acceptedFinality ∧ o.attempt = pk

end Ledger

end Civicos.Payments
