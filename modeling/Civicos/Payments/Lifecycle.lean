import Civicos.Payments.Ledger
import Mathlib.Data.List.Sort

/-!
# Payment lifecycle service

The persistence helpers that every writer of the ledger goes through. Each definition is one
method; `now` is the clock reading of the surrounding transaction.
-/
namespace Civicos.Payments

open Library Library.Transaction

abbrev Tx := Transaction PaymentError Ledger

namespace PaymentAttempt

/-- `select_for_update().get(pk=pk)` -/
def getLocked (pk : Uuid) : Tx PaymentAttempt :=
  lookup Ledger.attemptTable (.doesNotExist "PaymentAttempt") pk

def save (a : PaymentAttempt) : Tx Unit :=
  write Ledger.attemptTable .ofViolation a.pk fun _ => a

/-- The columns that `objects.create` fills from the caller's keyword arguments. -/
structure Defaults where
  amount : Option Cents := none
  currency : String := ""
  correlationId : String := ""
  sourceBbId : String := ""
  submissionIntent : SubmissionIntent := .empty
  externalTransactionId : String := ""
deriving DecidableEq, Repr

def create (tenantId operation requestId : String) (payloadFingerprint : Digest Json)
    (defaults : Defaults) : Tx PaymentAttempt :=
  Transaction.create Ledger.attemptTable .ofViolation fun pk =>
    { pk, tenantId, operation, requestId, payloadFingerprint
      amount := defaults.amount
      currency := defaults.currency
      correlationId := defaults.correlationId
      sourceBbId := defaults.sourceBbId
      submissionIntent := defaults.submissionIntent
      externalTransactionId := defaults.externalTransactionId }

/-- The columns that a transition writes together with the status. -/
structure TransitionFields where
  failureCode : String
  failureCategory : String
  retryable : Bool
  providerAttemptId : String
  externalTransactionId : String
  lastError : String

def transitionTo (a : PaymentAttempt) (newStatus : AttemptStatus) (fields : TransitionFields) :
    Except PaymentError PaymentAttempt :=
  if newStatus ∈ a.status.allowedTransitions then
    .ok { a with
      status := newStatus
      failureCode := fields.failureCode
      failureCategory := fields.failureCategory
      retryable := fields.retryable
      providerAttemptId := fields.providerAttemptId
      externalTransactionId := fields.externalTransactionId
      lastError := fields.lastError
      version := a.version + 1 }
  else
    .error (.invalidPaymentTransition
      ("invalid payment transition " ++ a.status.text ++ " -> " ++ newStatus.text))

end PaymentAttempt

/-- The status of a `PaymentOutcome`; any other text falls back to review. -/
inductive OutcomeStatus where
  | settled
  | rejected
  | invalidAccount
  | insufficientFunds
  | retryable
  | uncertain
  | review
  | deadLetter
  | other (text : String)
deriving DecidableEq, Repr

/-- `_OUTCOME_TO_STATUS` -/
def OutcomeStatus.toStatus : OutcomeStatus → AttemptStatus
  | settled => .settled
  | rejected => .rejected
  | invalidAccount => .rejected
  | insufficientFunds => .rejected
  | retryable => .retryable
  | uncertain => .uncertain
  | review => .review
  | deadLetter => .deadLetter
  | other _ => .review

structure PaymentOutcome where
  status : OutcomeStatus
  code : String := ""
  category : String := ""
  retryable : Bool := false
  providerAttemptId : String := ""
  externalTransactionId : String := ""
  message : String := ""
deriving DecidableEq, Repr

namespace PaymentLifecycleService

def maxCallbackAttempts : ℕ := 5

def uncertainPollDelay : Instant := minutes 5

def fingerprint (payload : Json) : Digest Json := .sha256 payload

def audit (attempt : PaymentAttempt) (action : AuditAction) (details : Json) : Tx Unit :=
  modify fun l => { l with audits := l.audits ++ [{
    action
    actorBbId := clip 50 attempt.sourceBbId
    objectType := "payment_attempt"
    objectPk := toString attempt.pk
    requestId := clip 20 attempt.requestId
    details }] }

/-- The second `select_for_update` is the path taken after a concurrent insert won. -/
def getOrCreateAttempt (tenantId operation requestId : String) (payload : Json)
    (defaults : PaymentAttempt.Defaults) (auditCreated : Bool := true) :
    Tx (PaymentAttempt × Bool) := do
  let ledger ← get
  match ledger.attemptFor (clip 100 tenantId) (clip 30 operation) (clip 100 requestId) with
  | some existing =>
    if existing.payloadFingerprint ≠ fingerprint payload then
      throw (.idempotencyConflict "idempotency key was reused with a different payload")
    return (existing, false)
  | none =>
    let attempt ← PaymentAttempt.create (clip 100 tenantId) (clip 30 operation)
      (clip 100 requestId) (fingerprint payload) defaults
    if auditCreated then
      audit attempt .paymentAttemptCreated [("operation", .str attempt.operation)]
    return (attempt, true)

/-- The retry schedule and the audit entry that go with a target status. -/
def schedule (attempt : PaymentAttempt) (target : AttemptStatus) (now : Instant) :
    Tx PaymentAttempt := do
  match target with
  | .retryable =>
    let attempt := { attempt with
      nextRetryAt := some (now + minutes (min 60 (Nat.pow 2 (min attempt.attemptCount 6)))) }
    audit attempt .paymentRetryScheduled
      [("attempt_count", .int attempt.attemptCount), ("failure_code", .str attempt.failureCode)]
    return attempt
  | .uncertain =>
    -- An uncertain result is polled, never blindly resubmitted.
    let attempt := { attempt with nextRetryAt := some (now + uncertainPollDelay) }
    audit attempt .paymentUncertain [("failure_code", .str attempt.failureCode)]
    return attempt
  | .review | .deadLetter =>
    audit attempt .paymentReviewRequired
      [("status", .str target.text), ("failure_code", .str attempt.failureCode)]
    return attempt
  | _ => return attempt

def applyOutcome (pk : Uuid) (outcome : PaymentOutcome) (now : Instant) :
    Tx PaymentAttempt := do
  let target := outcome.status.toStatus
  let attempt ← PaymentAttempt.getLocked pk
  if attempt.isTerminal then
    return attempt
  let attempt ← attempt.transitionTo target
    { failureCode := clip 50 outcome.code
      failureCategory := clip 30 outcome.category
      retryable := outcome.retryable
      providerAttemptId := clip 100 outcome.providerAttemptId
      externalTransactionId := clip 100 outcome.externalTransactionId
      lastError := clip 255 outcome.message }
  let attempt ← schedule
    { attempt with attemptCount := attempt.attemptCount + 1, nextRetryAt := none } target now
  attempt.save
  audit attempt .paymentOutcomeRecorded
    [("status", .str target.text), ("failure_code", .str attempt.failureCode),
      ("retryable", .bool attempt.retryable), ("attempt_count", .int attempt.attemptCount)]
  return attempt

def queueCallback (attempt : PaymentAttempt) (callbackUrl : String) (payload : Json)
    (now : Instant) : Tx (CallbackDelivery × Bool) := do
  let ledger ← get
  match ledger.delivery attempt.pk (fingerprint payload) with
  | some delivery => return (delivery, false)
  | none =>
    let delivery ← Transaction.create Ledger.callbackTable .ofViolation fun pk =>
      { pk
        attempt := attempt.pk
        payloadHash := fingerprint payload
        callbackUrl := clip 500 callbackUrl
        payload
        nextAttemptAt := some now }
    audit attempt .callbackQueued [("delivery_id", .str (toString delivery.pk))]
    return (delivery, true)

/-- The status of one comparison of the internal with the provider side. -/
def reconciliationStatus (internal : AttemptStatus) (provider : Report) : ReconciliationStatus :=
  if provider = .settled ∧ internal = .settled ∨ provider = .rejected ∧ internal = .rejected then
    .matched
  else if provider = .unknown ∨ provider = .other "" then .unknown
  else .mismatch

/-- The attempt is the caller's instance: its status may have been read earlier. -/
def reconcileRow (attempt : PaymentAttempt) (providerStatus : Report)
    (sourceBbStatus : String := "") : Tx PaymentReconciliation :=
  Transaction.create Ledger.reconciliationTable .ofViolation fun pk =>
    { pk
      attempt := attempt.pk
      providerStatus := providerStatus.clip 30
      sourceBbStatus := clip 30 sourceBbStatus
      internalStatus := attempt.status
      status := reconciliationStatus attempt.status (providerStatus.clip 30)
      externalTransactionId := clip 100 attempt.externalTransactionId }

def reconcileAudit (attempt : PaymentAttempt) (reconciliation : PaymentReconciliation) :
    Tx Unit :=
  audit attempt .reconciliationRecorded
    [("status", .str reconciliation.status.text),
      ("provider_status", .str reconciliation.providerStatus.text)]

def reconcile (attempt : PaymentAttempt) (providerStatus : Report)
    (sourceBbStatus : String := "") : Tx PaymentReconciliation := do
  let reconciliation ← reconcileRow attempt providerStatus sourceBbStatus
  reconcileAudit attempt reconciliation
  return reconciliation

def amountText : Option Cents → String
  | none => "None"
  | some a => decimalText a

def bindingHash (tenantId : String) (attempt : PaymentAttempt) (amount : Option Cents)
    (currency : String) : Digest String :=
  .sha256 (tenantId ++ "|" ++ toString attempt.pk ++ "|" ++ amountText amount ++ "|" ++
    upper currency)

/-- The evidence that a caller hands to `record_observation`. -/
structure Evidence where
  tenantId : String
  observationKind : String
  observationId : String
  outcome : Report
  amount : Option Cents
  currency : String
  providerTransactionId : String := ""
  eventId : String := ""
  verified : Bool := false
  verificationMethod : String := ""
  bindingHash : Digest String := .text ""
  metadata : Json := []
deriving DecidableEq, Repr

/-- Only verified exact bindings can establish finality. -/
def Evidence.exact (e : Evidence) (attempt : PaymentAttempt) : Bool :=
  e.tenantId = attempt.tenantId ∧ e.amount = attempt.amount ∧
    upper e.currency = upper attempt.currency ∧
    e.bindingHash = PaymentLifecycleService.bindingHash e.tenantId attempt e.amount e.currency ∧
    e.verified ∧ (e.outcome = .settled ∨ e.outcome = .rejected)

def Report.outcomeStatus : Report → OutcomeStatus
  | .settled => .settled
  | .rejected => .rejected
  | r => .other r.text

def recordObservation (attempt : PaymentAttempt) (e : Evidence) (now : Instant) :
    Tx ProviderObservation := do
  let exact := e.exact attempt
  let locked ← PaymentAttempt.getLocked attempt.pk
  let some amount := e.amount | throw (.integrityError "amount")
  let obs ← Transaction.create Ledger.observationTable .ofViolation fun pk =>
    { pk
      attempt := locked.pk
      tenantId := clip 100 e.tenantId
      observationKind := clip 20 e.observationKind
      observationId := clip 160 e.observationId
      providerTransactionId := clip 100 e.providerTransactionId
      eventId := clip 160 e.eventId
      amount
      currency := clip 3 e.currency
      outcome := e.outcome.clip 20
      verified := e.verified
      verificationMethod := clip 80 e.verificationMethod
      bindingHash := e.bindingHash.clip64
      acceptedFinality := exact
      metadata := e.metadata }
  if exact ∧ ¬ locked.isTerminal then
    let _ ← applyOutcome locked.pk
      { status := Report.outcomeStatus e.outcome
        providerAttemptId := e.providerTransactionId
        externalTransactionId := e.providerTransactionId } now
  else
    audit locked .paymentReviewRequired
      [("observation_id", .str (toString obs.pk)), ("exact_binding", .bool exact)]
  return obs

/-- The observation outcome of an adapter result. -/
def finalOutcome : ProviderOutcome → Report
  | .settled => .settled
  | .rejected => .rejected
  | .invalidAccount => .rejected
  | .insufficientFunds => .rejected
  | _ => .uncertain

/-- An unidentified response is never verified. -/
def isVerified (normalized : ProviderResult) : Bool :=
  normalized.verified ∧ normalized.identifier ≠ ""

/-- What `record_provider_result` hands to `record_observation`. -/
def providerEvidence (attempt : PaymentAttempt) (normalized : ProviderResult) (source : String) :
    Evidence where
  tenantId := attempt.tenantId
  observationKind := source
  observationId := orElse normalized.identifier ("unidentified:" ++ toString attempt.pk)
  outcome := finalOutcome normalized.outcome
  amount := attempt.amount
  currency := attempt.currency
  providerTransactionId := orElse normalized.externalTransactionId normalized.providerAttemptId
  eventId := normalized.eventId
  verified := isVerified normalized
  verificationMethod := normalized.verificationMethod
  bindingHash :=
    if isVerified normalized then
      bindingHash attempt.tenantId attempt attempt.amount attempt.currency
    else .text ""
  metadata := [("provider_code", .str normalized.code),
    ("outcome", .str normalized.outcome.text), ("source", .str source)]

def nonFinalOutcome (normalized : ProviderResult) : PaymentOutcome :=
  if normalized.outcome.isAmbiguous then
    { status := .uncertain
      code := orElse normalized.code "PROVIDER_OUTCOME_UNCERTAIN"
      category := "provider"
      message := orElse normalized.message "Provider outcome requires a status check." }
  else if normalized.retryable then
    { status := .retryable
      code := orElse normalized.code "PROVIDER_RETRYABLE_FAILURE"
      category := "provider"
      retryable := true
      message := orElse normalized.message "Provider retry is eligible after reconciliation." }
  else
    { status := .review
      code := orElse normalized.code "UNVERIFIED_PROVIDER_OBSERVATION"
      category := "reconciliation"
      message := orElse normalized.message
        "Provider observation is not verified for finality." }

/-- What follows the observation: without finality a live attempt gets the non-final outcome,
and the result is reconciled in either case. -/
def conclude (pk : Uuid) (acceptedFinality : Bool) (normalized : ProviderResult)
    (now : Instant) : Tx Unit := do
  let attempt ← PaymentAttempt.getLocked pk
  if ¬ acceptedFinality ∧ ¬ attempt.isTerminal then
    let _ ← applyOutcome attempt.pk (nonFinalOutcome normalized) now
  let attempt ← PaymentAttempt.getLocked pk
  let _ ← reconcile attempt
    (if isVerified normalized then finalOutcome normalized.outcome else .unknown)

def recordProviderResult (attempt : PaymentAttempt) (result : ProviderResult) (now : Instant)
    (source : String := ProviderObservation.kindProvider) : Tx ProviderObservation := do
  let normalized := normalizeResult result
  let observation ← recordObservation attempt (providerEvidence attempt normalized source) now
  conclude attempt.pk observation.acceptedFinality normalized now
  return observation

/-- The attempts of a status whose next retry is due, the longest overdue first. -/
def due (status : AttemptStatus) (l : Ledger) (now : Instant) : List PaymentAttempt :=
  (l.attempts.rows.filter fun a => a.status = status ∧ ∃ t ∈ a.nextRetryAt, t ≤ now).insertionSort
    fun a b => a.nextRetryAt.getD 0 ≤ b.nextRetryAt.getD 0

def dueRetries : Ledger → Instant → List PaymentAttempt := due .retryable

def dueUncertain : Ledger → Instant → List PaymentAttempt := due .uncertain

end PaymentLifecycleService

/-!
## Callback outbox

A queued callback is posted until it is accepted or has failed `maxCallbackAttempts` times.
-/

/-- What `_post_callback` returns: the status of an accepted response, or an error code. -/
inductive PostResult where
  | accepted (status : ℕ)
  | failed (errorCode : String)
deriving DecidableEq, Repr

namespace PostResult

/-- `http_status if success else None` -/
def httpStatus : PostResult → Option ℕ
  | accepted status => some status
  | failed _ => none

def errorCode : PostResult → String
  | accepted _ => ""
  | failed code => code

end PostResult

/-- A delivery that is not posted again. -/
def CallbackStatus.isClosed (s : CallbackStatus) : Bool := s ∈ [delivered, dead]

namespace PaymentLifecycleService

/-- The status and the next attempt of a delivery after its `deliveryCount`-th post. -/
def callbackProgress (deliveryCount : ℕ) (httpStatus : Option ℕ) (now : Instant) :
    CallbackStatus × Option Instant × AuditAction :=
  if httpStatus.any fun n => 200 ≤ n ∧ n < 300 then (.delivered, none, .callbackDelivered)
  else if maxCallbackAttempts ≤ deliveryCount then (.dead, none, .callbackDeadLettered)
  else (.retry, some (now + minutes (min 60 (Nat.pow 2 (min deliveryCount 6)))),
    .paymentRetryScheduled)

/-- The row after a post. -/
def recorded (delivery : CallbackDelivery) (httpStatus : Option ℕ) (errorCode : String)
    (now : Instant) : CallbackDelivery :=
  let progress := callbackProgress (delivery.deliveryCount + 1) httpStatus now
  { delivery with
    deliveryCount := delivery.deliveryCount + 1
    lastHttpStatus := httpStatus
    lastError := clip 255 errorCode
    status := progress.1
    nextAttemptAt := progress.2.1 }

def recordCallbackResult (pk : Uuid) (httpStatus : Option ℕ) (errorCode : String)
    (now : Instant) : Tx CallbackDelivery := do
  let delivery ← lookup Ledger.callbackTable (.doesNotExist "CallbackDelivery") pk
  let attempt ← PaymentAttempt.getLocked delivery.attempt
  if delivery.status.isClosed then
    return delivery
  else
    let deliveryCount := delivery.deliveryCount + 1
    write Ledger.callbackTable .ofViolation pk fun _ => recorded delivery httpStatus errorCode now
    audit attempt (callbackProgress deliveryCount httpStatus now).2.2
      [("delivery_id", .str (toString delivery.pk)),
        ("http_status", (httpStatus.map fun n => Value.int n).getD .null),
        ("delivery_count", .int deliveryCount), ("error_code", .str (clip 50 errorCode))]
    return recorded delivery httpStatus errorCode now

/-- Which rows the replay sweep posts again. -/
def isDue (now : Instant) (d : CallbackDelivery) : Bool :=
  d.status ∈ [.pending, .retry] ∧ ∃ t ∈ d.nextAttemptAt, t ≤ now

/-- The due rows, the longest waiting first. -/
def dueCallbacks (l : Ledger) (now : Instant) : List CallbackDelivery :=
  (l.callbacks.rows.filter (isDue now)).mergeSort fun d e =>
    d.nextAttemptAt.getD 0 ≤ e.nextAttemptAt.getD 0

end PaymentLifecycleService

end Civicos.Payments
