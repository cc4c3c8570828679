import Civicos.Payments.Lifecycle

/-!
# Provider runtime

The durable, status-first execution boundary. Every `transaction.atomic()` block of it is one
transaction here; the adapter call between admission and finalisation is not.
-/
namespace Civicos.Payments

open Library Library.Transaction

namespace PaymentExecutionIntent

/-- The intent row that the runtime creates when no command reserved one. -/
def create (attempt : PaymentAttempt) (scope operation requestIdentity : String)
    (payloadFingerprint : Digest Json) : Tx PaymentExecutionIntent :=
  Transaction.create Ledger.intentTable .ofViolation fun pk =>
    { pk, attempt := attempt.pk, scope, operation, requestIdentity, payloadFingerprint }

/-- The columns that `save` refuses to change. -/
structure Identity where
  attempt : Uuid
  scope : String
  operation : String
  requestIdentity : String
  payloadFingerprint : Digest Json
deriving DecidableEq

def identity (i : PaymentExecutionIntent) : Identity :=
  ⟨i.attempt, i.scope, i.operation, i.requestIdentity, i.payloadFingerprint⟩

def save (i : PaymentExecutionIntent) : Tx Unit := do
  let original ← lookup Ledger.intentTable (.doesNotExist "PaymentExecutionIntent") i.pk
  if original.identity ≠ i.identity then
    throw (.valueError "PaymentExecutionIntent canonical identity is immutable")
  if original.providerCorrelation ≠ "" ∧ i.providerCorrelation ≠ original.providerCorrelation then
    throw (.valueError "PaymentExecutionIntent provider correlation is immutable")
  write Ledger.intentTable .ofViolation i.pk fun _ => i

/-- `reserve_execution_intent` -/
def reserve (attempt : PaymentAttempt) (scope operation requestIdentity : String)
    (payload : Json) : Tx PaymentExecutionIntent := do
  let intent ← exceptIntegrityError
    (create attempt scope operation requestIdentity (.sha256 payload))
    (do
      let ledger ← get
      match ledger.intentFor scope operation requestIdentity with
      | some intent => return intent
      | none => throw (.doesNotExist "PaymentExecutionIntent"))
  if intent.payloadFingerprint ≠ .sha256 payload ∨ intent.attempt ≠ attempt.pk then
    throw (.executionIntentConflict "conflicting canonical execution identity")
  return intent

/-- `record_provider_correlation` -/
def recordProviderCorrelation (pk : Uuid) (correlation : String) : Tx Unit := do
  let correlation := strip correlation
  if correlation = "" then
    return
  let locked ← lookup Ledger.intentTable (.doesNotExist "PaymentExecutionIntent") pk
  if locked.providerCorrelation ≠ "" ∧ locked.providerCorrelation ≠ correlation then
    throw (.executionIntentConflict "provider correlation is immutable")
  if locked.providerCorrelation = "" then
    save { locked with providerCorrelation := correlation, correlated := true }

end PaymentExecutionIntent

/-- What an admitted worker carries out of its transaction to the adapter call. -/
structure ProviderCall where
  attempt : Uuid
  kind : SubmissionKind
  token : String
  generation : ℕ
  requestId : String
  providerAttemptId : String
  externalTransactionId : String
  payment : Json
deriving DecidableEq, Repr

/-- What an adapter call can do. -/
inductive Reply where
  | result (r : ProviderResult)
  | raised
  | notAResult
deriving DecidableEq, Repr

/-- What the admission transaction of `submit_or_poll` ends with. -/
inductive Admission where
  | returned (r : ProviderResult)
  | contact (call : ProviderCall)
deriving DecidableEq, Repr

namespace ProviderRuntime

def claimTtl : Instant := minutes 5

def noopTerminal : ProviderResult := { outcome := .uncertain, code := "NOOP_TERMINAL" }

def resolve (tenantId operation : String) (now : Instant) : Tx ProviderRegistration := do
  if tenantId = "" ∨ operation = "" then
    throw (.providerUnavailable "provider scope is blank")
  match resolveProvider (← get).registrations tenantId operation now with
  | .ok registration => return registration
  | .error (.providerRegistryError _) =>
    throw (.providerUnavailable "durable provider adapter cannot be resolved")
  | .error e => throw e

/-- The transaction of `status_first_recovery`; `none` goes on to `submit_or_poll`. -/
def statusFirstRecovery (pk : Uuid) : Tx (Option ProviderResult) := do
  let attempt ← PaymentAttempt.getLocked pk
  if attempt.isTerminal ∨ attempt.status = .review then
    return some noopTerminal
  { attempt with status := .uncertain }.save
  return none

/-- Reservation alone is not evidence of provider acceptance. -/
def shouldPoll (attempt : PaymentAttempt) (intent : Option PaymentExecutionIntent) : Bool :=
  (intent.elim "" (·.providerCorrelation)) ≠ "" ∨ attempt.providerAttemptId ≠ "" ∨
    attempt.externalTransactionId ≠ "" ∨ attempt.recoveryEvidence.ambiguousOutcome

/-- The attempt's intent row, created when no command reserved it. -/
def executionIntent (attempt : PaymentAttempt) :
    Option PaymentExecutionIntent → Tx PaymentExecutionIntent
  | some intent => pure intent
  | none =>
    PaymentExecutionIntent.create attempt attempt.tenantId attempt.operation attempt.requestId
      attempt.payloadFingerprint

/-- Fix the kind of the contact. A committed submit admission is evidence that an external
call may have happened: a takeover polls. -/
def markSubmission (intent : PaymentExecutionIntent)
    (shouldPoll : Bool) (generation : ℕ) (now : Instant) : Tx SubmissionKind := do
  if shouldPoll then
    return .poll
  if intent.submitStartedAt.isSome then
    return .poll
  { intent with
    submitStartedAt := some now
    submitAdmissionGeneration := some generation }.save
  return .submit

/-- The admission transaction of `submit_or_poll`. -/
def submitOrPoll (pk : Uuid) (token : String) (now : Instant) : Tx Admission := do
  let attempt ← PaymentAttempt.getLocked pk
  if attempt.tenantId = "" ∨ attempt.isTerminal ∨ attempt.status = .review then
    return .returned noopTerminal
  if attempt.claimToken ≠ "" ∧ ∃ t ∈ attempt.claimExpiresAt, now < t then
    return .returned { outcome := .uncertain, code := "CLAIMED" }
  let _ ← resolve attempt.tenantId attempt.operation now
  let generation := attempt.claimGeneration + 1
  let reserved := (← get).intentOf pk
  let intent ← executionIntent attempt reserved
  let kind ← markSubmission intent (shouldPoll attempt reserved) generation now
  { attempt with
    claimToken := token
    claimGeneration := generation
    claimExpiresAt := some (now + claimTtl)
    claimHeartbeatAt := some now
    submissionIntent := .execution kind attempt.requestId generation
    attemptCount := attempt.attemptCount + 1 }.save
  return .contact {
    attempt := pk
    kind
    token
    generation
    requestId := attempt.requestId
    providerAttemptId := attempt.providerAttemptId
    externalTransactionId :=
      orElse (reserved.elim "" (·.providerCorrelation)) attempt.externalTransactionId
    payment := [("request_id", .str attempt.requestId),
      ("amount", .str (amountOrBlank attempt.amount)), ("currency", .str attempt.currency)] }

/-- The result that stands for an adapter that raised. -/
def runtimeError (call : ProviderCall) : ProviderResult :=
  let id := "runtime-error:" ++ toString call.attempt ++ ":" ++ toString call.generation
  { outcome := .network
    providerAttemptId := call.providerAttemptId
    externalTransactionId := call.externalTransactionId
    code := "PROVIDER_RUNTIME_ERROR"
    message := "Provider invocation failed; authoritative status is required."
    observationId := id
    eventId := id }

/-- From an adapter's reply to the result that is finalised. -/
def received (call : ProviderCall) : Reply → Except PaymentError ProviderResult
  | .result r => .ok r
  | .raised => .ok (runtimeError call)
  | .notAResult => .error (.typeError "provider must return ProviderResult")

def recoveryEvidence (old : RecoveryEvidence) (result : ProviderResult) : RecoveryEvidence :=
  if result.outcome.isAmbiguous then
    .ambiguous (clip 50 result.code) (clip 100 result.providerAttemptId)
      (clip 100 result.externalTransactionId)
  else if result.providerAttemptId ≠ "" ∨ result.externalTransactionId ≠ "" then
    .identified (clip 100 result.providerAttemptId) (clip 100 result.externalTransactionId)
  else old

def finalizeClaimedResult (pk : Uuid) (token : String) (generation : ℕ)
    (result : ProviderResult) (now : Instant) : Tx ProviderResult := do
  let attempt ← PaymentAttempt.getLocked pk
  if attempt.claimToken ≠ token ∨ attempt.claimGeneration ≠ generation then
    return { outcome := .uncertain, code := "STALE_CLAIM" }
  let _ ← PaymentLifecycleService.recordProviderResult attempt result now
  -- `record_provider_result` refreshed the caller's instance.
  let attempt ← PaymentAttempt.getLocked pk
  { attempt with
    recoveryEvidence := recoveryEvidence attempt.recoveryEvidence result
    claimToken := ""
    claimExpiresAt := none
    claimHeartbeatAt := none
    submissionIntent := .empty }.save
  return result

def unavailable (pk : Uuid) (now : Instant) : Tx ProviderResult := do
  let attempt ← PaymentAttempt.getLocked pk
  let observationId := "configuration-unavailable:" ++ toString attempt.pk
  let result : ProviderResult :=
    { outcome := .uncertain
      code := "PROVIDER_UNAVAILABLE"
      message := "Provider configuration is unavailable"
      observationId
      eventId := observationId
      verificationMethod := "configuration" }
  let recorded := (← get).observations.rows.any fun o =>
    o.observationKind = ProviderObservation.kindProvider ∧ o.observationId = observationId
  if ¬ attempt.isTerminal ∧ ¬ recorded then
    let _ ← PaymentLifecycleService.recordProviderResult attempt result now
  return result

end ProviderRuntime

/-! ## Command admission -/

/-- The attempt and intent rows that `PaymentCommandService.reserve` writes for a command. -/
def PaymentCommandService.reserveAttempt (tenantId callerBbId operation requestIdentity : String)
    (payload : Json) (command : Uuid) : Tx PaymentAttempt := do
  let attempt ← PaymentAttempt.create tenantId (clip 30 operation) (clip 100 requestIdentity)
    (.sha256 payload) { sourceBbId := callerBbId, submissionIntent := .command command }
  let _ ← PaymentExecutionIntent.create attempt tenantId (clip 30 operation)
    (clip 100 requestIdentity) (.sha256 payload)
  return attempt

end Civicos.Payments
