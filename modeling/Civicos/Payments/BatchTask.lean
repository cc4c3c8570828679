import Civicos.Payments.BatchLease

/-!
# The bulk payment task

The policy over the verdicts on a batch's instructions with the service that records one decision
for each set of inputs, and one delivery of `process_bulk_payment_batch`: the lifecycle records of
its instructions, the finality that their evidence carries, and the projection of the decision onto
the batch.
-/
namespace Civicos.Payments

open Library Library.Transaction

/-- A configured ratio: its text, and whether `blocking / total` exceeds it in floating point. -/
structure Threshold where
  text : String
  exceededBy : ℕ → ℕ → Bool

/-! ## Policy -/

namespace BatchPolicy

def isTerminal (s : ChildStatus) : Bool := s ∈ [ChildStatus.settled, .rejected]

def isNonFinal (s : ChildStatus) : Bool :=
  s ∈ [ChildStatus.retryable, .uncertain, .review, .unresolved]

structure BatchDecision where
  state : PolicyState
  kickBack : Bool
  retryIds : List Uuid
  settledIds : List Uuid
deriving DecidableEq, Repr

/-- Prevent non-final provider outcomes from becoming a terminal batch result. -/
def evaluate (items : List ChildItem) (failureThreshold : Threshold) : BatchDecision :=
  let statuses := items.map (·.status)
  let nonFinal := statuses.filter isNonFinal
  let blockingCount := statuses.countP (!isTerminal ·)
  let state : PolicyState :=
    if items ≠ [] ∧ failureThreshold.exceededBy blockingCount items.length then .paused
    else if .unresolved ∈ nonFinal then .unresolved
    else if .uncertain ∈ nonFinal then .uncertain
    else if .retryable ∈ nonFinal then .retryable
    else if .review ∈ nonFinal then .review
    else if statuses.count .rejected ≠ 0 then .partiallySettled
    else .completed
  { state
    kickBack := state = .paused ∨ nonFinal ≠ []
    retryIds := (items.filter fun i =>
      i.status ∈ [ChildStatus.retryable, .uncertain, .unresolved]).map (·.id)
    settledIds := (items.filter (·.status = .settled)).map (·.id) }

def stateText : PolicyState → String
  | .paused => "paused"
  | .unresolved => "unresolved"
  | .uncertain => "uncertain"
  | .retryable => "retryable"
  | .review => "review"
  | .partiallySettled => "partial"
  | .completed => "completed"

end BatchPolicy

/-! ## Decision service -/

def OutcomeAction.text : OutcomeAction → String
  | empty => "empty"
  | pause => "pause"
  | retry => "retry"
  | review => "review"
  | terminal => "terminal"
  | returnFunds => "return_funds"

/-- The actions that close a batch. -/
def OutcomeAction.closes (a : OutcomeAction) : Bool := a ∈ [terminal, returnFunds]

namespace BatchDecisionService

open Session

def canonicalItems (items : List ChildItem) : List ChildItem :=
  items.insertionSort fun a b => a.id ≤ b.id

def fingerprint (batchPk : Uuid) (items : List ChildItem) (failureThreshold : Threshold)
    (returnFundsEnabled : Bool) : Digest DecisionInputs :=
  .sha256 ⟨batchPk, canonicalItems items, failureThreshold.text, returnFundsEnabled⟩

def reason (state : PolicyState) (totalCount : ℕ) : String :=
  if totalCount = 0 then "empty_batch" else "policy_" ++ BatchPolicy.stateText state

def action (state : PolicyState) (totalCount rejectedCount nonFinalCount : ℕ)
    (returnFundsEnabled : Bool) : OutcomeAction :=
  if totalCount = 0 then .empty
  else if nonFinalCount ≠ 0 then
    if state = .paused then .pause
    else if state = .retryable ∨ state = .uncertain then .retry
    else .review
  else if state ≠ .completed ∧ state ≠ .partiallySettled then .review
  else if rejectedCount ≠ 0 ∧ returnFundsEnabled then .returnFunds
  else .terminal

def countStatus (status : ChildStatus) (items : List ChildItem) : ℕ :=
  items.countP (·.status = status)

/-- The row that records a decision on canonical items. -/
def decisionRow (batchPk : Uuid) (handle : BatchLeaseHandle) (items : List ChildItem)
    (failureThreshold : Threshold) (returnFundsEnabled : Bool) (pk : Uuid) :
    GovStackBatchDecision :=
  let policy := BatchPolicy.evaluate items failureThreshold
  let totalCount := items.length
  let settledCount := countStatus .settled items
  let rejectedCount := countStatus .rejected items
  let nonFinalCount := totalCount - settledCount - rejectedCount
  { pk
    batch := batchPk
    fingerprint := fingerprint batchPk items failureThreshold returnFundsEnabled
    leaseOwnerToken := handle.ownerToken
    leaseGeneration := handle.generation
    policyState := policy.state
    outcomeAction := action policy.state totalCount rejectedCount nonFinalCount returnFundsEnabled
    totalCount, settledCount, rejectedCount, nonFinalCount
    reason := reason policy.state totalCount
    details := ⟨policy.retryIds, policy.settledIds, policy.kickBack⟩ }

/-- After a lost race the winner's row is replayed. -/
def createOrReplay (batchPk : Uuid) (fingerprint : Digest DecisionInputs)
    (row : Uuid → GovStackBatchDecision) : BulkTx (GovStackBatchDecision × Bool) :=
  exceptIntegrityError (do
      let decision ← create decisionTable .ofViolation row
      return (decision, true)) do
    let session ← get
    match session.decisionFor batchPk fingerprint with
    | some decision => return (decision, false)
    | none => throw (.doesNotExist "GovStackBatchDecision")

/-- The second component tells whether the decision is new. -/
def decide (batchPk : Uuid) (handle : BatchLeaseHandle) (items : List ChildItem)
    (failureThreshold : Threshold) (returnFundsEnabled : Bool) :
    BulkTx (GovStackBatchDecision × Bool) := do
  let row := decisionRow batchPk handle (canonicalItems items) failureThreshold returnFundsEnabled
  let fingerprint := (row 0).fingerprint
  if (row 0).nonFinalCount ≠ 0 ∧ (row 0).outcomeAction.closes then
    throw (.batchDecisionConflict "non-final children cannot produce a terminal decision")
  let _ ← BatchLeaseService.assertCurrentOwner handle
  let session ← get
  match session.otherDecision batchPk handle.generation fingerprint with
  | some _ => throw (.batchDecisionConflict
      "batch lease generation already has a different decision fingerprint")
  | none =>
    match session.decisionFor batchPk fingerprint with
    | some existing => return (existing, false)
    | none => createOrReplay batchPk fingerprint row

end BatchDecisionService

open Session

/-- The settings that the task reads. -/
structure BulkSettings where
  providerRuntimeEnabled : Bool
  failureThreshold : Threshold
  returnFundsEnabled : Bool

/-! ## Binding and finality of instructions -/

structure AuthoritativeChildFinality where
  status : ChildStatus
  final : Bool
  reason : String
  attemptPk : Option Uuid := none
deriving DecidableEq, Repr

def requestIdOf (batch : BulkPaymentBatch) (instruction : CreditInstruction) : String :=
  batch.requestId ++ ":" ++ instruction.instructionId

def operationBulkInstruction : String := "g2p_bulk_instruction"

/-- The attempt carries the identity of the instruction. -/
def PaymentAttempt.Fits (attempt : PaymentAttempt) (batch : BulkPaymentBatch)
    (instruction : CreditInstruction) : Prop :=
  attempt.operation = operationBulkInstruction ∧
    attempt.requestId = requestIdOf batch instruction ∧
    attempt.amount = some instruction.amount ∧
    upper attempt.currency = upper instruction.currency

instance (attempt : PaymentAttempt) (batch : BulkPaymentBatch) (instruction : CreditInstruction) :
    Decidable (attempt.Fits batch instruction) := inferInstanceAs (Decidable (_ ∧ _))

def Report.childStatus : Report → ChildStatus
  | .settled => .settled
  | .rejected => .rejected
  | .uncertain => .uncertain
  | r => .other r.text

namespace PaymentLifecycleService

def lockInstruction (pk : Uuid) : BulkTx CreditInstruction :=
  lookup instructionTable (.doesNotExist "CreditInstruction") pk

def lockBatch (pk : Uuid) : BulkTx BulkPaymentBatch :=
  lookup batchTable (.doesNotExist "BulkPaymentBatch") pk

def bindCreditInstructionAttempt (instruction attempt : Uuid) : BulkTx CreditInstruction := do
  let instruction ← lockInstruction instruction
  let attempt ← zoom ledgerPart (PaymentAttempt.getLocked attempt)
  let batch ← lockBatch instruction.batch
  if ¬ attempt.Fits batch instruction then
    throw (.valueError "payment attempt does not match the credit instruction identity")
  match instruction.paymentAttempt with
  | none =>
    let bound := { instruction with paymentAttempt := some attempt.pk }
    write instructionTable .ofViolation instruction.pk fun row =>
      { row with paymentAttempt := some attempt.pk }
    return bound
  | some pk =>
    if pk ≠ attempt.pk then
      throw (.idempotencyConflict "credit instruction is already bound to another attempt")
    return instruction

/-- The observations of an attempt that can carry its finality. -/
def acceptedFinal (observations : List ProviderObservation) : List ProviderObservation :=
  observations.filter fun o =>
    o.acceptedFinality ∧ o.verified ∧ (o.outcome = .settled ∨ o.outcome = .rejected)

/-- The evidence that the ledger holds for an instruction bound to `attempt`. -/
def childFinality (l : Ledger) (batch : BulkPaymentBatch) (instruction : CreditInstruction)
    (attempt : PaymentAttempt) : AuthoritativeChildFinality :=
  let review (reason : String) : AuthoritativeChildFinality :=
    ⟨.review, false, reason, some attempt.pk⟩
  let observations := l.observations.rows.filter (·.attempt = attempt.pk)
  let reconciliations := l.reconciliations.rows.filter (·.attempt = attempt.pk)
  if ¬ attempt.Fits batch instruction then review "bound_attempt_malformed"
  else
    match acceptedFinal observations with
    | [o] =>
      if o.tenantId ≠ attempt.tenantId ∨ o.amount ≠ instruction.amount ∨
          upper o.currency ≠ upper instruction.currency ∨
          o.bindingHash ≠ bindingHash attempt.tenantId attempt (some instruction.amount)
            instruction.currency ∨
          observations.any (·.pk ≠ o.pk) then
        review "observation_unverified_or_conflicting"
      else if o.outcome.final ≠ some attempt.status then
        review "attempt_status_not_authoritative"
      else if reconciliations = [] ∨ reconciliations.any fun r =>
          r.status ≠ .matched ∨ r.providerStatus ≠ o.outcome ∨
            o.outcome.final ≠ some r.internalStatus then
        review "reconciliation_unresolved_or_conflicting"
      else ⟨o.outcome.childStatus, true, "verified_reconciled_finality", some attempt.pk⟩
    | _ => review "missing_or_conflicting_observation"

def materializeCreditInstructionFinality (instruction : Uuid) :
    BulkTx AuthoritativeChildFinality := do
  let instruction ← lockInstruction instruction
  let batch ← lockBatch instruction.batch
  match instruction.paymentAttempt with
  | none => return ⟨.review, false, "instruction_unbound", none⟩
  | some pk =>
    let attempt ← zoom ledgerPart (PaymentAttempt.getLocked pk)
    let session ← get
    return childFinality session.ledger batch instruction attempt

end PaymentLifecycleService

/-! ## The task -/

namespace BulkTask

open PaymentLifecycleService BatchLeaseService

def unconfigured : PaymentOutcome where
  status := .review
  code := "SETTLEMENT_ADAPTER_UNCONFIGURED"
  category := "configuration"
  message := "Local account validation completed; settlement verification is required."

def notFound : PaymentOutcome where
  status := .invalidAccount
  code := "ID_MAPPER_NOT_FOUND"
  category := "account"
  message := "Destination account could not be validated."

def applyFenced (handle : BatchLeaseHandle) (attempt : Uuid) (outcome : PaymentOutcome) :
    BulkTx Unit := do
  let _ ← assertCurrentOwner handle
  let now ← timezoneNow
  let _ ← zoom ledgerPart (applyOutcome attempt outcome now)

/-- Persist non-PII execution evidence without treating ID lookup as settlement. -/
def recordBulkInstructionLifecycle (settings : BulkSettings) (batch : BulkPaymentBatch)
    (instruction : CreditInstruction) (beneficiaryFound : Bool) (handle : BatchLeaseHandle) :
    BulkTx PaymentAttempt := do
  let _ ← assertCurrentOwner handle
  let (attempt, _) ← zoom ledgerPart (getOrCreateAttempt "" operationBulkInstruction
    (requestIdOf batch instruction)
    [("batch_pk", .str (toString batch.pk)), ("instruction_pk", .str (toString instruction.pk)),
      ("amount", .str (decimalText instruction.amount)), ("currency", .str instruction.currency)]
    { amount := some instruction.amount
      currency := instruction.currency
      correlationId := batch.correlationId
      sourceBbId := batch.sourceBbId })
  if beneficiaryFound then
    if settings.providerRuntimeEnabled then
      -- The runtime task is enqueued when the transaction commits.
      let _ ← assertCurrentOwner handle
    else applyFenced handle attempt.pk unconfigured
  else applyFenced handle attempt.pk notFound
  return attempt

/-- What the loop over the instructions accumulates. -/
structure Tally where
  items : List ChildItem := []
  settledAmount : Cents := 0
  rejectedAmount : Cents := 0
deriving DecidableEq, Repr

def Tally.append (tally : Tally) (instruction : CreditInstruction) (status : ChildStatus) : Tally :=
  { tally with items := tally.items ++ [⟨instruction.pk, status, instruction.amount⟩] }

def saveStatus (handle : BatchLeaseHandle) (instruction : Uuid) (status : InstructionStatus)
    (failureReason : String) : BulkTx Unit := do
  let _ ← assertCurrentOwner handle
  write instructionTable .ofViolation instruction fun row => { row with status, failureReason }

/-- An unbound instruction is looked up, recorded and bound. -/
def bind (settings : BulkSettings) (batch : BulkPaymentBatch) (handle : BatchLeaseHandle)
    (instruction : CreditInstruction) : BulkTx CreditInstruction := do
  match instruction.paymentAttempt with
  | some _ => return instruction
  | none =>
    let session ← get
    let found := session.beneficiaries.any fun b =>
      b.payeeFunctionalId = instruction.payeeFunctionalId ∧ b.isActive
    let attempt ← recordBulkInstructionLifecycle settings batch instruction found handle
    let _ ← assertCurrentOwner handle
    bindCreditInstructionAttempt instruction.pk attempt.pk

/-- The verdict on an instruction without finality. -/
def nonFinalStatus (l : Ledger) (instruction : CreditInstruction) : ChildStatus :=
  match (instruction.paymentAttempt.bind l.attempt).map PaymentAttempt.status with
  | some .retryable => .retryable
  | some .uncertain => .uncertain
  | _ => .review

def project (handle : BatchLeaseHandle) (tally : Tally) (instruction : CreditInstruction)
    (finality : AuthoritativeChildFinality) : BulkTx Tally := do
  if finality.final ∧ finality.status = .settled then
    if instruction.status ≠ .completed then
      saveStatus handle instruction.pk .completed ""
    return { tally.append instruction .settled with
      settledAmount := tally.settledAmount + instruction.amount }
  else if finality.final ∧ finality.status = .rejected then
    if instruction.status ≠ .failed then
      saveStatus handle instruction.pk .failed "Provider evidence rejected the instruction."
    return { tally.append instruction .rejected with
      rejectedAmount := tally.rejectedAmount + instruction.amount }
  else
    let session ← get
    if instruction.status = .pending then
      saveStatus handle instruction.pk .validated ""
    return tally.append instruction (nonFinalStatus session.ledger instruction)

def processInstruction (settings : BulkSettings) (batch : BulkPaymentBatch)
    (handle : BatchLeaseHandle) (tally : Tally) (instruction : CreditInstruction) :
    BulkTx Tally := do
  let _ ← heartbeat handle
  let _ ← assertCurrentOwner handle
  if instruction.paymentAttempt = none ∧
      (instruction.status = .completed ∨ instruction.status = .failed) then
    -- A historic terminal-looking row without the binding remains non-final.
    return tally.append instruction .review
  else
    let instruction ← bind settings batch handle instruction
    let finality ← materializeCreditInstructionFinality instruction.pk
    project handle tally instruction finality

def processInstructions (settings : BulkSettings) (batch : BulkPaymentBatch)
    (handle : BatchLeaseHandle) : List CreditInstruction → Tally → BulkTx Tally
  | [], tally => return tally
  | instruction :: rest, tally => do
    let tally ← processInstruction settings batch handle tally instruction
    processInstructions settings batch handle rest tally

def projectedStatus (decision : GovStackBatchDecision) : BatchStatus :=
  if decision.outcomeAction.closes then
    if decision.rejectedCount = 0 then .completed
    else if decision.settledCount = 0 then .failed
    else .partiallyCompleted
  else .processing

/-- The result is dated when the decision closes the batch. -/
def resultTime (decision : GovStackBatchDecision) : BulkTx (Option Instant) :=
  if decision.outcomeAction.closes then do
    return some (← timezoneNow)
  else return none

def projectDecision (batch : Uuid) (handle : BatchLeaseHandle) (tally : Tally)
    (decision : GovStackBatchDecision) : BulkTx Unit := do
  if decision.outcomeAction.closes ∧ decision.nonFinalCount ≠ 0 then
    throw (.batchDecisionConflict "terminal projection with non-final child is forbidden")
  let resultGeneratedAt ← resultTime decision
  let _ ← assertCurrentOwner handle
  write batchTable .ofViolation batch fun row => { row with
    status := projectedStatus decision
    completedAmount := tally.settledAmount
    failedAmount := tally.rejectedAmount
    resultGeneratedAt }

def actionText (a : OutcomeAction) : String := upper a.text

def decisionEntry (batch : BulkPaymentBatch) (decision : GovStackBatchDecision) : AuditEntry where
  action := .batchDecisionRecorded
  actorBbId := batch.sourceBbId
  objectType := "batch_decision"
  objectPk := toString decision.pk
  requestId := batch.requestId
  details := [
    ("outcome_action", .str decision.outcomeAction.text),
    ("policy_state", .str (BatchPolicy.stateText decision.policyState)),
    ("reason", .str decision.reason),
    ("total_count", .int decision.totalCount),
    ("settled_count", .int decision.settledCount),
    ("rejected_count", .int decision.rejectedCount),
    ("non_final_count", .int decision.nonFinalCount),
    ("lease_generation", .int decision.leaseGeneration)]

def announce (batch : BulkPaymentBatch) (handle : BatchLeaseHandle)
    (decision : GovStackBatchDecision) : BulkTx Unit := do
  let _ ← assertCurrentOwner handle
  let (attempt, _) ← zoom ledgerPart (getOrCreateAttempt "" "g2p_bulk_callback"
    ("callback:" ++ batch.requestId ++ ":" ++ batch.batchId)
    [("RequestID", .str batch.requestId), ("BatchID", .str batch.batchId)]
    { correlationId := batch.correlationId, sourceBbId := batch.sourceBbId } false)
  let _ ← assertCurrentOwner handle
  let now ← timezoneNow
  let _ ← zoom ledgerPart (queueCallback attempt batch.callbackUrl
    [("RequestID", .str batch.requestId), ("BatchID", .str batch.batchId),
      ("Status", .str (actionText decision.outcomeAction))] now)

def record (batch : BulkPaymentBatch) (handle : BatchLeaseHandle)
    (decision : GovStackBatchDecision) (created : Bool) : BulkTx Unit := do
  if created then
    let _ ← assertCurrentOwner handle
    audit (decisionEntry batch decision)
    if batch.callbackUrl ≠ "" then
      announce batch handle decision

def processable (batch : BulkPaymentBatch) : Bool :=
  batch.status ∈ [BatchStatus.received, .processing]

/-- The transaction that follows admission. -/
def processBatch (settings : BulkSettings) (batch : Uuid) (handle : BatchLeaseHandle) :
    BulkTx Unit := do
  let batch ← lockBatch batch
  let _ ← assertCurrentOwner handle
  if processable batch then
    let _ ← heartbeat handle
    let session ← get
    let tally ← processInstructions settings batch handle (session.instructionsOf batch.pk) {}
    let _ ← assertCurrentOwner handle
    let (decision, created) ← BatchDecisionService.decide batch.pk handle tally.items
      settings.failureThreshold settings.returnFundsEnabled
    projectDecision batch.pk handle tally decision
    record batch handle decision created

/-- `None` when the batch is missing, terminal or leased to somebody else. -/
def admitDelivery (batch : Uuid) (ownerToken : String) : BulkTx (Option BatchLeaseHandle) := do
  let session ← get
  match session.batches.get batch with
  | none => return none
  | some batch => if processable batch then acquire batch.pk ownerToken else return none

end BulkTask

end Civicos.Payments
