import Civicos.Payments.Lifecycle
import Civicos.Library.Fence

/-!
# Bulk payment batches

Rows of bulk disbursement, and the store of its worker: the payment ledger together with the
batch tables. A session adds the clock readings that a transaction is going to make.
-/
namespace Civicos.Payments

open Library Library.Transaction

inductive BatchStatus where
  | received
  | validating
  | processing
  | completed
  | partiallyCompleted
  | failed
deriving DecidableEq, Repr

/-- A terminal batch is never processed again. -/
def BatchStatus.isTerminal (s : BatchStatus) : Bool :=
  s ∈ [completed, partiallyCompleted, failed]

structure BulkPaymentBatch where
  pk : Uuid
  requestId : String
  sourceBbId : String
  batchId : String
  status : BatchStatus := .received
  callbackUrl : String := ""
  correlationId : String := ""
  totalAmount : Option Cents := none
  completedAmount : Cents := 0
  failedAmount : Cents := 0
  resultGeneratedAt : Option Instant := none
deriving DecidableEq, Repr

namespace BulkPaymentBatch

def uniqueBatchId : Index BulkPaymentBatch where
  name := "batch_id"
  Key := String
  key b := some b.batchId

def schema : Schema BulkPaymentBatch where
  pk := pk
  indexes := [uniqueBatchId]
  checks := [
    .width "request_id" 16 requestId,
    .width "source_bb_id" 20 sourceBbId,
    .width "batch_id" 20 batchId,
    .width "callback_url" 500 callbackUrl,
    .width "correlation_id" 100 correlationId,
    digits "total_amount" totalAmount,
    digits "completed_amount" fun b => some b.completedAmount,
    digits "failed_amount" fun b => some b.failedAmount]

end BulkPaymentBatch

inductive InstructionStatus where
  | pending
  | validated
  | completed
  | failed
deriving DecidableEq, Repr

structure CreditInstruction where
  pk : Uuid
  batch : Uuid
  instructionId : String
  payeeFunctionalId : String
  amount : Cents
  currency : String
  status : InstructionStatus := .pending
  failureReason : String := ""
  paymentAttempt : Option Uuid := none
deriving DecidableEq, Repr

namespace CreditInstruction

/-- The columns fixed when the row is created. -/
def identity (i : CreditInstruction) : Uuid × Uuid × String × String × Cents × String :=
  (i.pk, i.batch, i.instructionId, i.payeeFunctionalId, i.amount, i.currency)

def uniqueInBatch : Index CreditInstruction where
  name := "batch_id, instruction_id"
  Key := Uuid × String
  key i := some (i.batch, i.instructionId)

def oneToOne : Index CreditInstruction where
  name := "payment_attempt_id"
  Key := Uuid
  key i := i.paymentAttempt

def schema : Schema CreditInstruction where
  pk := pk
  indexes := [uniqueInBatch, oneToOne]
  checks := [
    .width "instruction_id" 16 instructionId,
    .width "payee_functional_id" 20 payeeFunctionalId,
    digits "amount" fun i => some i.amount,
    .width "currency" 3 currency,
    .width "failure_reason" 200 failureReason]

end CreditInstruction

structure GovStackBeneficiary where
  payeeFunctionalId : String
  isActive : Bool
deriving DecidableEq, Repr

/-! ## Leases and decisions -/

structure BatchLease where
  pk : Uuid
  batch : Uuid
  ownerToken : String
  generation : ℕ
  expiresAt : Instant
deriving DecidableEq, Repr

namespace BatchLease

def oneToOne : Index BatchLease where
  name := "batch_id"
  Key := Uuid
  key l := some l.batch

def schema : Schema BatchLease where
  pk := pk
  indexes := [oneToOne]
  checks := [.width "owner_token" 128 ownerToken]

/-- The lease as a fence. -/
def fence (l : BatchLease) : Lease String := ⟨⟨l.ownerToken, l.generation⟩, l.expiresAt⟩

end BatchLease

inductive ChildStatus where
  | settled
  | rejected
  | retryable
  | uncertain
  | review
  | unresolved
  | other (text : String)
deriving DecidableEq, Repr

/-- The verdict on one instruction that a decision is based on. -/
structure ChildItem where
  id : Uuid
  status : ChildStatus
  amount : Cents
deriving DecidableEq, Repr

inductive PolicyState where
  | paused
  | unresolved
  | uncertain
  | retryable
  | review
  | partiallySettled
  | completed
deriving DecidableEq, Repr

inductive OutcomeAction where
  | empty
  | pause
  | retry
  | review
  | terminal
  | returnFunds
deriving DecidableEq, Repr

/-- What the fingerprint of a decision is taken over. -/
structure DecisionInputs where
  batchPk : Uuid
  items : List ChildItem
  failureThreshold : String
  returnFundsEnabled : Bool
deriving DecidableEq, Repr

structure DecisionDetails where
  retryIds : List Uuid
  settledIds : List Uuid
  kickBack : Bool
deriving DecidableEq, Repr

structure GovStackBatchDecision where
  pk : Uuid
  batch : Uuid
  fingerprint : Digest DecisionInputs
  leaseOwnerToken : String
  leaseGeneration : ℕ
  policyState : PolicyState
  outcomeAction : OutcomeAction
  totalCount : ℕ
  settledCount : ℕ
  rejectedCount : ℕ
  nonFinalCount : ℕ
  reason : String
  details : DecisionDetails
deriving DecidableEq, Repr

namespace GovStackBatchDecision

def batchFingerprint : Index GovStackBatchDecision where
  name := "gs_batch_decision_fingerprint_uniq"
  Key := Uuid × Digest DecisionInputs
  key d := some (d.batch, d.fingerprint)

def schema : Schema GovStackBatchDecision where
  pk := pk
  indexes := [batchFingerprint]
  checks := [
    .width "lease_owner_token" 128 leaseOwnerToken,
    .width "reason" 100 reason]

end GovStackBatchDecision

/-! ## The store -/

structure BulkStore where
  ledger : Ledger := {}
  beneficiaries : List GovStackBeneficiary := []
  batches : Table BulkPaymentBatch.schema := .empty
  instructions : Table CreditInstruction.schema := .empty
  leases : Table BatchLease.schema := .empty
  decisions : Table GovStackBatchDecision.schema := .empty
deriving DecidableEq

namespace BulkStore

def instructionsOf (s : BulkStore) (batch : Uuid) : List CreditInstruction :=
  s.instructions.rows.filter (·.batch = batch)

def leaseOf (s : BulkStore) (batch : Uuid) : Option BatchLease :=
  s.leases.rows.find? (·.batch = batch)

/-- Who may write to the batch. -/
def fence (s : BulkStore) (batch : Uuid) : Option (Lease String) :=
  (s.leaseOf batch).map BatchLease.fence

def decisionFor (s : BulkStore) (batch : Uuid) (fingerprint : Digest DecisionInputs) :
    Option GovStackBatchDecision :=
  s.decisions.rows.find? fun d => d.batch = batch ∧ d.fingerprint = fingerprint

/-- A decision of the same lease generation on other inputs. -/
def otherDecision (s : BulkStore) (batch : Uuid) (generation : ℕ)
    (fingerprint : Digest DecisionInputs) : Option GovStackBatchDecision :=
  s.decisions.rows.find? fun d =>
    d.batch = batch ∧ d.leaseGeneration = generation ∧ d.fingerprint ≠ fingerprint

end BulkStore

/-- `clock` are the readings to come. -/
structure Session extends BulkStore where
  clock : List Instant

abbrev BulkTx := Transaction PaymentError Session

namespace Session

def ledgerPart : Lens Session Ledger where
  get s := s.ledger
  set l s := { s with ledger := l }
  get_set _ _ := rfl
  set_get _ := rfl
  set_set _ _ _ := rfl

def batchTable : Lens Session (Table BulkPaymentBatch.schema) where
  get s := s.batches
  set t s := { s with batches := t }
  get_set _ _ := rfl
  set_get _ := rfl
  set_set _ _ _ := rfl

def instructionTable : Lens Session (Table CreditInstruction.schema) where
  get s := s.instructions
  set t s := { s with instructions := t }
  get_set _ _ := rfl
  set_get _ := rfl
  set_set _ _ _ := rfl

def leaseTable : Lens Session (Table BatchLease.schema) where
  get s := s.leases
  set t s := { s with leases := t }
  get_set _ _ := rfl
  set_get _ := rfl
  set_set _ _ _ := rfl

def decisionTable : Lens Session (Table GovStackBatchDecision.schema) where
  get s := s.decisions
  set t s := { s with decisions := t }
  get_set _ _ := rfl
  set_get _ := rfl
  set_set _ _ _ := rfl

/-- `timezone.now()` -/
def timezoneNow : BulkTx Instant := fun s =>
  .ok (s.clock.headD 0, { s with clock := s.clock.tail })

def audit (entry : AuditEntry) : BulkTx Unit :=
  modify fun s => { s with ledger := { s.ledger with audits := s.ledger.audits ++ [entry] } }

/-- Commit a transaction whose clock reads `clock`. -/
def commitAt {α : Type} (x : BulkTx α) (clock : List Instant) (db : BulkStore) :
    Except PaymentError α × BulkStore :=
  ((commit x ⟨db, clock⟩).1, (commit x ⟨db, clock⟩).2.toBulkStore)

end Session

/-! ## Receiving a batch -/

namespace GovStackBulkPaymentService

open Session

structure InstructionItem where
  instructionId : String
  payeeFunctionalId : String
  amount : Cents
  currency : String
deriving DecidableEq, Repr

def createInstructions (batch : Uuid) : List InstructionItem → BulkTx Unit
  | [] => return
  | item :: items => do
    let _ ← create instructionTable .ofViolation fun pk =>
      { pk, batch
        instructionId := item.instructionId
        payeeFunctionalId := item.payeeFunctionalId
        amount := item.amount
        currency := item.currency : CreditInstruction }
    createInstructions batch items

def receiveBatch (requestId sourceBbId batchId : String) (instructions : List InstructionItem)
    (callbackUrl correlationId : String) : BulkTx BulkPaymentBatch :=
  let totalAmount := (instructions.map (·.amount)).sum
  exceptIntegrityError (do
      let batch ← create batchTable .ofViolation fun pk =>
        { pk, requestId, sourceBbId, batchId, callbackUrl, correlationId
          totalAmount := some totalAmount }
      createInstructions batch.pk instructions
      audit {
        action := .batchReceived
        actorBbId := sourceBbId
        objectType := "batch"
        objectPk := toString batch.pk
        requestId
        details := [("batch_id", .str batchId), ("source_bb_id", .str sourceBbId),
          ("instruction_count", .int instructions.length),
          ("total_amount", .str (decimalText totalAmount))] }
      return batch)
    (throw (.duplicateBatchError batchId))

end GovStackBulkPaymentService

end Civicos.Payments
