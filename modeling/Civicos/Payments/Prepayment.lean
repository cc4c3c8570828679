import Civicos.Payments.Batch
import Civicos.Library.Pool

/-!
# Prepayment validation

A request is stored at once and validated by a task. The verdict, the attempt that the callback
belongs to and the outbox row of the callback are committed one after the other; a redelivered
message only looks at the status of the request.
-/
namespace Civicos.Payments

open Library Library.Transaction

inductive ValidationStatus where
  | pending
  | completed
  | failed
deriving DecidableEq, Repr

structure PrepaymentValidationRequest where
  pk : Uuid
  requestId : String
  sourceBbId : String
  batchId : String
  instructionId : String
  payeeFunctionalId : String
  amount : Cents
  currency : String
  narration : String
  status : ValidationStatus := .pending
  beneficiaryFound : Option Bool := none
  financialAddressValid : Option Bool := none
  callbackUrl : String := ""
deriving DecidableEq, Repr

namespace PrepaymentValidationRequest

def uniqueRequestId : Index PrepaymentValidationRequest where
  name := "request_id"
  Key := String
  key r := some r.requestId

def schema : Schema PrepaymentValidationRequest where
  pk := pk
  indexes := [uniqueRequestId]
  checks := [
    .width "request_id" 16 requestId,
    .width "source_bb_id" 20 sourceBbId,
    .width "batch_id" 20 batchId,
    .width "instruction_id" 20 instructionId,
    .width "payee_functional_id" 20 payeeFunctionalId,
    digits "amount" fun r => some r.amount,
    .width "currency" 3 currency,
    .width "narration" 200 narration,
    .width "callback_url" 500 callbackUrl]

end PrepaymentValidationRequest

structure PrepaymentStore where
  ledger : Ledger := {}
  beneficiaries : List GovStackBeneficiary := []
  requests : Table PrepaymentValidationRequest.schema := .empty
deriving DecidableEq

abbrev PrepaymentTx := Transaction PaymentError PrepaymentStore

namespace PrepaymentStore

def ledgerPart : Lens PrepaymentStore Ledger where
  get s := s.ledger
  set l s := { s with ledger := l }
  get_set _ _ := rfl
  set_get _ := rfl
  set_set _ _ _ := rfl

def requestTable : Lens PrepaymentStore (Table PrepaymentValidationRequest.schema) where
  get s := s.requests
  set t s := { s with requests := t }
  get_set _ _ := rfl
  set_get _ := rfl
  set_set _ _ _ := rfl

def audit (entry : AuditEntry) : PrepaymentTx Unit :=
  modify fun s => { s with ledger := { s.ledger with audits := s.ledger.audits ++ [entry] } }

end PrepaymentStore

open PrepaymentStore

/-! ## Receiving a request -/

structure PrepaymentCall where
  requestId : String
  sourceBbId : String
  batchId : String
  instructionId : String
  payeeFunctionalId : String
  amount : Cents
  currency : String
  narration : String
  callbackUrl : String
deriving DecidableEq, Repr

/-- `_REQUEST_ID_RE`; a field that is left out stays empty. -/
def isRequestId (s : String) : Bool :=
  s = "" ∨ s.length = 12 ∧ s.toList.all fun c => c.isAlphanum ∨ c = '-'

def validatePrepayment (c : PrepaymentCall) : PrepaymentTx PrepaymentValidationRequest :=
  exceptIntegrityError (do
      let pvr ← create requestTable .ofViolation fun pk =>
        { pk
          requestId := c.requestId
          sourceBbId := c.sourceBbId
          batchId := c.batchId
          instructionId := c.instructionId
          payeeFunctionalId := c.payeeFunctionalId
          amount := c.amount
          currency := c.currency
          narration := c.narration
          callbackUrl := c.callbackUrl }
      audit {
        action := .validationRequested
        actorBbId := c.sourceBbId
        objectType := "validation"
        objectPk := toString pvr.pk
        requestId := c.requestId
        details := [("batch_id", .str c.batchId), ("source_bb_id", .str c.sourceBbId),
          ("instruction_id", .str c.instructionId)] }
      return pvr)
    (throw (.duplicateValidationRequestError c.requestId))

/-! ## The task -/

/-- The body of the callback. -/
def validationResult (pvr : PrepaymentValidationRequest) (beneficiaryFound : Bool) : Json :=
  [("RequestID", .str pvr.requestId), ("Source_BatchID", .str pvr.batchId),
    ("NumberFailedCases", .int (if beneficiaryFound then 0 else 1)),
    ("FailedAccounts", .strs (if beneficiaryFound then [] else [pvr.instructionId]))]

/-- The first transaction: the verdict and the body of its callback, unless there is nothing to
decide. -/
def decideValidation (pvrPk : Uuid) :
    PrepaymentTx (Option (PrepaymentValidationRequest × Json)) := do
  let s ← get
  match s.requests.get pvrPk with
  | none => return none
  | some pvr =>
    if pvr.status ≠ .pending then
      return none
    else
      let beneficiaryFound := s.beneficiaries.any fun b =>
        b.payeeFunctionalId = pvr.payeeFunctionalId ∧ b.isActive
      let pvr := { pvr with
        beneficiaryFound := some beneficiaryFound
        financialAddressValid := some beneficiaryFound
        status := .completed }
      write requestTable .ofViolation pvrPk fun row => { row with
        beneficiaryFound := pvr.beneficiaryFound
        financialAddressValid := pvr.financialAddressValid
        status := pvr.status }
      audit {
        action := .validationCompleted
        actorBbId := pvr.sourceBbId
        objectType := "validation"
        objectPk := toString pvr.pk
        requestId := pvr.requestId
        details := [("batch_id", .str pvr.batchId), ("beneficiary_found", .bool beneficiaryFound)] }
      return some (pvr, validationResult pvr beneficiaryFound)

def callbackRequestId (pvr : PrepaymentValidationRequest) : String :=
  "callback:" ++ pvr.requestId ++ ":" ++ pvr.instructionId

/-- The attempt that the callback belongs to. -/
def callbackAttempt (pvr : PrepaymentValidationRequest) (payload : Json) :
    Tx (PaymentAttempt × Bool) :=
  PaymentLifecycleService.getOrCreateAttempt "" "g2p_prepayment_callback" (callbackRequestId pvr)
    payload { sourceBbId := pvr.sourceBbId }

/-- Tasks and replay sweeps, by the statement that they execute next. -/
inductive PrepaymentWorker where
  | task (pvr : Uuid)
  | attempting (pvr : PrepaymentValidationRequest) (payload : Json)
  | queueing (pvr : PrepaymentValidationRequest) (payload : Json) (attempt : PaymentAttempt)
  | posting (delivery : Uuid)
  | replay
  | replaying (due : List Uuid)
  | raised (e : PaymentError)
  | done
  | dead
deriving DecidableEq

/-- The clock and the answer of the callback endpoint. -/
structure PrepaymentChoice where
  now : Instant
  post : PostResult
deriving DecidableEq

namespace PrepaymentWorker

open PaymentLifecycleService

def entry : PrepaymentWorker → Bool
  | task _ => true
  | replay => true
  | _ => false

def act (db : PrepaymentStore) (p : PrepaymentWorker) (c : PrepaymentChoice) :
    Option (PrepaymentStore × PrepaymentWorker) :=
  match p with
  | task pvrPk =>
    match commit (decideValidation pvrPk) db with
    | (.ok none, db') => some (db', done)
    | (.ok (some (pvr, payload)), db') =>
      some (db', if pvr.callbackUrl = "" then done else attempting pvr payload)
    | (.error e, db') => some (db', raised e)
  | attempting pvr payload =>
    match commit (zoom ledgerPart (callbackAttempt pvr payload)) db with
    | (.ok (attempt, _), db') => some (db', queueing pvr payload attempt)
    | (.error e, db') => some (db', raised e)
  | queueing pvr payload attempt =>
    match commit (zoom ledgerPart (queueCallback attempt pvr.callbackUrl payload c.now)) db with
    | (.ok (delivery, _), db') => some (db', posting delivery.pk)
    | (.error e, db') => some (db', raised e)
  | posting delivery =>
    match commit (zoom ledgerPart
        (recordCallbackResult delivery c.post.httpStatus c.post.errorCode c.now)) db with
    | (.ok _, db') => some (db', done)
    | (.error e, db') => some (db', raised e)
  | replay => some (db, replaying ((dueCallbacks db.ledger c.now).map (·.pk)))
  | replaying [] => some (db, done)
  | replaying (delivery :: due) =>
    match commit (zoom ledgerPart
        (recordCallbackResult delivery c.post.httpStatus c.post.errorCode c.now)) db with
    | (.ok _, db') => some (db', replaying due)
    | (.error e, db') => some (db', raised e)
  | raised _ => none
  | done => none
  | dead => none

end PrepaymentWorker

inductive PrepaymentEvent where
  | receive (c : PrepaymentCall)
  | beneficiaries (rows : List GovStackBeneficiary)
deriving DecidableEq

/-- The endpoint refuses a malformed `RequestID`; the beneficiary registry changes freely. -/
def PrepaymentEvent.apply (db : PrepaymentStore) : PrepaymentEvent → Option PrepaymentStore
  | receive c => some (if isRequestId c.requestId then (commit (validatePrepayment c) db).2 else db)
  | beneficiaries rows => some { db with beneficiaries := rows }

def prepayments : Program PrepaymentStore PrepaymentWorker PrepaymentChoice PrepaymentEvent where
  Init db := db = {}
  entry := PrepaymentWorker.entry
  halted := .dead
  act := PrepaymentWorker.act
  env := PrepaymentEvent.apply

end Civicos.Payments
