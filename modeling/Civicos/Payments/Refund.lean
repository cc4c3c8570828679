import Civicos.Payments.Checkout
import Civicos.Library.Pool

/-!
# Refunds

The confirmation view books a refund under the lock of its payment, calls the gateway once the
booking is committed, and then records what the gateway answered.
-/
namespace Civicos.Payments

open Library Library.Transaction

/-- A refund that the gateway carried out. -/
structure GatewayRefund where
  gatewayChargeId : String
  amount : Cents
  idempotencyKey : String
deriving DecidableEq, Repr

structure RefundStore where
  intents : Table PaymentIntent.schema := .empty
  payments : Table Payment.schema := .empty
  refunds : Table Refund.schema := .empty
  audits : List PaymentAuditEntry := []
  /-- The ledger of the gateway. -/
  executed : List GatewayRefund := []
deriving DecidableEq

abbrev RefundTx := Transaction PaymentError RefundStore

namespace RefundStore

def intentTable : Lens RefundStore (Table PaymentIntent.schema) where
  get s := s.intents
  set t s := { s with intents := t }
  get_set _ _ := rfl
  set_get _ := rfl
  set_set _ _ _ := rfl

def paymentTable : Lens RefundStore (Table Payment.schema) where
  get s := s.payments
  set t s := { s with payments := t }
  get_set _ _ := rfl
  set_get _ := rfl
  set_set _ _ _ := rfl

def refundTable : Lens RefundStore (Table Refund.schema) where
  get s := s.refunds
  set t s := { s with refunds := t }
  get_set _ _ := rfl
  set_get _ := rfl
  set_set _ _ _ := rfl

/-- The sum of all refunds of a payment that are not failed. -/
def computeAlreadyRefunded (s : RefundStore) (payment : Uuid) : Cents :=
  ((s.refunds.rows.filter fun r => r.payment = payment ∧ r.gatewayStatus ≠ .failed).map
    Refund.amount).sum

/-- What left the gateway for a charge. -/
def refundedAtGateway (s : RefundStore) (gatewayChargeId : String) : Cents :=
  ((s.executed.filter (·.gatewayChargeId = gatewayChargeId)).map GatewayRefund.amount).sum

end RefundStore

/-- What the form stored in the session. -/
structure RefundSession where
  paymentPk : Uuid
  amount : Cents
  reason : String
  notes : String := ""
deriving DecidableEq

structure RefundPost where
  paymentPk : Uuid
  session : Option RefundSession
  user : Uuid
deriving DecidableEq

/-- What the view's commit hook closes over. -/
structure RefundCall where
  refund : Uuid
  payment : Uuid
  gatewayChargeId : String
  amount : Cents
  reason : String
  idempotencyKey : String
deriving DecidableEq

namespace RefundConfirmView

def getSessionData (r : RefundPost) (payment : Payment) : Option RefundSession :=
  r.session.filter (·.paymentPk = payment.pk)

def exceedsMessage (amount maxRefundable : Cents) : String :=
  "Refund amount $" ++ decimalText amount ++ " now exceeds maximum refundable $" ++
    decimalText maxRefundable ++ " (another refund may have been issued). Please start over."

/-- Book the refund under the lock of the payment; a message sends the user back. -/
def book (payment : Payment) (data : RefundSession) (user : Uuid) (idempotencyKey : String)
    (now : Instant) : RefundTx (Except String RefundCall) := do
  let intent ← lookup RefundStore.intentTable (.doesNotExist "PaymentIntent") payment.intent
  if intent.status ≠ .completed then return .error "Only completed payments can be refunded."
  let s ← get
  let maxRefundable := payment.amountPaid - s.computeAlreadyRefunded payment.pk
  if data.amount > maxRefundable then return .error (exceedsMessage data.amount maxRefundable)
  let refund ← create RefundStore.refundTable .ofViolation fun pk =>
    { pk
      payment := payment.pk
      amount := data.amount
      reason := data.reason
      notes := data.notes
      gatewayRefundId := "pending_" ++ idempotencyKey
      gatewayStatus := .pending
      authorizedBy := user
      refundedAt := now }
  modify fun s => { s with audits := s.audits ++ [{
    action := .refundRequested
    paymentIntent := payment.intent
    payment := payment.pk
    refund := refund.pk
    actor := user
    details := [("refund_pk", .str (toString refund.pk)),
      ("amount", .str (decimalText data.amount)),
      ("reason", .str data.reason), ("payment_pk", .str (toString payment.pk)),
      ("staff_pk", .str (toString user))] }] }
  return .ok ⟨refund.pk, payment.pk, payment.gatewayChargeId, data.amount, data.reason,
    idempotencyKey⟩

def post (r : RefundPost) (rateLimited : Bool) (idempotencyKey : String) (now : Instant) :
    RefundTx (Except String RefundCall) := do
  let payment ← lookup RefundStore.paymentTable (.doesNotExist "Payment") r.paymentPk
  if rateLimited then return .error "Too many refund attempts. Please wait a minute."
  match getSessionData r payment with
  | none => return .error "Session expired. Please start over."
  | some data => book payment data r.user idempotencyKey now

/-- The gateway confirmed the refund. -/
def confirmed (call : RefundCall) (gatewayRefundId : String) : RefundTx Unit :=
  write RefundStore.refundTable .ofViolation call.refund fun row =>
    { row with gatewayRefundId, gatewayStatus := .succeeded }

/-- Anything raised by the call, or by recording its result, counts as a failed refund. -/
def callFailed (call : RefundCall) : RefundTx Unit :=
  write RefundStore.refundTable .ofViolation call.refund fun row =>
    { row with gatewayStatus := .failed, gatewayRefundId := "failed_" ++ toString call.refund }

end RefundConfirmView

/-! ## Requests -/

/-- A post and its commit hook. `executed` remembers whether the gateway carried the refund out;
no code reads it. -/
inductive RefundWorker where
  | post (r : RefundPost)
  | calling (call : RefundCall)
  | recording (call : RefundCall) (executed : Bool) (gatewayRefundId : String)
  | failing (call : RefundCall) (executed : Bool)
  | redirected (message : String)
  | raised (e : PaymentError)
  | done
  | dead

structure RefundChoice where
  rateLimited : Bool := false
  idempotencyKey : String := ""
  now : Instant := 0
  /-- The gateway may carry a refund out and still raise or time out. -/
  executes : Bool := false
  gatewayRefundId : Option String := none

/-- Intents and payments come from elsewhere; payments stay as they are. -/
inductive CheckoutWriter where
  | intend (i : PaymentIntent)
  | transition (intent : Uuid) (status : IntentStatus)
  | capture (p : Payment)

namespace RefundWorker

open RefundConfirmView

def entry : RefundWorker → Bool
  | post _ => true
  | _ => false

/-- `gateway.create_refund` -/
def createRefund (db : RefundStore) (call : RefundCall) (executes : Bool) : RefundStore :=
  if executes then
    { db with executed := db.executed ++
      [⟨call.gatewayChargeId, call.amount, call.idempotencyKey⟩] }
  else db

def act (db : RefundStore) (p : RefundWorker) (c : RefundChoice) :
    Option (RefundStore × RefundWorker) :=
  match p with
  | post r =>
    match RefundConfirmView.post r c.rateLimited c.idempotencyKey c.now db with
    | .ok (.ok call, db') => some (db', calling call)
    | .ok (.error message, db') => some (db', redirected message)
    | .error e => some (db, raised e)
  | calling call =>
    some (createRefund db call c.executes,
      match c.gatewayRefundId with
      | some gatewayRefundId => recording call c.executes gatewayRefundId
      | none => failing call c.executes)
  | recording call executed gatewayRefundId =>
    match confirmed call gatewayRefundId db with
    | .ok (_, db') => some (db', done)
    | .error _ => some (db, failing call executed)
  | failing call _ =>
    match callFailed call db with
    | .ok (_, db') => some (db', done)
    | .error e => some (db, raised e)
  | redirected _ => none
  | raised _ => none
  | done => none
  | dead => none

end RefundWorker

namespace CheckoutWriter

def write (db : RefundStore) : CheckoutWriter → Option RefundStore
  | intend i => some (commit (Transaction.create RefundStore.intentTable PaymentError.ofViolation
      fun pk => { i with pk }) db).2
  | transition intent status => some (commit (Transaction.write RefundStore.intentTable
      PaymentError.ofViolation intent fun row => { row with status }) db).2
  | capture p => some (commit (Transaction.create RefundStore.paymentTable PaymentError.ofViolation
      fun pk => { p with pk }) db).2

end CheckoutWriter

/-- Any number of confirmations; nothing was refunded before. -/
def refunds : Program RefundStore RefundWorker RefundChoice CheckoutWriter where
  Init db := db.refunds = .empty ∧ db.executed = []
  entry := RefundWorker.entry
  halted := .dead
  act := RefundWorker.act
  env db x := x.write db

end Civicos.Payments
