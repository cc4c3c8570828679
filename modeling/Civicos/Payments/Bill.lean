import Civicos.Payments.Lifecycle
import Civicos.Library.Pool

/-!
# Bill payments

Government bills, the notifications of their payment, and the service that records them. Every
request is one transaction.
-/
namespace Civicos.Payments

open Library Library.Transaction

inductive BillStatus where
  | unpaid
  | paid
  | overdue
  | cancelled
deriving DecidableEq, Repr

structure GovStackBill where
  pk : Uuid
  billId : String
  amount : Cents
  currency : String
  status : BillStatus := .unpaid
  platformTenantId : String := ""
deriving DecidableEq, Repr

namespace GovStackBill

def tenantBillId : Index GovStackBill where
  name := "gs_bill_tenant_billid_uniq"
  Key := String × String
  key b := some (b.platformTenantId, b.billId)

def schema : Schema GovStackBill where
  pk := pk
  indexes := [tenantBillId]
  checks := [
    .width "bill_id" 100 billId,
    digits "amount" fun b => some b.amount,
    .width "currency" 3 currency,
    .width "platform_tenant_id" 100 platformTenantId,
    ⟨.check "gs_bill_amount_positive", fun b => 0 < b.amount⟩]

end GovStackBill

inductive BillPaymentStatus where
  | pending
  | completed
  | failed
deriving DecidableEq, Repr

structure GovStackBillPayment where
  pk : Uuid
  requestId : String
  bill : Uuid
  billInquiryRequestId : String
  paymentReferenceId : String
  correlationId : String
  payerFiId : String
  platformTenantId : String
  amount : Cents
  currency : String
  status : BillPaymentStatus := .pending
deriving DecidableEq, Repr

namespace GovStackBillPayment

def tenantRequestId : Index GovStackBillPayment where
  name := "gs_billpayment_tenant_requestid_uniq"
  Key := String × String
  key p := some (p.platformTenantId, p.requestId)

def schema : Schema GovStackBillPayment where
  pk := pk
  indexes := [tenantRequestId]
  checks := [
    .width "request_id" 100 requestId,
    .width "bill_inquiry_request_id" 100 billInquiryRequestId,
    .width "payment_reference_id" 100 paymentReferenceId,
    .width "correlation_id" 100 correlationId,
    .width "payer_fi_id" 100 payerFiId,
    .width "platform_tenant_id" 100 platformTenantId,
    digits "amount" fun p => some p.amount,
    .width "currency" 3 currency,
    ⟨.check "gs_billpay_amount_positive", fun p => 0 < p.amount⟩]

end GovStackBillPayment

structure BillStore where
  ledger : Ledger := {}
  bills : Table GovStackBill.schema := .empty
  payments : Table GovStackBillPayment.schema := .empty
deriving DecidableEq

abbrev BillTx := Transaction PaymentError BillStore

namespace BillStore

def ledgerPart : Lens BillStore Ledger where
  get s := s.ledger
  set l s := { s with ledger := l }
  get_set _ _ := rfl
  set_get _ := rfl
  set_set _ _ _ := rfl

def billTable : Lens BillStore (Table GovStackBill.schema) where
  get s := s.bills
  set t s := { s with bills := t }
  get_set _ _ := rfl
  set_get _ := rfl
  set_set _ _ _ := rfl

def paymentTable : Lens BillStore (Table GovStackBillPayment.schema) where
  get s := s.payments
  set t s := { s with payments := t }
  get_set _ _ := rfl
  set_get _ := rfl
  set_set _ _ _ := rfl

/-- `filter(bill_id=…).first()`, within a tenant if the caller declares one. -/
def billFor (s : BillStore) (billId platformTenantId : String) : Option GovStackBill :=
  s.bills.rows.find? fun b =>
    b.billId = billId ∧ (platformTenantId ≠ "" → b.platformTenantId = platformTenantId)

end BillStore

def PaymentError.billNotFound : PaymentError := .apiException 404 "bill_not_found" "Bill not found."

/-! ## The service -/

structure TransferRequest where
  requestId : String
  billId : String
  billInquiryRequestId : String := ""
  paymentReferenceId : String := ""
  correlationId : String := ""
  payerFiId : String := ""
  platformTenantId : String := ""
deriving DecidableEq

namespace GovStackP2GService

open PaymentLifecycleService

def audit (entry : AuditEntry) : BillTx Unit :=
  match entry.overflow with
  | some column => throw (.dataError column)
  | none => modify fun s => { s with
      ledger := { s.ledger with audits := s.ledger.audits ++ [entry] } }

def getBill (billId platformTenantId : String) : BillTx GovStackBill := do
  let s ← get
  let some bill := s.billFor billId platformTenantId | throw .billNotFound
  return bill

def createPayment (r : TransferRequest) (bill : GovStackBill) : BillTx GovStackBillPayment :=
  exceptIntegrityError
    (create BillStore.paymentTable .ofViolation fun pk =>
      { pk
        requestId := clip 100 r.requestId
        bill := bill.pk
        billInquiryRequestId := clip 100 r.billInquiryRequestId
        paymentReferenceId := clip 100 r.paymentReferenceId
        correlationId := clip 100 r.correlationId
        payerFiId := clip 100 r.payerFiId
        platformTenantId := clip 100 r.platformTenantId
        amount := bill.amount
        currency := bill.currency
        status := .completed })
    (throw (.duplicateBillPaymentError r.requestId))

def settlementVerification : PaymentOutcome where
  status := .review
  code := "P2G_SETTLEMENT_VERIFICATION_REQUIRED"
  category := "reconciliation"
  message := "Payment notification recorded; settlement verification is required."

/-- The durable attempt behind a notification. With the provider runtime it is dispatched when
the transaction commits; otherwise it goes to review. -/
def recordAttempt (providerRuntimeEnabled : Bool) (r : TransferRequest)
    (payment : GovStackBillPayment) (now : Instant) : Tx Unit := do
  let (attempt, _) ← getOrCreateAttempt r.platformTenantId "p2g_bill_notification" r.requestId
    [("bill_pk", .str (toString payment.bill)), ("payment_pk", .str (toString payment.pk)),
      ("amount", .str (decimalText payment.amount)), ("currency", .str payment.currency)]
    { amount := some payment.amount
      currency := payment.currency
      correlationId := payment.correlationId
      externalTransactionId := payment.paymentReferenceId }
  if ¬ providerRuntimeEnabled then
    let _ ← applyOutcome attempt.pk settlementVerification now

def markPaid (bill : GovStackBill) : BillTx Unit :=
  if bill.status ≠ .paid then
    write BillStore.billTable .ofViolation bill.pk fun row => { row with status := .paid }
  else return

def createTransferRequest (providerRuntimeEnabled : Bool) (r : TransferRequest) (now : Instant) :
    BillTx GovStackBillPayment := do
  let bill ← getBill r.billId r.platformTenantId
  let payment ← createPayment r bill
  zoom BillStore.ledgerPart (recordAttempt providerRuntimeEnabled r payment now)
  -- A bill in any status accepts the notification: the funds have already moved.
  markPaid bill
  audit {
    action := .billPaymentRequested
    actorBbId := ""
    objectType := "bill_payment"
    objectPk := toString payment.pk
    requestId := ""
    details := [("request_id", .str payment.requestId), ("bill_pk", .str (toString bill.pk))] }
  return payment

def markBillPaid (billId platformTenantId actorPayerFiId : String) : BillTx GovStackBill := do
  let bill ← getBill billId platformTenantId
  markPaid bill
  audit {
    action := .billPaid
    actorBbId := actorPayerFiId
    objectType := "bill"
    objectPk := toString bill.pk
    requestId := ""
    details := [("bill_pk", .str (toString bill.pk)),
      ("trigger",
        .str (if bill.status ≠ .paid then "status_transition" else "already_paid_noop"))] }
  return { bill with status := .paid }

end GovStackP2GService

/-! ## Requests -/

inductive BillWorker where
  | transfer (r : TransferRequest)
  | markPaid (billId platformTenantId actorPayerFiId : String)
  | transferred (result : Except PaymentError GovStackBillPayment)
  | marked (result : Except PaymentError GovStackBill)
  | dead

structure BillChoice where
  providerRuntimeEnabled : Bool
  now : Instant

/-- Staff publish and correct bills; a paid bill stays paid. Everybody else writes the ledger. -/
inductive BillWriter where
  | publish (billId : String) (amount : Cents) (currency : String) (status : BillStatus)
      (platformTenantId : String)
  | correct (pk : Uuid) (amount : Cents) (currency : String) (status : BillStatus)
  | ledger (l : Ledger)

namespace BillWorker

open GovStackP2GService

def isEntry : BillWorker → Bool
  | transfer _ => true
  | markPaid .. => true
  | _ => false

def act (s : BillStore) (p : BillWorker) (c : BillChoice) : Option (BillStore × BillWorker) :=
  match p with
  | transfer r =>
    let x := commit (createTransferRequest c.providerRuntimeEnabled r c.now) s
    some (x.2, transferred x.1)
  | markPaid billId platformTenantId actorPayerFiId =>
    let x := commit (markBillPaid billId platformTenantId actorPayerFiId) s
    some (x.2, marked x.1)
  | _ => none

end BillWorker

def BillWriter.write (s : BillStore) : BillWriter → Option BillStore
  | publish billId amount currency status platformTenantId =>
    some (commit (create BillStore.billTable PaymentError.ofViolation fun pk =>
      { pk, billId, amount, currency, status, platformTenantId }) s).2
  | correct pk amount currency status =>
    if s.bills.rows.any fun b => b.pk = pk ∧ b.status = .paid ∧ status ≠ .paid then none
    else some (commit (Transaction.write BillStore.billTable PaymentError.ofViolation pk fun row =>
      { row with amount, currency, status }) s).2
  | ledger l => some { s with ledger := l }

/-- No payment has been notified yet. -/
def bills : Program BillStore BillWorker BillChoice BillWriter where
  Init s := s.payments = .empty
  entry := BillWorker.isEntry
  halted := .dead
  act := BillWorker.act
  env := BillWriter.write

end Civicos.Payments
