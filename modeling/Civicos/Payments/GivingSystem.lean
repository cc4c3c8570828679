import Civicos.Payments.Receipt
import Civicos.Payments.Refund
import Civicos.Payments.Webhook

/-!
# Gifts, refunds and receipts together

The webhook task records gifts, the confirmation view and the events of the gateway record refunds,
and two issuers make receipts out of the gifts. They share the tables of one database.
-/
namespace Civicos.Payments

open Library Library.Transaction

/-- The normalised data of `charge.refunded`. -/
structure ChargeRefunded where
  gatewayRefundId : String := ""
  gatewayChargeId : String := ""
  refundAmount : Cents := 0
deriving DecidableEq, Repr

/-- `reported` lists the refunds that `charge.refunded` has reported; no code reads it. -/
structure GivingStore where
  gifts : WebhookStore := {}
  refunds : Table Refund.schema := .empty
  executed : List GatewayRefund := []
  charities : Table CharitySettings.schema := .empty
  receipts : Table OfficialDonationReceipt.schema := .empty
  serialSeq : ℕ := 0
  reported : List ChargeRefunded := []
deriving DecidableEq

namespace GivingStore

def giftPart : Lens GivingStore WebhookStore where
  get s := s.gifts
  set t s := { s with gifts := t }
  get_set _ _ := rfl
  set_get _ := rfl
  set_set _ _ _ := rfl

def refundPart : Lens GivingStore RefundStore where
  get s :=
    { intents := s.gifts.intents
      payments := s.gifts.payments
      refunds := s.refunds
      audits := s.gifts.audits
      executed := s.executed }
  set t s := { s with
    gifts := { s.gifts with
      intents := t.intents
      payments := t.payments
      audits := t.audits }
    refunds := t.refunds
    executed := t.executed }
  get_set _ _ := rfl
  set_get _ := rfl
  set_set _ _ _ := rfl

def receiptPart : Lens GivingStore ReceiptStore where
  get s :=
    { donations := s.gifts.donations
      charities := s.charities
      receipts := s.receipts
      serialSeq := s.serialSeq }
  set t s := { s with
    gifts := { s.gifts with donations := t.donations }
    charities := t.charities
    receipts := t.receipts
    serialSeq := t.serialSeq }
  get_set _ _ := rfl
  set_get _ := rfl
  set_set _ _ _ := rfl

/-- The refunds of a payment that succeeded, with those that only the gateway has told of -/
def refundedOf (s : GivingStore) (p : Payment) : Cents :=
  ((s.refunds.rows.filter fun r => r.payment = p.pk ∧ r.gatewayStatus = .succeeded).map
    Refund.amount).sum +
  ((s.reported.filter fun d => d.gatewayChargeId = p.gatewayChargeId ∧ d.gatewayRefundId ≠ "" ∧
    d.gatewayRefundId ∉ s.refunds.rows.map Refund.gatewayRefundId).dedup.map
      ChargeRefunded.refundAmount).sum

end GivingStore

/-! ## Refunds that the gateway reports -/

def actionRequired : String :=
  "Create Refund row manually in Django admin and set authorized_by " ++
    "to the staff member who approved this dashboard refund."

/-- `_handle_charge_refunded`: the audit entry is all that it writes. -/
def handleChargeRefunded (gatewayEventId : String) (d : ChargeRefunded) : RefundTx Unit := do
  if d.gatewayRefundId = "" then return
  if d.gatewayChargeId = "" then return
  let s ← get
  match s.payments.rows.find? (·.gatewayChargeId = d.gatewayChargeId) with
  | none => return
  | some payment =>
    if s.refunds.rows.any (·.gatewayRefundId = d.gatewayRefundId) then
      modify fun s => { s with audits := s.audits ++ [{
        action := .refundCompleted
        paymentIntent := payment.intent
        payment := payment.pk
        details := [("source", .str "stripe_webhook_confirmation"),
          ("gateway_event_id", .str gatewayEventId),
          ("gateway_refund_id", .str d.gatewayRefundId),
          ("refund_amount", .str (quotientText d.refundAmount))] }] }
    else
      modify fun s => { s with audits := s.audits ++ [{
        action := .refundRequested
        paymentIntent := payment.intent
        payment := payment.pk
        details := [("source", .str "stripe_dashboard"),
          ("gateway_event_id", .str gatewayEventId),
          ("gateway_refund_id", .str d.gatewayRefundId),
          ("refund_amount", .str (quotientText d.refundAmount)),
          ("action_required", .str actionRequired)] }] }

/-! ## The system -/

inductive GivingWorker where
  | webhook (w : WebhookWorker)
  | refund (w : RefundWorker)

inductive GivingChoice where
  | webhook (c : WebhookChoice)
  | refund (c : RefundChoice)

/-- A step of the receipts that creates or edits no donation. -/
def ReceiptStep.keepsGifts : ReceiptStep → Bool
  | donate _ | revise _ _ => false
  | _ => true

/-- Any event of the gateway may be delivered any number of times, and `donation_completed` be sent
for any donation. -/
inductive GivingEvent where
  | portal (x : PortalWriter)
  | chargeRefunded (gatewayEventId : String) (d : ChargeRefunded)
  | receipt (x : ReceiptStep)

namespace GivingWorker

def entry : GivingWorker → Bool
  | webhook w => w.entry
  | refund w => w.entry

def act (s : GivingStore) : GivingWorker → GivingChoice → Option (GivingStore × GivingWorker)
  | webhook w, .webhook c =>
    (w.act (GivingStore.giftPart.get s) c).map fun r =>
      (GivingStore.giftPart.set r.1 s, webhook r.2)
  | refund w, .refund c =>
    (w.act (GivingStore.refundPart.get s) c).map fun r =>
      (GivingStore.refundPart.set r.1 s, refund r.2)
  | _, _ => none

end GivingWorker

def GivingEvent.step (s : GivingStore) : GivingEvent → Option GivingStore
  | portal x => (x.write (GivingStore.giftPart.get s)).map (GivingStore.giftPart.set · s)
  | chargeRefunded gatewayEventId d =>
    let t := (commit (zoom GivingStore.refundPart (handleChargeRefunded gatewayEventId d)) s).2
    some { t with reported := t.reported ++ [d] }
  | receipt x =>
    if x.keepsGifts then
      (x.step (GivingStore.receiptPart.get s)).map (GivingStore.receiptPart.set · s)
    else none

/-- Any number of webhook deliveries and refunds, and any order of events. -/
def giving : Program GivingStore GivingWorker GivingChoice GivingEvent where
  Init s := s = {}
  entry := GivingWorker.entry
  halted := .webhook .dead
  act := GivingWorker.act
  env s x := x.step s

end Civicos.Payments
