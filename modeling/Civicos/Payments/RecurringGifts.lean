import Civicos.Payments.Webhook

/-!
# Recurring gifts

A plan stands for a subscription at the gateway. The events of the subscription and of its invoices
move its status and record the gifts, and the donor can cancel it.
-/
namespace Civicos.Payments

open Library Library.Transaction

inductive PlanStatus where
  | active
  | paused
  | cancelled
deriving DecidableEq, Repr

structure RecurringGiftPlan where
  pk : Uuid
  donor : Uuid
  campaign : Option Uuid := none
  gatewaySubscriptionId : String
  status : PlanStatus := .active
  cancelledAt : Option Instant := none
  cancellationReason : String := ""
deriving DecidableEq, Repr

namespace RecurringGiftPlan

def gatewaySubscriptionIdKey : Index RecurringGiftPlan where
  name := "payments_recurringgiftplan_gateway_subscription_id_key"
  Key := String
  key p := some p.gatewaySubscriptionId

def schema : Schema RecurringGiftPlan where
  pk := pk
  indexes := [gatewaySubscriptionIdKey]
  checks := [
    .width "gateway_subscription_id" 255 gatewaySubscriptionId,
    .width "cancellation_reason" 500 cancellationReason]

end RecurringGiftPlan

/-- A donation with its `recurring_plan`. -/
structure RecurringDonation extends Donation where
  recurringPlan : Uuid
deriving DecidableEq, Repr

namespace RecurringDonation

def schema : Schema RecurringDonation where
  pk d := d.pk
  checks := Donation.schema.checks.map fun c => ⟨c.violation, fun d => c.holds d.toDonation⟩

end RecurringDonation

inductive PlanAuditAction where
  | recurringPlanCancelled
  | donationCreated
deriving DecidableEq, Repr

structure PlanAuditEntry where
  action : PlanAuditAction
  actor : Option Uuid := none
  paymentIntent : Option Uuid := none
  payment : Option Uuid := none
  details : Json
deriving DecidableEq, Repr

structure RecurringStore where
  users : Table User.schema := .empty
  plans : Table RecurringGiftPlan.schema := .empty
  intents : Table PaymentIntent.schema := .empty
  payments : Table Payment.schema := .empty
  donations : Table RecurringDonation.schema := .empty
  audits : List PlanAuditEntry := []
deriving DecidableEq

abbrev RecurringTx := Transaction PaymentError RecurringStore

namespace RecurringStore

def userTable : Lens RecurringStore (Table User.schema) where
  get s := s.users
  set t s := { s with users := t }
  get_set _ _ := rfl
  set_get _ := rfl
  set_set _ _ _ := rfl

def planTable : Lens RecurringStore (Table RecurringGiftPlan.schema) where
  get s := s.plans
  set t s := { s with plans := t }
  get_set _ _ := rfl
  set_get _ := rfl
  set_set _ _ _ := rfl

def intentTable : Lens RecurringStore (Table PaymentIntent.schema) where
  get s := s.intents
  set t s := { s with intents := t }
  get_set _ _ := rfl
  set_get _ := rfl
  set_set _ _ _ := rfl

def paymentTable : Lens RecurringStore (Table Payment.schema) where
  get s := s.payments
  set t s := { s with payments := t }
  get_set _ _ := rfl
  set_get _ := rfl
  set_set _ _ _ := rfl

def donationTable : Lens RecurringStore (Table RecurringDonation.schema) where
  get s := s.donations
  set t s := { s with donations := t }
  get_set _ _ := rfl
  set_get _ := rfl
  set_set _ _ _ := rfl

/-- `RecurringGiftPlan.objects.get(gateway_subscription_id=…)` -/
def planOf (s : RecurringStore) (gatewaySubscriptionId : String) : Option RecurringGiftPlan :=
  s.plans.rows.find? (·.gatewaySubscriptionId = gatewaySubscriptionId)

end RecurringStore

/-! ## Events of the gateway -/

/-- The normalised data of `invoice.payment_succeeded`. -/
structure InvoicePaid where
  gatewaySubscriptionId : String
  gatewayChargeId : String := ""
  amountPaid : Cents := 0
deriving DecidableEq, Repr

namespace RecurringHandler

def audit (entry : PlanAuditEntry) : RecurringTx Unit :=
  modify fun s => { s with audits := s.audits ++ [entry] }

def savePlan (plan : Uuid) (f : RecurringGiftPlan → RecurringGiftPlan) : RecurringTx Unit :=
  write RecurringStore.planTable .ofViolation plan f

/-- `_handle_subscription_deleted` -/
def handleSubscriptionDeleted (gatewayEventId gatewaySubscriptionId : String) (now : Instant) :
    RecurringTx Unit := do
  if gatewaySubscriptionId = "" then return
  let s ← get
  match s.planOf gatewaySubscriptionId with
  | none => return
  | some plan =>
    if plan.status = .cancelled then return
    savePlan plan.pk fun p => { p with
      status := .cancelled
      cancelledAt := some now
      cancellationReason := "subscription_deleted_by_gateway" }
    audit {
      action := .recurringPlanCancelled
      details := [("gateway_event_id", .str gatewayEventId),
        ("gateway_subscription_id", .str gatewaySubscriptionId)] }

/-- `status_map` -/
def statusMap : String → Option PlanStatus
  | "active" => some .active
  | "paused" => some .paused
  | "canceled" | "cancelled" => some .cancelled
  | _ => none

/-- `_handle_subscription_updated`: one `UPDATE` of the plan that is neither cancelled nor in the
status already -/
def handleSubscriptionUpdated (gatewaySubscriptionId newStatus : String) (now : Instant) :
    RecurringTx Unit := do
  if gatewaySubscriptionId = "" then return
  match statusMap newStatus with
  | none => return
  | some ourStatus =>
    let s ← get
    match s.planOf gatewaySubscriptionId with
    | none => return
    | some plan =>
      if plan.status = ourStatus ∨ plan.status = .cancelled then return
      savePlan plan.pk fun p =>
        if ourStatus = .cancelled then { p with
          status := .cancelled
          cancelledAt := some now
          cancellationReason := "stripe_status_" ++ newStatus }
        else { p with status := ourStatus }

/-- `_handle_invoice_payment_failed`: one `UPDATE` of the active plan -/
def handleInvoicePaymentFailed (gatewaySubscriptionId : String) : RecurringTx Unit := do
  if gatewaySubscriptionId = "" then return
  let s ← get
  match s.planOf gatewaySubscriptionId with
  | none => return
  | some plan =>
    if plan.status ≠ .active then return
    savePlan plan.pk fun p => { p with
      status := .paused
      cancellationReason := "invoice_payment_failed" }

/-- The first checks of `_handle_invoice_payment_succeeded`, which take no lock -/
def skipsInvoice (s : RecurringStore) (d : InvoicePaid) : Bool :=
  d.gatewaySubscriptionId = "" ∨
    d.gatewayChargeId ≠ "" ∧ s.payments.rows.any (·.gatewayChargeId = d.gatewayChargeId)

def donorName (donor : User) : String :=
  let name := orElse donor.getFullName donor.text
  if strip name = "" then "Recurring Donor" else name

/-- The rest of `_handle_invoice_payment_succeeded`, under the lock of the plan -/
def handleInvoicePaymentSucceeded (gatewayEventId : String) (d : InvoicePaid) (now : Instant) :
    RecurringTx Unit := do
  let s ← get
  match s.planOf d.gatewaySubscriptionId with
  | none => return
  | some plan =>
    let donor ← lookup RecurringStore.userTable (.doesNotExist "User") plan.donor
    let intent ← create RecurringStore.intentTable .ofViolation fun pk =>
      { pk
        payer := donor.pk
        purpose := .donation
        status := .completed
        metadata := [("gateway_subscription_id", .str d.gatewaySubscriptionId),
          ("source", .str "recurring_renewal"), ("gateway_event_id", .str gatewayEventId)] }
    let payment ← create RecurringStore.paymentTable .ofViolation fun pk =>
      { pk
        intent := intent.pk
        gatewayChargeId := orElse d.gatewayChargeId ("inv_" ++ gatewayEventId)
        amountPaid := d.amountPaid
        paidAt := now }
    let donation ← create RecurringStore.donationTable .ofViolation fun pk =>
      { pk
        paymentIntent := intent.pk
        donor := donor.pk
        campaign := plan.campaign
        amount := d.amountPaid
        status := .completed
        donorNameSnapshot := donorName donor
        donorAddressSnapshot := WebhookHandler.donorAddress donor
        createdAt := now
        recurringPlan := plan.pk }
    audit {
      action := .donationCreated
      paymentIntent := intent.pk
      payment := payment.pk
      details := [("gateway_event_id", .str gatewayEventId),
        ("gateway_subscription_id", .str d.gatewaySubscriptionId),
        ("donation_pk", .str (toString donation.pk)), ("payment_pk", .str (toString payment.pk))] }

end RecurringHandler

/-! ## The donor -/

namespace RecurringGiftCancelView

/-- The first eight characters of a long identifier -/
def maskedSubId (subId : String) : String :=
  if 8 < subId.length then String.ofList (subId.toList.take 8) ++ "***" else "***"

/-- The transaction of `post`. The call to the gateway after the commit writes nothing. -/
def post (plan user : Uuid) (now : Instant) : RecurringTx Unit := do
  let row ← lookup RecurringStore.planTable (.doesNotExist "RecurringGiftPlan") plan
  if row.status = .cancelled then return
  RecurringHandler.savePlan row.pk fun p => { p with
    status := .cancelled
    cancelledAt := some now
    cancellationReason := "cancelled_by_donor" }
  RecurringHandler.audit {
    action := .recurringPlanCancelled
    actor := user
    details := [("plan_pk", .str (toString row.pk)),
      ("gateway_subscription_id", .str (maskedSubId row.gatewaySubscriptionId)),
      ("gateway_cancelled", .str "deferred"), ("cancelled_by", .str "donor")] }

end RecurringGiftCancelView

/-! ## Deliveries and requests -/

inductive RecurringEvent where
  | subscriptionDeleted (gatewayEventId gatewaySubscriptionId : String)
  | subscriptionUpdated (gatewaySubscriptionId newStatus : String)
  | invoicePaymentFailed (gatewaySubscriptionId : String)
  | invoicePaymentSucceeded (gatewayEventId : String) (d : InvoicePaid)
deriving DecidableEq, Repr

/-- A delivery of an event, or a donor's request to cancel a plan. `setup` finds the plan before the
transaction starts. -/
inductive RecurringWorker where
  | delivered (e : RecurringEvent)
  | recording (gatewayEventId : String) (d : InvoicePaid)
  | setup (plan user : Uuid)
  | posting (plan user : Uuid)
  | raised (e : PaymentError)
  | done
  | dead
deriving DecidableEq

namespace RecurringWorker

open RecurringHandler

def entry : RecurringWorker → Bool
  | delivered _ | setup _ _ => true
  | _ => false

def finish (x : RecurringTx Unit) (s : RecurringStore) : RecurringStore × RecurringWorker :=
  match x s with
  | .ok (_, t) => (t, done)
  | .error e => (s, raised e)

def act (s : RecurringStore) (p : RecurringWorker) (now : Instant) :
    Option (RecurringStore × RecurringWorker) :=
  match p with
  | delivered (.subscriptionDeleted gatewayEventId gatewaySubscriptionId) =>
    some (finish (handleSubscriptionDeleted gatewayEventId gatewaySubscriptionId now) s)
  | delivered (.subscriptionUpdated gatewaySubscriptionId newStatus) =>
    some (finish (handleSubscriptionUpdated gatewaySubscriptionId newStatus now) s)
  | delivered (.invoicePaymentFailed gatewaySubscriptionId) =>
    some (finish (handleInvoicePaymentFailed gatewaySubscriptionId) s)
  | delivered (.invoicePaymentSucceeded gatewayEventId d) =>
    some (s, if skipsInvoice s d then done else recording gatewayEventId d)
  | recording gatewayEventId d =>
    some (finish (handleInvoicePaymentSucceeded gatewayEventId d now) s)
  | setup plan user =>
    match s.plans.get plan with
    | none => some (s, raised (.doesNotExist "RecurringGiftPlan"))
    | some row =>
      if row.donor ≠ user then some (s, raised (.doesNotExist "RecurringGiftPlan"))
      else if row.status = .cancelled then some (s, done)
      else some (s, posting plan user)
  | posting plan user => some (finish (RecurringGiftCancelView.post plan user now) s)
  | raised _ => none
  | done => none
  | dead => none

end RecurringWorker

/-- Any number of deliveries and requests. No plan is cancelled before, and nothing was paid. -/
def recurring : Program RecurringStore RecurringWorker Instant Empty where
  Init s := (∀ p ∈ s.plans.rows, p.status ≠ .cancelled) ∧ s.intents = .empty ∧
    s.payments = .empty ∧ s.donations = .empty ∧ s.audits = []
  entry := RecurringWorker.entry
  halted := .dead
  act := RecurringWorker.act
  env _ := nofun

end Civicos.Payments
