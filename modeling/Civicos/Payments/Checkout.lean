import Civicos.Payments.Values

/-!
# Intents, payments and refunds

The rows of the citizen checkout: what the payer intends to pay, what the gateway captured, and
what was given back.
-/
namespace Civicos.Payments

open Library

/-- `DecimalField(max_digits=10, decimal_places=2)` -/
def money {α : Type} (column : String) (amount : α → Cents) : Check α :=
  ⟨.width column, fun r => (amount r).natAbs < 10000000000⟩

inductive IntentStatus where
  | pending
  | processing
  | completed
  | failed
  | cancelled
  | refunded
deriving DecidableEq, Repr

inductive Purpose where
  | serviceFee
  | donation
  | fine
  | honorarium
deriving DecidableEq, Repr

structure PaymentIntent where
  pk : Uuid
  payer : Uuid
  purpose : Purpose
  status : IntentStatus := .pending
  gatewayIntentId : String := ""
  metadata : Json := []
deriving DecidableEq, Repr

namespace IntentStatus

/-- `ALLOWED_TRANSITIONS` -/
def allowedTransitions : IntentStatus → List IntentStatus
  | pending => [processing, cancelled, failed]
  | processing => [completed, failed]
  | completed => [refunded]
  | failed => []
  | cancelled => []
  | refunded => []

def text : IntentStatus → String
  | pending => "pending"
  | processing => "processing"
  | completed => "completed"
  | failed => "failed"
  | cancelled => "cancelled"
  | refunded => "refunded"

end IntentStatus

namespace PaymentIntent

def schema : Schema PaymentIntent where
  pk := pk
  checks := [.width "gateway_intent_id" 255 gatewayIntentId]

end PaymentIntent

structure Payment where
  pk : Uuid
  intent : Uuid
  gatewayChargeId : String
  amountPaid : Cents
  processorFee : Cents := 0
  /-- Computed by `save`. -/
  netAmount : Cents := amountPaid - processorFee
  paymentMethodType : String := "card"
  cardLastFour : Option String := none
  cardBrand : Option String := none
  paidAt : Instant := 0
deriving DecidableEq, Repr

namespace Payment

def intentKey : Index Payment where
  name := "payments_payment_intent_id_key"
  Key := Uuid
  key p := some p.intent

def gatewayChargeIdKey : Index Payment where
  name := "payments_payment_gateway_charge_id_key"
  Key := String
  key p := some p.gatewayChargeId

def schema : Schema Payment where
  pk := pk
  indexes := [intentKey, gatewayChargeIdKey]
  checks := [
    .width "gateway_charge_id" 255 gatewayChargeId,
    money "amount_paid" amountPaid,
    money "processor_fee" processorFee,
    money "net_amount" netAmount,
    .width "payment_method_type" 20 paymentMethodType,
    .width "card_last_four" 4 fun p => p.cardLastFour.getD "",
    .width "card_brand" 20 fun p => p.cardBrand.getD "",
    ⟨.check "payments_payment_amount_paid_non_negative", fun p => 0 ≤ p.amountPaid⟩,
    ⟨.check "payments_payment_processor_fee_non_negative", fun p => 0 ≤ p.processorFee⟩,
    ⟨.check "payments_payment_net_amount_non_negative", fun p => 0 ≤ p.netAmount⟩,
    ⟨.check "payments_payment_processor_fee_lte_amount_paid", fun p =>
      p.processorFee ≤ p.amountPaid⟩]

end Payment

inductive GatewayStatus where
  | pending
  | succeeded
  | failed
deriving DecidableEq, Repr

structure Refund where
  pk : Uuid
  payment : Uuid
  amount : Cents
  reason : String
  gatewayRefundId : String
  gatewayStatus : GatewayStatus := .pending
  refundedAt : Instant
  authorizedBy : Uuid
  notes : String := ""
deriving DecidableEq, Repr

namespace Refund

def gatewayRefundIdKey : Index Refund where
  name := "payments_refund_gateway_refund_id_key"
  Key := String
  key r := some r.gatewayRefundId

def schema : Schema Refund where
  pk := pk
  indexes := [gatewayRefundIdKey]
  checks := [
    money "amount" amount,
    .width "reason" 30 reason,
    .width "gateway_refund_id" 255 gatewayRefundId,
    ⟨.check "payments_refund_amount_positive", fun r => 0 < r.amount⟩]

end Refund

inductive PaymentAuditAction where
  | paymentCompleted
  | paymentFailed
  | refundRequested
  | refundCompleted
deriving DecidableEq, Repr

structure PaymentAuditEntry where
  action : PaymentAuditAction
  paymentIntent : Option Uuid
  payment : Option Uuid := none
  refund : Option Uuid := none
  actor : Option Uuid := none
  details : Json
deriving DecidableEq, Repr

/-! ## Donors, campaigns and donations -/

structure User where
  pk : Uuid
  firstName : String := ""
  lastName : String := ""
  postalAddress : String := ""
deriving DecidableEq, Repr

namespace User

def schema : Schema User where
  pk := pk
  checks := [
    .width "first_name" 150 firstName,
    .width "last_name" 150 lastName,
    .width "postal_address" 500 postalAddress]

def getFullName (u : User) : String := strip (u.firstName ++ " " ++ u.lastName)

/-- `str(user)` -/
def text (u : User) : String :=
  if u.firstName ≠ "" ∨ u.lastName ≠ "" then u.getFullName else "User #" ++ toString u.pk

end User

structure DonationCampaign where
  pk : Uuid
  advantageAmount : Cents := 0
  advantageDescriptionEn : String := ""
  advantageDescriptionFr : String := ""
deriving DecidableEq, Repr

namespace DonationCampaign

def schema : Schema DonationCampaign where
  pk := pk
  checks := [
    money "advantage_amount" advantageAmount,
    .width "advantage_description_en" 255 advantageDescriptionEn,
    .width "advantage_description_fr" 255 advantageDescriptionFr]

/-- In the active language. -/
def getAdvantageDescription (c : DonationCampaign) (french : Bool) : String :=
  if french then orElse c.advantageDescriptionFr c.advantageDescriptionEn
  else c.advantageDescriptionEn

end DonationCampaign

inductive DonationStatus where
  | pending
  | completed
  | failed
  | refunded
deriving DecidableEq, Repr

structure Donation where
  pk : Uuid
  paymentIntent : Uuid
  donor : Uuid
  campaign : Option Uuid := none
  amount : Cents
  advantageAmount : Cents := 0
  advantageDescription : String := ""
  /-- Recomputed by every `save`. -/
  eligibleAmount : Cents := max 0 (amount - advantageAmount)
  isAnonymous : Bool := false
  status : DonationStatus := .pending
  donorNameSnapshot : String
  donorAddressSnapshot : String
  createdAt : Instant
deriving DecidableEq, Repr

namespace Donation

def schema : Schema Donation where
  pk := pk
  checks := [
    money "amount" amount,
    money "advantage_amount" advantageAmount,
    .width "advantage_description" 255 advantageDescription,
    money "eligible_amount" eligibleAmount,
    .width "donor_name_snapshot" 255 donorNameSnapshot,
    ⟨.check "payments_donation_amount_positive", fun d => 0 < d.amount⟩,
    ⟨.check "payments_donation_eligible_nonneg", fun d => 0 ≤ d.eligibleAmount⟩,
    ⟨.check "payments_donation_advantage_lte_amount", fun d => d.advantageAmount ≤ d.amount⟩,
    ⟨.check "payments_donation_donor_name_required", fun d => d.donorNameSnapshot ≠ ""⟩,
    ⟨.check "payments_donation_donor_address_required", fun d => d.donorAddressSnapshot ≠ ""⟩]

end Donation

end Civicos.Payments
