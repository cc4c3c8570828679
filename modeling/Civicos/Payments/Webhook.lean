import Civicos.Payments.Checkout
import Civicos.Library.Pool

/-!
# Gateway webhooks

The task that applies one stored webhook event: a succeeded payment intent becomes a payment and,
for a one-time gift, a donation; a failed one is closed. The handler and the mark on the event are
one transaction.
-/
namespace Civicos.Payments

open Library Library.Transaction

/-- The normalised data of `payment_intent.succeeded`. -/
structure PaymentSucceeded where
  gatewayIntentId : String
  gatewayChargeId : String := ""
  amountPaid : Cents := 0
  processorFee : Cents := 0
  paymentMethodType : String := "card"
  cardLastFour : Option String := none
  cardBrand : Option String := none
  /-- `None` stands for text that is not a timestamp. -/
  paidAt : Option Instant := none
deriving DecidableEq, Repr

/-- What `parse_webhook_event` makes of a payload. -/
inductive WebhookPayload where
  | malformed (exception gatewayCode : String)
  | paymentIntentSucceeded (d : PaymentSucceeded)
  | paymentIntentFailed (gatewayIntentId failureReason : String)
  | unhandled
deriving DecidableEq, Repr

structure WebhookEvent where
  pk : Uuid
  gatewayEventId : String
  payload : WebhookPayload
  signatureVerified : Bool := false
  processed : Bool := false
  processedAt : Option Instant := none
  error : String := ""
  retryCount : ℕ := 0
deriving DecidableEq, Repr

namespace WebhookEvent

def gatewayEventIdKey : Index WebhookEvent where
  name := "payments_webhookevent_gateway_event_id_key"
  Key := String
  key e := some e.gatewayEventId

def schema : Schema WebhookEvent where
  pk := pk
  indexes := [gatewayEventIdKey]
  checks := [.width "gateway_event_id" 255 gatewayEventId]

end WebhookEvent

structure WebhookStore where
  users : Table User.schema := .empty
  campaigns : Table DonationCampaign.schema := .empty
  intents : Table PaymentIntent.schema := .empty
  payments : Table Payment.schema := .empty
  donations : Table Donation.schema := .empty
  events : Table WebhookEvent.schema := .empty
  audits : List PaymentAuditEntry := []
deriving DecidableEq

abbrev WebhookTx := Transaction PaymentError WebhookStore

namespace WebhookStore

def userTable : Lens WebhookStore (Table User.schema) where
  get s := s.users
  set t s := { s with users := t }
  get_set _ _ := rfl
  set_get _ := rfl
  set_set _ _ _ := rfl

def campaignTable : Lens WebhookStore (Table DonationCampaign.schema) where
  get s := s.campaigns
  set t s := { s with campaigns := t }
  get_set _ _ := rfl
  set_get _ := rfl
  set_set _ _ _ := rfl

def intentTable : Lens WebhookStore (Table PaymentIntent.schema) where
  get s := s.intents
  set t s := { s with intents := t }
  get_set _ _ := rfl
  set_get _ := rfl
  set_set _ _ _ := rfl

def paymentTable : Lens WebhookStore (Table Payment.schema) where
  get s := s.payments
  set t s := { s with payments := t }
  get_set _ _ := rfl
  set_get _ := rfl
  set_set _ _ _ := rfl

def donationTable : Lens WebhookStore (Table Donation.schema) where
  get s := s.donations
  set t s := { s with donations := t }
  get_set _ _ := rfl
  set_get _ := rfl
  set_set _ _ _ := rfl

def eventTable : Lens WebhookStore (Table WebhookEvent.schema) where
  get s := s.events
  set t s := { s with events := t }
  get_set _ _ := rfl
  set_get _ := rfl
  set_set _ _ _ := rfl

/-- `PaymentIntent.objects.filter(gateway_intent_id=…)` -/
def intentsFor (s : WebhookStore) (gatewayIntentId : String) : List PaymentIntent :=
  s.intents.rows.filter (·.gatewayIntentId = gatewayIntentId)

end WebhookStore

/-! ## Metadata -/

namespace PaymentIntent

/-- `intent.metadata.get(key)` -/
def metadataGet (i : PaymentIntent) (key : String) : Option Value :=
  (i.metadata.find? (·.1 = key)).map (·.2)

/-- A gift that no subscription pays. -/
def isOneTimeDonation (i : PaymentIntent) : Bool :=
  i.purpose = .donation ∧ i.metadataGet "is_recurring" ≠ some (.str "1")

end PaymentIntent

/-- Python's truth value. -/
def Value.truthy : Value → Bool
  | .str s => s ≠ ""
  | .int n => n ≠ 0
  | .bool b => b
  | .strs l => l ≠ []
  | .null => false

/-- `Decimal(value).quantize(Decimal("0.01"), rounding=ROUND_HALF_UP)` -/
def Value.cents : Value → Option Cents
  | .str s => (DecimalLiteral.parse s).bind DecimalLiteral.quantize
  | .int n => DecimalLiteral.quantize ⟨n < 0, n.natAbs, 0⟩
  | .bool b => some (if b then 100 else 0)
  | .strs _ => none
  | .null => none

namespace WebhookHandler

/-- The campaign of a gift. A malformed or unknown identifier is ignored. -/
def resolveCampaign (s : WebhookStore) (i : PaymentIntent) :
    Except PaymentError (Option DonationCampaign) :=
  match i.metadataGet "campaign_pk" with
  | some (.str text) =>
    if text = "" then .ok none else .ok (s.campaigns.rows.find? (toString ·.pk = text))
  | some v =>
    if v.truthy then .error (.attributeError "object has no attribute 'replace'") else .ok none
  | none => .ok none

/-- From the metadata, never negative; else the default of the campaign. -/
def advantageAmount (i : PaymentIntent) (campaign : Option DonationCampaign) : Cents :=
  match (i.metadataGet "advantage_amount").filter Value.truthy with
  | some v => max 0 ((v.cents).getD 0)
  | none => (campaign.map (·.advantageAmount)).getD 0

/-- The name on the receipt. -/
def donorLegalName (i : PaymentIntent) (donor : User) : Except PaymentError String :=
  match (i.metadataGet "donor_legal_name").getD (.str "") with
  | .str text =>
    let name := orElse (strip text) (orElse donor.getFullName donor.text)
    .ok (if strip name = "" then "[Name required — update donor profile]" else name)
  | _ => .error (.attributeError "object has no attribute 'strip'")

def donorAddress (donor : User) : String :=
  orElse (strip donor.postalAddress) "[Address required — update donor profile]"

/-- `save` recomputes the eligible amount, whatever the metadata says about it. -/
def donationRow (i : PaymentIntent) (amount : Cents) (campaign : Option DonationCampaign)
    (name : String) (donor : User) (french : Bool) (now : Instant) (pk : Uuid) : Donation where
  pk
  paymentIntent := i.pk
  donor := donor.pk
  campaign := campaign.map (·.pk)
  amount
  advantageAmount := advantageAmount i campaign
  advantageDescription := (campaign.map (·.getAdvantageDescription french)).getD ""
  isAnonymous := i.metadataGet "is_anonymous" = some (.str "1")
  status := .completed
  donorNameSnapshot := name
  donorAddressSnapshot := donorAddress donor
  createdAt := now

def handleOneTimeDonation (i : PaymentIntent) (amount : Cents) (french : Bool) (now : Instant) :
    WebhookTx Unit := do
  if i.metadataGet "is_recurring" = some (.str "1") then return
  let s ← get
  if s.donations.rows.any (·.paymentIntent = i.pk) then return
  let campaign ← liftM (resolveCampaign s i)
  let donor ← lookup WebhookStore.userTable (.doesNotExist "User") i.payer
  let name ← liftM (donorLegalName i donor)
  let _ ← create WebhookStore.donationTable .ofViolation
    (donationRow i amount campaign name donor french now)

/-- `PaymentIntent.transition` -/
def transition (intent : Uuid) (newStatus : IntentStatus) : WebhookTx Unit := do
  let refreshed ← lookup WebhookStore.intentTable (.doesNotExist "PaymentIntent") intent
  if newStatus ∈ refreshed.status.allowedTransitions then
    write WebhookStore.intentTable .ofViolation intent fun row => { row with status := newStatus }
  else
    throw (.valueError ("Cannot transition PaymentIntent from '" ++ refreshed.status.text ++
      "' to '" ++ newStatus.text ++ "'."))

/-- Only the last four digits of a card are kept. -/
def lastFour (card : Option String) : Option String :=
  (card.filter (· ≠ "")).map fun digits =>
    if 4 < digits.length then String.ofList (digits.toList.drop (digits.length - 4)) else digits

def paymentRow (d : PaymentSucceeded) (intent : Uuid) (now : Instant) (pk : Uuid) : Payment where
  pk
  intent
  gatewayChargeId := d.gatewayChargeId
  amountPaid := d.amountPaid
  processorFee := d.processorFee
  paymentMethodType := d.paymentMethodType
  cardLastFour := lastFour d.cardLastFour
  cardBrand := d.cardBrand.filter (· ≠ "")
  paidAt := d.paidAt.getD now

def audit (entry : PaymentAuditEntry) : WebhookTx Unit :=
  modify fun s => { s with audits := s.audits ++ [entry] }

/-- `PENDING → COMPLETED` takes two steps. -/
def startProcessing (i : PaymentIntent) : WebhookTx Unit :=
  if i.status = .pending then transition i.pk .processing else return

def recordGift (i : PaymentIntent) (amount : Cents) (french : Bool) (now : Instant) :
    WebhookTx Unit :=
  if i.purpose = .donation then handleOneTimeDonation i amount french now else return

def complete (event : WebhookEvent) (d : PaymentSucceeded) (i : PaymentIntent) (french : Bool)
    (now : Instant) : WebhookTx Unit := do
  startProcessing i
  transition i.pk .completed
  let payment ← create WebhookStore.paymentTable .ofViolation (paymentRow d i.pk now)
  audit {
    action := .paymentCompleted
    paymentIntent := i.pk
    payment := payment.pk
    details := [("gateway_event_id", .str event.gatewayEventId),
      ("payment_pk", .str (toString payment.pk))] }
  recordGift i payment.amountPaid french now

def handlePaymentIntentSucceeded (event : WebhookEvent) (d : PaymentSucceeded) (french : Bool)
    (now : Instant) : WebhookTx Unit := do
  if d.gatewayIntentId = "" then return
  let s ← get
  if d.gatewayChargeId ≠ "" ∧ s.payments.rows.any
    (·.gatewayChargeId = d.gatewayChargeId) then return
  match s.intentsFor d.gatewayIntentId with
  | [] => return
  | [i] => complete event d i french now
  | _ => throw (.multipleObjectsReturned "PaymentIntent")

def handlePaymentIntentFailed (event : WebhookEvent) (gatewayIntentId failureReason : String) :
    WebhookTx Unit := do
  if gatewayIntentId = "" then return
  let s ← get
  match s.intentsFor gatewayIntentId with
  | [] => return
  | [i] =>
    transition i.pk .failed
    audit {
      action := .paymentFailed
      paymentIntent := i.pk
      details := [("gateway_event_id", .str event.gatewayEventId),
        ("failure_reason", .str failureReason)] }
  | _ => throw (.multipleObjectsReturned "PaymentIntent")

/-- `_HANDLERS` -/
def handler (event : WebhookEvent) (french : Bool) (now : Instant) : WebhookTx Unit :=
  match event.payload with
  | .paymentIntentSucceeded d => handlePaymentIntentSucceeded event d french now
  | .paymentIntentFailed intent reason => handlePaymentIntentFailed event intent reason
  | _ => return

def markProcessed (event : Uuid) (now : Instant) : WebhookTx Unit :=
  write WebhookStore.eventTable .ofViolation event fun row =>
    { row with processed := true, processedAt := some now, error := "" }

/-- The handler and the mark commit together. -/
def dispatch (event : WebhookEvent) (french : Bool) (now : Instant) : WebhookTx Unit := do
  handler event french now
  markProcessed event.pk now

end WebhookHandler

/-! ## The task -/

/-- `type(exc).__name__` -/
def PaymentError.typeName : PaymentError → String
  | integrityError _ => "IntegrityError"
  | dataError _ => "DataError"
  | doesNotExist _ => "DoesNotExist"
  | idempotencyConflict _ => "IdempotencyConflict"
  | invalidPaymentTransition _ => "InvalidPaymentTransition"
  | executionIntentConflict _ => "ExecutionIntentConflict"
  | paymentScopeDenied _ => "PaymentScopeDenied"
  | paymentIdempotencyConflict _ => "PaymentIdempotencyConflict"
  | providerRegistryError _ => "ProviderRegistryError"
  | providerUnavailable _ => "ProviderUnavailable"
  | batchLeaseOwnershipLost _ => "BatchLeaseOwnershipLost"
  | batchDecisionConflict _ => "BatchDecisionConflict"
  | duplicateBatchError _ => "DuplicateBatchError"
  | duplicateValidationRequestError _ => "DuplicateValidationRequestError"
  | duplicateBillPaymentError _ => "DuplicateBillPaymentError"
  | apiException .. => "APIException"
  | typeError _ => "TypeError"
  | valueError _ => "ValueError"
  | overflowError _ => "OverflowError"
  | attributeError _ => "AttributeError"
  | multipleObjectsReturned _ => "MultipleObjectsReturned"

/-- One delivery of `process_stripe_webhook`, by the statement that it executes next. -/
inductive WebhookWorker where
  | task (event : Uuid)
  | refusing (event : Uuid) (error : String)
  | skipping (event : Uuid)
  | handling (event : WebhookEvent)
  | failing (event : WebhookEvent) (e : PaymentError)
  | raised (e : PaymentError)
  | done
  | dead

structure WebhookChoice where
  now : Instant := 0
  french : Bool := false

/-- Accounts, campaigns and intents come from the portal, events from the webhook view. A renewed
subscription brings its own completed intent. -/
inductive PortalWriter where
  | register (u : User)
  | launch (c : DonationCampaign)
  | intend (i : PaymentIntent)
  | renew (payer : Uuid) (gatewayChargeId : String) (amount : Cents) (campaign : Option Uuid)
      (name address : String) (now : Instant)
  | receive (gatewayEventId : String) (payload : WebhookPayload) (signatureVerified : Bool)

namespace WebhookWorker

open WebhookHandler

def entry : WebhookWorker → Bool
  | task _ => true
  | _ => false

/-- What the task does with the event that it loaded. -/
def classify (e : WebhookEvent) : WebhookWorker :=
  if e.processed then done
  else if ¬ e.signatureVerified then
    refusing e.pk "SignatureNotVerified: refusing to process unverified event"
  else
    match e.payload with
    | .malformed exception gatewayCode => refusing e.pk (exception ++ ": " ++ gatewayCode)
    | .unhandled => skipping e.pk
    | _ => handling e

/-- `save(update_fields=["error", …])` -/
def saveError (event : Uuid) (error : String) (retryCount : ℕ → ℕ) : WebhookTx Unit :=
  Transaction.write WebhookStore.eventTable .ofViolation event fun row =>
    { row with error, retryCount := retryCount row.retryCount }

def act (s : WebhookStore) (p : WebhookWorker) (c : WebhookChoice) :
    Option (WebhookStore × WebhookWorker) :=
  match p with
  | task event =>
    match s.events.get event with
    | none => some (s, done)
    | some e => some (s, classify e)
  | refusing event error => some ((commit (saveError event error id) s).2, done)
  | skipping event => some ((commit (markProcessed event c.now) s).2, done)
  | handling event =>
    match dispatch event c.french c.now s with
    | .ok (_, t) => some (t, done)
    | .error e => some (s, failing event e)
  | failing event e => some ((commit (saveError event.pk e.typeName fun _ => 1) s).2, raised e)
  | raised _ => none
  | done => none
  | dead => none

end WebhookWorker

namespace PortalWriter

def renewal (payer : Uuid) (gatewayChargeId : String) (amount : Cents) (campaign : Option Uuid)
    (name address : String) (now : Instant) : WebhookTx Unit := do
  let intent ← create WebhookStore.intentTable .ofViolation fun pk =>
    { pk, payer, purpose := .donation, status := .completed,
      metadata := [("source", .str "recurring_renewal")] }
  let _ ← create WebhookStore.paymentTable .ofViolation fun pk =>
    { pk, intent := intent.pk, gatewayChargeId, amountPaid := amount, paidAt := now }
  let _ ← create WebhookStore.donationTable .ofViolation fun pk =>
    { pk, paymentIntent := intent.pk, donor := payer, campaign, amount, status := .completed,
      donorNameSnapshot := name, donorAddressSnapshot := address, createdAt := now }

def write (s : WebhookStore) : PortalWriter → Option WebhookStore
  | register u => some (commit (Transaction.create WebhookStore.userTable PaymentError.ofViolation
      fun pk => { u with pk }) s).2
  | launch c => some (commit (Transaction.create WebhookStore.campaignTable PaymentError.ofViolation
      fun pk => { c with pk }) s).2
  | intend i =>
    if (s.users.get i.payer).isSome then
      some (commit (Transaction.create WebhookStore.intentTable PaymentError.ofViolation
        fun pk => { i with pk, status := .pending }) s).2
    else none
  | renew payer charge amount campaign name address now =>
    if (s.users.get payer).isSome then
      some (commit (renewal payer charge amount campaign name address now) s).2
    else none
  | receive gatewayEventId payload signatureVerified =>
    some (commit (Transaction.create WebhookStore.eventTable PaymentError.ofViolation
      fun pk => { pk, gatewayEventId, payload, signatureVerified }) s).2

end PortalWriter

/-- Any number of deliveries of any events. -/
def webhooks : Program WebhookStore WebhookWorker WebhookChoice PortalWriter where
  Init s := s = {}
  entry := WebhookWorker.entry
  halted := .dead
  act := WebhookWorker.act
  env s x := x.write s

end Civicos.Payments
