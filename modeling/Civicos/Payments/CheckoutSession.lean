import Civicos.Library.Turns
import Civicos.Payments.Webhook

/-!
# Checkout sessions

A donor or a payer selects an order, which is kept in the session, and then asks for a payment
intent. Two endpoints answer such requests, one for donations and one for fees. Every request works
on its own copy of the session and saves it at its end.
-/
namespace Civicos.Payments

open Library Library.Transaction

/-- What the session holds of the order: the fields that the selection stored, and the intent that
was created for them. -/
structure OrderSession where
  fields : Json
  intentPk : Option Uuid := none
deriving DecidableEq, Repr

namespace OrderSession

def get (d : OrderSession) (key : String) : Option Value := (d.fields.find? (·.1 = key)).map (·.2)

def getOr (d : OrderSession) (key default : String) : Value := (d.get key).getD (.str default)

end OrderSession

/-- What the two endpoints do not share -/
structure Endpoint where
  purpose : Purpose
  amountKey : String
  /-- The fee endpoint looks for the pending intent among those of the user. -/
  ownOnly : Bool
  unauthenticated : String
  inProgress : String
  metadata : OrderSession → Json

/-- `create_donation_intent_api` -/
def donationEndpoint : Endpoint where
  purpose := .donation
  amountKey := "amount"
  ownOnly := false
  unauthenticated := "authentication_required"
  inProgress := "A donation is already in progress. Please wait a moment and try again."
  metadata d := [("campaign_pk", d.getOr "campaign_pk" ""), ("source", .str "donation"),
    ("is_recurring", d.getOr "is_recurring" "0"),
    ("advantage_amount", d.getOr "advantage_amount" "0.00"),
    ("eligible_amount", d.getOr "eligible_amount" "0.00"),
    ("is_anonymous", d.getOr "is_anonymous" "0"), ("donor_legal_name", d.getOr "donor_name" "")]

/-- `create_payment_intent_api` -/
def feeEndpoint : Endpoint where
  purpose := .serviceFee
  amountKey := "total"
  ownOnly := true
  unauthenticated := "Authentication required."
  inProgress := "A payment is already in progress. Please wait a moment and try again."
  metadata d := [("fee_code", d.getOr "fee_code" ""), ("province", d.getOr "province" ""),
    ("payer_reference", d.getOr "payer_reference" ""), ("source", .str "fee_payment")]

/-- One session of one user, the intents that were created in it, and the gateway's. -/
structure CheckoutStore where
  user : Uuid
  session : Option OrderSession := none
  intents : Table PaymentIntent.schema := .empty
  /-- The intents that exist at the gateway -/
  known : List String := []
  /-- Those of them that can still be paid -/
  payable : List String := []
deriving DecidableEq

abbrev CheckoutTx := Transaction PaymentError CheckoutStore

namespace CheckoutStore

def intentTable : Lens CheckoutStore (Table PaymentIntent.schema) where
  get s := s.intents
  set t s := { s with intents := t }
  get_set _ _ := rfl
  set_get _ := rfl
  set_set _ _ _ := rfl

/-- The pending intent that the session names -/
def pendingIntent (s : CheckoutStore) (ep : Endpoint) (d : OrderSession) : Option PaymentIntent :=
  (d.intentPk.bind s.intents.get).filter fun i =>
    i.status = .pending ∧ (ep.ownOnly = true → i.payer = s.user)

/-- The pending intents that can be paid at the gateway -/
def openIntents (s : CheckoutStore) : List PaymentIntent :=
  s.intents.rows.filter fun i => i.status = .pending ∧ i.gatewayIntentId ∈ s.payable

end CheckoutStore

/-! ## Requests -/

inductive CheckoutRequest where
  | createIntent
  /-- The form of the selection has been found valid; this is what it stores. -/
  | select (fields : Json)
  /-- Another request of the session, which leaves the order alone -/
  | page
deriving DecidableEq

inductive CheckoutResponse where
  | created (intent : Uuid)
  | error (status : ℕ) (message : String)
  | redirect
  | page
deriving DecidableEq, Repr

/-- A request by what it does next. From `loaded` on it holds its copy of the session. -/
inductive CheckoutWorker where
  | arrived (r : CheckoutRequest)
  | loaded (r : CheckoutRequest) (copy : Option OrderSession)
  | calling (copy : OrderSession)
  | creating (copy : OrderSession) (gatewayIntentId : String)
  | saving (copy : Option OrderSession) (response : CheckoutResponse)
  | answered (response : CheckoutResponse)
  | dead
deriving DecidableEq

structure CheckoutChoice where
  authenticated : Bool := true
  rateLimited : Bool := false
  /-- The gateway answers with a new intent, or fails. -/
  gatewayIntentId : Option String := none
  databaseFails : Bool := false
  cancelFails : Bool := false

namespace CheckoutWorker

def entry : CheckoutWorker → Bool
  | arrived _ => true
  | _ => false

/-- The checks of an endpoint before it calls the gateway -/
def check (ep : Endpoint) (s : CheckoutStore) (copy : Option OrderSession) (c : CheckoutChoice) :
    CheckoutWorker :=
  if c.authenticated = false then saving copy (.error 401 ep.unauthenticated)
  else if c.rateLimited then saving copy (.error 429 "Too many requests. Please wait a moment.")
  else match copy with
    | none => saving copy (.error 403 "Session expired. Please start over.")
    | some d =>
      match (d.get ep.amountKey).bind Value.cents with
      | none => saving copy (.error 400 "Invalid session data.")
      | some amount =>
        if amount ≤ 0 then saving copy (.error 400 "Amount must be greater than zero.")
        else if (s.pendingIntent ep d).isSome then saving copy (.error 409 ep.inProgress)
        else calling d

def createRow (ep : Endpoint) (d : OrderSession) (gatewayIntentId : String) (user : Uuid) :
    CheckoutTx PaymentIntent :=
  create CheckoutStore.intentTable .ofViolation fun pk =>
    { pk, payer := user, purpose := ep.purpose, gatewayIntentId, metadata := ep.metadata d }

/-- The row is created, or else the intent cancelled at the gateway. -/
def record (ep : Endpoint) (s : CheckoutStore) (d : OrderSession) (gatewayIntentId : String)
    (c : CheckoutChoice) : CheckoutStore × CheckoutWorker :=
  match if c.databaseFails then .error (.dataError "")
      else createRow ep d gatewayIntentId s.user s with
  | .ok (intent, t) => (t, saving (some { d with intentPk := some intent.pk }) (.created intent.pk))
  | .error _ =>
    (if c.cancelFails then s else { s with payable := s.payable.filter (· ≠ gatewayIntentId) },
      saving (some d) (.error 500 "A database error occurred. Please try again."))

/-- The session is saved after the transaction of the view. -/
def act (ep : Endpoint) (s : CheckoutStore) (p : CheckoutWorker) (c : CheckoutChoice) :
    Option (CheckoutStore × CheckoutWorker) :=
  match p with
  | arrived r => some (s, loaded r s.session)
  | loaded .createIntent copy => some (s, check ep s copy c)
  | loaded (.select fields) _ => some (s, saving (some { fields }) .redirect)
  | loaded .page copy => some (s, saving copy .page)
  | calling d =>
    match c.gatewayIntentId with
    | none => some (s, saving (some d)
        (.error 502 "Payment processing is temporarily unavailable. Please try again."))
    | some id =>
      if id ∈ s.known then none
      else some ({ s with known := id :: s.known, payable := id :: s.payable }, creating d id)
  | creating d id => some (record ep s d id c)
  | saving copy response => some ({ s with session := copy }, answered response)
  | answered _ => none
  | dead => none

/-- It holds a copy of the session. -/
def busy : CheckoutWorker → Bool
  | loaded _ _ | calling _ | creating _ _ | saving _ _ => true
  | _ => false

end CheckoutWorker

/-- Intents are paid or cancelled at the gateway, and webhooks move their rows away from pending. -/
inductive GatewayEvent where
  | settle (gatewayIntentId : String)
  | move (intent : Uuid) (status : IntentStatus)

def GatewayEvent.step (s : CheckoutStore) : GatewayEvent → Option CheckoutStore
  | settle id => some { s with payable := s.payable.filter (· ≠ id) }
  | move intent status =>
    if status = .pending then none
    else some (commit (write CheckoutStore.intentTable PaymentError.ofViolation intent fun row =>
      { row with status }) s).2

/-- Any number of requests of one session, for one order. -/
def checkout (ep : Endpoint) :
    Program CheckoutStore CheckoutWorker CheckoutChoice GatewayEvent where
  Init s := s.session = none ∧ s.intents = .empty
  entry := CheckoutWorker.entry
  halted := .dead
  act s p c := CheckoutWorker.act ep s p c
  env s x := x.step s

end Civicos.Payments
