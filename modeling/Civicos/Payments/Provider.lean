import Civicos.Payments.Values

/-!
# The provider contract

Results that an adapter may return and what crosses the application boundary of them.
-/
namespace Civicos.Payments

inductive ProviderOutcome where
  | settled
  | rejected
  | invalidAccount
  | insufficientFunds
  | timeout
  | network
  | duplicate
  | uncertain
  | compensated
deriving DecidableEq, Repr

def ProviderOutcome.text : ProviderOutcome → String
  | settled => "settled"
  | rejected => "rejected"
  | invalidAccount => "invalid_account"
  | insufficientFunds => "insufficient_funds"
  | timeout => "timeout"
  | network => "network"
  | duplicate => "duplicate"
  | uncertain => "uncertain"
  | compensated => "compensated"

/-- The outcomes after which work may exist at the provider. -/
def ProviderOutcome.isAmbiguous (o : ProviderOutcome) : Bool :=
  o ∈ [ProviderOutcome.network, .timeout, .uncertain]

/-- Raw provider data is left out: nothing reads it and `normalizeResult` drops it. -/
structure ProviderResult where
  outcome : ProviderOutcome
  providerAttemptId : String := ""
  externalTransactionId : String := ""
  code : String := ""
  message : String := ""
  retryable : Bool := false
  observationId : String := ""
  eventId : String := ""
  verified : Bool := false
  verificationMethod : String := ""
deriving DecidableEq, Repr

def normalizeResult (result : ProviderResult) : ProviderResult where
  outcome := result.outcome
  providerAttemptId := clip 100 result.providerAttemptId
  externalTransactionId := clip 100 result.externalTransactionId
  code := clip 50 result.code
  message := clip 255 result.message
  retryable := result.retryable
  observationId := clip 160 result.observationId
  eventId := clip 160 result.eventId
  verified := result.verified
  verificationMethod := clip 80 result.verificationMethod

/-- The identity under which a result is recorded; blank when it has none. -/
def ProviderResult.identifier (r : ProviderResult) : String :=
  orElse r.observationId <| orElse r.eventId <| orElse r.externalTransactionId r.providerAttemptId

/-- One field of a stored adapter configuration: its container, whether all items of it are
objects, and whether each of them deserializes to a provider result. -/
inductive ConfigurationField where
  | list (objects parse : Bool)
  | dict (objects parse : Bool)
  | scalar
deriving DecidableEq, Repr

/-- `none` is a value that is not a JSON object. -/
abbrev Configuration := Option (List (String × ConfigurationField))

structure ProviderRegistration where
  pk : Uuid
  tenantId : String
  operation : String
  factoryKey : String
  schemaVersion : ℕ
  configuration : Configuration
  activeFrom : Option Instant
  activeUntil : Option Instant
  active : Bool
deriving DecidableEq, Repr

/-! ## Provider registry -/

def schemaVersion : ℕ := 1

def factoryDeterministic : String := "deterministic.v1"

def deterministicConfiguration (value : List (String × ConfigurationField)) :
    Except PaymentError (ConfigurationField × ConfigurationField) :=
  if value.any fun f => f.1 ≠ "outcomes" ∧ f.1 ≠ "statuses" then
    .error (.providerRegistryError "deterministic configuration has unsupported keys")
  else
    match (value.lookup "outcomes").getD (.list true true),
      (value.lookup "statuses").getD (.dict true true) with
    | .list o p, .dict o' p' =>
      if o && o' then .ok (.list o p, .dict o' p')
      else .error (.providerRegistryError "deterministic results must be objects")
    | _, _ => .error (.providerRegistryError "deterministic configuration has invalid containers")

/-- The checks that `resolve_provider` makes; on success the adapter that the registration
configures is the worker's. -/
def resolveProvider (registrations : List ProviderRegistration) (tenantId operation : String)
    (now : Instant) : Except PaymentError ProviderRegistration :=
  if tenantId = "" ∨ operation = "" then
    .error (.providerRegistryError "provider scope is blank")
  else
    match registrations.filter fun r => r.tenantId = tenantId ∧ r.operation = operation ∧
      r.active ∧ (∀ a ∈ r.activeFrom, a ≤ now) ∧ (∀ u ∈ r.activeUntil, now < u) with
    | [registration] =>
      if registration.factoryKey ≠ factoryDeterministic ∨
          registration.schemaVersion ≠ schemaVersion then
        .error (.providerRegistryError "provider factory is not allowlisted")
      else
        match registration.configuration with
        | none => .error (.providerRegistryError "provider configuration must be an object")
        | some value =>
          match deterministicConfiguration value with
          | .ok (.list _ true, .dict _ true) => .ok registration
          | .ok _ => .error (.providerRegistryError "provider factory failed")
          | .error e => .error e
    | _ => .error (.providerRegistryError
        "provider registration is missing, expired, or ambiguous")

end Civicos.Payments
