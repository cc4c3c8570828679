import Civicos.Payments.Ledger

/-!
# Vouchers

Rows of the voucher engine and its service. Every operation is a transaction of its own, after
checks that read nothing but the registry of building blocks.
-/
namespace Civicos.Payments

open Library Library.Transaction

inductive VoucherStatus where
  | notPreactivated
  | preactivated
  | activated
  | consumed
  | blocked
  | suspended
  | cancelled
  | purged
deriving DecidableEq, Repr

namespace VoucherStatus

def text : VoucherStatus → String
  | notPreactivated => "not_preactivated"
  | preactivated => "preactivated"
  | activated => "activated"
  | consumed => "consumed"
  | blocked => "blocked"
  | suspended => "suspended"
  | cancelled => "cancelled"
  | purged => "purged"

/-- `ALLOWED_TRANSITIONS` -/
def allowedTransitions : VoucherStatus → List VoucherStatus
  | notPreactivated => [preactivated]
  | preactivated => [activated, cancelled]
  | activated => [consumed, blocked, suspended, cancelled]
  | blocked => [activated, cancelled]
  | suspended => [activated, cancelled]
  | consumed => []
  | cancelled => []
  | purged => []

/-- `b` is an allowed successor of `a`. -/
def Allows (a b : VoucherStatus) : Prop := b ∈ a.allowedTransitions

instance : DecidableRel Allows := fun a b => inferInstanceAs (Decidable (b ∈ a.allowedTransitions))

theorem Allows.ne {a b : VoucherStatus} (h : a.Allows b) : b ≠ a := by
  cases a <;> cases b <;> revert h <;> decide

theorem not_consumed_allows (b : VoucherStatus) : ¬ Allows consumed b := by
  cases b <;> decide

/-- Consumption and cancellation are final. -/
theorem Allows.not_final {a b : VoucherStatus} (h : a.Allows b) :
    decide (a = consumed ∨ a = cancelled) = false := by
  cases a <;> cases b <;> revert h <;> decide

end VoucherStatus

structure GovStackVoucher where
  pk : Uuid
  serialNumber : String
  amount : Cents
  currency : String
  groupCode : String
  status : VoucherStatus := .preactivated
  issuingBb : String
  registeringInstitutionId : String := ""
  batchId : String := ""
  payeeFunctionalId : String := ""
  callbackUrl : String := ""
  expiryDate : Option Instant := none
  redeemedByAgentId : String := ""
  redeemedMerchantName : String := ""
  redeemedMerchantBankDetails : String := ""
  redeemedMerchantVoucherGroup : String := ""
  redeemedAt : Option Instant := none
  redemptionTransactionId : String := ""
deriving DecidableEq, Repr

namespace GovStackVoucher

def uniqueSerialNumber : Index GovStackVoucher where
  name := "serial_number"
  Key := String
  key v := some v.serialNumber

def schema : Schema GovStackVoucher where
  pk := pk
  indexes := [uniqueSerialNumber]
  checks := [
    .width "serial_number" 20 serialNumber,
    digits "amount" fun v => some v.amount,
    .width "currency" 3 currency,
    .width "group_code" 50 groupCode,
    .width "issuing_bb" 50 issuingBb,
    .width "registering_institution_id" 20 registeringInstitutionId,
    .width "batch_id" 12 batchId,
    .width "payee_functional_id" 20 payeeFunctionalId,
    .width "callback_url" 500 callbackUrl,
    .width "redeemed_by_agent_id" 10 redeemedByAgentId,
    .width "redeemed_merchant_name" 200 redeemedMerchantName,
    .width "redeemed_merchant_bank_details" 200 redeemedMerchantBankDetails,
    .width "redeemed_merchant_voucher_group" 100 redeemedMerchantVoucherGroup,
    .width "redemption_transaction_id" 20 redemptionTransactionId]

/-- `repr` of a list of statuses. -/
def listText (statuses : List VoucherStatus) : String :=
  "[" ++ ", ".intercalate (statuses.map fun s => "'" ++ s.text ++ "'") ++ "]"

def transitionTo (v : GovStackVoucher) (newStatus : VoucherStatus) :
    Except PaymentError GovStackVoucher :=
  if newStatus ∈ v.status.allowedTransitions then .ok { v with status := newStatus }
  else .error (.valueError ("Invalid voucher transition: '" ++ v.status.text ++ "' → '" ++
    newStatus.text ++ "'. Allowed transitions from '" ++ v.status.text ++ "': " ++
    listText v.status.allowedTransitions ++ "."))

end GovStackVoucher

structure GovStackRegisteredBB where
  bbId : String
  isActive : Bool
deriving DecidableEq, Repr

structure VoucherStore where
  registeredBBs : List GovStackRegisteredBB := []
  vouchers : Table GovStackVoucher.schema := .empty
  audits : List AuditEntry := []
deriving DecidableEq

abbrev VoucherTx := Transaction PaymentError VoucherStore

namespace VoucherStore

def voucherTable : Lens VoucherStore (Table GovStackVoucher.schema) where
  get s := s.vouchers
  set t s := { s with vouchers := t }
  get_set _ _ := rfl
  set_get _ := rfl
  set_set _ _ _ := rfl

/-- `filter(serial_number=…).first()` -/
def voucherFor (s : VoucherStore) (serialNumber : String) : Option GovStackVoucher :=
  s.vouchers.rows.find? (·.serialNumber = serialNumber)

end VoucherStore

/-! ## Exceptions -/

namespace PaymentError

def invalidVoucherAmount : PaymentError :=
  .apiException 452 "invalid_voucher_amount"
    "Invalid voucher amount. Amount must be a positive number."

def invalidVoucherCurrency : PaymentError :=
  .apiException 453 "invalid_voucher_currency"
    "Invalid or unsupported voucher currency. Use a 3-letter ISO 4217 code."

def invalidVoucherGroup : PaymentError :=
  .apiException 454 "invalid_voucher_group" "Invalid or unrecognised voucher group code."

def invalidVoucherSerial : PaymentError :=
  .apiException 456 "invalid_voucher_serial" "Voucher serial number not found."

def voucherAlreadyUsed : PaymentError :=
  .apiException 458 "voucher_already_used" "This voucher has already been used."

def voucherExpired : PaymentError :=
  .apiException 459 "voucher_expired" "This voucher has expired."

def govStackBBNotFound : PaymentError :=
  .apiException 460 "gov_stack_bb_not_found"
    "The specified Gov_Stack_BB does not exist or is not registered."

def invalidVoucherNumber : PaymentError :=
  .apiException 461 "invalid_voucher_number" "voucher_number must be numeric."

def insufficientFunds : PaymentError :=
  .apiException 462 "insufficient_funds" "Insufficient funds to complete this redemption."

def cannotCreditMerchant : PaymentError :=
  .apiException 463 "cannot_credit_merchant"
    "Unable to credit the merchant for this redemption."

def invalidCancellationSerial : PaymentError :=
  .apiException 463 "invalid_cancellation_serial"
    "Invalid voucher serial number for cancellation."

def voucherAlreadyCancelled : PaymentError :=
  .apiException 464 "voucher_already_cancelled" "This voucher has already been cancelled."

end PaymentError

/-! ## Checks -/

structure VoucherSettings where
  requireRegisteredBB : Bool
  expiryDays : ℕ

/-- Blank values and the sentinels for a missing building block. -/
def isKnownInvalidGovStackBB (value : String) : Bool :=
  strip value = "" ∨ lower (strip value) ∈ ["not_exist", "invalid_bb"]

def isUnregisteredGovStackBB (settings : VoucherSettings) (registered : List GovStackRegisteredBB)
    (value : String) : Bool :=
  settings.requireRegisteredBB ∧ (strip value = "" ∨
    ¬ registered.any fun bb => bb.bbId = strip value ∧ bb.isActive)

def rejectsBB (settings : VoucherSettings) (registered : List GovStackRegisteredBB)
    (value : String) : Bool :=
  isKnownInvalidGovStackBB value ∨ isUnregisteredGovStackBB settings registered value

/-- `^[A-Z]{3}$`, where `$` also matches before a final newline. -/
def isIso4217 (value : String) : Bool :=
  let code := if value.toList.getLast? = some '\n' then value.toList.dropLast else value.toList
  code.length = 3 ∧ code.all Char.isUpper

/-- `int(value)` succeeds: a sign, and digits with single underscores between them. -/
def isNumericVoucherNumber (value : String) : Bool :=
  let text := (strip value).toList
  let text := if text.head? = some '+' ∨ text.head? = some '-' then text.tail else text
  (text.splitOn '_').all fun part => part ≠ [] ∧ part.all Char.isDigit

def classifyRedemptionDecline (merchantVoucherGroup merchantName merchantBankDetails : String) :
    Option PaymentError :=
  let name := strip merchantName
  let bankDetails := strip merchantBankDetails
  if name = "Annie Krueger" ∧ bankDetails = "Omega Holding Company" then
    some .cannotCreditMerchant
  else if name = "Ronan Oliver" ∧ bankDetails = "Vigor Bank Group" then some .insufficientFunds
  else if lower (strip merchantVoucherGroup) = "insufficient funds" then some .insufficientFunds
  else none

/-! ## The service -/

/-- `secrets.token_hex(10)` -/
structure TokenHex where
  text : String
  length : text.length = 20
deriving DecidableEq

/-- `str(secrets.randbelow(9 * 10**17) + 10**17)` -/
def generateVoucherSerial (random : ℕ) : String :=
  toString (random % 900000000000000000 + 100000000000000000)

structure PreactivationRequest where
  voucherAmount : Cents
  voucherCurrency : String
  voucherGroup : String
  issuingBb : String
  registeringInstitutionId : String := ""
  batchId : String := ""
  payeeFunctionalId : String := ""
  callbackUrl : String := ""
deriving DecidableEq

structure RedemptionRequest where
  voucherNumber : String
  issuingBb : String
  merchantName : String := ""
  merchantBankDetails : String := ""
  merchantVoucherGroup : String := ""
  agentId : String := ""
deriving DecidableEq

namespace GovStackVoucherService

def serialMaxRetries : ℕ := 5

def days (n : ℕ) : Instant := n * 86400000000

def audit (entry : AuditEntry) : VoucherTx Unit :=
  match entry.overflow with
  | some column => throw (.dataError column)
  | none => modify fun db => { db with audits := db.audits ++ [entry] }

/-- An audit entry about a voucher. -/
def entryFor (action : AuditAction) (actorBbId : String) (voucher : GovStackVoucher)
    (details : Json) : AuditEntry where
  action
  actorBbId
  objectType := "voucher"
  objectPk := toString voucher.pk
  requestId := ""
  details := ("serial_number", .str voucher.serialNumber) :: details

/-- What precedes the creation: the expiry date, or the exception. -/
def checkPreactivation (settings : VoucherSettings) (registered : List GovStackRegisteredBB)
    (r : PreactivationRequest) (now : Instant) : Except PaymentError Instant := do
  if rejectsBB settings registered r.issuingBb then
    throw .govStackBBNotFound
  if r.voucherAmount ≤ 0 then
    throw .invalidVoucherAmount
  if strip r.voucherGroup = "" then
    throw .invalidVoucherGroup
  if ¬ isIso4217 r.voucherCurrency then
    throw .invalidVoucherCurrency
  return now + days settings.expiryDays

/-- One attempt to create the voucher under a fresh serial number. -/
def create (r : PreactivationRequest) (expiry : Instant) (random : ℕ) :
    VoucherTx GovStackVoucher := do
  let voucher ← Transaction.create VoucherStore.voucherTable .ofViolation fun pk =>
    { pk
      serialNumber := generateVoucherSerial random
      amount := r.voucherAmount
      currency := r.voucherCurrency
      groupCode := strip r.voucherGroup
      issuingBb := strip r.issuingBb
      registeringInstitutionId := clip 20 r.registeringInstitutionId
      batchId := clip 12 r.batchId
      payeeFunctionalId := clip 20 r.payeeFunctionalId
      callbackUrl := clip 500 r.callbackUrl
      expiryDate := some expiry : GovStackVoucher }
  audit (entryFor .voucherPreactivated (strip r.issuingBb) voucher
    [("group_code", .str voucher.groupCode), ("currency", .str voucher.currency)])
  return voucher

/-- Transition a locked voucher, save it with the columns that `record` sets, and audit it. -/
def advance (voucher : GovStackVoucher) (target : VoucherStatus) (refused : PaymentError)
    (record : GovStackVoucher → GovStackVoucher) (entry : GovStackVoucher → AuditEntry) :
    VoucherTx GovStackVoucher := do
  match voucher.transitionTo target with
  | .error _ => throw refused
  | .ok voucher =>
    write VoucherStore.voucherTable .ofViolation voucher.pk fun row =>
      record { row with status := voucher.status }
    audit (entry (record voucher))
    return record voucher

def checkActivation (settings : VoucherSettings) (registered : List GovStackRegisteredBB)
    (issuingBb : String) : Except PaymentError Unit :=
  if rejectsBB settings registered issuingBb then throw .govStackBBNotFound else return

def activate (voucherSerialNumber issuingBb : String) : VoucherTx GovStackVoucher := do
  let db ← get
  let some voucher := db.voucherFor voucherSerialNumber | throw .invalidVoucherSerial
  advance voucher .activated .invalidVoucherSerial id fun voucher =>
    entryFor .voucherActivated (strip issuingBb) voucher
      [("group_code", .str voucher.groupCode), ("new_status", .str voucher.status.text)]

def checkRedemption (settings : VoucherSettings) (registered : List GovStackRegisteredBB)
    (r : RedemptionRequest) : Except PaymentError Unit := do
  if rejectsBB settings registered r.issuingBb then
    throw .govStackBBNotFound
  if ¬ isNumericVoucherNumber r.voucherNumber then
    throw .invalidVoucherNumber
  match classifyRedemptionDecline r.merchantVoucherGroup r.merchantName r.merchantBankDetails with
  | some e => throw e
  | none => return

/-- The redemption columns. -/
def redeemed (r : RedemptionRequest) (now : Instant) (transactionId : TokenHex)
    (voucher : GovStackVoucher) : GovStackVoucher :=
  { voucher with
    redeemedByAgentId := clip 10 r.agentId
    redeemedMerchantName := clip 200 r.merchantName
    redeemedMerchantBankDetails := clip 200 r.merchantBankDetails
    redeemedMerchantVoucherGroup := clip 100 r.merchantVoucherGroup
    redeemedAt := some now
    redemptionTransactionId := transactionId.text }

def redeem (r : RedemptionRequest) (now : Instant) (transactionId : TokenHex) :
    VoucherTx GovStackVoucher := do
  let db ← get
  let some voucher := db.voucherFor r.voucherNumber | throw .invalidVoucherSerial
  advance voucher .consumed .invalidVoucherSerial (redeemed r now transactionId) fun voucher =>
    entryFor .voucherRedeemed (strip r.issuingBb) voucher
      [("transaction_id", .str transactionId.text)]

def cancel (voucherSerialNumber : String) : VoucherTx GovStackVoucher := do
  let db ← get
  let some voucher := db.voucherFor voucherSerialNumber | throw .invalidCancellationSerial
  if voucher.status = .cancelled then
    throw .voucherAlreadyCancelled
  advance voucher .cancelled .invalidCancellationSerial id fun voucher =>
    entryFor .voucherCancelled "" voucher [("group_code", .str voucher.groupCode)]

def getStatus (db : VoucherStore) (serialNumber : String) (now : Instant) :
    Except PaymentError GovStackVoucher := do
  let some voucher := db.voucherFor serialNumber | throw .invalidVoucherSerial
  if voucher.status = .consumed then
    throw .voucherAlreadyUsed
  if voucher.expiryDate.any (· < now) then
    throw .voucherExpired
  return voucher

end GovStackVoucherService

end Civicos.Payments
