import Civicos.Library.Calendar
import Civicos.Library.Machine
import Civicos.Payments.Checkout
import Mathlib.Data.List.Dedup
import Mathlib.Data.List.Sort

/-!
# Official donation receipts

Receipts are issued by the receiver of `donation_completed`, one for each donation, and by the
annual run, one for each donor. `covers` lists the donations whose amounts a receipt adds up; no
code reads it.
-/
namespace Civicos.Payments

open Library Library.Transaction

structure CharitySettings where
  pk : Uuid
  charityLegalName : String
  charityRegistrationNumber : String
  charityAddressLine1 : String
  charityCity : String
  charityProvince : String
  charityPostalCode : String
  placeOfIssue : String
  authorizedSignatoryName : String
  authorizedSignatoryTitle : String
  isActive : Bool := true
deriving DecidableEq, Repr

namespace CharitySettings

def activeKey : Index CharitySettings where
  name := "payments_charitysettings_one_active"
  Key := Unit
  key c := if c.isActive then some () else none

def schema : Schema CharitySettings where
  pk := pk
  indexes := [activeKey]
  checks := [
    .width "charity_legal_name" 255 charityLegalName,
    .width "charity_registration_number" 20 charityRegistrationNumber,
    .width "charity_address_line1" 255 charityAddressLine1,
    .width "charity_city" 100 charityCity,
    .width "charity_province" 2 charityProvince,
    .width "charity_postal_code" 10 charityPostalCode,
    .width "place_of_issue" 100 placeOfIssue,
    .width "authorized_signatory_name" 255 authorizedSignatoryName,
    .width "authorized_signatory_title" 255 authorizedSignatoryTitle]

def charityAddress (c : CharitySettings) : String :=
  c.charityAddressLine1 ++ ", " ++ c.charityCity ++ ", " ++ c.charityProvince ++ " " ++
    c.charityPostalCode

end CharitySettings

inductive ReceiptStatus where
  | issued
  | cancelled
  | superseded
deriving DecidableEq, Repr

structure OfficialDonationReceipt where
  pk : Uuid
  donation : Uuid
  serialNumber : String
  status : ReceiptStatus := .issued
  supersededBy : Option Uuid := none
  cancellationReason : String := ""
  donorLegalName : String
  donorAddressLine1 : String
  donorCity : String
  donorProvince : String
  donorPostalCode : String
  donationDate : ℕ
  receiptDate : ℕ
  eligibleAmount : Cents
  advantageAmount : Cents := 0
  advantageDescription : String
  charityLegalName : String
  charityRegistrationNumber : String
  charityAddress : String
  placeOfIssue : String
  authorizedSignatoryName : String
  authorizedSignatoryTitle : String
  isAnnualConsolidated : Bool := false
  covers : List Uuid
deriving DecidableEq, Repr

namespace OfficialDonationReceipt

def serialNumberKey : Index OfficialDonationReceipt where
  name := "payments_officialdonationreceipt_serial_number_key"
  Key := String
  key r := some r.serialNumber

def issuedKey : Index OfficialDonationReceipt where
  name := "payments_receipt_unique_issued_per_donation"
  Key := Uuid
  key r := if r.status = .issued then some r.donation else none

def schema : Schema OfficialDonationReceipt where
  pk := pk
  indexes := [serialNumberKey, issuedKey]
  checks := [
    .width "serial_number" 20 serialNumber,
    .width "cancellation_reason" 500 cancellationReason,
    .width "donor_legal_name" 255 donorLegalName,
    .width "donor_address_line1" 255 donorAddressLine1,
    .width "donor_city" 100 donorCity,
    .width "donor_province" 2 donorProvince,
    .width "donor_postal_code" 10 donorPostalCode,
    money "eligible_amount" eligibleAmount,
    money "advantage_amount" advantageAmount,
    .width "advantage_description" 255 advantageDescription,
    .width "charity_legal_name" 255 charityLegalName,
    .width "charity_registration_number" 20 charityRegistrationNumber,
    .width "place_of_issue" 100 placeOfIssue,
    .width "authorized_signatory_name" 255 authorizedSignatoryName,
    .width "authorized_signatory_title" 255 authorizedSignatoryTitle,
    ⟨.check "payments_receipt_eligible_nonneg", fun r => 0 ≤ r.eligibleAmount⟩,
    ⟨.check "payments_receipt_advantage_nonneg", fun r => 0 ≤ r.advantageAmount⟩,
    ⟨.check "payments_receipt_advantage_lte_eligible", fun r =>
      r.advantageAmount ≤ r.eligibleAmount⟩]

end OfficialDonationReceipt

/-! ## The donor's address -/

structure DonorAddress where
  line1 : String := ""
  city : String := ""
  province : String := ""
  postalCode : String := ""
deriving DecidableEq, Repr

namespace DonorAddress

/-- The line boundaries of `str.splitlines`. -/
def isLineBreak (c : Char) : Bool := c.toNat ∈ [10, 11, 12, 13, 28, 29, 30, 133]

/-- The lines of a snapshot that are not blank. -/
def lines (snapshot : String) : List String :=
  (((strip snapshot).toList.splitOnP isLineBreak).map fun l => strip (String.ofList l)).filter
    (· ≠ "")

/-- `[A-Z]\d[A-Z]\s*\d[A-Z]\d$`, ignoring case -/
def isPostalCode : List Char → Bool
  | a :: b :: c :: rest =>
    a.isAlpha && b.isDigit && c.isAlpha &&
      match rest.dropWhile isSpace with
      | [d, e, f] => d.isDigit && e.isAlpha && f.isDigit
      | _ => false
  | _ => false

/-- `,?\s+([A-Z]{2})\s+(postal code)`, ignoring case: the two groups. -/
def provinceAndCode (cs : List Char) : Option (List Char × List Char) :=
  let cs := match cs with
    | ',' :: rest => rest
    | _ => cs
  if cs.takeWhile isSpace = [] then none
  else match cs.dropWhile isSpace with
    | a :: b :: rest =>
      if a.isAlpha && b.isAlpha && rest.takeWhile isSpace ≠ [] &&
          isPostalCode (rest.dropWhile isSpace) then
        some ([a, b], rest.dropWhile isSpace)
      else none
    | _ => none

/-- The shortest nonempty start of the line that a province and a postal code follow. -/
def cityLine (cs : List Char) : Option (List Char × List Char × List Char) :=
  (List.range' 1 cs.length).findSome? fun n =>
    (provinceAndCode (cs.drop n)).map fun groups => (cs.take n, groups)

def formatPostalCode (code : List Char) : String :=
  let code := upper (String.ofList (code.filter (· ≠ ' ')))
  if code.length = 6 then
    String.ofList (code.toList.take 3) ++ " " ++ String.ofList (code.toList.drop 3)
  else code

end DonorAddress

open DonorAddress in
/-- `_parse_donor_address` -/
def parseDonorAddress (snapshot : String) : DonorAddress :=
  match lines snapshot with
  | [] => {}
  | [line] => { line1 := clip 255 line }
  | line :: second :: _ =>
    match cityLine second.toList with
    | some (city, province, code) =>
      { line1 := clip 255 line
        city := clip 100 (strip (String.ofList city))
        province := clip 2 (upper (String.ofList province))
        postalCode := formatPostalCode code }
    | none => { line1 := clip 255 line, city := clip 100 second }

example : parseDonorAddress "123 Main St\nOttawa, ON  k1a0a6" =
    ⟨"123 Main St", "Ottawa", "ON", "K1A 0A6"⟩ := by decide

/-! ## The store -/

structure ReceiptStore where
  donations : Table Donation.schema := .empty
  charities : Table CharitySettings.schema := .empty
  receipts : Table OfficialDonationReceipt.schema := .empty
  /-- `payments_receipt_serial_seq` -/
  serialSeq : ℕ := 0
deriving DecidableEq

abbrev ReceiptTx := Transaction PaymentError ReceiptStore

/-- The local date of an instant; there is none before year 1. -/
def localDate (t : Instant) : Except PaymentError ℕ :=
  if Zone.toronto.west ≤ t then .ok (Zone.toronto.date t)
  else .error (.overflowError "date value out of range")

/-- The bounds of a tax year: from New Year in Newfoundland until its last microsecond on the
Pacific coast. -/
def taxYearBounds (taxYear : ℤ) : Except PaymentError (Instant × Instant) :=
  if taxYear < 1 ∨ 9999 < taxYear then
    .error (.valueError ("year " ++ toString taxYear ++ " is out of range"))
  else if taxYear = 9999 then .error (.overflowError "date value out of range")
  else .ok (Zone.stJohns.newYear taxYear.toNat, Zone.vancouver.newYear (taxYear.toNat + 1) - 1)

namespace Donation

/-- A gift that a receipt may be issued for. -/
def Receiptable (d : Donation) : Prop := d.status = .completed ∧ 0 < d.eligibleAmount

instance (d : Donation) : Decidable d.Receiptable := inferInstanceAs (Decidable (_ ∧ _))

def Within (d : Donation) (bounds : Instant × Instant) : Prop :=
  bounds.1 ≤ d.createdAt ∧ d.createdAt ≤ bounds.2

instance (d : Donation) (bounds : Instant × Instant) : Decidable (d.Within bounds) :=
  inferInstanceAs (Decidable (_ ∧ _))

/-- The year of the donation date that a receipt states. -/
def taxYear (d : Donation) : Option ℤ :=
  match localDate d.createdAt with
  | .ok date => some (yearOf date)
  | .error _ => none

end Donation

namespace ReceiptStore

def donationTable : Lens ReceiptStore (Table Donation.schema) where
  get s := s.donations
  set t s := { s with donations := t }
  get_set _ _ := rfl
  set_get _ := rfl
  set_set _ _ _ := rfl

def charityTable : Lens ReceiptStore (Table CharitySettings.schema) where
  get s := s.charities
  set t s := { s with charities := t }
  get_set _ _ := rfl
  set_get _ := rfl
  set_set _ _ _ := rfl

def receiptTable : Lens ReceiptStore (Table OfficialDonationReceipt.schema) where
  get s := s.receipts
  set t s := { s with receipts := t }
  get_set _ _ := rfl
  set_get _ := rfl
  set_set _ _ _ := rfl

def activeCharity (s : ReceiptStore) : Option CharitySettings :=
  s.charities.rows.find? (·.isActive)

/-- Whether the donation is the anchor of an issued receipt. -/
def issuedFor (s : ReceiptStore) (donation : Uuid) : Bool :=
  s.receipts.rows.any fun r => r.donation = donation ∧ r.status = .issued

/-- Whether an issued receipt is anchored on a donation of the donor within the bounds. -/
def issuedWithin (s : ReceiptStore) (donor : Uuid) (bounds : Instant × Instant) : Bool :=
  s.receipts.rows.any fun r => r.status = .issued ∧
    ((s.donations.get r.donation).any fun d => d.donor = donor ∧ d.Within bounds) = true

/-- The issued receipts that a donation is counted in. -/
def receiptsOver (s : ReceiptStore) (donation : Uuid) : List OfficialDonationReceipt :=
  s.receipts.rows.filter fun r => r.status = .issued ∧ donation ∈ r.covers

/-- The completed donations of a year, donor by donor and from the oldest on. -/
def donorGroups (s : ReceiptStore) (bounds : Instant × Instant) : List (List Donation) :=
  let completed := (s.donations.rows.filter fun d => d.status = .completed ∧ d.Within bounds)
  let ordered := completed.insertionSort (·.createdAt ≤ ·.createdAt)
  (ordered.map Donation.donor).dedup.map fun donor => ordered.filter (·.donor = donor)

end ReceiptStore

open ReceiptStore

/-! ## Issuing -/

/-- What the two issuers put on a receipt, apart from the charity's data. -/
structure Gifts where
  anchor : Donation
  eligibleAmount : Cents
  advantageAmount : Cents
  advantageDescription : String
  isAnnualConsolidated : Bool
  covers : List Uuid

namespace Gifts

def single (d : Donation) : Gifts where
  anchor := d
  eligibleAmount := d.eligibleAmount
  advantageAmount := d.advantageAmount
  advantageDescription := d.advantageDescription
  isAnnualConsolidated := false
  covers := [d.pk]

def annual (anchor : Donation) (rest : List Donation) : Gifts where
  anchor := anchor
  eligibleAmount := ((anchor :: rest).map Donation.eligibleAmount).sum
  advantageAmount := ((anchor :: rest).map Donation.advantageAmount).sum
  advantageDescription := clip 255 ("; ".intercalate
    (((anchor :: rest).map Donation.advantageDescription).filter (· ≠ "")).eraseDups)
  isAnnualConsolidated := rest ≠ []
  covers := (anchor :: rest).map Donation.pk

end Gifts

/-- `OfficialDonationReceipt(…).save()` -/
def issue (charity : CharitySettings) (g : Gifts) (now : Instant) :
    ReceiptTx OfficialDonationReceipt := do
  let donationDate ← localDate g.anchor.createdAt
  let receiptDate ← localDate now
  modify fun s => { s with serialSeq := s.serialSeq + 1 }
  let s ← get
  if receiptDate < donationDate then
    throw (.valueError ("receipt_date (" ++ isoDate receiptDate ++
      ") cannot be before donation_date ("
      ++ isoDate donationDate ++ ")."))
  let address := parseDonorAddress g.anchor.donorAddressSnapshot
  create receiptTable .ofViolation fun pk =>
    { pk
      donation := g.anchor.pk
      serialNumber := toString (yearOf receiptDate) ++ "-" ++ zfill 6 s.serialSeq
      donorLegalName := g.anchor.donorNameSnapshot
      donorAddressLine1 := address.line1
      donorCity := address.city
      donorProvince := address.province
      donorPostalCode := address.postalCode
      donationDate
      receiptDate
      eligibleAmount := g.eligibleAmount
      advantageAmount := g.advantageAmount
      advantageDescription := g.advantageDescription
      charityLegalName := charity.charityLegalName
      charityRegistrationNumber := charity.charityRegistrationNumber
      charityAddress := charity.charityAddress
      placeOfIssue := charity.placeOfIssue
      authorizedSignatoryName := charity.authorizedSignatoryName
      authorizedSignatoryTitle := charity.authorizedSignatoryTitle
      isAnnualConsolidated := g.isAnnualConsolidated
      covers := g.covers }

/-- `on_donation_completed`; whatever it raises is swallowed. -/
def onDonationCompleted (donation : Donation) (now : Instant) :
    ReceiptTx (Option OfficialDonationReceipt) := do
  if donation.status ≠ .completed then return none
  if donation.eligibleAmount ≤ 0 then return none
  let s ← get
  match s.activeCharity with
  | none => return none
  | some charity =>
    if s.issuedFor donation.pk then return none
    let receipt ← issue charity (.single donation) now
    return some receipt

/-! ## The annual run -/

/-- The counts that a run returns, and how often it called `logger.error`. -/
structure AnnualReport where
  processed : ℕ := 0
  skipped : ℕ := 0
  failed : ℕ := 0
  errors : ℕ := 0
deriving DecidableEq, Repr

/-- One turn of the loop over the donors. -/
def receiptDonor (charity : CharitySettings) (bounds : Instant × Instant) (clock : Uuid → Instant)
    (p : AnnualReport × ReceiptStore) (group : List Donation) : AnnualReport × ReceiptStore :=
  match group.filter fun d => 0 < d.eligibleAmount with
  | [] => ({ p.1 with skipped := p.1.skipped + 1 }, p.2)
  | anchor :: rest =>
    if p.2.issuedWithin anchor.donor bounds then ({ p.1 with skipped := p.1.skipped + 1 }, p.2)
    else match commit (issue charity (.annual anchor rest) (clock anchor.donor)) p.2 with
      | (.ok _, s) => ({ p.1 with processed := p.1.processed + 1 }, s)
      | (.error e, s) =>
        if e = .integrityError "payments_receipt_unique_issued_per_donation" then
          ({ p.1 with skipped := p.1.skipped + 1 }, s)
        else ({ p.1 with failed := p.1.failed + 1, errors := p.1.errors + 1 }, s)

/-- `generate_annual_receipts`; `clock` gives the reading that each donor's receipt is dated by. -/
def generateAnnualReceipts (taxYear : ℤ) (clock : Uuid → Instant) (s : ReceiptStore) :
    Except PaymentError AnnualReport × ReceiptStore :=
  match s.activeCharity with
  | none => (.ok { errors := 1 }, s)
  | some charity =>
    match taxYearBounds taxYear with
    | .error e => (.error e, s)
    | .ok bounds =>
      let p := (s.donorGroups bounds).foldl (receiptDonor charity bounds clock) ({}, s)
      (.ok p.1, p.2)

/-! ## Cancelling -/

def cancelMessage (serialNumber : String) : String :=
  "Receipt " ++ serialNumber ++ " cannot be cancelled — current status is not 'issued'."

def supersedeMessage (serialNumber : String) : String :=
  "Receipt " ++ serialNumber ++ " cannot be superseded — current status is not 'issued'."

namespace OfficialDonationReceipt

def cancel (receipt : OfficialDonationReceipt) (reason : String) (supersededBy : Option Uuid) :
    ReceiptTx Unit := do
  let row ← lookup receiptTable (.valueError (cancelMessage receipt.serialNumber)) receipt.pk
  if row.status ≠ .issued then throw (.valueError (cancelMessage receipt.serialNumber))
  write receiptTable .ofViolation receipt.pk fun r =>
    { r with status := .cancelled, cancellationReason := reason, supersededBy }

def markSuperseded (receipt : OfficialDonationReceipt) (newReceipt : Uuid) : ReceiptTx Unit := do
  let row ← lookup receiptTable (.valueError (supersedeMessage receipt.serialNumber)) receipt.pk
  if row.status ≠ .issued then throw (.valueError (supersedeMessage receipt.serialNumber))
  write receiptTable .ofViolation receipt.pk fun r =>
    { r with status := .superseded, supersededBy := newReceipt }

end OfficialDonationReceipt

/-! ## Runs -/

inductive ReceiptStep where
  | signal (donation : Uuid) (now : Instant)
  | annual (taxYear : ℤ) (clock : Uuid → Instant)
  | donate (d : Donation)
  | revise (donation : Uuid) (status : DonationStatus)
  | cancel (receipt : OfficialDonationReceipt) (reason : String) (supersededBy : Option Uuid)
  | supersede (receipt : OfficialDonationReceipt) (newReceipt : Uuid)
  | configure (c : CharitySettings)
  | activate (charity : Uuid) (isActive : Bool)

def ReceiptStep.step (s : ReceiptStore) : ReceiptStep → Option ReceiptStore
  | signal donation now =>
    (s.donations.get donation).map fun d => (commit (onDonationCompleted d now) s).2
  | annual taxYear clock => some (generateAnnualReceipts taxYear clock s).2
  | donate d => some (commit (create donationTable PaymentError.ofViolation
      fun pk => { d with pk }) s).2
  | revise donation status => some (commit (write donationTable PaymentError.ofViolation donation
      fun row => { row with status }) s).2
  | cancel receipt reason supersededBy => some (commit (receipt.cancel reason supersededBy) s).2
  | supersede receipt newReceipt => some (commit (receipt.markSuperseded newReceipt) s).2
  | configure c => some (commit (create charityTable PaymentError.ofViolation
      fun pk => { c with pk }) s).2
  | activate charity isActive => some (commit (write charityTable PaymentError.ofViolation charity
      fun row => { row with isActive }) s).2

/-- Any order of signals, annual runs and changes by hand; no receipt was issued before. -/
def receipting : Machine ReceiptStore ReceiptStep where
  Init s := s.receipts = .empty
  step := ReceiptStep.step

end Civicos.Payments
