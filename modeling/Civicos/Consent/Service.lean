import Civicos.Consent.Revision

/-!
# Consent: the service

Grants, withdrawals, signatures and erasure. A call that reads before it locks is cut there: the
rows that its statement has seen are an argument of the next part, which looks at them again once
it has the lock.
-/
namespace Civicos.Consent

open Library Library.Transaction
open Documents (isoformat)

/-- The masked address of a request and its source. -/
structure Caller where
  actorIp : String := ""
  source : String := "api"
deriving DecidableEq, Repr

/-- `repr` of a slug -/
def quoted (s : String) : String := "'" ++ s ++ "'"

def unknownCategory (slug : String) : ConsentError :=
  .valueError ("Unknown or inactive consent category: " ++ quoted slug)

namespace Store

def activeCategory (slug : String) (s : Store) : Option ConsentCategory :=
  s.categories.rows.find? fun c => c.value .slug = .str slug && c.isActive

def categoryOf (k : ℕ) (s : Store) : Option ConsentCategory := s.categories.get k

end Store

def saveRecord (record : ℕ) (f : ConsentRecord → Decision) : Tx Unit :=
  rewriteRows Store.recordTable (·.pk = record) (.withDecision f) (ConsentRecord.preserves f)

/-- `ConsentRecord.objects.create` in a savepoint; none when another row is the current one. -/
def insertCurrent (build : ℕ → ConsentRecord) : Tx (Option ConsentRecord) := fun s =>
  match append Store.recordTable ConsentError.ofViolation build s with
  | .ok (r, t) => .ok (some r, t)
  | .error e =>
    if e = .integrityError ConsentRecord.currentUnique.name then .ok (none, s) else .error e

/-! ## Granting -/

/-- `revision` is the revision that the caller asks for. -/
structure GrantCall where
  citizen : ℕ
  categorySlug : String
  caller : Caller := {}
  consentVersion : String := ""
  revision : Option ℕ := none
deriving DecidableEq, Repr

/-- A grant whose category has been found; the revision with its hash. -/
structure Grant extends GrantCall where
  category : ℕ
  bound : Option (ℕ × String)
deriving DecidableEq, Repr

/-- The category, and the revision: the one asked for, which must be of this agreement, or the
latest. -/
def openGrant (c : GrantCall) : Tx Grant := do
  let category ← ask (unknownCategory c.categorySlug) (·.activeCategory c.categorySlug)
  match c.revision with
  | none =>
    let s ← get
    let latest := s.latestRevision .dataAgreement category.pk
    return ⟨c, category.pk, latest.map fun r => (r.pk, r.serializedHash)⟩
  | some k =>
    let r ← ask (.notFound "Revision not found for this DataAgreement.") fun s =>
      (s.revisions.get k).filter (·.of .dataAgreement category.pk)
    return ⟨c, category.pk, some (r.pk, r.serializedHash)⟩

namespace Grant

/-- The filter of the idempotency check -/
def granted (g : Grant) (r : ConsentRecord) : Bool :=
  r.currentOf g.citizen g.category && r.state = .signed && r.status = .granted &&
    g.bound.all fun b => r.dataAgreementRevision = some b.1

def record (g : Grant) (pk : ℕ) : ConsentRecord where
  pk
  citizen := g.citizen
  category := g.category
  actorIp := g.caller.actorIp
  source := g.caller.source
  consentVersion := g.consentVersion
  dataAgreementRevision := g.bound.map (·.1)
  dataAgreementRevisionHash := g.bound.elim "" (·.2)

/-- The payload of the automatic signature -/
def payload (g : Grant) (record : ℕ) (now : Documents.Instant) : String :=
  dumps [("consentRecordId", .str (toString record)), ("individualId", .str (toString g.citizen)),
    ("dataAgreementId", .str (toString g.category)),
    ("dataAgreementRevisionId", .ofOption (g.bound.map fun b => toString b.1)),
    ("optIn", .bool true), ("timestamp", .str (isoformat now))]

def signature (g : Grant) (record : ℕ) (now : Documents.Instant) (pk : ℕ) : ConsentSignature where
  pk
  consentRecord := record
  dataAgreementRevisionHash := g.bound.elim "" (·.2)
  value := fun
    | .payload | .verificationPayload => .str (g.payload record now)
    | .signature | .verificationPayloadHash => .str (sha256 (g.payload record now))
    | .verificationSignedBy => .str (toString g.citizen)
    | .timestamp => .str (isoformat now)
    | f => ConsentSignature.default f

end Grant

/-- The archiving statement locks the row that it has seen, and looks at it again. -/
def archiveSeen (g : Grant) : Option ℕ → Tx Unit
  | none => return ()
  | some k => updateRow Store.recordTable .ofViolation k fun r =>
      if r.currentOf g.citizen g.category then r.archived else r

/-- The record is created unsigned and signed at once; both states get a revision. -/
def sign (g : Grant) (r : ConsentRecord) : Tx Unit := do
  let _ ← createFor .consentRecord r.pk r.snapshot (some g.citizen) ""
  let s ← get
  let decided := r.withDecision fun r =>
    { r with
      status := .granted
      state := .signed
      grantedAt := some s.now }
  saveRecord r.pk fun _ => decided.toDecision
  writeAudit {
    citizen := some g.citizen
    actor := some g.citizen
    action := .granted
    category := some g.category
    actorIp := g.caller.actorIp
    details := .decided g.categorySlug g.caller.source }
  let _ ← append Store.signatureTable .ofViolation (g.signature r.pk s.now)
  let _ ← createFor .consentRecord r.pk decided.snapshot (some g.citizen) ""

/-- The rest of a grant, once the archiving statement has seen its rows; none when it has lost the
race for the current record. -/
def writeGrant (g : Grant) (seen : Option ℕ) : Tx (Option ℕ) := do
  archiveSeen g seen
  match ← insertCurrent g.record with
  | none => return none
  | some r =>
    sign g r
    return some r.pk

/-! ## Withdrawing -/

structure WithdrawCall where
  citizen : ℕ
  categorySlug : String
  caller : Caller := {}
deriving DecidableEq, Repr

def openWithdrawal (c : WithdrawCall) : Tx ℕ := do
  let category ← ask (unknownCategory c.categorySlug) (·.activeCategory c.categorySlug)
  if category.isRequired then
    throw (.valueError ("Consent category " ++ quoted c.categorySlug ++
      " is required and cannot be withdrawn."))
  return category.pk

/-- The rest of a withdrawal, once its statement has locked what it has seen. -/
def writeWithdrawal (c : WithdrawCall) (category : ℕ) (seen : Option ℕ) : Tx ℕ := do
  let r ← ask (.valueError ("No consent record found for category " ++ quoted c.categorySlug))
    fun s => (seen.bind s.records.get).filter (·.currentOf c.citizen category)
  if r.status = .pending then throw (.valueError "Cannot withdraw consent that was never granted.")
  if r.status ≠ .granted then return r.pk
  let s ← get
  let decided := r.withDecision fun r =>
    { r with
      status := .withdrawn
      state := .revoked
      withdrawnAt := some s.now
      actorIp := c.caller.actorIp
      source := c.caller.source }
  saveRecord r.pk fun _ => decided.toDecision
  let _ ← createFor .consentRecord r.pk decided.snapshot (some c.citizen) ""
  writeAudit {
    citizen := some c.citizen
    actor := some c.citizen
    action := .withdrawn
    category := some category
    actorIp := c.caller.actorIp
    details := .decided c.categorySlug c.caller.source }
  return r.pk

/-! ## Signatures -/

/-- `_get_record` of the views -/
def recordFor (user record : ℕ) : Tx ConsentRecord :=
  ask (.notFound "ConsentRecord not found.") fun s =>
    (s.records.get record).filter (·.citizen = user)

/-- `verificationPayload` is the text to be stored. -/
structure SignatureRequest where
  verificationType : String := "string"
  verificationPayload : String
  signature : String
  verificationSignedBy : String
deriving DecidableEq, Repr

def SignatureRequest.row (q : SignatureRequest) (r : ConsentRecord) (now : Documents.Instant)
    (pk : ℕ) : ConsentSignature where
  pk
  consentRecord := r.pk
  dataAgreementRevisionHash := r.dataAgreementRevisionHash
  value := fun
    | .payload | .verificationPayload => .str q.verificationPayload
    | .signature => .str q.signature
    | .verificationType => .str q.verificationType
    | .verificationPayloadHash => .str (sha256 q.verificationPayload)
    | .verificationSignedBy => .str q.verificationSignedBy
    | .timestamp => .str (isoformat now)
    | f => ConsentSignature.default f

def attachSignature (user record : ℕ) (q : SignatureRequest) (caller : Caller) : Tx Unit := do
  let r ← recordFor user record
  let s ← get
  if (s.signatureOf r.pk).isSome then
    throw (.validationError none
      "A signature already exists for this ConsentRecord. Use PUT to update.")
  if q.signature = "" then
    throw (.validationError (some "signature") "This field is required.")
  if q.verificationSignedBy = "" then
    throw (.validationError (some "verificationSignedBy") "This field is required.")
  let _ ← append Store.signatureTable .ofViolation (q.row r s.now)
  if r.state = .signed then return ()
  let decided := r.withDecision fun r =>
    { r with
      status := .granted
      state := .signed
      actorIp := caller.actorIp
      source := caller.source }
  saveRecord r.pk fun _ => decided.toDecision
  let rev ← createFor .consentRecord r.pk
    (decided.snapshot ++
      [("previousState", .str r.state.value), ("transitionedBy", .str "signature")])
    (some r.citizen) ""
  writeAudit {
    citizen := some r.citizen
    actor := some r.citizen
    action := .granted
    category := some r.category
    actorIp := caller.actorIp
    details := .signatureAttached q.verificationType rev.pk }

/-- The payload as it is stored -/
def textOf : Value → String
  | .str s => s
  | v => v.dumps

/-- The fields of the request, with the payload as text and its hash made here. -/
def signatureColumns (data : List (SignatureField × Value)) (sig : Columns SignatureField) :
    SignatureField → Value :=
  match data.lookup .verificationPayload with
  | none => (sig.assign data).value
  | some v => (sig.assign ((.verificationPayload, .str (textOf v)) ::
      (.verificationPayloadHash, .str (sha256 (textOf v))) :: data)).value

def updateSignature (user record : ℕ) (data : List (SignatureField × Value)) (caller : Caller) :
    Tx Unit := do
  let r ← recordFor user record
  let sig ← ask (.notFound "No signature found for this ConsentRecord. Use POST to create one.")
    (·.signatureOf r.pk)
  rewriteRows Store.signatureTable (·.pk = sig.pk) (.withColumns (signatureColumns data))
    (ConsentSignature.preserves _)
  let rev ← createFor .consentSignature sig.pk (sig.withColumns (signatureColumns data)).snapshot
    (some r.citizen) ""
  writeAudit {
    citizen := some r.citizen
    actor := some r.citizen
    action := .granted
    category := some r.category
    actorIp := caller.actorIp
    details := .signatureUpdated rev.pk }

/-! ## Queries -/

namespace Store

/-- `has_consent` -/
def hasConsent (citizen : ℕ) (categorySlug : String) (s : Store) : Bool :=
  (s.activeCategory categorySlug).any fun category =>
    category.isRequired || s.records.rows.any fun r =>
      r.currentOf citizen category.pk && r.status = .granted && r.state = .signed

/-- `ServiceVerificationConsentRecordsView` -/
def verificationRecords (individual agreement : Option ℕ) (s : Store) : List ConsentRecord :=
  s.records.rows.filter fun r => r.state = .signed && individual.all (r.citizen = ·) &&
    agreement.all (r.category = ·)

/-- The records that `right_to_be_forgotten` looks for -/
def forgettableRecords (citizen : ℕ) (s : Store) : List ConsentRecord :=
  s.records.rows.filter fun r => r.citizen = citizen &&
    (s.categoryOf r.category).any fun c => c.forgettable && !c.isRequired

end Store

/-! ## The right to be forgotten -/

/-- What follows the two queries for the records: `listed` are those of the first one, `collected`
those that the deletion takes. -/
def erase (citizen : ℕ) (caller : Caller) (slugs : List Value) (listed collected : List ℕ) :
    Tx Unit := do
  removeRows Store.signatureTable (·.consentRecord ∈ collected)
  removeRows Store.recordTable (·.pk ∈ collected)
  rewriteRows Store.revisionTable (fun r => r.schemaName = .consentRecord ∧ r.objectId ∈ listed)
    .redacted ConsentRevision.preserves_redacted
  let s ← get
  writeAudit {
    citizen := some citizen
    actor := some citizen
    action := .rtbfRequested
    actorIp := caller.actorIp
    details := .forgotten slugs slugs.length }
  if slugs = [] then return ()
  writeAudit {
    citizen := some citizen
    actor := some citizen
    action := .rtbfCompleted
    actorIp := caller.actorIp
    details := .forgottenCompleted slugs slugs.length
      (s.records.rows.countP fun r => r.citizen = citizen) }

end Civicos.Consent
