import Civicos.Documents.Store
import Civicos.Library.Json
import Civicos.Library.Update

/-!
# Consent: rows, snapshots and the store

Policies and data agreements are configured by staff. A citizen's decision on an agreement is a
consent record, which may carry a signature. Revisions are snapshots of all four kinds of objects;
each names the hash of the one before it.
-/
namespace Civicos.Consent

open Library Library.Transaction
open Documents (Instant isoformat)

/-! ## Revisions -/

inductive SchemaName where
  | policy
  | dataAgreement
  | consentRecord
  | consentSignature
deriving DecidableEq, Repr

def SchemaName.value : SchemaName → String
  | policy => "Policy"
  | dataAgreement => "DataAgreement"
  | consentRecord => "ConsentRecord"
  | consentSignature => "ConsentSignature"

/-- The envelope that `create_for` builds around a snapshot. -/
structure Snapshot where
  objectData : List (String × Value)
  schemaName : SchemaName
  objectId : ℕ
  signedWithoutObjectId : Bool := false
  timestamp : Instant
  authorizedByIndividual : Option String
  authorizedByOther : String
deriving DecidableEq, Repr

def Snapshot.dumps (s : Snapshot) : String :=
  dumpsObject [("objectData", Library.dumps s.objectData),
    ("schemaName", (Value.str s.schemaName.value).dumps),
    ("objectId", (Value.str (toString s.objectId)).dumps),
    ("signedWithoutObjectId", (Value.bool s.signedWithoutObjectId).dumps),
    ("timestamp", (Value.str (isoformat s.timestamp)).dumps),
    ("authorizedByIndividual", (Value.ofOption s.authorizedByIndividual).dumps),
    ("authorizedByOther", (Value.str s.authorizedByOther).dumps)]

/-- `_compute_hash` -/
def Snapshot.computeHash (s : Snapshot) : String := sha256 s.dumps

structure ConsentRevision where
  pk : ℕ
  schemaName : SchemaName
  objectId : ℕ
  serializedSnapshot : Snapshot
  serializedHash : String
  timestamp : Instant
  authorizedByIndividual : Option ℕ
  authorizedByOther : String
  predecessorHash : String := ""
  successor : Option ℕ := none
deriving DecidableEq, Repr

namespace ConsentRevision

def successorUnique : Index ConsentRevision where
  name := "consent_consentrevision_successor_id_key"
  Key := ℕ
  key r := r.successor

def schema : Schema ConsentRevision where
  pk := pk
  indexes := [successorUnique]

def of (schemaName : SchemaName) (objectId : ℕ) (r : ConsentRevision) : Bool :=
  r.schemaName = schemaName ∧ r.objectId = objectId

end ConsentRevision

/-! ## Policies and data agreements -/

inductive PolicyField where
  | name
  | description
  | version
  | url
  | jurisdiction
  | industrySector
  | dataRetentionPeriodDays
  | geographicRestriction
  | storageLocation
  | thirdPartyDataSharing
  | isActive
deriving DecidableEq, Repr

def PolicyField.all : List PolicyField :=
  [name, description, version, url, jurisdiction, industrySector, dataRetentionPeriodDays,
    geographicRestriction, storageLocation, thirdPartyDataSharing, isActive]

theorem PolicyField.mem_all (f : PolicyField) : f ∈ all := by
  cases f <;> decide

inductive CategoryField where
  | slug
  | nameEn
  | nameFr
  | purposeEn
  | purposeFr
  | lawfulBasis
  | isRequired
  | isActive
  | policy
  | version
  | dataUse
  | dpia
  | forgettable
  | controllerName
  | controllerUrl
  | attributes
  | language
  | lifecycle
  | dpiaDate
  | dpiaEvidenceUrl
  | dpiaSummaryUrl
  | dpiaUrl
  | dataControllerLogoImageUrl
  | dataUsePurpose
  | dataUsePurposeDescription
  | dataUsePurposeRestriction
  | dataUseActivity
  | dataUsagePolicy
  | purposeDescription
deriving DecidableEq, Repr

def CategoryField.all : List CategoryField :=
  [slug, nameEn, nameFr, purposeEn, purposeFr, lawfulBasis, isRequired, isActive, policy, version,
    dataUse, dpia, forgettable, controllerName, controllerUrl, attributes, language, lifecycle,
    dpiaDate, dpiaEvidenceUrl, dpiaSummaryUrl, dpiaUrl, dataControllerLogoImageUrl, dataUsePurpose,
    dataUsePurposeDescription, dataUsePurposeRestriction, dataUseActivity, dataUsagePolicy,
    purposeDescription]

theorem CategoryField.mem_all (f : CategoryField) : f ∈ all := by
  cases f <;> decide

/-- A row, or a loaded instance, with its columns by field. -/
structure Columns (F : Type) where
  pk : ℕ
  value : F → Value

namespace Columns

variable {F : Type} [DecidableEq F]

/-- `setattr` for each entry of a request -/
def assign (data : List (F × Value)) (row : Columns F) : Columns F :=
  { row with value := fun f => (data.lookup f).getD (row.value f) }

@[simp] theorem pk_assign (data : List (F × Value)) (row : Columns F) :
    (row.assign data).pk = row.pk := rfl

end Columns

abbrev ConsentPolicy := Columns PolicyField

abbrev ConsentCategory := Columns CategoryField

namespace ConsentPolicy

def schema : Schema ConsentPolicy where
  pk := Columns.pk

/-- The defaults of the columns that a request does not name. -/
def default : PolicyField → Value
  | .isActive => .bool true
  | .thirdPartyDataSharing => .bool false
  | .dataRetentionPeriodDays => .null
  | _ => .str ""

/-- `_policy_snapshot` -/
def snapshot (policy : ConsentPolicy) : List (String × Value) :=
  [("id", .str (toString policy.pk)), ("name", policy.value .name),
    ("description", policy.value .description), ("version", policy.value .version),
    ("url", policy.value .url), ("jurisdiction", policy.value .jurisdiction),
    ("industrySector", policy.value .industrySector),
    ("dataRetentionPeriodDays", policy.value .dataRetentionPeriodDays),
    ("geographicRestriction", policy.value .geographicRestriction),
    ("storageLocation", policy.value .storageLocation),
    ("thirdPartyDataSharing", policy.value .thirdPartyDataSharing)]

end ConsentPolicy

namespace ConsentCategory

def slugUnique : Index ConsentCategory where
  name := "consent_consentcategory_slug_key"
  Key := Value
  key c := some (c.value .slug)

def schema : Schema ConsentCategory where
  pk := Columns.pk
  indexes := [slugUnique]

def default : CategoryField → Value
  | .isActive => .bool true
  | .isRequired | .forgettable => .bool false
  | .lawfulBasis => .str "consent"
  | .version => .str "1.0.0"
  | .language => .str "en"
  | .lifecycle => .str "published"
  | .policy | .dpiaDate => .null
  | .attributes => .json "[]"
  | _ => .str ""

def isActive (c : ConsentCategory) : Bool := c.value .isActive = .bool true

def isRequired (c : ConsentCategory) : Bool := c.value .isRequired = .bool true

def forgettable (c : ConsentCategory) : Bool := c.value .forgettable = .bool true

/-- `_data_agreement_snapshot` -/
def snapshot (category : ConsentCategory) : List (String × Value) :=
  [("id", .str (toString category.pk)), ("slug", category.value .slug),
    ("version", category.value .version), ("language", category.value .language),
    ("lifecycle", category.value .lifecycle), ("nameEn", category.value .nameEn),
    ("nameFr", category.value .nameFr), ("purposeEn", category.value .purposeEn),
    ("purposeFr", category.value .purposeFr),
    ("purposeDescription", category.value .purposeDescription),
    ("lawfulBasis", category.value .lawfulBasis), ("dataUse", category.value .dataUse),
    ("dataUsePurpose", category.value .dataUsePurpose),
    ("dataUsePurposeDescription", category.value .dataUsePurposeDescription),
    ("dataUsePurposeRestriction", category.value .dataUsePurposeRestriction),
    ("dataUseActivity", category.value .dataUseActivity),
    ("dataUsagePolicy", category.value .dataUsagePolicy), ("dpia", category.value .dpia),
    ("dpiaDate", category.value .dpiaDate), ("dpiaEvidenceUrl", category.value .dpiaEvidenceUrl),
    ("dpiaSummaryUrl", category.value .dpiaSummaryUrl), ("dpiaUrl", category.value .dpiaUrl),
    ("isRequired", category.value .isRequired), ("isActive", category.value .isActive),
    ("forgettable", category.value .forgettable),
    ("controllerName", category.value .controllerName),
    ("controllerUrl", category.value .controllerUrl),
    ("dataControllerLogoImageUrl", category.value .dataControllerLogoImageUrl),
    ("policyId", category.value .policy), ("attributes", category.value .attributes)]

end ConsentCategory

/-! ## Records and signatures -/

inductive Status where
  | pending
  | granted
  | withdrawn
deriving DecidableEq, Repr

def Status.value : Status → String
  | pending => "pending"
  | granted => "granted"
  | withdrawn => "withdrawn"

/-- The signing state; the schema also has a state `pending`, which no code sets. -/
inductive RecordState where
  | unsigned
  | pending
  | signed
  | revoked
deriving DecidableEq, Repr

def RecordState.value : RecordState → String
  | unsigned => "unsigned"
  | pending => "pending"
  | signed => "signed"
  | revoked => "revoked"

/-- The columns of a record that a decision writes. -/
structure Decision where
  status : Status := .pending
  state : RecordState := .unsigned
  grantedAt : Option Instant := none
  withdrawnAt : Option Instant := none
  actorIp : String := ""
  source : String := "web"
deriving DecidableEq, Repr

structure ConsentRecord extends Decision where
  pk : ℕ
  citizen : ℕ
  category : ℕ
  consentVersion : String := ""
  dataAgreementRevision : Option ℕ := none
  dataAgreementRevisionHash : String := ""
  isCurrent : Bool := true
deriving DecidableEq, Repr

namespace ConsentRecord

/-- Partial: only current records are in it. -/
def currentUnique : Index ConsentRecord where
  name := "unique_current_consent_record_per_citizen_category"
  Key := ℕ × ℕ
  key r := if r.isCurrent then some (r.citizen, r.category) else none

def schema : Schema ConsentRecord where
  pk := pk
  indexes := [currentUnique]

def withDecision (f : ConsentRecord → Decision) (r : ConsentRecord) : ConsentRecord :=
  { r with toDecision := f r }

theorem preserves (f : ConsentRecord → Decision) : schema.Preserves (withDecision f) where
  pk _ := rfl
  key i hi r := by
    obtain rfl := List.mem_singleton.mp hi
    rfl
  valid _ _ c hc := by cases hc

def archived (r : ConsentRecord) : ConsentRecord := { r with isCurrent := false }

def optIn (r : ConsentRecord) : Bool := r.status = .granted

/-- `_consent_record_snapshot` -/
def snapshot (r : ConsentRecord) : List (String × Value) :=
  [("id", .str (toString r.pk)), ("individual", .str (toString r.citizen)),
    ("dataAgreement", .str (toString r.category)),
    ("dataAgreementRevision", .ofOption (r.dataAgreementRevision.map toString)),
    ("dataAgreementRevisionHash", .str r.dataAgreementRevisionHash), ("optIn", .bool r.optIn),
    ("state", .str r.state.value), ("status", .str r.status.value),
    ("isCurrent", .bool r.isCurrent), ("consentVersion", .str r.consentVersion)]

/-- The filter of the lookups of the current record -/
def currentOf (citizen category : ℕ) (r : ConsentRecord) : Bool :=
  r.citizen = citizen ∧ r.category = category ∧ r.isCurrent = true

end ConsentRecord

inductive SignatureField where
  | payload
  | signature
  | verificationType
  | verificationPayload
  | verificationPayloadHash
  | verificationSignedBy
  | timestamp
  | verificationArtifact
  | verificationSignedAs
  | verificationJwks
  | verificationJwsHeader
  | signedWithoutObjectId
  | objectType
  | objectReference
deriving DecidableEq, Repr

structure ConsentSignature extends Columns SignatureField where
  consentRecord : ℕ
  dataAgreementRevisionHash : String

namespace ConsentSignature

def recordUnique : Index ConsentSignature where
  name := "consent_consentsignature_consent_record_id_key"
  Key := ℕ
  key s := some s.consentRecord

def schema : Schema ConsentSignature where
  pk s := s.pk
  indexes := [recordUnique]

def withColumns (f : Columns SignatureField → SignatureField → Value) (s : ConsentSignature) :
    ConsentSignature :=
  { s with value := f s.toColumns }

theorem preserves (f : Columns SignatureField → SignatureField → Value) :
    schema.Preserves (withColumns f) where
  pk _ := rfl
  key i hi s := by
    obtain rfl := List.mem_singleton.mp hi
    rfl
  valid _ _ c hc := by cases hc

def default : SignatureField → Value
  | .verificationType => .str "string"
  | .verificationJwks => .null
  | .signedWithoutObjectId => .bool false
  | _ => .str ""

/-- The snapshot that `update_signature` takes -/
def snapshot (s : ConsentSignature) : List (String × Value) :=
  [("id", .str (toString s.pk)), ("consentRecord", .str (toString s.consentRecord)),
    ("payload", s.value .payload), ("signature", s.value .signature),
    ("verificationMethod", s.value .verificationType),
    ("verificationPayload", s.value .verificationPayload),
    ("verificationPayloadHash", s.value .verificationPayloadHash),
    ("verificationSignedBy", s.value .verificationSignedBy), ("timestamp", s.value .timestamp)]

end ConsentSignature

/-! ## The audit log -/

inductive AuditAction where
  | granted
  | withdrawn
  | rtbfRequested
  | rtbfCompleted
  | policyCreated
  | policyUpdated
  | dataAgreementCreated
  | dataAgreementUpdated
deriving DecidableEq, Repr

inductive AuditDetails where
  | decided (categorySlug source : String)
  | signatureAttached (verificationType : String) (revision : ℕ)
  | signatureUpdated (revision : ℕ)
  | forgotten (categoriesDeleted : List Value) (deletedCount : ℕ)
  | forgottenCompleted (categoriesDeleted : List Value) (deletedCount retainedCount : ℕ)
  | policy (policy revision : ℕ) (name : Value)
  | dataAgreement (dataAgreement revision : ℕ) (slug : Value)
deriving DecidableEq, Repr

structure ConsentAuditEntry where
  citizen : Option ℕ
  actor : Option ℕ
  action : AuditAction
  category : Option ℕ := none
  actorIp : String := ""
  details : AuditDetails
deriving DecidableEq, Repr

/-! ## The store -/

/-- What staff configures. `policyWrites` and `categoryWrites` record the columns that the committed
requests have named. -/
structure Config where
  policies : Numbered ConsentPolicy.schema := .empty
  categories : Numbered ConsentCategory.schema := .empty
  policyWrites : List (ℕ × (PolicyField → Option Value)) := []
  categoryWrites : List (ℕ × (CategoryField → Option Value)) := []

structure Store where
  now : Instant := 0
  config : Config := {}
  revisions : Numbered ConsentRevision.schema := .empty
  records : Numbered ConsentRecord.schema := .empty
  signatures : Numbered ConsentSignature.schema := .empty
  audit : List ConsentAuditEntry := []

inductive ConsentError where
  | valueError (message : String)
  | validationError (field : Option String) (message : String)
  | notFound (message : String)
  | doesNotExist (model : String)
  | integrityError (constraint : String)
deriving DecidableEq, Repr

def ConsentError.ofViolation : Violation → ConsentError
  | .unique index => integrityError index
  | .check name => integrityError name
  | .width column => integrityError column

abbrev Tx := Transaction ConsentError Store

namespace Config

def policyTable : Lens Config (Numbered ConsentPolicy.schema) where
  get c := c.policies
  set t c := { c with policies := t }
  get_set _ _ := rfl
  set_get _ := rfl
  set_set _ _ _ := rfl

def categoryTable : Lens Config (Numbered ConsentCategory.schema) where
  get c := c.categories
  set t c := { c with categories := t }
  get_set _ _ := rfl
  set_get _ := rfl
  set_set _ _ _ := rfl

def policyWriteLog : Lens Config (List (ℕ × (PolicyField → Option Value))) where
  get c := c.policyWrites
  set l c := { c with policyWrites := l }
  get_set _ _ := rfl
  set_get _ := rfl
  set_set _ _ _ := rfl

def categoryWriteLog : Lens Config (List (ℕ × (CategoryField → Option Value))) where
  get c := c.categoryWrites
  set l c := { c with categoryWrites := l }
  get_set _ _ := rfl
  set_get _ := rfl
  set_set _ _ _ := rfl

end Config

namespace Store

abbrev policies (s : Store) : Numbered ConsentPolicy.schema := s.config.policies

abbrev categories (s : Store) : Numbered ConsentCategory.schema := s.config.categories

/-- A part of the configuration as a part of the store. -/
def configured {τ : Type} (ℓ : Lens Config τ) : Lens Store τ where
  get s := ℓ.get s.config
  set t s := { s with config := ℓ.set t s.config }
  get_set t s := ℓ.get_set t s.config
  set_get s := by rw [ℓ.set_get]
  set_set t u s := by rw [ℓ.set_set]

def revisionTable : Lens Store (Numbered ConsentRevision.schema) where
  get s := s.revisions
  set t s := { s with revisions := t }
  get_set _ _ := rfl
  set_get _ := rfl
  set_set _ _ _ := rfl

def recordTable : Lens Store (Numbered ConsentRecord.schema) where
  get s := s.records
  set t s := { s with records := t }
  get_set _ _ := rfl
  set_get _ := rfl
  set_set _ _ _ := rfl

def signatureTable : Lens Store (Numbered ConsentSignature.schema) where
  get s := s.signatures
  set t s := { s with signatures := t }
  get_set _ _ := rfl
  set_get _ := rfl
  set_set _ _ _ := rfl

/-- The record that the lookups of a citizen's current decision find. -/
def current (citizen category : ℕ) (s : Store) : Option ConsentRecord :=
  s.records.rows.find? (·.currentOf citizen category)

def signatureOf (record : ℕ) (s : Store) : Option ConsentSignature :=
  s.signatures.rows.find? (·.consentRecord = record)

end Store

def writeAudit (entry : ConsentAuditEntry) : Tx Unit :=
  modify fun s => { s with audit := s.audit ++ [entry] }

end Civicos.Consent
