import Civicos.Library.Calendar
import Civicos.Library.Rows
import Civicos.Payments.Values

/-!
# Documents: rows and stored objects

A document is a row in the database and an object in the storage. The row names the object by a key
with two areas: uploads arrive in quarantine, and what the scanner has found clean is copied to the
active area. Instants are whole microseconds.
-/
namespace Civicos.Documents

open Library Library.Transaction

abbrev Instant := ℕ

/-- A calendar date, as a number of days. -/
abbrev Date := ℕ

def seconds (n : ℕ) : Instant := n * 1000000

def days (n : ℕ) : Instant := n * dayLength

/-- `datetime.date()` of an instant in UTC -/
def utcDate (t : Instant) : Date := t / dayLength

/-- `datetime.isoformat()` of an instant in UTC -/
def isoformat (t : Instant) : String :=
  let rest := t % dayLength
  let second := rest / 1000000
  let micro := rest % 1000000
  isoDate (utcDate t) ++ "T" ++ zfill 2 (second / 3600) ++ ":" ++
    zfill 2 (second / 60 % 60) ++ ":" ++ zfill 2 (second % 60) ++
    (if micro = 0 then "" else "." ++ zfill 6 micro) ++ "+00:00"

/-! ## Storage -/

abbrev Content := List UInt8

inductive Area where
  | quarantine
  | active
deriving DecidableEq, Repr

/-- `documents/area/document/file.bin` -/
structure Key where
  area : Area
  document : ℕ
  file : ℕ
deriving DecidableEq, Repr

def Key.promoted (k : Key) : Key := { k with area := .active }

/-! ## Rows -/

structure Category where
  pk : ℕ
  slug : String
  allowedMimeTypes : List String := []
  maxSizeBytes : ℕ := 0
  minRetentionDays : ℕ := 730
  maxRetentionDays : ℕ := 2555
  isTransitory : Bool := false
  staffOnly : Bool := false
deriving DecidableEq, Repr

inductive ScanStatus where
  | pendingUpload
  | scanning
  | active
  | quarantined
  | deleted
  | purged
deriving DecidableEq, Repr

/-- `ScanStatus.value` -/
def ScanStatus.value : ScanStatus → String
  | pendingUpload => "pending_upload"
  | scanning => "scanning"
  | active => "active"
  | quarantined => "quarantined"
  | deleted => "deleted"
  | purged => "purged"

def ScanStatus.disposed : ScanStatus → Bool
  | deleted | purged => true
  | _ => false

/-- The columns of a document that are written again; `storageKey` is none when it is empty. -/
structure DocumentState where
  storageKey : Option Key
  mimeType : String
  scanStatus : ScanStatus := .pendingUpload
  scanCompletedAt : Option Instant := none
  scanEngineResult : String := ""
  isLatestVersion : Bool := true
  expiresAt : Option Instant := none
  retainUntil : Option Date := none
  legalHold : Bool := false
  legalHoldReason : String := ""
  legalHoldSetBy : Option ℕ := none
  deletedAt : Option Instant := none
  deletedBy : Option ℕ := none
  deletionReason : String := ""
deriving DecidableEq, Repr

structure Document extends DocumentState where
  pk : ℕ
  category : ℕ
  uploadedBy : ℕ
  originalFilename : String := ""
  sizeBytes : ℕ
  versionNumber : ℕ := 1
  rootDocument : Option ℕ := none
  createdAt : Instant
  description : String := ""
deriving DecidableEq, Repr

namespace Document

def schema : Schema Document where
  pk := pk

def withState (f : Document → DocumentState) (d : Document) : Document :=
  { d with toDocumentState := f d }

theorem preserves (f : Document → DocumentState) : schema.Preserves (withState f) where
  pk _ := rfl
  key _ hi := by cases hi
  valid _ _ c hc := by cases hc

/-- The document that names the version chain of a document. -/
def chain (d : Document) : ℕ := d.rootDocument.getD d.pk

end Document

structure AccessToken where
  pk : ℕ
  document : ℕ
  issuedTo : ℕ
  token : ℕ
  expiresAt : Instant
  usedAt : Option Instant := none
deriving DecidableEq, Repr

namespace AccessToken

def tokenUnique : Index AccessToken where
  name := "documents_documentaccesstoken_token_key"
  Key := ℕ
  key t := some t.token

def schema : Schema AccessToken where
  pk := pk
  indexes := [tokenUnique]

def used (now : Instant) (t : AccessToken) : AccessToken := { t with usedAt := some now }

theorem preserves (now : Instant) : schema.Preserves (used now) where
  pk _ := rfl
  key i hi t := by
    obtain rfl := List.mem_singleton.mp hi
    rfl
  valid _ _ c hc := by cases hc

end AccessToken

/-! ## The audit log -/

inductive AuditEventType where
  | recordCreated
  | recordViewed
  | recordDeleted
  | recordPurged
  | statusChanged
  | threatDetected
  | legalHoldApplied
  | legalHoldReleased
deriving DecidableEq, Repr

inductive AuditDetail where
  | confirmed (categorySlug mimeType : String) (sizeBytes : ℕ)
  | versioned (rootDocument newVersion versionNumber : ℕ) (categorySlug mimeType : String)
    (sizeBytes : ℕ)
  | scanned (scanEngineResult : String)
  | deleted (deletionReason : String) (deletedBy : Option ℕ)
  | purged (clearedAt : Instant)
  | held (reason : String) (setBy : ℕ)
  | released (releasedBy : ℕ) (releaseReason : String)
  | viewed (token : ℕ) (action : String)
  | tokensPurged (count : ℕ)
deriving DecidableEq, Repr

structure AuditEntry where
  eventType : AuditEventType
  outcome : String := "success"
  actor : Option ℕ := none
  document : Option ℕ
  detail : AuditDetail
deriving DecidableEq, Repr

/-! ## The store -/

/-- A committed redemption, with the row of the document at that moment. -/
structure Redemption where
  token : AccessToken
  user : ℕ
  usedAt : Instant
  document : Option Document
deriving DecidableEq, Repr

/-- `attached` lists the documents that an attachment protects, `grants` the presigned uploads with
their keys and expiries. `redemptions` records what has been served. -/
structure Store where
  now : Instant := 0
  categories : List Category := []
  documents : Numbered Document.schema := .empty
  attached : List ℕ := []
  tokens : Numbered AccessToken.schema := .empty
  audit : List AuditEntry := []
  objects : Key → Option Content := fun _ => none
  grants : List (Key × Instant) := []
  redemptions : List Redemption := []

inductive DocumentError where
  | valueError (message : String)
  | permissionDenied (message : String)
  | validationError (message : String)
  | improperlyConfigured (message : String)
  | http404
  | tokenExpired
  | protectedError
  | doesNotExist (model : String)
  | integrityError (constraint : String)
  | storageError
deriving DecidableEq, Repr

def DocumentError.ofViolation : Violation → DocumentError
  | .unique index => integrityError index
  | .check name => integrityError name
  | .width column => integrityError column

abbrev Tx := Transaction DocumentError Store

namespace Store

def documentTable : Lens Store (Numbered Document.schema) where
  get s := s.documents
  set t s := { s with documents := t }
  get_set _ _ := rfl
  set_get _ := rfl
  set_set _ _ _ := rfl

def tokenTable : Lens Store (Numbered AccessToken.schema) where
  get s := s.tokens
  set t s := { s with tokens := t }
  get_set _ _ := rfl
  set_get _ := rfl
  set_set _ _ _ := rfl

def categoryOf (s : Store) (d : Document) : Option Category :=
  s.categories.find? (·.pk = d.category)

/-- Write an object, or take it away. -/
def store (k : Key) (content : Option Content) (s : Store) : Store :=
  { s with objects := Function.update s.objects k content }

end Store

/-! ## Callers and settings -/

structure Actor where
  pk : ℕ
  isSuperuser : Bool := false
  isStaff : Bool := false
  permissions : List String := []
deriving DecidableEq, Repr

def Actor.hasPerm (a : Actor) (permission : String) : Bool :=
  a.isSuperuser || permission ∈ a.permissions

/-- What `magic`, `pikepdf` and `zipfile` make of an upload. `magic` is none when the library is not
installed, and its answer is none when it raises; the other two checks answer with the message of
the error that they raise. -/
structure Inspector where
  magic : Option (Content → Option String)
  checkPdfEncryption : Content → Option String
  checkZipBomb : Content → Option String

/-- `settings`; `devBypass` holds while no scanner is configured and none is required. -/
structure Settings where
  graceDays : ℕ := 30
  accessTokenTtlSeconds : ℕ := 300
  presignedPostTtlSeconds : ℕ := 900
  maxStaffUploadBytes : ℕ := 50 * 1024 * 1024
  maxCitizenUploadBytes : ℕ := 10 * 1024 * 1024
  allowedUploadMimeTypes : List String
  magicBytesRequired : Bool := true
  devBypass : Bool := false
  inspector : Inspector
  /-- `timezone.localdate` -/
  localdate : Instant → Date
  localdate_mono : Monotone localdate

/-- What the surroundings answer to one block: whether the audit log takes its entry and whether the
storage takes its request, what a second read of an upload finds, the reply of the scanner, and the
random tokens. -/
structure Choice where
  audited : Bool := true
  reachable : Bool := true
  reread : Option Content := none
  scanner : Except String String := .ok "OK"
  exhausted : Bool := false
  crashed : Bool := false
  token : ℕ := 0

/-! ## Reading and writing rows -/

def documentOf (document : ℕ) : Tx Document :=
  fetch Store.documentTable (.doesNotExist "Document") document

/-- The category is loaded with the row. -/
def categoryFor (d : Document) : Tx Category :=
  ask (.doesNotExist "DocumentCategory") (·.categoryOf d)

def saveDocument (document : ℕ) (f : Document → DocumentState) : Tx Unit :=
  rewriteRows Store.documentTable (·.pk = document) (.withState f) (Document.preserves f)

/-- `record_event`, which raises nothing: an entry that cannot be written is left out. -/
def recordEvent (written : Bool) (entry : AuditEntry) : Tx Unit :=
  if written then modify fun s => { s with audit := s.audit ++ [entry] } else return ()

end Civicos.Documents
