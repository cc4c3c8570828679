import Civicos.Documents.Retention
import Mathlib.Data.List.MinMax

/-!
# Uploads, scans and downloads

An upload is announced first: a pending row names the key to which the browser may post until the
presigned URL expires. Confirming inspects what has been stored and hands the document to the
scanner. A new version is announced in the same way, and becomes the latest of its chain at once.
-/
namespace Civicos.Documents

open Library Library.Transaction

/-! ## `validate_upload_request` -/

def allowedExtensions : List String :=
  ["pdf", "jpg", "jpeg", "png", "webp", "docx", "xlsx", "csv", "txt"]

/-- `Path(name).suffix.lstrip(".").lower()` -/
def extension (name : String) : String :=
  let parts := (name.toList.splitOn '/').filter fun part => part ≠ [] ∧ part ≠ ['.']
  let last := (parts.getLastD []).reverse
  let suffix := last.takeWhile (· ≠ '.')
  -- A dot at either end of the name begins no suffix.
  if (last.drop suffix.length).length ≤ 1 then ""
  else String.ofList (suffix.reverse.map Char.toLower)

/-- What a client says about the file that it is going to post. -/
structure FileRequest where
  originalFilename : String
  mimeType : String
  sizeBytes : ℤ
deriving DecidableEq, Repr

def mayUploadToCategory (user : Actor) (c : Category) : Bool :=
  user.hasPerm "documents.upload_staff_document" || !c.staffOnly

def isStaffUploader (user : Actor) : Bool :=
  user.isStaff || user.hasPerm "documents.upload_staff_document"

def Settings.maxSize (cfg : Settings) (user : Actor) (c : Category) : ℕ :=
  if 0 < c.maxSizeBytes then c.maxSizeBytes
  else if isStaffUploader user then cfg.maxStaffUploadBytes
  else cfg.maxCitizenUploadBytes

def Settings.allowedMimes (cfg : Settings) (c : Category) : List String :=
  if c.allowedMimeTypes ≠ [] then c.allowedMimeTypes else cfg.allowedUploadMimeTypes

/-- The checks of size, extension and declared type. -/
def checkFile (cfg : Settings) (user : Actor) (c : Category) (file : FileRequest)
    (advice : String) : Tx Unit := do
  if file.sizeBytes ≤ 0 then
    throw (.validationError "File size must be greater than zero.")
  if (cfg.maxSize user c : ℤ) < file.sizeBytes then
    throw (.validationError ("File exceeds the maximum allowed size of " ++
      toString (cfg.maxSize user c) ++ " bytes."))
  if extension file.originalFilename ∉ allowedExtensions then
    throw (.validationError ("File type '." ++
      (if extension file.originalFilename = "" then "(none)"
        else extension file.originalFilename) ++
      "' is not permitted."))
  if cfg.allowedMimes c = [] then
    throw (.improperlyConfigured ("DocumentCategory '" ++ c.slug ++
      "' has no allowed_mime_types " ++
      "and CIVICOS['ALLOWED_UPLOAD_MIME_TYPES'] is empty." ++ advice))
  if file.mimeType ∉ cfg.allowedMimes c then
    throw (.validationError ("Content type '" ++ file.mimeType ++
      "' is not permitted for this document category."))

/-- The row of an announced upload, with the dates that `schedule_expiry` gives it. -/
def announced (c : Category) (user : Actor) (file : FileRequest) (now : Instant) (uuid pk : ℕ) :
    Document :=
  scheduleExpiry c {
    pk
    category := c.pk
    uploadedBy := user.pk
    originalFilename := file.originalFilename
    storageKey := some ⟨.quarantine, pk, uuid⟩
    mimeType := file.mimeType
    sizeBytes := file.sizeBytes.toNat
    createdAt := now }

/-- `validate_upload_request` until it asks for the presigned URL -/
def announceUpload (cfg : Settings) (user : Actor) (categorySlug : String) (file : FileRequest)
    (uuid : ℕ) : Tx Document := do
  let c ← ask (.doesNotExist "DocumentCategory") fun s =>
    s.categories.find? (·.slug = categorySlug)
  if !mayUploadToCategory user c then throw (.permissionDenied "")
  checkFile cfg user c file
    " Configure at least one permitted MIME type before accepting uploads for this category."
  let s ← get
  append Store.documentTable .ofViolation (announced c user file s.now uuid)

/-- The presigned URL lets the browser write one key until it expires. -/
def Store.granted (cfg : Settings) (k : Key) (s : Store) : Store :=
  { s with grants := s.grants ++ [(k, s.now + seconds cfg.presignedPostTtlSeconds)] }

/-! ## Deleting rows -/

/-- `PROTECT`: a version keeps its root, an attachment its document. -/
def Store.isProtected (s : Store) (d : Document) : Bool :=
  s.documents.rows.any (fun v => v.rootDocument = some d.pk) || d.pk ∈ s.attached

/-- The rows that `delete()` deletes, with their access tokens. A row that is protected is refused
when the rows are collected, or by the database when they go. -/
def deleteDocuments (refused : DocumentError) (p : Document → Bool) : Tx Unit := do
  let s ← get
  if s.documents.rows.any fun d => p d && s.isProtected d then throw refused
  removeRows Store.tokenTable fun t => s.documents.rows.any fun d => p d && d.pk = t.document
  removeRows Store.documentTable p

/-! ## `confirm_upload` -/

def zipBombDetectedMimeTypes : List String := [
  "application/zip",
  "application/vnd.openxmlformats-officedocument.wordprocessingml.document",
  "application/vnd.openxmlformats-officedocument.spreadsheetml.sheet",
  "application/vnd.openxmlformats-officedocument.presentationml.presentation",
  "application/vnd.ms-office"]

/-- The object at a key. A document without a key has been purged, and reading raises. -/
def readObject (key : Option Key) : Tx Content :=
  ask (.validationError "File was not found in storage. Please upload the file and try again.")
    fun s => key.bind s.objects

/-- `_validate_magic_bytes`; none when the check is switched off. -/
def validateMagicBytes (cfg : Settings) (content : Content) (allowedMimes : List String) :
    Except DocumentError (Option String) :=
  match cfg.inspector.magic with
  | none =>
    if cfg.magicBytesRequired then
      .error (.improperlyConfigured ("python-magic / libmagic is not installed and " ++
        "CIVICOS['MAGIC_BYTES_REQUIRED'] is True (the default). " ++
        "Install python-magic (`pip install python-magic` and the " ++
        "libmagic system library) or set " ++
        "CIVICOS['MAGIC_BYTES_REQUIRED'] = False to disable " ++
        "magic-byte validation in development environments."))
    else .ok none
  | some magic =>
    match magic (content.take 8192) with
    | none => .error (.validationError
        "Could not determine file type. Please ensure the file is not corrupted.")
    | some detected =>
      if detected ∈ allowedMimes then .ok (some detected)
      else .error (.validationError ("File content does not match its declared type. " ++
        "Please ensure you are uploading a valid file."))

/-- The checks of the content, on a second read of the object. They go by the detected type, and by
the name of the file only when the detection is switched off. -/
def checkContent (cfg : Settings) (d : Document) (detected : Option String) (content : Content) :
    Except DocumentError Unit := do
  let ext := extension d.originalFilename
  if detected = some "application/pdf" ∨ detected = none ∧ ext = "pdf" then
    if let some message := cfg.inspector.checkPdfEncryption content then
      throw (.validationError message)
  if detected.any (· ∈ zipBombDetectedMimeTypes) ∨ detected = none ∧ ext ∈ ["docx", "xlsx"] then
    if let some message := cfg.inspector.checkZipBomb content then
      throw (.validationError message)

def Document.confirmed (detected : Option String) (d : Document) : DocumentState :=
  { d.toDocumentState with
    scanStatus := .scanning
    mimeType := detected.getD d.mimeType }

def confirmationEntry (c : Category) (user : ℕ) (d : Document) (detected : Option String) :
    AuditEntry where
  eventType := .recordCreated
  actor := some user
  document := some d.pk
  detail := .confirmed c.slug (detected.getD d.mimeType) d.sizeBytes

/-- The transaction that `confirm_upload` runs under the row lock. -/
def confirmUpload (cfg : Settings) (e : Choice) (user document : ℕ) : Tx Unit := do
  let d ← fetch Store.documentTable .http404 document
  if d.uploadedBy ≠ user then throw .http404
  if d.scanStatus = .scanning ∨ d.scanStatus = .active then return ()
  if d.scanStatus = .quarantined ∨ d.scanStatus = .deleted then
    throw (.validationError "Document is not available for upload confirmation.")
  let content ← readObject d.storageKey
  let c ← categoryFor d
  if cfg.allowedMimes c = [] then
    throw (.improperlyConfigured ("DocumentCategory for document pk=" ++ toString d.pk ++
      " has no allowed_mime_types and CIVICOS['ALLOWED_UPLOAD_MIME_TYPES'] is empty."))
  let detected ← validateMagicBytes cfg content (cfg.allowedMimes c)
  checkContent cfg d detected (e.reread.getD content)
  saveDocument d.pk (Document.confirmed detected)
  recordEvent e.audited (confirmationEntry c user d detected)

/-! ## `create_new_version` -/

def unresolved : DocumentError :=
  .validationError "Could not resolve the document version chain. Please contact support."

/-- The root of the chain of a loaded document. -/
def chainRoot (d : Document) : Tx Document :=
  match d.rootDocument with
  | some root => fetch Store.documentTable unresolved root
  | none => return d

def mayVersion (user : Actor) (root : Document) (c : Category) : Bool :=
  user.hasPerm "documents.upload_staff_document" ||
    (root.uploadedBy = user.pk && user.hasPerm "documents.upload_document" && !c.staffOnly)

def Store.chain (s : Store) (root : ℕ) : List Document :=
  s.documents.rows.filter fun d => d.pk = root ∨ d.rootDocument = some root

/-- The latest version, or the one that repairs the chain: the highest version of those that are
marked latest, or of all when none is. -/
def currentLatest (chain : List Document) : Option Document :=
  (if chain.any (·.isLatestVersion) then chain.filter (·.isLatestVersion) else chain).argmax
    (·.versionNumber)

def deletedRoot : DocumentError :=
  .validationError "Cannot create a new version of a deleted document."

def Document.withLatest (latest : Bool) (d : Document) : DocumentState :=
  { d.toDocumentState with isLatestVersion := latest }

/-- The new version, with the hold of the root. -/
def nextVersion (c : Category) (user : Actor) (file : FileRequest) (description : String)
    (root previous : Document) (now : Instant) (uuid pk : ℕ) : Document :=
  { announced c user file now uuid pk with
    versionNumber := previous.versionNumber + 1
    rootDocument := some root.pk
    legalHold := root.legalHold
    description }

def versionEntry (c : Category) (user : Actor) (file : FileRequest) (root new : Document) :
    AuditEntry where
  eventType := .recordCreated
  actor := some user.pk
  document := some new.pk
  detail := .versioned root.pk new.pk new.versionNumber c.slug file.mimeType file.sizeBytes.toNat

/-- `create_new_version` until it asks for the presigned URL: the new version, and the one that was
the latest before. The lock is held on the whole chain. -/
def announceVersion (cfg : Settings) (e : Choice) (user : Actor) (document : Document)
    (file : FileRequest) (description : String) : Tx (Document × Document) := do
  let given ← chainRoot document
  if given.rootDocument ≠ none then
    throw (.validationError "Document version chain is corrupted. Contact support.")
  if given.deletedAt ≠ none then throw deletedRoot
  let c ← categoryFor given
  if !mayVersion user given c then throw (.permissionDenied "")
  checkFile cfg user c file ""
  let root ← fetch Store.documentTable unresolved given.pk
  if root.deletedAt ≠ none then throw deletedRoot
  let previous ← ask unresolved fun s => currentLatest (s.chain root.pk)
  let s ← get
  saveDocument previous.pk (Document.withLatest false)
  let new ← append Store.documentTable .ofViolation
    (nextVersion c user file description root previous s.now e.token)
  recordEvent e.audited (versionEntry c user file root new)
  return (new, previous)

/-- What `create_new_version` takes back when there is no presigned URL. -/
def withdrawVersion (new previous : ℕ) : Tx Unit := do
  saveDocument previous (Document.withLatest true)
  deleteDocuments .protectedError (·.pk = new)

/-!
## Scanning

The scan task reads the document under the lock, gives the lock back, lets the scanner read the
object, and records the verdict in a transaction of its own. What is clean is copied to the active
area in the transaction that activates the document; what is not loses its object afterwards.
-/

/-- The first transaction of `scan_document`: the key of a document that is being scanned. -/
def claimScan (document : ℕ) : Tx (Option (Option Key)) := do
  let d ← documentOf document
  if d.scanStatus ≠ .scanning then return none
  return some d.storageKey

def Document.activated (now : Instant) (result : String) (key : Option Key) (d : Document) :
    DocumentState :=
  { d.toDocumentState with
    storageKey := key
    scanStatus := .active
    scanCompletedAt := some now
    scanEngineResult := result }

/-- `_mark_document_active_dev_bypass` -/
def markActiveDevBypass (document : ℕ) : Tx Unit := do
  let d ← documentOf document
  if d.scanStatus ≠ .scanning then return ()
  let s ← get
  saveDocument d.pk (Document.activated s.now "DEV_BYPASS" d.storageKey)

/-- `_promote_storage_object_to_active`: the key to copy, when there is an object under it. -/
def Store.promotable (s : Store) (key : Option Key) : Option Key :=
  key.filter fun k => k.area = .quarantine ∧ (s.objects k).isSome

/-- `copy_object` -/
def Store.copied (k : Key) (s : Store) : Store := s.store k.promoted (s.objects k)

def activationEntry (document : ℕ) : AuditEntry where
  eventType := .statusChanged
  document := some document
  detail := .scanned "OK"

/-- `_mark_document_active_clamav`, with the copy; what is left to delete is the key that has been
copied. -/
def markActiveClamav (audited : Bool) (document : ℕ) : Tx (Option Key) := do
  let d ← documentOf document
  if d.scanStatus ≠ .scanning then return none
  let s ← get
  let source := s.promotable d.storageKey
  modify fun s => source.elim s s.copied
  saveDocument d.pk (Document.activated s.now "OK"
    (source.elim d.storageKey fun k => some k.promoted))
  recordEvent audited (activationEntry d.pk)
  return source

def Document.quarantinedAs (now : Instant) (result : String) (d : Document) : DocumentState :=
  { d.toDocumentState with
    scanStatus := .quarantined
    scanCompletedAt := some now
    scanEngineResult := result }

def threatEntry (document : ℕ) (result : String) : AuditEntry where
  eventType := .threatDetected
  outcome := "failure"
  document := some document
  detail := .scanned result

/-- `_mark_document_quarantined_clamav` and `_quarantine_on_scan_failure`; answers with the key of
the document that has been quarantined. -/
def markQuarantined (audited : Bool) (document : ℕ) (result : String) : Tx (Option Key) := do
  let d ← documentOf document
  if d.scanStatus ≠ .scanning then return none
  let s ← get
  saveDocument d.pk (Document.quarantinedAs s.now result)
  recordEvent audited (threatEntry d.pk result)
  return d.storageKey

/-!
## Downloads

A token for one download is issued under the lock of the document. Its redemption locks the token
and loads the document with it, and the view looks at what has been loaded before it answers. The
request commits at its end.
-/

def mayDownload (user : Actor) (d : Document) : Bool :=
  user.isSuperuser || d.uploadedBy = user.pk ||
    user.hasPerm "documents.coordinator_view_document"

def viewedEntry (user document token : ℕ) (action : String) : AuditEntry where
  eventType := .recordViewed
  actor := some user
  document := some document
  detail := .viewed token action

def Document.available (d : Document) : Bool := d.scanStatus = .active ∧ d.deletedAt = none

/-- `issue_access_token` of a loaded document -/
def issueAccessToken (cfg : Settings) (e : Choice) (document : Document) (user : Actor) :
    Tx Unit := do
  if !mayDownload user document then throw .http404
  let d ← fetch Store.documentTable .http404 document.pk
  if !d.available then throw .http404
  let s ← get
  let token ← append Store.tokenTable .ofViolation fun pk => {
    pk
    document := d.pk
    issuedTo := user.pk
    token := e.token
    expiresAt := s.now + seconds cfg.accessTokenTtlSeconds }
  recordEvent e.audited (viewedEntry user.pk d.pk token.pk "token_issued")

/-- What `consume_access_token` reads and checks under the lock of the token, and the view after
it: the token, with the document that is loaded with it. -/
def readToken (token user : ℕ) : Tx (AccessToken × Document) := do
  let t ← ask .http404 fun s => s.tokens.rows.find? (·.token = token)
  let d ← fetch Store.documentTable .http404 t.document
  if t.issuedTo ≠ user then throw .http404
  if t.usedAt ≠ none then throw .http404
  let s ← get
  if t.expiresAt ≤ s.now then throw .tokenExpired
  if !d.available then throw .http404
  return (t, d)

/-- The commit of a redemption that has begun at `usedAt`. The lock has kept the token as it was
read. -/
def commitRedemption (audited : Bool) (token user : ℕ) (usedAt : Instant) : Tx Unit := do
  let t ← fetch Store.tokenTable .http404 token
  if t.usedAt ≠ none then throw .http404
  rewriteRows Store.tokenTable (·.pk = t.pk) (.used usedAt) (AccessToken.preserves usedAt)
  recordEvent audited (viewedEntry user t.document t.pk "token_redeemed")
  modify fun s => { s with redemptions := s.redemptions ++
    [{ token := t, user, usedAt, document := s.documents.get t.document }] }

/-- `purge_expired_tokens` -/
def purgeExpiredTokens (audited : Bool) : Tx Unit := do
  let s ← get
  let purgeable := fun t : AccessToken => t.expiresAt ≤ s.now || t.usedAt.isSome
  removeRows Store.tokenTable purgeable
  if s.tokens.rows.any purgeable then
    recordEvent audited {
      eventType := .recordPurged
      document := none
      detail := .tokensPurged (s.tokens.rows.countP purgeable) }

end Civicos.Documents
