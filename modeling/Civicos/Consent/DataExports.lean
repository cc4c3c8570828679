import Civicos.Documents.Steps
import Civicos.Library.Update

/-!
# Data exports

A task collects what is held about a citizen, stores it under an old path and as a document, links
the document to the request and removes the first copy. A request that is ready can be downloaded by
its token; a daily task ends those that are past their expiry. Runs of the tasks, downloads and the
operations on documents interleave block by block, and a run may stop between any two blocks.
-/
namespace Civicos.Consent

open Library Library.Transaction
open Documents (Instant Content Document DocumentError days seconds)

/-! ## Rows -/

inductive ExportStatus where
  | pending
  | processing
  | ready
  | delivered
  | expired
  | failed
deriving DecidableEq, Repr

structure DataExportRequest where
  pk : ℕ
  citizen : ℕ
  status : ExportStatus := .pending
  requestedAt : Instant
  processedAt : Option Instant := none
  expiresAt : Option Instant := none
  downloadToken : Option ℕ
  document : Option ℕ := none
deriving DecidableEq, Repr

namespace DataExportRequest

def isActive (r : DataExportRequest) : Bool := r.status = .pending ∨ r.status = .processing

def uniqueActiveExportPerCitizen : Index DataExportRequest where
  name := "unique_active_export_per_citizen"
  Key := ℕ
  key r := if r.isActive then some r.citizen else none

def downloadTokenUnique : Index DataExportRequest where
  name := "consent_dataexportrequest_download_token_key"
  Key := ℕ
  key r := r.downloadToken

def documentUnique : Index DataExportRequest where
  name := "consent_dataexportrequest_document_id_key"
  Key := ℕ
  key r := r.document

def schema : Schema DataExportRequest where
  pk := pk
  indexes := [uniqueActiveExportPerCitizen, downloadTokenUnique, documentUnique]

def withStatus (status : ExportStatus) (r : DataExportRequest) : DataExportRequest :=
  { r with status }

def readied (now : Instant) (ttl : ℕ) (r : DataExportRequest) : DataExportRequest :=
  { r with
    status := .ready
    processedAt := some now
    expiresAt := some (now + days ttl) }

/-- The columns that the task saves at the end; without a document it leaves that column out. -/
def completed (now : Instant) (ttl : ℕ) (document : Option ℕ) (r : DataExportRequest) :
    DataExportRequest :=
  { r.readied now ttl with document := document.orElse fun _ => r.document }

def delivered (r : DataExportRequest) : DataExportRequest :=
  { r with
    status := .delivered
    downloadToken := none }

end DataExportRequest

inductive ExportAction where
  | requested
  | ready
  | failed
  | expired
  | downloaded
deriving DecidableEq, Repr

inductive ExportDetails where
  | format (format : String)
  | sizeBytes (sizeBytes : ℕ)
  | reason (reason : String)
  | expiredAt (expiredAt : Instant)
  | downloadInitiated
deriving DecidableEq, Repr

structure ExportAuditEntry where
  citizen : ℕ
  actor : Option ℕ := none
  action : ExportAction
  exportRequest : ℕ
  details : ExportDetails
deriving DecidableEq, Repr

/-- `exports/token.json`, with what the storage appends when the name is taken -/
structure ExportPath where
  token : Option ℕ
  suffix : Option ℕ := none
deriving DecidableEq, Repr

/-- A download that has been committed, with the row that it has read -/
structure Delivery where
  request : DataExportRequest
  deliveredAt : Instant
deriving DecidableEq, Repr

/-- `exported` lists the documents that runs of the task have created, with their requests, and
`served` the requests whose file has been sent. -/
structure ExportStore where
  documents : Documents.Store := {}
  requests : Numbered DataExportRequest.schema := .empty
  audit : List ExportAuditEntry := []
  files : List (ExportPath × Content) := []
  exported : List (ℕ × ℕ) := []
  deliveries : List Delivery := []
  served : List ℕ := []

abbrev ExportTx := Transaction DocumentError ExportStore

namespace ExportStore

def requestTable : Lens ExportStore (Numbered DataExportRequest.schema) where
  get s := s.requests
  set t s := { s with requests := t }
  get_set _ _ := rfl
  set_get _ := rfl
  set_set _ _ _ := rfl

def documentStore : Lens ExportStore Documents.Store where
  get s := s.documents
  set t s := { s with documents := t }
  get_set _ _ := rfl
  set_get _ := rfl
  set_set _ _ _ := rfl

abbrev now (s : ExportStore) : Instant := s.documents.now

end ExportStore

structure ExportSettings where
  documents : Documents.Settings
  dataExportTtlDays : ℕ := 7

def saveRequest (request : ℕ) (f : DataExportRequest → DataExportRequest) : ExportTx Unit :=
  updateRow ExportStore.requestTable .ofViolation request f

def createEntry (entry : ExportAuditEntry) : ExportTx Unit :=
  modify fun s => { s with audit := s.audit ++ [entry] }

/-! ## `request_export` -/

def requestExport (citizen token : ℕ) : ExportTx Unit := do
  let s ← get
  let r ← append ExportStore.requestTable .ofViolation fun pk =>
    { pk, citizen, requestedAt := s.now, downloadToken := some token }
  createEntry {
    citizen, actor := some citizen, action := .requested, exportRequest := r.pk
    details := .format "json" }

/-! ## The blocks of `process_data_export` -/

inductive Raised where
  | softTimeLimit
  | exception (name : String)
deriving DecidableEq, Repr

/-- The reason that is recorded for a failed export -/
def Raised.reason : Raised → String
  | softTimeLimit => "timeout"
  | exception name => name

/-- `type(exc).__name__` -/
def exceptionName : DocumentError → String
  | .valueError _ => "ValueError"
  | .permissionDenied _ => "PermissionDenied"
  | .validationError _ => "ValidationError"
  | .improperlyConfigured _ => "ImproperlyConfigured"
  | .http404 => "Http404"
  | .tokenExpired => "TokenExpired"
  | .protectedError => "ProtectedError"
  | .doesNotExist _ => "DoesNotExist"
  | .integrityError _ => "IntegrityError"
  | .storageError => "StorageError"

/-- A save of the storage takes another name when its own is taken. -/
def storeExport (path : ExportPath) (suffix : Option ℕ) (content : Content) :
    ExportTx ExportPath := do
  let s ← get
  let free := s.files.all fun file => file.1 ≠ path
  let saved := if free then path else { path with suffix }
  if s.files.any fun file => file.1 = saved then throw .storageError
  set { s with files := s.files ++ [(saved, content)] }
  return saved

def deleteExport (path : ExportPath) : ExportTx Unit :=
  modify fun s => { s with files := s.files.filter fun file => file.1 ≠ path }

def exportCategory : ExportTx (Option Documents.Category) := do
  let s ← get
  return s.documents.categories.find? (·.slug = "pipeda-data-export")

/-- The object is stored under the id of the request. -/
def storeDocument (request file : ℕ) (content : Content) : ExportTx Documents.Key := do
  let key : Documents.Key := ⟨.active, request, file⟩
  let s ← get
  if s.documents.objects key ≠ none then throw .storageError
  set { s with documents := s.documents.store key (some content) }
  return key

def exportDocument (req : DataExportRequest) (content : Content) (category : ℕ)
    (key : Documents.Key) (now : Instant) (pk : ℕ) : Document where
  pk
  category
  uploadedBy := req.citizen
  originalFilename := "export-" ++ toString req.pk ++ ".json"
  storageKey := some key
  mimeType := "application/json"
  sizeBytes := content.length
  scanStatus := .active
  createdAt := now

def createDocument (req : DataExportRequest) (content : Content) (category : Documents.Category)
    (key : Documents.Key) : ExportTx Document := do
  let s ← get
  let d ← zoom ExportStore.documentStore
    (append Documents.Store.documentTable .ofViolation
      (exportDocument req content category.pk key s.now))
  modify fun s => { s with exported := s.exported ++ [(req.pk, d.pk)] }
  return d

/-- `schedule_expiry` of a document that is stored already -/
def scheduleDocument (c : Documents.Category) (d : Document) : ExportTx Unit :=
  zoom ExportStore.documentStore (Documents.saveDocument d.pk fun row =>
    { row.toDocumentState with
      expiresAt := c.expiresAt d.createdAt
      retainUntil := c.retainUntil d.createdAt })

def complete (ttl : ℕ) (req : DataExportRequest) (content : Content) (document : Option ℕ) :
    ExportTx Unit := do
  let s ← get
  saveRequest req.pk (.completed s.now ttl document)
  createEntry {
    citizen := req.citizen, action := .ready, exportRequest := req.pk
    details := .sizeBytes content.length }

def deleteObject (key : Option Documents.Key) : ExportTx Unit :=
  modify fun s => { s with documents := key.elim s.documents fun k => s.documents.store k none }

/-- Deleting a document that a request is linked to is refused. -/
def deleteDocument (document : ℕ) : ExportTx Unit := do
  let s ← get
  if s.requests.rows.any (·.document = some document) then throw .protectedError
  zoom ExportStore.documentStore (Documents.deleteDocuments .protectedError (·.pk = document))

/-! ## The download -/

/-- The transaction of the view. What it saves for a request that is past its expiry is rolled back
by what it raises. -/
def download (token user : ℕ) : ExportTx (Option (ℕ × Document × Bool)) := do
  let s ← get
  let req ← ask .http404 fun s => s.requests.rows.find? (·.downloadToken = some token)
  if req.citizen ≠ user then throw .http404
  if req.status = .ready ∧ req.expiresAt.any (· < s.now) then
    saveRequest req.pk (.withStatus .expired)
    throw .http404
  if req.status ≠ .ready then throw .http404
  match req.document with
  | none => return none
  | some document =>
    let d ← ask (.doesNotExist "Document") (·.documents.documents.get document)
    let category ← ask (.doesNotExist "DocumentCategory") (·.documents.categoryOf d)
    saveRequest req.pk .delivered
    createEntry {
      citizen := user, actor := some user, action := .downloaded, exportRequest := req.pk
      details := .downloadInitiated }
    modify fun s => { s with deliveries := s.deliveries ++ [⟨req, s.now⟩] }
    return some (req.pk, d, category.isTransitory)

/-! ## `cleanup_export_files` -/

/-- The requests that are ready and past their expiry, with their documents -/
def ExportStore.pastExpiry (s : ExportStore) : List (DataExportRequest × Option Document) :=
  (s.requests.rows.filter fun r => r.status = .ready ∧ r.expiresAt.any (· ≤ s.now)).map fun r =>
    (r, r.document.bind s.documents.documents.get)

/-- The requests of workers that have been killed, two hours before `now` or earlier -/
def ExportStore.stuck (s : ExportStore) (now : Instant) : List DataExportRequest :=
  s.requests.rows.filter fun r =>
    r.status = .processing ∧ r.requestedAt + seconds 7200 < now ∧ r.processedAt = none

def ExportStore.isTransitory (s : ExportStore) (d : Document) : Bool :=
  (s.documents.categoryOf d).any (·.isTransitory)

/-! ## Workers -/

/-- What the surroundings do in one block: what it raises, the data that are collected, what the
storage appends to a name, and the id of a new file. -/
structure ExportChoice where
  raised : Option Raised := none
  payload : Content := []
  suffix : Option ℕ := none
  file : ℕ := 0
  documents : Documents.Choice := {}

/-- A worker between two blocks. `processing` to `auditing` run the task `process_data_export`,
`downloading` to `opening` the view, `cleanup` to `recovered` the task `cleanup_export_files`. -/
inductive ExportWorker where
  | processing (request : ℕ)
  | guarding (req : DataExportRequest)
  | reusing (req : DataExportRequest)
  | starting (req : DataExportRequest)
  | building (req : DataExportRequest)
  | storing (req : DataExportRequest) (content : Content)
  | categorising (req : DataExportRequest) (content : Content) (saved : ExportPath)
  | storingDocument (req : DataExportRequest) (content : Content) (saved : ExportPath)
    (category : Documents.Category)
  | creating (req : DataExportRequest) (content : Content) (saved : ExportPath)
    (category : Documents.Category) (key : Documents.Key)
  | scheduling (req : DataExportRequest) (content : Content) (saved : ExportPath)
    (category : Documents.Category) (document : Document)
  | completing (req : DataExportRequest) (content : Content) (saved : ExportPath)
    (document : Option Document)
  | undoing (req : DataExportRequest) (saved : ExportPath) (document : Option Document) (r : Raised)
  | undoingObject (req : DataExportRequest) (document : Document) (r : Raised)
  | undoingDocument (req : DataExportRequest) (document : Document) (r : Raised)
  | tidying (req : DataExportRequest) (saved : ExportPath)
  | notifying (req : DataExportRequest)
  | failing (req : DataExportRequest) (r : Raised)
  | auditing (req : DataExportRequest) (r : Raised)
  | downloading (token user : ℕ)
  | disposing (request : ℕ) (document : Document) (user : ℕ)
  | opening (request : ℕ) (key : Option Documents.Key)
  | cleanup
  | expiring (batch : List (DataExportRequest × Option Document)) (startedAt : Instant)
  | expired (req : DataExportRequest) (batch : List (DataExportRequest × Option Document))
    (startedAt : Instant)
  | logging (req : DataExportRequest) (batch : List (DataExportRequest × Option Document))
    (startedAt : Instant)
  | recovering (stuck : List DataExportRequest)
  | recovered (req : DataExportRequest) (stuck : List DataExportRequest)
  | documents (p : Documents.Worker)
  | ended

namespace ExportWorker

def entry : ExportWorker → Bool
  | processing _ | downloading .. | cleanup => true
  | documents p => p.entry
  | _ => false

/-- A block in the `try` of the task -/
def attempt {α : Type} (req : DataExportRequest) (e : ExportChoice) (x : ExportTx α)
    (s : ExportStore) (next : α → ExportWorker) : ExportStore × ExportWorker :=
  match e.raised with
  | some r => (s, failing req r)
  | none =>
    match commit x s with
    | (.ok a, t) => (t, next a)
    | (.error error, t) => (t, failing req (.exception (exceptionName error)))

/-- A block whose failure is logged and passed over -/
def passOver (e : ExportChoice) (x : ExportTx Unit) (s : ExportStore) : ExportStore :=
  if e.raised = none then (commit x s).2 else s

/-- A block whose failure ends the task -/
def orEnd (e : ExportChoice) (x : ExportTx Unit) (s : ExportStore) (next : ExportWorker) :
    ExportStore × ExportWorker :=
  if e.raised = none then
    match commit x s with
    | (.ok _, t) => (t, next)
    | (.error _, t) => (t, ended)
  else (s, ended)

/-- `mark_purpose_fulfilled` opens its own transaction. -/
def dispose (e : ExportChoice) (document : Document) (actor : ℕ) : ExportTx Unit :=
  zoom ExportStore.documentStore
    (Documents.markPurposeFulfilled e.documents.audited document actor)

/-- The next block of a worker. -/
def act (cfg : ExportSettings) (s : ExportStore) :
    ExportWorker → ExportChoice → Option (ExportStore × ExportWorker)
  | processing request, e =>
    match if e.raised = none then s.requests.get request else none with
    | none => some (s, ended)
    | some req => some (s, guarding req)
  | guarding req, e =>
    some (attempt req e (pure ()) s fun _ =>
      if req.status = .ready ∨ req.status = .delivered ∨ req.status = .expired then ended
      else if req.document = none then starting req else reusing req)
  | reusing req, e =>
    some (attempt req e (saveRequest req.pk (.readied s.now cfg.dataExportTtlDays)) s
      fun _ => notifying req)
  | starting req, e =>
    some (attempt req e (saveRequest req.pk (.withStatus .processing)) s fun _ => building req)
  | building req, e => some (attempt req e (pure e.payload) s (storing req))
  | storing req content, e =>
    some (attempt req e (storeExport ⟨req.downloadToken, none⟩ e.suffix content) s
      (categorising req content))
  | categorising req content saved, e =>
    some (attempt req e exportCategory s fun category =>
      match category with
      | none => completing req content saved none
      | some c => storingDocument req content saved c)
  | storingDocument req content saved category, e =>
    some (attempt req e (storeDocument req.pk e.file content) s
      (creating req content saved category))
  | creating req content saved category key, e =>
    some (attempt req e (createDocument req content category key) s
      (scheduling req content saved category))
  | scheduling req content saved category d, e =>
    some (attempt req e (scheduleDocument category d) s
      fun _ => completing req content saved (some d))
  | completing req content saved document, e =>
    match e.raised with
    | some r => some (s, undoing req saved document r)
    | none =>
      match commit (complete cfg.dataExportTtlDays req content (document.map (·.pk))) s with
      | (.ok _, t) =>
        some (t, if document.isSome then tidying req saved else notifying req)
      | (.error error, t) =>
        some (t, undoing req saved document (.exception (exceptionName error)))
  | undoing req saved document r, e =>
    some (passOver e (deleteExport saved) s,
      document.elim (failing req r) fun d => undoingObject req d r)
  | undoingObject req d r, e =>
    some (passOver e (deleteObject d.storageKey) s, undoingDocument req d r)
  | undoingDocument req d r, e => some (passOver e (deleteDocument d.pk) s, failing req r)
  | tidying req saved, e => some (passOver e (deleteExport saved) s, notifying req)
  | notifying req, e => some (attempt req e (pure ()) s fun _ => ended)
  | failing req r, e =>
    some (orEnd e (saveRequest req.pk (.withStatus .failed)) s (auditing req r))
  | auditing req r, e =>
    some (passOver e (createEntry {
      citizen := req.citizen, action := .failed, exportRequest := req.pk
      details := .reason r.reason }) s, ended)
  | downloading token user, _ =>
    match commit (download token user) s with
    | (.ok (some (request, d, isTransitory)), t) =>
      some (t, if isTransitory then disposing request d user else opening request d.storageKey)
    | (.ok none, t) => some (t, ended)
    | (.error _, t) => some (t, ended)
  | disposing request d user, e =>
    some (passOver e (dispose e d user) s, opening request d.storageKey)
  | opening request key, e =>
    match if e.raised = none then key.bind s.documents.objects else none with
    | some _ => some ({ s with served := s.served ++ [request] }, ended)
    | none => some (s, ended)
  | cleanup, e =>
    if e.raised.isSome then some (s, ended) else some (s, expiring s.pastExpiry s.now)
  | expiring ((req, document) :: batch) startedAt, e =>
    some (((document.filter s.isTransitory).elim s fun d => passOver e (dispose e d req.citizen) s),
      expired req batch startedAt)
  | expiring [] startedAt, e =>
    if e.raised.isSome then some (s, ended) else some (s, recovering (s.stuck startedAt))
  | expired req batch startedAt, e =>
    some (orEnd e (saveRequest req.pk (.withStatus .expired)) s (logging req batch startedAt))
  | logging req batch startedAt, e =>
    some (orEnd e (createEntry {
      citizen := req.citizen, action := .expired, exportRequest := req.pk
      details := .expiredAt startedAt }) s (expiring batch startedAt))
  | recovering (req :: stuck), e =>
    some (orEnd e (saveRequest req.pk (.withStatus .failed)) s (recovered req stuck))
  | recovering [], _ => some (s, ended)
  | recovered req stuck, e =>
    some (passOver e (createEntry {
      citizen := req.citizen, action := .failed, exportRequest := req.pk
      details := .reason "recovered_stuck_processing" }) s, recovering stuck)
  | documents p, e =>
    (p.act cfg.documents s.documents e.documents).map fun step =>
      ({ s with documents := step.1 }, documents step.2)
  | ended, _ => none

end ExportWorker

/-- Besides, citizens ask for exports, and the surroundings of the documents go on. -/
inductive ExportEvent where
  | request (citizen token : ℕ)
  | documents (x : Documents.Event)

/-- Any number of tasks, downloads and operations on documents, interleaved -/
def exports (cfg : ExportSettings) :
    Program ExportStore ExportWorker ExportChoice ExportEvent where
  Init s := (Documents.documents cfg.documents).Init s.documents ∧ s.requests = .empty ∧
    s.audit = [] ∧ s.files = [] ∧ s.exported = [] ∧ s.deliveries = [] ∧ s.served = []
  entry := ExportWorker.entry
  halted := .ended
  act := ExportWorker.act cfg
  env s
    | .request citizen token => some (commit (requestExport citizen token) s).2
    | .documents x => ((Documents.documents cfg.documents).env s.documents x).map fun d =>
        { s with documents := d }

/-! ## What one block does -/

namespace ExportWorker

/-- The request that a run of the task works on -/
def exporting : ExportWorker → Option ℕ
  | processing request => some request
  | guarding req | reusing req | starting req | building req | storing req _
  | categorising req _ _ | storingDocument req _ _ _ | creating req _ _ _ _
  | scheduling req _ _ _ _ | completing req _ _ _ | undoing req _ _ _ | undoingObject req _ _
  | undoingDocument req _ _ | tidying req _ | notifying req | failing req _ | auditing req _ =>
    some req.pk
  | _ => none

/-- A run that has found no document, and has not linked one yet -/
def fresh : ExportWorker → Option ℕ
  | guarding req => if req.document = none then some req.pk else none
  | starting req | building req | storing req _ | categorising req _ _ | storingDocument req _ _ _
  | creating req _ _ _ _ | scheduling req _ _ _ _ | completing req _ _ _ => some req.pk
  | _ => none

/-- The document that a run has created and has neither linked nor deleted yet, and its request -/
def unlinked : ExportWorker → Option (ℕ × ℕ)
  | scheduling req _ _ _ d | completing req _ _ (some d) | undoing req _ (some d) _
  | undoingObject req d _ | undoingDocument req d _ => some (req.pk, d.pk)
  | _ => none

/-- A request that has been delivered, and whose file may still be sent -/
def sending : ExportWorker → Option ℕ
  | disposing request _ _ | opening request _ => some request
  | _ => none

def isScheduling : ExportWorker → Bool
  | scheduling .. => true
  | _ => false

/-- The document that a run is about to delete -/
def undone : ExportWorker → Option ℕ
  | undoingDocument _ d _ => some d.pk
  | _ => none

/-- A run does not lose the document that it has created. -/
def Settles (s : ExportStore) (e : ExportChoice) (p : ExportWorker) : Prop :=
  (p.isScheduling = true → e.raised = none) ∧
    ∀ document ∈ p.undone, e.raised = none ∧ (deleteDocument document s).isOk = true

instance (s : ExportStore) (e : ExportChoice) (p : ExportWorker) : Decidable (p.Settles s e) :=
  inferInstanceAs (Decidable ((_ → _) ∧ ∀ _ ∈ _, _ ∧ _))

end ExportWorker

def ExportStore.HasDocument (s : ExportStore) (document : ℕ) : Prop :=
  ∃ d ∈ s.documents.documents.rows, d.pk = document

/-- Documents with old numbers are old. -/
structure ExportStore.Ages (s t : ExportStore) : Prop where
  next_le : s.documents.documents.next ≤ t.documents.documents.next
  old : ∀ k < s.documents.documents.next, t.HasDocument k → s.HasDocument k

/-- No export, delivery or answer is recorded. -/
structure ExportStore.Unrecorded (s t : ExportStore) : Prop extends s.Ages t where
  exported : t.exported = s.exported
  deliveries : t.deliveries = s.deliveries
  served : t.served = s.served

/-- A save that leaves the token alone -/
structure SavesAside (f : DataExportRequest → DataExportRequest) : Prop where
  pk : ∀ r, (f r).pk = r.pk
  downloadToken : ∀ r, (f r).downloadToken = r.downloadToken
  ready : ∀ r, (f r).status = .ready → (f r).expiresAt ≠ none

/-- A save that leaves the token and the document alone -/
structure Plain (p : ExportWorker) (k : ℕ) (f : DataExportRequest → DataExportRequest) : Prop
    extends SavesAside f where
  document : ∀ r, (f r).document = r.document
  active : ∀ r, (f r).isActive = true → p.fresh = some k

namespace ExportStore

variable {s t : ExportStore}

theorem Unrecorded.of_rows (hrows : t.documents.documents.rows = s.documents.documents.rows)
    (hnext : t.documents.documents.next = s.documents.documents.next)
    (hexported : t.exported = s.exported) (hdeliveries : t.deliveries = s.deliveries)
    (hserved : t.served = s.served) : s.Unrecorded t where
  next_le := hnext.ge
  old := by
    rintro k - ⟨d, hd, rfl⟩
    exact ⟨d, hrows ▸ hd, rfl⟩
  exported := hexported
  deliveries := hdeliveries
  served := hserved

theorem Unrecorded.refl (s : ExportStore) : s.Unrecorded s := .of_rows rfl rfl rfl rfl rfl

theorem Unrecorded.of_save {document : ℕ} {f : Document → Documents.DocumentState}
    (hdocuments : t.documents.documents = (s.documents.save document f).documents)
    (hexported : t.exported = s.exported) (hdeliveries : t.deliveries = s.deliveries)
    (hserved : t.served = s.served) : s.Unrecorded t where
  next_le := (congrArg Numbered.next hdocuments).ge
  old := by
    rintro k - ⟨a, ha, rfl⟩
    rw [hdocuments, Documents.Store.mem_save_iff] at ha
    obtain ⟨d, hd, rfl⟩ := ha
    refine ⟨d, hd, ?_⟩
    split <;> rfl
  exported := hexported
  deliveries := hdeliveries
  served := hserved

theorem Ages.of_inherits (h : s.documents.Inherits t.documents) : s.Ages t where
  next_le := h.1
  old := by
    rintro k hk ⟨a, ha, hpk⟩
    obtain ⟨d, hd, hdk, -⟩ := h.row hk ha hpk
    exact ⟨d, hd, hdk⟩

end ExportStore

section Blocks

variable {s t : ExportStore} {u : Unit} {request : ℕ} {req : DataExportRequest}
  {f : DataExportRequest → DataExportRequest}

theorem saveRequest_ok (h : saveRequest request f s = .ok (u, t)) :
    s.requests.update request f = .ok t.requests ∧ s.Unrecorded t := by
  obtain ⟨T, hT, rfl⟩ := updateRow_ok.mp h
  exact ⟨hT, .of_rows rfl rfl rfl rfl rfl⟩

theorem requestExport_ok {citizen token : ℕ} (h : requestExport citizen token s = .ok (u, t)) :
    s.Unrecorded t ∧ ∃ r : DataExportRequest, r.pk = s.requests.next ∧ r.status = .pending ∧
      r.document = none ∧ t.requests.rows = s.requests.rows ++ [r] ∧
      t.requests.next = s.requests.next + 1 := by
  obtain ⟨_, _, ⟨⟩, h⟩ := bind_ok.mp h
  obtain ⟨r, _, happend, ⟨⟩⟩ := bind_ok.mp h
  obtain ⟨rfl, T, hT, rfl⟩ := append_ok.mp happend
  obtain ⟨hrows, hnext, -⟩ := Numbered.insert_ok hT rfl
  exact ⟨.of_rows rfl rfl rfl rfl rfl, _, rfl, rfl, rfl, hrows, hnext⟩

/-- A block that touches neither requests nor records -/
def ExportStore.Aside (s t : ExportStore) : Prop := t.requests = s.requests ∧ s.Unrecorded t

theorem ExportStore.Aside.refl (s : ExportStore) : s.Aside s := ⟨rfl, .refl s⟩

instance : Std.Refl ExportStore.Aside := ⟨.refl⟩

theorem createEntry_aside (entry : ExportAuditEntry) :
    Within ExportStore.Aside (createEntry entry) := by
  rintro s u t ⟨⟩
  exact ⟨rfl, .of_rows rfl rfl rfl rfl rfl⟩

theorem storeExport_aside (path : ExportPath) (suffix : Option ℕ) (content : Content) :
    Within ExportStore.Aside (storeExport path suffix content) := by
  intro s saved t h
  obtain ⟨_, _, ⟨⟩, h⟩ := bind_ok.mp h
  obtain ⟨-, h⟩ := guard_ok h
  obtain ⟨_, _, ⟨⟩, ⟨⟩⟩ := bind_ok.mp h
  exact ⟨rfl, .of_rows rfl rfl rfl rfl rfl⟩

theorem deleteExport_aside (path : ExportPath) :
    Within ExportStore.Aside (deleteExport path) := by
  rintro s u t ⟨⟩
  exact ⟨rfl, .of_rows rfl rfl rfl rfl rfl⟩

theorem exportCategory_aside : Within ExportStore.Aside exportCategory := by
  rintro s c t ⟨⟩
  exact .refl s

theorem storeDocument_aside (file : ℕ) (content : Content) :
    Within ExportStore.Aside (storeDocument request file content) := by
  intro s key t h
  obtain ⟨_, _, ⟨⟩, h⟩ := bind_ok.mp h
  obtain ⟨-, h⟩ := guard_ok h
  obtain ⟨_, _, ⟨⟩, ⟨⟩⟩ := bind_ok.mp h
  exact ⟨rfl, .of_rows rfl rfl rfl rfl rfl⟩

theorem deleteObject_aside (key : Option Documents.Key) :
    Within ExportStore.Aside (deleteObject key) := by
  rintro s u t ⟨⟩
  cases key <;> exact ⟨rfl, .of_rows rfl rfl rfl rfl rfl⟩

theorem scheduleDocument_returns (c : Documents.Category) (d : Document) (s : ExportStore) :
    ∃ t, scheduleDocument c d s = .ok ((), t) ∧ s.Aside t :=
  ⟨_, rfl, rfl, .of_save rfl rfl rfl rfl⟩

theorem dispose_aside (e : ExportChoice) (d : Document) (actor : ℕ) :
    Within ExportStore.Aside (ExportWorker.dispose e d actor) := by
  intro s u t h
  obtain ⟨v, hv, rfl⟩ := zoom_ok.mp h
  obtain ⟨a, ha, -, -, -, -, rfl⟩ := Documents.markPurposeFulfilled_ok hv
  exact ⟨rfl, .of_save (Documents.Store.documents_log ..) rfl rfl rfl⟩

theorem createDocument_ok {content : Content} {category : Documents.Category} {key : Documents.Key}
    {d : Document} (h : createDocument req content category key s = .ok (d, t)) :
    t.requests = s.requests ∧ d.pk = s.documents.documents.next ∧ s.Ages t ∧
      d.pk < t.documents.documents.next ∧ t.exported = s.exported ++ [(req.pk, d.pk)] ∧
      t.deliveries = s.deliveries ∧ t.served = s.served := by
  obtain ⟨_, _, ⟨⟩, h⟩ := bind_ok.mp h
  obtain ⟨_, v, hinsert, h⟩ := bind_ok.mp h
  obtain ⟨w, happend, rfl⟩ := zoom_ok.mp hinsert
  obtain ⟨rfl, T, hT, rfl⟩ := append_ok.mp happend
  obtain ⟨_, _, ⟨⟩, ⟨⟩⟩ := bind_ok.mp h
  obtain ⟨hrows, hnext, -⟩ := Numbered.insert_ok hT rfl
  have hlt : s.documents.documents.next < T.next := hnext ▸ Nat.lt_succ_self _
  refine ⟨rfl, rfl, ⟨hlt.le, ?_⟩, hlt, rfl, rfl, rfl⟩
  rintro k hk ⟨a, ha, rfl⟩
  rcases List.mem_append.mp (hrows ▸ ha) with ha | ha
  · exact ⟨a, ha, rfl⟩
  · obtain rfl := List.mem_singleton.mp ha
    exact absurd hk (lt_irrefl _)

theorem deleteDocument_ok {document : ℕ} (h : deleteDocument document s = .ok (u, t)) :
    s.Aside t ∧ ¬ t.HasDocument document := by
  obtain ⟨_, _, ⟨⟩, h⟩ := bind_ok.mp h
  obtain ⟨-, h⟩ := guard_ok h
  obtain ⟨v, hdelete, rfl⟩ := zoom_ok.mp h
  obtain ⟨-, rfl⟩ := Documents.deleteDocuments_ok hdelete
  have hkept : ∀ d ∈ (s.documents.drop (·.pk = document)).documents.rows,
      d ∈ s.documents.documents.rows ∧ d.pk ≠ document := by
    intro d hd
    simpa using List.mem_filter.mp hd
  refine ⟨⟨rfl, ⟨le_refl _, ?_⟩, rfl, rfl, rfl⟩, ?_⟩
  · rintro k - ⟨d, hd, rfl⟩
    exact ⟨d, (hkept d hd).1, rfl⟩
  · rintro ⟨d, hd, hpk⟩
    exact (hkept d hd).2 hpk

theorem complete_ok {ttl : ℕ} {content : Content} {document : Option ℕ}
    (h : complete ttl req content document s = .ok (u, t)) :
    s.requests.update req.pk (.completed s.now ttl document) = .ok t.requests ∧
      s.Unrecorded t := by
  obtain ⟨_, _, ⟨⟩, h⟩ := bind_ok.mp h
  obtain ⟨T, hT, ⟨⟩⟩ := updateRow_bind.mp h
  exact ⟨hT, .of_rows rfl rfl rfl rfl rfl⟩

/-- A download that returns has found a ready request that is not past its expiry. -/
theorem download_ok {token user : ℕ} {answer : Option (ℕ × Document × Bool)}
    (h : download token user s = .ok (answer, t)) :
    (answer = none ∧ t = s) ∨
    ∃ req ∈ s.requests.rows, req.downloadToken = some token ∧ req.status = .ready ∧
      req.expiresAt.any (· < s.now) = false ∧
      s.requests.update req.pk .delivered = .ok t.requests ∧ s.Ages t ∧
      t.exported = s.exported ∧ t.deliveries = s.deliveries ++ [⟨req, s.now⟩] ∧
      t.served = s.served ∧ ∃ d isTransitory, answer = some (req.pk, d, isTransitory) := by
  obtain ⟨_, _, ⟨⟩, h⟩ := bind_ok.mp h
  obtain ⟨req, hfind, h⟩ := ask_bind.mp h
  obtain ⟨-, h⟩ := guard_ok h
  by_cases hexpired : req.status = .ready ∧ req.expiresAt.any (· < s.now) = true
  · rw [if_pos hexpired] at h
    obtain ⟨_, _, _, h⟩ := bind_ok.mp h
    obtain ⟨_, _, ⟨⟩, _⟩ := bind_ok.mp h
  · rw [if_neg hexpired] at h
    obtain ⟨hready, h⟩ := guard_ok h
    have hready := not_not.mp hready
    cases hdocument : req.document with
    | none =>
      rw [hdocument] at h
      obtain ⟨rfl, rfl⟩ := pure_ok.mp h
      exact .inl ⟨rfl, rfl⟩
    | some document =>
      rw [hdocument] at h
      obtain ⟨d, -, h⟩ := ask_bind.mp h
      obtain ⟨c, -, h⟩ := ask_bind.mp h
      obtain ⟨T, hT, ⟨⟩⟩ := updateRow_bind.mp h
      have hfound := List.mem_of_find?_eq_some hfind
      have htoken : req.downloadToken = some token := by simpa using List.find?_some hfind
      have htime : req.expiresAt.any (· < s.now) = false :=
        Bool.eq_false_of_not_eq_true fun hpast => hexpired ⟨hready, hpast⟩
      exact .inr ⟨req, hfound, htoken, hready, htime, hT, ⟨le_refl _, fun _ _ hk => hk⟩, rfl, rfl,
        rfl, d, _, rfl⟩

end Blocks

theorem Plain.withStatus {p : ExportWorker} {k : ℕ} (status : ExportStatus)
    (hready : status ≠ .ready)
    (hactive : status = .pending ∨ status = .processing → p.fresh = some k) :
    Plain p k (.withStatus status) where
  pk _ := rfl
  downloadToken _ := rfl
  document _ := rfl
  ready _ h := (hready h).elim
  active _ h := hactive (of_decide_eq_true h)

theorem Plain.readied {p : ExportWorker} {k now ttl : ℕ} : Plain p k (.readied now ttl) where
  pk _ := rfl
  downloadToken _ := rfl
  document _ := rfl
  ready _ _ := nofun
  active _ h := nomatch h

/-- What a worker knows and holds is what it knew and held. -/
structure ExportWorker.Continues (s : ExportStore) (e : ExportChoice) (p q : ExportWorker) :
    Prop where
  fresh : q.fresh = none ∨ q.fresh = p.fresh
  sending : q.sending = none ∨ q.sending = p.sending
  unlinked : p.Settles s e → q.unlinked = p.unlinked

inductive ExportBlock (cfg : ExportSettings) (e : ExportChoice) (s t : ExportStore) :
    ExportWorker → ExportWorker → Prop
  | passed {p q : ExportWorker} (hreq : t.requests = s.requests) (hlogs : s.Unrecorded t)
      (hq : p.Continues s e q) : ExportBlock cfg e s t p q
  | loaded {req : DataExportRequest} (hreq : s.requests.get req.pk = some req) (ht : t = s) :
      ExportBlock cfg e s t (.processing req.pk) (.guarding req)
  | saved {p q : ExportWorker} {k : ℕ} {f : DataExportRequest → DataExportRequest}
      (hplain : Plain p k f) (hupdate : s.requests.update k f = .ok t.requests)
      (hlogs : s.Unrecorded t) (hq : p.Continues s e q) : ExportBlock cfg e s t p q
  | created {req : DataExportRequest} {content : Content} {saved : ExportPath}
      {category : Documents.Category} {key : Documents.Key} {d : Document}
      (hreq : t.requests = s.requests) (hd : d.pk = s.documents.documents.next)
      (hages : s.Ages t) (hnext : d.pk < t.documents.documents.next)
      (hexported : t.exported = s.exported ++ [(req.pk, d.pk)])
      (hdeliveries : t.deliveries = s.deliveries) (hserved : t.served = s.served) :
      ExportBlock cfg e s t (.creating req content saved category key)
        (.scheduling req content saved category d)
  | completed {req : DataExportRequest} {content : Content} {saved : ExportPath}
      {document : Option Document} {q : ExportWorker}
      (hupdate : s.requests.update req.pk
        (.completed s.now cfg.dataExportTtlDays (document.map (·.pk))) = .ok t.requests)
      (hlogs : s.Unrecorded t) (hfresh : q.fresh = none) (hsending : q.sending = none)
      (hunlinked : q.unlinked = none) :
      ExportBlock cfg e s t (.completing req content saved document) q
  | removed {req : DataExportRequest} {d : Document} {r : Raised} (hreq : t.requests = s.requests)
      (hlogs : s.Unrecorded t)
      (hgone : (ExportWorker.undoingDocument req d r).Settles s e → ¬ t.HasDocument d.pk) :
      ExportBlock cfg e s t (.undoingDocument req d r) (.failing req r)
  | delivered {token user : ℕ} {req : DataExportRequest} {q : ExportWorker}
      (hreq : req ∈ s.requests.rows) (htoken : req.downloadToken = some token)
      (hready : req.status = .ready) (htime : req.expiresAt.any (· < s.now) = false)
      (hupdate : s.requests.update req.pk .delivered = .ok t.requests) (hages : s.Ages t)
      (hexported : t.exported = s.exported)
      (hdeliveries : t.deliveries = s.deliveries ++ [⟨req, s.now⟩]) (hserved : t.served = s.served)
      (hfresh : q.fresh = none) (hsending : q.sending = none ∨ q.sending = some req.pk)
      (hunlinked : q.unlinked = none) : ExportBlock cfg e s t (.downloading token user) q
  | sent {request : ℕ} {key : Option Documents.Key}
      (ht : t = { s with served := s.served ++ [request] }) :
      ExportBlock cfg e s t (.opening request key) .ended

section Act

variable {cfg : ExportSettings} {e : ExportChoice} {s t : ExportStore} {p q : ExportWorker}
  {req : DataExportRequest} {α : Type} {x : ExportTx α} {next : α → ExportWorker}

namespace ExportWorker

theorem attempt_cases (h : attempt req e x s next = (t, q)) :
    (t = s ∧ ∃ r, q = failing req r ∧ (e.raised = none → ∃ error, x s = .error error)) ∨
      ∃ a, x s = .ok (a, t) ∧ q = next a := by
  unfold attempt at h
  split at h
  next r hr =>
    cases h
    exact .inl ⟨rfl, r, rfl, fun hnone => by cases hr.symm.trans hnone⟩
  next hr =>
    cases hx : x s with
    | error error =>
      rw [commit_of_error hx] at h
      cases h
      exact .inl ⟨rfl, _, rfl, fun _ => ⟨error, rfl⟩⟩
    | ok a =>
      rw [commit_of_ok (a := a.1) (t := a.2) hx] at h
      cases h
      exact .inr ⟨a.1, rfl, rfl⟩

theorem orEnd_cases {x : ExportTx Unit} {next : ExportWorker} (h : orEnd e x s next = (t, q)) :
    (t = s ∧ q = ended) ∨ x s = .ok ((), t) ∧ q = next := by
  unfold orEnd at h
  split at h
  · cases hx : x s with
    | error error =>
      rw [commit_of_error hx] at h
      cases h
      exact .inl ⟨rfl, rfl⟩
    | ok a =>
      rw [commit_of_ok (a := a.1) (t := a.2) hx] at h
      cases h
      exact .inr ⟨rfl, rfl⟩
  · cases h
    exact .inl ⟨rfl, rfl⟩

theorem orEnd_of_ok {x : ExportTx Unit} {next : ExportWorker} (he : e.raised = none)
    (hrun : x s = .ok ((), t)) : orEnd e x s next = (t, next) := by
  unfold orEnd
  rw [if_pos he, commit_of_ok hrun]

theorem passOver_aside {x : ExportTx Unit} (hx : Within ExportStore.Aside x) :
    s.Aside (passOver e x s) := by
  unfold passOver
  split
  · exact hx.commit s
  · exact .refl s

theorem dispose_row_aside (document : Option Document) (actor : ℕ) :
    s.Aside ((document.filter s.isTransitory).elim s fun d =>
      passOver e (dispose e d actor) s) := by
  cases document.filter s.isTransitory with
  | none => exact .refl s
  | some d => exact passOver_aside (dispose_aside e d actor)

/-- A block that only reads, or changes documents, files or the audit log -/
theorem attempt_block (hx : Within ExportStore.Aside x) (h : attempt req e x s next = (t, q))
    (hp : p.unlinked = none) (hnext : ∀ a, p.Continues s e (next a)) :
    ExportBlock cfg e s t p q := by
  rcases attempt_cases h with ⟨rfl, r, rfl, -⟩ | ⟨a, hrun, rfl⟩
  · exact .passed rfl (.refl _) ⟨.inl rfl, .inl rfl, fun _ => hp.symm⟩
  · obtain ⟨hreq, hlogs⟩ := hx _ _ _ hrun
    exact .passed hreq hlogs (hnext a)

/-- A save of the request of a run -/
theorem attempt_save {k : ℕ} {f : DataExportRequest → DataExportRequest} (q' : ExportWorker)
    (hf : Plain p k f) (h : attempt req e (saveRequest k f) s (fun _ => q') = (t, q))
    (hp : p.unlinked = none) (hq : p.Continues s e q') : ExportBlock cfg e s t p q := by
  rcases attempt_cases h with ⟨rfl, r, rfl, -⟩ | ⟨a, hrun, rfl⟩
  · exact .passed rfl (.refl _) ⟨.inl rfl, .inl rfl, fun _ => hp.symm⟩
  · obtain ⟨hupdate, hlogs⟩ := saveRequest_ok hrun
    exact .saved hf hupdate hlogs hq

/-- A save of a status that is neither ready nor active -/
theorem orEnd_save {k : ℕ} {q' : ExportWorker} (status : ExportStatus) (hready : status ≠ .ready)
    (hactive : ¬ (status = .pending ∨ status = .processing))
    (h : orEnd e (saveRequest k (.withStatus status)) s q' = (t, q))
    (hp : p.unlinked = none) (hq : p.Continues s e q') : ExportBlock cfg e s t p q := by
  rcases orEnd_cases h with ⟨rfl, rfl⟩ | ⟨hrun, rfl⟩
  · exact .passed rfl (.refl _) ⟨.inl rfl, .inl rfl, fun _ => hp.symm⟩
  · obtain ⟨hupdate, hlogs⟩ := saveRequest_ok hrun
    exact .saved (.withStatus status hready fun hor => (hactive hor).elim) hupdate hlogs hq

/-- Everything a block can do. -/
theorem act_block (h : p.act cfg s e = some (t, q)) : ExportBlock cfg e s t p q := by
  have hidle {p q : ExportWorker} (hp : p.unlinked = none) (hq : q.unlinked = none)
      (hfresh : q.fresh = none) (hsending : q.sending = none) : p.Continues s e q :=
    ⟨.inl hfresh, .inl hsending, fun _ => hq.trans hp.symm⟩
  cases p with
  | processing request =>
    simp only [act] at h
    split at h <;> cases h
    next => exact .passed rfl (.refl _) (hidle rfl rfl rfl rfl)
    next hget =>
      obtain ⟨-, hget⟩ := Option.ite_none_right_eq_some.mp hget
      obtain rfl := (Numbered.get_eq_some.mp hget).2
      exact .loaded hget rfl
  | guarding req =>
    refine attempt_block (.pure ()) (Option.some.inj h) rfl fun _ => ?_
    split
    · exact hidle rfl rfl rfl rfl
    · split
      next hnone => exact ⟨.inr (if_pos hnone).symm, .inl rfl, fun _ => rfl⟩
      next => exact hidle rfl rfl rfl rfl
  | reusing req =>
    exact attempt_save (notifying req) .readied (Option.some.inj h) rfl
      (hidle rfl rfl rfl rfl)
  | starting req =>
    exact attempt_save (building req) (.withStatus .processing nofun fun _ => rfl)
      (Option.some.inj h) rfl ⟨.inr rfl, .inl rfl, fun _ => rfl⟩
  | building req =>
    exact attempt_block (.pure _) (Option.some.inj h) rfl
      fun _ => ⟨.inr rfl, .inl rfl, fun _ => rfl⟩
  | storing req content =>
    exact attempt_block (storeExport_aside _ _ _) (Option.some.inj h) rfl
      fun _ => ⟨.inr rfl, .inl rfl, fun _ => rfl⟩
  | categorising req content saved =>
    refine attempt_block exportCategory_aside (Option.some.inj h) rfl fun c => ?_
    cases c with
    | none => exact ⟨.inr rfl, .inl rfl, fun _ => rfl⟩
    | some c => exact ⟨.inr rfl, .inl rfl, fun _ => rfl⟩
  | storingDocument req content saved category =>
    exact attempt_block (storeDocument_aside _ _) (Option.some.inj h) rfl
      fun _ => ⟨.inr rfl, .inl rfl, fun _ => rfl⟩
  | creating req content saved category key =>
    rcases attempt_cases (Option.some.inj h) with ⟨rfl, r, rfl, -⟩ | ⟨d, hrun, rfl⟩
    · exact .passed rfl (.refl _) (hidle rfl rfl rfl rfl)
    · obtain ⟨hreq, hpk, hages, hlt, hexported, hdeliveries, hserved⟩ := createDocument_ok hrun
      exact .created hreq hpk hages hlt hexported hdeliveries hserved
  | scheduling req content saved category d =>
    obtain ⟨u, hrun, hreq, hlogs⟩ := scheduleDocument_returns category d s
    rcases attempt_cases (Option.some.inj h) with ⟨rfl, r, rfl, hfail⟩ | ⟨_, hrun', rfl⟩
    · refine .passed rfl (.refl _) ⟨.inl rfl, .inl rfl, fun hsettles => ?_⟩
      obtain ⟨error, herror⟩ := hfail (hsettles.1 rfl)
      cases hrun.symm.trans herror
    · cases hrun.symm.trans hrun'
      exact .passed hreq hlogs ⟨.inr rfl, .inl rfl, fun _ => rfl⟩
  | completing req content saved document =>
    have hundoing (r : Raised) : (completing req content saved document).Continues s e
        (undoing req saved document r) := by
      refine ⟨.inl rfl, .inl rfl, fun _ => ?_⟩
      cases document <;> rfl
    simp only [act] at h
    split at h
    next => cases h; exact .passed rfl (.refl _) (hundoing _)
    next =>
      split at h <;> cases h
      next hrun =>
        obtain ⟨hupdate, hlogs⟩ := complete_ok (commit_ok hrun)
        cases document <;> exact .completed hupdate hlogs rfl rfl rfl
      next hrun =>
        obtain rfl := commit_error hrun
        exact .passed rfl (.refl _) (hundoing _)
  | undoing req saved document r =>
    cases h
    obtain ⟨hreq, hlogs⟩ := passOver_aside (e := e) (s := s) (deleteExport_aside saved)
    refine .passed hreq hlogs ?_
    cases document with
    | none => exact hidle rfl rfl rfl rfl
    | some d => exact ⟨.inl rfl, .inl rfl, fun _ => rfl⟩
  | undoingObject req d r =>
    cases h
    obtain ⟨hreq, hlogs⟩ := passOver_aside (e := e) (s := s) (deleteObject_aside d.storageKey)
    exact .passed hreq hlogs ⟨.inl rfl, .inl rfl, fun _ => rfl⟩
  | undoingDocument req d r =>
    cases h
    unfold passOver
    split
    next hraised =>
      cases hrun : deleteDocument d.pk s with
      | error error =>
        rw [commit_of_error hrun]
        refine .removed rfl (.refl _) fun hsettles => ?_
        have hok := (hsettles.2 _ rfl).2
        rw [hrun] at hok
        cases hok
      | ok u =>
        rw [commit_of_ok (a := u.1) (t := u.2) hrun]
        obtain ⟨⟨hreq, hlogs⟩, hgone⟩ := deleteDocument_ok hrun
        exact .removed hreq hlogs fun _ => hgone
    next hraised => exact .removed rfl (.refl _) fun hsettles => absurd (hsettles.2 _ rfl).1 hraised
  | tidying req saved =>
    cases h
    obtain ⟨hreq, hlogs⟩ := passOver_aside (e := e) (s := s) (deleteExport_aside saved)
    exact .passed hreq hlogs (hidle rfl rfl rfl rfl)
  | notifying req =>
    exact attempt_block (.pure _) (Option.some.inj h) rfl fun _ => hidle rfl rfl rfl rfl
  | failing req r =>
    exact orEnd_save .failed nofun nofun (Option.some.inj h) rfl (hidle rfl rfl rfl rfl)
  | auditing req r =>
    cases h
    obtain ⟨hreq, hlogs⟩ := passOver_aside (e := e) (s := s) (createEntry_aside _)
    exact .passed hreq hlogs (hidle rfl rfl rfl rfl)
  | downloading token user =>
    simp only [act] at h
    split at h
    next hrun =>
      cases h
      obtain ⟨⟨⟩, -⟩ | ⟨req, hreq, htoken, hready, htime, hupdate, hages, hexported, hdeliveries,
        hserved, _, _, hanswer⟩ := download_ok (commit_ok hrun)
      cases hanswer
      split <;> exact .delivered hreq htoken hready htime hupdate hages hexported hdeliveries
        hserved rfl (.inr rfl) rfl
    next hrun =>
      cases h
      obtain ⟨-, rfl⟩ | ⟨_, _, _, _, _, _, _, _, _, _, _, _, hanswer⟩ :=
        download_ok (commit_ok hrun)
      · exact .passed rfl (.refl _) (hidle rfl rfl rfl rfl)
      · cases hanswer
    next hrun =>
      cases h
      obtain rfl := commit_error hrun
      exact .passed rfl (.refl _) (hidle rfl rfl rfl rfl)
  | disposing request d user =>
    cases h
    obtain ⟨hreq, hlogs⟩ := passOver_aside (e := e) (s := s) (dispose_aside e d user)
    exact .passed hreq hlogs ⟨.inl rfl, .inr rfl, fun _ => rfl⟩
  | opening request key =>
    simp only [act] at h
    split at h <;> cases h
    next => exact .sent rfl
    next => exact .passed rfl (.refl _) (hidle rfl rfl rfl rfl)
  | cleanup =>
    simp only [act] at h
    split at h <;> cases h <;> exact .passed rfl (.refl _) (hidle rfl rfl rfl rfl)
  | expiring batch startedAt =>
    cases batch with
    | nil =>
      simp only [act] at h
      split at h <;> cases h <;> exact .passed rfl (.refl _) (hidle rfl rfl rfl rfl)
    | cons row batch =>
      cases h
      obtain ⟨hreq, hlogs⟩ := dispose_row_aside (e := e) (s := s) row.2 row.1.citizen
      exact .passed hreq hlogs (hidle rfl rfl rfl rfl)
  | expired req batch startedAt =>
    exact orEnd_save .expired nofun nofun (Option.some.inj h) rfl
      (hidle rfl rfl rfl rfl)
  | logging req batch startedAt =>
    rcases orEnd_cases (Option.some.inj h) with ⟨rfl, rfl⟩ | ⟨hrun, rfl⟩
    · exact .passed rfl (.refl _) (hidle rfl rfl rfl rfl)
    · obtain ⟨hreq, hlogs⟩ := createEntry_aside _ _ _ _ hrun
      exact .passed hreq hlogs (hidle rfl rfl rfl rfl)
  | recovering stuck =>
    cases stuck with
    | nil =>
      cases h
      exact .passed rfl (.refl _) (hidle rfl rfl rfl rfl)
    | cons req stuck =>
      exact orEnd_save .failed nofun nofun (Option.some.inj h) rfl
        (hidle rfl rfl rfl rfl)
  | recovered req stuck =>
    cases h
    obtain ⟨hreq, hlogs⟩ := passOver_aside (e := e) (s := s) (createEntry_aside _)
    exact .passed hreq hlogs (hidle rfl rfl rfl rfl)
  | documents w =>
    obtain ⟨⟨d, w'⟩, hact, ⟨⟩⟩ := Option.map_eq_some_iff.mp h
    obtain ⟨-, hchange⟩ := Documents.act_change hact
    have hages : s.Ages { s with documents := d } := .of_inherits hchange.inherits
    exact .passed rfl ⟨hages, rfl, rfl, rfl⟩ (hidle rfl rfl rfl rfl)
  | ended => cases h

end ExportWorker

end Act

end Civicos.Consent
