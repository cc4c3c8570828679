import Civicos.Documents.Upload
import Civicos.Library.Pool

/-!
# Documents: any number of callers and tasks

Requests, services and tasks run block by block over one database and one object storage. A block
is a transaction, or one request to the storage. Clients write to their presigned keys at any time
until these expire.
-/
namespace Civicos.Documents

open Library Library.Transaction
open Payments (strip)

/-- Calls that are one transaction. -/
inductive Operation where
  | softDelete (document : Document) (deletedBy : Option ℕ) (reason : String)
  | markPurposeFulfilled (document : Document) (actor : ℕ)
  | applyLegalHold (document : Document) (setBy : Actor) (reason : String)
  | releaseLegalHold (document : Document) (releasedBy : Actor) (reason : String)
  | confirmUpload (user document : ℕ)
  | issueAccessToken (document : Document) (user : Actor)
  | purgeExpiredTokens
deriving DecidableEq, Repr

def Operation.run (cfg : Settings) (e : Choice) : Operation → Tx Unit
  | softDelete document deletedBy reason => Documents.softDelete e.audited document deletedBy reason
  | markPurposeFulfilled document actor => Documents.markPurposeFulfilled e.audited document actor
  | applyLegalHold document setBy reason => Documents.applyLegalHold e.audited document setBy reason
  | releaseLegalHold document releasedBy reason =>
    Documents.releaseLegalHold e.audited document releasedBy reason
  | confirmUpload user document => Documents.confirmUpload cfg e user document
  | issueAccessToken document user => Documents.issueAccessToken cfg e document user
  | purgeExpiredTokens => Documents.purgeExpiredTokens e.audited

/-- What `run_hard_delete_schedule` still has to do; none for a call of `hard_delete` on its own. -/
abbrev Job := Option (List Document × List ℕ)

/-- A worker between two blocks. `scanned` keeps the content that the scanner has been given,
`cleaning`, `collected` and `cleaned` the rows of the first query. -/
inductive Worker where
  | calling (op : Operation)
  | deleting (document : ℕ) (user : Actor) (reason : String)
  | disposal
  | disposing (batch : List Document) (pks : List ℕ)
  | hardDeleting (document : Document)
  | purge
  | purging (batch : List Document) (pks : List ℕ)
  | clearing (document : ℕ) (key : Option Key) (job : Job)
  | cleared (document : ℕ) (clearedAt : Instant) (job : Job)
  | uploading (user : Actor) (categorySlug : String) (file : FileRequest)
  | loading (user : Actor) (document : ℕ) (file : FileRequest) (description : String)
  | versioning (user : Actor) (document : Document) (file : FileRequest) (description : String)
  | presigning (new : Document) (previous : Option ℕ)
  | withdrawing (new : ℕ) (previous : Option ℕ)
  | scanning (document : ℕ)
  | claimed (document : ℕ) (key : Option Key)
  | scanned (document : ℕ) (content : Option Content) (result : String)
  | failing (document : ℕ) (exception : String)
  | sweeping (key : Option Key)
  | cleanup
  | cleaning (stale : List (ℕ × Option Key)) (keys : List Key) (chunk : List ℕ)
    (rest : List (ℕ × Option Key))
  | collected (stale : List (ℕ × Option Key)) (pks : List ℕ) (rest : List (ℕ × Option Key))
  | cleaned (stale : List (ℕ × Option Key))
  | redeeming (token user : ℕ)
  | redemption (token user : ℕ) (usedAt : Instant) (document : Document)
  | returned
  | raised (e : DocumentError)
  | dead
deriving DecidableEq, Repr

/-- The rows that `cleanup_stale_pending_uploads` snapshots. -/
def Store.stalePending (cfg : Settings) (s : Store) : List (ℕ × Option Key) :=
  (s.documents.rows.filter fun d => d.scanStatus = .pendingUpload ∧
    d.createdAt + seconds (cfg.presignedPostTtlSeconds + 5 * 60) ≤ s.now).map fun d =>
      (d.pk, d.storageKey)

/-- `delete()` of one chunk of the clean-up first collects the rows. -/
def collectStale (chunk : List ℕ) : Tx (List ℕ) := do
  let s ← get
  let stale := s.documents.rows.filter fun d => d.pk ∈ chunk ∧ d.scanStatus = .pendingUpload
  if stale.any s.isProtected then throw .protectedError
  return stale.map (·.pk)

/-- Then it deletes them by their keys; the database checks no status. -/
def deleteCollected (pks : List ℕ) : Tx Unit :=
  deleteDocuments (.integrityError "documents_document_root_document_id_fk") (·.pk ∈ pks)

/-- A promotion that copies and is then rolled back. -/
def Store.copiedOnly (document : ℕ) (s : Store) : Store :=
  ((s.documents.get document).filter (·.scanStatus = .scanning)).elim s fun d =>
    (s.promotable d.storageKey).elim s s.copied

namespace Worker

def entry : Worker → Bool
  | calling _ | deleting .. | disposal | hardDeleting _ | purge | uploading .. | loading .. |
    scanning _ | cleanup | redeeming .. => true
  | _ => false

def resume : Job → Worker
  | none => returned
  | some (batch, pks) => purging batch pks

/-- A failed scan is tried again, until the retries are exhausted. -/
def retry (e : Choice) (document : ℕ) (exception : String) : Worker :=
  if e.exhausted then failing document exception else scanning document

/-- The next chunk of the clean-up. -/
def nextStale (stale rest : List (ℕ × Option Key)) : Worker :=
  if rest = [] then cleaned stale
  else cleaning stale ((rest.take 500).filterMap (·.2)) ((rest.take 500).map (·.1)) (rest.drop 500)

/-- The next block of a worker. -/
def act (cfg : Settings) (s : Store) : Worker → Choice → Option (Store × Worker)
  | calling op, e =>
    match commit (op.run cfg e) s with
    | (.ok _, t) => some (t, returned)
    | (.error x, t) => some (t, raised x)
  | deleting document user reason, _ =>
    match commit (loadForDeletion document user reason) s with
    | (.ok d, t) => some (t, calling (.softDelete d (some user.pk) (strip reason)))
    | (.error x, t) => some (t, raised x)
  | disposal, _ => some (s, disposing [] (s.pendingDisposal cfg))
  | disposing (d :: batch) pks, e =>
    some ((commit (softDelete e.audited d none "retention_expired") s).2, disposing batch pks)
  | disposing [] pks, _ =>
    if pks = [] then some (s, returned)
    else some (s, disposing (s.nextChunk pks).1 (s.nextChunk pks).2)
  | hardDeleting d, _ =>
    match commit (hardDelete cfg d) s with
    | (.ok (some key), t) => some (t, clearing d.pk key none)
    | (.ok none, t) => some (t, returned)
    | (.error x, t) => some (t, raised x)
  | purge, _ => some (s, purging [] s.pendingHardDelete)
  | purging (d :: batch) pks, _ =>
    match commit (hardDelete cfg d) s with
    | (.ok (some key), t) => some (t, clearing d.pk key (some (batch, pks)))
    | (.ok none, t) => some (t, purging batch pks)
    | (.error _, t) => some (t, purging batch pks)
  | purging [] pks, _ =>
    if pks = [] then some (s, returned)
    else some (s, purging (s.nextChunk pks).1 (s.nextChunk pks).2)
  | clearing document key job, e =>
    match key with
    | none => some (s, cleared document s.now job)
    | some k =>
      if e.reachable then some (s.store k none, cleared document s.now job)
      else some (s, resume job)
  | cleared document clearedAt job, e =>
    some ((commit (recordPurge e.audited document clearedAt) s).2, resume job)
  | uploading user categorySlug file, e =>
    match commit (announceUpload cfg user categorySlug file e.token) s with
    | (.ok d, t) => some (t, presigning d none)
    | (.error x, t) => some (t, raised x)
  | loading user document file description, _ =>
    match commit (fetch Store.documentTable .http404 document) s with
    | (.ok d, t) => some (t, versioning user d file description)
    | (.error x, t) => some (t, raised x)
  | versioning user document file description, e =>
    match commit (announceVersion cfg e user document file description) s with
    | (.ok (new, previous), t) => some (t, presigning new (some previous.pk))
    | (.error x, t) => some (t, raised x)
  | presigning new previous, e =>
    if e.reachable then some (new.storageKey.elim s fun k => s.granted cfg k, returned)
    else some (s, withdrawing new.pk previous)
  | withdrawing new previous, _ =>
    some ((commit (previous.elim (deleteDocuments .protectedError (·.pk = new))
      (withdrawVersion new)) s).2, raised .storageError)
  | scanning document, e =>
    if cfg.devBypass then
      match commit (markActiveDevBypass document) s with
      | (.ok _, t) => some (t, returned)
      | (.error _, t) => some (t, retry e document "DoesNotExist")
    else
      match commit (claimScan document) s with
      | (.ok (some key), t) => some (t, claimed document key)
      | (.ok none, t) => some (t, returned)
      | (.error _, t) => some (t, retry e document "DoesNotExist")
  | claimed document key, e =>
    match if e.reachable then key.bind s.objects else none with
    | none => some (s, scanned document none "STORAGE_ERROR:_StorageReadError")
    | some content =>
      match e.scanner with
      | .ok result => some (s, scanned document (some content) result)
      | .error exception => some (s, retry e document exception)
  | scanned document _ result, e =>
    if result = "OK" then
      if e.crashed then some (s.copiedOnly document, retry e document "OperationalError")
      else if !e.reachable then some (s, retry e document "_StoragePromotionError")
      else match commit (markActiveClamav e.audited document) s with
        | (.ok (some k), t) => some (t, sweeping (some k))
        | (.ok none, t) => some (t, returned)
        | (.error _, t) => some (t, returned)
    else match commit (markQuarantined e.audited document ("FOUND: " ++ result)) s with
      | (.ok (some k), t) => some (t, sweeping (some k))
      | (.ok none, t) => some (t, returned)
      | (.error _, t) => some (t, returned)
  | failing document exception, e =>
    some ((commit (markQuarantined e.audited document ("SCAN_FAILURE:" ++ exception)) s).2,
      returned)
  | sweeping key, e =>
    if e.reachable then some (key.elim s fun k => s.store k none, returned) else some (s, returned)
  | cleanup, _ => some (s, nextStale (s.stalePending cfg) (s.stalePending cfg))
  | cleaning stale (k :: keys) chunk rest, e =>
    some (if e.reachable then s.store k none else s, cleaning stale keys chunk rest)
  | cleaning stale [] chunk rest, _ =>
    match commit (collectStale chunk) s with
    | (.ok pks, t) => some (t, collected stale pks rest)
    | (.error x, t) => some (t, raised x)
  | collected stale pks rest, _ =>
    match commit (deleteCollected pks) s with
    | (.ok _, t) => some (t, nextStale stale rest)
    | (.error x, t) => some (t, raised x)
  | redeeming token user, _ =>
    match commit (readToken token user) s with
    | (.ok (t, d), u) => some (u, redemption t.pk user s.now d)
    | (.error x, u) => some (u, raised x)
  | redemption token user usedAt _, e =>
    match commit (commitRedemption e.audited token user usedAt) s with
    | (.ok _, t) => some (t, returned)
    -- The lock is still held, so that this cannot happen.
    | (.error _, _) => none
  | cleaned _, _ => none
  | returned, _ => none
  | raised _, _ => none
  | dead, _ => none

end Worker

/-- What happens besides: time passes, a client posts to a presigned key, the server stores a
document that it has made itself, and attachments come and go. -/
inductive Event where
  | pass (time : ℕ)
  | overwrite (key : Key) (content : Content)
  | generate (document : Document) (file : ℕ) (content : Content)
  | attachments (documents : List ℕ)
deriving DecidableEq, Repr

/-- A document that the server has made itself is stored without a scan. -/
def generated (document : Document) (file pk : ℕ) : Document where
  pk
  category := document.category
  uploadedBy := document.uploadedBy
  originalFilename := document.originalFilename
  sizeBytes := document.sizeBytes
  createdAt := document.createdAt
  description := document.description
  storageKey := some ⟨.active, pk, file⟩
  mimeType := document.mimeType
  scanStatus := .active
  expiresAt := document.expiresAt
  retainUntil := document.retainUntil

def insertGenerated (document : Document) (file : ℕ) (content : Content) : Tx Unit := do
  let d ← append Store.documentTable .ofViolation (generated document file)
  modify fun s => s.store ⟨.active, d.pk, file⟩ (some content)

/-- Any number of callers, tasks and clients, interleaved; there are no documents yet. -/
def documents (cfg : Settings) : Program Store Worker Choice Event where
  Init s := s.documents = .empty ∧ s.tokens = .empty ∧ s.audit = [] ∧ s.objects = (fun _ => none) ∧
    s.grants = [] ∧ s.redemptions = []
  entry := Worker.entry
  halted := .dead
  act := Worker.act cfg
  env s
    | .pass time => some { s with now := s.now + time }
    | .overwrite key content =>
      if s.grants.any fun g => g.1 = key ∧ s.now < g.2 then some (s.store key (some content))
      else none
    | .generate document file content => some (commit (insertGenerated document file content) s).2
    | .attachments documents => some { s with attached := documents }

end Civicos.Documents
