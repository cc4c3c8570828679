import Civicos.Documents.Store

/-!
# Retention

Disposal is soft first: the row is marked deleted, and after a grace period the stored object is
destroyed and the row marked purged. A legal hold is checked by each operation under the row lock.
Operations take the instance that their caller has loaded, check it, and check the row again.
-/
namespace Civicos.Documents

open Library Library.Transaction
open Payments (strip)

/-! ## `schedule_expiry` -/

def Category.retainUntil (c : Category) (createdAt : Instant) : Option Date :=
  if 0 < c.minRetentionDays then some (utcDate (createdAt + days c.minRetentionDays)) else none

def Category.expiresAt (c : Category) (createdAt : Instant) : Option Instant :=
  if ¬ c.isTransitory ∧ 0 < c.maxRetentionDays then some (createdAt + days c.maxRetentionDays)
  else none

/-- `schedule_expiry` of a row that the same transaction inserts. -/
def scheduleExpiry (c : Category) (d : Document) : Document :=
  { d with
    expiresAt := c.expiresAt d.createdAt
    retainUntil := c.retainUntil d.createdAt }

/-! ## `soft_delete` -/

def Document.deletedText (d : Document) : String := (d.deletedAt.map isoformat).getD ""

def undeletable (d : Document) : DocumentError :=
  .valueError ("Document " ++ toString d.pk ++ " is on legal hold and cannot be deleted. " ++
    "Remove the legal hold before attempting disposal.")

def softDeleteChecks (d : Document) : Tx Unit := do
  if d.legalHold then throw (undeletable d)
  if d.deletedAt ≠ none then
    throw (.valueError ("Document " ++ toString d.pk ++ " is already soft-deleted (deleted_at=" ++
      d.deletedText ++ ")."))

def Document.softDeleted (now : Instant) (deletedBy : Option ℕ) (reason : String) (d : Document) :
    DocumentState :=
  { d.toDocumentState with
    deletedAt := some now
    scanStatus := .deleted
    deletedBy
    deletionReason := reason }

def deletionEntry (document : ℕ) (deletedBy : Option ℕ) (reason : String) : AuditEntry where
  eventType := .recordDeleted
  actor := deletedBy
  document := some document
  detail := .deleted (if reason = "" then "retention_expired" else reason) deletedBy

def softDelete (audited : Bool) (document : Document) (deletedBy : Option ℕ) (reason : String) :
    Tx Unit := do
  softDeleteChecks document
  let d ← documentOf document.pk
  softDeleteChecks d
  let s ← get
  saveDocument d.pk (Document.softDeleted s.now deletedBy reason)
  recordEvent audited (deletionEntry d.pk deletedBy reason)

/-! ## `mark_purpose_fulfilled` -/

def notHeld (d : Document) : Tx Unit := do
  if d.legalHold then
    throw (.valueError ("Document " ++ toString d.pk ++ " is on legal hold and cannot be " ++
      "disposed. Remove the legal hold before marking purpose fulfilled."))

def notDisposed (d : Document) : Tx Unit := do
  if d.deletedAt ≠ none then
    throw (.valueError ("Document " ++ toString d.pk ++ " is already soft-deleted (deleted_at=" ++
      d.deletedText ++ "). Cannot mark purpose fulfilled on an already-disposed document."))

def notTransitory (d : Document) (c : Category) : String :=
  "mark_purpose_fulfilled() called on non-transitory document " ++ toString d.pk ++
    ". Category '" ++ c.slug ++ "' has is_transitory=False."

def Document.fulfilled (now : Instant) (actor : ℕ) (d : Document) : DocumentState :=
  { d.softDeleted now (some actor) "transitory_purpose_fulfilled" with expiresAt := some now }

/-- The checks on the instance and under the lock come in different orders. -/
def markPurposeFulfilled (audited : Bool) (document : Document) (actor : ℕ) : Tx Unit := do
  let given ← categoryFor document
  if !given.isTransitory then
    throw (.valueError (notTransitory document given ++ " Only transitory categories " ++
      "(LAC DA #2016/001) may be disposed via this function."))
  notHeld document
  notDisposed document
  let d ← documentOf document.pk
  notDisposed d
  notHeld d
  let category ← categoryFor d
  if !category.isTransitory then throw (.valueError (notTransitory d category))
  let s ← get
  saveDocument d.pk (Document.fulfilled s.now actor)
  recordEvent audited (deletionEntry d.pk (some actor) "transitory_purpose_fulfilled")

/-! ## `hard_delete` -/

/-- The checks on the instance; false when it has been purged already. -/
def hardDeleteChecks (d : Document) : Tx Bool := do
  if d.legalHold then
    throw (.valueError ("Document " ++ toString d.pk ++ " is on legal hold and cannot be " ++
      "hard-deleted."))
  if d.deletedAt = none then
    throw (.valueError ("Document " ++ toString d.pk ++ " has not been soft-deleted. " ++
      "soft_delete() must be called before hard_delete()."))
  if d.scanStatus = .purged then return false
  if d.scanStatus ≠ .deleted then
    throw (.valueError ("Document " ++ toString d.pk ++ " scan_status is '" ++ d.scanStatus.value ++
      "'; must be DELETED (set by soft_delete()) for hard deletion."))
  return true

/-- The first transaction of `hard_delete` captures the storage key, unless the document has been
purged. The lock is given back with the commit. -/
def captureKey (cfg : Settings) (document : ℕ) : Tx (Option (Option Key)) := do
  let d ← documentOf document
  if d.scanStatus = .purged then return none
  if d.legalHold then
    throw (.valueError ("Document " ++ toString d.pk ++ " is on legal hold (set concurrently). " ++
      "Hard deletion aborted."))
  if d.deletedAt = none then
    throw (.valueError ("Document " ++ toString d.pk ++
      " has not been soft-deleted (concurrent race)."))
  if d.scanStatus ≠ .deleted then
    throw (.valueError ("Document " ++ toString d.pk ++ " scan_status is '" ++ d.scanStatus.value ++
      "' under lock; must be DELETED for hard deletion."))
  let s ← get
  if d.deletedAt.any (s.now < · + days cfg.graceDays) then
    throw (.valueError ("Document " ++ toString d.pk ++ " was soft-deleted less than " ++
      toString cfg.graceDays ++ " days ago (deleted_at=" ++ d.deletedText ++
      "). Grace period has not elapsed."))
  return some d.storageKey

def hardDelete (cfg : Settings) (document : Document) : Tx (Option (Option Key)) := do
  if !(← hardDeleteChecks document) then return none
  captureKey cfg document.pk

def Document.purged (d : Document) : DocumentState :=
  { d.toDocumentState with
    storageKey := none
    scanStatus := .purged }

/-- The last transaction of `hard_delete`, after the object has been destroyed. -/
def recordPurge (audited : Bool) (document : ℕ) (clearedAt : Instant) : Tx Unit := do
  let s ← get
  if s.documents.rows.any fun d => d.pk = document ∧ d.scanStatus = .deleted then
    saveDocument document Document.purged
    recordEvent audited {
      eventType := .recordPurged
      document := some document
      detail := .purged clearedAt }

/-! ## Legal holds -/

def manageLegalHold (a : Actor) : Tx Unit := do
  if !a.hasPerm "documents.manage_legal_hold" then
    throw (.permissionDenied ("User pk=" ++ toString a.pk ++
      " does not have documents.manage_legal_hold permission."))

def Document.held (reason : String) (setBy : ℕ) (d : Document) : DocumentState :=
  { d.toDocumentState with
    legalHold := true
    legalHoldReason := reason
    legalHoldSetBy := some setBy }

def applyLegalHold (audited : Bool) (document : Document) (setBy : Actor) (reason : String) :
    Tx Unit := do
  manageLegalHold setBy
  if document.legalHold then
    throw (.valueError ("Document " ++ toString document.pk ++ " is already on legal hold. " ++
      "Release the existing hold before reapplying."))
  let d ← documentOf document.pk
  if d.legalHold then
    throw (.valueError ("Document " ++ toString d.pk ++
      " is already on legal hold (concurrent race)."))
  saveDocument d.pk (Document.held reason setBy.pk)
  recordEvent audited {
    eventType := .legalHoldApplied
    actor := some setBy.pk
    document := some d.pk
    detail := .held reason setBy.pk }

/-- The reason of the hold is preserved. -/
def Document.released (d : Document) : DocumentState :=
    { d.toDocumentState with legalHold := false }

def releaseLegalHold (audited : Bool) (document : Document) (releasedBy : Actor) (reason : String) :
    Tx Unit := do
  manageLegalHold releasedBy
  if !document.legalHold then
    throw (.valueError ("Document " ++ toString document.pk ++
      " is not on legal hold. Nothing to release."))
  let d ← documentOf document.pk
  if !d.legalHold then
    throw (.valueError ("Document " ++ toString d.pk ++
      " is not on legal hold (concurrent race)."))
  saveDocument d.pk Document.released
  recordEvent audited {
    eventType := .legalHoldReleased
    actor := some releasedBy.pk
    document := some d.pk
    detail := .released releasedBy.pk reason }

/-! ## `DELETE /documents/{id}/` -/

/-- The view loads the document and checks it before it calls `soft_delete`. -/
def loadForDeletion (document : ℕ) (user : Actor) (reason : String) : Tx Document := do
  if !user.hasPerm "documents.delete_document" then
    throw (.permissionDenied "You do not have permission to delete documents.")
  let d ← ask .http404 fun s => s.documents.rows.find? fun d => d.pk = document ∧
    d.deletedAt = none ∧ (d.uploadedBy = user.pk ∨ user.hasPerm "documents.view_all_documents")
  if d.legalHold then
    throw (.permissionDenied "Document is subject to a legal hold and cannot be deleted.")
  if (strip reason).length < 10 then
    throw (.validationError "Deletion reason must be at least 10 characters.")
  return d

/-! ## The schedules -/

/-- `pending_disposal` -/
def Store.pendingDisposal (cfg : Settings) (s : Store) : List ℕ :=
  (s.documents.rows.filter fun d => d.expiresAt.any (· ≤ s.now) ∧
    d.retainUntil.any (· ≤ cfg.localdate s.now) ∧ ¬ d.legalHold ∧ d.deletedAt = none).map (·.pk)

/-- `pending_hard_delete`, whose grace period is not read from the settings -/
def Store.pendingHardDelete (s : Store) : List ℕ :=
  (s.documents.rows.filter fun d => d.deletedAt.any (· + days 30 ≤ s.now) ∧
    d.scanStatus = .deleted ∧ ¬ d.legalHold).map (·.pk)

/-- The rows of the next chunk, in the order of the keys, and the keys after it. -/
def Store.nextChunk (s : Store) (pks : List ℕ) : List Document × List ℕ :=
  ((pks.take 500).filterMap s.documents.get, pks.drop 500)

end Civicos.Documents
