import Civicos.Library.Chained
import Civicos.Library.Json
import Civicos.Library.Machine
import Civicos.Payments.Values

/-!
# The audit log

Entries are only appended. Each is hashed as the caller has given it, together with the hash of the
entry that its writer has looked up; the database may store some columns in another form.
-/
namespace Civicos.Audit

open Library
open Payments (strip)

abbrev Instant := ℕ

/-- A JSON document -/
abbrev Detail := List (String × Value)

/-! ## Entries -/

/-- The columns that a writer gives -/
structure Draft where
  eventType : String
  outcome : String := "success"
  actorId : Option String := none
  actorEmail : String := ""
  actorIp : Option String := none
  actorUserAgent : String := ""
  resourceType : String := ""
  resourceId : String := ""
  beforeState : Option Detail := none
  afterState : Option Detail := none
  eventDetail : Detail := []
  requestId : String := ""
  sessionId : String := ""
deriving DecidableEq, Repr

/-- `_compute_hash` -/
def Draft.computeHash (d : Draft) (prevHash : String) : String :=
  sha256 <| dumpsObject [("event_type", dumpsText d.eventType), ("outcome", dumpsText d.outcome),
    ("actor_id", (Value.ofOption d.actorId).dumps), ("actor_ip", (Value.ofOption d.actorIp).dumps),
    ("resource_type", dumpsText d.resourceType), ("resource_id", dumpsText d.resourceId),
    ("event_detail", dumps d.eventDetail), ("prev_hash", dumpsText prevHash)]

structure AuditLogEntry extends Draft where
  id : ℕ
  timestamp : Instant
  prevHash : String
  entryHash : String
deriving DecidableEq, Repr

/-- What is not code of this program: how an address is masked, and how the database gives back an
address that is not empty, and a JSON document. -/
structure Platform where
  maskAddress : String → Option String
  storedAddress : String → String
  storedDetail : Detail → Detail

namespace Platform

/-- An empty address is stored as `NULL`. -/
def storedIp (p : Platform) : Option String → Option String
  | none | some "" => none
  | some ip => some (p.storedAddress ip)

/-- `_mask_ip` -/
def maskIp (p : Platform) (ip : String) : String :=
  if ip = "" then "0.0.0.0" else (p.maskAddress ip).getD "0.0.0.0"

/-- `save` and the row that it leaves -/
def save (p : Platform) (d : Draft) (id : ℕ) (timestamp : Instant) (prevHash : String) :
    AuditLogEntry where
  toDraft := { d with
    actorIp := p.storedIp d.actorIp
    eventDetail := p.storedDetail d.eventDetail }
  id
  timestamp
  prevHash
  entryHash := d.computeHash prevHash

end Platform

/-! ## Writers -/

structure User where
  pk : String
  email : String
deriving DecidableEq, Repr

/-- `request.audit_context` -/
structure AuditContext where
  actorId : Option String
  actorIp : String
  actorUserAgent : String
  requestId : String
deriving DecidableEq, Repr

/-- A request; `user` is the one who is authenticated. -/
structure Request where
  user : Option User := none
  auditContext : Option AuditContext := none
  remoteAddr : Option String := none
  forwardedFor : Option String := none
  behindProxy : Bool := false
  userAgent : String := ""
  requestId : String := ""
  sessionKey : Option String := none
deriving DecidableEq, Repr

namespace Request

def userPk (r : Request) : Option String := r.user.map (·.pk)

/-- The first address of the header -/
def forwardedIp (r : Request) : Option String :=
  if r.behindProxy then
    (r.forwardedFor.filter (· ≠ "")).map fun text =>
      strip (String.ofList (text.toList.takeWhile (· ≠ ',')))
  else none

/-- `_get_client_ip` -/
def clientIp (r : Request) : Option String :=
  r.forwardedIp.or (r.remoteAddr.filter (· ≠ ""))

/-- What `AuditMiddleware` attaches -/
def context (r : Request) : AuditContext where
  actorId := r.userPk
  actorIp := r.forwardedIp.getD (r.remoteAddr.getD "")
  actorUserAgent := String.ofList (r.userAgent.toList.take 512)
  requestId := r.requestId

end Request

/-- How a writer looks for the entry before its own -/
inductive Lookup where
  | byId
  | byTimestamp
  | none
deriving DecidableEq, Repr

inductive Writer where
  | recordEvent (d : Draft)
  | recordEventFromRequest (request : Request) (eventType outcome : String)
      (actorEmail : Option String) (resourceType resourceId : String)
      (beforeState afterState : Option Detail) (eventDetail : Detail)
  | portal (serviceRequest : ℕ) (eventType : String) (actor : Option String) (detail : Detail)
  | forms (request : Request) (submission formPage : ℕ) (pageSlug : String)
  | volunteers (request : Request) (eventType resourceId resourceType : String) (detail : Detail)
  | authView (request : Request) (user : User) (eventType : String) (detail : Detail)
  | authSignal (request : Request) (user : Option User) (eventType outcome : String)
  | loginFailed (request : Request)
  | anonymizeVolunteer (profile notes applications : ℕ) (dryRun : Bool)
deriving DecidableEq, Repr

/-- What `record_event_from_request` gives to `record_event` -/
def draftFromRequest (request : Request) (eventType outcome : String) (actorEmail : Option String)
    (resourceType resourceId : String) (beforeState afterState : Option Detail)
    (eventDetail : Detail) : Draft where
  eventType
  outcome
  actorId := ((request.auditContext.bind (·.actorId)).filter (· ≠ "")).or request.userPk
  actorEmail := actorEmail.getD ((request.user.map (·.email)).getD "")
  actorIp := some ((request.auditContext.map (·.actorIp)).getD "")
  actorUserAgent := (request.auditContext.map (·.actorUserAgent)).getD ""
  resourceType
  resourceId
  beforeState
  afterState
  eventDetail
  requestId := (request.auditContext.map (·.requestId)).getD ""
  sessionId := request.sessionKey.getD ""

/-- `_write_audit` of the portal -/
def portalDraft (serviceRequest : ℕ) (eventType : String) (actor : Option String)
    (detail : Detail) : Draft where
  eventType
  actorId := some (actor.getD "")
  resourceType := "portal.ServiceRequest"
  resourceId := toString serviceRequest
  eventDetail := detail

/-- `_write_audit` of the redaction of a submission -/
def formsDraft (p : Platform) (request : Request) (submission formPage : ℕ) (pageSlug : String) :
    Draft where
  eventType := "admin.pii.redacted"
  actorId := some (request.userPk.getD "None")
  actorIp := some (p.maskIp (request.remoteAddr.getD ""))
  actorUserAgent := String.ofList (request.userAgent.toList.take 255)
  resourceType := "forms.FormSubmission"
  resourceId := toString submission
  eventDetail := [("page_id", .int formPage), ("page_slug", .str pageSlug)]
  sessionId := request.sessionKey.getD ""

/-- `_write_volunteer_audit` -/
def volunteersDraft (p : Platform) (request : Request) (eventType resourceId resourceType : String)
    (detail : Detail) : Draft where
  eventType
  actorId := some (request.userPk.getD "None")
  actorIp := ((request.forwardedIp.filter (· ≠ "")).or
    (request.remoteAddr.filter (· ≠ ""))).map p.maskIp
  actorUserAgent := String.ofList (request.userAgent.toList.take 512)
  resourceType
  resourceId
  eventDetail := detail
  requestId := request.requestId
  sessionId := request.sessionKey.getD ""

/-- `_write_audit` of the views of accounts -/
def authViewDraft (p : Platform) (request : Request) (user : User) (eventType : String)
    (detail : Detail) : Draft where
  eventType
  actorId := some user.pk
  actorEmail := user.email
  actorIp := some (p.maskIp (request.clientIp.getD ""))
  actorUserAgent := String.ofList (request.userAgent.toList.take 512)
  resourceType := "User"
  resourceId := user.pk
  eventDetail := detail
  requestId := request.requestId
  sessionId := request.sessionKey.getD ""

/-- `_write_audit` of the signals of accounts -/
def authSignalDraft (p : Platform) (request : Request) (user : Option User)
    (eventType outcome : String) : Draft where
  eventType
  outcome
  actorId := user.map (·.pk)
  actorEmail := (user.map (·.email)).getD ""
  actorIp := some (p.maskIp (request.clientIp.getD ""))
  actorUserAgent := String.ofList (request.userAgent.toList.take 512)
  resourceType := "auth_extension.User"
  resourceId := (user.map (·.pk)).getD ""
  requestId := request.requestId
  sessionId := request.sessionKey.getD ""

/-- `on_login_failure` -/
def loginFailedDraft (p : Platform) (request : Request) : Draft where
  eventType := "auth.login.failed"
  outcome := "failure"
  actorIp := some (p.maskIp (request.clientIp.getD ""))
  actorUserAgent := String.ofList (request.userAgent.toList.take 512)
  resourceType := "auth_extension.User"
  requestId := request.requestId

def anonymizeVolunteerDraft (profile notes applications : ℕ) (dryRun : Bool) : Draft where
  eventType := "data.deleted"
  actorUserAgent := "management-command/anonymize_volunteer"
  resourceType := "volunteers.VolunteerProfile"
  resourceId := toString profile
  eventDetail := [("action", .str "pipeda_erasure"),
    ("fields_anonymized", .json ("[" ++ ", ".intercalate (["preferred_name", "phone_number",
      "date_of_birth", "emergency_contact_name", "emergency_contact_phone",
      "emergency_contact_relationship", "accommodation_notes", "sin_encrypted", "sin_last4",
      "photo", "photo_consent_id"].map dumpsText) ++ "]")),
    ("notes_redacted", .int notes), ("applications_redacted", .int applications),
    ("dry_run", .bool dryRun)]

namespace Writer

def draft (p : Platform) : Writer → Draft
  | recordEvent d => d
  | recordEventFromRequest request eventType outcome actorEmail resourceType resourceId beforeState
      afterState eventDetail =>
    draftFromRequest request eventType outcome actorEmail resourceType resourceId beforeState
      afterState eventDetail
  | portal serviceRequest eventType actor detail =>
    portalDraft serviceRequest eventType actor detail
  | forms request submission formPage pageSlug => formsDraft p request submission formPage pageSlug
  | volunteers request eventType resourceId resourceType detail =>
    volunteersDraft p request eventType resourceId resourceType detail
  | authView request user eventType detail => authViewDraft p request user eventType detail
  | authSignal request user eventType outcome => authSignalDraft p request user eventType outcome
  | loginFailed request => loginFailedDraft p request
  | anonymizeVolunteer profile notes applications dryRun =>
    anonymizeVolunteerDraft profile notes applications dryRun

def lookup : Writer → Lookup
  | recordEvent _ | recordEventFromRequest .. => .byId
  | volunteers .. | authView .. | anonymizeVolunteer .. => .byTimestamp
  | portal .. | forms .. | authSignal .. | loginFailed _ => .none

end Writer

/-! ## Verification -/

structure Violation where
  entryId : ℕ
  reason : String
deriving DecidableEq, Repr

structure ChainVerificationResult where
  ok : Bool := true
  entriesChecked : ℕ := 0
  violations : List Violation := []
deriving DecidableEq, Repr

namespace ChainVerificationResult

def addViolation (r : ChainVerificationResult) (entryId : ℕ) (reason : String) :
    ChainVerificationResult :=
  { r with
    ok := false
    violations := r.violations ++ [⟨entryId, reason⟩] }

/-- A text between quotes, as messages show it -/
def quoted (text : String) : String := "'" ++ text ++ "'"

/-- One row: its link to the row before, and its own hash -/
def check (r : ChainVerificationResult) (expectedPrevHash : String) (row : AuditLogEntry) :
    ChainVerificationResult :=
  let r := { r with entriesChecked := r.entriesChecked + 1 }
  let r := if row.prevHash ≠ expectedPrevHash then
    r.addViolation row.id ("prev_hash mismatch: expected " ++ quoted expectedPrevHash ++
      ", stored " ++ quoted row.prevHash) else r
  let recomputed := row.computeHash row.prevHash
  if row.entryHash ≠ recomputed then
    r.addViolation row.id ("entry_hash mismatch: stored " ++ quoted row.entryHash ++
      ", recomputed " ++ quoted recomputed)
  else r

/-- The rows of a batch; the hash that is stored in the last one is expected next. -/
def checkAll (r : ChainVerificationResult) (expectedPrevHash : String) :
    List AuditLogEntry → ChainVerificationResult × String
  | [] => (r, expectedPrevHash)
  | row :: rows => (r.check expectedPrevHash row).checkAll row.entryHash rows

/-- The loop over the batches; `fuel` bounds their number. -/
def batches (batchSize : ℕ) : ℕ → ChainVerificationResult → String → List AuditLogEntry →
    ChainVerificationResult
  | 0, r, _, _ => r
  | fuel + 1, r, expectedPrevHash, rows =>
    match rows.take batchSize with
    | [] => r
    | batch =>
      let (r, expectedPrevHash) := r.checkAll expectedPrevHash batch
      batches batchSize fuel r expectedPrevHash (rows.drop batchSize)

end ChainVerificationResult

/-- The table, in the order of the identifiers -/
abbrev Log := List AuditLogEntry

def verifyChain (s : Log) (startId endId : Option ℕ) (batchSize : ℕ) : ChainVerificationResult :=
  let rows := s.filter fun e => startId.all (· ≤ e.id) && endId.all (e.id ≤ ·)
  ChainVerificationResult.batches batchSize (rows.length + 1) {} "" rows

/-! ## Runs -/

/-- One call, with the clock at the insertion, the entry that the writer has found and the numbers
that the sequence has given out in vain; whatever it raises is caught, and then nothing is
written. -/
structure Step where
  writer : Writer
  timestamp : Instant
  found : Option ℕ := none
  skipped : ℕ := 0
  fails : Bool := false

/-- What the database may return to a writer: of several entries with the newest timestamp, any. -/
def Lookup.Finds (s : Log) : Lookup → Option ℕ → Prop
  | byId, found => found = s.getLast?.map (·.id)
  | byTimestamp, some i => ∃ e ∈ s, e.id = i ∧ ∀ e' ∈ s, e'.timestamp ≤ e.timestamp
  | byTimestamp, Option.none => s = []
  | none, found => found = Option.none

instance (s : Log) : (lookup : Lookup) → (found : Option ℕ) → Decidable (lookup.Finds s found)
  | .byId, _ => inferInstanceAs (Decidable (_ = _))
  | .byTimestamp, some _ => inferInstanceAs (Decidable (∃ e ∈ s, _ ∧ ∀ e' ∈ s, _))
  | .byTimestamp, none => inferInstanceAs (Decidable (s = []))
  | .none, _ => inferInstanceAs (Decidable (_ = _))

/-- The hash of the entry that has been found -/
def hashOf (s : Log) (found : Option ℕ) : String :=
  ((found.bind fun i => s.find? (·.id = i)).map (·.entryHash)).getD ""

def nextId (s : Log) : ℕ := (s.getLast?.map (·.id + 1)).getD 1

namespace Step

def draft (p : Platform) (l : Step) : Draft := l.writer.draft p

/-- The row that a call adds -/
def entry (p : Platform) (s : Log) (l : Step) : AuditLogEntry :=
  p.save (l.draft p) (nextId s + l.skipped) l.timestamp (hashOf s l.found)

def run (p : Platform) (s : Log) (l : Step) : Option Log :=
  if l.fails then some s
  else if l.writer.lookup.Finds s l.found then some (s ++ [l.entry p s])
  else none

end Step

/-- One call after the other, on an empty table -/
def log (p : Platform) : Machine Log Step where
  Init s := s = []
  step := Step.run p

end Civicos.Audit
