import Civicos.Library.Pool
import Civicos.Library.Transaction

/-!
# The portal: one service request

Staff move a service request from status to status, and its citizen cancels it. Both check the
instance that their view has loaded, and save its status to the row.
-/
namespace Civicos.Portal

open Library Library.Transaction

/-! ## Rows -/

inductive ServiceRequestStatus where
  | draft
  | submitted
  | inReview
  | awaitingInfo
  | approved
  | rejected
  | closed
deriving DecidableEq, Repr

namespace ServiceRequestStatus

def value : ServiceRequestStatus → String
  | draft => "draft"
  | submitted => "submitted"
  | inReview => "in_review"
  | awaitingInfo => "awaiting_info"
  | approved => "approved"
  | rejected => "rejected"
  | closed => "closed"

/-- The status with the value, if it is one of `ServiceRequestStatus.values` -/
def ofValue (s : String) : Option ServiceRequestStatus :=
  [draft, submitted, inReview, awaitingInfo, approved, rejected, closed].find? (·.value = s)

/-- `is_terminal` -/
def isTerminal : ServiceRequestStatus → Bool
  | approved | rejected | closed => true
  | _ => false

/-- `can_be_cancelled` -/
def canBeCancelled : ServiceRequestStatus → Bool
  | draft | submitted | inReview | awaitingInfo => true
  | _ => false

end ServiceRequestStatus

structure ServiceRequest where
  pk : ℕ
  referenceNumber : String
  citizen : ℕ
  status : ServiceRequestStatus := .submitted
deriving DecidableEq, Repr

/-- The first row of a request leaves the old status blank. -/
structure StatusUpdate where
  oldStatus : Option ServiceRequestStatus
  newStatus : ServiceRequestStatus
  changedBy : ℕ
  publicNote : String
deriving DecidableEq, Repr

/-- What is left to do after the commit -/
inductive Effect where
  | notify (citizen : ℕ) (requestReference : String) (newStatus : ServiceRequestStatus)
  | audit (eventType : String) (actor resource : ℕ)
    (detail : Option (Option ServiceRequestStatus × ServiceRequestStatus))
deriving DecidableEq, Repr

/-- One request with its updates, the oldest first. `cancelledIn` lists the status of the row at
each cancellation by the citizen that succeeds; no code reads it. -/
structure Store where
  request : ServiceRequest
  updates : List StatusUpdate
  effects : List Effect := []
  cancelledIn : List ServiceRequestStatus := []
deriving DecidableEq

inductive PortalError where
  | permissionError (message : String)
  | valueError (message : String)
deriving DecidableEq, Repr

abbrev Tx := Transaction PortalError Store

/-! ## The services -/

def createdNote : String :=
  "Your request has been received and will be reviewed shortly. / " ++
    "Votre demande a été reçue et sera examinée prochainement."

/-- `create_service_request` -/
def createServiceRequest (pk citizen : ℕ) (referenceNumber : String) : Store where
  request := { pk, referenceNumber, citizen }
  updates := [{
    oldStatus := none
    newStatus := .submitted
    changedBy := citizen
    publicNote := createdNote }]
  effects := [.notify citizen referenceNumber .submitted,
    .audit "workflow.submission.received" citizen pk none]

/-- The checks of `update_request_status` -/
def checkTransition (i : ServiceRequest) (newStatus : String) :
    Except PortalError ServiceRequestStatus :=
  match ServiceRequestStatus.ofValue newStatus with
  | none => .error (.valueError ("Invalid status: " ++ newStatus))
  | some new =>
    if i.status = new then
      .error (.valueError ("Request is already in status " ++ new.value))
    else if i.status = .closed then
      .error (.valueError "Cannot transition from a closed request")
    else if i.status.isTerminal ∧ new ≠ .closed then
      .error (.valueError ("Cannot transition from terminal status " ++ i.status.value ++ " to " ++
        new.value))
    else .ok new

/-- The instance `i` is what the caller has loaded. -/
def updateRequestStatus (i : ServiceRequest) (newStatus : String) (changedBy : ℕ)
    (publicNote : String) : Tx Unit := do
  let new ← checkTransition i newStatus
  modify fun s => { s with request := { s.request with status := new } }
  modify fun s => { s with
    updates := s.updates ++ [{
      oldStatus := some i.status
      newStatus := new
      changedBy
      publicNote }] }
  modify fun s => { s with
    effects := s.effects ++ [.notify i.citizen i.referenceNumber new,
      .audit "workflow.status.changed" changedBy i.pk (some (some i.status, new))] }

/-- The checks of `cancel_service_request` -/
def checkCancellation (i : ServiceRequest) (citizen : ℕ) : Except PortalError Unit :=
  if i.citizen ≠ citizen then
    .error (.permissionError "You can only cancel your own requests.")
  else if i.status.canBeCancelled = false then
    .error (.valueError ("Request " ++ i.referenceNumber ++
      " cannot be cancelled (current status: " ++ i.status.value ++ ")"))
  else .ok ()

def cancelServiceRequest (i : ServiceRequest) (citizen : ℕ) (reason : String) : Tx Unit := do
  checkCancellation i citizen
  modify fun s => { s with cancelledIn := s.cancelledIn ++ [s.request.status] }
  updateRequestStatus i ServiceRequestStatus.closed.value citizen
    ("Request cancelled by citizen. / Demande annulée par le citoyen." ++
      if reason = "" then "" else " Reason: " ++ reason)

/-! ## Any number of views -/

inductive Call where
  | update (newStatus : String) (changedBy : ℕ) (publicNote : String)
  | cancel (citizen : ℕ) (reason : String)
deriving DecidableEq

def Call.run (i : ServiceRequest) : Call → Tx Unit
  | update newStatus changedBy publicNote => updateRequestStatus i newStatus changedBy publicNote
  | cancel citizen reason => cancelServiceRequest i citizen reason

/-- A view before and after it has loaded the request -/
inductive View where
  | called (c : Call)
  | loaded (c : Call) (i : ServiceRequest)
  | returned
  | raised (e : PortalError)
  | dead
deriving DecidableEq

namespace View

def entry : View → Bool
  | called _ => true
  | _ => false

def finish (x : Tx Unit) (s : Store) : Store × View :=
  match commit x s with
  | (.ok _, t) => (t, returned)
  | (.error e, t) => (t, raised e)

def act (s : Store) : View → Option (Store × View)
  | called c => some (s, loaded c s.request)
  | loaded c i => some (finish (c.run i) s)
  | returned | raised _ | dead => none

end View

/-- A request that has just been created, and any number of views. -/
def portal : Program Store View Unit Empty where
  Init s := ∃ pk citizen referenceNumber, s = createServiceRequest pk citizen referenceNumber
  entry := View.entry
  halted := .dead
  act s v _ := v.act s
  env _ := nofun

end Civicos.Portal
