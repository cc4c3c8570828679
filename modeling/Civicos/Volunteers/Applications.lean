import Civicos.Library.Pool
import Civicos.Volunteers.Store

/-!
# Applications

A volunteer applies to an opportunity, and may withdraw; a coordinator approves or rejects. There is
one row for each opportunity and volunteer: whoever applies again after a withdrawal uses it again.
-/
namespace Civicos.Volunteers.Applications

open Library Library.Transaction

/-! ## Rows -/

structure Program where
  pk : ℕ
  coordinator : Option ℕ
deriving DecidableEq, Repr

inductive OpportunityStatus where
  | draft
  | published
  | closed
  | archived
deriving DecidableEq, Repr

def OpportunityStatus.display : OpportunityStatus → String
  | draft => "Draft"
  | published => "Published"
  | closed => "Closed — not accepting applications"
  | archived => "Archived"

structure Opportunity where
  pk : ℕ
  program : ℕ
  status : OpportunityStatus := .published
  closesAt : Option Instant := none
deriving DecidableEq, Repr

def Opportunity.isAcceptingApplications (o : Opportunity) (now : Instant) : Bool :=
  o.status = .published ∧ ¬ o.closesAt.any (· < now)

inductive ApplicationStatus where
  | pending
  | inReview
  | approved
  | rejected
  | withdrawn
  | waitlisted
deriving DecidableEq, Repr

namespace ApplicationStatus

/-- The statuses from which a coordinator may decide. -/
def undecided : ApplicationStatus → Bool
  | pending | inReview | waitlisted => true
  | _ => false

/-- `_WITHDRAWABLE` -/
def withdrawable : ApplicationStatus → Bool
  | pending | approved => true
  | _ => false

end ApplicationStatus

structure ApplicationState where
  status : ApplicationStatus := .pending
  motivation : String := ""
  consentRecord : Option ℕ := none
  reviewedBy : Option ℕ := none
  reviewedAt : Option Instant := none
  rejectionReason : String := ""
deriving DecidableEq, Repr

structure VolunteerApplication extends ApplicationState where
  pk : ℕ
  opportunity : ℕ
  volunteer : ℕ
deriving DecidableEq, Repr

namespace VolunteerApplication

/-- `unique_together` -/
def opportunityVolunteer : Index VolunteerApplication where
  name := "volunteers_volunteerapplication_opportunity_id_volunteer_id_uniq"
  Key := ℕ × ℕ
  key a := some (a.opportunity, a.volunteer)

def schema : Schema VolunteerApplication where
  pk := pk
  indexes := [opportunityVolunteer]

def withState (f : VolunteerApplication → ApplicationState) (a : VolunteerApplication) :
    VolunteerApplication :=
  { a with toApplicationState := f a }

theorem preserves (f : VolunteerApplication → ApplicationState) :
    schema.Preserves (withState f) where
  pk _ := rfl
  key i hi a := by
    obtain rfl := List.mem_singleton.mp hi
    rfl
  valid _ _ c hc := by cases hc

def of (opportunity volunteer : ℕ) (a : VolunteerApplication) : Bool :=
  a.opportunity = opportunity ∧ a.volunteer = volunteer

end VolunteerApplication

/-- The user who calls; `changeVolunteerapplication` is what `has_perm` says. -/
structure Actor where
  pk : ℕ
  changeVolunteerapplication : Bool := false
  isSuperuser : Bool := false
deriving DecidableEq, Repr

/-- What has happened to an application. -/
inductive Entry where
  | submitted
  | decided (actor : Actor)
  | withdrawn
deriving DecidableEq, Repr

/-- `trail` records what has happened to which application. -/
structure Store where
  now : Instant := 0
  programs : List Program := []
  opportunities : List Opportunity := []
  applications : Numbered VolunteerApplication.schema := .empty
  trail : List (ℕ × Entry) := []

abbrev Tx := Transaction VolunteerError Store

namespace Store

def applicationTable : Lens Store (Numbered VolunteerApplication.schema) where
  get s := s.applications
  set t s := { s with applications := t }
  get_set _ _ := rfl
  set_get _ := rfl
  set_set _ _ _ := rfl

/-- `opportunity.program.coordinator_id` -/
def coordinatorOf (opportunity : ℕ) (s : Store) : Option ℕ := do
  let o ← s.opportunities.find? (·.pk = opportunity)
  let p ← s.programs.find? (·.pk = o.program)
  p.coordinator

end Store

def applicationOf (application : ℕ) : Tx VolunteerApplication :=
  fetch Store.applicationTable (.doesNotExist "VolunteerApplication") application

def saveApplication (application : ℕ) (f : VolunteerApplication → ApplicationState) : Tx Unit :=
  rewriteRows Store.applicationTable (·.pk = application) (.withState f)
    (VolunteerApplication.preserves f)

def record (application : ℕ) (e : Entry) : Tx Unit :=
  modify fun s => { s with trail := s.trail ++ [(application, e)] }

/-! ## `apply` -/

/-- The instances are those of the caller. -/
structure Submission where
  volunteerProfile : VolunteerProfile
  opportunity : Opportunity
  motivation : String := ""
  consentRecord : Option ℕ := none
  actor : Actor
deriving DecidableEq

def alreadyActive : VolunteerError :=
  .validationError "opportunity" "You already have an active application for this opportunity."

namespace Submission

/-- The row of the opportunity and the volunteer -/
def matching (c : Submission) (a : VolunteerApplication) : Bool :=
  a.of c.opportunity.pk c.volunteerProfile.pk

/-- The filter of the lookup of a row that may be used again -/
def reusable (c : Submission) (a : VolunteerApplication) : Bool :=
  c.matching a && a.status = .withdrawn

def state (c : Submission) : ApplicationState where
  motivation := c.motivation
  consentRecord := c.consentRecord

/-- Everything up to the look for an active application -/
def checks (c : Submission) : Tx Unit := do
  if c.volunteerProfile.user ≠ c.actor.pk then
    throw (.permissionDenied ("User #" ++ toString c.actor.pk ++
      " cannot apply on behalf of VolunteerProfile #" ++ toString c.volunteerProfile.pk ++ "."))
  let s ← get
  if ¬ c.opportunity.isAcceptingApplications s.now then
    throw (.validationError "opportunity" ("Opportunity #" ++ toString c.opportunity.pk ++
      " is not currently accepting applications (status: " ++ c.opportunity.status.display ++ ")."))
  if s.applications.rows.any fun a => c.matching a && a.status ≠ .withdrawn then throw alreadyActive

end Submission

/-- The rest of `apply`: `seen` is the withdrawn row that the second look has found, and it is
looked at again once it is locked. -/
def submit (c : Submission) (seen : Option ℕ) : Tx Unit := do
  let s ← get
  match (seen.bind s.applications.get).filter c.reusable with
  | some a =>
    saveApplication a.pk fun _ => c.state
    record a.pk .submitted
  | none =>
    -- `full_clean` finds a row that somebody else has submitted in the meantime
    if s.applications.rows.any c.matching then
      throw (.validationError "__all__"
        "Volunteer application with this Opportunity and Volunteer already exists.")
    let a ← append Store.applicationTable (fun _ => alreadyActive) fun pk =>
      { toApplicationState := c.state
        pk
        opportunity := c.opportunity.pk
        volunteer := c.volunteerProfile.pk }
    record a.pk .submitted

/-! ## `withdraw` -/

/-- `owner` is the user of the volunteer. -/
def withdraw (application owner : ℕ) (actor : Actor) : Tx Unit := do
  if owner ≠ actor.pk then
    throw (.permissionDenied ("Only the volunteer themselves may perform this action (application #"
      ++ toString application ++ ")."))
  let a ← applicationOf application
  if ¬ a.status.withdrawable then
    throw (.validationError "status" "This application cannot be withdrawn in its current state.")
  saveApplication a.pk fun a => { a.toApplicationState with status := .withdrawn }
  record a.pk .withdrawn

/-! ## Decisions -/

/-- What `approve_application` and `reject_application` have in common. -/
def decideApplication (verb : String) (application : ℕ) (actor : Actor)
    (f : Instant → VolunteerApplication → ApplicationState) : Tx Unit := do
  if ¬ actor.changeVolunteerapplication then
    throw (.permissionDenied ("User #" ++ toString actor.pk ++
      " does not have 'volunteers.change_volunteerapplication'."))
  let a ← applicationOf application
  let s ← get
  if ¬ actor.isSuperuser ∧ s.coordinatorOf a.opportunity ≠ some actor.pk then
    throw (.permissionDenied ("User #" ++ toString actor.pk ++
      " does not coordinate the programme for application #" ++ toString a.pk ++ "."))
  if ¬ a.status.undecided then
    throw (.validationError "status"
      ("This application cannot be " ++ verb ++ " from its current state."))
  saveApplication a.pk (f s.now)
  record a.pk (.decided actor)

def approveApplication (application : ℕ) (actor : Actor) : Tx Unit :=
  decideApplication "approved" application actor fun now a =>
    { a.toApplicationState with
      status := .approved
      reviewedBy := some actor.pk
      reviewedAt := some now }

def rejectApplication (application : ℕ) (rejectionReason : String) (actor : Actor) : Tx Unit :=
  decideApplication "rejected" application actor fun now a =>
    { a.toApplicationState with
      status := .rejected
      rejectionReason
      reviewedBy := some actor.pk
      reviewedAt := some now }

/-! ## Any number of calls -/

inductive Operation where
  | withdraw (application owner : ℕ) (actor : Actor)
  | approve (application : ℕ) (actor : Actor)
  | reject (application : ℕ) (rejectionReason : String) (actor : Actor)
deriving DecidableEq

def Operation.run : Operation → Tx Unit
  | withdraw application owner actor => Applications.withdraw application owner actor
  | approve application actor => approveApplication application actor
  | reject application rejectionReason actor => rejectApplication application rejectionReason actor

/-- A call between two blocks. -/
inductive Worker where
  | applying (c : Submission)
  | looking (c : Submission)
  | submitting (c : Submission) (seen : Option ℕ)
  | calling (op : Operation)
  | returned
  | raised (e : VolunteerError)
  | dead
deriving DecidableEq

namespace Worker

def entry : Worker → Bool
  | applying _ | calling _ => true
  | _ => false

/-- Run a block, and go on with `w` when it returns. -/
def next (x : Tx Unit) (w : Worker) (s : Store) : Store × Worker :=
  match commit x s with
  | (.ok _, t) => (t, w)
  | (.error e, t) => (t, raised e)

def act (s : Store) : Worker → Option (Store × Worker)
  | applying c => some (next c.checks (looking c) s)
  | looking c => some (s, submitting c ((s.applications.rows.find? c.reusable).map (·.pk)))
  | submitting c seen => some (next (submit c seen) returned s)
  | calling op => some (next op.run returned s)
  | returned | raised _ | dead => none

end Worker

/-- Any number of calls, while time passes; nobody has applied yet. -/
def applications : Library.Program Store Worker Unit ℕ where
  Init s := s.applications = .empty ∧ s.trail = []
  entry := Worker.entry
  halted := .dead
  act s w _ := w.act s
  env s time := some { s with now := s.now + time }

end Civicos.Volunteers.Applications
