import Civicos.Library.Calendar
import Civicos.Library.Pool
import Civicos.Library.Transaction

/-!
# Workflows: one work item

Staff claim a work item, assign it, advance its status and escalate it. Every service function
checks the instance that its caller has loaded, and then saves the columns that it has set.
-/
namespace Civicos.Workflows

open Library Library.Transaction

/-- Microseconds -/
abbrev Instant := ℕ

/-! ## Rows -/

structure User where
  pk : ℕ
  isStaff : Bool := false
  displayName : String := ""
deriving DecidableEq, Repr

inductive WorkItemStatus where
  | pending
  | inProgress
  | waiting
  | completed
  | cancelled
deriving DecidableEq, Repr

namespace WorkItemStatus

def value : WorkItemStatus → String
  | pending => "pending"
  | inProgress => "in_progress"
  | waiting => "waiting"
  | completed => "completed"
  | cancelled => "cancelled"

/-- `WorkItemStatus(value)` -/
def ofValue (s : String) : Option WorkItemStatus :=
  [pending, inProgress, waiting, completed, cancelled].find? (·.value = s)

/-- `TERMINAL_STATUSES` -/
def terminal : WorkItemStatus → Bool
  | completed | cancelled => true
  | _ => false

/-- `VALID_TRANSITIONS` -/
def validTransitions : WorkItemStatus → List WorkItemStatus
  | pending => [inProgress, cancelled]
  | inProgress => [waiting, completed, cancelled]
  | waiting => [inProgress, cancelled]
  | completed => []
  | cancelled => []

end WorkItemStatus

structure WorkItem where
  title : String
  status : WorkItemStatus := .pending
  assignedTo : Option User := none
  dueAt : Option Instant := none
  slaBreachedAt : Option Instant := none
  escalationLevel : ℕ := 0
  escalatedAt : Option Instant := none
  completedAt : Option Instant := none
deriving DecidableEq, Repr

namespace WorkItem

def canTransitionTo (i : WorkItem) (new : WorkItemStatus) : Bool := new ∈ i.status.validTransitions

end WorkItem

inductive Action where
  | created
  | claimed
  | assigned
  | statusChangedTo (status : WorkItemStatus)
  | escalated
  | slaBreached
deriving DecidableEq, Repr

def Action.value : Action → String
  | created => "created"
  | claimed => "claimed"
  | assigned => "assigned"
  | statusChangedTo status => "status_changed_to_" ++ status.value
  | escalated => "escalated"
  | slaBreached => "sla_breached"

/-- A row of the history; rows that are not about the status leave both statuses blank. -/
structure WorkItemHistory where
  action : Action
  oldStatus : Option WorkItemStatus := none
  newStatus : Option WorkItemStatus := none
  actor : Option ℕ
  notes : String := ""
deriving DecidableEq, Repr

/-- One work item with its history, oldest row first. `claims` counts the claims since the item was
last released. -/
structure Store where
  now : Instant := 0
  item : WorkItem
  history : List WorkItemHistory := []
  claims : ℕ := 0
deriving DecidableEq, Repr

inductive WorkflowError where
  | permissionError (message : String)
  | valueError (message : String)
deriving DecidableEq, Repr

abbrev Tx := Transaction WorkflowError Store

/-! ## The services -/

/-- `save(update_fields=...)`: `f` sets the columns that are named. -/
def saveItem (f : WorkItem → WorkItem) : Tx Unit := modify fun s => { s with item := f s.item }

/-- `_record_history` -/
def recordHistory (row : WorkItemHistory) : Tx Unit :=
  modify fun s => { s with history := s.history ++ [row] }

def countClaim : Tx Unit := modify fun s => { s with claims := s.claims + 1 }

/-- The instance `i` is what the caller has loaded. -/
def claimWorkItem (i : WorkItem) (actor : User) : Tx Unit := do
  if ¬ actor.isStaff then throw (.permissionError "Only staff users can claim work items.")
  if let some assignee := i.assignedTo then
    throw (.valueError ("Work item '" ++ i.title ++ "' is already assigned to " ++
      assignee.displayName ++ "."))
  if i.status.terminal then
    throw (.valueError ("Cannot claim a " ++ i.status.value ++ " work item."))
  saveItem fun row => { row with
    assignedTo := some actor
    status := .inProgress }
  countClaim
  recordHistory {
    action := .claimed
    oldStatus := some i.status
    newStatus := some .inProgress
    actor := some actor.pk }

def assignWorkItem (i : WorkItem) (assignee actor : User) : Tx Unit := do
  if ¬ actor.isStaff then throw (.permissionError "Only staff users can assign work items.")
  if i.status.terminal then
    throw (.valueError ("Cannot reassign a " ++ i.status.value ++ " work item."))
  if ¬ assignee.isStaff then
    throw (.valueError "Work items may only be assigned to staff users.")
  saveItem fun row => { row with assignedTo := some assignee }
  recordHistory {
    action := .assigned
    actor := some actor.pk
    notes := "Assigned to " ++ assignee.displayName }

def updateWorkItemStatus (i : WorkItem) (newStatus : String) (actor : User) (notes : String) :
    Tx Unit := do
  if ¬ actor.isStaff then
    throw (.permissionError "Only staff users can advance work item status.")
  match WorkItemStatus.ofValue newStatus with
  | none => throw (.valueError ("'" ++ newStatus ++ "' is not a valid WorkItemStatus."))
  | some new =>
    if ¬ i.canTransitionTo new then
      throw (.valueError ("Cannot transition from '" ++ i.status.value ++ "' to '" ++ new.value ++
        "'."))
    let s ← get
    saveItem fun row => { row with
      status := new
      completedAt :=
        if new.terminal ∧ i.completedAt.isNone then some s.now else row.completedAt }
    recordHistory {
      action := .statusChangedTo new
      oldStatus := some i.status
      newStatus := some new
      actor := some actor.pk
      notes }

def escalateWorkItem (i : WorkItem) (actor : User) (reason : String) : Tx Unit := do
  if ¬ actor.isStaff then throw (.permissionError "Only staff users can escalate work items.")
  if i.status.terminal then
    throw (.valueError ("Cannot escalate a " ++ i.status.value ++ " work item."))
  if 2 ≤ i.escalationLevel then
    throw (.valueError "Work item is already at maximum escalation level (director).")
  let s ← get
  saveItem fun row => { row with
    escalationLevel := i.escalationLevel + 1
    escalatedAt := some (i.escalatedAt.getD s.now) }
  recordHistory {
    action := .escalated
    actor := some actor.pk
    notes :=
      if reason = "" then "Escalated to level " ++ toString (i.escalationLevel + 1) else reason }

/-- `due_at:%Y-%m-%d %H:%M` -/
def minuteText (t : Instant) : String :=
  let second := t % dayLength / 1000000
  isoDate (t / dayLength) ++ " " ++ zfill 2 (second / 3600) ++ ":" ++ zfill 2 (second / 60 % 60)

/-- The part of `check_sla_breaches` for one item, which reads the row with a lock. -/
def checkSlaBreaches : Tx Unit := do
  let s ← get
  match s.item.dueAt with
  | none => return ()
  | some due =>
    if s.now ≤ due ∨ s.item.slaBreachedAt.isSome ∨ s.item.status.terminal then return ()
    saveItem fun row => { row with slaBreachedAt := some s.now }
    recordHistory {
      action := .slaBreached
      actor := none
      notes := "SLA deadline " ++ minuteText due ++ " UTC passed without resolution." }

/-! ## Any number of requests -/

inductive Operation where
  | claim (actor : User)
  | assign (assignee actor : User)
  | updateStatus (newStatus : String) (actor : User) (notes : String)
  | escalate (actor : User) (reason : String)
deriving DecidableEq, Repr

def Operation.run (i : WorkItem) : Operation → Tx Unit
  | claim actor => claimWorkItem i actor
  | assign assignee actor => assignWorkItem i assignee actor
  | updateStatus newStatus actor notes => updateWorkItemStatus i newStatus actor notes
  | escalate actor reason => escalateWorkItem i actor reason

/-- A request before and after it has loaded the item, and the task that checks deadlines. -/
inductive Worker where
  | called (op : Operation)
  | loaded (op : Operation) (i : WorkItem)
  | sweeping
  | returned
  | raised (e : WorkflowError)
  | dead
deriving DecidableEq

namespace Worker

def entry : Worker → Bool
  | called _ | sweeping => true
  | _ => false

def finish (x : Tx Unit) (s : Store) : Store × Worker :=
  match commit x s with
  | (.ok _, t) => (t, returned)
  | (.error e, t) => (t, raised e)

def act (s : Store) : Worker → Option (Store × Worker)
  | called op => some (s, loaded op s.item)
  | loaded op i => some (finish (op.run i) s)
  | sweeping => some (finish checkSlaBreaches s)
  | returned | raised _ | dead => none

end Worker

/-- Time passes, and the item is released when the account of its assignee is deleted. -/
inductive Event where
  | pass (time : ℕ)
  | release
deriving DecidableEq

/-- An item that has just been created, and any number of requests. -/
def workItem : Program Store Worker Unit Event where
  Init s := s.item.status = .pending ∧ s.item.assignedTo = none ∧ s.item.escalationLevel = 0 ∧
    (∃ actor notes, s.history = [{ action := .created, actor, notes }]) ∧ s.claims = 0
  entry := Worker.entry
  halted := .dead
  act s p _ := p.act s
  env s
    | .pass time => some { s with now := s.now + time }
    | .release => some { s with
      item := { s.item with assignedTo := none }
      claims := 0 }

end Civicos.Workflows
