import Civicos.Consent.Service
import Civicos.Library.Pool

/-!
# The consent system

Policies and data agreements are created, changed and deactivated in the same way. A request loads
its instance before the transaction starts and saves all of its columns.

Requests of citizens and of staff, interleaved. Each block of a request is one read, or all that
happens from the first lock to the commit.
-/
namespace Civicos.Consent

open Library Library.Transaction

/-- What the two models differ in. -/
structure Model (F : Type) where
  schemaName : SchemaName
  schema : Schema (Columns F)
  pk_eq : ∀ row, schema.pk row = row.pk
  table : Lens Config (Numbered schema)
  writes : Lens Config (List (ℕ × (F → Option Value)))
  table_writes : ∀ l c, table.get (writes.set l c) = table.get c
  writes_table : ∀ t c, writes.get (table.set t c) = writes.get c
  set_comm : ∀ t l c, table.set t (writes.set l c) = writes.set l (table.set t c)
  default : F → Value
  fields : List F
  mem_fields : ∀ f, f ∈ fields
  isActive : F
  snapshot : Columns F → List (String × Value)
  created : AuditAction
  updated : AuditAction
  /-- The entry for a row and its revision. -/
  entry : AuditAction → Option ℕ → Columns F → ℕ → ConsentAuditEntry

def policyModel : Model PolicyField where
  schemaName := .policy
  schema := ConsentPolicy.schema
  pk_eq _ := rfl
  table := Config.policyTable
  writes := Config.policyWriteLog
  table_writes _ _ := rfl
  writes_table _ _ := rfl
  set_comm _ _ _ := rfl
  default := ConsentPolicy.default
  fields := PolicyField.all
  mem_fields := PolicyField.mem_all
  isActive := .isActive
  snapshot := ConsentPolicy.snapshot
  created := .policyCreated
  updated := .policyUpdated
  entry action actor policy revision := {
    citizen := none
    actor
    action
    details := .policy policy.pk revision (policy.value .name) }

def categoryModel : Model CategoryField where
  schemaName := .dataAgreement
  schema := ConsentCategory.schema
  pk_eq _ := rfl
  table := Config.categoryTable
  writes := Config.categoryWriteLog
  table_writes _ _ := rfl
  writes_table _ _ := rfl
  set_comm _ _ _ := rfl
  default := ConsentCategory.default
  fields := CategoryField.all
  mem_fields := CategoryField.mem_all
  isActive := .isActive
  snapshot := ConsentCategory.snapshot
  created := .dataAgreementCreated
  updated := .dataAgreementUpdated
  entry action actor category revision := {
    citizen := none
    actor
    action
    category := some category.pk
    details := .dataAgreement category.pk revision (category.value .slug) }

/-- `str(actor.pk) if actor else "system"` -/
def authorOf (actor : Option ℕ) : String := actor.elim "system" toString

namespace Model

variable {F : Type} [DecidableEq F] (M : Model F)

/-- The rows of the model, as a part of the store. -/
abbrev rows : Lens Store (Numbered M.schema) := Store.configured M.table

def note (k : ℕ) (written : F → Option Value) : Tx Unit :=
  modify fun s =>
    { s with config := M.writes.set (M.writes.get s.config ++ [(k, written)]) s.config }

/-- The revision and the audit entry that follow a write. -/
def record (action : AuditAction) (row : Columns F) (actor : Option ℕ) : Tx Unit := do
  let rev ← createFor M.schemaName row.pk (M.snapshot row) none (authorOf actor)
  writeAudit (M.entry action actor row rev.pk)

def create (data : List (F × Value)) (actor : Option ℕ) : Tx Unit := do
  let row ← append M.rows .ofViolation fun pk => Columns.assign data ⟨pk, M.default⟩
  M.record M.created row actor
  M.note row.pk fun f => some (row.value f)

/-- `loaded` is the instance of the caller. -/
def update (loaded : Columns F) (data : List (F × Value)) (actor : Option ℕ) : Tx Unit := do
  let row := loaded.assign data
  updateRow M.rows .ofViolation row.pk fun _ => row
  M.record M.updated row actor
  M.note row.pk fun f => data.lookup f

/-- `DELETE`: the column alone is saved, then the instance. -/
def deactivate (loaded : Columns F) (actor : Option ℕ) : Tx Unit := do
  let inactive := [(M.isActive, .bool false)]
  updateRow M.rows .ofViolation loaded.pk (·.assign inactive)
  M.note loaded.pk fun f => inactive.lookup f
  M.update (loaded.assign inactive) [] actor

end Model

def createPolicy : List (PolicyField × Value) → Option ℕ → Tx Unit := policyModel.create

def updatePolicy : ConsentPolicy → List (PolicyField × Value) → Option ℕ → Tx Unit :=
  policyModel.update

def createDataAgreement : List (CategoryField × Value) → Option ℕ → Tx Unit := categoryModel.create

def updateDataAgreement : ConsentCategory → List (CategoryField × Value) → Option ℕ → Tx Unit :=
  categoryModel.update

/-- A request for an object: the fields of a `PUT`, or a `DELETE`. -/
inductive Edit (F : Type) where
  | put (data : List (F × Value))
  | delete

/-- The columns that a request names. -/
def Edit.named {F : Type} [DecidableEq F] (M : Model F) : Edit F → List (F × Value)
  | put data => data
  | delete => [(M.isActive, .bool false)]

/-- The rest of a request that has loaded its instance. -/
def Model.save {F : Type} [DecidableEq F] (M : Model F) (loaded : Columns F) (actor : Option ℕ) :
    Edit F → Tx Unit
  | .put data => M.update loaded data actor
  | .delete => M.deactivate loaded actor

/-- `_get_policy`, and the check of a `DELETE` -/
def loadPolicy (policy : ℕ) (edit : Edit PolicyField) : Tx ConsentPolicy := do
  let row ← fetch policyModel.rows (.notFound "Policy not found.") policy
  match edit with
  | .put _ => return row
  | .delete =>
    let s ← get
    if s.categories.rows.any fun c => c.value .policy = .str (toString row.pk) && c.isActive then
      throw (.validationError none
        "Policy cannot be deleted while active DataAgreements reference it.")
    return row

/-- `_get_category` -/
def loadCategory (category : ℕ) : Tx ConsentCategory :=
  fetch categoryModel.rows (.notFound "DataAgreement not found.") category

end Civicos.Consent

/-! ## Any number of requests -/

namespace Civicos.Consent

open Library Library.Transaction

/-- Calls that lock what they read first. -/
inductive Operation where
  | attachSignature (user record : ℕ) (request : SignatureRequest) (caller : Caller)
  | updateSignature (user record : ℕ) (data : List (SignatureField × Value)) (caller : Caller)
  | createPolicy (data : List (PolicyField × Value)) (actor : Option ℕ)
  | createDataAgreement (data : List (CategoryField × Value)) (actor : Option ℕ)

def Operation.run : Operation → Tx Unit
  | attachSignature user record request caller => Consent.attachSignature user record request caller
  | updateSignature user record data caller => Consent.updateSignature user record data caller
  | createPolicy data actor => Consent.createPolicy data actor
  | createDataAgreement data actor => Consent.createDataAgreement data actor

/-- A request between two blocks; `seen` is the row that the snapshot of a statement contains,
before the statement has the lock on it. -/
inductive Worker where
  | granting (call : GrantCall)
  | matching (g : Grant) (seen : Option ℕ)
  | writing (g : Grant) (seen : Option ℕ)
  | losing (g : Grant)
  | winning (g : Grant) (seen : Option ℕ)
  | withdrawing (call : WithdrawCall)
  | revoking (call : WithdrawCall) (category : ℕ) (seen : Option ℕ)
  | obtaining (citizen category : ℕ)
  | creating (citizen category : ℕ)
  | reobtaining (citizen category : ℕ)
  | calling (op : Operation)
  | forgetting (citizen : ℕ) (caller : Caller)
  | collecting (citizen : ℕ) (caller : Caller) (slugs : List Value) (listed : List ℕ)
  | erasing (citizen : ℕ) (caller : Caller) (slugs : List Value) (listed collected : List ℕ)
  | editingPolicy (policy : ℕ) (edit : Edit PolicyField) (actor : Option ℕ)
  | savingPolicy (loaded : ConsentPolicy) (edit : Edit PolicyField) (actor : Option ℕ)
  | editingCategory (category : ℕ) (edit : Edit CategoryField) (actor : Option ℕ)
  | savingCategory (loaded : ConsentCategory) (edit : Edit CategoryField) (actor : Option ℕ)
  | returned (record : Option ℕ)
  | raised (e : ConsentError)
  | dead

namespace Worker

def entry : Worker → Bool
  | granting _ | withdrawing _ | obtaining .. | calling _ | forgetting .. | editingPolicy ..
  | editingCategory .. => true
  | _ => false

def raceLost : ConsentError := .integrityError ConsentRecord.currentUnique.name

/-- Answer a call, or go on with what it has computed. -/
def next {α : Type} (x : Tx α) (k : α → Worker) (s : Store) : Option (Store × Worker) :=
  match commit x s with
  | (.ok a, t) => some (t, k a)
  | (.error e, t) => some (t, raised e)

/-- The row that is locked, if it still passes the filter of the statement. -/
def locked (seen : Option ℕ) (filter : ConsentRecord → Bool) (s : Store) : Option ConsentRecord :=
  (seen.bind s.records.get).filter filter

def act (s : Store) : Worker → Option (Store × Worker)
  | granting call => next (openGrant call)
      (fun g => matching g ((s.records.rows.find? g.granted).map (·.pk))) s
  | matching g seen =>
    match locked seen g.granted s with
    | some r => some (s, returned (some r.pk))
    | none => some (s, writing g ((s.current g.citizen g.category).map (·.pk)))
  | writing g seen =>
    next (writeGrant g seen) (fun written => written.elim (losing g) fun r => returned (some r)) s
  | losing g => some (s, winning g ((s.current g.citizen g.category).map (·.pk)))
  | winning g seen =>
    match locked seen (·.currentOf g.citizen g.category) s with
    | some r => some (s, returned (some r.pk))
    | none => some (s, raised raceLost)
  | withdrawing call => next (openWithdrawal call)
      (fun category => revoking call category ((s.current call.citizen category).map (·.pk))) s
  | revoking call category seen =>
    next (writeWithdrawal call category seen) (fun r => returned (some r)) s
  | obtaining citizen category =>
    match s.current citizen category with
    | some r => some (s, returned (some r.pk))
    | none => some (s, creating citizen category)
  | creating citizen category =>
    next (insertCurrent fun pk => { pk, citizen, category })
      (fun created => created.elim (reobtaining citizen category) fun r => returned (some r.pk)) s
  | reobtaining citizen category =>
    match s.current citizen category with
    | some r => some (s, returned (some r.pk))
    | none => some (s, raised raceLost)
  | calling op => next op.run (fun _ => returned none) s
  | forgetting citizen caller => some (s, collecting citizen caller
      ((s.forgettableRecords citizen).filterMap fun r =>
        (s.categoryOf r.category).map (·.value .slug))
      ((s.forgettableRecords citizen).map (·.pk)))
  | collecting citizen caller slugs listed => some (s, erasing citizen caller slugs listed
      ((s.forgettableRecords citizen).map (·.pk)))
  | erasing citizen caller slugs listed collected =>
    next (erase citizen caller slugs listed collected) (fun _ => returned none) s
  | editingPolicy policy edit actor =>
    next (loadPolicy policy edit) (fun row => savingPolicy row edit actor) s
  | savingPolicy loaded edit actor =>
    next (policyModel.save loaded actor edit) (fun _ => returned none) s
  | editingCategory category edit actor =>
    next (loadCategory category) (fun row => savingCategory row edit actor) s
  | savingCategory loaded edit actor =>
    next (categoryModel.save loaded actor edit) (fun _ => returned none) s
  | returned _ | raised _ | dead => none

end Worker

/-- Any number of requests, while time passes. There are seeded policies and agreements, but nobody
has decided anything yet. -/
def consent : Program Store Worker Unit ℕ where
  Init s := s.revisions = .empty ∧ s.records = .empty ∧ s.signatures = .empty ∧ s.audit = [] ∧
    s.config.policyWrites = [] ∧ s.config.categoryWrites = []
  entry := Worker.entry
  halted := .dead
  act s p _ := p.act s
  env s time := some { s with now := s.now + time }

abbrev Label := Pool.Label Worker Unit ℕ

def start : Pool.State Store Worker := ⟨{}, []⟩

theorem start_init : consent.machine.Init start := ⟨⟨rfl, rfl, rfl, rfl, rfl, rfl⟩, rfl⟩

/-- The first agreement -/
def agreement (s : Pool.State Store Worker) : ConsentCategory :=
  (s.store.categoryOf 1).getD ⟨0, ConsentCategory.default⟩

end Civicos.Consent
