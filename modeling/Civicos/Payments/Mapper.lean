import Civicos.Library.Serial
import Civicos.Payments.Ledger

/-!
# The beneficiary mapper

A request registers or updates a list of beneficiaries in one transaction under read committed.
Each item gets or creates the row of its payee, and saves the whole instance when it has changed
it. Nothing locks the row between the two.
-/
namespace Civicos.Payments.Mapper

open Library

/-! ## Rows -/

structure GovStackBeneficiary where
  id : Uuid
  payeeFunctionalId : String
  paymentModality : String
  financialAddress : String
  sourceBbId : String
  registeringInstitutionId : String
  isActive : Bool
deriving DecidableEq, Repr

/-- The widths of the columns that are not encrypted -/
def GovStackBeneficiary.Fits (b : GovStackBeneficiary) : Prop :=
  b.payeeFunctionalId.length ≤ 20 ∧ b.paymentModality.length ≤ 2 ∧ b.sourceBbId.length ≤ 20 ∧
    b.registeringInstitutionId.length ≤ 20

instance (b : GovStackBeneficiary) : Decidable b.Fits := inferInstanceAs (Decidable (_ ∧ _))

abbrev Registry := Keyed GovStackBeneficiary.payeeFunctionalId

/-! ## Requests -/

structure BeneficiaryItem where
  payeeFunctionalId : String
  paymentModality : Option String := none
  financialAddress : Option String := none
deriving DecidableEq, Repr

namespace BeneficiaryItem

/-- `item.get("PaymentModality", "") or ""` -/
def modality (i : BeneficiaryItem) : String := i.paymentModality.getD ""

/-- `item.get("FinancialAddress", "") or ""` -/
def address (i : BeneficiaryItem) : String := i.financialAddress.getD ""

end BeneficiaryItem

structure BeneficiaryRequest where
  requestId : String
  sourceBbId : String
  beneficiaries : List BeneficiaryItem
  registeringInstitutionId : String := ""
deriving DecidableEq, Repr

/-- The arguments of `_upsert_beneficiaries` -/
structure Upsert extends BeneficiaryRequest where
  actionOnCreate : AuditAction
  actionOnUpdate : AuditAction
deriving DecidableEq, Repr

namespace GovStackBeneficiaryService

def register (r : BeneficiaryRequest) : Upsert where
  toBeneficiaryRequest := r
  actionOnCreate := .beneficiaryRegistered
  actionOnUpdate := .beneficiaryUpdated

def update (r : BeneficiaryRequest) : Upsert where
  toBeneficiaryRequest := r
  actionOnCreate := .beneficiaryUpdated
  actionOnUpdate := .beneficiaryUpdated

end GovStackBeneficiaryService

namespace Upsert

/-- The row that `get_or_create` inserts -/
def created (r : Upsert) (id : Uuid) (item : BeneficiaryItem) : GovStackBeneficiary where
  id
  payeeFunctionalId := item.payeeFunctionalId
  paymentModality := item.modality
  financialAddress := item.address
  sourceBbId := r.sourceBbId
  registeringInstitutionId := r.registeringInstitutionId
  isActive := true

/-- The provided fields of a row that `get_or_create` has found, and whether to save it -/
def revise (r : Upsert) (item : BeneficiaryItem) (obj : GovStackBeneficiary) :
    GovStackBeneficiary × Bool := Id.run do
  let mut obj := obj
  let mut changed := false
  if item.modality ≠ "" ∧ obj.paymentModality ≠ item.modality then
    obj := { obj with paymentModality := item.modality }
    changed := true
  -- an encrypted value is overwritten without a comparison
  if item.address ≠ "" then
    obj := { obj with financialAddress := item.address }
    changed := true
  if obj.sourceBbId ≠ r.sourceBbId then
    obj := { obj with sourceBbId := r.sourceBbId }
    changed := true
  if r.registeringInstitutionId ≠ "" ∧
      obj.registeringInstitutionId ≠ r.registeringInstitutionId then
    obj := { obj with registeringInstitutionId := r.registeringInstitutionId }
    changed := true
  return (obj, changed)

def entry (r : Upsert) (isCreated : Bool) (item : BeneficiaryItem) (pk : Uuid) : AuditEntry where
  action := if isCreated then r.actionOnCreate else r.actionOnUpdate
  actorBbId := r.sourceBbId
  objectType := "beneficiary"
  objectPk := toString pk
  requestId := r.requestId
  details := [
    ("source_bb_id", .str r.sourceBbId),
    ("payment_modality", .str item.modality),
    ("has_financial_address", .bool (item.address ≠ ""))]

end Upsert

/-! ## Calls -/

/-- A call between two statements. `saving` is an item with its instance, which has been changed
and not yet been saved; `writes` are the rows that the transaction has inserted or saved, and
`turns` the items that it is done with, each with the primary key of its row. -/
structure UpsertRun where
  todo : List BeneficiaryItem
  saving : Option (BeneficiaryItem × GovStackBeneficiary) := none
  writes : Registry := ⟨[], List.nodup_nil⟩
  audits : List AuditEntry := []
  registered : ℕ := 0
  updated : ℕ := 0
  turns : List (BeneficiaryItem × Uuid) := []

inductive Progress where
  | running (x : UpsertRun)
  | returned (registered updated : ℕ)
  | failed

structure Call where
  args : Upsert
  progress : Progress

namespace Call

/-- The rows of the transaction that have not been committed -/
def writes (c : Call) : List GovStackBeneficiary :=
  match c.progress with
  | .running x => x.writes.rows
  | _ => []

/-- Whether the call has got the row of a payee -/
def looks (c : Call) (payee : String) : Bool :=
  match c.progress with
  | .running x => x.turns.any (·.1.payeeFunctionalId = payee) ||
      x.saving.any (·.1.payeeFunctionalId = payee)
  | _ => false

end Call

/-- What has taken effect: a call with the primary keys of its items' rows, or a deactivation. -/
inductive Commit where
  | call (i : ℕ) (args : Upsert) (pks : List Uuid)
  | deactivation (payee : String)

/-- `committed` is in the order of the commits. -/
structure MapperStore where
  beneficiaries : Registry := ⟨[], List.nodup_nil⟩
  audits : List AuditEntry := []
  calls : List Call := []
  committed : List Commit := []

namespace UpsertRun

/-- The end of a turn: the count and the audit entry -/
def finish (x : UpsertRun) (r : Upsert) (item : BeneficiaryItem) (isCreated : Bool) (pk : Uuid) :
    Option UpsertRun :=
  let entry := r.entry isCreated item pk
  if entry.overflow.isSome then
    none
  else
    some { x with
      saving := none
      audits := x.audits ++ [entry]
      registered := if isCreated then x.registered + 1 else x.registered
      updated := if isCreated then x.updated else x.updated + 1
      turns := x.turns ++ [(item, pk)] }

end UpsertRun

namespace MapperStore

/-- A call that goes on -/
def running (s : MapperStore) (i : ℕ) : Option (Upsert × UpsertRun) :=
  match s.calls[i]? with
  | some ⟨args, .running x⟩ => some (args, x)
  | _ => none

def setProgress (s : MapperStore) (i : ℕ) (args : Upsert) (p : Progress) : MapperStore :=
  { s with calls := s.calls.set i ⟨args, p⟩ }

/-- Whether another transaction has written the row of a payee and not ended -/
def locked (s : MapperStore) (i : ℕ) (payee : String) : Bool :=
  (s.calls.eraseIdx i).any fun c => c.writes.any (·.payeeFunctionalId = payee)

/-- A primary key that no row has -/
def unused (s : MapperStore) (id : Uuid) : Bool :=
  s.beneficiaries.rows.all (·.id ≠ id) && s.calls.all fun c => c.writes.all (·.id ≠ id)

/-- What the statements of a transaction see: its own writes over the committed rows -/
def sees (s : MapperStore) (x : UpsertRun) : String → Option GovStackBeneficiary :=
  overlay x.writes.find s.beneficiaries.find

/-- `get_or_create` of the next item; the insert waits for another one of the same payee, and gets
its row if that is committed. -/
def getOrCreate (s : MapperStore) (i : ℕ) (id : Uuid) : Option MapperStore := do
  let (args, x) ← s.running i
  match x.saving, x.todo with
  | none, item :: todo =>
    match s.sees x item.payeeFunctionalId with
    | some obj =>
      let (obj, changed) := args.revise item obj
      let x := { x with todo }
      if changed then
        return s.setProgress i args (.running { x with saving := some (item, obj) })
      return s.setProgress i args (.running (← x.finish args item false obj.id))
    | none =>
      let obj := args.created id item
      guard (¬ s.locked i item.payeeFunctionalId ∧ s.unused id ∧ obj.Fits)
      let x := { x with todo, writes := x.writes.put obj }
      return s.setProgress i args (.running (← x.finish args item true obj.id))
  | _, _ => none

/-- `obj.save()`, an update of every column, which waits for the lock of the row -/
def save (s : MapperStore) (i : ℕ) : Option MapperStore := do
  let (args, x) ← s.running i
  let (item, obj) ← x.saving
  guard (¬ s.locked i obj.payeeFunctionalId ∧ obj.Fits)
  let x := { x with writes := x.writes.put obj }
  return s.setProgress i args (.running (← x.finish args item false obj.id))

def commit (s : MapperStore) (i : ℕ) : Option MapperStore := do
  let (args, x) ← s.running i
  guard (x.saving.isNone ∧ x.todo = [])
  return { s.setProgress i args (.returned x.registered x.updated) with
    beneficiaries := s.beneficiaries.putAll x.writes
    audits := s.audits ++ x.audits
    committed := s.committed ++ [.call i args (x.turns.map Prod.snd)] }

/-- An error, a deadlock or a crash; the transaction is rolled back. -/
def fail (s : MapperStore) (i : ℕ) : Option MapperStore := do
  let (args, _) ← s.running i
  return s.setProgress i args .failed

/-- An update of the one column, which waits for the lock of the row -/
def deactivate (s : MapperStore) (payee : String) : Option MapperStore := do
  let obj ← s.beneficiaries.find payee
  guard (¬ s.calls.any fun c => c.writes.any (·.payeeFunctionalId = payee))
  return { s with
    beneficiaries := s.beneficiaries.put { obj with isActive := false }
    committed := s.committed ++ [.deactivation payee] }

def receive (s : MapperStore) (args : Upsert) : MapperStore :=
  { s with calls := s.calls ++ [⟨args, .running { todo := args.beneficiaries }⟩] }

end MapperStore

inductive MapperStep where
  | register (r : BeneficiaryRequest)
  | update (r : BeneficiaryRequest)
  | getOrCreate (i : ℕ) (id : Uuid)
  | save (i : ℕ)
  | commit (i : ℕ)
  | fail (i : ℕ)
  | deactivate (payee : String)

def MapperStep.run (s : MapperStore) : MapperStep → Option MapperStore
  | register r => some (s.receive (GovStackBeneficiaryService.register r))
  | update r => some (s.receive (GovStackBeneficiaryService.update r))
  | getOrCreate i id => s.getOrCreate i id
  | save i => s.save i
  | commit i => s.commit i
  | fail i => s.fail i
  | deactivate payee => s.deactivate payee

/-- Any number of requests and deactivations, over any rows -/
def mapper : Machine MapperStore MapperStep where
  Init s := s.calls = [] ∧ s.committed = []
  step := MapperStep.run

/-- A commit changes no row that another open call has got. -/
def Held (s : MapperStore) : MapperStep → Prop
  | .commit i => ∀ c ∈ s.calls[i]?, ∀ b ∈ c.writes,
      s.beneficiaries.find b.payeeFunctionalId ≠ some b →
        ∀ d ∈ s.calls.eraseIdx i, d.looks b.payeeFunctionalId = false
  | .deactivate payee => ∀ b ∈ s.beneficiaries.find payee, b.isActive = true →
      ∀ d ∈ s.calls, d.looks payee = false
  | _ => True

instance (s : MapperStore) : (l : MapperStep) → Decidable (Held s l)
  | .commit i => inferInstanceAs (Decidable (∀ c ∈ s.calls[i]?, _))
  | .deactivate payee => inferInstanceAs (Decidable (∀ b ∈ s.beneficiaries.find payee, _))
  | .register _ | .update _ | .getOrCreate _ _ | .save _ | .fail _ =>
    inferInstanceAs (Decidable True)

end Civicos.Payments.Mapper
