import Civicos.Payments.BatchChanges

/-!
# Bulk workers

Any number of deliveries of the bulk task, with any task ids and for any batches, between which
batches are received, beneficiaries change and every other writer of the ledger runs. A delivery
is the transaction that it executes next; each of them makes its own clock readings.
-/
namespace Civicos.Payments

open Library Library.Transaction Session

inductive BulkWorker where
  | admitDelivery (batch : Uuid) (ownerToken : String)
  | process (batch : Uuid) (handle : BatchLeaseHandle)
  | release (handle : BatchLeaseHandle)
  | done
deriving DecidableEq

structure BulkChoice where
  clock : List Instant
  settings : BulkSettings

/-- The transactions of everybody else. -/
inductive BulkWriter where
  | receiveBatch (requestId sourceBbId batchId : String)
      (instructions : List GovStackBulkPaymentService.InstructionItem)
      (callbackUrl correlationId : String)
  | beneficiaries (rows : List GovStackBeneficiary)
  | ledger (l : Ledger)

/-- Nobody else audits batch decisions. -/
def AuditEntry.ForeignToDecisions (e : AuditEntry) : Prop := e.objectType ≠ "batch_decision"

instance : DecidablePred AuditEntry.ForeignToDecisions :=
    fun _ => inferInstanceAs (Decidable (_ ≠ _))

namespace BulkWorker

def isEntry : BulkWorker → Bool
  | admitDelivery .. => true
  | _ => false

/-- The admission transaction. A heartbeat that fails rolls the admission back, but the handle
is known by then and is released in the end. -/
def admission (batch : Uuid) (ownerToken : String) (clock : List Instant) (db : BulkStore) :
    BulkStore × BulkWorker :=
  match BulkTask.admitDelivery batch ownerToken ⟨db, clock⟩ with
  | .error _ => (db, done)
  | .ok (none, s) => (s.toBulkStore, done)
  | .ok (some handle, s) =>
    match BatchLeaseService.heartbeat handle s with
    | .ok (_, s) => (s.toBulkStore, process batch handle)
    | .error _ => (db, release handle)

def act (db : BulkStore) (p : BulkWorker) (c : BulkChoice) : Option (BulkStore × BulkWorker) :=
  match p with
  | admitDelivery batch ownerToken => some (admission batch ownerToken c.clock db)
  | process batch handle =>
    some ((commitAt (BulkTask.processBatch c.settings batch handle) c.clock db).2, release handle)
  | release handle => some ((commitAt (BatchLeaseService.release handle) c.clock db).2, done)
  | done => none

end BulkWorker

def BulkWriter.write (db : BulkStore) : BulkWriter → Option BulkStore
  | receiveBatch requestId sourceBbId batchId instructions callbackUrl correlationId =>
    some (commitAt (GovStackBulkPaymentService.receiveBatch requestId sourceBbId batchId
      instructions callbackUrl correlationId) [] db).2
  | beneficiaries rows => some { db with beneficiaries := rows }
  | ledger l =>
    if db.ledger.Appends AuditEntry.ForeignToDecisions l then some { db with ledger := l } else none

/-- Whatever the ledger holds when the first batch arrives. -/
def bulk : Program BulkStore BulkWorker BulkChoice BulkWriter where
  Init db := db.batches = .empty ∧ db.instructions = .empty ∧ db.leases = .empty ∧
    db.decisions = .empty ∧ ∀ e ∈ db.ledger.audits, e.ForeignToDecisions
  entry := BulkWorker.isEntry
  halted := .done
  act := BulkWorker.act
  env := BulkWriter.write

/-! ## The transactions of a delivery -/

namespace BulkWorker

variable {db db' : BulkStore} {p q : BulkWorker} {c : BulkChoice} {batch : Uuid} {token : String}
  {handle : BatchLeaseHandle}

theorem commitAt_of_error {α : Type} {x : BulkTx α} {clock : List Instant} {e : PaymentError}
    (h : x ⟨db, clock⟩ = .error e) : (commitAt x clock db).2 = db := by
  rw [commitAt, commit_of_error h]

theorem commitAt_of_ok {α : Type} {x : BulkTx α} {clock : List Instant} {a : α} {t : Session}
    (h : x ⟨db, clock⟩ = .ok (a, t)) : (commitAt x clock db).2 = t.toBulkStore := by
  rw [commitAt, commit_of_ok h]

/-- A transaction that does not return has no effect. -/
theorem commitAt_cases {α : Type} (x : BulkTx α) (clock : List Instant) (db : BulkStore) :
    (commitAt x clock db).2 = db ∨ ∃ a t, x ⟨db, clock⟩ = .ok (a, t) ∧
      (commitAt x clock db).2 = t.toBulkStore := by
  cases h : x ⟨db, clock⟩ with
  | error e => exact .inl (commitAt_of_error h)
  | ok r => exact .inr ⟨r.1, r.2, rfl, commitAt_of_ok h⟩

theorem admit_ok {s t : Session} {r : Option BatchLeaseHandle}
    (h : BulkTask.admitDelivery batch token s = .ok (r, t)) : BatchLeaseService.Renews s t ∧
      ∀ handle ∈ r, handle.batchId = batch ∧ handle.ownerToken = token ∧
        BatchLeaseService.Admitted (s.fence batch) handle (s.clock.headD 0) := by
  obtain ⟨_, _, hget, h₁⟩ := bind_ok.mp h
  cases hget
  cases hb : s.batches.get batch with
  | none =>
    simp only [hb] at h₁
    obtain ⟨rfl, rfl⟩ := pure_ok.mp h₁
    exact ⟨.refl _, by simp⟩
  | some b =>
    simp only [hb] at h₁
    obtain rfl : b.pk = batch := Table.pk_of_get hb
    split at h₁
    · exact BatchLeaseService.acquire_ok h₁
    · obtain ⟨rfl, rfl⟩ := pure_ok.mp h₁
      exact ⟨.refl _, by simp⟩

/-- Everything an admission can do. -/
theorem admission_cases (batch : Uuid) (token : String) (clock : List Instant) (db : BulkStore) :
    (∃ rest, BatchLeaseService.Renews ⟨db, clock⟩ ⟨(admission batch token clock db).1, rest⟩) ∧
      ∀ b handle, (admission batch token clock db).2 = process b handle →
        b = batch ∧ handle.batchId = batch ∧ handle.ownerToken = token ∧
          BatchLeaseService.Admitted (db.fence batch) handle (clock.headD 0) := by
  unfold admission
  cases hadmit : BulkTask.admitDelivery batch token ⟨db, clock⟩ with
  | error e => exact ⟨⟨_, .refl _⟩, nofun⟩
  | ok r =>
    obtain ⟨o, s⟩ := r
    obtain ⟨hrenews, hhandle⟩ := admit_ok hadmit
    cases o with
    | none => exact ⟨⟨_, hrenews⟩, nofun⟩
    | some h =>
      simp only
      cases hheart : BatchLeaseService.heartbeat h s with
      | error e => exact ⟨⟨_, .refl _⟩, nofun⟩
      | ok r =>
        refine ⟨⟨_, hrenews.trans (BatchLeaseService.heartbeat_ok hheart).2⟩, ?_⟩
        rintro b handle ⟨⟩
        exact ⟨rfl, hhandle h rfl⟩

/-- A transaction of a delivery moves leases only, or it processes its batch. -/
theorem act_cases (h : act db p c = some (db', q)) :
    (∃ rest, BatchLeaseService.Renews ⟨db, c.clock⟩ ⟨db', rest⟩) ∨
      ∃ batch handle t, p = process batch handle ∧ db' = t.toBulkStore ∧
        BulkTask.processBatch c.settings batch handle ⟨db, c.clock⟩ = .ok ((), t) := by
  cases p with
  | admitDelivery batch token =>
    have hcases := (admission_cases batch token c.clock db).1
    simp only [act, Option.some.injEq] at h
    rw [h] at hcases
    exact .inl hcases
  | process batch handle =>
    cases h
    obtain hsame | ⟨u, t, hok, ht⟩ :=
      commitAt_cases (BulkTask.processBatch c.settings batch handle) c.clock db
    · rw [hsame]
      exact .inl ⟨_, .refl _⟩
    · exact .inr ⟨batch, handle, t, rfl, ht, hok⟩
  | release handle =>
    cases h
    obtain hsame | ⟨u, t, hok, ht⟩ := commitAt_cases (BatchLeaseService.release handle) c.clock db
    · rw [hsame]
      exact .inl ⟨_, .refl _⟩
    · rw [ht]
      exact .inl ⟨_, (BatchLeaseService.release_ok hok).2⟩
  | done => cases h

end BulkWorker

end Civicos.Payments
