import Civicos.Library.Chained
import Civicos.Library.Machine
import Mathlib.Logic.Function.Basic

/-!
# Concurrent writers

Transactions under read committed with row locks. `record_event` selects the last entry for update
and inserts one after it; a select that has waited for a lock returns the entry that it has waited
for.
-/
namespace Civicos.Audit.ConcurrentChain

open Library

variable {P : Type}

/-! ## Entries and transactions -/

/-- The hash of a payload and of the entry before it; hashes do not collide. -/
inductive Digest (P : Type) where
  | empty
  | of (payload : P) (prevHash : Digest P)
deriving DecidableEq, Repr

structure Entry (P : Type) where
  id : ℕ
  txn : ℕ
  payload : P
  prevHash : Digest P
deriving DecidableEq, Repr

def Entry.entryHash (e : Entry P) : Digest P := .of e.payload e.prevHash

/-- A transaction between two statements -/
inductive Status (P : Type) where
  | idle
  | waiting (e : Entry P)
  | selected (last : Option (Entry P))
  | committed
  | rolledBack

def Status.isCommitted : Status P → Bool
  | committed => true
  | _ => false

/-- The entries are in the order of their identifiers. `locks` pairs entries with the transactions
that have locked them, and `reported` pairs transactions with the entries that calls in them have
returned. -/
structure State (P : Type) where
  next : ℕ := 1
  entries : List (Entry P) := []
  status : ℕ → Status P := fun _ => .idle
  locks : List (ℕ × ℕ) := []
  reported : List (ℕ × ℕ) := []

namespace State

def committed (s : State P) : List (Entry P) :=
  s.entries.filter fun e => (s.status e.txn).isCommitted

/-- What a statement of a transaction sees -/
def visible (s : State P) (t : ℕ) : List (Entry P) :=
  s.entries.filter fun e => (s.status e.txn).isCommitted || e.txn = t

/-- Whether another transaction has locked an entry -/
def locked (s : State P) (t : ℕ) (e : Entry P) : Bool :=
  s.locks.any fun l => l.1 = e.id ∧ l.2 ≠ t

def withStatus (s : State P) (t : ℕ) (x : Status P) : State P :=
  { s with status := Function.update s.status t x }

/-- The entry is locked and returned. -/
def take (s : State P) (t : ℕ) (e : Entry P) : State P :=
  { s.withStatus t (.selected (some e)) with locks := (e.id, t) :: s.locks }

/-- `select_for_update().order_by("-id").first()` -/
def select (s : State P) (t : ℕ) : Option (State P) :=
  match s.status t, (s.visible t).getLast? with
  | .idle, none => some (s.withStatus t (.selected none))
  | .idle, some e => some (if s.locked t e then s.withStatus t (.waiting e) else s.take t e)
  | _, _ => none

/-- The lock has been released; the select does not look for a later entry. -/
def wake (s : State P) (t : ℕ) : Option (State P) :=
  match s.status t with
  | .waiting e => if s.locked t e then none else some (s.take t e)
  | _ => none

/-- The row that a call inserts after the entry that it has selected -/
def entry (s : State P) (t : ℕ) (payload : P) (last : Option (Entry P)) : Entry P where
  id := s.next
  txn := t
  payload
  prevHash := (last.map (·.entryHash)).getD .empty

/-- `entry.save()`, after which the call returns the entry -/
def append (s : State P) (t : ℕ) (e : Entry P) : State P :=
  { s.withStatus t .idle with
    next := e.id + 1
    entries := s.entries ++ [e]
    reported := s.reported ++ [(t, e.id)] }

def insert (s : State P) (t : ℕ) (payload : P) : Option (State P) :=
  match s.status t with
  | .selected last => some (s.append t (s.entry t payload last))
  | _ => none

/-- The call raises, and its savepoint gives back the lock that it has taken. -/
def fail (s : State P) (t : ℕ) : Option (State P) :=
  match s.status t with
  | .waiting _ => some (s.withStatus t .idle)
  | .selected last =>
    some { s.withStatus t .idle with
      locks := s.locks.filter fun l => ¬ (last.any (·.id = l.1) ∧ l.2 = t) }
  | _ => none

/-- The transaction ends, and its locks are released. -/
def close (s : State P) (t : ℕ) (x : Status P) : State P :=
  { s.withStatus t x with locks := s.locks.filter (·.2 ≠ t) }

def commit (s : State P) (t : ℕ) : Option (State P) :=
  match s.status t with
  | .idle => some (s.close t .committed)
  | _ => none

def rollback (s : State P) (t : ℕ) : Option (State P) :=
  match s.status t with
  | .committed | .rolledBack => none
  | _ => some { s.close t .rolledBack with entries := s.entries.filter (·.txn ≠ t) }

end State

inductive Step (P : Type) where
  | select (t : ℕ)
  | wake (t : ℕ)
  | insert (t : ℕ) (payload : P)
  | fail (t : ℕ)
  | commit (t : ℕ)
  | rollback (t : ℕ)
  | skip

def Step.run (s : State P) : Step P → Option (State P)
  | select t => s.select t
  | wake t => s.wake t
  | insert t payload => s.insert t payload
  | fail t => s.fail t
  | commit t => s.commit t
  | rollback t => s.rollback t
  -- a number of the sequence that is not used
  | skip => some { s with next := s.next + 1 }

/-- A whole chain that has been committed -/
structure State.Settled (s : State P) : Prop where
  chained : Chained (·.prevHash) (·.entryHash) .empty s.entries
  ids : s.entries.Pairwise (·.id < ·.id)
  next : ∀ e ∈ s.entries, e.id < s.next
  committed : ∀ e ∈ s.entries, s.status e.txn = .committed
  idle : ∀ t, s.status t = .idle ∨ s.status t = .committed
  locks : s.locks = []
  reported : s.reported = []

/-- Any number of transactions with any number of calls, after any whole chain -/
def writers (P : Type) : Machine (State P) (Step P) where
  Init := State.Settled
  step := Step.run

/-- A call that has waited returns an entry that is the last one still. -/
def State.upToDate [DecidableEq P] (s : State P) (t : ℕ) : Bool :=
  match s.status t with
  | .waiting e => (s.visible t).getLast? = some e
  | _ => true

/-- A call that has found no entry inserts into a table without entries. -/
def State.opening (s : State P) (t : ℕ) : Bool :=
  match s.status t with
  | .selected none => s.entries.isEmpty
  | _ => true

/-- The condition -/
def Current [DecidableEq P] (s : State P) : Step P → Prop
  | .wake t => s.upToDate t = true
  | .insert t _ => s.opening t = true
  | _ => True

instance [DecidableEq P] (s : State P) : (l : Step P) → Decidable (Current s l)
  | .wake _ | .insert _ _ => inferInstanceAs (Decidable (_ = true))
  | .select _ | .fail _ | .commit _ | .rollback _ | .skip => inferInstanceAs (Decidable True)

end Civicos.Audit.ConcurrentChain
