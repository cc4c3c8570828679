import Civicos.Library.Rows

/-!
# Atomic blocks

Code inside of an atomic block keeps what it has written when it raises, so that an exception can be
suppressed and the block goes on. An error of the database is different: it breaks the connection
until the block ends, and a block that ends on a broken connection is rolled back, also when it
returns.
-/
namespace Civicos.Library

/-- What a block sees of the database. -/
structure Connection (σ : Type) where
  live : σ
  broken : Bool := false

abbrev Block (ε σ : Type) := ExceptT ε (StateM (Connection σ))

/-- How a step can fail that is not ours. -/
inductive Fault where
  | application
  | database
deriving DecidableEq, Repr

namespace Block

variable {ε σ α β : Type}

/-- A statement; on a broken connection it raises `aborted`. -/
def statement (aborted : ε) (x : Transaction ε σ α) : Block ε σ α := fun c =>
  if c.broken then (.error aborted, c)
  else
    match x c.live with
    | .ok (a, t) => (.ok a, { c with live := t })
    | .error e => (.error e, { c with broken := true })

/-- Code that only reads, and whose exceptions are not errors of the database. -/
def query (aborted : ε) (x : σ → Except ε α) : Block ε σ α := fun c =>
  if c.broken then (.error aborted, c) else (x c.live, c)

/-- Fail from outside. -/
def fail (e : ε) : Option Fault → Block ε σ Unit
  | none => fun c => (.ok (), c)
  | some .application => fun c => (.error e, c)
  | some .database => fun c => (.error e, { c with broken := true })

/-- `try: x except Exception: pass` -/
def suppress (x : Block ε σ α) : Block ε σ (Option α) := fun c =>
  match x c with
  | (.ok a, d) => (.ok (some a), d)
  | (.error _, d) => (.ok none, d)

/-- The outermost block: it commits when it returns on a connection that is not broken. -/
def atomic (x : Block ε σ α) (s : σ) : Except ε α × σ :=
  match x ⟨s, false⟩ with
  | (.ok a, c) => (.ok a, if c.broken then s else c.live)
  | (.error e, _) => (.error e, s)

variable {x : Block ε σ α} {f : α → Block ε σ β} {c d : Connection σ} {a : α} {e aborted : ε}
  {s t : σ} {tx : Transaction ε σ α}

theorem bind_apply : (x >>= f) c = ExceptT.bindCont f (x c).1 (x c).2 := rfl

theorem bind_of_ok (h : x c = (.ok a, d)) : (x >>= f) c = f a d := by
  rw [bind_apply, h]
  rfl

theorem bind_of_error (h : x c = (.error e, d)) : (x >>= f) c = (.error e, d) := by
  rw [bind_apply, h]
  rfl

theorem statement_of_ok (h : tx s = .ok (a, t)) :
    statement aborted tx ⟨s, false⟩ = (.ok a, ⟨t, false⟩) := by
  simp [statement, h]

theorem statement_of_error (h : tx s = .error e) :
    statement aborted tx ⟨s, false⟩ = (.error e, ⟨s, true⟩) := by
  simp [statement, h]

@[simp] theorem query_live (g : σ → Except ε α) : query aborted g ⟨s, false⟩ = (g s, ⟨s, false⟩) :=
  rfl

theorem suppress_of_ok (h : x c = (.ok a, d)) : suppress x c = (.ok (some a), d) := by
  simp [suppress, h]

theorem suppress_of_error (h : x c = (.error e, d)) : suppress x c = (.ok none, d) := by
  simp [suppress, h]

theorem atomic_of_ok (h : x ⟨s, false⟩ = (.ok a, c)) :
    atomic x s = (.ok a, if c.broken then s else c.live) := by
  simp [atomic, h]

theorem atomic_of_error (h : x ⟨s, false⟩ = (.error e, c)) : atomic x s = (.error e, s) := by
  simp [atomic, h]

end Block

end Civicos.Library
