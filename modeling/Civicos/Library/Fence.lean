import Mathlib.Logic.Relation
import Mathlib.Data.Nat.Notation

/-!
# Fenced leases

A lease is held under a handle: an owner token and a generation. A holder may renew its lease;
once the lease has run out anybody may take it over in the next generation. A handle of an
earlier generation is therefore never valid again.
-/
namespace Civicos.Library

structure Handle (τ : Type*) where
  owner : τ
  generation : ℕ
deriving DecidableEq, Repr

structure Lease (τ : Type*) where
  handle : Handle τ
  expiresAt : ℕ
deriving DecidableEq, Repr

namespace Lease

open Relation

variable {τ : Type*} {l l' : Lease τ} {o o' : Option (Lease τ)} {h h' : Handle τ} {now : ℕ}

/-- `h` is valid at the clock reading `now`. -/
def Admits (l : Lease τ) (h : Handle τ) (now : ℕ) : Prop := l.handle = h ∧ now < l.expiresAt

instance [DecidableEq τ] : Decidable (l.Admits h now) := inferInstanceAs (Decidable (_ ∧ _))

theorem Admits.unique (hl : l.Admits h now) (hl' : l.Admits h' now) : h = h' :=
  hl.1.symm.trans hl'.1

/-- What may happen to a lease; `none` is a lease that does not exist yet. -/
inductive Move : Option (Lease τ) → Option (Lease τ) → Prop where
  | open (owner : τ) (expiresAt : ℕ) : Move none (some ⟨⟨owner, 1⟩, expiresAt⟩)
  | renew (l : Lease τ) (expiresAt : ℕ) : Move (some l) (some ⟨l.handle, expiresAt⟩)
  | takeOver (l : Lease τ) (now : ℕ) (expired : l.expiresAt ≤ now) (owner : τ) (expiresAt : ℕ) :
      Move (some l) (some ⟨⟨owner, l.handle.generation + 1⟩, expiresAt⟩)

abbrev Moves : Option (Lease τ) → Option (Lease τ) → Prop := ReflTransGen Move

/-- Generations do not fall, and every change of hands raises the generation. -/
structure Succeeds (l' l : Lease τ) : Prop where
  generation : l.handle.generation ≤ l'.handle.generation
  changes : l'.handle ≠ l.handle → l.handle.generation < l'.handle.generation

theorem Move.succeeds (m : Move (some l) o) : ∃ l', o = some l' ∧ l'.Succeeds l := by
  cases m with
  | renew expiresAt => exact ⟨_, rfl, Nat.le_refl _, fun hne => absurd rfl hne⟩
  | takeOver now expired owner expiresAt =>
    exact ⟨_, rfl, Nat.le_succ _, fun _ => Nat.lt_succ_self _⟩

theorem Moves.succeeds (m : Moves (some l) o) : ∃ l', o = some l' ∧ l'.Succeeds l := by
  induction m with
  | refl => exact ⟨l, rfl, Nat.le_refl _, fun hne => absurd rfl hne⟩
  | tail _ m ih =>
    obtain ⟨l₁, rfl, h₁⟩ := ih
    obtain ⟨l₂, rfl, h₂⟩ := m.succeeds
    refine ⟨l₂, rfl, Nat.le_trans h₁.generation h₂.generation, fun hne => ?_⟩
    by_cases heq : l₂.handle = l₁.handle
    · rw [heq] at hne ⊢
      exact h₁.changes hne
    · exact Nat.lt_of_le_of_lt h₁.generation (h₂.changes heq)

/-- A handle that has been superseded stays invalid at every clock reading. -/
theorem Moves.not_admits (m : Moves (some l) (some l')) (hne : l.handle ≠ h)
    (hle : h.generation ≤ l.handle.generation) : ¬ l'.Admits h now := by
  obtain ⟨l₂, hl₂, hs⟩ := m.succeeds
  obtain rfl : l' = l₂ := Option.some.inj hl₂
  intro hadmits
  by_cases heq : l'.handle = l.handle
  · exact hne (heq.symm.trans hadmits.1)
  · have hlt := hs.changes heq
    rw [hadmits.1] at hlt
    omega

end Lease

end Civicos.Library
