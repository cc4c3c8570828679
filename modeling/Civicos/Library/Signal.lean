import Mathlib.Data.List.Basic

/-!
# Signals

Receivers are connected to one sender or to any. A signal reaches the receivers that are connected
to the very object that sends it, or to no object at all.
-/
namespace Civicos.Library

structure Receiver (ς κ μ : Type) where
  sender : Option ς
  run : κ → List μ

/-- The connected receivers, in the order of their connection -/
abbrev Signal (ς κ μ : Type) := List (Receiver ς κ μ)

namespace Signal

variable {ς κ μ : Type} [DecidableEq ς] {S : Signal ς κ μ} {sender : ς} {event : κ}

def receivers (S : Signal ς κ μ) (sender : ς) : List (Receiver ς κ μ) :=
  S.filter fun r => r.sender.all (· = sender)

/-- `send_robust`, with what the receivers do -/
def send (S : Signal ς κ μ) (sender : ς) (event : κ) : List μ :=
  (S.receivers sender).flatMap fun r => r.run event

theorem mem_receivers {r : Receiver ς κ μ} :
    r ∈ S.receivers sender ↔ r ∈ S ∧ (r.sender = none ∨ r.sender = some sender) := by
  unfold receivers
  rw [List.mem_filter]
  cases r.sender <;> simp

/-- A signal whose receivers all wait for somebody else reaches nobody. -/
theorem send_eq_nil (h : ∀ r ∈ S, ∃ other, r.sender = some other ∧ other ≠ sender) :
    S.send sender event = [] := by
  have hnone : S.receivers sender = [] := by
    apply List.eq_nil_iff_forall_not_mem.mpr
    intro r hr
    obtain ⟨hmem, hsender⟩ := mem_receivers.mp hr
    obtain ⟨other, hother, hne⟩ := h r hmem
    rcases hsender with hnone | hsome
    · cases hother.symm.trans hnone
    · exact hne (Option.some.inj (hother.symm.trans hsome))
  unfold send
  rw [hnone]
  rfl

end Signal

end Civicos.Library
