import Mathlib.Data.List.Chain

/-!
# Trails

A trail lists the states that an object went through, each of them a permitted successor of the
one before. States without successors end it.
-/
namespace Civicos.Library.Trail

variable {α : Type*} {R : α → α → Prop} {l : List α} {a b : α} {p : α → Bool}

/-- A trail goes on by one permitted step from its last state. -/
theorem isChain_concat (h : l.IsChain R) (hlast : l.getLast? = some a) (hab : R a b) :
    (l ++ [b]).IsChain R := by
  refine List.isChain_append.mpr ⟨h, List.isChain_singleton b, ?_⟩
  intro x hx y hy
  rw [hlast, Option.mem_some_iff] at hx
  rw [List.head?_cons, Option.mem_some_iff] at hy
  subst hx hy
  exact hab

/-- A state without successors can only be the last one. -/
theorem getLast?_of_stuck (h : l.IsChain R) (ha : a ∈ l) (hstuck : ∀ b, ¬ R a b) :
    l.getLast? = some a := by
  induction l with
  | nil => cases ha
  | cons x l ih =>
    cases l with
    | nil =>
      rw [List.mem_singleton] at ha
      rw [ha]
      rfl
    | cons y l =>
      obtain ⟨hxy, hrest⟩ := List.isChain_cons_cons.mp h
      rw [List.getLast?_cons_cons]
      rcases List.mem_cons.mp ha with rfl | ha
      · exact absurd hxy (hstuck y)
      · exact ih hrest ha

/-- So a trail has at most one of them. -/
theorem countP_stuck_le_one (h : l.IsChain R) (hstuck : ∀ a b, R a b → p a = false) :
    l.countP p ≤ 1 := by
  induction l with
  | nil => simp
  | cons x l ih =>
    cases l with
    | nil =>
      rw [List.countP_cons, List.countP_nil]
      split <;> omega
    | cons y l =>
      obtain ⟨hxy, hrest⟩ := List.isChain_cons_cons.mp h
      have hx := hstuck x y hxy
      have hle := ih hrest
      rw [List.countP_cons, hx]
      simpa using hle

/-! ## Recorded paths -/

/-- `ps` records each step of a path from `a` to `b`, by the labels of the states around it. -/
inductive Path {β : Type*} (R : α → α → Prop) (label : α → β) : α → List (β × β) → α → Prop where
  | nil (a : α) : Path R label a [] a
  | snoc {a b c : α} {ps : List (β × β)} (h : Path R label a ps b) (step : R b c) :
      Path R label a (ps ++ [(label b, label c)]) c

namespace Path

variable {β : Type*} {label : α → β} {ps qs : List (β × β)} {c : α}

theorem single (h : R a b) : Path R label a [(label a, label b)] b := (nil a).snoc h

theorem append (h : Path R label a ps b) (g : Path R label b qs c) :
    Path R label a (ps ++ qs) c := by
  induction g with
  | nil => rwa [List.append_nil]
  | snoc _ step ih =>
    rw [← List.append_assoc]
    exact ih.snoc step

theorem last {p : β × β} (h : Path R label a (ps ++ [p]) c) :
    ∃ b, R b c ∧ p = (label b, label c) := by
  generalize hl : ps ++ [p] = l at h
  cases h with
  | nil => simp at hl
  | snoc h step =>
    obtain ⟨-, hp⟩ := List.append_inj' hl rfl
    exact ⟨_, step, List.singleton_inj.mp hp⟩

/-- A path does not leave a state without successors. -/
theorem of_stuck (h : Path R label a ps b) (hstuck : ∀ c, ¬ R a c) : b = a ∧ ps = [] := by
  induction h with
  | nil => exact ⟨rfl, rfl⟩
  | snoc _ step ih =>
    obtain ⟨rfl, -⟩ := ih
    exact absurd step (hstuck _)

end Path

end Civicos.Library.Trail
