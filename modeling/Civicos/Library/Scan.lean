import Mathlib.Data.List.Pairwise
import Mathlib.Logic.Function.Iterate
import Mathlib.Algebra.BigOperators.Group.List.Basic
import Mathlib.Algebra.GroupWithZero.Nat
import Mathlib.Data.List.Basic

/-!
# Loops with an early end

A scan goes on from a value to the next until it meets one at which it stops, and keeps some of the
values on its way. Where the values after a stop would stop it as well, it keeps all those that pass
and do not stop, and keeps them in their order.

A drain serves the first ready item of a list until it meets a spent one, which it takes out and
stops. Nothing ready is left exactly when nothing ready stood behind a spent item.
-/
namespace Civicos.Library

variable {α : Type*} {next : α → α} {stop keep : α → Bool} {fuel n : ℕ} {x y : α} {xs : List α}

/-- A loop that is not over after `fuel` turns has no result. -/
def scan (next : α → α) (stop keep : α → Bool) : ℕ → α → Option (List α)
  | 0, _ => none
  | fuel + 1, x =>
    if stop x then
      some []
    else
      (scan next stop keep fuel (next x)).map fun xs => if keep x then x :: xs else xs

theorem stop_iterate (hstop : ∀ x, stop x = true → stop (next x) = true) (h : stop x = true) :
    stop (next^[n] x) = true := by
  induction n generalizing x with
  | zero => exact h
  | succ n ih => exact ih (hstop x h)

/-- A scan is over when it has turns enough to meet a stop. -/
theorem exists_scan (hend : stop (next^[n] x) = true) (hfuel : n < fuel) :
    ∃ xs, scan next stop keep fuel x = some xs := by
  induction fuel generalizing n x with
  | zero => omega
  | succ fuel ih =>
    unfold scan
    by_cases hx : stop x = true
    · exact ⟨[], if_pos hx⟩
    · cases n with
      | zero => exact absurd hend hx
      | succ n =>
        have hend' : stop (next^[n] (next x)) = true := hend
        obtain ⟨xs, hxs⟩ := ih hend' (by omega)
        rw [if_neg hx, hxs]
        exact ⟨_, rfl⟩

theorem mem_scan (hstop : ∀ x, stop x = true → stop (next x) = true)
    (h : scan next stop keep fuel x = some xs) :
    y ∈ xs ↔ (∃ m, y = next^[m] x) ∧ stop y = false ∧ keep y = true := by
  induction fuel generalizing x xs with
  | zero => cases h
  | succ fuel ih =>
    unfold scan at h
    split at h
    next hx =>
      cases h
      refine ⟨nofun, ?_⟩
      rintro ⟨⟨m, rfl⟩, hy, -⟩
      rw [stop_iterate hstop hx] at hy
      cases hy
    next hx =>
      obtain ⟨ys, hys, rfl⟩ := Option.map_eq_some_iff.mp h
      have hgrid : (∃ m, y = next^[m] x) ↔ y = x ∨ ∃ m, y = next^[m] (next x) := by
        constructor
        · rintro ⟨m, rfl⟩
          cases m with
          | zero => exact .inl rfl
          | succ m => exact .inr ⟨m, rfl⟩
        · rintro (rfl | ⟨m, rfl⟩)
          · exact ⟨0, rfl⟩
          · exact ⟨m + 1, rfl⟩
      rw [hgrid]
      have htail := ih hys
      by_cases hkeep : keep x = true
      · rw [if_pos hkeep, List.mem_cons, htail, or_and_right]
        refine or_congr_left ⟨?_, And.left⟩
        rintro rfl
        exact ⟨rfl, by simpa using hx, hkeep⟩
      · rw [if_neg hkeep, htail, or_and_right, or_iff_right]
        rintro ⟨rfl, -, hy⟩
        exact hkeep hy

/-- What the scan keeps comes in the order of the scan. -/
theorem scan_pairwise {R : α → α → Prop} (hstop : ∀ x, stop x = true → stop (next x) = true)
    (hR : ∀ x m, R x (next^[m + 1] x)) (h : scan next stop keep fuel x = some xs) :
    xs.Pairwise R := by
  induction fuel generalizing x xs with
  | zero => cases h
  | succ fuel ih =>
    unfold scan at h
    split at h
    · cases h
      exact .nil
    · obtain ⟨ys, hys, rfl⟩ := Option.map_eq_some_iff.mp h
      split
      · refine .cons (fun y hy => ?_) (ih hys)
        obtain ⟨⟨m, rfl⟩, -⟩ := (mem_scan hstop hys).mp hy
        exact hR x m
      · exact ih hys

/-- A loop over a list that does something which always ends -/
theorem mapM_some {β : Type*} {f : α → Option β} {g : α → β} (h : ∀ x ∈ xs, f x = some (g x)) :
    xs.mapM f = some (xs.map g) := by
  induction xs with
  | nil => rfl
  | cons x xs ih =>
    have htail := ih fun y hy => h y (List.mem_cons_of_mem _ hy)
    simp [h x List.mem_cons_self, htail]

end Civicos.Library

/-! ## Draining a queue -/

namespace Civicos.Library

/-- Nothing ready stands behind a ready item that is spent. -/
def Unblocked {α : Type} (ready spent : α → Bool) (l : List α) : Prop :=
  l.Pairwise fun a b => ready a = true → spent a = true → ready b = false

/-- The first ready item of a list, with what stands before and behind it -/
structure FirstReady {α : Type} (ready : α → Bool) (l pre : List α) (a : α) (post : List α) :
    Prop where
  split : l = pre ++ a :: post
  idle : ∀ x ∈ pre, ready x = false
  ready : ready a = true

variable {α : Type} {ready spent : α → Bool} {cost : α → ℕ} {l pre post : List α} {a a' : α}

theorem find?_eq_some_iff_firstReady :
    l.find? ready = some a ↔ ∃ pre post, FirstReady ready l pre a post := by
  rw [List.find?_eq_some_iff_append]
  constructor
  · rintro ⟨ha, pre, post, hsplit, hidle⟩
    exact ⟨pre, post, hsplit, fun x hx => by simpa using hidle x hx, ha⟩
  · rintro ⟨pre, post, hsplit, hidle, ha⟩
    exact ⟨ha, pre, post, hsplit, fun x hx => by simpa using hidle x hx⟩

theorem unblocked_of_idle (h : ∀ x ∈ l, ready x = false) : Unblocked ready spent l := by
  have hall : l.Pairwise fun _ _ => True := List.pairwise_of_forall fun _ _ => trivial
  refine hall.imp_of_mem fun hx _ _ hready => ?_
  simp [h _ hx] at hready

theorem unblocked_append (h : ∀ x ∈ pre, ready x = false) :
    Unblocked ready spent (pre ++ a :: post) ↔
      (ready a = true → spent a = true → ∀ x ∈ post, ready x = false) ∧
        Unblocked ready spent post := by
  rw [Unblocked, List.pairwise_append, List.pairwise_cons]
  constructor
  · rintro ⟨-, ⟨ha, hpost⟩, -⟩
    exact ⟨fun hready hspent x hx => ha x hx hready hspent, hpost⟩
  · rintro ⟨ha, hpost⟩
    refine ⟨unblocked_of_idle h, ⟨fun x hx hready hspent => ha hready hspent x hx, hpost⟩, ?_⟩
    intro x hx y _ hready
    simp [h x hx] at hready

namespace FirstReady

/-- Serving an item that is not spent blocks nothing and unblocks nothing. -/
theorem served (h : FirstReady ready l pre a post) (ha : spent a = false)
    (ha' : ready a' = true → spent a' = false) :
    Unblocked ready spent (pre ++ a' :: post) ↔ Unblocked ready spent l := by
  obtain ⟨rfl, hidle, -⟩ := h
  rw [unblocked_append hidle, unblocked_append hidle]
  refine and_congr_left fun _ => iff_of_true (fun hready hspent => ?_) fun _ hspent => ?_
  · simp [ha' hready] at hspent
  · simp [ha] at hspent

/-- Taking out a spent item leaves nothing ready exactly when it blocked nothing. -/
theorem retired (h : FirstReady ready l pre a post) (ha : spent a = true)
    (ha' : ready a' = false) :
    (∀ x ∈ pre ++ a' :: post, ready x = false) ↔ Unblocked ready spent l := by
  obtain ⟨rfl, hidle, hready⟩ := h
  rw [unblocked_append hidle]
  constructor
  · intro hall
    have hpost : ∀ x ∈ post, ready x = false := fun x hx =>
      hall x (List.mem_append_right _ (.tail _ hx))
    exact ⟨fun _ _ => hpost, unblocked_of_idle hpost⟩
  · rintro ⟨hpost, -⟩ x hx
    rcases List.mem_append.mp hx with hx | hx
    · exact hidle x hx
    rcases List.mem_cons.mp hx with rfl | hx
    · exact ha'
    · exact hpost hready ha x hx

end FirstReady

/-- The work that the ready items will make -/
def workOf (ready : α → Bool) (cost : α → ℕ) (l : List α) : ℕ :=
  (l.map fun a => if ready a then cost a else 0).sum

theorem FirstReady.workOf_lt (h : FirstReady ready l pre a post)
    (hlt : (if ready a' then cost a' else 0) < cost a) :
    workOf ready cost (pre ++ a' :: post) < workOf ready cost l := by
  obtain ⟨rfl, -, hready⟩ := h
  simp only [workOf, List.map_append, List.map_cons, List.sum_append, List.sum_cons, hready,
    if_true]
  omega

end Civicos.Library
