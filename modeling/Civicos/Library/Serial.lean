import Civicos.Library.Machine
import Mathlib.Data.List.Nodup
import Mathlib.Logic.Function.Basic

/-!
# Operations on keyed rows

An operation looks for the row with its key and leaves one. Operations that have all been done with
what is stored now give what a serial run of them gives.
-/
namespace Civicos.Library

variable {K R : Type*} [DecidableEq K]

/-! ## Rows with a unique key -/

/-- The rows under a unique index -/
structure Keyed (key : R → K) where
  rows : List R
  unique : (rows.map key).Nodup

namespace Keyed

variable {key : R → K} {t : Keyed key} {r : R} {k : K}

def find (t : Keyed key) (k : K) : Option R := t.rows.find? (key · = k)

theorem key_of_find (h : t.find k = some r) : key r = k := by simpa using List.find?_some h

theorem find_eq_some : t.find k = some r ↔ r ∈ t.rows ∧ key r = k := by
  constructor
  · intro h
    exact ⟨List.mem_of_find?_eq_some h, key_of_find h⟩
  · rintro ⟨hmem, hkey⟩
    cases hfind : t.find k with
    | none => exact absurd hkey (by simpa using List.find?_eq_none.mp hfind r hmem)
    | some q =>
      have heq := List.inj_on_of_nodup_map t.unique (List.mem_of_find?_eq_some hfind) hmem
      rw [heq ((key_of_find hfind).trans hkey.symm)]

/-- The row with its key is replaced, or the row is a new one. -/
def put (t : Keyed key) (r : R) : Keyed key where
  rows :=
    if key r ∈ t.rows.map key then t.rows.map fun q => if key q = key r then r else q
    else t.rows ++ [r]
  unique := by
    split
    · have hkeys : (t.rows.map fun q => if key q = key r then r else q).map key =
          t.rows.map key := by
        rw [List.map_map]
        refine List.map_congr_left fun q _ => ?_
        by_cases hq : key q = key r <;> simp [hq]
      rw [hkeys]
      exact t.unique
    · next hnew =>
      rw [List.map_append, List.nodup_append]
      refine ⟨t.unique, by simp, fun k hk l hl => ?_⟩
      rintro rfl
      exact hnew (List.mem_singleton.mp hl ▸ hk)

theorem mem_put {q : R} : q ∈ (t.put r).rows ↔ q = r ∨ q ∈ t.rows ∧ key q ≠ key r := by
  unfold put
  split
  · next hold =>
    obtain ⟨p, hp, hkey⟩ := List.mem_map.mp hold
    simp only [List.mem_map]
    constructor
    · rintro ⟨x, hx, rfl⟩
      by_cases hxr : key x = key r
      · exact .inl (by simp [hxr])
      · exact .inr (by simpa [hxr] using hx)
    · rintro (rfl | ⟨hq, hne⟩)
      · exact ⟨p, hp, by simp [hkey]⟩
      · exact ⟨q, hq, by simp [hne]⟩
  · next hnew =>
    simp only [List.mem_append, List.mem_singleton]
    constructor
    · rintro (hq | rfl)
      · exact .inr ⟨hq, fun hkey => hnew (List.mem_map.mpr ⟨q, hq, hkey⟩)⟩
      · exact .inl rfl
    · rintro (rfl | ⟨hq, -⟩)
      · exact .inr rfl
      · exact .inl hq

theorem find_put : (t.put r).find = Function.update t.find (key r) (some r) := by
  funext k
  by_cases hk : k = key r
  · subst hk
    rw [Function.update_self]
    exact find_eq_some.mpr ⟨mem_put.mpr (.inl rfl), rfl⟩
  · rw [Function.update_of_ne hk]
    apply Option.ext
    intro q
    rw [find_eq_some, find_eq_some, mem_put]
    constructor
    · rintro ⟨rfl | ⟨hq, -⟩, hkey⟩
      · exact absurd hkey.symm hk
      · exact ⟨hq, hkey⟩
    · rintro ⟨hq, hkey⟩
      exact ⟨.inr ⟨hq, fun h => hk (hkey.symm.trans h)⟩, hkey⟩

/-- All rows of another table are put. -/
def putAll (t w : Keyed key) : Keyed key := w.rows.foldl put t

theorem find_foldl_put {rows : List R} (hrows : (rows.map key).Nodup) (t : Keyed key) :
    (rows.foldl put t).find k = (rows.find? (key · = k)).or (t.find k) := by
  induction rows generalizing t with
  | nil => rfl
  | cons r rows ih =>
    obtain ⟨hr, hrows⟩ := List.nodup_cons.mp hrows
    rw [List.foldl_cons, ih hrows, find_put]
    by_cases hk : key r = k
    · have hnone : rows.find? (key · = k) = none := by
        refine List.find?_eq_none.mpr fun q hq hkey => hr ?_
        exact List.mem_map.mpr ⟨q, hq, (of_decide_eq_true hkey).trans hk.symm⟩
      simp [hk, hnone]
    · rw [Function.update_of_ne (Ne.symm hk), List.find?_cons_of_neg (by simpa using hk)]

theorem count_find (h : t.find k = some r) : t.rows.countP (key · = k) = 1 := by
  obtain ⟨hmem, rfl⟩ := find_eq_some.mp h
  have hcount := List.count_eq_one_of_mem t.unique (List.mem_map.mpr ⟨r, hmem, rfl⟩)
  rw [List.count, List.countP_map] at hcount
  exact hcount

end Keyed

/-! ## Serial runs -/

/-- An operation leaves a row with its key, whether or not it finds one. -/
structure KeyedOp (K R : Type*) where
  key : K
  apply : Option R → R

namespace KeyedOp

variable {m m' : K → Option R} {o : KeyedOp K R} {os : List (KeyedOp K R)} {k : K}

def run (m : K → Option R) (o : KeyedOp K R) : K → Option R :=
  Function.update m o.key (some (o.apply (m o.key)))

def runAll (m : K → Option R) (os : List (KeyedOp K R)) : K → Option R := os.foldl run m

/-- What each operation of a serial run finds -/
def found (m : K → Option R) : List (KeyedOp K R) → List (Option R)
  | [] => []
  | o :: os => m o.key :: found (o.run m) os

@[simp] theorem runAll_nil : runAll m [] = m := rfl

@[simp] theorem runAll_cons : runAll m (o :: os) = runAll (o.run m) os := rfl

theorem runAll_append {os' : List (KeyedOp K R)} :
    runAll m (os ++ os') = runAll (runAll m os) os' := List.foldl_append

theorem run_congr (h : m k = m' k) : o.run m k = o.run m' k := by
  unfold run
  by_cases hk : k = o.key
  · subst hk
    simp [h]
  · simp [hk, h]

/-- A serial run goes by the row of each key alone. -/
theorem runAll_congr (h : m k = m' k) : runAll m os k = runAll m' os k := by
  induction os generalizing m m' with
  | nil => exact h
  | cons o os ih => exact ih (run_congr h)

/-- What the operations on the row of a key keep, a serial run keeps. -/
theorem runAll_induct {P : Option R → Prop} (start : P (m k))
    (keep : ∀ o ∈ os, o.key = k → ∀ f, P f → P (some (o.apply f))) : P (runAll m os k) := by
  induction os generalizing m with
  | nil => exact start
  | cons o os ih =>
    refine ih ?_ fun p hp => keep p (List.mem_cons_of_mem _ hp)
    by_cases hk : o.key = k
    · have hrun : o.run m k = some (o.apply (m k)) := by
        subst hk
        exact Function.update_self ..
      rw [hrun]
      exact keep o List.mem_cons_self hk _ start
    · have hrun : o.run m k = m k := Function.update_of_ne (Ne.symm hk) _ _
      rw [hrun]
      exact start

theorem runAll_of_notMem (h : ∀ o ∈ os, o.key ≠ k) : runAll m os k = m k :=
  runAll_induct (P := (· = m k)) rfl fun o ho hk => absurd hk (h o ho)

theorem runAll_isSome (h : ∃ o ∈ os, o.key = k) : (runAll m os k).isSome = true := by
  obtain ⟨o, ho, hk⟩ := h
  obtain ⟨before, after, rfl⟩ := List.append_of_mem ho
  rw [runAll_append, runAll_cons]
  refine runAll_induct (P := fun f => f.isSome = true) ?_ fun _ _ _ _ _ => rfl
  subst hk
  simp [run]

theorem found_congr (h : ∀ o ∈ os, m o.key = m' o.key) : found m os = found m' os := by
  induction os generalizing m m' with
  | nil => rfl
  | cons o os ih =>
    obtain ⟨ho, hos⟩ := List.forall_mem_cons.mp h
    simp only [found, List.cons.injEq]
    exact ⟨ho, ih fun p hp => run_congr (hos p hp)⟩

theorem found_append_one : found m (os ++ [o]) = found m os ++ [runAll m os o.key] := by
  induction os generalizing m with
  | nil => rfl
  | cons p os ih => simp [found, ih]

theorem length_found : (found m os).length = os.length := by
  induction os generalizing m with
  | nil => rfl
  | cons o os ih => simp [found, ih]

end KeyedOp

/-! ## Writes that have not been committed -/

/-- What a writer sees: its own writes over the rows that are stored -/
def overlay (w m : K → Option R) (k : K) : Option R := (w k).or (m k)

theorem Keyed.find_putAll {key : R → K} {t w : Keyed key} :
    (t.putAll w).find = overlay w.find t.find :=
  funext fun _ => find_foldl_put w.unique t

theorem Keyed.key_of_overlay {key : R → K} {t w : Keyed key} {r : R} {k : K}
    (h : overlay w.find t.find k = some r) : key r = k := by
  rcases Option.or_eq_some_iff.mp h with h | ⟨-, h⟩
  · exact key_of_find h
  · exact key_of_find h

section Overlay

open KeyedOp

/-- The writes that a writer has left are those of a serial run of its operations on the rows that
are stored. -/
structure Serial (m w : K → Option R) (os : List (KeyedOp K R)) : Prop where
  view : overlay w m = runAll m os
  own : ∀ k, (∀ o ∈ os, o.key ≠ k) → w k = none

namespace Serial

variable {m m' w : K → Option R} {o : KeyedOp K R} {os : List (KeyedOp K R)} {f : Option R}

theorem nil : Serial m (fun _ => none) [] where
  view := rfl
  own _ _ := rfl

theorem found_append_one (h : Serial m w os) :
    found m (os ++ [o]) = found m os ++ [overlay w m o.key] := by
  rw [KeyedOp.found_append_one, h.view]

/-- The operation writes what it leaves. -/
theorem write (h : Serial m w os) (hf : overlay w m o.key = f) :
    Serial m (Function.update w o.key (some (o.apply f))) (os ++ [o]) where
  view := by
    subst hf
    rw [runAll_append, ← h.view]
    funext k
    by_cases hk : k = o.key
    · subst hk
      simp [overlay, run]
    · simp [overlay, run, hk]
  own k hk := by
    have hne : k ≠ o.key := Ne.symm (hk o (by simp))
    rw [Function.update_of_ne hne]
    exact h.own k fun p hp => hk p (by simp [hp])

/-- The operation leaves what it has found, and writes nothing. -/
theorem keep (h : Serial m w os) (hf : overlay w m o.key = f) (ho : some (o.apply f) = f) :
    Serial m w (os ++ [o]) where
  view := by
    subst hf
    rw [runAll_append, ← h.view]
    exact (Function.update_eq_self_iff.mpr ho).symm
  own k hk := h.own k fun p hp => hk p (by simp [hp])

/-- Rows change that no operation has looked at. -/
theorem frame (h : Serial m w os) (hm : ∀ o ∈ os, m' o.key = m o.key) : Serial m' w os where
  view := by
    funext k
    by_cases hk : ∃ o ∈ os, o.key = k
    · obtain ⟨o, ho, rfl⟩ := hk
      rw [runAll_congr (hm o ho), ← h.view]
      simp [overlay, hm o ho]
    · have hout : ∀ o ∈ os, o.key ≠ k := fun o ho hkey => hk ⟨o, ho, hkey⟩
      rw [runAll_of_notMem hout]
      simp [overlay, h.own k hout]
  own := h.own

end Serial

end Overlay

end Civicos.Library
