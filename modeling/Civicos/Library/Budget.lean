import Mathlib.Data.List.Induction

/-!
# Attempts on a budget

Work is attempted until it succeeds or has failed as often as its budget allows. What is reported
afterwards changes nothing. Where the record of a row stands then is told by the first reports
alone, as many of them as the budget has attempts.
-/
namespace Civicos.Library

inductive Phase where
  | pending
  | succeeded
  | exhausted
deriving DecidableEq, Repr

structure Attempts where
  count : ℕ := 0
  phase : Phase := .pending
deriving DecidableEq, Repr

namespace Attempts

variable {budget : ℕ} {a b : Attempts} {success : Bool} {reports : List Bool}

/-- One more report -/
def record (budget : ℕ) (a : Attempts) (success : Bool) : Attempts :=
  match a.phase with
  | .pending =>
    if success then ⟨a.count + 1, .succeeded⟩
    else if budget ≤ a.count + 1 then ⟨a.count + 1, .exhausted⟩
    else ⟨a.count + 1, .pending⟩
  | _ => a

theorem record_of_closed (h : a.phase ≠ .pending) : a.record budget success = a := by
  unfold record
  split
  next hpending => exact absurd hpending h
  next => rfl

/-- What the reports since the beginning tell: all of them are failures and there is an attempt
left, or one of the first is a success, or the first are failures and there were enough of them. -/
inductive Told (budget : ℕ) (reports : List Bool) : Attempts → Prop where
  | pending (hlength : reports.length < budget) (hfailed : true ∉ reports) :
      Told budget reports ⟨reports.length, .pending⟩
  | succeeded {n : ℕ} (hcount : n ≤ budget) (hsuccess : true ∈ reports.take budget) :
      Told budget reports ⟨n, .succeeded⟩
  | exhausted (hlength : budget ≤ reports.length) (hfailed : true ∉ reports.take budget) :
      Told budget reports ⟨budget, .exhausted⟩

theorem Told.record (h : Told budget reports a) :
    Told budget (reports ++ [success]) (a.record budget success) := by
  cases h with
  | pending hlength hfailed =>
    have htake : (reports ++ [success]).take budget = reports ++ [success] := by
      refine List.take_of_length_le ?_
      simpa [Nat.succ_le_iff] using hlength
    cases success with
    | true => exact .succeeded hlength (by rw [htake]; simp)
    | false =>
      have hnone : true ∉ reports ++ [false] := by simpa using hfailed
      by_cases hlast : budget ≤ reports.length + 1
      · obtain rfl : budget = reports.length + 1 := by omega
        simp only [Attempts.record, Bool.false_eq_true, if_false, Nat.le_refl, if_true]
        exact .exhausted (by simp) (by rwa [htake])
      · simp only [Attempts.record, Bool.false_eq_true, if_false, hlast]
        have hlength' : (reports ++ [false]).length < budget := by simpa using hlast
        simpa using Told.pending hlength' hnone
  | succeeded hcount hsuccess =>
    refine .succeeded hcount ?_
    rw [List.take_append]
    exact List.mem_append_left _ hsuccess
  | exhausted hlength hfailed =>
    refine .exhausted (by simp; omega) ?_
    rwa [List.take_append_of_le_length hlength]

theorem told (hbudget : 0 < budget) (reports : List Bool) :
    Told budget reports (reports.foldl (Attempts.record budget) {}) := by
  induction reports using List.reverseRecOn with
  | nil => exact .pending hbudget (by simp)
  | append_singleton reports success ih =>
    rw [List.foldl_append]
    exact ih.record

namespace Told

theorem count_le (h : Told budget reports a) : a.count ≤ budget := by
  cases h with
  | pending hlength => exact Nat.le_of_lt hlength
  | succeeded hcount => exact hcount
  | exhausted => exact Nat.le_refl _

theorem succeeded_iff (h : Told budget reports a) :
    a.phase = .succeeded ↔ true ∈ reports.take budget := by
  cases h with
  | pending hlength hfailed =>
    simp only [reduceCtorEq, false_iff]
    exact fun hsuccess => hfailed (List.mem_of_mem_take hsuccess)
  | succeeded hcount hsuccess => simpa using hsuccess
  | exhausted hlength hfailed => simpa using hfailed

theorem exhausted_iff (h : Told budget reports a) :
    a.phase = .exhausted ↔ budget ≤ reports.length ∧ true ∉ reports.take budget := by
  cases h with
  | pending hlength =>
    simp only [reduceCtorEq, false_iff, not_and]
    omega
  | succeeded hcount hsuccess => simp [hsuccess]
  | exhausted hlength hfailed => simp [hlength, hfailed]

end Told

end Attempts

end Civicos.Library
