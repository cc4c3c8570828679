import Civicos.Reports.T3010
import Mathlib.Data.Nat.SuccPred
import Mathlib.Order.SuccPred.IntervalSucc

/-!
# Fiscal years

The fiscal years of a charity end on the same date of each year, or with February. A year begins
on the day after the date that is a year before its end; the year that ends on a 28 February after
a leap year begins on a day that the year before has counted.
-/
namespace Civicos.Reports

open Library
open Payments (Donation Instant)

/-- When the fiscal years end; a fixed date is one that every year has. -/
inductive YearEndRule
  | fixed (month day : ℕ) (every : (1 ≤ month ∧ month ≤ 12) ∧
      1 ≤ day ∧ day ≤ (monthLengths 1).getD (month - 1) 0)
  | lastOfFebruary
deriving DecidableEq

/-- 29 February -/
def IsLeapDay (d : ℕ) : Prop := monthOf d = 2 ∧ dayOfMonth d = 29

instance : DecidablePred IsLeapDay := fun _ => inferInstanceAs (Decidable (_ ∧ _))

/-- The time whose donations the report of the fiscal year counts -/
def reportRange (fiscalYearEnd : ℕ) : Except String (Instant × Instant) := do
  let years ← fiscalYearDateRange fiscalYearEnd
  let stop ← nextDay years.2
  return (years.1 * dayLength, stop * dayLength)

/-! ## Dates -/

/-- No month is shorter than in the first year. -/
theorem length_first_le {y : ℕ} (i : ℕ) :
    (monthLengths 1).getD i 0 ≤ (monthLengths y).getD i 0 := by
  rcases i with _ | _ | i
  · exact le_rfl
  · exact Nat.le_add_right 28 _
  · exact le_rfl

theorem dayOfMonth_eq (d : ℕ) :
    dayOfMonth d = d - monthStart (yearOf d) (monthOf d) + 1 := by
  have hyear := (yearOf_eq_iff (d := d) (one_le_yearOf d)).mp rfl
  have hsum := sum_monthLengths (one_le_yearOf d)
  have hlt : d - daysBefore (yearOf d) < (monthLengths (yearOf d)).sum := by omega
  have hday := monthDay_snd (m := 1) hlt
  unfold dayOfMonth monthStart monthOf
  rw [hday]
  omega

theorem civilDate_ok {y m k d : ℕ} : civilDate y m k = .ok d ↔
    (1 ≤ y ∧ y ≤ 9999) ∧ (1 ≤ m ∧ m ≤ 12) ∧ (1 ≤ k ∧ k ≤ (monthLengths y).getD (m - 1) 0) ∧
      monthStart y m + (k - 1) = d := by
  unfold civilDate
  split
  next h => exact ⟨(by cases ·), fun h => by omega⟩
  next hy =>
    split
    next h => exact ⟨(by cases ·), fun h => by omega⟩
    next hm =>
      split
      next h => exact ⟨(by cases ·), fun h => by omega⟩
      next hk =>
        constructor
        · intro h
          cases h
          exact ⟨by omega, by omega, by omega, rfl⟩
        · intro h
          exact congrArg _ h.2.2.2

namespace YearEndRule

variable (rule : YearEndRule)

def month : ℕ :=
  match rule with
  | .fixed month _ _ => month
  | .lastOfFebruary => 2

def day (y : ℕ) : ℕ :=
  match rule with
  | .fixed _ day _ => day
  | .lastOfFebruary => 28 + (isLeap y).toNat

/-- The date on which the fiscal year of a year ends -/
def yearEnd (y : ℕ) : Except String ℕ := civilDate y rule.month (rule.day y)

/-- First and last day of the fiscal year -/
def dateRange (y : ℕ) : Except String (ℕ × ℕ) := do fiscalYearDateRange (← rule.yearEnd y)

/-- The report of the fiscal year counts what was given at the time. -/
def Counts (y : ℕ) (t : Instant) : Prop :=
  ∃ fiscalYearEnd range, rule.yearEnd y = .ok fiscalYearEnd ∧
    reportRange fiscalYearEnd = .ok range ∧ Within range t

/-- Between two instants that are counted -/
def Spans (t : Instant) : Prop :=
  ∃ y y' t₀ t₁, rule.Counts y t₀ ∧ rule.Counts y' t₁ ∧ t₀ ≤ t ∧ t ≤ t₁

/-! ## The last days -/

/-- The last day of the fiscal year -/
def endDay (y : ℕ) : ℕ := monthStart y rule.month + (rule.day y - 1)

/-- The first day of the fiscal year -/
def startDay (y : ℕ) : ℕ :=
  if IsLeapDay (rule.endDay (y - 1)) then rule.endDay (y - 1) else rule.endDay (y - 1) + 1

variable {rule} {y : ℕ}

theorem month_bounds : 1 ≤ rule.month ∧ rule.month ≤ 12 := by
  cases rule with
  | fixed month day every => exact every.1
  | lastOfFebruary => exact ⟨by decide, by decide⟩

theorem day_bounds : 1 ≤ rule.day y ∧
    rule.day y ≤ (monthLengths y).getD (rule.month - 1) 0 := by
  cases rule with
  | fixed month day every =>
    obtain ⟨-, hpos, hle⟩ := every
    exact ⟨hpos, hle.trans (length_first_le (month - 1))⟩
  | lastOfFebruary => exact ⟨by simp only [day]; omega, le_rfl⟩

theorem endDay_bounds : monthStart y rule.month ≤ rule.endDay y ∧
    rule.endDay y < monthStart y (rule.month + 1) := by
  obtain ⟨hmonth, hmonth'⟩ := rule.month_bounds
  obtain ⟨hday, hday'⟩ := @day_bounds rule y
  have hnext := monthStart_succ (y := y) hmonth hmonth'
  unfold endDay
  omega

theorem endDay_within (hy : 1 ≤ y) :
    daysBefore y ≤ rule.endDay y ∧ rule.endDay y < daysBefore (y + 1) := by
  obtain ⟨hmonth, hmonth'⟩ := rule.month_bounds
  obtain ⟨hlow, hhigh⟩ := @endDay_bounds rule y
  constructor
  · exact (monthStart_mono hmonth).trans hlow
  · rw [← monthStart_thirteen hy]
    exact hhigh.trans_le (monthStart_mono (by omega))

theorem endDay_lt_succ (hy : 1 ≤ y) : rule.endDay y < rule.endDay (y + 1) :=
  (endDay_within hy).2.trans_le (endDay_within (by omega)).1

theorem endDay_civil (hy : 1 ≤ y) : yearOf (rule.endDay y) = y ∧
    monthOf (rule.endDay y) = rule.month ∧ dayOfMonth (rule.endDay y) = rule.day y := by
  obtain ⟨hmonth, hmonth'⟩ := rule.month_bounds
  obtain ⟨hyear, hm⟩ := (monthOf_eq_iff hy hmonth hmonth').mpr endDay_bounds
  refine ⟨hyear, hm, ?_⟩
  rw [dayOfMonth_eq, hyear, hm, endDay]
  have hday := (@day_bounds rule y).1
  omega

theorem yearEnd_ok {d : ℕ} : rule.yearEnd y = .ok d ↔ (1 ≤ y ∧ y ≤ 9999) ∧ rule.endDay y = d := by
  obtain ⟨hmonth, hmonth'⟩ := rule.month_bounds
  obtain ⟨hday, hday'⟩ := @day_bounds rule y
  unfold yearEnd endDay
  rw [civilDate_ok]
  grind

theorem isLeapDay_endDay (hy : 1 ≤ y) :
    IsLeapDay (rule.endDay y) ↔ rule = .lastOfFebruary ∧ isLeap y = true := by
  obtain ⟨-, hmonth, hday⟩ := @endDay_civil rule _ hy
  unfold IsLeapDay
  rw [hmonth, hday]
  cases rule with
  | fixed month day every =>
    obtain ⟨-, -, hle⟩ := every
    simp only [YearEndRule.month, YearEndRule.day, reduceCtorEq, false_and, iff_false]
    rintro ⟨rfl, rfl⟩
    revert hle
    decide
  | lastOfFebruary => cases hleap : isLeap y <;> simp [YearEndRule.month, YearEndRule.day, hleap]

/-! ## The first days -/

theorem isLeap_succ (h : isLeap (y + 1) = true) : isLeap y = false := by
  unfold isLeap at *
  simp only [decide_eq_true_eq, decide_eq_false_iff_not] at *
  omega

theorem startDay_eq (hy : 1 ≤ y) : rule.startDay (y + 1) =
    if rule = .lastOfFebruary ∧ isLeap y = true then rule.endDay y else rule.endDay y + 1 := by
  unfold startDay
  simp only [Nat.add_sub_cancel, isLeapDay_endDay hy]

/-- The date a year before the end of a year is the day before its start. -/
theorem oneYearAgo_ok (hy : 1 ≤ y) (hy' : y < 9999) :
    ∃ d, (civilDate y rule.month (rule.day (y + 1)) <|> civilDate y rule.month 28) = .ok d ∧
      d + 1 = rule.startDay (y + 1) := by
  cases rule with
  | fixed month day every =>
    have hsame : civilDate y month day = .ok ((fixed month day every).endDay y) :=
      (@yearEnd_ok (fixed month day every) _ _).mpr ⟨⟨hy, hy'.le⟩, rfl⟩
    refine ⟨_, congrArg (· <|> _) hsame, ?_⟩
    rw [startDay_eq hy, if_neg (by simp)]
  | lastOfFebruary =>
    have hago : civilDate y 2 28 = .ok (monthStart y 2 + 27) :=
      civilDate_ok.mpr ⟨⟨hy, hy'.le⟩, by decide, ⟨by decide, Nat.le_add_right 28 _⟩, rfl⟩
    have hend : lastOfFebruary.endDay y = monthStart y 2 + 27 + (isLeap y).toNat := by
      simp only [endDay, month, day]
      omega
    cases hleap : isLeap (y + 1) with
    | false =>
      -- The year before has a 28 February, and it need not be its last day.
      refine ⟨monthStart y 2 + 27, ?_, ?_⟩
      · simp only [month, day, hleap, Bool.toNat_false, Nat.add_zero, hago]
        rfl
      · rw [startDay_eq hy, hend]
        cases isLeap y <;> simp
    | true =>
      have hcommon := isLeap_succ hleap
      have hnone : ∃ e, civilDate y 2 29 = .error e := by
        cases hdate : civilDate y 2 29 with
        | error e => exact ⟨e, rfl⟩
        | ok d =>
          obtain ⟨-, -, ⟨-, hlength⟩, -⟩ := civilDate_ok.mp hdate
          simp [monthLengths, hcommon] at hlength
      obtain ⟨e, hnone⟩ := hnone
      refine ⟨monthStart y 2 + 27, ?_, ?_⟩
      · simp only [month, day, hleap, Bool.toNat_true, hnone, hago]
        rfl
      · rw [startDay_eq hy, hend, hcommon]
        simp

theorem nextDay_ok {d d' : ℕ} : nextDay d = .ok d' ↔ d + 1 = d' ∧ d' < daysBefore 10000 := by
  unfold nextDay
  grind

theorem startDay_bounds (hy : 1 ≤ y) : rule.endDay y ≤ rule.startDay (y + 1) ∧
    rule.startDay (y + 1) ≤ rule.endDay y + 1 := by
  rw [startDay_eq hy]
  split <;> omega

theorem fiscalYearDateRange_endDay (hy : 1 ≤ y) : fiscalYearDateRange (rule.endDay y) =
    (civilDate (y - 1) rule.month (rule.day y) <|> civilDate (y - 1) rule.month 28) >>= fun d =>
      nextDay d >>= fun first => .ok (first, rule.endDay y) := by
  obtain ⟨hyear, hmonth, hday⟩ := @endDay_civil rule _ hy
  unfold fiscalYearDateRange
  rw [hyear, hmonth, hday]
  rfl

theorem two_le_of_oneYearAgo {d : ℕ}
    (h : (civilDate (y - 1) rule.month (rule.day y) <|> civilDate (y - 1) rule.month 28) = .ok d) :
    2 ≤ y := by
  have hsome : ∃ k, civilDate (y - 1) rule.month k = .ok d := by
    cases hdate : civilDate (y - 1) rule.month (rule.day y) with
    | ok d' =>
      rw [hdate] at h
      exact ⟨_, hdate.trans h⟩
    | error e =>
      rw [hdate] at h
      exact ⟨_, h⟩
  obtain ⟨k, hk⟩ := hsome
  have hyear := (civilDate_ok.mp hk).1
  omega

/-- The years that are computed -/
theorem dateRange_ok {r : ℕ × ℕ} : rule.dateRange y = .ok r ↔
    (2 ≤ y ∧ y ≤ 9999) ∧ (rule.startDay y, rule.endDay y) = r := by
  constructor
  · intro h
    obtain ⟨d, hend, hrange⟩ := except_bind_ok.mp h
    obtain ⟨⟨hy, hy'⟩, rfl⟩ := yearEnd_ok.mp hend
    rw [fiscalYearDateRange_endDay hy] at hrange
    obtain ⟨ago, hago, hfirst⟩ := except_bind_ok.mp hrange
    obtain ⟨first, hnext, hr⟩ := except_bind_ok.mp hfirst
    have htwo := two_le_of_oneYearAgo hago
    obtain ⟨y, rfl⟩ := Nat.exists_eq_add_of_le' hy
    obtain ⟨ago', hago', hstart⟩ := @oneYearAgo_ok rule y (by omega) (by omega)
    cases hago.symm.trans hago'
    obtain ⟨rfl, -⟩ := nextDay_ok.mp hnext
    cases hr
    exact ⟨⟨htwo, hy'⟩, congrArg (·, _) hstart.symm⟩
  · rintro ⟨⟨hy, hy'⟩, rfl⟩
    obtain ⟨y, rfl⟩ := Nat.exists_eq_add_of_le' (Nat.le_of_succ_le hy)
    obtain ⟨ago, hago, hstart⟩ := @oneYearAgo_ok rule y (by omega) (by omega)
    have hlast : rule.startDay (y + 1) < daysBefore 10000 := by
      have hbefore := (@startDay_bounds rule y (by omega)).2
      have hwithin := (@endDay_within rule y (by omega)).2
      have hyears := daysBefore_le (by omega : 1 ≤ y + 1) (by omega : y + 1 ≤ 9999)
      have hend : daysBefore 9999 < daysBefore 10000 := daysBefore_lt_succ (by decide)
      omega
    refine except_bind_ok.mpr ⟨_, yearEnd_ok.mpr ⟨⟨by omega, hy'⟩, rfl⟩, ?_⟩
    rw [fiscalYearDateRange_endDay (by omega)]
    refine except_bind_ok.mpr ⟨ago, hago, except_bind_ok.mpr ⟨_, ?_, rfl⟩⟩
    exact nextDay_ok.mpr ⟨hstart, hlast⟩

/-! ## What is counted -/

/-- The report of a year is computed unless its end is the last of all days. -/
def Computed (rule : YearEndRule) (y : ℕ) : Prop :=
  (2 ≤ y ∧ y ≤ 9999) ∧ rule.endDay y + 1 < daysBefore 10000

instance (rule : YearEndRule) : DecidablePred rule.Computed := fun _ =>
  inferInstanceAs (Decidable ((_ ∧ _) ∧ _))

theorem counts_iff {t : Instant} : rule.Counts y t ↔
    rule.Computed y ∧ rule.startDay y ≤ t / dayLength ∧ t / dayLength ≤ rule.endDay y := by
  have hpos : 0 < dayLength := by decide
  have hwithin : Within (rule.startDay y * dayLength, (rule.endDay y + 1) * dayLength) t ↔
      rule.startDay y ≤ t / dayLength ∧ t / dayLength ≤ rule.endDay y := by
    rw [Nat.le_div_iff_mul_le hpos, ← Nat.lt_succ_iff (n := rule.endDay y),
      Nat.div_lt_iff_lt_mul hpos]
    exact Iff.rfl
  rw [← hwithin]
  constructor
  · rintro ⟨fiscalYearEnd, range, hend, hreport, ht⟩
    obtain ⟨years, hyears, h₁⟩ := except_bind_ok.mp hreport
    obtain ⟨stop, hstop, h₂⟩ := except_bind_ok.mp h₁
    obtain ⟨hy, rfl⟩ := dateRange_ok.mp (except_bind_ok.mpr ⟨_, hend, hyears⟩)
    obtain ⟨rfl, hlast⟩ := nextDay_ok.mp hstop
    cases h₂
    exact ⟨⟨hy, hlast⟩, ht⟩
  · rintro ⟨⟨hy, hlast⟩, ht⟩
    obtain ⟨fiscalYearEnd, hend, hyears⟩ := except_bind_ok.mp (dateRange_ok.mpr ⟨hy, rfl⟩)
    refine ⟨fiscalYearEnd, _, hend, ?_, ht⟩
    exact except_bind_ok.mpr ⟨_, hyears, except_bind_ok.mpr ⟨_, nextDay_ok.mpr ⟨rfl, hlast⟩, rfl⟩⟩

/-- Between the ends of two years -/
def Own (rule : YearEndRule) (y d : ℕ) : Prop := rule.endDay y < d ∧ d ≤ rule.endDay (y + 1)

theorem endDay_mono : Monotone fun n => rule.endDay (n + 1) :=
  monotone_nat_of_le_succ fun n => (endDay_lt_succ (by omega)).le

theorem own_unique {d z : ℕ} (hy : 1 ≤ y) (hz : 1 ≤ z) (h : rule.Own y d) (h' : rule.Own z d) :
    y = z := by
  obtain ⟨y, rfl⟩ := Nat.exists_eq_add_of_le' hy
  obtain ⟨z, rfl⟩ := Nat.exists_eq_add_of_le' hz
  by_contra hne
  have hne' : y ≠ z := fun heq => hne (congrArg (· + 1) heq)
  exact Set.disjoint_left.mp (endDay_mono.pairwise_disjoint_on_Ioc_succ hne') h h'

theorem computed_of_le {z : ℕ} (h : rule.Computed z) (hy : 2 ≤ y) (hle : y ≤ z) :
    rule.Computed y := by
  obtain ⟨⟨-, hz⟩, hlast⟩ := h
  obtain ⟨y, rfl⟩ := Nat.exists_eq_add_of_le' (Nat.le_of_succ_le hy)
  obtain ⟨z, rfl⟩ := Nat.exists_eq_add_of_le' (hy.trans hle |> Nat.le_of_succ_le)
  have hmono : rule.endDay (y + 1) ≤ rule.endDay (z + 1) := endDay_mono (by omega)
  exact ⟨⟨hy, hle.trans hz⟩, by omega⟩

/-- There is no gap. -/
theorem own_of_spans {t : Instant} (h : rule.Spans t) :
    ∃ y, 1 ≤ y ∧ rule.Computed (y + 1) ∧ rule.Own y (t / dayLength) := by
  obtain ⟨y, z, t₀, t₁, hy, hz, hle, hle'⟩ := h
  obtain ⟨⟨⟨htwo, -⟩, -⟩, hstart, -⟩ := counts_iff.mp hy
  obtain ⟨hcomputed, -, hend⟩ := counts_iff.mp hz
  have hlow : rule.endDay 1 < t / dayLength := by
    have hday : rule.startDay y ≤ t / dayLength := hstart.trans (Nat.div_le_div_right hle)
    obtain ⟨y, rfl⟩ := Nat.exists_eq_add_of_le' htwo
    rcases Nat.eq_zero_or_pos y with rfl | hpos
    · have hcommon : isLeap 1 = false := by decide
      rw [startDay_eq (by omega), hcommon] at hday
      simpa using hday
    · have hbefore : rule.endDay (y + 1) ≤ rule.startDay (y + 2) :=
        (startDay_bounds (by omega)).1
      have hfirst : rule.endDay 1 < rule.endDay 2 := endDay_lt_succ (by omega)
      have hmono : rule.endDay 2 ≤ rule.endDay (y + 1) := endDay_mono (by omega : 1 ≤ y)
      omega
  have hhigh : t / dayLength ≤ rule.endDay z := (Nat.div_le_div_right hle').trans hend
  obtain ⟨z, rfl⟩ := Nat.exists_eq_add_of_le' (Nat.le_of_succ_le hcomputed.1.1)
  have hmem : t / dayLength ∈ Set.Ioc (rule.endDay (0 + 1)) (rule.endDay (z + 1)) := ⟨hlow, hhigh⟩
  rw [← endDay_mono.biUnion_Ico_Ioc_map_succ 0 z] at hmem
  obtain ⟨n, hn, hown⟩ := Set.mem_iUnion₂.mp hmem
  exact ⟨n + 1, by omega, computed_of_le hcomputed (by omega) (by have := hn.2; omega), hown⟩

theorem counts_of_own {t : Instant} (hy : 1 ≤ y) (h : rule.Computed (y + 1))
    (hown : rule.Own y (t / dayLength)) : rule.Counts (y + 1) t := by
  have hstart := (@startDay_bounds rule _ hy).2
  obtain ⟨hlow, hhigh⟩ := hown
  have hfirst : rule.startDay (y + 1) ≤ t / dayLength := hstart.trans hlow
  exact counts_iff.mpr ⟨h, hfirst, hhigh⟩

/-- What a year counts is its own, or is the leap day that ends the year before. -/
theorem own_of_counts {t : Instant} (hy : 1 ≤ y) (h : rule.Counts (y + 1) t) :
    rule.Own y (t / dayLength) ∨
      (rule = .lastOfFebruary ∧ isLeap y = true) ∧ t / dayLength = rule.endDay y := by
  obtain ⟨-, hstart, hend⟩ := counts_iff.mp h
  rw [startDay_eq hy] at hstart
  rcases Nat.lt_or_ge (rule.endDay y) (t / dayLength) with hlt | hge
  · exact .inl ⟨hlt, hend⟩
  · right
    split at hstart
    next hleap => exact ⟨hleap, Nat.le_antisymm hge hstart⟩
    next => omega

/-- A leap day is the end of February. -/
theorem endDay_of_isLeapDay {d : ℕ} (h : IsLeapDay d) :
    isLeap (yearOf d) = true ∧ lastOfFebruary.endDay (yearOf d) = d := by
  obtain ⟨hmonth, hday⟩ := h
  obtain ⟨-, -, hlow, hhigh⟩ := monthOf_spec d
  rw [dayOfMonth_eq, hmonth] at hday
  rw [hmonth] at hlow hhigh
  rw [monthStart_succ (by decide) (by decide)] at hhigh
  have hlength : (monthLengths (yearOf d)).getD (2 - 1) 0 = 28 + (isLeap (yearOf d)).toNat := rfl
  rw [hlength] at hhigh
  cases hleap : isLeap (yearOf d) with
  | false =>
    rw [hleap, Bool.toNat_false] at hhigh
    omega
  | true =>
    refine ⟨rfl, ?_⟩
    simp only [endDay, month, YearEndRule.day, hleap, Bool.toNat_true]
    omega

theorem computed_february (hy : 1 ≤ y) (hy' : y < 9999) : lastOfFebruary.Computed (y + 1) := by
  have hmarch := (@endDay_bounds lastOfFebruary (y + 1)).2
  have hyear : monthStart (y + 1) 3 < monthStart (y + 1) 13 :=
    (monthStart_lt_succ (by decide) (by decide)).trans_le (monthStart_mono (by decide))
  have hlast : daysBefore (y + 1 + 1) ≤ daysBefore 10000 := daysBefore_le (by omega) (by omega)
  rw [monthStart_thirteen (by omega)] at hyear
  refine ⟨by omega, ?_⟩
  change _ < monthStart (y + 1) 3 at hmarch
  omega

/-- The day is counted again in the next year. -/
theorem leapDay_again {d : ℕ} (hy : 1 ≤ y) (h : lastOfFebruary.Computed (y + 1))
    (hown : lastOfFebruary.Own y d) (hleap : IsLeapDay d) :
    lastOfFebruary.Computed (y + 2) ∧
      lastOfFebruary.startDay (y + 2) ≤ d ∧ d ≤ lastOfFebruary.endDay (y + 2) := by
  obtain ⟨hleap, hend⟩ := endDay_of_isLeapDay hleap
  have hyear : yearOf d = y + 1 := by
    have hone := one_le_yearOf d
    have hne : yearOf d ≠ 1 := fun heq => by
      rw [heq] at hleap
      exact absurd hleap (by decide)
    obtain ⟨z, hz⟩ := Nat.exists_eq_add_of_le' hone
    rw [hz] at hend ⊢
    have hz' : 1 ≤ z := by omega
    refine congrArg (· + 1) (@own_unique lastOfFebruary _ d _ hz' hy ⟨?_, hend.ge⟩ hown)
    rw [← hend]
    exact endDay_lt_succ hz'
  rw [hyear] at hleap hend
  have hlt : y + 1 < 9999 := by
    have hle := h.1.2
    have hne : y + 1 ≠ 9999 := fun heq => by
      rw [heq] at hleap
      exact absurd hleap (by decide)
    omega
  refine ⟨computed_february (by omega) hlt, ?_, ?_⟩
  · rw [startDay_eq (by omega), if_pos ⟨rfl, hleap⟩]
    exact hend.le
  · rw [← hend]
    exact (endDay_lt_succ (by omega)).le

theorem existsUnique_counts_iff {t : Instant} (h : rule.Spans t) :
    (∃! y, rule.Counts y t) ↔ ¬ (rule = .lastOfFebruary ∧ IsLeapDay (t / dayLength)) := by
  obtain ⟨y, hy, hcomputed, hown⟩ := own_of_spans h
  constructor
  · rintro ⟨z, hz, hunique⟩ ⟨rfl, hleap⟩
    have hone := hunique _ (counts_of_own hy hcomputed hown)
    have htwo := hunique _ (counts_iff.mpr (leapDay_again hy hcomputed hown hleap))
    omega
  · intro hnone
    refine ⟨y + 1, counts_of_own hy hcomputed hown, fun z hz => ?_⟩
    have htwo := (counts_iff.mp hz).1.1.1
    obtain ⟨z, rfl⟩ := Nat.exists_eq_add_of_le' (Nat.le_of_succ_le htwo)
    rcases own_of_counts (by omega) hz with hown' | ⟨⟨hrule, hleap⟩, hend⟩
    · exact congrArg (· + 1) (own_unique (by omega) hy hown' hown)
    · refine absurd ⟨hrule, ?_⟩ hnone
      rw [hend]
      exact (isLeapDay_endDay (by omega)).mpr ⟨hrule, hleap⟩

/-- The years of a rule follow each other, and each instant is in the figures of one, but for the
leap days of the years that end with February. -/
theorem fiscal_years_tile (rule : YearEndRule) :
    (∀ y r r', rule.dateRange y = .ok r → rule.dateRange (y + 1) = .ok r' →
      (r'.1 = r.2 + 1 ↔ ¬ (rule = .lastOfFebruary ∧ isLeap y = true))) ∧
    ∀ t, rule.Spans t →
      ((∃! y, rule.Counts y t) ↔ ¬ (rule = .lastOfFebruary ∧ IsLeapDay (t / dayLength))) := by
  refine ⟨fun y r r' hr hr' => ?_, fun t ht => existsUnique_counts_iff ht⟩
  obtain ⟨⟨hy, -⟩, rfl⟩ := dateRange_ok.mp hr
  obtain ⟨-, rfl⟩ := dateRange_ok.mp hr'
  change rule.startDay (y + 1) = rule.endDay y + 1 ↔ _
  rw [startDay_eq (by omega)]
  split <;> simp_all

end YearEndRule

section Example

open Payments (giftOn receipting)

/-- The gift of 29 February 2024 -/
private def leapDayGift : GiftRecords where
  toReceiptStore := receipting.final {} [.donate (giftOn 59)]
  isRecurring _ := false
  campaignNameEn _ := ""
  issuedAt _ := 0

private def reportTo (fiscalYearEnd : ℕ) : Except String T3010Data :=
  leapDayGift.getT3010PreparatoryData (.ofZone Zone.toronto Zone.hours_le_toronto) fiscalYearEnd

private def endOfMarch : YearEndRule := .fixed 3 31 (by decide)

theorem end_of_march_tiles :
    (∃ r r', endOfMarch.dateRange 2024 = .ok r ∧ endOfMarch.dateRange 2025 = .ok r' ∧
      r'.1 = r.2 + 1) ∧
    ∃! y, endOfMarch.Counts y (giftOn 59).createdAt := by
  have hrule : ¬ endOfMarch = .lastOfFebruary := by decide
  obtain ⟨hadjacent, honce⟩ := YearEndRule.fiscal_years_tile endOfMarch
  have hrange : endOfMarch.dateRange 2024 = .ok (monthStart 2023 4, monthStart 2024 4 - 1) := by
    decide +kernel
  have hrange' : endOfMarch.dateRange 2025 = .ok (monthStart 2024 4, monthStart 2025 4 - 1) := by
    decide +kernel
  refine ⟨⟨_, _, hrange, hrange', (hadjacent 2024 _ _ hrange hrange').mpr fun h => hrule h.1⟩, ?_⟩
  refine (honce _ ?_).mpr fun h => hrule h.1
  have hcounts : endOfMarch.Counts 2024 (giftOn 59).createdAt :=
    YearEndRule.counts_iff.mpr (by decide +kernel)
  exact ⟨_, _, _, _, hcounts, hcounts, le_rfl, le_rfl⟩

/-- The years that end on 29 February 2024 and 28 February 2025 have a day in common. -/
theorem leap_day_counted_twice :
    YearEndRule.lastOfFebruary.dateRange 2024 =
        .ok (monthStart 2023 3, monthStart 2024 3 - 1) ∧
      YearEndRule.lastOfFebruary.dateRange 2025 =
        .ok (monthStart 2024 3 - 1, monthStart 2025 3 - 1) ∧
      ¬ monthStart 2024 3 - 1 = monthStart 2024 3 - 1 + 1 ∧
      ((reportTo (monthStart 2024 3 - 1)).toOption.map (·.donationCount)) = some 1 ∧
      ((reportTo (monthStart 2025 3 - 1)).toOption.map (·.donationCount)) = some 1 ∧
      leapDayGift.donations.rows.length = 1 ∧
      ¬ ∃! y, YearEndRule.lastOfFebruary.Counts y (giftOn 59).createdAt := by
  refine ⟨by decide +kernel, by decide +kernel, by decide, by decide +kernel, by decide +kernel,
    by decide +kernel, ?_⟩
  rintro ⟨y, -, hunique⟩
  have h₂₄ := hunique 2024 (YearEndRule.counts_iff.mpr (by decide +kernel))
  have h₂₅ := hunique 2025 (YearEndRule.counts_iff.mpr (by decide +kernel))
  omega

end Example

end Civicos.Reports
