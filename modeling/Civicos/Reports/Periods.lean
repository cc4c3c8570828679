import Civicos.Library.Calendar
import Civicos.Payments.Values

/-!
# Reporting periods

The half-open intervals of universal time that the report services filter on, in the years that
`datetime` knows, and how they round.
-/
namespace Civicos.Reports

open Library
open Payments (Instant)

/-- A quotient, rounded as `quantize` does: a half goes to the even number. -/
def roundHalfEven (a : ℤ) (n : ℕ) : ℤ :=
  if (n : ℤ) < 2 * (a % n) ∨ 2 * (a % n) = n ∧ a / n % 2 = 1 then a / n + 1 else a / n

example : [roundHalfEven 25 10, roundHalfEven 35 10, roundHalfEven (-26) 10] = [2, 4, -3] := by
  decide

/-- `datetime(year, month, 1, tzinfo=UTC)` -/
def firstOfMonth (year : ℤ) (month : ℕ) : Except String Instant :=
  if year < 1 ∨ 9999 < year then .error ("year " ++ toString year ++ " is out of range")
  else if month < 1 ∨ 12 < month then .error "month must be in 1..12"
  else .ok (monthStart year.toNat month * dayLength)

def interval (first second : Except String Instant) : Except String (Instant × Instant) := do
  let start ← first
  let stop ← second
  return (start, stop)

/-- `_month_utc_range` -/
def monthUtcRange (year : ℤ) (month : ℕ) : Except String (Instant × Instant) :=
  interval (firstOfMonth year month)
    (if month = 12 then firstOfMonth (year + 1) 1 else firstOfMonth year (month + 1))

/-- `_year_utc_range` -/
def yearUtcRange (year : ℤ) : Except String (Instant × Instant) :=
  interval (firstOfMonth year 1) (firstOfMonth (year + 1) 1)

/-- `created_at__gte=start, created_at__lt=stop` -/
def Within (range : Instant × Instant) (t : Instant) : Prop := range.1 ≤ t ∧ t < range.2

instance (range : Instant × Instant) (t : Instant) : Decidable (Within range t) :=
  inferInstanceAs (Decidable (_ ∧ _))

def utcYear (t : Instant) : ℕ := yearOf (t / dayLength)

def utcMonth (t : Instant) : ℕ := monthOf (t / dayLength)

/-- `range(1, 13)` -/
def months : List ℕ := List.range' 1 12

variable {year : ℤ} {month : ℕ} {range : Instant × Instant} {t : Instant}

theorem mem_months : month ∈ months ↔ 1 ≤ month ∧ month ≤ 12 := by
  simp only [months, List.mem_range'_1]
  omega

theorem utcMonth_mem (t : Instant) : utcMonth t ∈ months :=
  mem_months.mpr ⟨one_le_monthOf _, monthOf_le _⟩

theorem firstOfMonth_ok {start : Instant} : firstOfMonth year month = .ok start ↔
    (1 ≤ year ∧ year ≤ 9999) ∧ month ∈ months ∧
      start = monthStart year.toNat month * dayLength := by
  unfold firstOfMonth
  rw [mem_months]
  constructor
  · intro h
    split at h
    · cases h
    split at h
    · cases h
    cases h
    refine ⟨?_, ?_, rfl⟩ <;> omega
  · rintro ⟨hyear, hmonth, rfl⟩
    rw [if_neg (by omega), if_neg (by omega)]

theorem except_bind_ok {ε α β : Type} {x : Except ε α} {f : α → Except ε β} {b : β} :
    x >>= f = .ok b ↔ ∃ a, x = .ok a ∧ f a = .ok b := by
  cases x <;> simp [bind, Except.bind]

theorem interval_ok {first second : Except String Instant}
    (h : interval first second = .ok range) : first = .ok range.1 ∧ second = .ok range.2 := by
  obtain ⟨start, hfirst, h₁⟩ := except_bind_ok.mp h
  obtain ⟨stop, hsecond, h₂⟩ := except_bind_ok.mp h₁
  cases h₂
  exact ⟨hfirst, hsecond⟩

/-- The range of a month ends where the next month starts. -/
theorem monthUtcRange_ok (h : monthUtcRange year month = .ok range) :
    1 ≤ year ∧ month ∈ months ∧ range = (monthStart year.toNat month * dayLength,
      monthStart year.toNat (month + 1) * dayLength) := by
  obtain ⟨hstart, hstop⟩ := interval_ok h
  obtain ⟨hyear, hmonth, hfirst⟩ := firstOfMonth_ok.mp hstart
  refine ⟨hyear.1, hmonth, Prod.ext hfirst ?_⟩
  split at hstop
  next hlast =>
    obtain ⟨-, -, hsecond⟩ := firstOfMonth_ok.mp hstop
    have hsucc : (year + 1).toNat = year.toNat + 1 := by omega
    have hone : 1 ≤ year.toNat := by omega
    rw [hsecond, hlast, hsucc, monthStart_one]
    exact congrArg (· * dayLength) (monthStart_thirteen hone).symm
  next => exact (firstOfMonth_ok.mp hstop).2.2

theorem within_iff {a b : ℕ} : Within (a * dayLength, b * dayLength) t ↔
    a ≤ t / dayLength ∧ t / dayLength < b := by
  have hday : 0 < dayLength := by decide
  exact and_congr (Nat.le_div_iff_mul_le hday).symm (Nat.div_lt_iff_lt_mul hday).symm

theorem within_month (h : monthUtcRange year month = .ok range) :
    Within range t ↔ (utcYear t : ℤ) = year ∧ utcMonth t = month := by
  obtain ⟨hyear, hmonth, rfl⟩ := monthUtcRange_ok h
  obtain ⟨hlow, hhigh⟩ := mem_months.mp hmonth
  have hone : 1 ≤ year.toNat := by omega
  rw [within_iff, ← monthOf_eq_iff hone hlow hhigh]
  unfold utcYear utcMonth
  omega

theorem yearUtcRange_ok (h : yearUtcRange year = .ok range) : 1 ≤ year ∧ range =
    (daysBefore year.toNat * dayLength, daysBefore (year.toNat + 1) * dayLength) := by
  obtain ⟨hstart, hstop⟩ := interval_ok h
  obtain ⟨hyear, -, hfirst⟩ := firstOfMonth_ok.mp hstart
  obtain ⟨-, -, hsecond⟩ := firstOfMonth_ok.mp hstop
  have hsucc : (year + 1).toNat = year.toNat + 1 := by omega
  rw [monthStart_one] at hfirst
  rw [monthStart_one, hsucc] at hsecond
  exact ⟨hyear.1, Prod.ext hfirst hsecond⟩

theorem within_year (h : yearUtcRange year = .ok range) :
    Within range t ↔ (utcYear t : ℤ) = year := by
  obtain ⟨hyear, rfl⟩ := yearUtcRange_ok h
  have hone : 1 ≤ year.toNat := by omega
  rw [within_iff, ← yearOf_eq_iff hone]
  unfold utcYear
  omega

end Civicos.Reports
