import Mathlib.Data.Nat.Find
import Mathlib.Algebra.BigOperators.Group.List.Basic
import Mathlib.Algebra.GroupWithZero.Nat

/-!
# Civil time

Days are counted from 1 January of year 1 in the proleptic Gregorian calendar, instants in
microseconds of universal time from the same day. A zone lies west of Greenwich and moves its
clocks forward from the second Sunday in March to the first Sunday in November.

A year is cut into twelve months; month 13 begins with the next year. In the west an instant lies in
the month that it has in universal time, or in the month before.
-/
namespace Civicos.Library

def hours (n : ℕ) : ℕ := n * 3600000000

def dayLength : ℕ := 86400000000

def isLeap (y : ℕ) : Bool := y % 4 = 0 ∧ (y % 100 ≠ 0 ∨ y % 400 = 0)

/-- The number of days before 1 January of year `y`. -/
def daysBefore (y : ℕ) : ℕ := 365 * (y - 1) + (y - 1) / 4 - (y - 1) / 100 + (y - 1) / 400

/-- The year of a day. -/
def yearOf (d : ℕ) : ℕ := Nat.findGreatest (daysBefore · ≤ d) (d / 365 + 1)

theorem daysBefore_succ {y : ℕ} (h : 1 ≤ y) :
    daysBefore (y + 1) = daysBefore y + 365 + (isLeap y).toNat := by
  obtain ⟨p, rfl⟩ := Nat.exists_eq_add_of_le' h
  have hdiv : p / 100 ≤ p / 4 := Nat.div_le_div_left (by decide) (by decide)
  have h100 : 100 ∣ p + 1 → 4 ∣ p + 1 := Nat.dvd_trans (by decide)
  have h400 : 400 ∣ p + 1 → 100 ∣ p + 1 := Nat.dvd_trans (by decide)
  simp only [daysBefore, isLeap, Nat.add_sub_cancel, Nat.succ_div, ← Nat.dvd_iff_mod_eq_zero,
    ne_eq]
  by_cases hp4 : 4 ∣ p + 1 <;> by_cases hp100 : 100 ∣ p + 1 <;> by_cases hp400 : 400 ∣ p + 1 <;>
    simp [hp4, hp100, hp400] at h100 h400 ⊢ <;> omega

theorem daysBefore_lt_succ {y : ℕ} (h : 1 ≤ y) : daysBefore y < daysBefore (y + 1) := by
  have hs := daysBefore_succ h
  omega

theorem daysBefore_le {y z : ℕ} (hy : 1 ≤ y) (h : y ≤ z) : daysBefore y ≤ daysBefore z := by
  induction z, h using Nat.le_induction with
  | base => exact le_rfl
  | succ z hz ih =>
    have hs := daysBefore_lt_succ (Nat.le_trans hy hz)
    omega

theorem one_le_yearOf (d : ℕ) : 1 ≤ yearOf d :=
  Nat.le_findGreatest (by omega) (by simp [daysBefore])

theorem daysBefore_yearOf (d : ℕ) : daysBefore (yearOf d) ≤ d :=
  Nat.findGreatest_spec (P := (daysBefore · ≤ d)) (m := 1) (by omega) (by simp [daysBefore])

theorem lt_daysBefore_yearOf (d : ℕ) : d < daysBefore (yearOf d + 1) := by
  by_cases h : yearOf d + 1 ≤ d / 365 + 1
  · exact Nat.lt_of_not_le (Nat.findGreatest_is_greatest (P := (daysBefore · ≤ d))
      (Nat.lt_succ_self _) h)
  · unfold daysBefore
    omega

theorem yearOf_eq_iff {d y : ℕ} (h : 1 ≤ y) :
    yearOf d = y ↔ daysBefore y ≤ d ∧ d < daysBefore (y + 1) := by
  constructor
  · rintro rfl
    exact ⟨daysBefore_yearOf d, lt_daysBefore_yearOf d⟩
  · intro ⟨hle, hlt⟩
    have hy := one_le_yearOf d
    have hlow := daysBefore_yearOf d
    have hhigh := lt_daysBefore_yearOf d
    rcases lt_trichotomy (yearOf d) y with hne | heq | hne
    · have hm := daysBefore_le (by omega : 1 ≤ yearOf d + 1) hne
      omega
    · exact heq
    · have hm := daysBefore_le (by omega : 1 ≤ y + 1) hne
      omega

/-! ## Dates as text -/

def monthLengths (y : ℕ) : List ℕ :=
  [31, 28 + (isLeap y).toNat, 31, 30, 31, 30, 31, 31, 30, 31, 30, 31]

/-- Month and day of month of the `d`-th day from the start of month `m`. -/
def monthDay : List ℕ → ℕ → ℕ → ℕ × ℕ
  | [], m, d => (m, d + 1)
  | n :: ns, m, d => if d < n then (m, d + 1) else monthDay ns (m + 1) (d - n)

/-- `str(n).zfill(width)` -/
def zfill (width n : ℕ) : String :=
  String.ofList (List.replicate (width - (toString n).length) '0') ++ toString n

/-- `YYYY-MM-DD` -/
def isoDate (d : ℕ) : String :=
  let y := yearOf d
  let (m, dom) := monthDay (monthLengths y) 1 (d - daysBefore y)
  zfill 4 y ++ "-" ++ zfill 2 m ++ "-" ++ zfill 2 dom

example : isoDate (daysBefore 2024 + 59) = "2024-02-29" := by decide

/-! ## Zones -/

/-- The first Sunday on or after a day; day 6 is the first Sunday of all. -/
def sundayFrom (d : ℕ) : ℕ := d + (6 - d % 7)

structure Zone where
  /-- The standard offset. -/
  west : ℕ
  bound : west ≤ hours 12

namespace Zone

variable {z : Zone} {t y : ℕ}

def toronto : Zone := ⟨hours 5, by decide⟩

def vancouver : Zone := ⟨hours 8, by decide⟩

def stJohns : Zone := ⟨hours 3 + hours 1 / 2, by decide⟩

/-- The clocks change at two in the morning. -/
def springsForward (z : Zone) (y : ℕ) : ℕ :=
  sundayFrom (daysBefore y + 66 + (isLeap y).toNat) * dayLength + hours 2 + z.west

def fallsBack (z : Zone) (y : ℕ) : ℕ :=
  sundayFrom (daysBefore y + 304 + (isLeap y).toNat) * dayLength + hours 1 + z.west

def daylight (z : Zone) (t : ℕ) : Bool :=
  let y := yearOf (t / dayLength)
  z.springsForward y ≤ t ∧ t < z.fallsBack y

def localtime (z : Zone) (t : ℕ) : ℕ :=
  t - z.west + if z.daylight t then hours 1 else 0

/-- The calendar day of an instant. -/
def date (z : Zone) (t : ℕ) : ℕ := z.localtime t / dayLength

def year (z : Zone) (t : ℕ) : ℕ := yearOf (z.date t)

/-- Midnight of 1 January. -/
def newYear (z : Zone) (y : ℕ) : ℕ := daysBefore y * dayLength + z.west

theorem hours_le_toronto : hours 1 ≤ toronto.west := by decide

theorem toronto_west_of_stJohns : stJohns.west ≤ toronto.west := by decide

theorem vancouver_west_of_toronto : toronto.west ≤ vancouver.west := by decide

/-- The year begins later in the west. -/
theorem newYear_le {z z' : Zone} (h : z.west ≤ z'.west) (y : ℕ) : z.newYear y ≤ z'.newYear y :=
  Nat.add_le_add_left h _

/-- Daylight saving time stays away from the ends of a year. -/
theorem daylight_bounds (h : z.daylight t = true) :
    (daysBefore (yearOf (t / dayLength)) + 66) * dayLength + z.west ≤ t ∧
      t + 45 * dayLength < daysBefore (yearOf (t / dayLength) + 1) * dayLength + z.west := by
  have hs := daysBefore_succ (one_le_yearOf (t / dayLength))
  obtain ⟨hstart, hend⟩ := of_decide_eq_true h
  unfold springsForward at hstart
  unfold fallsBack at hend
  unfold dayLength hours sundayFrom at *
  omega

/-- The calendar year of an instant. -/
theorem year_eq_iff (hy : 1 ≤ y) (ht : z.west ≤ t) :
    z.year t = y ↔ z.newYear y ≤ t ∧ t < z.newYear (y + 1) := by
  have hz := z.bound
  rw [year, yearOf_eq_iff hy, date, localtime, newYear, newYear]
  have hu := (yearOf_eq_iff (d := t / dayLength) (one_le_yearOf _)).mp rfl
  by_cases h : z.daylight t = true
  · obtain ⟨hlow, hhigh⟩ := daylight_bounds h
    rw [if_pos h]
    have hone := one_le_yearOf (t / dayLength)
    generalize yearOf (t / dayLength) = u at *
    unfold dayLength hours at *
    -- Daylight time only moves an instant within its year.
    rcases lt_trichotomy u y with hne | rfl | hne
    · have hm := daysBefore_le (by omega : 1 ≤ u + 1) hne
      have hy' := daysBefore_lt_succ hy
      omega
    · omega
    · have hm := daysBefore_le (by omega : 1 ≤ y + 1) hne
      have hy' := daysBefore_lt_succ hy
      omega
  · rw [if_neg h]
    unfold dayLength hours at *
    omega

end Zone

end Civicos.Library

/-! ## Months -/

namespace Civicos.Library

variable {d m y : ℕ} {ns : List ℕ}

/-- The number of days before the month. -/
def monthStart (y m : ℕ) : ℕ := daysBefore y + ((monthLengths y).take (m - 1)).sum

/-- The month of a day -/
def monthOf (d : ℕ) : ℕ := (monthDay (monthLengths (yearOf d)) 1 (d - daysBefore (yearOf d))).1

theorem length_monthLengths : (monthLengths y).length = 12 := rfl

theorem sum_monthLengths (h : 1 ≤ y) :
    daysBefore y + (monthLengths y).sum = daysBefore (y + 1) := by
  rw [daysBefore_succ h]
  simp only [monthLengths, List.sum_cons, List.sum_nil]
  omega

@[simp] theorem monthStart_one : monthStart y 1 = daysBefore y := rfl

theorem monthStart_thirteen (h : 1 ≤ y) : monthStart y 13 = daysBefore (y + 1) := by
  rw [← sum_monthLengths h]
  rfl

theorem monthLength_pos {n : ℕ} (h : n ∈ monthLengths y) : 0 < n := by
  simp only [monthLengths, List.mem_cons, List.not_mem_nil, or_false] at h
  omega

theorem monthStart_succ (hm : 1 ≤ m) (hm' : m ≤ 12) :
    monthStart y (m + 1) = monthStart y m + (monthLengths y).getD (m - 1) 0 := by
  have hlt : m - 1 < (monthLengths y).length := by
    rw [length_monthLengths]
    omega
  have hm₁ : m + 1 - 1 = m - 1 + 1 := by omega
  unfold monthStart
  rw [hm₁, List.take_succ_eq_append_getElem hlt, List.sum_append, List.sum_singleton,
    List.getD_eq_getElem?_getD, List.getElem?_eq_getElem hlt, Option.getD_some, Nat.add_assoc]

theorem monthStart_lt_succ (hm : 1 ≤ m) (hm' : m ≤ 12) : monthStart y m < monthStart y (m + 1) := by
  have hlt : m - 1 < (monthLengths y).length := by
    rw [length_monthLengths]
    omega
  have hpos : 0 < (monthLengths y)[m - 1] := monthLength_pos (List.getElem_mem hlt)
  rw [monthStart_succ hm hm', List.getD_eq_getElem?_getD, List.getElem?_eq_getElem hlt,
    Option.getD_some]
  omega

theorem monthStart_le_succ : monthStart y m ≤ monthStart y (m + 1) := by
  unfold monthStart
  refine Nat.add_le_add_left ?_ _
  rw [Nat.add_sub_cancel]
  obtain ⟨rest, hrest⟩ := List.take_prefix_take_left (l := monthLengths y) (Nat.sub_le m 1)
  rw [← hrest, List.sum_append]
  exact Nat.le_add_right _ _

theorem monthStart_mono {m' : ℕ} (h : m ≤ m') : monthStart y m ≤ monthStart y m' := by
  induction m', h using Nat.le_induction with
  | base => exact le_rfl
  | succ m' _ ih => exact ih.trans monthStart_le_succ

/-- Where the day falls when the months are counted off. -/
theorem monthDay_spec (h : d < ns.sum) : m ≤ (monthDay ns m d).1 ∧
    (monthDay ns m d).1 < m + ns.length ∧
      (ns.take ((monthDay ns m d).1 - m)).sum ≤ d ∧
        d < (ns.take ((monthDay ns m d).1 - m + 1)).sum := by
  induction ns generalizing m d with
  | nil => simp at h
  | cons n ns ih =>
    unfold monthDay
    split
    next hlt => simp [hlt]
    next hge =>
      have hrest : d - n < ns.sum := by
        rw [List.sum_cons] at h
        omega
      obtain ⟨hlow, hhigh, hstart, hend⟩ := ih (m := m + 1) hrest
      generalize (monthDay ns (m + 1) (d - n)).1 = k at *
      have hk : k - m = k - (m + 1) + 1 := by omega
      rw [hk, List.take_succ_cons, List.take_succ_cons, List.sum_cons, List.sum_cons,
        List.length_cons]
      omega

theorem monthDay_snd (h : d < ns.sum) :
    (monthDay ns m d).2 = d - (ns.take ((monthDay ns m d).1 - m)).sum + 1 := by
  induction ns generalizing m d with
  | nil => simp at h
  | cons n ns ih =>
    unfold monthDay
    split
    next hlt => simp
    next hge =>
      have hrest : d - n < ns.sum := by
        rw [List.sum_cons] at h
        omega
      have hlow := (monthDay_spec (m := m + 1) hrest).1
      rw [ih hrest]
      generalize (monthDay ns (m + 1) (d - n)).1 = k at *
      have hk : k - m = k - (m + 1) + 1 := by omega
      rw [hk, List.take_succ_cons, List.sum_cons]
      omega

/-- A day lies in its month. -/
theorem monthOf_spec (d : ℕ) : 1 ≤ monthOf d ∧ monthOf d ≤ 12 ∧
    monthStart (yearOf d) (monthOf d) ≤ d ∧ d < monthStart (yearOf d) (monthOf d + 1) := by
  have hyear := (yearOf_eq_iff (d := d) (one_le_yearOf d)).mp rfl
  have hsum := sum_monthLengths (one_le_yearOf d)
  have hlt : d - daysBefore (yearOf d) < (monthLengths (yearOf d)).sum := by omega
  obtain ⟨hlow, hhigh, hstart, hend⟩ := monthDay_spec (m := 1) hlt
  rw [length_monthLengths] at hhigh
  unfold monthStart monthOf
  rw [Nat.add_sub_cancel]
  generalize (monthDay (monthLengths (yearOf d)) 1 (d - daysBefore (yearOf d))).1 = k at *
  have hk : k - 1 + 1 = k := by omega
  rw [hk] at hend
  omega

theorem one_le_monthOf (d : ℕ) : 1 ≤ monthOf d := (monthOf_spec d).1

theorem monthOf_le (d : ℕ) : monthOf d ≤ 12 := (monthOf_spec d).2.1

theorem monthOf_eq_iff (hy : 1 ≤ y) (hm : 1 ≤ m) (hm' : m ≤ 12) :
    yearOf d = y ∧ monthOf d = m ↔ monthStart y m ≤ d ∧ d < monthStart y (m + 1) := by
  constructor
  · rintro ⟨rfl, rfl⟩
    exact (monthOf_spec d).2.2
  · intro ⟨hstart, hend⟩
    have hyear : yearOf d = y := by
      refine (yearOf_eq_iff hy).mpr ⟨?_, ?_⟩
      · exact (monthStart_mono hm).trans hstart
      · rw [← monthStart_thirteen hy]
        exact hend.trans_le (monthStart_mono (by omega))
    subst hyear
    refine ⟨rfl, ?_⟩
    obtain ⟨-, -, hlow, hhigh⟩ := monthOf_spec d
    rcases lt_trichotomy (monthOf d) m with hlt | heq | hlt
    · have hle : monthStart (yearOf d) (monthOf d + 1) ≤ monthStart (yearOf d) m :=
        monthStart_mono hlt
      omega
    · exact heq
    · have hle : monthStart (yearOf d) (m + 1) ≤ monthStart (yearOf d) (monthOf d) :=
        monthStart_mono hlt
      omega

/-- The last day before a month -/
theorem monthOf_before (hy : 1 ≤ y) (hm : 1 ≤ m) (hm' : m < 12)
    (hd : d + 1 = monthStart y (m + 1)) : yearOf d = y ∧ monthOf d = m := by
  apply (monthOf_eq_iff hy hm (by omega)).mpr
  have hlt := monthStart_lt_succ (y := y) hm (by omega)
  omega

/-- The last day before a year -/
theorem monthOf_newYear (hy : 1 ≤ y) (hd : d + 1 = daysBefore (y + 1)) :
    yearOf d = y ∧ monthOf d = 12 := by
  apply (monthOf_eq_iff hy (by decide) le_rfl).mpr
  rw [← monthStart_thirteen hy] at hd
  have hlt : monthStart y 12 < monthStart y 13 := monthStart_lt_succ (by decide) le_rfl
  change monthStart y 12 ≤ d ∧ d < monthStart y 13
  omega

/-! ## Local days -/

/-- The day of an instant in a place that is up to a day behind universal time; there is none
before year 1. -/
structure WesternCalendar where
  day : ℕ → Option ℕ
  behind : ∀ t, ∀ d ∈ day t, d ≤ t / dayLength ∧ t / dayLength ≤ d + 1

namespace WesternCalendar

variable {c : WesternCalendar} {t : ℕ}

def ofZone (z : Zone) (hz : hours 1 ≤ z.west) : WesternCalendar where
  day t := if z.west ≤ t then some (z.date t) else none
  behind t d hd := by
    have hbound := z.bound
    split at hd
    next ht =>
      cases hd
      unfold Zone.date Zone.localtime dayLength hours at *
      split <;> omega
    next => cases hd

/-- The local month is the month in universal time, or the month before. -/
theorem month_cases (hd : c.day t = some d) (hy : yearOf (t / dayLength) = y)
    (hm : monthOf (t / dayLength) = m) :
    (yearOf d = y ∧ monthOf d = m) ∨ (1 < m ∧ yearOf d = y ∧ monthOf d = m - 1) ∨
      (m = 1 ∧ yearOf d + 1 = y ∧ monthOf d = 12) := by
  obtain ⟨hle, hge⟩ := c.behind t d hd
  have hone := one_le_yearOf (t / dayLength)
  obtain ⟨hlow, hhigh, hstart, hend⟩ := monthOf_spec (t / dayLength)
  rw [hy, hm] at hstart hend
  rw [hy] at hone
  rw [hm] at hlow hhigh
  by_cases hsame : monthStart y m ≤ d
  · exact .inl ((monthOf_eq_iff hone hlow hhigh).mpr ⟨hsame, by omega⟩)
  · right
    have hlast : d + 1 = monthStart y m := by omega
    rcases Nat.lt_or_ge 1 m with hm₁ | hm₁
    · left
      have hpred : m - 1 + 1 = m := by omega
      exact ⟨hm₁, monthOf_before hone (by omega) (by omega) (by rwa [hpred])⟩
    · right
      obtain rfl : m = 1 := by omega
      rw [monthStart_one] at hlast
      have htwo : 2 ≤ y := by
        by_contra hlt
        obtain rfl : y = 1 := by omega
        simp [daysBefore] at hlast
      obtain ⟨p, rfl⟩ : ∃ p, y = p + 1 := ⟨y - 1, by omega⟩
      obtain ⟨hyear, hmonth⟩ := monthOf_newYear (d := d) (by omega : 1 ≤ p) hlast
      exact ⟨rfl, by omega, hmonth⟩

end WesternCalendar

end Civicos.Library
