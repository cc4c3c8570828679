import Civicos.Reports.VolunteerSummary

/-!
# The categories of the charity return

The hours are added up once for the total and once more for each opportunity, which then counts in
the category of its skill tags. The queries read the same logs, so the categories share out the
total.
-/
namespace Civicos.Reports

open Library

namespace Roster

variable {r : Roster} {year : ℤ} {programIds : Option (List ℕ)} {logs : List HoursLog}
  {c : Category} {metrics : T3010VolunteerMetrics}

/-- The logs of the year that the return is about -/
def reported (r : Roster) (year : ℤ) (programIds : Option (List ℕ)) : List HoursLog :=
  (r.approvedOf year).filter (r.inPrograms programIds)

/-- The category in which a log counts -/
def logCategory (r : Roster) (l : HoursLog) : Category :=
  (l.opportunity.map r.categoryOf).getD .general

def inCategory (r : Roster) (logs : List HoursLog) (c : Category) : List HoursLog :=
  logs.filter (r.logCategory · = c)

/-- The rows share out the logs: each log counts in one row, and a row has the hours of the logs
that count in it. -/
structure SharedOut (r : Roster) (logs : List HoursLog) (metrics : T3010VolunteerMetrics) :
    Prop where
  total : metrics.totalVolunteerHours = totalHours logs
  sum : (metrics.categories.map (·.hours)).sum = metrics.totalVolunteerHours
  once : ∀ l ∈ logs, ∃! row, row ∈ metrics.categories ∧ row.category = r.logCategory l
  rows : ∀ row ∈ metrics.categories, row.hours = totalHours (r.inCategory logs row.category)
  apart : (metrics.categories.map (·.category)).Nodup

theorem totalHours_cons (l : HoursLog) : totalHours (l :: logs) = l.hours + totalHours logs := rfl

/-- The logs with an opportunity and those without are all logs of the category. -/
theorem placed_add_unplaced : ((((logs.filterMap fun l => l.opportunity.map (·, l)).filter
      fun p => r.categoryOf p.1 = c).map fun p => p.2.hours).sum +
      totalHours (if c = .general then logs.filter (·.opportunity.isNone) else [])) =
    totalHours (r.inCategory logs c) := by
  induction logs with
  | nil => cases c <;> rfl
  | cons l logs ih =>
    cases hplace : l.opportunity with
    | none =>
      have hgeneral : r.logCategory l = .general := by simp [logCategory, hplace]
      by_cases hc : c = .general
      · subst hc
        simp only [if_true] at ih ⊢
        simp only [inCategory, List.filterMap_cons, List.filter_cons, hplace, hgeneral,
          Option.map_none, Option.isNone_none, decide_true, if_true, totalHours_cons]
        rw [← inCategory, ← ih]
        exact Nat.add_left_comm ..
      · have hne : ¬ Category.general = c := fun h => hc h.symm
        simp only [hc, if_false] at ih ⊢
        simpa [inCategory, List.filterMap_cons, hplace, hgeneral, hne] using ih
    | some o =>
      have hcategory : r.logCategory l = r.categoryOf o := by simp [logCategory, hplace]
      by_cases hc : r.categoryOf o = c
      · simp only [inCategory, List.filterMap_cons, List.filter_cons, hplace, hcategory, hc,
          Option.map_some, Option.isNone_some, decide_true, if_true, totalHours_cons,
          List.map_cons, List.sum_cons, Bool.false_eq_true, if_false]
        rw [← inCategory, ← ih, Nat.add_assoc]
      · simpa [inCategory, List.filterMap_cons, hplace, hcategory, hc] using ih

theorem categoryHours_hours :
    (r.categoryHours logs c).hours = totalHours (r.inCategory logs c) := by
  have hgroups := sum_groupBy_filter (·.1) (· ≤ ·)
    (logs.filterMap fun l => l.opportunity.map (·, l)) (fun p => p.2.hours)
    fun pk => r.categoryOf pk = c
  rw [← placed_add_unplaced, ← hgroups]
  simp only [categoryHours, List.filter_map, List.map_map, totalHours, Function.comp_def]

theorem metrics_ok (h : r.t3010VolunteerMetrics year programIds = .ok metrics) :
    metrics.totalVolunteerHours = totalHours (r.reported year programIds) ∧
      metrics.categories =
        ([.general, .governance, .fundraising, .programDelivery].map
          (r.categoryHours (r.reported year programIds))).filter fun row =>
            0 < row.hours ∨ 0 < row.volunteers := by
  obtain ⟨logs, happroved, hmetrics⟩ := except_bind_ok.mp h
  obtain rfl := approved_ok happroved
  obtain rfl := Except.ok.inj hmetrics
  exact ⟨rfl, rfl⟩

theorem mem_categories (c : Category) :
    c ∈ [Category.general, .governance, .fundraising, .programDelivery] := by
  cases c <;> decide

/-- The categories share out the hours. -/
theorem sum_inCategory (logs : List HoursLog) :
    (([.general, .governance, .fundraising, .programDelivery] : List Category).map fun c =>
      totalHours (r.inCategory logs c)).sum = totalHours logs := by
  have hnodup : [Category.general, .governance, .fundraising, .programDelivery].Nodup := by decide
  have hsum := sum_keys r.logCategory logs (fun l => l.hours) hnodup
  have hall : logs.filter (r.logCategory · ∈
      [Category.general, .governance, .fundraising, .programDelivery]) = logs :=
    List.filter_eq_self.mpr fun l _ => decide_eq_true (mem_categories _)
  rw [hall] at hsum
  exact hsum

/-- A row that is left out has no hours. -/
theorem sum_shown (rows : List CategoryHours) :
    ((rows.filter fun row => 0 < row.hours ∨ 0 < row.volunteers).map (·.hours)).sum =
      (rows.map (·.hours)).sum := by
  rw [sum_map_filter]
  refine congrArg List.sum (List.map_congr_left fun row _ => ?_)
  split
  next => rfl
  next hrow =>
    have hnone : ¬ (0 < row.hours ∨ 0 < row.volunteers) := by simpa using hrow
    exact (Nat.eq_zero_of_not_pos fun hpos => hnone (.inl hpos)).symm

theorem t3010_categories_share_out (r : Roster) (year : ℤ) (programIds : Option (List ℕ))
    (h : r.t3010VolunteerMetrics year programIds = .ok metrics) :
    r.SharedOut (r.reported year programIds) metrics := by
  obtain ⟨htotal, hcategories⟩ := metrics_ok h
  have hrow : ∀ row ∈ metrics.categories, ∃ c,
      row = r.categoryHours (r.reported year programIds) c := by
    intro row hmem
    rw [hcategories] at hmem
    obtain ⟨c, -, rfl⟩ := List.mem_map.mp (List.mem_filter.mp hmem).1
    exact ⟨c, rfl⟩
  have hapart : (metrics.categories.map (·.category)).Nodup := by
    rw [hcategories]
    refine (List.filter_sublist.map _).nodup ?_
    rw [List.map_map]
    exact (by decide : [Category.general, .governance, .fundraising, .programDelivery].Nodup)
  constructor
  case total => exact htotal
  case apart => exact hapart
  case sum =>
    rw [htotal, hcategories, sum_shown, ← sum_inCategory (r := r) (r.reported year programIds),
      List.map_map]
    refine congrArg List.sum (List.map_congr_left fun c _ => ?_)
    exact categoryHours_hours
  case rows =>
    intro row hmem
    obtain ⟨c, rfl⟩ := hrow row hmem
    exact categoryHours_hours
  case once =>
    intro l hl
    have hpos : 0 < (r.categoryHours (r.reported year programIds) (r.logCategory l)).hours := by
      have hcounted : l ∈ r.inCategory (r.reported year programIds) (r.logCategory l) :=
        List.mem_filter.mpr ⟨hl, decide_eq_true rfl⟩
      rw [categoryHours_hours]
      exact (hours_pos (List.mem_of_mem_filter hl)).trans_le
        (List.le_sum_of_mem (List.mem_map_of_mem hcounted))
    refine ⟨r.categoryHours (r.reported year programIds) (r.logCategory l), ⟨?_, rfl⟩, ?_⟩
    · rw [hcategories]
      refine List.mem_filter.mpr ⟨List.mem_map_of_mem (mem_categories _), ?_⟩
      exact decide_eq_true (.inl hpos)
    · rintro row ⟨hmem, hcategory⟩
      obtain ⟨c, rfl⟩ := hrow row hmem
      exact congrArg _ hcategory

end Roster

section Example

private def tags : Table SkillTag.schema :=
  ⟨[⟨1, "Board work", "board-work"⟩, ⟨2, "Grant writing", "grant-writing"⟩], by decide, by decide⟩

private def opportunities : Table Opportunity.schema :=
  ⟨[⟨1, 1, "Gardener", "gardener", []⟩, ⟨2, 1, "Treasurer", "treasurer", [1, 2]⟩,
    ⟨3, 1, "Fundraiser", "fundraiser", [2]⟩], by decide, by decide⟩

private def hoursOf (pk volunteer : ℕ) (opportunity : Option ℕ) (hours : ℕ) : HoursLog where
  pk
  volunteer
  opportunity
  status := .approved
  hours := Volunteers.hours hours
  date := monthStart 2025 6 + pk

/-- An opportunity without tags, one with the tags of two categories, and a log without one -/
private def treasury : Roster where
  programs := ⟨[⟨1, "Finance", "finance"⟩], by decide, by decide⟩
  tags := tags
  opportunities := opportunities
  logs := ⟨[hoursOf 1 1 (some 1) 3, hoursOf 2 1 (some 2) 5, hoursOf 3 2 (some 3) 2,
    hoursOf 4 2 none 1, hoursOf 5 3 (some 2) 4], by decide, by decide⟩
  placed := by decide
  programmed := by decide

theorem treasury_shared_out : ∃ metrics, treasury.t3010VolunteerMetrics 2025 none = .ok metrics ∧
    (metrics.categories.map fun row => (row.category, row.hours)) =
      [(.general, 400), (.governance, 900), (.fundraising, 200)] ∧
    treasury.SharedOut (treasury.reported 2025 none) metrics :=
  ⟨_, rfl, by decide +kernel, Roster.t3010_categories_share_out treasury 2025 none rfl⟩

end Example

end Civicos.Reports
