import Civicos.Reports.VolunteerImpact

/-!
# Monthly and annual volunteer figures

The monthly report adds up the rows of `hours_by_program`, the annual ones aggregate the logs
themselves. They agree where every log has an opportunity and nobody works for two of them in a
month.
-/
namespace Civicos.Reports

open Library
open Payments (Cents)
open Volunteers (Hundredths)

/-! ## The report -/

structure VolunteerSummary where
  totalApprovedHours : Hundredths := 0
  volunteerCount : ℕ := 0
  opportunityCount : ℕ := 0
  programCount : ℕ := 0
  byProgram : List ProgramHours := []
deriving DecidableEq, Repr

namespace Roster

def getMonthlyVolunteerSummary (r : Roster) (year : ℤ) (month : ℕ) :
    Except String VolunteerSummary := do
  let rows ← r.hoursByProgram year (some month) none
  return {
    totalApprovedHours := (rows.map (·.approvedHours)).sum
    volunteerCount := (rows.map (·.volunteerCount)).sum
    opportunityCount := rows.length
    programCount := countDistinct id ((rows.map (·.programSlug)).filter (· ≠ ""))
    byProgram := rows }

end Roster

/-- The snapshot that is stored; the numbers are stored as text. -/
structure VolunteerSnapshot where
  year : ℤ
  month : ℕ
  hours : VolunteerSummary
  totalApprovedHours : Hundredths
  estimatedValueCad : Cents
  volunteerCount : ℕ
  hourlyRate : ℕ
  province : String
  rowCount : ℕ
deriving DecidableEq, Repr

/-- Either source counts as zero if it raises. -/
def Roster.computeVolunteerSnapshot (r : Roster) (year : ℤ) (month : ℕ) : VolunteerSnapshot :=
  let summary := (r.getMonthlyVolunteerSummary year month).toOption.getD {}
  let impact := (r.impactValue year "ON" none).toOption
  { year
    month
    hours := summary
    totalApprovedHours := (impact.map (·.totalApprovedHours)).getD 0
    estimatedValueCad := (impact.map (·.estimatedValueCad)).getD 0
    volunteerCount := (impact.map (·.volunteerCount)).getD 0
    hourlyRate := (impact.map (·.hourlyRate)).getD 0
    province := (impact.map (·.province)).getD ""
    rowCount := summary.volunteerCount }

/-! ## Agreement -/

variable {r : Roster} {year : ℤ} {month : ℕ} {logs : List HoursLog} {l l' : HoursLog}

namespace Roster

/-- The approved logs of a year -/
def approvedOf (r : Roster) (year : ℤ) : List HoursLog :=
  r.logs.rows.filter fun l => l.status = .approved ∧ (yearOf l.date : ℤ) = year

/-- The approved logs of a month -/
def approvedIn (r : Roster) (year : ℤ) (month : ℕ) : List HoursLog :=
  (r.approvedOf year).filter fun l => monthOf l.date = month

/-- The reports of a year agree: the months add up to the annual hours, and each month counts its
volunteers once. -/
structure Agree (r : Roster) (year : ℤ) (monthly : ℕ → VolunteerSummary) (impact : ImpactValue)
    (metrics : T3010VolunteerMetrics) : Prop where
  impact : (months.map fun m => (monthly m).totalApprovedHours).sum = impact.totalApprovedHours
  metrics : (months.map fun m => (monthly m).totalApprovedHours).sum = metrics.totalVolunteerHours
  volunteers : ∀ m ∈ months, (monthly m).volunteerCount = countVolunteers (r.approvedIn year m)
  rows : ∀ m ∈ months,
    (r.computeVolunteerSnapshot year m).rowCount = countVolunteers (r.approvedIn year m)

/-- Every log of the year has an opportunity, and the logs of a volunteer in a month have the
same. -/
def Separate (r : Roster) (year : ℤ) : Prop :=
  (∀ l ∈ r.approvedOf year, l.opportunity.isSome) ∧
    ∀ l ∈ r.approvedOf year, ∀ l' ∈ r.approvedOf year, monthOf l.date = monthOf l'.date →
      l.volunteer = l'.volunteer → l.opportunity = l'.opportunity

instance (r : Roster) (year : ℤ) : Decidable (r.Separate year) :=
  inferInstanceAs (Decidable ((∀ l ∈ r.approvedOf year, _) ∧
    ∀ l ∈ r.approvedOf year, ∀ l' ∈ r.approvedOf year, _ → _ → _))

theorem approved_ok (h : r.approved year = .ok logs) : logs = r.approvedOf year := by
  unfold approved at h
  split at h
  · cases h
  next hyear =>
    obtain rfl := Except.ok.inj h
    refine List.filter_congr fun l _ => decide_eq_decide.mpr (and_congr_right fun _ => ?_)
    have hone : 1 ≤ year.toNat := by omega
    have hlt := daysBefore_lt_succ hone
    have hiff := yearOf_eq_iff (d := l.date) hone
    omega

theorem mem_rows (h : l ∈ r.approvedOf year) : l ∈ r.logs.rows := List.mem_of_mem_filter h

theorem hours_pos (h : l ∈ r.approvedOf year) : 0 < l.hours := by
  have hvalid := r.logs.valid l (mem_rows h) _ (List.mem_singleton_self _)
  exact (of_decide_eq_true hvalid).1

/-! ### Keys -/

theorem exists_programKey (hl : l ∈ r.logs.rows) (ho : l.opportunity.isSome) :
    ∃ key o, r.programKey l = some key ∧ r.opportunityOf l = some o ∧ key.slug = o.slug := by
  obtain ⟨pk, hpk⟩ := Option.isSome_iff_exists.mp ho
  obtain ⟨o, hget⟩ := Option.isSome_iff_exists.mp (r.placed l hl pk hpk)
  obtain ⟨p, hp⟩ := Option.isSome_iff_exists.mp (r.programmed o (Table.mem_of_get hget))
  have hof : r.opportunityOf l = some o := by simp [opportunityOf, hpk, hget]
  exact ⟨⟨p.slug, p.nameEn, o.slug, o.titleEn⟩, o, by simp [programKey, hof, hp], hof, rfl⟩

/-- A key names one opportunity. -/
theorem programKey_eq_iff (hl : l ∈ r.logs.rows) (hl' : l' ∈ r.logs.rows)
    (ho : l.opportunity.isSome) (ho' : l'.opportunity.isSome) :
    r.programKey l = r.programKey l' ↔ l.opportunity = l'.opportunity := by
  constructor
  · intro heq
    obtain ⟨key, o, hkey, hof, hslug⟩ := exists_programKey hl ho
    obtain ⟨key', o', hkey', hof', hslug'⟩ := exists_programKey hl' ho'
    obtain rfl : key = key' := Option.some.inj (hkey.symm.trans (heq.trans hkey'))
    obtain ⟨pk, hpk, hget⟩ := Option.bind_eq_some_iff.mp hof
    obtain ⟨pk', hpk', hget'⟩ := Option.bind_eq_some_iff.mp hof'
    have hsame : o = o' := Table.eq_of_clash (i := Opportunity.slugKey)
      (by simp [Opportunity.schema]) (Table.mem_of_get hget) (Table.mem_of_get hget')
      ⟨Option.some_ne_none _, congrArg some (hslug.symm.trans hslug')⟩
    rw [hpk, hpk', ← Table.pk_of_get hget, ← Table.pk_of_get hget', hsame]
  · intro heq
    simp only [programKey, opportunityOf, heq]

theorem keyed_logs (h : ∀ l ∈ logs, l ∈ r.logs.rows ∧ l.opportunity.isSome) :
    (r.keyed logs).map (·.2) = logs := by
  induction logs with
  | nil => rfl
  | cons l logs ih =>
    obtain ⟨hl, hlogs⟩ := List.forall_mem_cons.mp h
    obtain ⟨key, -, hkey, -⟩ := exists_programKey hl.1 hl.2
    have hrest := ih hlogs
    unfold keyed at hrest ⊢
    simp [hkey, hrest]

theorem mem_keyed {p : ProgramKey × HoursLog} :
    p ∈ r.keyed logs ↔ p.2 ∈ logs ∧ r.programKey p.2 = some p.1 := by
  unfold keyed
  simp only [List.mem_filterMap, Option.map_eq_some_iff]
  constructor
  · rintro ⟨l, hl, key, hkey, rfl⟩
    exact ⟨hl, hkey⟩
  · intro ⟨hl, hkey⟩
    exact ⟨p.2, hl, p.1, hkey, rfl⟩

/-! ### A month -/

/-- The logs that the monthly report sees -/
def placedIn (r : Roster) (year : ℤ) (month : ℕ) : List HoursLog :=
  (r.approvedIn year month).filter fun l => l.opportunity.isSome

theorem mem_placedIn (h : l ∈ r.placedIn year month) :
    l ∈ r.approvedOf year ∧ monthOf l.date = month ∧ l.opportunity.isSome := by
  obtain ⟨hin, ho⟩ := List.mem_filter.mp h
  obtain ⟨hof, hmonth⟩ := List.mem_filter.mp hin
  exact ⟨hof, of_decide_eq_true hmonth, ho⟩

theorem placedIn_keyed : (r.keyed (r.placedIn year month)).map (·.2) = r.placedIn year month := by
  apply keyed_logs
  intro l hl
  obtain ⟨hof, -, ho⟩ := mem_placedIn hl
  exact ⟨mem_rows hof, ho⟩

theorem hoursByProgram_ok {rows : List ProgramHours}
    (h : r.hoursByProgram year (some month) none = .ok rows) :
    rows = (groupBy (·.1) (fun a b => ProgramKey.le a b = true)
      (r.keyed (r.placedIn year month))).map programHours := by
  obtain ⟨logs, happroved, hrows⟩ := except_bind_ok.mp h
  obtain rfl := approved_ok happroved
  have hlogs : ((r.approvedOf year).filter fun l =>
      l.opportunity.isSome ∧ Option.all (monthOf l.date = ·) (some month)).filter
        (r.inPrograms none) = r.placedIn year month := by
    simp only [placedIn, approvedIn, List.filter_filter]
    exact List.filter_congr fun l _ => by simp [inPrograms]
  obtain rfl := Except.ok.inj hrows
  rw [hlogs]

variable {s : VolunteerSummary}

/-- The hours of the groups are the hours of the logs with an opportunity. -/
theorem summary_hours (h : r.getMonthlyVolunteerSummary year month = .ok s) :
    s.totalApprovedHours = totalHours (r.placedIn year month) := by
  obtain ⟨rows, hrows, hs⟩ := except_bind_ok.mp h
  obtain rfl := Except.ok.inj hs
  have hsum := sum_groupBy Prod.fst (fun a b => ProgramKey.le a b = true)
    (r.keyed (r.placedIn year month)) fun p => p.2.hours
  rw [← placedIn_keyed, hoursByProgram_ok hrows]
  simpa [totalHours, programHours, Function.comp_def] using hsum

/-- The volunteers of the groups are counted once for each opportunity. -/
theorem summary_volunteers (h : r.getMonthlyVolunteerSummary year month = .ok s) :
    s.volunteerCount =
      countDistinct (fun p => (p.1, p.2.volunteer)) (r.keyed (r.placedIn year month)) := by
  obtain ⟨rows, hrows, hs⟩ := except_bind_ok.mp h
  obtain rfl := Except.ok.inj hs
  have hsum := sum_countDistinct Prod.fst (fun a b => ProgramKey.le a b = true)
    (r.keyed (r.placedIn year month)) fun p => p.2.volunteer
  rw [← hsum, hoursByProgram_ok hrows]
  simp [programHours, countVolunteers, countDistinct, Function.comp_def]

/-! ### The year -/

/-- The logs of the year with an opportunity -/
def placedOf (r : Roster) (year : ℤ) : List HoursLog :=
  (r.approvedOf year).filter fun l => l.opportunity.isSome

theorem filter_inPrograms : logs.filter (r.inPrograms none) = logs :=
  List.filter_eq_self.mpr fun _ _ => rfl

theorem impact_hours {province : String} {impact : ImpactValue}
    (h : r.impactValue year province none = .ok impact) :
    impact.totalApprovedHours = totalHours (r.approvedOf year) := by
  obtain ⟨logs, happroved, himpact⟩ := except_bind_ok.mp h
  obtain rfl := approved_ok happroved
  obtain rfl := Except.ok.inj himpact
  exact congrArg totalHours filter_inPrograms

theorem metrics_hours {metrics : T3010VolunteerMetrics}
    (h : r.t3010VolunteerMetrics year none = .ok metrics) :
    metrics.totalVolunteerHours = totalHours (r.approvedOf year) := by
  obtain ⟨logs, happroved, hmetrics⟩ := except_bind_ok.mp h
  obtain rfl := approved_ok happroved
  obtain rfl := Except.ok.inj hmetrics
  exact congrArg totalHours filter_inPrograms

/-- The twelve months share out the logs. -/
theorem months_hours :
    (months.map fun m => totalHours (r.placedIn year m)).sum = totalHours (r.placedOf year) := by
  have hall : (r.placedOf year).filter (fun l => monthOf l.date ∈ months) = r.placedOf year := by
    refine List.filter_eq_self.mpr fun l _ => decide_eq_true ?_
    exact mem_months.mpr ⟨one_le_monthOf _, monthOf_le _⟩
  have hnodup : months.Nodup := by decide
  have hsum := sum_keys (fun l : HoursLog => monthOf l.date) (r.placedOf year)
    (fun l => l.hours) hnodup
  rw [hall] at hsum
  have hmonth : ∀ m, r.placedIn year m = (r.placedOf year).filter (monthOf ·.date = m) := by
    intro m
    simp only [placedIn, placedOf, approvedIn, List.filter_filter, Bool.and_comm]
  simpa [totalHours, hmonth] using hsum

theorem months_hours_eq_iff :
    (months.map fun m => totalHours (r.placedIn year m)).sum = totalHours (r.approvedOf year) ↔
      ∀ l ∈ r.approvedOf year, l.opportunity.isSome := by
  rw [months_hours]
  exact sum_filter_eq_iff fun l hl => hours_pos hl

/-- Where every log has an opportunity, the groups of a month count each volunteer once exactly
when the logs of a volunteer have the same opportunity. -/
theorem volunteers_eq_iff (hplaced : ∀ l ∈ r.approvedOf year, l.opportunity.isSome) :
    countDistinct (fun p => (p.1, p.2.volunteer)) (r.keyed (r.placedIn year month)) =
        countVolunteers (r.approvedIn year month) ↔
      ∀ l ∈ r.approvedIn year month, ∀ l' ∈ r.approvedIn year month,
        l.volunteer = l'.volunteer → l.opportunity = l'.opportunity := by
  have hall : r.placedIn year month = r.approvedIn year month :=
    List.filter_eq_self.mpr fun l hl => hplaced l (List.mem_of_mem_filter hl)
  have hcount : countVolunteers (r.approvedIn year month) =
      countDistinct (fun p => p.2.volunteer) (r.keyed (r.placedIn year month)) := by
    have hmap : (r.keyed (r.placedIn year month)).map (fun p => p.2.volunteer) =
        (r.placedIn year month).map fun l => l.volunteer := by
      rw [← congrArg (List.map fun l : HoursLog => l.volunteer) placedIn_keyed, List.map_map]
      rfl
    rw [← hall, countVolunteers, countDistinct, countDistinct, hmap]
  rw [hcount, countDistinct_pair_eq_iff, hall]
  have hrow : ∀ l ∈ r.approvedIn year month, l ∈ r.logs.rows ∧ l.opportunity.isSome := by
    intro l hl
    have hof := List.mem_of_mem_filter hl
    exact ⟨mem_rows hof, hplaced l hof⟩
  constructor
  · intro hsame l hl l' hl' heq
    obtain ⟨key, -, hkey, -⟩ := exists_programKey (hrow l hl).1 (hrow l hl).2
    obtain ⟨key', -, hkey', -⟩ := exists_programKey (hrow l' hl').1 (hrow l' hl').2
    have hkeys : key = key' := hsame (key, l) (mem_keyed.mpr ⟨hl, hkey⟩)
      (key', l') (mem_keyed.mpr ⟨hl', hkey'⟩) heq
    apply (programKey_eq_iff (hrow l hl).1 (hrow l' hl').1 (hrow l hl).2 (hrow l' hl').2).mp
    rw [hkey, hkey', hkeys]
  · intro hsame p hp q hq heq
    obtain ⟨hl, hkey⟩ := mem_keyed.mp hp
    obtain ⟨hl', hkey'⟩ := mem_keyed.mp hq
    have hkeys := (programKey_eq_iff (hrow _ hl).1 (hrow _ hl').1 (hrow _ hl).2 (hrow _ hl').2).mpr
      (hsame _ hl _ hl' heq)
    exact Option.some.inj (hkey.symm.trans (hkeys.trans hkey'))

end Roster

open Roster

/-- The reports agree exactly where every log of the year has an opportunity and no volunteer works
for two opportunities in a month. -/
theorem volunteers_agree_iff {province : String} {monthly : ℕ → VolunteerSummary}
    {impact : ImpactValue} {metrics : T3010VolunteerMetrics}
    (hmonthly : ∀ m ∈ months, r.getMonthlyVolunteerSummary year m = .ok (monthly m))
    (himpact : r.impactValue year province none = .ok impact)
    (hmetrics : r.t3010VolunteerMetrics year none = .ok metrics) :
    r.Agree year monthly impact metrics ↔ r.Separate year := by
  have hsum : (months.map fun m => (monthly m).totalApprovedHours) =
      months.map fun m => totalHours (r.placedIn year m) :=
    List.map_congr_left fun m hm => summary_hours (hmonthly m hm)
  constructor
  · intro hagree
    have hplaced : ∀ l ∈ r.approvedOf year, l.opportunity.isSome := by
      apply months_hours_eq_iff.mp
      rw [← hsum, hagree.impact, impact_hours himpact]
    refine ⟨hplaced, fun l hl l' hl' hmonth heq => ?_⟩
    have hm := mem_months.mpr ⟨one_le_monthOf l.date, monthOf_le l.date⟩
    have hcount := hagree.volunteers _ hm
    rw [summary_volunteers (hmonthly _ hm)] at hcount
    apply (volunteers_eq_iff hplaced).mp hcount l _ l' _ heq
    · exact List.mem_filter.mpr ⟨hl, decide_eq_true rfl⟩
    · exact List.mem_filter.mpr ⟨hl', decide_eq_true hmonth.symm⟩
  · intro ⟨hplaced, hsame⟩
    have htotal : (months.map fun m => (monthly m).totalApprovedHours).sum =
        totalHours (r.approvedOf year) := by
      rw [hsum]
      exact months_hours_eq_iff.mpr hplaced
    have hcount : ∀ m ∈ months,
        (monthly m).volunteerCount = countVolunteers (r.approvedIn year m) := by
      intro m hm
      rw [summary_volunteers (hmonthly m hm)]
      apply (volunteers_eq_iff hplaced).mpr
      intro l hl l' hl' heq
      obtain ⟨hof, hmonth⟩ := List.mem_filter.mp hl
      obtain ⟨hof', hmonth'⟩ := List.mem_filter.mp hl'
      apply hsame l hof l' hof' _ heq
      rw [of_decide_eq_true hmonth, of_decide_eq_true hmonth']
    constructor
    case impact => rw [htotal, impact_hours himpact]
    case metrics => rw [htotal, metrics_hours hmetrics]
    case volunteers => exact hcount
    case rows =>
      intro m hm
      rw [← hcount m hm]
      simp [computeVolunteerSnapshot, hmonthly m hm, Except.toOption]

section Example

private def gardens : Opportunity := ⟨1, 1, "Gardener", "gardener", []⟩

private def board : Opportunity := ⟨2, 1, "Board member", "board-member", []⟩

private def log (pk volunteer : ℕ) (opportunity : Option ℕ) : HoursLog where
  pk
  volunteer
  opportunity
  status := .approved
  hours := Volunteers.hours 3
  date := monthStart 2025 6 + pk

/-- The logs of June 2025 -/
private def june (opportunities : List (ℕ × Option ℕ)) : List HoursLog :=
  opportunities.mapIdx fun i p => log (i + 1) p.1 p.2

private def parks : Table Program.schema := ⟨[⟨1, "Parks", "parks"⟩], by decide, by decide⟩

private def posted : Table Opportunity.schema := ⟨[gardens, board], by decide, by decide⟩

private def rosterMonth (r : Roster) (m : ℕ) : VolunteerSummary :=
  (r.getMonthlyVolunteerSummary 2025 m).toOption.getD {}

/-- Two gardeners and a member of the board -/
private def apart : Roster where
  programs := parks
  tags := .empty
  opportunities := posted
  logs := ⟨june [(1, some 1), (2, some 1), (1, some 1), (3, some 2)], by decide, by decide⟩
  placed := by decide
  programmed := by decide

theorem apart_agree : ∃ impact metrics, apart.impactValue 2025 "ON" none = .ok impact ∧
    apart.t3010VolunteerMetrics 2025 none = .ok metrics ∧
      apart.Agree 2025 (rosterMonth apart) impact metrics := by
  have hmonthly : ∀ m ∈ months, apart.getMonthlyVolunteerSummary 2025 m =
      .ok (rosterMonth apart m) := by decide +kernel
  have hseparate : apart.Separate 2025 := by decide +kernel
  exact ⟨_, _, rfl, rfl, (volunteers_agree_iff hmonthly rfl rfl).mpr hseparate⟩

/-- A volunteer in the garden and on the board, and one with a log without an opportunity -/
private def both : Roster where
  programs := parks
  tags := .empty
  opportunities := posted
  logs := ⟨june [(1, some 1), (1, some 2), (2, some 1), (2, none)], by decide, by decide⟩
  placed := by decide
  programmed := by decide

/-- June counts three volunteers where there are two, and the months have nine of twelve hours. -/
theorem both_disagree : (rosterMonth both 6).volunteerCount = 3 ∧
    countVolunteers (both.approvedIn 2025 6) = 2 ∧
      (months.map fun m => (rosterMonth both m).totalApprovedHours).sum = 900 ∧
        ∀ impact metrics, both.impactValue 2025 "ON" none = .ok impact →
          ¬ both.Agree 2025 (rosterMonth both) impact metrics := by
  refine ⟨by decide +kernel, by decide +kernel, by decide +kernel, ?_⟩
  intro impact metrics himpact hagree
  have htotal := hagree.impact
  rw [impact_hours himpact] at htotal
  revert htotal
  decide +kernel

end Example

end Civicos.Reports
