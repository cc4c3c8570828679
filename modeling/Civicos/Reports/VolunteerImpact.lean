import Civicos.Library.Grouping
import Civicos.Library.Json
import Civicos.Reports.Periods
import Civicos.Volunteers.Store

/-!
# Volunteer impact

The aggregates over approved hours: for each opportunity, for a year, and for the charity return.
Dates are days, hours are whole hundredths.
-/
namespace Civicos.Reports

open Library
open Payments (Cents isSpace)
open Volunteers (Hundredths)

/-! ## Rows -/

structure Program where
  pk : ℕ
  nameEn : String
  slug : String
deriving DecidableEq, Repr

def Program.slugKey : Index Program where
  name := "volunteers_program_slug_key"
  Key := String
  key p := some p.slug

def Program.schema : Schema Program where
  pk := pk
  indexes := [slugKey]

structure SkillTag where
  pk : ℕ
  nameEn : String
  slug : String
deriving DecidableEq, Repr

def SkillTag.schema : Schema SkillTag where
  pk := pk

structure Opportunity where
  pk : ℕ
  program : ℕ
  titleEn : String
  slug : String
  requiredSkills : List ℕ := []
deriving DecidableEq, Repr

def Opportunity.slugKey : Index Opportunity where
  name := "volunteers_opportunity_slug_key"
  Key := String
  key o := some o.slug

def Opportunity.schema : Schema Opportunity where
  pk := pk
  indexes := [slugKey]

/-- A log with the day that it is about -/
structure HoursLog extends Volunteers.HoursLog where
  date : ℕ
deriving DecidableEq, Repr

namespace HoursLog

def volunteerShift : Index HoursLog where
  name := "vol_hourslog_unique_vol_shift"
  Key := ℕ × ℕ
  key l := l.shift.map fun shift => (l.volunteer, shift)

def schema : Schema HoursLog where
  pk l := l.pk
  indexes := [volunteerShift]
  checks := [⟨.check "vol_hourslog_range", fun l => 0 < l.hours ∧ l.hours ≤ Volunteers.hours 24⟩]

end HoursLog

/-- The tables of the reports, with the references that the database enforces -/
structure Roster where
  programs : Table Program.schema
  tags : Table SkillTag.schema
  opportunities : Table Opportunity.schema
  logs : Table HoursLog.schema
  placed : ∀ l ∈ logs.rows, ∀ pk ∈ l.opportunity, (opportunities.get pk).isSome
  programmed : ∀ o ∈ opportunities.rows, (programs.get o.program).isSome

namespace Roster

def opportunityOf (r : Roster) (l : HoursLog) : Option Opportunity :=
  l.opportunity.bind fun pk => r.opportunities.get pk

/-- `status=APPROVED, date__year=year`; a year that is no year of a date raises. -/
def approved (r : Roster) (year : ℤ) : Except String (List HoursLog) :=
  if year < 1 ∨ 9999 < year then .error ("year " ++ toString year ++ " is out of range")
  else .ok (r.logs.rows.filter fun l => l.status = .approved ∧
    daysBefore year.toNat ≤ l.date ∧ l.date ≤ daysBefore (year.toNat + 1) - 1)

/-- `opportunity__program_id__in=program_ids`, if there are any -/
def inPrograms (r : Roster) (programIds : Option (List ℕ)) (l : HoursLog) : Bool :=
  programIds.all fun ids => (r.opportunityOf l).any fun o => o.program ∈ ids

end Roster

def totalHours (logs : List HoursLog) : Hundredths := (logs.map fun l => l.hours).sum

def countVolunteers (logs : List HoursLog) : ℕ := countDistinct (fun l => l.volunteer) logs

/-! ## `hours_by_program` -/

/-- The columns of the grouping -/
structure ProgramKey where
  programSlug : String
  programNameEn : String
  slug : String
  titleEn : String
deriving DecidableEq, Repr

/-- `order_by(program name, title)` -/
def ProgramKey.le (a b : ProgramKey) : Bool :=
  if a.programNameEn = b.programNameEn then textLe a.titleEn.toList b.titleEn.toList
  else textLe a.programNameEn.toList b.programNameEn.toList

structure ProgramHours extends ProgramKey where
  approvedHours : Hundredths
  volunteerCount : ℕ
  shiftCount : ℕ
deriving DecidableEq, Repr

namespace Roster

def programKey (r : Roster) (l : HoursLog) : Option ProgramKey := do
  let o ← r.opportunityOf l
  let p ← r.programs.get o.program
  return ⟨p.slug, p.nameEn, o.slug, o.titleEn⟩

def programHours (g : ProgramKey × List (ProgramKey × HoursLog)) : ProgramHours :=
  let logs := g.2.map (·.2)
  { g.1 with
    approvedHours := totalHours logs
    volunteerCount := countVolunteers logs
    shiftCount := countDistinct id (logs.filterMap fun l => l.shift) }

/-- The logs of the grouping, each with its key -/
def keyed (r : Roster) (logs : List HoursLog) : List (ProgramKey × HoursLog) :=
  logs.filterMap fun l => (r.programKey l).map (·, l)

def hoursByProgram (r : Roster) (year : ℤ) (month : Option ℕ) (programIds : Option (List ℕ)) :
    Except String (List ProgramHours) := do
  let logs ← r.approved year
  let logs := logs.filter fun l => l.opportunity.isSome ∧ month.all (monthOf l.date = ·)
  let keyed := r.keyed (logs.filter (r.inPrograms programIds))
  return (groupBy (·.1) (fun a b => ProgramKey.le a b = true) keyed).map programHours

end Roster

/-! ## `impact_value` -/

/-- `VOLUNTEER_MINIMUM_WAGES` -/
def minimumWages : List (String × ℕ) :=
  [("AB", 1500), ("BC", 1740), ("MB", 1580), ("NB", 1530), ("NL", 1560), ("NS", 1570),
   ("NT", 1605), ("NU", 1600), ("ON", 1720), ("PE", 1600), ("QC", 1575), ("SK", 1400),
   ("YT", 1759), ("FED", 1730)]

/-- An unknown province counts as Ontario. -/
def wageOf (province : String) : String × ℕ :=
  (minimumWages.find? (·.1 = province)).getD ("ON", 1720)

/-- `(hours * rate).quantize(Decimal("0.01"))` -/
def estimate (hours : Hundredths) (rate : ℕ) : Cents := roundHalfEven (hours * rate : ℕ) 100

structure ImpactValue where
  year : ℤ
  province : String
  hourlyRate : ℕ
  totalApprovedHours : Hundredths
  estimatedValueCad : Cents
  volunteerCount : ℕ
  opportunityCount : ℕ
deriving DecidableEq, Repr

def Roster.impactValue (r : Roster) (year : ℤ) (province : String)
    (programIds : Option (List ℕ)) : Except String ImpactValue := do
  let wage := wageOf province
  let logs ← r.approved year
  let logs := logs.filter (r.inPrograms programIds)
  return {
    year
    province := wage.1
    hourlyRate := wage.2
    totalApprovedHours := totalHours logs
    estimatedValueCad := estimate (totalHours logs) wage.2
    volunteerCount := countVolunteers logs
    opportunityCount := countDistinct id (logs.filterMap fun l => l.opportunity) }

/-! ## `t3010_volunteer_metrics` -/

inductive Category where
  | general
  | governance
  | fundraising
  | programDelivery
deriving DecidableEq, Repr

namespace Category

/-- `\w` on the Latin-1 characters -/
def isWord (c : Char) : Bool :=
  c.isAlphanum || c = '_' || c.toNat ∈ [170, 178, 179, 181, 185, 186, 188, 189, 190] ||
    192 ≤ c.toNat && c.toNat ≤ 255 && c.toNat ≠ 215 && c.toNat ≠ 247

/-- `\b` between two characters -/
def isBoundary (before after : Option Char) : Bool := before.any isWord ≠ after.any isWord

/-- A word of a pattern, without regard to case -/
def word (text : String) : List (Char → Bool) := text.toList.map fun c d => d.toLower = c

/-- `[\s_-]` -/
def separator (c : Char) : Bool := isSpace c || c = '_' || c = '-'

/-- `_CATEGORY_PATTERNS` -/
def patterns : List (Category × List (List (Char → Bool))) :=
  [(governance, ["governance", "board", "director", "trustee", "bylaws"].map word),
   (fundraising, ["fundraising", "fundraiser", "donor", "donation", "campaign", "grant"].map word),
   (programDelivery, ["program", "programme", "service"].map (fun w =>
      word w ++ [separator] ++ word "delivery") ++ [word "delivery"])]

/-- A word of the pattern, between boundaries, after the first `i` characters -/
def foundAt (text : List Char) (i : ℕ) (w : List (Char → Bool)) : Bool :=
  let rest := text.drop i
  isBoundary (text.take i).getLast? rest.head? && w.length ≤ rest.length &&
    (w.zip rest).all (fun p => p.1 p.2) &&
      isBoundary (rest.take w.length).getLast? (rest.drop w.length).head?

/-- `pattern.search(text)` -/
def search (words : List (List (Char → Bool))) (text : List Char) : Bool :=
  (List.range (text.length + 1)).any fun i => words.any (foundAt text i)

/-- `_classify_skill_tags` -/
def classify (slugs names : List String) : Category :=
  let blank (c : Char) : Char := if c = '-' ∨ c = '_' then ' ' else c
  let combined := [' '].intercalate
    (slugs.map (fun s => s.toList.map blank) ++ names.map String.toList)
  ((patterns.find? fun p => search p.2 combined).map (·.1)).getD general

example : classify ["grant-writing"] ["Grant writing"] = fundraising := by decide

end Category

structure CategoryHours where
  category : Category
  hours : Hundredths
  volunteers : ℕ
deriving DecidableEq, Repr

structure T3010VolunteerMetrics where
  year : ℤ
  totalVolunteers : ℕ
  totalVolunteerHours : Hundredths
  numPrograms : ℕ
  estimatedValueCad : Cents
  categories : List CategoryHours
deriving DecidableEq, Repr

namespace Roster

/-- The category of an opportunity by its tags; blank slugs and names are skipped. -/
def categoryOf (r : Roster) (opportunity : ℕ) : Category :=
  let tags := ((r.opportunities.get opportunity).map fun o =>
    o.requiredSkills.filterMap fun pk => r.tags.get pk).getD []
  Category.classify ((tags.map (·.slug)).filter (· ≠ "")) ((tags.map (·.nameEn)).filter (· ≠ ""))

/-- The loop over the opportunities; hours without one are general. -/
def categoryHours (r : Roster) (logs : List HoursLog) (category : Category) : CategoryHours :=
  let placed := logs.filterMap fun l => l.opportunity.map (·, l)
  let groups := (groupBy (·.1) (· ≤ ·) placed).map fun g => (g.1, g.2.map (·.2))
  let unplaced := logs.filter fun l => l.opportunity.isNone
  let own := groups.filter fun g => r.categoryOf g.1 = category
  let rest := if category = .general then unplaced else []
  { category
    hours := (own.map fun g => totalHours g.2).sum + totalHours rest
    volunteers := (own.map fun g => countVolunteers g.2).sum + countVolunteers rest }

def t3010VolunteerMetrics (r : Roster) (year : ℤ) (programIds : Option (List ℕ)) :
    Except String T3010VolunteerMetrics := do
  let logs ← r.approved year
  let logs := logs.filter (r.inPrograms programIds)
  let categories := [Category.general, .governance, .fundraising, .programDelivery]
  return {
    year
    totalVolunteers := countVolunteers logs
    totalVolunteerHours := totalHours logs
    numPrograms := countDistinct id (logs.filterMap fun l => (r.opportunityOf l).map (·.program))
    estimatedValueCad := estimate (totalHours logs) (wageOf "ON").2
    categories := (categories.map (r.categoryHours logs)).filter fun c =>
      0 < c.hours ∨ 0 < c.volunteers }

end Roster

end Civicos.Reports
