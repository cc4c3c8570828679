import Civicos.Library.Grouping
import Civicos.Payments.Receipt
import Civicos.Reports.Periods

/-!
# Donation summaries

The donations of a month or a year are those of its range in universal time. The rows of the annual
summary are cut by `TruncMonth`, which goes by the project's `TIME_ZONE`.
-/
namespace Civicos.Reports

open Library
open Payments (Cents Donation Instant ReceiptStatus ReceiptStore Uuid orElse)

/-! ## Rows -/

/-- The rows of donations and receipts, with the columns that only the reports read. -/
structure GiftRecords extends ReceiptStore where
  isRecurring : Uuid → Bool
  campaignNameEn : Uuid → String
  issuedAt : Uuid → Instant

/-- `total_amount`, `eligible_amount` and `count` -/
@[ext] structure GiftFigures where
  totalAmount : Cents := 0
  eligibleAmount : Cents := 0
  donationCount : ℕ := 0
deriving DecidableEq, Repr

namespace GiftFigures

instance : Add GiftFigures where
  add f g := ⟨f.totalAmount + g.totalAmount, f.eligibleAmount + g.eligibleAmount,
    f.donationCount + g.donationCount⟩

instance : Zero GiftFigures := ⟨{}⟩

theorem add_def (f g : GiftFigures) : f + g = ⟨f.totalAmount + g.totalAmount,
    f.eligibleAmount + g.eligibleAmount, f.donationCount + g.donationCount⟩ := rfl

theorem zero_def : (0 : GiftFigures) = ⟨0, 0, 0⟩ := rfl

instance : AddCommMonoid GiftFigures where
  add_assoc _ _ _ := GiftFigures.ext (add_assoc _ _ _) (add_assoc _ _ _) (add_assoc _ _ _)
  zero_add f := by simp [add_def, zero_def]
  add_zero f := by simp [add_def, zero_def]
  add_comm _ _ := GiftFigures.ext (add_comm _ _) (add_comm _ _) (add_comm _ _)
  nsmul := nsmulRec

instance : IsLeftCancelAdd GiftFigures where
  add_left_cancel f g g' h := by
    simp only [add_def, GiftFigures.mk.injEq, add_right_inj] at h
    exact GiftFigures.ext h.1 h.2.1 h.2.2

/-- The annotations of a group -/
def annotate (gifts : List Donation) : GiftFigures where
  totalAmount := (gifts.map (·.amount)).sum
  eligibleAmount := (gifts.map (·.eligibleAmount)).sum
  donationCount := gifts.length

/-- What one donation contributes -/
def one (d : Donation) : GiftFigures := ⟨d.amount, d.eligibleAmount, 1⟩

theorem annotate_eq_sum (gifts : List Donation) : annotate gifts = (gifts.map one).sum := by
  induction gifts with
  | nil => rfl
  | cons d gifts ih =>
    rw [List.map_cons, List.sum_cons, ← ih]
    simp [annotate, one, add_def, Nat.add_comm]

@[simp] theorem annotate_nil : annotate [] = 0 := rfl

theorem annotate_eq_zero {gifts : List Donation} : annotate gifts = 0 ↔ gifts = [] := by
  constructor
  · intro h
    exact List.length_eq_zero_iff.mp (congrArg donationCount h)
  · rintro rfl
    rfl

end GiftFigures

structure CampaignRow where
  campaignName : String
  figures : GiftFigures
deriving DecidableEq, Repr

structure ReceiptSummary where
  issued : ℕ
  cancelled : ℕ
  superseded : ℕ
  total : ℕ
deriving DecidableEq, Repr

structure MonthRow where
  month : ℕ
  monthLabel : String
  figures : GiftFigures
deriving DecidableEq, Repr

/-- The figures that both summaries start with -/
structure GiftTotals where
  totalDonations : Cents
  totalEligibleAmount : Cents
  totalAdvantageAmount : Cents
  donationCount : ℕ
  uniqueDonorCount : ℕ
  recurringCount : ℕ
deriving DecidableEq, Repr

structure MonthlySummary extends GiftTotals where
  oneTimeCount : ℕ
  averageDonation : Cents
  byCampaign : List CampaignRow
  receiptSummary : ReceiptSummary
deriving DecidableEq, Repr

structure AnnualSummary extends GiftTotals where
  year : ℤ
  largeDonationCount : ℕ
  receiptsIssued : ℕ
  byMonth : List MonthRow
  byCampaign : List CampaignRow
deriving DecidableEq, Repr

/-! ## The queries -/

/-- `calendar.month_name` -/
def monthName (m : ℕ) : String :=
  ["", "January", "February", "March", "April", "May", "June", "July", "August", "September",
    "October", "November", "December"].getD m ""

/-- The year and the month of `TruncMonth("created_at")` -/
def truncMonth (c : WesternCalendar) (d : Donation) : Option (ℕ × ℕ) :=
  (c.day d.createdAt).map fun day => (yearOf day, monthOf day)

def MonthRow.ofGroup (g : Option (ℕ × ℕ) × List Donation) : Except String MonthRow :=
  match g.1 with
  | some (_, month) => .ok ⟨month, monthName month, .annotate g.2⟩
  | none => .error "timestamp too small (before year 1)"

/-- `ORDER BY` months; there is no order to keep among dates that cannot be read. -/
def monthLe : Option (ℕ × ℕ) → Option (ℕ × ℕ) → Prop
  | some a, some b => a.1 < b.1 ∨ a.1 = b.1 ∧ a.2 ≤ b.2
  | none, _ => True
  | some _, none => False

instance : DecidableRel monthLe
  | some _, some _ => inferInstanceAs (Decidable (_ ∨ _ ∧ _))
  | none, _ => inferInstanceAs (Decidable True)
  | some _, none => inferInstanceAs (Decidable False)

namespace GiftRecords

variable (s : GiftRecords)

def completedWithin (range : Instant × Instant) : List Donation :=
  s.donations.rows.filter fun d => d.status = .completed ∧ Within range d.createdAt

def countReceipts (range : Instant × Instant) (status : ReceiptStatus) : ℕ :=
  s.receipts.rows.countP fun r => Within range (s.issuedAt r.pk) ∧ r.status = status

def totals (gifts : List Donation) : GiftTotals where
  totalDonations := (gifts.map (·.amount)).sum
  totalEligibleAmount := (gifts.map (·.eligibleAmount)).sum
  totalAdvantageAmount := (gifts.map (·.advantageAmount)).sum
  donationCount := gifts.length
  uniqueDonorCount := countDistinct Donation.donor gifts
  recurringCount := gifts.countP fun d => s.isRecurring d.pk

/-- The groups of `campaign__name_en`, the largest total first -/
def byCampaign (gifts : List Donation) : List CampaignRow :=
  ((groupBy (fun d => d.campaign.map s.campaignNameEn) (fun _ _ => True) gifts).map fun g =>
    { campaignName := orElse (g.1.getD "") "General Fund"
      figures := .annotate g.2 : CampaignRow }).insertionSort fun a b =>
        b.figures.totalAmount ≤ a.figures.totalAmount

def receiptSummary (range : Instant × Instant) : ReceiptSummary where
  issued := s.countReceipts range .issued
  cancelled := s.countReceipts range .cancelled
  superseded := s.countReceipts range .superseded
  total := s.countReceipts range .issued + s.countReceipts range .cancelled +
    s.countReceipts range .superseded

def getMonthlyDonationSummary (year : ℤ) (month : ℕ) : Except String MonthlySummary := do
  let range ← monthUtcRange year month
  let gifts := s.completedWithin range
  let totals := s.totals gifts
  return { totals with
    oneTimeCount := totals.donationCount - totals.recurringCount
    averageDonation :=
      if totals.donationCount = 0 then 0
      else roundHalfEven totals.totalDonations totals.donationCount
    byCampaign := s.byCampaign gifts
    receiptSummary := s.receiptSummary range }

/-- The rows of the annual summary -/
def byMonth (c : WesternCalendar) (gifts : List Donation) : Except String (List MonthRow) :=
  (groupBy (truncMonth c) monthLe gifts).mapM MonthRow.ofGroup

def getAnnualDonationSummary (c : WesternCalendar) (year : ℤ) : Except String AnnualSummary := do
  let range ← yearUtcRange year
  let gifts := s.completedWithin range
  let byMonth ← byMonth c gifts
  return { s.totals gifts with
    year
    largeDonationCount := gifts.countP fun d => 1000000 ≤ d.amount
    receiptsIssued := s.countReceipts range .issued
    byMonth
    byCampaign := s.byCampaign gifts }

/-- The completed donations of a year in universal time -/
def completedIn (year : ℤ) : List Donation :=
  s.donations.rows.filter fun d => d.status = .completed ∧ (utcYear d.createdAt : ℤ) = year

end GiftRecords

/-! ## Agreement -/

section Agreement

variable {s : GiftRecords} {c : WesternCalendar} {year : ℤ} {gifts : List Donation} {d : Donation}
  {y m : ℕ} {rows : List MonthRow} {row : MonthRow} {p q : Donation → Prop} [DecidablePred p]
  [DecidablePred q]

def GiftTotals.figures (t : GiftTotals) : GiftFigures where
  totalAmount := t.totalDonations
  eligibleAmount := t.totalEligibleAmount
  donationCount := t.donationCount

/-- The rows of the year, the summaries of its months and the totals -/
structure Agree (monthly : ℕ → MonthlySummary) (annual : AnnualSummary) : Prop where
  once : (annual.byMonth.map (·.month)).Nodup
  figures : ∀ row ∈ annual.byMonth,
    row.month ∈ months ∧ row.figures = (monthly row.month).figures
  total : (annual.byMonth.map (·.figures)).sum = annual.figures

/-- The donation lies in an earlier month than in universal time. -/
def Early (c : WesternCalendar) (d : Donation) : Prop :=
  truncMonth c d ≠ some (utcYear d.createdAt, utcMonth d.createdAt)

instance : DecidablePred (Early c) := fun _ => inferInstanceAs (Decidable (_ ≠ _))

/-- The donations of a month that lie in an earlier one -/
def early (c : WesternCalendar) (gifts : List Donation) (m : ℕ) : List Donation :=
  gifts.filter fun d => utcMonth d.createdAt = m ∧ Early c d

/-- The donations of a month that lie in it -/
def timely (c : WesternCalendar) (gifts : List Donation) (m : ℕ) : List Donation :=
  gifts.filter fun d => utcMonth d.createdAt = m ∧ ¬ Early c d

/-- Each month loses at its start what the next one loses, and the rows of the two Decembers do
not meet. -/
def Aligned (c : WesternCalendar) (gifts : List Donation) : Prop :=
  (∀ m ∈ months,
    GiftFigures.annotate (early c gifts m) = GiftFigures.annotate (early c gifts 1)) ∧
      (early c gifts 1 = [] ∨ timely c gifts 12 = [])

instance : Decidable (Aligned c gifts) := inferInstanceAs (Decidable (_ ∧ (_ ∨ _)))

/-- What all the donations of a year can be read in -/
structure Readable (c : WesternCalendar) (y : ℕ) (gifts : List Donation) : Prop where
  year : ∀ d ∈ gifts, utcYear d.createdAt = y
  dated : ∀ d ∈ gifts, (truncMonth c d).isSome

theorem annotate_filter_or (hapart : ∀ d ∈ gifts, ¬ (p d ∧ q d)) :
    GiftFigures.annotate (gifts.filter fun d => p d ∨ q d) =
      GiftFigures.annotate (gifts.filter fun d => p d) +
        GiftFigures.annotate (gifts.filter fun d => q d) := by
  simp only [GiftFigures.annotate_eq_sum, sum_map_filter]
  rw [← List.sum_map_add]
  refine congrArg List.sum (List.map_congr_left fun d hd => ?_)
  have hd := hapart d hd
  by_cases hp : p d <;> by_cases hq : q d <;> simp_all

theorem truncMonth_cases {k : ℕ × ℕ} (h : truncMonth c d = some k) :
    k = (utcYear d.createdAt, utcMonth d.createdAt) ∨
      (1 < utcMonth d.createdAt ∧ k = (utcYear d.createdAt, utcMonth d.createdAt - 1)) ∨
        (utcMonth d.createdAt = 1 ∧ k.1 + 1 = utcYear d.createdAt ∧ k.2 = 12) := by
  obtain ⟨day, hday, rfl⟩ := Option.map_eq_some_iff.mp h
  rcases WesternCalendar.month_cases hday rfl rfl with
    ⟨hyear, hmonth⟩ | ⟨hlow, hyear, hmonth⟩ | ⟨hone, hyear, hmonth⟩
  · exact .inl (Prod.ext hyear hmonth)
  · exact .inr (.inl ⟨hlow, Prod.ext hyear hmonth⟩)
  · exact .inr (.inr ⟨hone, hyear, hmonth⟩)

/-- Where a row of the year gets its donations from. -/
theorem truncMonth_eq_iff (hr : Readable c y gifts) (hd : d ∈ gifts) (hm : m ∈ months) :
    truncMonth c d = some (y, m) ↔
      (utcMonth d.createdAt = m ∧ ¬ Early c d) ∨ (utcMonth d.createdAt = m + 1 ∧ Early c d) := by
  obtain ⟨hlow, hhigh⟩ := mem_months.mp hm
  obtain ⟨k, hk⟩ := Option.isSome_iff_exists.mp (hr.dated d hd)
  have hcases := truncMonth_cases hk
  have hyear := hr.year d hd
  unfold Early
  rw [hk]
  grind

/-- The only other row is last year's December. -/
theorem truncMonth_other (hr : Readable c y gifts) (hd : d ∈ gifts) {k : ℕ × ℕ} (hk : k.1 ≠ y) :
    truncMonth c d = some k ↔
      (k.1 + 1 = y ∧ k.2 = 12) ∧ utcMonth d.createdAt = 1 ∧ Early c d := by
  obtain ⟨k', hk'⟩ := Option.isSome_iff_exists.mp (hr.dated d hd)
  have hcases := truncMonth_cases hk'
  have hyear := hr.year d hd
  unfold Early
  rw [hk']
  grind

/-- Rows that are built for the months only, and for none of the dates that cannot be read. -/
theorem mapM_keyed_ok {R : Type} {f : Option (ℕ × ℕ) × List Donation → Except String R}
    {g : ℕ × ℕ → List Donation → R} {groups : List (Option (ℕ × ℕ) × List Donation)} {rows : List R}
    (hf : ∀ k r, f k = .ok r → ∃ month, k.1 = some month ∧ r = g month k.2)
    (h : groups.mapM f = .ok rows) : ∃ keyed : List ((ℕ × ℕ) × List Donation),
      groups = keyed.map (fun g => (some g.1, g.2)) ∧ rows = keyed.map fun k => g k.1 k.2 := by
  induction groups generalizing rows with
  | nil =>
    cases h
    exact ⟨[], rfl, rfl⟩
  | cons k groups ih =>
    rw [List.mapM_cons] at h
    obtain ⟨row, hrow, h₁⟩ := except_bind_ok.mp h
    obtain ⟨rest, hrest, h₂⟩ := except_bind_ok.mp h₁
    cases h₂
    obtain ⟨keyed, rfl, rfl⟩ := ih hrest
    obtain ⟨month, hmonth, rfl⟩ := hf k row hrow
    exact ⟨(month, k.2) :: keyed, by rw [List.map_cons, ← hmonth], rfl⟩

theorem ofGroup_ok (k : Option (ℕ × ℕ) × List Donation) (r : MonthRow)
    (h : MonthRow.ofGroup k = .ok r) :
    ∃ month, k.1 = some month ∧ r = ⟨month.2, monthName month.2, .annotate k.2⟩ := by
  obtain ⟨_ | month, members⟩ := k
  · cases h
  · cases h
    exact ⟨month, rfl, rfl⟩

/-- The row of the donations that are read in a month -/
def rowOf (c : WesternCalendar) (gifts : List Donation) (k : ℕ × ℕ) : MonthRow where
  month := k.2
  monthLabel := monthName k.2
  figures := .annotate (gifts.filter fun d => truncMonth c d = some k)

@[simp] theorem rowOf_month {k : ℕ × ℕ} : (rowOf c gifts k).month = k.2 := rfl

/-- Some donation is read in the month. -/
def Present (c : WesternCalendar) (gifts : List Donation) (k : ℕ × ℕ) : Prop :=
  ∃ d ∈ gifts, truncMonth c d = some k

/-- What the rows of a year are -/
structure Rows (c : WesternCalendar) (gifts : List Donation) (rows : List MonthRow) : Prop where
  dated : ∀ d ∈ gifts, (truncMonth c d).isSome
  mem : ∀ row, row ∈ rows ↔ ∃ k, Present c gifts k ∧ row = rowOf c gifts k
  nodup : (rows.map (·.month)).Nodup ↔
    ∀ k k', Present c gifts k → Present c gifts k' → k.2 = k'.2 → k = k'
  sum : (rows.map (·.figures)).sum = .annotate gifts

/-- The groups of the months that can be read -/
structure Keyed (c : WesternCalendar) (gifts : List Donation)
    (keyed : List ((ℕ × ℕ) × List Donation)) : Prop where
  dated : ∀ d ∈ gifts, (truncMonth c d).isSome
  mem : ∀ g, g ∈ keyed ↔
    Present c gifts g.1 ∧ g.2 = gifts.filter fun d => truncMonth c d = some g.1
  nodup : (keyed.map (·.1)).Nodup
  sum : (keyed.map fun g => GiftFigures.annotate g.2).sum = .annotate gifts

theorem keyed_ok {keyed : List ((ℕ × ℕ) × List Donation)}
    (h : groupBy (truncMonth c) monthLe gifts = keyed.map fun g => (some g.1, g.2)) :
    Keyed c gifts keyed := by
  constructor
  case dated =>
    intro d hd
    have hgroup : (truncMonth c d, _) ∈ groupBy (truncMonth c) monthLe gifts := exists_group hd
    rw [h] at hgroup
    obtain ⟨g, -, hg⟩ := List.mem_map.mp hgroup
    exact Option.isSome_iff_exists.mpr ⟨g.1, (congrArg Prod.fst hg).symm⟩
  case mem =>
    intro g
    have hg : (some g.1, g.2) ∈ groupBy (truncMonth c) monthLe gifts ↔ _ := mem_groupBy
    rw [h] at hg
    simpa [Present] using hg
  case nodup =>
    have hnodup := groupBy_nodup (truncMonth c) monthLe gifts
    rw [h, List.map_map] at hnodup
    have hsome : (keyed.map (·.1)).map some = keyed.map (Prod.fst ∘ fun g => (some g.1, g.2)) := by
      simp [Function.comp_def]
    rw [← hsome] at hnodup
    exact List.Nodup.of_map _ hnodup
  case sum =>
    have hsum := sum_groupBy (truncMonth c) monthLe gifts GiftFigures.one
    rw [h] at hsum
    rw [GiftFigures.annotate_eq_sum, ← hsum]
    simp [Function.comp_def, GiftFigures.annotate_eq_sum]

theorem byMonth_ok (h : GiftRecords.byMonth c gifts = .ok rows) : Rows c gifts rows := by
  obtain ⟨keyed, hgroups, rfl⟩ := mapM_keyed_ok (g := fun month members =>
    ⟨month.2, monthName month.2, .annotate members⟩) ofGroup_ok h
  have hkeyed := keyed_ok hgroups
  constructor
  case dated => exact hkeyed.dated
  case mem =>
    intro row
    simp only [List.mem_map]
    constructor
    · rintro ⟨g, hg, rfl⟩
      obtain ⟨hpresent, hrows⟩ := (hkeyed.mem g).mp hg
      exact ⟨g.1, hpresent, by rw [hrows]; rfl⟩
    · rintro ⟨k, hpresent, rfl⟩
      exact ⟨(k, _), (hkeyed.mem _).mpr ⟨hpresent, rfl⟩, rfl⟩
  case nodup =>
    rw [List.map_map]
    have hinj : ((keyed.map (·.1)).map (·.2)).Nodup ↔ _ := List.nodup_map_iff_inj_on hkeyed.nodup
    rw [List.map_map] at hinj
    refine hinj.trans ?_
    have hpresent : ∀ k, k ∈ keyed.map (·.1) ↔ Present c gifts k := by
      intro k
      rw [List.mem_map]
      constructor
      · rintro ⟨g, hg, rfl⟩
        exact ((hkeyed.mem g).mp hg).1
      · intro hk
        have hgroup := (hkeyed.mem (k, gifts.filter fun d => truncMonth c d = some k)).mpr ⟨hk, rfl⟩
        exact ⟨_, hgroup, rfl⟩
    simp only [hpresent]
    grind
  case sum =>
    rw [List.map_map]
    exact hkeyed.sum

theorem annotate_month (hr : Readable c y gifts) (hm : m ∈ months) :
    (rowOf c gifts (y, m)).figures = GiftFigures.annotate (timely c gifts m) +
      GiftFigures.annotate (early c gifts (m + 1)) := by
  have hrows : (gifts.filter fun d => truncMonth c d = some (y, m)) = gifts.filter fun d =>
      (utcMonth d.createdAt = m ∧ ¬ Early c d) ∨ (utcMonth d.createdAt = m + 1 ∧ Early c d) :=
    List.filter_congr fun d hd => decide_eq_decide.mpr (truncMonth_eq_iff hr hd hm)
  unfold rowOf
  rw [hrows, annotate_filter_or]
  · rfl
  · rintro d - ⟨⟨-, hnot⟩, -, hearly⟩
    exact hnot hearly

theorem present_month (hr : Readable c y gifts) (hm : m ∈ months) :
    Present c gifts (y, m) ↔ timely c gifts m ≠ [] ∨ early c gifts (m + 1) ≠ [] := by
  have hiff : Present c gifts (y, m) ↔ ∃ d ∈ gifts,
      (utcMonth d.createdAt = m ∧ ¬ Early c d) ∨ (utcMonth d.createdAt = m + 1 ∧ Early c d) :=
    exists_congr fun d => and_congr_right fun hd => truncMonth_eq_iff hr hd hm
  rw [hiff]
  simp only [timely, early, ne_eq, List.filter_eq_nil_iff, decide_eq_true_eq]
  grind

/-- The row of last year's December has the first donations of January. -/
theorem annotate_other (hr : Readable c y gifts) {k : ℕ × ℕ} (hy : k.1 + 1 = y) (hm : k.2 = 12) :
    (rowOf c gifts k).figures = GiftFigures.annotate (early c gifts 1) := by
  refine congrArg GiftFigures.annotate (List.filter_congr fun d hd => decide_eq_decide.mpr ?_)
  have hother := truncMonth_other hr hd (k := k) (by omega)
  simp [hother, hy, hm]

theorem present_other (hr : Readable c y gifts) {k : ℕ × ℕ} (hk : k.1 ≠ y) :
    Present c gifts k ↔ (k.1 + 1 = y ∧ k.2 = 12) ∧ early c gifts 1 ≠ [] := by
  have hiff : Present c gifts k ↔ ∃ d ∈ gifts,
      (k.1 + 1 = y ∧ k.2 = 12) ∧ utcMonth d.createdAt = 1 ∧ Early c d :=
    exists_congr fun d => and_congr_right fun hd => truncMonth_other hr hd hk
  rw [hiff]
  simp only [early, ne_eq, List.filter_eq_nil_iff, decide_eq_true_eq]
  grind

/-- A donation is read in a month of the calendar. -/
theorem month_of_present {k : ℕ × ℕ} (h : Present c gifts k) : k.2 ∈ months := by
  obtain ⟨d, -, hk⟩ := h
  have hmonth := mem_months.mp (utcMonth_mem d.createdAt)
  rcases truncMonth_cases hk with rfl | ⟨hlow, rfl⟩ | ⟨-, -, hlast⟩
  · exact utcMonth_mem _
  · exact mem_months.mpr ⟨by omega, by omega⟩
  · rw [hlast]
    decide

theorem early_after (gifts : List Donation) : early c gifts 13 = [] := by
  refine List.filter_eq_nil_iff.mpr fun d _ => ?_
  have hmonth := mem_months.mp (utcMonth_mem d.createdAt)
  rw [decide_eq_true_eq]
  omega

/-- What the summary of a month counts -/
theorem annotate_utcMonth (gifts : List Donation) (m : ℕ) :
    GiftFigures.annotate (gifts.filter fun d => utcMonth d.createdAt = m) =
      GiftFigures.annotate (timely c gifts m) + GiftFigures.annotate (early c gifts m) := by
  have hrows : (gifts.filter fun d => utcMonth d.createdAt = m) = gifts.filter fun d =>
      (utcMonth d.createdAt = m ∧ ¬ Early c d) ∨ (utcMonth d.createdAt = m ∧ Early c d) := by
    refine List.filter_congr fun d _ => decide_eq_decide.mpr ?_
    by_cases hearly : Early c d <;> simp [hearly]
  rw [hrows, annotate_filter_or]
  · rfl
  · rintro d - ⟨⟨-, hnot⟩, -, hearly⟩
    exact hnot hearly

/-- Month after month, what is lost at the start comes back at the end. -/
theorem aligned_of_rows
    (hrows : ∀ m ∈ months, timely c gifts m ≠ [] ∨ early c gifts (m + 1) ≠ [] →
      GiftFigures.annotate (early c gifts (m + 1)) = GiftFigures.annotate (early c gifts m))
    (hother : early c gifts 1 ≠ [] →
      GiftFigures.annotate (early c gifts 12) = GiftFigures.annotate (early c gifts 1) ∧
        timely c gifts 12 = []) : Aligned c gifts := by
  by_cases hfirst : early c gifts 1 = []
  · refine ⟨fun m hm => ?_, .inl hfirst⟩
    obtain ⟨hlow, hhigh⟩ := mem_months.mp hm
    -- Induction upwards: a month can only lose what the one before has lost.
    induction m, hlow using Nat.le_induction with
    | base => rfl
    | succ m hlow ih =>
      have hm' : m ∈ months := mem_months.mpr ⟨hlow, by omega⟩
      by_cases hnext : early c gifts (m + 1) = []
      · rw [hnext, hfirst]
      · rw [hrows m hm' (.inr hnext)]
        exact ih hm' (by omega)
  · obtain ⟨hlast, hlate⟩ := hother hfirst
    refine ⟨fun m hm => ?_, .inr hlate⟩
    obtain ⟨hlow, hhigh⟩ := mem_months.mp hm
    clear hm
    -- Induction downwards: what a month has lost, the one before has lost as well.
    induction hhigh using Nat.decreasingInduction with
    | self => exact hlast
    | of_succ m hlt ih =>
      have hnext := ih (by omega)
      have hloss : early c gifts (m + 1) ≠ [] := by
        intro hnil
        rw [hnil, GiftFigures.annotate_nil] at hnext
        exact hfirst (GiftFigures.annotate_eq_zero.mp hnext.symm)
      rw [← hrows m (mem_months.mpr ⟨hlow, by omega⟩) (.inr hloss)]
      exact hnext

theorem rows_of_aligned (h : Aligned c gifts) (hm : m ∈ months)
    (hpresent : timely c gifts m ≠ [] ∨ early c gifts (m + 1) ≠ []) :
    GiftFigures.annotate (early c gifts (m + 1)) = GiftFigures.annotate (early c gifts m) := by
  obtain ⟨hsame, hends⟩ := h
  obtain ⟨hlow, hhigh⟩ := mem_months.mp hm
  rcases Nat.lt_or_eq_of_le hhigh with hlt | rfl
  · rw [hsame m hm, hsame (m + 1) (mem_months.mpr ⟨by omega, by omega⟩)]
  · have hlate : timely c gifts 12 ≠ [] := by
      rcases hpresent with hlate | hnext
      · exact hlate
      · exact absurd (early_after gifts) hnext
    rw [hsame 12 hm, hends.resolve_right hlate, early_after]

/-- If last year's December has a row, then this year's has none. -/
theorem once_of_aligned (hr : Readable c y gifts) (h : Aligned c gifts) {k k' : ℕ × ℕ}
    (hk : Present c gifts k) (hk' : Present c gifts k') (hmonth : k.2 = k'.2) : k = k' := by
  have hapart : ∀ k k' : ℕ × ℕ, Present c gifts k → Present c gifts k' → k.2 = k'.2 →
      k.1 = y → k'.1 = y := by
    intro k k' hk hk' hmonth hyear
    by_contra hother
    obtain ⟨⟨-, hlast⟩, hfirst⟩ := (present_other hr hother).mp hk'
    obtain rfl : k = (y, 12) := Prod.ext hyear (hmonth.trans hlast)
    rcases (present_month hr (by decide)).mp hk with hlate | hnext
    · exact hlate (h.2.resolve_left hfirst)
    · exact hnext (early_after gifts)
  by_cases hyear : k.1 = y
  · exact Prod.ext (hyear.trans (hapart k k' hk hk' hmonth hyear).symm) hmonth
  · have hyear' : k'.1 ≠ y := fun heq => hyear (hapart k' k hk' hk hmonth.symm heq)
    obtain ⟨⟨hpred, -⟩, -⟩ := (present_other hr hyear).mp hk
    obtain ⟨⟨hpred', -⟩, -⟩ := (present_other hr hyear').mp hk'
    exact Prod.ext (by omega) hmonth

theorem monthly_figures {monthly : MonthlySummary}
    (h : s.getMonthlyDonationSummary year m = .ok monthly) : monthly.figures =
      GiftFigures.annotate ((s.completedIn year).filter fun d => utcMonth d.createdAt = m) := by
  obtain ⟨range, hrange, h₁⟩ := except_bind_ok.mp h
  have hgifts : s.completedWithin range =
      (s.completedIn year).filter fun d => utcMonth d.createdAt = m := by
    unfold GiftRecords.completedWithin GiftRecords.completedIn
    rw [List.filter_filter]
    refine List.filter_congr fun d _ => ?_
    have hwithin := within_month hrange (t := d.createdAt)
    grind
  cases h₁
  rw [← hgifts]
  rfl

theorem annual_figures {annual : AnnualSummary}
    (h : s.getAnnualDonationSummary c year = .ok annual) :
    annual.figures = GiftFigures.annotate (s.completedIn year) ∧
      Rows c (s.completedIn year) annual.byMonth := by
  obtain ⟨range, hrange, h₁⟩ := except_bind_ok.mp h
  obtain ⟨rows, hrows, h₂⟩ := except_bind_ok.mp h₁
  have hgifts : s.completedWithin range = s.completedIn year := by
    refine List.filter_congr fun d _ => ?_
    have hwithin := within_year hrange (t := d.createdAt)
    grind
  rw [hgifts] at hrows h₂
  cases h₂
  exact ⟨rfl, byMonth_ok hrows⟩

/-- The summaries agree exactly when each month has donations of the same amounts and in the same
number that lie locally in the month before it; and if there are any, then none of the year lies
in its December. -/
theorem summaries_agree_iff {annual : AnnualSummary} {monthly : ℕ → MonthlySummary}
    (ha : s.getAnnualDonationSummary c year = .ok annual)
    (hm : ∀ m ∈ months, s.getMonthlyDonationSummary year m = .ok (monthly m)) :
    Agree monthly annual ↔ Aligned c (s.completedIn year) := by
  obtain ⟨htotal, hrows⟩ := annual_figures ha
  have hr : Readable c year.toNat (s.completedIn year) := by
    refine ⟨fun d hd => ?_, hrows.dated⟩
    have hyear := (of_decide_eq_true (List.mem_filter.mp hd).2).2
    omega
  have hmonthly : ∀ m ∈ months, (monthly m).figures =
      GiftFigures.annotate (timely c (s.completedIn year) m) +
        GiftFigures.annotate (early c (s.completedIn year) m) := by
    intro m hmonth
    rw [monthly_figures (hm m hmonth), annotate_utcMonth]
  constructor
  · intro hagree
    refine aligned_of_rows ?_ ?_
    · intro m hmonth hpresent
      have hrow := (hrows.mem _).mpr ⟨_, (present_month hr hmonth).mpr hpresent, rfl⟩
      have hsame := (hagree.figures _ hrow).2
      rw [annotate_month hr hmonth] at hsame
      exact add_left_cancel (hsame.trans (hmonthly m hmonth))
    · intro hfirst
      obtain ⟨d, hd⟩ := List.exists_mem_of_ne_nil _ hfirst
      have hone : 1 ≤ year.toNat := by
        rw [← hr.year d (List.mem_filter.mp hd).1]
        exact one_le_yearOf _
      have hother : year.toNat - 1 ≠ year.toNat := by omega
      have hpred : year.toNat - 1 + 1 = year.toNat := by omega
      have hpresent : Present c (s.completedIn year) (year.toNat - 1, 12) :=
        (present_other hr hother).mpr ⟨⟨hpred, rfl⟩, hfirst⟩
      have hlate : timely c (s.completedIn year) 12 = [] := by
        by_contra hlate
        have hthis := (present_month hr (by decide)).mpr (.inl hlate)
        have hsame := hrows.nodup.mp hagree.once _ _ hpresent hthis rfl
        exact hother (congrArg Prod.fst hsame)
      have hsame := (hagree.figures _ ((hrows.mem _).mpr ⟨_, hpresent, rfl⟩)).2
      rw [annotate_other hr hpred rfl] at hsame
      refine ⟨?_, hlate⟩
      rw [hsame, rowOf_month, hmonthly 12 (by decide), hlate, GiftFigures.annotate_nil, zero_add]
  · intro haligned
    constructor
    case once => exact hrows.nodup.mpr fun _ _ => once_of_aligned hr haligned
    case figures =>
      intro row hrow
      obtain ⟨k, hpresent, rfl⟩ := (hrows.mem row).mp hrow
      have hmonth := month_of_present hpresent
      refine ⟨hmonth, ?_⟩
      rw [rowOf_month, hmonthly _ hmonth]
      by_cases hyear : k.1 = year.toNat
      · obtain ⟨y, m⟩ := k
        obtain rfl : y = year.toNat := hyear
        rw [annotate_month hr hmonth]
        exact congrArg _ (rows_of_aligned haligned hmonth ((present_month hr hmonth).mp hpresent))
      · obtain ⟨⟨hpred, hlast⟩, hfirst⟩ := (present_other hr hyear).mp hpresent
        rw [annotate_other hr hpred hlast, hlast, haligned.1 12 (by decide),
          haligned.2.resolve_left hfirst, GiftFigures.annotate_nil, zero_add]
    case total => rw [hrows.sum, htotal]

end Agreement

section Example

private def gift (pk : Uuid) (amount : Cents) (createdAt : Instant) : Donation where
  pk
  paymentIntent := pk
  donor := 1
  amount
  createdAt
  status := .completed
  donorNameSnapshot := "A. Donor"
  donorAddressSnapshot := "1 Main St"

private def records (donations : Table Donation.schema) : GiftRecords where
  donations
  isRecurring _ := false
  campaignNameEn _ := ""
  issuedAt _ := 0

private def toronto : WesternCalendar := .ofZone Zone.toronto Zone.hours_le_toronto

private def emptySummary : MonthlySummary := ⟨⟨0, 0, 0, 0, 0, 0⟩, 0, 0, [], ⟨0, 0, 0, 0⟩⟩

private def monthlyOf (s : GiftRecords) (m : ℕ) : MonthlySummary :=
  (s.getMonthlyDonationSummary 2024 m).toOption.getD emptySummary

private def annualOf (s : GiftRecords) : AnnualSummary :=
  (s.getAnnualDonationSummary toronto 2024).toOption.getD
    ⟨⟨0, 0, 0, 0, 0, 0⟩, 0, 0, 0, [], []⟩

/-- Gifts at noon of 1 March and of 31 December 2024 -/
private def atNoon : GiftRecords := records ⟨[
  gift 1 5000 (monthStart 2024 3 * dayLength + hours 12),
  gift 2 7000 (monthStart 2025 1 * dayLength - hours 12)], by decide, by decide⟩

theorem at_noon_agree : Agree (monthlyOf atNoon) (annualOf atNoon) := by
  have hannual : atNoon.getAnnualDonationSummary toronto 2024 = .ok (annualOf atNoon) := by
    decide +kernel
  have hmonthly : ∀ m ∈ months, atNoon.getMonthlyDonationSummary 2024 m =
      .ok (monthlyOf atNoon m) := by decide +kernel
  have haligned : Aligned toronto (atNoon.completedIn 2024) := by decide +kernel
  exact (summaries_agree_iff hannual hmonthly).mpr haligned

/-- A gift of the last evening of February 2024 in Toronto -/
private def lateEvening : GiftRecords := records ⟨[
  gift 1 5000 (monthStart 2024 3 * dayLength + hours 2)], by decide, by decide⟩

/-- The annual summary has the gift in February, the monthly one in March. -/
theorem late_evening_apart :
    lateEvening.getAnnualDonationSummary toronto 2024 = .ok (annualOf lateEvening) ∧
      (∀ m ∈ months, lateEvening.getMonthlyDonationSummary 2024 m =
        .ok (monthlyOf lateEvening m)) ∧
      (annualOf lateEvening).byMonth = [⟨2, "February", ⟨5000, 5000, 1⟩⟩] ∧
        (monthlyOf lateEvening 2).figures = ⟨0, 0, 0⟩ ∧
          ¬ Agree (monthlyOf lateEvening) (annualOf lateEvening) := by
  have hrows : (annualOf lateEvening).byMonth = [⟨2, "February", ⟨5000, 5000, 1⟩⟩] := by
    decide +kernel
  have hfebruary : (monthlyOf lateEvening 2).figures = ⟨0, 0, 0⟩ := by decide +kernel
  refine ⟨by decide +kernel, by decide +kernel, hrows, hfebruary, fun hagree => ?_⟩
  have hsame := (hagree.figures ⟨2, "February", ⟨5000, 5000, 1⟩⟩ (by simp [hrows])).2
  rw [hfebruary] at hsame
  exact absurd hsame (by decide)

end Example

end Civicos.Reports
