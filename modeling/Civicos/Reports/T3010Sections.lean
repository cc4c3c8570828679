import Civicos.Reports.T3010

/-!
# The sections of the T3010 export

The summary, the rows of the months and those of the campaigns come from queries of their own. The
year is cut in universal time and its months in the project's `TIME_ZONE`; donations without a
campaign are printed under a name that a campaign may have as well.
-/
namespace Civicos.Reports

open Library
open Payments (Cents Donation Uuid decimalText orElse)

/-! ## The export -/

structure PrepRow where
  sectionName : String
  period : String
  donationCount : String := ""
  totalDonated : String := ""
  eligibleAmount : String := ""
  advantageAmount : String := ""
  receiptsIssued : String := ""
deriving DecidableEq, Repr

/-- `_sanitize_csv_cell` -/
def sanitizeCsvCell (s : String) : String :=
  if s.toList.head?.any (· ∈ "=+-@\t\r".toList) then "\t" ++ s else s

namespace PrepRow

def ofFigures (sectionName period : String) (f : GiftFigures) (advantage : Cents)
    (receiptsIssued : String) : PrepRow where
  sectionName
  period
  donationCount := toString f.donationCount
  totalDonated := decimalText f.totalAmount
  eligibleAmount := decimalText f.eligibleAmount
  advantageAmount := decimalText advantage
  receiptsIssued

def ofMonth (row : FiscalMonthRow) : PrepRow :=
  ofFigures "MONTHLY" row.monthLabel row.figures
    (row.figures.totalAmount - row.figures.eligibleAmount) ""

def ofCampaign (row : CampaignRow) : PrepRow :=
  ofFigures "CAMPAIGN" row.campaignName row.figures
    (row.figures.totalAmount - row.figures.eligibleAmount) ""

end PrepRow

namespace T3010Data

/-- The figures of the first row -/
def summary (data : T3010Data) : GiftFigures where
  totalAmount := data.totalEligibleAmount + data.totalAdvantageAmount
  eligibleAmount := data.totalEligibleAmount
  donationCount := data.donationCount

/-- `export_t3010_prep_csv` -/
def exportT3010PrepCsv (data : T3010Data) : List PrepRow :=
  [.ofFigures "SUMMARY"
      ("FY " ++ isoDate data.fiscalYearStart ++ " to " ++ isoDate data.fiscalYearEnd)
      data.summary data.totalAdvantageAmount (toString data.receiptsIssuedInYear),
    { sectionName := "SUMMARY", period := "T3010 Line 4500 — Total Receipted Eligible Amount"
      eligibleAmount := decimalText data.totalReceiptedDonations },
    { sectionName := "SUMMARY", period := "Filing Deadline (6 months after FY end)"
      receiptsIssued := isoDate data.filingDeadline },
    { sectionName := "SUMMARY", period := "Large Donations >=10000 (review for Schedule 4)"
      donationCount := toString data.largeDonationCount }] ++
  data.byMonth.map .ofMonth ++ data.byCampaign.map .ofCampaign

/-- The names in the rows of a section, as they are printed -/
def printed (data : T3010Data) (sectionName : String) : List String :=
  (data.exportT3010PrepCsv.filter (·.sectionName = sectionName)).map fun row =>
    sanitizeCsvCell row.period

/-- Some day of the month is in the fiscal year. -/
def HasMonth (data : T3010Data) (year month : ℕ) : Prop :=
  ∃ day, data.fiscalYearStart ≤ day ∧ day ≤ data.fiscalYearEnd ∧
    yearOf day = year ∧ monthOf day = month

/-- The sections say the same. -/
structure Reconciled (data : T3010Data) : Prop where
  months_sum : (data.byMonth.map (·.figures)).sum = data.summary
  campaigns_sum : (data.byCampaign.map (·.figures)).sum = data.summary
  months_once : (data.byMonth.map fun row => (row.year, row.month)).Nodup
  months_inside : ∀ row ∈ data.byMonth, data.HasMonth row.year row.month
  campaigns_once : (data.printed "CAMPAIGN").Nodup

end T3010Data

/-! ## Campaigns -/

section Campaigns

variable {s : GiftRecords} {gifts : List Donation}

/-- A cell with a tab in front of it is not a cell without. -/
theorem sanitizeCsvCell_injective : Function.Injective sanitizeCsvCell := by
  have hapart : ∀ a b : String, ¬ b.toList.head?.any (· ∈ "=+-@\t\r".toList) → "\t" ++ a ≠ b := by
    rintro a _ hb rfl
    exact hb (by simp [String.toList_append])
  intro a b h
  unfold sanitizeCsvCell at h
  split at h <;> split at h
  next => exact String.append_right_inj _ |>.mp h
  next hb => exact absurd h (hapart a b hb)
  next ha _ => exact absurd h.symm (hapart b a ha)
  next => exact h

namespace GiftRecords

/-- `campaign__name_en` -/
def campaignName (s : GiftRecords) (d : Donation) : Option String := d.campaign.map s.campaignNameEn

/-- The donation is printed under the fallback name. -/
def General (s : GiftRecords) (d : Donation) : Prop :=
  s.campaignName d ∈ [none, some "", some "General Fund"]

instance : DecidablePred s.General := fun _ => inferInstanceAs (Decidable (_ ∈ _))

/-- All donations under the fallback name are in one group. -/
def OneGeneral (s : GiftRecords) (gifts : List Donation) : Prop :=
  ∀ d ∈ gifts, ∀ d' ∈ gifts, s.General d → s.General d' → s.campaignName d = s.campaignName d'

instance : Decidable (s.OneGeneral gifts) :=
  inferInstanceAs (Decidable (∀ d ∈ gifts, ∀ d' ∈ gifts, _ → _ → _))

end GiftRecords

theorem fallback_eq_iff (k k' : Option String) :
    orElse (k.getD "") "General Fund" = orElse (k'.getD "") "General Fund" ↔
      k = k' ∨ (k ∈ [none, some "", some "General Fund"] ∧
        k' ∈ [none, some "", some "General Fund"]) := by
  rcases k with _ | x <;> rcases k' with _ | y <;> unfold orElse
  · simp
  · by_cases hy : y = ""
    · simp [hy]
    · simp only [Option.getD_none, Option.getD_some, hy, if_true, if_false]
      simp [hy, eq_comm (a := "General Fund")]
  · by_cases hx : x = "" <;> simp [hx]
  · by_cases hx : x = "" <;> by_cases hy : y = "" <;> simp [hx, hy] <;> grind

theorem byCampaign_perm : (s.byCampaign gifts).Perm
    ((groupBy s.campaignName (fun _ _ => True) gifts).map fun g =>
      ⟨orElse (g.1.getD "") "General Fund", .annotate g.2⟩) :=
  List.perm_insertionSort ..

theorem byCampaign_sum :
    ((s.byCampaign gifts).map (·.figures)).sum = GiftFigures.annotate gifts := by
  have hsum := sum_groupBy s.campaignName (fun _ _ => True) gifts GiftFigures.one
  rw [(byCampaign_perm.map _).sum_eq, GiftFigures.annotate_eq_sum, ← hsum, List.map_map]
  refine congrArg List.sum (List.map_congr_left fun g _ => ?_)
  exact GiftFigures.annotate_eq_sum g.2

theorem campaignNames_nodup :
    ((s.byCampaign gifts).map (·.campaignName)).Nodup ↔ s.OneGeneral gifts := by
  have hkeys := groupBy_nodup s.campaignName (fun _ _ => True) gifts
  have hnames : ((groupBy s.campaignName (fun _ _ => True) gifts).map (·.1)).map
      (fun k => orElse (k.getD "") "General Fund") =
        ((groupBy s.campaignName (fun _ _ => True) gifts).map fun g =>
          (⟨orElse (g.1.getD "") "General Fund", .annotate g.2⟩ : CampaignRow)).map
            (·.campaignName) := by
    simp only [List.map_map, Function.comp_def]
  rw [(byCampaign_perm.map _).nodup_iff, ← hnames, List.nodup_map_iff_inj_on hkeys]
  have hmem : ∀ k, k ∈ (groupBy s.campaignName (fun _ _ => True) gifts).map (·.1) ↔
      ∃ d ∈ gifts, s.campaignName d = k := by
    simp [groupBy, Function.comp_def]
  simp only [hmem]
  constructor
  · intro hinj d hd d' hd' hgeneral hgeneral'
    have hsame := (fallback_eq_iff ..).mpr (.inr ⟨hgeneral, hgeneral'⟩)
    exact hinj _ ⟨d, hd, rfl⟩ _ ⟨d', hd', rfl⟩ hsame
  · rintro hone _ ⟨d, hd, rfl⟩ _ ⟨d', hd', rfl⟩ hsame
    rcases (fallback_eq_iff ..).mp hsame with heq | ⟨hgeneral, hgeneral'⟩
    · exact heq
    · exact hone d hd d' hd' hgeneral hgeneral'

end Campaigns

/-! ## Months -/

section Months

variable {s : GiftRecords} {c : WesternCalendar} {gifts : List Donation} {data : T3010Data}
  {fiscalYearEnd : ℕ}

theorem ofGroup_fiscal (k : Option (ℕ × ℕ) × List Donation) (r : FiscalMonthRow)
    (h : FiscalMonthRow.ofGroup k = .ok r) : ∃ month, k.1 = some month ∧
      r = ⟨month.1, month.2, monthName month.2 ++ " " ++ toString month.1, .annotate k.2⟩ := by
  obtain ⟨_ | month, members⟩ := k
  · cases h
  · cases h
    exact ⟨month, rfl, rfl⟩

/-- The rows are one for each month that a donation is read in. -/
structure FiscalRows (c : WesternCalendar) (gifts : List Donation) (rows : List FiscalMonthRow) :
    Prop where
  once : (rows.map fun row => (row.year, row.month)).Nodup
  present : ∀ k, k ∈ rows.map (fun row => (row.year, row.month)) ↔ Present c gifts k
  sum : (rows.map (·.figures)).sum = .annotate gifts

theorem fiscalRows_ok {rows : List FiscalMonthRow}
    (h : (groupBy (truncMonth c) monthLe gifts).mapM FiscalMonthRow.ofGroup = .ok rows) :
    FiscalRows c gifts rows := by
  obtain ⟨keyed, hgroups, rfl⟩ := mapM_keyed_ok (g := fun month members =>
    ⟨month.1, month.2, monthName month.2 ++ " " ++ toString month.1, .annotate members⟩)
    ofGroup_fiscal h
  have hkeyed := keyed_ok hgroups
  constructor
  case once =>
    rw [List.map_map]
    exact hkeyed.nodup
  case present =>
    intro k
    rw [List.map_map]
    constructor
    · intro hk
      obtain ⟨g, hg, rfl⟩ := List.mem_map.mp hk
      exact ((hkeyed.mem g).mp hg).1
    · intro hk
      have hgroup := (hkeyed.mem (k, gifts.filter fun d => truncMonth c d = some k)).mpr ⟨hk, rfl⟩
      exact List.mem_map.mpr ⟨_, hgroup, rfl⟩
  case sum =>
    rw [List.map_map]
    exact hkeyed.sum

/-- The fiscal year begins with a month. -/
def T3010Data.StartsMonth (data : T3010Data) : Prop :=
  data.fiscalYearStart = monthStart (yearOf data.fiscalYearStart) (monthOf data.fiscalYearStart)

instance : Decidable data.StartsMonth := inferInstanceAs (Decidable (_ = _))

/-- The day of a donation may be the one before the year, which is in a month of the year when the
year begins within a month. -/
theorem hasMonth_iff {day utcDay : ℕ} (hstart : data.fiscalYearStart ≤ utcDay)
    (hend : utcDay ≤ data.fiscalYearEnd) (hle : day ≤ utcDay) (hge : utcDay ≤ day + 1) :
    data.HasMonth (yearOf day) (monthOf day) ↔
      (data.StartsMonth → data.fiscalYearStart ≤ day) := by
  constructor
  · rintro ⟨day', hlow, -, hyear, hmonth⟩ hstarts
    by_contra hbefore
    -- The first day of the year would be in the month of the day before it.
    have hmonth := (monthOf_eq_iff (one_le_yearOf day) (one_le_monthOf day) (monthOf_le day)).mp
      ⟨hyear, hmonth⟩
    obtain ⟨-, -, hfirst, -⟩ := monthOf_spec day
    have hsame := (monthOf_eq_iff (d := data.fiscalYearStart) (one_le_yearOf day)
      (one_le_monthOf day) (monthOf_le day)).mpr ⟨by omega, by omega⟩
    unfold T3010Data.StartsMonth at hstarts
    rw [hsame.1, hsame.2] at hstarts
    omega
  · intro hday
    by_cases hlow : data.fiscalYearStart ≤ day
    · exact ⟨day, hlow, by omega, rfl, rfl⟩
    · have hstarts : data.fiscalYearStart ≠ monthStart (yearOf data.fiscalYearStart)
          (monthOf data.fiscalYearStart) := fun hstarts => hlow (hday hstarts)
      obtain ⟨-, -, hfirst, hlast⟩ := monthOf_spec data.fiscalYearStart
      have hsame := (monthOf_eq_iff (d := day) (one_le_yearOf data.fiscalYearStart)
        (one_le_monthOf data.fiscalYearStart) (monthOf_le _)).mpr ⟨by omega, by omega⟩
      exact ⟨data.fiscalYearStart, Nat.le_refl _, by omega, hsame.1.symm, hsame.2.symm⟩

/-- No donation of a fiscal year that begins with a month lies on the evening before it. -/
def NoneBefore (c : WesternCalendar) (data : T3010Data) (gifts : List Donation) : Prop :=
  data.StartsMonth → ∀ d ∈ gifts, ∀ day ∈ c.day d.createdAt, data.fiscalYearStart ≤ day

instance : Decidable (NoneBefore c data gifts) :=
  inferInstanceAs (Decidable (_ → ∀ d ∈ gifts, _))

theorem months_inside_iff (hrows : FiscalRows c gifts data.byMonth)
    (hwithin : ∀ d ∈ gifts, Within data.period d.createdAt) :
    (∀ row ∈ data.byMonth, data.HasMonth row.year row.month) ↔ NoneBefore c data gifts := by
  have hkeys : (∀ row ∈ data.byMonth, data.HasMonth row.year row.month) ↔
      ∀ k, Present c gifts k → data.HasMonth k.1 k.2 := by
    simp only [← hrows.present, List.forall_mem_map]
  rw [hkeys]
  have hday : ∀ d ∈ gifts, ∀ day ∈ c.day d.createdAt,
      (data.HasMonth (yearOf day) (monthOf day) ↔
        (data.StartsMonth → data.fiscalYearStart ≤ day)) := by
    intro d hd day hday
    obtain ⟨hstart, hend⟩ := within_iff.mp (hwithin d hd)
    obtain ⟨hle, hge⟩ := c.behind _ day hday
    exact hasMonth_iff hstart (Nat.lt_succ_iff.mp hend) hle hge
  constructor
  · intro hall hstarts d hd day hlocal
    have hpresent : Present c gifts (yearOf day, monthOf day) :=
      ⟨d, hd, by rw [truncMonth, Option.mem_def.mp hlocal]; rfl⟩
    exact (hday d hd day hlocal).mp (hall _ hpresent) hstarts
  · rintro hnone k ⟨d, hd, hk⟩
    obtain ⟨day, hlocal, rfl⟩ := Option.map_eq_some_iff.mp hk
    exact (hday d hd day hlocal).mpr fun hstarts => hnone hstarts d hd day hlocal

end Months

/-! ## The sections -/

section Sections

variable {s : GiftRecords} {c : WesternCalendar} {data : T3010Data} {fiscalYearEnd : ℕ}

/-- The eligible amount is as `save` leaves it. -/
def SavedGift (d : Donation) : Prop := d.eligibleAmount = max 0 (d.amount - d.advantageAmount)

instance : DecidablePred SavedGift := fun _ => inferInstanceAs (Decidable (_ = _))

/-- Under the constraints of the table, a donation is what is eligible of it and the advantage. -/
theorem amount_eq {d : Donation} (hsaved : SavedGift d) (hd : d ∈ s.donations.rows) :
    d.amount = d.eligibleAmount + d.advantageAmount := by
  have hadvantage : d.advantageAmount ≤ d.amount := of_decide_eq_true
    (s.donations.valid d hd _ (List.mem_of_getElem? (i := 7) rfl))
  rw [hsaved, max_eq_right (sub_nonneg.mpr hadvantage), sub_add_cancel]

theorem summary_eq {gifts : List Donation} (h : data.Of s c gifts)
    (hamount : ∀ d ∈ gifts, d.amount = d.eligibleAmount + d.advantageAmount) :
    data.summary = GiftFigures.annotate gifts := by
  have htotal : (gifts.map (·.amount)).sum =
      (gifts.map (·.eligibleAmount)).sum + (gifts.map (·.advantageAmount)).sum := by
    rw [← List.sum_map_add]
    exact congrArg List.sum (List.map_congr_left hamount)
  refine GiftFigures.ext ?_ h.eligible h.count
  exact (congrArg₂ (· + ·) h.eligible h.advantage).trans htotal.symm

theorem printed_campaigns :
    data.printed "CAMPAIGN" = (data.byCampaign.map (·.campaignName)).map sanitizeCsvCell := by
  have hmonths : (data.byMonth.map PrepRow.ofMonth).filter (·.sectionName = "CAMPAIGN") = [] := by
    simp [List.filter_eq_nil_iff, PrepRow.ofMonth, PrepRow.ofFigures]
  have hcampaigns : (data.byCampaign.map PrepRow.ofCampaign).filter (·.sectionName = "CAMPAIGN") =
      data.byCampaign.map PrepRow.ofCampaign := by
    simp [List.filter_eq_self, PrepRow.ofCampaign, PrepRow.ofFigures]
  unfold T3010Data.printed T3010Data.exportT3010PrepCsv
  rw [List.filter_append, List.filter_append, hmonths, hcampaigns]
  simp [PrepRow.ofCampaign, PrepRow.ofFigures]

/-- The sections reconcile exactly when no donation lies locally before the year and its months,
and all donations under the fallback name are in one group. -/
theorem reconciled_iff (hsaved : ∀ d ∈ s.donations.rows, SavedGift d)
    (h : s.getT3010PreparatoryData c fiscalYearEnd = .ok data) :
    data.Reconciled ↔ NoneBefore c data (s.completedWithin data.period) ∧
      s.OneGeneral (s.completedWithin data.period) := by
  have hof := t3010_ok h
  have hrows := fiscalRows_ok hof.months
  have hsummary : data.summary = GiftFigures.annotate (s.completedWithin data.period) := by
    refine summary_eq hof fun d hd => ?_
    have hrow := (mem_completedWithin.mp hd).1
    exact amount_eq (hsaved d hrow) hrow
  have hinside := months_inside_iff hrows fun d hd => (mem_completedWithin.mp hd).2.2
  have hnames : (data.printed "CAMPAIGN").Nodup ↔
      s.OneGeneral (s.completedWithin data.period) := by
    rw [printed_campaigns, List.nodup_map_iff sanitizeCsvCell_injective, hof.campaigns,
      campaignNames_nodup]
  constructor
  · intro hreconciled
    exact ⟨hinside.mp hreconciled.months_inside, hnames.mp hreconciled.campaigns_once⟩
  · rintro ⟨hnone, hone⟩
    constructor
    case months_sum => rw [hrows.sum, hsummary]
    case campaigns_sum => rw [hof.campaigns, byCampaign_sum, hsummary]
    case months_once => exact hrows.once
    case months_inside => exact hinside.mpr hnone
    case campaigns_once => exact hnames.mpr hone

end Sections

section Example

private def giftTo (pk : Uuid) (campaign : Option Uuid) (createdAt : ℕ) : Donation where
  pk
  paymentIntent := pk
  donor := 1
  campaign
  amount := 5000
  advantageAmount := 1000
  createdAt
  status := .completed
  donorNameSnapshot := "A. Donor"
  donorAddressSnapshot := "1 Main St"

private def campaignRecords (name : String) (donations : Table Donation.schema) : GiftRecords where
  donations
  isRecurring _ := false
  campaignNameEn _ := name
  issuedAt _ := 0

private def torontoYear : WesternCalendar := .ofZone Zone.toronto Zone.hours_le_toronto

/-- The report for the year 2024 -/
private def report2024 (s : GiftRecords) : T3010Data :=
  (s.getT3010PreparatoryData torontoYear (daysBefore 2025 - 1)).toOption.getD default

/-- A gift to a campaign and one to none, at noon of 1 March 2024 -/
private def marchGifts (name : String) : GiftRecords := campaignRecords name ⟨[
  giftTo 1 (some 1) (monthStart 2024 3 * dayLength + hours 12),
  giftTo 2 none (monthStart 2024 3 * dayLength + hours 12)], by decide, by decide⟩

theorem march_gifts_reconciled : (report2024 (marchGifts "Trees")).Reconciled := by
  have hsaved : ∀ d ∈ (marchGifts "Trees").donations.rows, SavedGift d := by decide +kernel
  have hdata : (marchGifts "Trees").getT3010PreparatoryData torontoYear (daysBefore 2025 - 1) =
      .ok (report2024 (marchGifts "Trees")) := by decide +kernel
  exact (reconciled_iff hsaved hdata).mpr ⟨by decide +kernel, by decide +kernel⟩

/-- A gift of the last evening of 2023 in Toronto -/
private def newYearsEve : GiftRecords := campaignRecords "Trees" ⟨[
  giftTo 1 none (daysBefore 2024 * dayLength + hours 2)], by decide, by decide⟩

/-- The report for 2024 has a row for December 2023, and two rows for the General Fund when a
campaign has this name. -/
theorem december_before_year :
    (newYearsEve.getT3010PreparatoryData torontoYear (daysBefore 2025 - 1) =
        .ok (report2024 newYearsEve) ∧
      (report2024 newYearsEve).byMonth = [⟨2023, 12, "December 2023", ⟨5000, 4000, 1⟩⟩] ∧
      ¬ (report2024 newYearsEve).Reconciled) ∧
    (marchGifts "General Fund").getT3010PreparatoryData torontoYear (daysBefore 2025 - 1) =
        .ok (report2024 (marchGifts "General Fund")) ∧
      (report2024 (marchGifts "General Fund")).printed "CAMPAIGN" =
        ["General Fund", "General Fund"] ∧
      ¬ (report2024 (marchGifts "General Fund")).Reconciled := by
  have hmonths : (report2024 newYearsEve).byMonth =
      [⟨2023, 12, "December 2023", ⟨5000, 4000, 1⟩⟩] := by decide +kernel
  have hstart : (report2024 newYearsEve).fiscalYearStart = daysBefore 2024 := by decide +kernel
  have hnames : (report2024 (marchGifts "General Fund")).printed "CAMPAIGN" =
      ["General Fund", "General Fund"] := by decide +kernel
  refine ⟨⟨by decide +kernel, hmonths, fun h => ?_⟩, by decide +kernel, hnames, fun h => ?_⟩
  · obtain ⟨day, hlow, -, hyear, -⟩ :=
      h.months_inside ⟨2023, 12, "December 2023", ⟨5000, 4000, 1⟩⟩ (by simp [hmonths])
    have hbefore : day < daysBefore 2024 :=
      ((yearOf_eq_iff (by decide)).mp hyear).2
    omega
  · have honce := h.campaigns_once
    rw [hnames] at honce
    exact absurd honce (by decide)

end Example

end Civicos.Reports
