import Civicos.Payments.ReceiptAmounts
import Civicos.Reports.DonationSummary

/-!
# T3010 figures

Line 4500 counts the donations that an issued receipt is linked to. A consolidated receipt covers
the donations of a year and is linked to the first of them.
-/
namespace Civicos.Reports

open Library
open Payments (Cents Donation Instant OfficialDonationReceipt ReceiptStore Uuid)

/-! ## Fiscal years -/

/-- The day of the month -/
def dayOfMonth (d : ℕ) : ℕ := (monthDay (monthLengths (yearOf d)) 1 (d - daysBefore (yearOf d))).2

/-- `date(year, month, day)` -/
def civilDate (year month day : ℕ) : Except String ℕ :=
  if year < 1 ∨ 9999 < year then .error ("year " ++ toString year ++ " is out of range")
  else if month < 1 ∨ 12 < month then .error "month must be in 1..12"
  else if day < 1 ∨ (monthLengths year).getD (month - 1) 0 < day then
    .error "day is out of range for month"
  else .ok (monthStart year month + (day - 1))

/-- `d + timedelta(days=1)` -/
def nextDay (d : ℕ) : Except String ℕ :=
  if d + 1 < daysBefore 10000 then .ok (d + 1) else .error "date value out of range"

/-- `_fiscal_year_date_range` -/
def fiscalYearDateRange (fiscalYearEnd : ℕ) : Except String (ℕ × ℕ) := do
  let year := yearOf fiscalYearEnd
  let month := monthOf fiscalYearEnd
  let oneYearAgo ← civilDate (year - 1) month (dayOfMonth fiscalYearEnd) <|>
    civilDate (year - 1) month 28
  return (← nextDay oneYearAgo, fiscalYearEnd)

/-- `_filing_deadline` -/
def filingDeadline (fiscalYearEnd : ℕ) : Except String ℕ :=
  let month := monthOf fiscalYearEnd + 6
  let targetYear := if 12 < month then yearOf fiscalYearEnd + 1 else yearOf fiscalYearEnd
  let targetMonth := if 12 < month then month - 12 else month
  civilDate targetYear targetMonth
    (min (dayOfMonth fiscalYearEnd) ((monthLengths targetYear).getD (targetMonth - 1) 0))

example : (fiscalYearDateRange (monthStart 2024 3 - 1)).toOption =
    some (monthStart 2023 3, monthStart 2024 3 - 1) := by decide

example : (filingDeadline (monthStart 2024 9 - 1)).toOption = some (monthStart 2025 3 - 1) := by
  decide

/-! ## The report -/

structure FiscalMonthRow where
  year : ℕ
  month : ℕ
  monthLabel : String
  figures : GiftFigures
deriving DecidableEq, Repr

def FiscalMonthRow.ofGroup (g : Option (ℕ × ℕ) × List Donation) : Except String FiscalMonthRow :=
  match g.1 with
  | some (year, month) =>
    .ok ⟨year, month, monthName month ++ " " ++ toString year, .annotate g.2⟩
  | none => .error "timestamp too small (before year 1)"

structure T3010Data where
  fiscalYearStart : ℕ
  fiscalYearEnd : ℕ
  filingDeadline : ℕ
  totalReceiptedDonations : Cents
  totalEligibleAmount : Cents
  totalAdvantageAmount : Cents
  totalDonated : Cents
  donationCount : ℕ
  largeDonationCount : ℕ
  receiptsIssuedInYear : ℕ
  receiptsCancelledInYear : ℕ
  receiptsSupersededInYear : ℕ
  byCampaign : List CampaignRow
  byMonth : List FiscalMonthRow
deriving DecidableEq, Repr, Inhabited

namespace GiftRecords

variable (s : GiftRecords)

/-- `base_qs.filter(Exists(_has_issued))` -/
def receipted (gifts : List Donation) : List Donation := gifts.filter fun d => s.issuedFor d.pk

def getT3010PreparatoryData (c : WesternCalendar) (fiscalYearEnd : ℕ) :
    Except String T3010Data := do
  let years ← fiscalYearDateRange fiscalYearEnd
  let deadline ← filingDeadline years.2
  let stop ← nextDay years.2
  let range := (years.1 * dayLength, stop * dayLength)
  let gifts := s.completedWithin range
  let byMonth ← (groupBy (truncMonth c) monthLe gifts).mapM FiscalMonthRow.ofGroup
  return {
    fiscalYearStart := years.1
    fiscalYearEnd := years.2
    filingDeadline := deadline
    totalReceiptedDonations := ((s.receipted gifts).map (·.eligibleAmount)).sum
    totalEligibleAmount := (s.totals gifts).totalEligibleAmount
    totalAdvantageAmount := (s.totals gifts).totalAdvantageAmount
    totalDonated := (s.totals gifts).totalEligibleAmount + (s.totals gifts).totalAdvantageAmount
    donationCount := gifts.length
    largeDonationCount := gifts.countP fun d => 1000000 ≤ d.amount
    receiptsIssuedInYear := s.countReceipts range .issued
    receiptsCancelledInYear := s.countReceipts range .cancelled
    receiptsSupersededInYear := s.countReceipts range .superseded
    byCampaign := s.byCampaign gifts
    byMonth }

end GiftRecords

/-! ## Line 4500 -/

section Line4500

variable {s : GiftRecords} {c : WesternCalendar} {fiscalYearEnd : ℕ} {data : T3010Data}
  {range : Instant × Instant} {d : Donation} {r : OfficialDonationReceipt}

namespace GiftRecords

/-- What the completed donations come to that an issued receipt covers -/
def coveredAmount (s : GiftRecords) (range : Instant × Instant) : Cents :=
  (((s.completedWithin range).filter fun d => s.receiptsOver d.pk ≠ []).map
    (·.eligibleAmount)).sum

/-- The issued receipts that cover a donation of the time -/
def issuedOver (s : GiftRecords) (range : Instant × Instant) : List OfficialDonationReceipt :=
  s.receipts.rows.filter fun r => r.status = .issued ∧
    ∃ d ∈ s.donations.rows, Reports.Within range d.createdAt ∧ d.pk ∈ r.covers

/-- What is printed on them -/
def printedAmount (s : GiftRecords) (range : Instant × Instant) : Cents :=
  ((s.issuedOver range).map (·.eligibleAmount)).sum

/-- The receipt is linked to a completed donation of the time. -/
def LinkedWithin (s : GiftRecords) (range : Instant × Instant) (r : OfficialDonationReceipt) :
    Prop :=
  ∃ d ∈ s.completedWithin range, d.pk = r.donation

instance : DecidablePred (s.LinkedWithin range) := fun _ =>
  inferInstanceAs (Decidable (∃ d ∈ s.completedWithin range, _))

end GiftRecords

/-- The fiscal year in universal time -/
def T3010Data.period (data : T3010Data) : Instant × Instant :=
  (data.fiscalYearStart * dayLength, (data.fiscalYearEnd + 1) * dayLength)

def T3010Data.IsCalendarYear (data : T3010Data) (year : ℤ) : Prop :=
  data.fiscalYearStart = daysBefore year.toNat ∧
    data.fiscalYearEnd + 1 = daysBefore (year.toNat + 1)

/-- The store is as an annual run without failures has left it. -/
def AfterAnnualRun (taxYear : ℤ) (s : ReceiptStore) : Prop :=
  ∃ s₀ clock report, Payments.receipting.Reachable s₀ ∧
    Payments.generateAnnualReceipts taxYear clock s₀ = (.ok report, s) ∧ report.failed = 0

/-- Line 4500 is what was receipted. -/
structure Line4500 (s : GiftRecords) (data : T3010Data) : Prop where
  covered : data.totalReceiptedDonations = s.coveredAmount data.period
  printed : ∀ taxYear, data.IsCalendarYear taxYear → AfterAnnualRun taxYear s.toReceiptStore →
    data.totalReceiptedDonations = s.printedAmount data.period

/-- What a receipt covers beside the donation it is linked to has a receipt of its own; after an
annual run a receipt covers nothing beside it. -/
structure LinkedToAll (s : GiftRecords) (data : T3010Data) : Prop where
  linked : ∀ r ∈ s.receipts.rows, r.status = .issued → ∀ d ∈ s.completedWithin data.period,
    d.pk ∈ r.covers → d.pk = r.donation ∨ s.issuedFor d.pk = true
  alone : ∀ taxYear, data.IsCalendarYear taxYear → AfterAnnualRun taxYear s.toReceiptStore →
    ∀ r ∈ s.issuedOver data.period, r.covers = [r.donation] ∧ s.LinkedWithin data.period r

theorem mem_completedWithin : d ∈ s.completedWithin range ↔
    d ∈ s.donations.rows ∧ d.status = .completed ∧ Reports.Within range d.createdAt := by
  simp [GiftRecords.completedWithin]

theorem issuedFor_iff {k : Uuid} : s.issuedFor k = true ↔
    ∃ r ∈ s.receipts.rows, r.donation = k ∧ r.status = .issued := by
  simp [ReceiptStore.issuedFor]

theorem receiptsOver_ne_nil {k : Uuid} : s.receiptsOver k ≠ [] ↔
    ∃ r ∈ s.receipts.rows, r.status = .issued ∧ k ∈ r.covers := by
  simp [ReceiptStore.receiptsOver, List.filter_eq_nil_iff]

theorem mem_issuedOver : r ∈ s.issuedOver range ↔ r ∈ s.receipts.rows ∧ r.status = .issued ∧
    ∃ d ∈ s.donations.rows, Reports.Within range d.createdAt ∧ d.pk ∈ r.covers := by
  simp [GiftRecords.issuedOver]

/-- What the sections of the report are made of -/
structure T3010Data.Of (data : T3010Data) (s : GiftRecords) (c : WesternCalendar)
    (gifts : List Donation) : Prop where
  receipted : data.totalReceiptedDonations = ((s.receipted gifts).map (·.eligibleAmount)).sum
  eligible : data.totalEligibleAmount = (gifts.map (·.eligibleAmount)).sum
  advantage : data.totalAdvantageAmount = (gifts.map (·.advantageAmount)).sum
  count : data.donationCount = gifts.length
  campaigns : data.byCampaign = s.byCampaign gifts
  months : (groupBy (truncMonth c) monthLe gifts).mapM FiscalMonthRow.ofGroup = .ok data.byMonth

/-- The dates that a report has been made of, and what it holds -/
theorem t3010_dates (h : s.getT3010PreparatoryData c fiscalYearEnd = .ok data) :
    (∃ years stop, fiscalYearDateRange fiscalYearEnd = .ok years ∧ nextDay years.2 = .ok stop ∧
      data.period = (years.1 * dayLength, stop * dayLength)) ∧
      data.Of s c (s.completedWithin data.period) := by
  obtain ⟨years, hyears, h₁⟩ := except_bind_ok.mp h
  obtain ⟨deadline, -, h₂⟩ := except_bind_ok.mp h₁
  obtain ⟨stop, hstop, h₃⟩ := except_bind_ok.mp h₂
  obtain ⟨byMonth, hmonths, h₄⟩ := except_bind_ok.mp h₃
  have hnext : stop = years.2 + 1 := by
    unfold nextDay at hstop
    split at hstop <;> cases hstop
    rfl
  subst hnext
  cases h₄
  exact ⟨⟨years, _, hyears, hstop, rfl⟩, ⟨rfl, rfl, rfl, rfl, rfl, hmonths⟩⟩

theorem t3010_ok (h : s.getT3010PreparatoryData c fiscalYearEnd = .ok data) :
    data.Of s c (s.completedWithin data.period) :=
  (t3010_dates h).2

/-- A linked donation is covered, and a covered one has an amount. -/
theorem covered_of_issuedFor (hs : s.AllBacked) {k : Uuid} (h : s.issuedFor k = true) :
    s.receiptsOver k ≠ [] := by
  obtain ⟨r, hr, rfl, hissued⟩ := issuedFor_iff.mp h
  exact receiptsOver_ne_nil.mpr ⟨r, hr, hissued, (hs r hr).anchor⟩

theorem eligible_of_covered (hs : s.AllBacked) (hd : d ∈ s.donations.rows)
    (h : s.receiptsOver d.pk ≠ []) : 0 < d.eligibleAmount := by
  obtain ⟨r, hr, -, hcovers⟩ := receiptsOver_ne_nil.mp h
  have hpos := (hs r hr).positive d.pk hcovers
  rwa [ReceiptStore.eligibleOf_of_mem hd] at hpos

theorem covered_iff (hs : s.AllBacked) :
    ((s.receipted (s.completedWithin range)).map (·.eligibleAmount)).sum =
      s.coveredAmount range ↔
        ∀ r ∈ s.receipts.rows, r.status = .issued → ∀ d ∈ s.completedWithin range,
          d.pk ∈ r.covers → d.pk = r.donation ∨ s.issuedFor d.pk = true := by
  have hrows : s.receipted (s.completedWithin range) =
      ((s.completedWithin range).filter fun d => s.receiptsOver d.pk ≠ []).filter
        fun d => s.issuedFor d.pk := by
    unfold GiftRecords.receipted
    rw [List.filter_filter]
    refine List.filter_congr fun d _ => ?_
    cases hissued : s.issuedFor d.pk with
    | false => rfl
    | true => simp [covered_of_issuedFor hs hissued]
  rw [hrows, GiftRecords.coveredAmount, sum_filter_eq_iff]
  · constructor
    · intro hall r hr hissued d hd hcovers
      refine .inr (hall d (List.mem_filter.mpr ⟨hd, decide_eq_true ?_⟩))
      exact receiptsOver_ne_nil.mpr ⟨r, hr, hissued, hcovers⟩
    · intro hlinked d hd
      obtain ⟨hd, hcovered⟩ := List.mem_filter.mp hd
      obtain ⟨r, hr, hissued, hcovers⟩ := receiptsOver_ne_nil.mp (of_decide_eq_true hcovered)
      rcases hlinked r hr hissued d hd hcovers with hsame | hissued'
      · exact issuedFor_iff.mpr ⟨r, hr, hsame.symm, hissued⟩
      · exact hissued'
  · intro d hd
    obtain ⟨hd, hcovered⟩ := List.mem_filter.mp hd
    exact eligible_of_covered hs (mem_completedWithin.mp hd).1 (of_decide_eq_true hcovered)

/-- The receipts that the report goes by, each with its own donation -/
theorem receipted_perm (hs : s.AllBacked) :
    ((s.receipted (s.completedWithin range)).map (·.pk)).Perm
      (((s.issuedOver range).filter (s.LinkedWithin range)).map (·.donation)) := by
  have hdonations : (s.donations.rows.map Donation.pk).Nodup := s.donations.nodup_pk
  have hreceipts : s.receipts.rows.Nodup :=
    s.receipts.apart.imp fun hapart heq => hapart.1 (congrArg _ heq)
  refine (List.perm_ext_iff_of_nodup ?_ ?_).mpr fun k => ?_
  · exact ((List.filter_sublist.trans List.filter_sublist).map _).nodup hdonations
  · have hrows : ((s.issuedOver range).filter fun r => s.LinkedWithin range r).Nodup :=
      List.filter_sublist.nodup (List.filter_sublist.nodup hreceipts)
    refine (List.nodup_map_iff_inj_on hrows).mpr fun r hr r' hr' hsame => ?_
    obtain ⟨hrow, hissued, -⟩ := mem_issuedOver.mp (List.mem_filter.mp hr).1
    obtain ⟨hrow', hissued', -⟩ := mem_issuedOver.mp (List.mem_filter.mp hr').1
    -- A donation has one issued receipt at most.
    have hkey : OfficialDonationReceipt.issuedKey ∈ OfficialDonationReceipt.schema.indexes :=
      .tail _ (.head _)
    refine Table.eq_of_clash hkey hrow hrow' ?_
    simp [Index.Clash, OfficialDonationReceipt.issuedKey, hissued, hissued', hsame]
  · simp only [List.mem_map, List.mem_filter, GiftRecords.receipted, decide_eq_true_eq]
    constructor
    · rintro ⟨d, ⟨hd, hissuedFor⟩, rfl⟩
      obtain ⟨r, hr, hlink, hissued⟩ := issuedFor_iff.mp hissuedFor
      obtain ⟨hrow, -, hwithin⟩ := mem_completedWithin.mp hd
      refine ⟨r, ⟨mem_issuedOver.mpr ⟨hr, hissued, d, hrow, hwithin, ?_⟩, d, hd, hlink.symm⟩, hlink⟩
      rw [← hlink]
      exact (hs r hr).anchor
    · rintro ⟨r, ⟨hr, d, hd, hlink⟩, rfl⟩
      obtain ⟨hrow, hissued, -⟩ := mem_issuedOver.mp hr
      exact ⟨d, ⟨hd, issuedFor_iff.mpr ⟨r, hrow, hlink.symm, hissued⟩⟩, hlink⟩

/-- A receipt states at least the amount of its own donation, and more if it covers others. -/
theorem amount_cases (hr : s.Backed r) : s.eligibleOf r.donation ≤ r.eligibleAmount ∧
    (s.eligibleOf r.donation = r.eligibleAmount ↔ r.covers = [r.donation]) := by
  have hperm := List.perm_cons_erase hr.anchor
  have hsum : r.eligibleAmount = s.eligibleOf r.donation +
      ((r.covers.erase r.donation).map s.eligibleOf).sum := by
    rw [hr.amount, (hperm.map _).sum_eq, List.map_cons, List.sum_cons]
  have hpos : ∀ a ∈ (r.covers.erase r.donation).map s.eligibleOf, 0 < a := by
    intro a ha
    obtain ⟨k, hk, rfl⟩ := List.mem_map.mp ha
    exact hr.positive k (List.mem_of_mem_erase hk)
  by_cases hrest : r.covers.erase r.donation = []
  · rw [hrest] at hsum hperm
    have hsame : s.eligibleOf r.donation = r.eligibleAmount := by
      rw [hsum]
      simp
    exact ⟨hsame.le, fun _ => List.perm_singleton.mp hperm, fun _ => hsame⟩
  · have hlt := List.sum_pos _ hpos (by simpa using hrest)
    have hless : s.eligibleOf r.donation < r.eligibleAmount := by
      rw [hsum]
      exact lt_add_of_pos_right _ hlt
    refine ⟨hless.le, fun hsame => absurd hsame hless.ne, fun hcovers => absurd ?_ hrest⟩
    simp [hcovers]

theorem printed_iff (hs : s.AllBacked) :
    ((s.receipted (s.completedWithin range)).map (·.eligibleAmount)).sum =
      s.printedAmount range ↔
        ∀ r ∈ s.issuedOver range, r.covers = [r.donation] ∧ s.LinkedWithin range r := by
  have hlinked : ((s.receipted (s.completedWithin range)).map (·.eligibleAmount)).sum =
      ((s.issuedOver range).map fun r =>
        if s.LinkedWithin range r then s.eligibleOf r.donation else 0).sum := by
    have hdonated : ((s.receipted (s.completedWithin range)).map (·.pk)).Perm
        (((s.issuedOver range).filter (s.LinkedWithin range)).map (·.donation)) := receipted_perm hs
    have hperm := (hdonated.map s.eligibleOf).sum_eq
    rw [List.map_map, List.map_map, sum_map_filter] at hperm
    simp only [decide_eq_true_eq, Function.comp_apply] at hperm
    rw [← hperm]
    refine congrArg List.sum (List.map_congr_left fun d hd => ?_)
    have hrow := (mem_completedWithin.mp (List.mem_filter.mp hd).1).1
    exact (ReceiptStore.eligibleOf_of_mem hrow).symm
  have hbacked : ∀ r ∈ s.issuedOver range, s.Backed r := fun r hr => hs r (mem_issuedOver.mp hr).1
  have hpositive : ∀ r ∈ s.issuedOver range, 0 < s.eligibleOf r.donation := fun r hr =>
    (hbacked r hr).positive _ (hbacked r hr).anchor
  rw [hlinked, GiftRecords.printedAmount, sum_map_eq_iff_of_le]
  · refine forall₂_congr fun r hr => ?_
    obtain ⟨hle, hiff⟩ := amount_cases (hbacked r hr)
    have hpos := hpositive r hr
    by_cases hwithin : s.LinkedWithin range r
    · simp [hwithin, hiff]
    · simp only [hwithin, if_false, and_false, iff_false]
      exact (hpos.trans_le hle).ne
  · intro r hr
    obtain ⟨hle, -⟩ := amount_cases (hbacked r hr)
    split
    · exact hle
    · exact (hpositive r hr).le.trans hle

/-- Line 4500 is what was receipted exactly when the receipts are linked to all that they cover. -/
theorem line4500_iff (hs : Payments.receipting.Reachable s.toReceiptStore)
    (h : s.getT3010PreparatoryData c fiscalYearEnd = .ok data) :
    Line4500 s data ↔ LinkedToAll s data := by
  have hbacked : s.AllBacked := Payments.allBacked_of_reachable hs
  have htotal := (t3010_ok h).receipted
  constructor
  · intro hline
    constructor
    · exact (covered_iff hbacked).mp (htotal.symm.trans hline.covered)
    · intro taxYear hyear hrun
      exact (printed_iff hbacked).mp (htotal.symm.trans (hline.printed taxYear hyear hrun))
  · intro hlinked
    constructor
    · exact htotal.trans ((covered_iff hbacked).mpr hlinked.linked)
    · intro taxYear hyear hrun
      exact htotal.trans ((printed_iff hbacked).mpr (hlinked.alone taxYear hyear hrun))

end Line4500

section Example

open Payments (ReceiptStep charityOfTown february2025 generateAnnualReceipts giftOn receipting
  twoGifts)

private def recordsOf (s : ReceiptStore) : GiftRecords where
  toReceiptStore := s
  isRecurring _ := false
  campaignNameEn _ := ""
  issuedAt _ := february2025

private def eastern : WesternCalendar := .ofZone Zone.toronto Zone.hours_le_toronto

private def t3010Of (s : GiftRecords) : T3010Data :=
  (s.getT3010PreparatoryData eastern (daysBefore 2025 - 1)).toOption.getD default

/-- One gift of 2024, with the receipt of the receiver -/
private def receiptedGift : ReceiptStore :=
  receipting.final {} [.configure charityOfTown, .donate (giftOn 60), .signal 1 february2025]

theorem receipted_gift_counted :
    Line4500 (recordsOf receiptedGift) (t3010Of (recordsOf receiptedGift)) := by
  have hreachable : receipting.Reachable receiptedGift :=
    Machine.Reachable.final (M := receipting) (s := {}) rfl _
  have hdata : (recordsOf receiptedGift).getT3010PreparatoryData eastern (daysBefore 2025 - 1) =
      .ok (t3010Of (recordsOf receiptedGift)) := by decide +kernel
  refine (line4500_iff (s := recordsOf receiptedGift) hreachable hdata).mpr ⟨?_, fun _ _ _ => ?_⟩
  · decide +kernel
  · decide +kernel

/-- Two gifts of a donor in 2024, receipted by the annual run -/
private def consolidated : ReceiptStore :=
  (generateAnnualReceipts 2024 (fun _ => february2025) (receipting.final {} twoGifts)).2

/-- Half of what was receipted is missing. -/
theorem consolidated_missing :
    receipting.Reachable consolidated ∧ AfterAnnualRun 2024 consolidated ∧
    (recordsOf consolidated).getT3010PreparatoryData eastern (daysBefore 2025 - 1) =
      .ok (t3010Of (recordsOf consolidated)) ∧
    (t3010Of (recordsOf consolidated)).totalReceiptedDonations = 1000 ∧
      (recordsOf consolidated).coveredAmount (t3010Of (recordsOf consolidated)).period = 2000 ∧
      (recordsOf consolidated).printedAmount (t3010Of (recordsOf consolidated)).period = 2000 ∧
      ¬ Line4500 (recordsOf consolidated) (t3010Of (recordsOf consolidated)) := by
  have hbefore : receipting.Reachable (receipting.final {} twoGifts) :=
    Machine.Reachable.final (M := receipting) (s := {}) rfl _
  have hfigures : (recordsOf consolidated).getT3010PreparatoryData eastern (daysBefore 2025 - 1) =
        .ok (t3010Of (recordsOf consolidated)) ∧
      (t3010Of (recordsOf consolidated)).totalReceiptedDonations = 1000 ∧
      (recordsOf consolidated).coveredAmount (t3010Of (recordsOf consolidated)).period = 2000 ∧
      (recordsOf consolidated).printedAmount (t3010Of (recordsOf consolidated)).period = 2000 := by
    decide +kernel
  obtain ⟨hdata, htotal, hcovered, hprinted⟩ := hfigures
  refine ⟨?_, ?_, hdata, htotal, hcovered, hprinted, fun hline => ?_⟩
  · exact hbefore.step (l := .annual 2024 fun _ => february2025) rfl
  · exact ⟨_, _, { processed := 1 }, hbefore, Prod.ext (by decide +kernel) rfl, rfl⟩
  · have hsame := hline.covered
    rw [htotal, hcovered] at hsame
    exact absurd hsame (by decide)

end Example

end Civicos.Reports
