import Civicos.Library.Grouping
import Civicos.Library.Json
import Civicos.Payments.Checkout
import Civicos.Reports.Periods

/-!
# Monthly revenue

The payments of a month, grouped by the code of their fee or else by the purpose of their intent. A
group without a label is reported as "other". Payouts to volunteers are payments as well, and the
report does not leave them out.
-/
namespace Civicos.Reports

open Library
open Payments (Cents Instant Payment Uuid orElse)

/-! ## Rows -/

structure PaymentIntent where
  pk : Uuid
  purpose : String
  taxAmount : Cents := 0
deriving DecidableEq, Repr

def PaymentIntent.schema : Schema PaymentIntent where
  pk := pk
  checks := [
    .width "purpose" 30 purpose,
    ⟨.check "payments_intent_tax_nonneg", fun i => 0 ≤ i.taxAmount⟩]

structure ServiceFeePayment where
  pk : Uuid
  paymentIntent : Uuid
  feeCode : String
deriving DecidableEq, Repr

namespace ServiceFeePayment

def paymentIntentKey : Index ServiceFeePayment where
  name := "payments_servicefeepayment_payment_intent_id_key"
  Key := Uuid
  key f := some f.paymentIntent

def schema : Schema ServiceFeePayment where
  pk := pk
  indexes := [paymentIntentKey]
  checks := [.width "fee_code" 50 feeCode]

end ServiceFeePayment

/-- The tables that the report joins; every payment has an intent. -/
structure Books where
  payments : Table Payment.schema
  intents : Table PaymentIntent.schema
  fees : Table ServiceFeePayment.schema
  linked : ∀ p ∈ payments.rows, (intents.get p.intent).isSome

/-- A payment with its intent, and with its fee where there is one -/
structure RevenueRow where
  payment : Payment
  intent : PaymentIntent
  fee : Option ServiceFeePayment
deriving DecidableEq, Repr

namespace RevenueRow

/-- `Coalesce("intent__service_fee_payment__fee_code", "intent__purpose")` -/
def label (r : RevenueRow) : String := (r.fee.map (·.feeCode)).getD r.intent.purpose

/-- The label that the report shows for a row -/
def shown (label : String) : String := orElse label "other"

/-- What `create_honorarium` records -/
def IsPayout (r : RevenueRow) : Prop := r.intent.purpose = "honorarium"

instance (r : RevenueRow) : Decidable r.IsPayout := inferInstanceAs (Decidable (_ = _))

def PaidIn (year : ℤ) (month : ℕ) (r : RevenueRow) : Prop :=
  (utcYear r.payment.paidAt : ℤ) = year ∧ utcMonth r.payment.paidAt = month

instance (year : ℤ) (month : ℕ) (r : RevenueRow) : Decidable (r.PaidIn year month) :=
  inferInstanceAs (Decidable (_ ∧ _))

end RevenueRow

namespace Books

variable {b : Books} {p : Payment}

def row (b : Books) (p : Payment) : Option RevenueRow :=
  (b.intents.get p.intent).map fun i =>
    { payment := p
      intent := i
      fee := b.fees.rows.find? (·.paymentIntent = i.pk) }

def rows (b : Books) : List RevenueRow := b.payments.rows.filterMap b.row

/-- The join loses no payment. -/
theorem exists_row (hp : p ∈ b.payments.rows) : ∃ r ∈ b.rows, r.payment = p := by
  obtain ⟨i, hi⟩ := Option.isSome_iff_exists.mp (b.linked p hp)
  refine ⟨⟨p, i, b.fees.rows.find? (·.paymentIntent = i.pk)⟩, ?_, rfl⟩
  exact List.mem_filterMap.mpr ⟨p, hp, by simp [row, hi]⟩

end Books

/-! ## The report -/

/-- `gross`, `net`, `tax`, `processor_fees` and `count` -/
@[ext] structure Figures where
  gross : Cents := 0
  net : Cents := 0
  tax : Cents := 0
  processorFees : Cents := 0
  count : ℕ := 0
deriving DecidableEq, Repr

namespace Figures

instance : Add Figures where
  add f g := ⟨f.gross + g.gross, f.net + g.net, f.tax + g.tax, f.processorFees + g.processorFees,
    f.count + g.count⟩

instance : Zero Figures := ⟨{}⟩

theorem add_def (f g : Figures) : f + g = ⟨f.gross + g.gross, f.net + g.net, f.tax + g.tax,
    f.processorFees + g.processorFees, f.count + g.count⟩ := rfl

theorem zero_def : (0 : Figures) = ⟨0, 0, 0, 0, 0⟩ := rfl

instance : AddCommMonoid Figures where
  add_assoc _ _ _ := Figures.ext (add_assoc _ _ _) (add_assoc _ _ _) (add_assoc _ _ _)
    (add_assoc _ _ _) (add_assoc _ _ _)
  zero_add f := by simp [add_def, zero_def]
  add_zero f := by simp [add_def, zero_def]
  add_comm _ _ := Figures.ext (add_comm _ _) (add_comm _ _) (add_comm _ _) (add_comm _ _)
    (add_comm _ _)
  nsmul := nsmulRec

/-- The annotations of a group -/
def annotate (rows : List RevenueRow) : Figures where
  gross := (rows.map (·.payment.amountPaid)).sum
  net := (rows.map (·.payment.netAmount)).sum
  tax := (rows.map (·.intent.taxAmount)).sum
  processorFees := (rows.map (·.payment.processorFee)).sum
  count := rows.length

/-- What one row contributes -/
def one (r : RevenueRow) : Figures :=
  ⟨r.payment.amountPaid, r.payment.netAmount, r.intent.taxAmount, r.payment.processorFee, 1⟩

theorem annotate_eq_sum (rows : List RevenueRow) : annotate rows = (rows.map one).sum := by
  induction rows with
  | nil => rfl
  | cons r rows ih =>
    rw [List.map_cons, List.sum_cons, ← ih]
    simp [annotate, one, add_def, Nat.add_comm]

end Figures

/-- The totals and the rows of the report -/
structure MonthlyRevenue where
  totals : Figures := {}
  byFeeCode : List (String × Figures) := []
deriving DecidableEq, Repr

def MonthlyRevenue.add (r : MonthlyRevenue) (row : String × Figures) : MonthlyRevenue where
  totals := r.totals + row.2
  byFeeCode := assign r.byFeeCode (RevenueRow.shown row.1) row.2

namespace Books

/-- The query of the report -/
def byLabel (rows : List RevenueRow) : List (String × Figures) :=
  (groupBy RevenueRow.label (fun a b => textLe a.toList b.toList = true) rows).map fun g =>
    (g.1, Figures.annotate g.2)

def getMonthlyRevenue (b : Books) (year : ℤ) (month : ℕ) : Except String MonthlyRevenue := do
  let range ← monthUtcRange year month
  let rows := b.rows.filter fun r => Within range r.payment.paidAt
  return (byLabel rows).foldl MonthlyRevenue.add {}

end Books

/-! ## Conservation -/

section Conservation

variable {b : Books} {year : ℤ} {month : ℕ} {r : MonthlyRevenue} {rows : List RevenueRow}
  {row : RevenueRow}

namespace Books

/-- The payments of a month -/
def paidIn (b : Books) (year : ℤ) (month : ℕ) : List RevenueRow :=
  b.rows.filter fun r => r.PaidIn year month

/-- Money that was received -/
def received (rows : List RevenueRow) : List RevenueRow := rows.filter fun r => ¬ r.IsPayout

end Books

open Books RevenueRow

/-- The report adds up: it counts the money that was received, each payment under its label. -/
structure Conserved (rows : List RevenueRow) (r : MonthlyRevenue) : Prop where
  totals : r.totals = Figures.annotate (received rows)
  sums : (r.byFeeCode.map (·.2)).sum = r.totals
  labels : (r.byFeeCode.map (·.1)).Nodup
  listed : ∀ row ∈ received rows, shown row.label ∈ r.byFeeCode.map (·.1)
  entries : ∀ e ∈ r.byFeeCode,
    e.2 = Figures.annotate ((received rows).filter fun row => shown row.label = e.1)

/-- No payout, and one reason at most to show "other" -/
def Plain (rows : List RevenueRow) : Prop :=
  (∀ row ∈ rows, ¬ row.IsPayout) ∧
    ¬ ((∃ row ∈ rows, row.label = "") ∧ ∃ row ∈ rows, row.label = "other")

instance : Decidable (Plain rows) := inferInstanceAs (Decidable (_ ∧ ¬ (_ ∧ _)))

/-- The loop over the groups -/
theorem foldl_add (groups : List (String × Figures)) (r : MonthlyRevenue) :
    groups.foldl MonthlyRevenue.add r =
      { totals := r.totals + (groups.map (·.2)).sum
        byFeeCode := assignAll (fun g => shown g.1) (·.2) groups r.byFeeCode } := by
  induction groups generalizing r with
  | nil => simp [assignAll]
  | cons g groups ih =>
    rw [List.foldl_cons, ih]
    simp [MonthlyRevenue.add, assignAll, add_assoc]

theorem sum_byLabel (rows : List RevenueRow) :
    ((byLabel rows).map (·.2)).sum = Figures.annotate rows := by
  have hsum := sum_groupBy RevenueRow.label (fun a b => textLe a.toList b.toList = true) rows
    Figures.one
  rw [Figures.annotate_eq_sum, ← hsum]
  simp [byLabel, Function.comp_def, Figures.annotate_eq_sum]

theorem byLabel_keys (rows : List RevenueRow) : ((byLabel rows).map (·.1)).Nodup := by
  have hnodup := groupBy_nodup RevenueRow.label (fun a b => textLe a.toList b.toList = true) rows
  simpa [byLabel, Function.comp_def] using hnodup

theorem mem_byLabel {g : String × Figures} : g ∈ byLabel rows ↔
    (∃ row ∈ rows, row.label = g.1) ∧
      g.2 = Figures.annotate (rows.filter fun row => row.label = g.1) := by
  unfold byLabel
  simp only [List.mem_map, mem_groupBy]
  constructor
  · rintro ⟨g', ⟨hkey, hrows⟩, rfl⟩
    exact ⟨hkey, congrArg Figures.annotate hrows⟩
  · rintro ⟨hkey, hfigures⟩
    exact ⟨(g.1, _), ⟨hkey, rfl⟩, Prod.ext rfl hfigures.symm⟩

theorem getMonthlyRevenue_ok (h : b.getMonthlyRevenue year month = .ok r) : r =
    { totals := Figures.annotate (b.paidIn year month)
      byFeeCode := assignAll (fun g => shown g.1) (·.2) (byLabel (b.paidIn year month)) [] } := by
  obtain ⟨range, hrange, h₁⟩ := except_bind_ok.mp h
  have hrows : (b.rows.filter fun r => Within range r.payment.paidAt) = b.paidIn year month :=
    List.filter_congr fun r _ => decide_eq_decide.mpr (within_month hrange)
  obtain rfl := Except.ok.inj h₁
  rw [hrows, foldl_add, sum_byLabel]
  simp [← Figures.zero_def]

theorem received_eq (h : ∀ row ∈ rows, ¬ row.IsPayout) : received rows = rows :=
  List.filter_eq_self.mpr fun row hrow => decide_eq_true (h row hrow)

/-- Selections of the same length, one within the other, are the same. -/
theorem imp_of_count {p q : RevenueRow → Prop} [DecidablePred p] [DecidablePred q]
    (himp : ∀ row, p row → q row)
    (hcount : Figures.annotate (rows.filter fun row => q row) =
      Figures.annotate (rows.filter fun row => p row)) : ∀ row ∈ rows, q row → p row := by
  have hlength : (rows.filter fun row => q row).length = (rows.filter fun row => p row).length :=
    congrArg Figures.count hcount
  have hwithin : rows.filter (fun row => p row) =
      (rows.filter fun row => q row).filter fun row => p row := by
    rw [List.filter_filter]
    refine List.filter_congr fun row _ => ?_
    by_cases h : p row
    · simp [h, himp row h]
    · simp [h]
  rw [hwithin] at hlength
  have hall := List.length_filter_eq_length_iff.mp hlength.symm
  intro row hrow hq
  exact of_decide_eq_true (hall row (List.mem_filter.mpr ⟨hrow, decide_eq_true hq⟩))

theorem shown_injective (hplain : Plain rows) : ∀ row ∈ rows, ∀ row' ∈ rows,
    shown row.label = shown row'.label → row.label = row'.label := by
  intro row hrow row' hrow' heq
  unfold shown orElse at heq
  have hne := hplain.2
  grind

theorem conserved_of_plain (hplain : Plain rows) : Conserved rows
    { totals := Figures.annotate rows
      byFeeCode := assignAll (fun g => shown g.1) (·.2) (byLabel rows) [] } := by
  have hreceived : received rows = rows := received_eq hplain.1
  have hkeys : ((byLabel rows).map fun g => shown g.1).Nodup := by
    have hnodup := byLabel_keys rows
    rw [List.nodup_map_iff_inj_on (List.Nodup.of_map _ hnodup)]
    intro g hg g' hg' heq
    obtain ⟨⟨row, hrow, hlabel⟩, -⟩ := mem_byLabel.mp hg
    obtain ⟨⟨row', hrow', hlabel'⟩, -⟩ := mem_byLabel.mp hg'
    rw [← hlabel, ← hlabel'] at heq
    have hsame := shown_injective hplain row hrow row' hrow' heq
    exact List.inj_on_of_nodup_map hnodup hg hg' (by rw [← hlabel, ← hlabel', hsame])
  have hdict : assignAll (fun g => shown g.1) (·.2) (byLabel rows) [] =
      [] ++ (byLabel rows).map fun g => (shown g.1, g.2) :=
    assignAll_of_nodup _ _ (by simpa using hkeys)
  rw [List.nil_append] at hdict
  rw [hdict]
  constructor
  case totals => rw [hreceived]
  case sums => simpa [Function.comp_def] using sum_byLabel rows
  case labels => simpa [Function.comp_def] using hkeys
  case listed =>
    intro row hrow
    rw [hreceived] at hrow
    have hgroup : (row.label, Figures.annotate (rows.filter fun row' => row'.label = row.label)) ∈
        byLabel rows := mem_byLabel.mpr ⟨⟨row, hrow, rfl⟩, rfl⟩
    exact List.mem_map.mpr ⟨_, List.mem_map_of_mem hgroup, rfl⟩
  case entries =>
    intro e he
    obtain ⟨g, hg, rfl⟩ := List.mem_map.mp he
    obtain ⟨⟨row, hrow, hlabel⟩, hfigures⟩ := mem_byLabel.mp hg
    rw [hreceived, hfigures]
    refine congrArg Figures.annotate (List.filter_congr fun row' hrow' => ?_)
    rw [← hlabel]
    exact decide_eq_decide.mpr ⟨congrArg shown, shown_injective hplain row' hrow' row hrow⟩

theorem plain_of_conserved (h : Conserved rows
    { totals := Figures.annotate rows
      byFeeCode := assignAll (fun g => shown g.1) (·.2) (byLabel rows) [] }) : Plain rows := by
  have hreceipts : ∀ row ∈ rows, ¬ row.IsPayout := by
    have hlength : rows.length = (received rows).length := congrArg Figures.count h.totals
    intro row hrow
    exact of_decide_eq_true (List.length_filter_eq_length_iff.mp hlength.symm row hrow)
  have hreceived : received rows = rows := received_eq hreceipts
  refine ⟨hreceipts, ?_⟩
  rintro ⟨⟨row, hrow, hblank⟩, row', hrow', hother⟩
  have hlisted := h.listed row (by rwa [hreceived])
  obtain ⟨e, he, hshown⟩ := List.mem_map.mp hlisted
  have hentry := h.entries e he
  obtain ⟨g, hg, rfl⟩ := (mem_assignAll _ _ he).resolve_left List.not_mem_nil
  dsimp only at hentry hshown
  rw [hreceived, (mem_byLabel.mp hg).2] at hentry
  -- The entry holds one group, so all rows that are shown under its label carry the same label.
  have hsame := imp_of_count (p := fun row => row.label = g.1)
    (q := fun row => shown row.label = shown g.1) (fun _ => congrArg shown) hentry.symm
  have hfirst := hsame row hrow hshown.symm
  have hsecond := hsame row' hrow' (by rw [hshown, hblank, hother]; rfl)
  rw [← hfirst, hblank, hother] at hsecond
  exact absurd hsecond (by decide)

/-- Each payment of the year, and no other, is in the report of exactly one month. -/
def Books.Partitioned (b : Books) (year : ℤ) : Prop := ∀ p ∈ b.payments.rows,
  (utcYear p.paidAt : ℤ) = year ↔ ∃! m, m ∈ months ∧ ∃ row ∈ b.paidIn year m, row.payment = p

theorem Books.partitioned (b : Books) (year : ℤ) : b.Partitioned year := by
  intro p hp
  constructor
  · intro hyear
    obtain ⟨row, hrow, rfl⟩ := exists_row hp
    refine ⟨utcMonth row.payment.paidAt, ⟨utcMonth_mem _, row, ?_, rfl⟩, ?_⟩
    · exact List.mem_filter.mpr ⟨hrow, decide_eq_true ⟨hyear, rfl⟩⟩
    · rintro m ⟨-, row', hrow', hsame⟩
      rw [← hsame]
      exact (of_decide_eq_true (List.mem_filter.mp hrow').2).2.symm
  · rintro ⟨m, ⟨-, row, hrow, rfl⟩, -⟩
    exact (of_decide_eq_true (List.mem_filter.mp hrow).2).1

/-- The reports of a year conserve the revenue exactly when none of its months has a payout, and
none has both a label "other" and one that is missing. -/
theorem revenue_conserved_iff {reports : ℕ → MonthlyRevenue}
    (h : ∀ m ∈ months, b.getMonthlyRevenue year m = .ok (reports m)) :
    ((∀ m ∈ months, Conserved (b.paidIn year m) (reports m)) ∧ b.Partitioned year) ↔
      ∀ m ∈ months, Plain (b.paidIn year m) := by
  constructor
  · intro ⟨hconserved, _⟩ m hm
    apply plain_of_conserved
    rw [← getMonthlyRevenue_ok (h m hm)]
    exact hconserved m hm
  · intro hplain
    refine ⟨fun m hm => ?_, b.partitioned year⟩
    rw [getMonthlyRevenue_ok (h m hm)]
    exact conserved_of_plain (hplain m hm)

end Conservation

section Example

private def payment (pk intent : Uuid) (amountPaid processorFee : Cents) : Payment where
  pk
  intent
  gatewayChargeId := "ch-" ++ toString pk
  amountPaid
  processorFee
  paidAt := monthStart 2024 3 * dayLength + pk

/-- A permit and a gift of March 2024 -/
private def feeAndGift : Books where
  payments := ⟨[payment 1 1 5650 170, payment 2 2 10000 300], by decide, by decide⟩
  intents := ⟨[⟨1, "service_fee", 650⟩, ⟨2, "donation", 0⟩], by decide, by decide⟩
  fees := ⟨[⟨1, 1, "BUILDING-PERMIT"⟩], by decide, by decide⟩
  linked := by decide

private def reportsOf (b : Books) (m : ℕ) : MonthlyRevenue :=
  (b.getMonthlyRevenue 2024 m).toOption.getD {}

theorem fee_and_gift_conserved :
    Conserved (feeAndGift.paidIn 2024 3) (reportsOf feeAndGift 3) ∧
      feeAndGift.Partitioned 2024 := by
  have hreports : ∀ m ∈ months, feeAndGift.getMonthlyRevenue 2024 m =
      .ok (reportsOf feeAndGift m) := by decide +kernel
  have hplain : ∀ m ∈ months, Plain (feeAndGift.paidIn 2024 m) := by decide +kernel
  obtain ⟨hconserved, hpartitioned⟩ := (revenue_conserved_iff hreports).mpr hplain
  exact ⟨hconserved 3 (by decide), hpartitioned⟩

/-- A payout to a volunteer of March 2024 -/
private def payout : Books where
  payments := ⟨[payment 1 1 20000 0], by decide, by decide⟩
  intents := ⟨[⟨1, "honorarium", 0⟩], by decide, by decide⟩
  fees := ⟨[], by decide, by decide⟩
  linked := by decide

/-- The payout is reported as revenue. -/
theorem payout_counted : payout.getMonthlyRevenue 2024 3 = .ok (reportsOf payout 3) ∧
    (reportsOf payout 3).totals.gross = 20000 ∧
      ¬ Conserved (payout.paidIn 2024 3) (reportsOf payout 3) := by
  have hreport : payout.getMonthlyRevenue 2024 3 = .ok (reportsOf payout 3) := by decide +kernel
  refine ⟨hreport, by decide +kernel, fun hconserved => ?_⟩
  rw [getMonthlyRevenue_ok hreport] at hconserved
  have hplain := plain_of_conserved hconserved
  revert hplain
  decide +kernel

end Example

end Civicos.Reports
