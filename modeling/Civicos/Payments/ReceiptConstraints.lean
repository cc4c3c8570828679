import Civicos.Library.Text
import Civicos.Payments.ReceiptOnce

/-!
# The constraints of a receipt

A donation states that its advantage is at most its amount, a receipt that the advantage is at
most the eligible amount, which is what the advantage leaves of it. The receiver copies both
amounts, so the receipt of a gift with a large advantage is refused.
-/
namespace Civicos.Payments

open Library Library.Transaction

/-! ## Serial numbers -/

theorem zfill_inj {width n n' : ℕ} (h : zfill width n = zfill width n') : n = n' := by
  have hread (m : ℕ) : Nat.ofDigitChars 10 (zfill width m).toList 0 = m := by
    simp [zfill, Nat.ofDigitChars_append, Nat.ofDigitChars_replicate_zero]
  rw [← hread n, ← hread n', h]

theorem receiptSerialNumber_inj {y y' n n' : ℕ}
    (h : receiptSerialNumber y n = receiptSerialNumber y' n') : n = n' := by
  have htext := congrArg String.toList h
  have hdash : "-".toList = ['-'] := rfl
  simp only [receiptSerialNumber, String.toList_append, List.append_assoc, hdash,
    List.singleton_append] at htext
  obtain ⟨-, hseq⟩ := append_separator_inj (notMem_toString rfl y) (notMem_toString rfl y') htext
  exact zfill_inj (String.toList_inj.mp hseq)

namespace ReceiptStore

/-- Every receipt bears a number that the sequence has given out. -/
def Numbered (s : ReceiptStore) : Prop := ∀ r ∈ s.receipts.rows,
  ∃ year n, r.serialNumber = receiptSerialNumber year n ∧ n ≤ s.serialSeq

/-- New receipts take their numbers from the sequence, the others keep theirs. -/
structure Numbers (s t : ReceiptStore) : Prop where
  advances : s.serialSeq ≤ t.serialSeq
  receipts : ∀ r ∈ t.receipts.rows,
    (∃ r₀ ∈ s.receipts.rows, r.serialNumber = r₀.serialNumber) ∨
      ∃ year n, r.serialNumber = receiptSerialNumber year n ∧ n ≤ t.serialSeq

variable {s t u : ReceiptStore}

namespace Numbers

theorem of_same (hseq : t.serialSeq = s.serialSeq) (hreceipts : t.receipts = s.receipts) :
    Numbers s t := by
  refine ⟨hseq.ge, fun r hr => .inl ⟨r, ?_, rfl⟩⟩
  rwa [hreceipts] at hr

theorem numbered (h : Numbers s t) (hs : s.Numbered) : t.Numbered := by
  intro r hr
  rcases h.receipts r hr with ⟨r₀, hr₀, hsame⟩ | hnew
  · obtain ⟨year, n, hserial, hn⟩ := hs r₀ hr₀
    exact ⟨year, n, hsame.trans hserial, hn.trans h.advances⟩
  · exact hnew

end Numbers

instance : Std.Refl Numbers := ⟨fun _ => .of_same rfl rfl⟩

instance : IsTrans ReceiptStore Numbers where
  trans s t u h g := by
    refine ⟨h.advances.trans g.advances, fun r hr => ?_⟩
    rcases g.receipts r hr with ⟨r₁, hr₁, hsame⟩ | hnew
    · rcases h.receipts r₁ hr₁ with ⟨r₀, hr₀, hsame'⟩ | ⟨year, n, hserial, hn⟩
      · exact .inl ⟨r₀, hr₀, hsame.trans hsame'⟩
      · exact .inr ⟨year, n, hsame.trans hserial, hn.trans g.advances⟩
    · exact .inr hnew

end ReceiptStore

open ReceiptStore

/-! ## The receipt that is built -/

variable {charity : CharitySettings} {g : Gifts} {now : Instant} {s t : ReceiptStore}
  {d : Donation} {name : String}

theorem issue_numbers (charity : CharitySettings) (g : Gifts) (now : Instant) :
    Within Numbers (issue charity g now) := by
  intro s r t h
  rcases issue_cases charity g now s with ⟨e, herror, -⟩ | ⟨donationDate, receiptDate, hcreate⟩
  · rw [herror] at h
    cases h
  · rw [hcreate] at h
    obtain ⟨rfl, T, hT, rfl⟩ := create_ok.mp h
    refine ⟨Nat.le_succ _, fun r hr => ?_⟩
    have hrows : r ∈ T.rows := hr
    rw [Table.mem_insert hT] at hrows
    rcases hrows with hold | rfl
    · exact .inl ⟨r, hold, rfl⟩
    · exact .inr ⟨yearOf receiptDate, s.serialSeq + 1, rfl, le_rfl⟩

theorem onDonationCompleted_numbers (d : Donation) (now : Instant) :
    Within Numbers (onDonationCompleted d now) := by
  refine .ite (fun _ => .pure _) fun _ => .ite (fun _ => .pure _) fun _ => .get_bind fun s => ?_
  intro a t h
  cases hcharity : s.activeCharity with
  | none =>
    simp only [hcharity] at h
    obtain ⟨-, rfl⟩ := pure_ok.mp h
    exact Std.Refl.refl t
  | some charity =>
    simp only [hcharity] at h
    exact Within.ite (fun _ => .pure _)
      (fun _ => (issue_numbers charity _ now).bind fun _ => .pure _) _ _ _ h

/-! ## Runs -/

theorem receiptDonors_numbers {bounds : Instant × Instant} {clock : Uuid → Instant}
    (groups : List (List Donation)) (report : AnnualReport) :
    Numbers s (groups.foldl (receiptDonor charity bounds clock) (report, s)).2 := by
  induction groups generalizing report s with
  | nil => exact Std.Refl.refl s
  | cons group groups ih =>
    rw [List.foldl_cons]
    have hturn : Numbers s (receiptDonor charity bounds clock (report, s) group).2 := by
      unfold receiptDonor
      cases group.filter fun d => 0 < d.eligibleAmount with
      | nil => exact Std.Refl.refl s
      | cons anchor rest =>
        dsimp only
        split
        · exact Std.Refl.refl s
        have hissue := (issue_numbers charity (.annual anchor rest) (clock anchor.donor)).commit s
        split
        next hrun =>
          rw [hrun] at hissue
          exact hissue
        next hrun =>
          rw [hrun] at hissue
          split
          · exact hissue
          · exact hissue
    exact IsTrans.trans _ _ _ hturn (ih _)

theorem generateAnnualReceipts_numbers (taxYear : ℤ) (clock : Uuid → Instant) (s : ReceiptStore) :
    Numbers s (generateAnnualReceipts taxYear clock s).2 := by
  unfold generateAnnualReceipts
  cases s.activeCharity with
  | none => exact Std.Refl.refl s
  | some charity =>
    cases taxYearBounds taxYear with
    | error e => exact Std.Refl.refl s
    | ok bounds => exact receiptDonors_numbers _ _

theorem writeReceipt_numbers {f : OfficialDonationReceipt → OfficialDonationReceipt} (k : Uuid)
    (hf : ∀ r, (f r).serialNumber = r.serialNumber) :
    Within Numbers (write receiptTable PaymentError.ofViolation k f) := by
  intro s u t h
  obtain ⟨T, hT, rfl⟩ := write_ok.mp h
  refine ⟨le_rfl, fun r hr => .inl ?_⟩
  have hserial : r.serialNumber ∈ T.rows.map (·.serialNumber) := List.mem_map_of_mem hr
  rw [Table.map_update hT hf] at hserial
  obtain ⟨r₀, hr₀, hsame⟩ := List.mem_map.mp hserial
  exact ⟨r₀, hr₀, hsame.symm⟩

theorem withdraw_numbers {f : OfficialDonationReceipt → OfficialDonationReceipt} (e : PaymentError)
    (k : Uuid) (hf : ∀ r, (f r).serialNumber = r.serialNumber) : Within Numbers (do
      let row ← lookup receiptTable e k
      if row.status ≠ .issued then throw e
      write receiptTable PaymentError.ofViolation k f) := by
  intro s u t h
  obtain ⟨row, s₁, hlookup, h₁⟩ := bind_ok.mp h
  obtain ⟨-, rfl⟩ := lookup_ok.mp hlookup
  exact writeReceipt_numbers k hf _ _ _ (guard_ok h₁).2

theorem createElsewhere_numbers {α : Type} {S : Schema α} {ℓ : Lens ReceiptStore (Table S)}
    (hℓ : ∀ T s, (ℓ.set T s).receipts = s.receipts ∧ (ℓ.set T s).serialSeq = s.serialSeq)
    (build : ℕ → α) : Within Numbers (create ℓ PaymentError.ofViolation build) := by
  intro s r t h
  obtain ⟨-, T, -, rfl⟩ := create_ok.mp h
  exact .of_same (hℓ T s).2 (hℓ T s).1

theorem writeElsewhere_numbers {α : Type} {S : Schema α} {ℓ : Lens ReceiptStore (Table S)}
    (hℓ : ∀ T s, (ℓ.set T s).receipts = s.receipts ∧ (ℓ.set T s).serialSeq = s.serialSeq)
    (k : ℕ) (f : α → α) : Within Numbers (write ℓ PaymentError.ofViolation k f) := by
  intro s u t h
  obtain ⟨T, -, rfl⟩ := write_ok.mp h
  exact .of_same (hℓ T s).2 (hℓ T s).1

theorem ReceiptStep.step_numbers {x : ReceiptStep} (h : x.step s = some t) : Numbers s t := by
  cases x with
  | signal donation now =>
    obtain ⟨d, -, rfl⟩ := Option.map_eq_some_iff.mp h
    exact (onDonationCompleted_numbers d now).commit s
  | annual taxYear clock =>
    cases h
    exact generateAnnualReceipts_numbers taxYear clock s
  | donate d =>
    cases h
    exact (createElsewhere_numbers (fun _ _ => ⟨rfl, rfl⟩) _).commit s
  | revise donation status =>
    cases h
    exact (writeElsewhere_numbers (fun _ _ => ⟨rfl, rfl⟩) _ _).commit s
  | cancel receipt reason supersededBy =>
    cases h
    exact (withdraw_numbers _ _ (by simp)).commit s
  | supersede receipt newReceipt =>
    cases h
    exact (withdraw_numbers _ _ (by simp)).commit s
  | configure c =>
    cases h
    exact (createElsewhere_numbers (fun _ _ => ⟨rfl, rfl⟩) _).commit s
  | activate charity isActive =>
    cases h
    exact (writeElsewhere_numbers (fun _ _ => ⟨rfl, rfl⟩) _ _).commit s

theorem numbered_of_reachable (h : receipting.Reachable s) : s.Numbered := by
  refine h.invariant (I := Numbered) (fun s₀ h₀ r hr => ?_) fun u x v _ hu hstep => ?_
  · have hempty : s₀.receipts = .empty := h₀
    simp [hempty, Table.empty] at hr
  · have hnumbers : Numbers u v := ReceiptStep.step_numbers (x := x) hstep
    exact hnumbers.numbered hu

/-! ## Refusals -/

namespace OfficialDonationReceipt

/-- The constraints of the table, apart from the widths of its columns -/
structure Constrained (s : ReceiptStore) (r : OfficialDonationReceipt) : Prop where
  checks : ∀ c ∈ schema.checks, (∀ column, c.violation ≠ .width column) → c.holds r = true
  unique : s.issuedFor r.donation = false → ∀ a ∈ s.receipts.rows, ¬ issuedKey.Clash a r

variable {r : OfficialDonationReceipt}

theorem checks_iff :
    (∀ c ∈ schema.checks, (∀ column, c.violation ≠ .width column) → c.holds r = true) ↔
      0 ≤ r.eligibleAmount ∧ 0 ≤ r.advantageAmount ∧ r.advantageAmount ≤ r.eligibleAmount := by
  simp [schema, Check.width, money]

theorem not_clash_of_free (h : s.issuedFor r.donation = false) :
    ∀ a ∈ s.receipts.rows, ¬ issuedKey.Clash a r := by
  rintro a ha ⟨hsome, hkey⟩
  have hissued : a.status = .issued := by
    by_contra hne
    exact hsome (if_neg hne)
  have hsame : ReceiptStatus.issued = r.status ∧ r.donation = a.donation := by
    simpa [issuedKey, hissued, eq_comm] using hkey
  have hany : s.issuedFor r.donation = true :=
    List.any_eq_true.mpr ⟨a, ha, by simp [hsame.2, hissued]⟩
  rw [h] at hany
  cases hany

theorem constrained_iff : r.Constrained s ↔
    0 ≤ r.eligibleAmount ∧ 0 ≤ r.advantageAmount ∧ r.advantageAmount ≤ r.eligibleAmount := by
  constructor
  · intro h
    exact checks_iff.mp h.checks
  · intro h
    exact ⟨checks_iff.mpr h, not_clash_of_free⟩

end OfficialDonationReceipt

/-- The insert of a receipt that meets the constraints does not fail on one. -/
theorem not_integrityError (hs : s.Numbered) (hfree : s.issuedFor g.anchor.pk = false)
    (hg : ∀ donationDate receiptDate seq pk,
      (g.receipt charity donationDate receiptDate seq pk).Constrained s) :
    issue charity g now s ≠ .error (.integrityError name) := by
  intro h
  rcases issue_cases charity g now s with ⟨e, herror, hother⟩ | ⟨donationDate, receiptDate, hcreate⟩
  · rw [herror] at h
    exact hother name (Except.error.inj h)
  rw [hcreate] at h
  obtain ⟨v, hv, he⟩ := create_error.mp h
  have hr := hg donationDate receiptDate (s.serialSeq + 1) s.receipts.next
  rcases Table.violated hv fun a ha => Nat.ne_of_lt (Table.lt_next ha) with
    ⟨c, hc, hfails, rfl⟩ | ⟨-, i, hi, rfl, a, ha, hclash⟩
  · have hholds := hr.checks c hc fun column hwidth => by
      rw [hwidth] at he
      cases he
    exact Bool.false_ne_true (hfails.symm.trans hholds)
  · simp only [OfficialDonationReceipt.schema, List.mem_cons, List.not_mem_nil, or_false] at hi
    rcases hi with rfl | rfl
    · obtain ⟨year, n, hserial, hn⟩ := hs a ha
      have hkey := hclash.2
      simp only [OfficialDonationReceipt.serialNumberKey, Option.some.injEq] at hkey
      have hsame := receiptSerialNumber_inj (hserial.symm.trans hkey)
      omega
    · exact hr.unique hfree a ha hclash

/-- An inserted receipt meets the constraints. -/
theorem amounts_of_issue {r : OfficialDonationReceipt} (h : issue charity g now s = .ok (r, t)) :
    0 ≤ g.eligibleAmount ∧ 0 ≤ g.advantageAmount ∧ g.advantageAmount ≤ g.eligibleAmount := by
  rcases issue_cases charity g now s with ⟨e, herror, -⟩ | ⟨donationDate, receiptDate, hcreate⟩
  · rw [herror] at h
    cases h
  · rw [hcreate] at h
    obtain ⟨rfl, T, hT, -⟩ := create_ok.mp h
    have hvalid := (Table.insert_ok.mp hT).1.1
    exact OfficialDonationReceipt.checks_iff.mp fun c hc _ => hvalid c hc

/-! ## Receipts for eligible donations -/

/-- The receiver can issue the receipt of the donation. -/
structure Receivable (s : ReceiptStore) (d : Donation) : Prop where
  constrained : ∀ charity donationDate receiptDate seq pk,
    ((Gifts.single d).receipt charity donationDate receiptDate seq pk).Constrained s
  succeeds : ∀ now name, onDonationCompleted d now s ≠ .error (.integrityError name)

/-- A receipt is issued without an integrity error exactly for an advantage that is not negative
and at most the eligible amount, and is never issued for another. -/
theorem receipt_constraints (h : receipting.Reachable s) (hpos : 0 < d.eligibleAmount) :
    (Receivable s d ↔ 0 ≤ d.advantageAmount ∧ d.advantageAmount ≤ d.eligibleAmount) ∧
      (¬ (0 ≤ d.advantageAmount ∧ d.advantageAmount ≤ d.eligibleAmount) →
        ∀ now r t, onDonationCompleted d now s ≠ .ok (some r, t)) := by
  have hs := numbered_of_reachable h
  refine ⟨⟨fun hready => ?_, fun hamounts => ?_⟩, fun hlarge now r t hok => hlarge ?_⟩
  · have hconstrained := hready.constrained charityOfTown 0 0 0 0
    exact (OfficialDonationReceipt.constrained_iff.mp hconstrained).2
  · have hconstrained (charity : CharitySettings) (donationDate receiptDate seq : ℕ) (pk : Uuid) :
        ((Gifts.single d).receipt charity donationDate receiptDate seq pk).Constrained s :=
      OfficialDonationReceipt.constrained_iff.mpr ⟨hpos.le, hamounts⟩
    refine ⟨hconstrained, fun now name herror => ?_⟩
    rcases onDonationCompleted_cases d now s with hnone | ⟨charity, -, -, hfree, hissue⟩
    · rw [hnone] at herror
      cases herror
    · rw [hissue] at herror
      rcases bind_error.mp herror with hfails | ⟨receipt, u, -, hpure⟩
      · exact not_integrityError hs hfree (hconstrained charity) hfails
      · cases hpure
  · rcases onDonationCompleted_cases d now s with hnone | ⟨charity, -, -, -, hissue⟩
    · rw [hnone] at hok
      cases hok
    · rw [hissue] at hok
      obtain ⟨receipt, u, hrun, -⟩ := bind_ok.mp hok
      exact (amounts_of_issue hrun).2

/-- A completed gift of a hundred dollars, on a day of 2024, with an advantage -/
def dinner (advantageAmount : Cents) : Donation where
  pk := 1
  paymentIntent := 1
  donor := 7
  amount := 10000
  advantageAmount := advantageAmount
  advantageDescription := "Dinner"
  status := .completed
  donorNameSnapshot := "D"
  donorAddressSnapshot := "2 Main St\nOttawa, ON K1A 0A6"
  createdAt := (daysBefore 2024 + 60) * dayLength

/-- A town where one dinner was given -/
def afterDinner (advantageAmount : Cents) : ReceiptStore :=
  receipting.final {} [.configure charityOfTown, .donate (dinner advantageAmount)]

/-- Forty dollars of advantage leave sixty to be receipted. -/
theorem receipt_constraints_dinner :
    (∀ now name, onDonationCompleted (dinner 4000) now (afterDinner 4000) ≠
      .error (.integrityError name)) ∧
      ∀ now r t, onDonationCompleted (dinner 6000) now (afterDinner 6000) ≠ .ok (some r, t) := by
  have hreachable (a : Cents) : receipting.Reachable (afterDinner a) :=
    Machine.Reachable.final (M := receipting) (s := {}) rfl _
  constructor
  · have hready := (receipt_constraints (hreachable 4000) (d := dinner 4000) (by decide)).1
    exact (hready.mpr (by decide)).succeeds
  · exact (receipt_constraints (hreachable 6000) (d := dinner 6000) (by decide)).2 (by decide)

/-- Sixty dollars of advantage leave forty, and no receipt is issued for them. -/
theorem large_advantage_refused :
    receipting.Reachable (afterDinner 6000) ∧ dinner 6000 ∈ (afterDinner 6000).donations.rows ∧
      (dinner 6000).eligibleAmount = 4000 ∧
      onDonationCompleted (dinner 6000) february2025 (afterDinner 6000) =
        .error (.integrityError "payments_receipt_advantage_lte_eligible") :=
  ⟨Machine.Reachable.final (M := receipting) (s := {}) rfl _, by decide +kernel, by decide,
    by rfl⟩

end Civicos.Payments
