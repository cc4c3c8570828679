import Civicos.Payments.Receipt

/-!
# One receipt for each donation

The receiver looks for a receipt anchored on its donation, the annual run for one anchored on any
donation of the donor in the year; neither looks at what a receipt covers. Where the two tests
agree with the coverage, no donation is counted twice and a clean annual run leaves none out.
-/
namespace Civicos.Payments

open Library Library.Transaction

namespace ReceiptStore

/-- Every donation is counted in at most one issued receipt. -/
def Single (s : ReceiptStore) : Prop := ∀ donation, (s.receiptsOver donation).length ≤ 1

/-- A receipt over `covers` was issued. -/
def Issues (s : ReceiptStore) (anchor : Uuid) (covers : List Uuid) (t : ReceiptStore) : Prop :=
  t.donations = s.donations ∧ ∃ r, t.receipts.rows = s.receipts.rows ++ [r] ∧
    r.status = .issued ∧ r.donation = anchor ∧ r.covers = covers

variable {s t : ReceiptStore} {anchor donor d : Uuid} {covers : List Uuid}
  {bounds : Instant × Instant}

namespace Issues

theorem receiptsOver (h : s.Issues anchor covers t) (d : Uuid) :
    ∃ r, t.receiptsOver d = s.receiptsOver d ++ if d ∈ covers then [r] else [] := by
  obtain ⟨-, r, hrows, hissued, -, rfl⟩ := h
  refine ⟨r, ?_⟩
  unfold ReceiptStore.receiptsOver
  by_cases hd : d ∈ r.covers <;> simp [hrows, hissued, hd]

theorem receiptsOver_of_notMem (h : s.Issues anchor covers t) (hd : d ∉ covers) :
    t.receiptsOver d = s.receiptsOver d := by
  obtain ⟨r, hr⟩ := h.receiptsOver d
  rw [hr, if_neg hd, List.append_nil]

theorem covered (h : s.Issues anchor covers t) (hd : d ∈ covers) : t.receiptsOver d ≠ [] := by
  obtain ⟨r, hr⟩ := h.receiptsOver d
  simp [hr, hd]

theorem grows (h : s.Issues anchor covers t) (hd : s.receiptsOver d ≠ []) :
    t.receiptsOver d ≠ [] := by
  obtain ⟨r, hr⟩ := h.receiptsOver d
  simp [hr, hd]

theorem single (h : s.Issues anchor covers t) (hs : s.Single)
    (hfree : ∀ d ∈ covers, s.receiptsOver d = []) : t.Single := by
  intro d
  obtain ⟨r, hr⟩ := h.receiptsOver d
  by_cases hd : d ∈ covers
  · simp [hr, hd, hfree d hd]
  · simpa [hr, hd] using hs d

/-- The receipts of other donors are where they were. -/
theorem issuedWithin (h : s.Issues anchor covers t)
    (hanchor : ∀ a, s.donations.get anchor = some a → a.donor ≠ donor) :
    t.issuedWithin donor bounds = s.issuedWithin donor bounds := by
  obtain ⟨hdonations, r, hrows, -, rfl, -⟩ := h
  have hr :
      ((s.donations.get r.donation).any fun d => d.donor = donor ∧ d.Within bounds) = false := by
    cases hget : s.donations.get r.donation with
    | none => rfl
    | some a => simp [hanchor a hget]
  unfold ReceiptStore.issuedWithin
  rw [hdonations, hrows, List.any_append, List.any_cons, hr]
  simp

end Issues

end ReceiptStore

open ReceiptStore

/-! ## Issuing -/

variable {charity : CharitySettings} {g : Gifts} {now : Instant} {s t : ReceiptStore}
  {r : OfficialDonationReceipt}

/-- `f"{year}-{str(seq).zfill(6)}"` -/
def receiptSerialNumber (year seq : ℕ) : String := toString year ++ "-" ++ zfill 6 seq

/-- What `issue` inserts on these dates -/
def Gifts.receipt (g : Gifts) (charity : CharitySettings) (donationDate receiptDate seq : ℕ)
    (pk : Uuid) : OfficialDonationReceipt where
  pk := pk
  donation := g.anchor.pk
  serialNumber := receiptSerialNumber (yearOf receiptDate) seq
  donorLegalName := g.anchor.donorNameSnapshot
  donorAddressLine1 := (parseDonorAddress g.anchor.donorAddressSnapshot).line1
  donorCity := (parseDonorAddress g.anchor.donorAddressSnapshot).city
  donorProvince := (parseDonorAddress g.anchor.donorAddressSnapshot).province
  donorPostalCode := (parseDonorAddress g.anchor.donorAddressSnapshot).postalCode
  donationDate := donationDate
  receiptDate := receiptDate
  eligibleAmount := g.eligibleAmount
  advantageAmount := g.advantageAmount
  advantageDescription := g.advantageDescription
  charityLegalName := charity.charityLegalName
  charityRegistrationNumber := charity.charityRegistrationNumber
  charityAddress := charity.charityAddress
  placeOfIssue := charity.placeOfIssue
  authorizedSignatoryName := charity.authorizedSignatoryName
  authorizedSignatoryTitle := charity.authorizedSignatoryTitle
  isAnnualConsolidated := g.isAnnualConsolidated
  covers := g.covers

/-- The dates are refused, or the receipt is inserted under the next number. -/
theorem issue_cases (charity : CharitySettings) (g : Gifts) (now : Instant) (s : ReceiptStore) :
    (∃ e, issue charity g now s = .error e ∧ ∀ name, e ≠ .integrityError name) ∨
      ∃ donationDate receiptDate, issue charity g now s =
        create receiptTable .ofViolation
          (g.receipt charity donationDate receiptDate (s.serialSeq + 1))
          { s with serialSeq := s.serialSeq + 1 } := by
  have hdate {t : Instant} {e : PaymentError} (h : localDate t = .error e) (name : String) :
      e ≠ .integrityError name := by
    unfold localDate at h
    split at h
    · cases h
    · cases h
      simp
  unfold issue
  cases hgift : localDate g.anchor.createdAt with
  | error e => exact .inl ⟨e, bind_of_error (lift_error.mpr rfl), hdate hgift⟩
  | ok donationDate =>
    rw [bind_of_ok (lift_ok.mpr ⟨rfl, rfl⟩)]
    cases htoday : localDate now with
    | error e => exact .inl ⟨e, bind_of_error (lift_error.mpr rfl), hdate htoday⟩
    | ok receiptDate =>
      rw [bind_of_ok (lift_ok.mpr ⟨rfl, rfl⟩), bind_of_ok modify_apply, bind_of_ok get_apply]
      by_cases horder : receiptDate < donationDate
      · rw [if_pos horder]
        exact .inl ⟨_, bind_of_error throw_apply, by simp⟩
      · rw [if_neg horder]
        exact .inr ⟨donationDate, receiptDate, rfl⟩

theorem issue_inserts (h : issue charity g now s = .ok (r, t)) :
    t.donations = s.donations ∧ t.receipts.rows = s.receipts.rows ++ [r] ∧ r.status = .issued ∧
      r.donation = g.anchor.pk ∧ r.covers = g.covers ∧ r.eligibleAmount = g.eligibleAmount := by
  rcases issue_cases charity g now s with ⟨e, herror, -⟩ | ⟨donationDate, receiptDate, hcreate⟩
  · cases herror.symm.trans h
  · obtain ⟨rfl, T, hT, rfl⟩ := create_ok.mp (hcreate.symm.trans h)
    exact ⟨rfl, (Table.insert_ok.mp hT).2, rfl, rfl, rfl, rfl⟩

theorem issue_ok (h : issue charity g now s = .ok (r, t)) : s.Issues g.anchor.pk g.covers t := by
  obtain ⟨hdonations, hrows, hissued, hanchor, hcovers, -⟩ := issue_inserts h
  exact ⟨hdonations, r, hrows, hissued, hanchor, hcovers⟩

theorem not_check : ∀ c ∈ OfficialDonationReceipt.schema.checks,
    PaymentError.ofViolation c.violation ≠
    .integrityError "payments_receipt_unique_issued_per_donation" := by
  decide

/-- The only unique column that a new receipt may share is the anchor of an issued receipt. -/
theorem issuedFor_of_issue (h : issue charity g now s =
    .error (.integrityError "payments_receipt_unique_issued_per_donation")) :
    s.issuedFor g.anchor.pk = true := by
  rcases issue_cases charity g now s with ⟨e, herror, hother⟩ | ⟨donationDate, receiptDate, hcreate⟩
  · exact absurd (Except.error.inj (herror.symm.trans h)) (hother _)
  · obtain ⟨v, hv, he⟩ := create_error.mp (hcreate.symm.trans h)
    rcases Table.violated hv fun a ha => Nat.ne_of_lt (Table.lt_next ha) with
      ⟨c, hc, -, rfl⟩ | ⟨-, i, hi, rfl, a, ha, hclash⟩
    · exact absurd he.symm (not_check c hc)
    · simp only [OfficialDonationReceipt.schema, List.mem_cons, List.not_mem_nil, or_false] at hi
      rcases hi with rfl | rfl
      · simp [PaymentError.ofViolation, OfficialDonationReceipt.serialNumberKey] at he
      · have hkey := hclash.2
        have hissued : a.status = .issued := by
          by_contra hne
          exact hclash.1 (if_neg hne)
        have hanchor : a.donation = g.anchor.pk := by
          simpa [OfficialDonationReceipt.issuedKey, hissued, Gifts.receipt] using hkey
        exact List.any_eq_true.mpr ⟨a, ha, by simp [hanchor, hissued]⟩

/-! ## The loop over the donors -/

variable {bounds : Instant × Instant} {group : List Donation} {groups : List (List Donation)}

/-- Everything that one turn of the loop can do. -/
theorem receiptDonor_cases (charity : CharitySettings) (bounds : Instant × Instant)
    (clock : Uuid → Instant) (report : AnnualReport) (s : ReceiptStore) (group : List Donation) :
    let p := receiptDonor charity bounds clock (report, s) group
    (p.2 = s ∧ report.errors ≤ p.1.errors ∧ (p.1.errors = report.errors →
      ∀ d ∈ group, 0 < d.eligibleAmount → ∃ anchor ∈ group, 0 < anchor.eligibleAmount ∧
        (s.issuedWithin anchor.donor bounds = true ∨ s.issuedFor anchor.pk = true))) ∨
    (p.1.errors = report.errors ∧ ∃ anchor ∈ group, s.issuedWithin anchor.donor bounds = false ∧
      s.Issues anchor.pk ((group.filter fun d => 0 < d.eligibleAmount).map Donation.pk) p.2) := by
  unfold receiptDonor
  cases hgroup : group.filter fun d => 0 < d.eligibleAmount with
  | nil =>
    refine .inl ⟨rfl, le_rfl, fun _ d hd hpos => absurd hpos ?_⟩
    simpa using List.filter_eq_nil_iff.mp hgroup d hd
  | cons anchor rest =>
    have hanchor : anchor ∈ group ∧ 0 < anchor.eligibleAmount := by
      have hmem : anchor ∈ group.filter fun d => 0 < d.eligibleAmount := hgroup ▸ .head _
      simpa using hmem
    dsimp only
    by_cases hissued : s.issuedWithin anchor.donor bounds = true
    · rw [if_pos hissued]
      exact .inl ⟨rfl, le_rfl, fun _ _ _ _ => ⟨anchor, hanchor.1, hanchor.2, .inl hissued⟩⟩
    rw [if_neg hissued]
    cases hissue : issue charity (.annual anchor rest) (clock anchor.donor) s with
    | ok q =>
      rw [commit_of_ok (a := q.1) (t := q.2) hissue]
      refine .inr ⟨rfl, anchor, hanchor.1, by simpa using hissued, ?_⟩
      exact issue_ok (r := q.1) hissue
    | error e =>
      rw [commit_of_error hissue]
      dsimp only
      by_cases he : e = .integrityError "payments_receipt_unique_issued_per_donation"
      · subst he
        rw [if_pos rfl]
        exact .inl ⟨rfl, le_rfl, fun _ _ _ _ =>
          ⟨anchor, hanchor.1, hanchor.2, .inr (issuedFor_of_issue hissue)⟩⟩
      · rw [if_neg he]
        exact .inl ⟨rfl, Nat.le_succ _, fun hsame => absurd hsame (Nat.succ_ne_self _)⟩

/-- Lists of stored donations, each list of one donor and no donor in two of them. -/
structure DonorGroups (s : ReceiptStore) (bounds : Instant × Instant)
    (groups : List (List Donation)) : Prop where
  known : ∀ group ∈ groups, ∀ d ∈ group, s.donations.get d.pk = some d ∧ d.Within bounds
  same : ∀ group ∈ groups, ∀ d ∈ group, ∀ d' ∈ group, d.donor = d'.donor
  apart : groups.Pairwise fun group group' => ∀ d ∈ group, ∀ d' ∈ group', d.donor ≠ d'.donor

theorem DonorGroups.tail (h : DonorGroups s bounds (group :: groups))
    (hdonations : t.donations = s.donations) : DonorGroups t bounds groups where
  known g hg := by
    rw [hdonations]
    exact h.known g (.tail _ hg)
  same g hg := h.same g (.tail _ hg)
  apart := h.apart.of_cons

/-- A receipt for one group says nothing about the others. -/
theorem DonorGroups.frame (h : DonorGroups s bounds (group :: groups)) {anchor : Donation}
    (hanchor : anchor ∈ group)
    (hissues : s.Issues anchor.pk ((group.filter fun d => 0 < d.eligibleAmount).map Donation.pk) t)
    {group' : List Donation} (hgroup' : group' ∈ groups) {d : Donation} (hd : d ∈ group') :
    t.issuedWithin d.donor bounds = s.issuedWithin d.donor bounds ∧
      t.receiptsOver d.pk = s.receiptsOver d.pk := by
  have hne := (List.pairwise_cons.mp h.apart).1 group' hgroup'
  constructor
  · apply hissues.issuedWithin
    intro a ha
    obtain rfl := Option.some.inj (ha.symm.trans (h.known group (.head _) anchor hanchor).1)
    exact hne a hanchor d hd
  · apply hissues.receiptsOver_of_notMem
    intro hmem
    obtain ⟨e, he, hpk⟩ := List.mem_map.mp hmem
    have hegroup := List.mem_of_mem_filter he
    have hget := (h.known group (.head _) e hegroup).1
    rw [hpk, (h.known group' (.tail _ hgroup') d hd).1] at hget
    exact hne e hegroup d hd (congrArg Donation.donor (Option.some.inj hget)).symm

/-- The annual loop over groups whose receipts would not overlap with what was issued: no donation
is counted twice, and without an error every donor who is not skipped is served. -/
theorem receiptDonors (charity : CharitySettings) (clock : Uuid → Instant) (report : AnnualReport)
    (hgroups : DonorGroups s bounds groups) (hs : s.Single)
    (hfree : ∀ group ∈ groups, ∀ d ∈ group, 0 < d.eligibleAmount →
      s.issuedWithin d.donor bounds = false → s.receiptsOver d.pk = []) :
    let p := groups.foldl (receiptDonor charity bounds clock) (report, s)
    p.2.Single ∧ p.2.donations = s.donations ∧ report.errors ≤ p.1.errors ∧
      (∀ d, s.receiptsOver d ≠ [] → p.2.receiptsOver d ≠ []) ∧
      (p.1.errors = report.errors → ∀ group ∈ groups, ∀ d ∈ group, 0 < d.eligibleAmount →
        s.issuedWithin d.donor bounds = false → p.2.receiptsOver d.pk ≠ []) := by
  induction groups generalizing report s with
  | nil => exact ⟨hs, rfl, le_rfl, fun _ h => h, fun _ _ h => absurd h List.not_mem_nil⟩
  | cons group groups ih =>
    rw [List.foldl_cons]
    have hturn := receiptDonor_cases charity bounds clock report s group
    generalize receiptDonor charity bounds clock (report, s) group = q at hturn ⊢
    obtain ⟨report₁, s₁⟩ := q
    rcases hturn with ⟨rfl, hle, hskipped⟩ | ⟨herrors, anchor, hanchor, hnew, hissues⟩
    · obtain ⟨hsingle, hdonations, hmono, hgrows, hserved⟩ := ih report₁
        (hgroups.tail rfl) hs fun g hg => hfree g (.tail _ hg)
      refine ⟨hsingle, hdonations, hle.trans hmono, hgrows, fun hsame g hg d hd hpos hnot => ?_⟩
      have hhead : report₁.errors = report.errors := Nat.le_antisymm (hsame ▸ hmono) hle
      rcases List.mem_cons.mp hg with rfl | hg
      · obtain ⟨a, ha, -, hissued⟩ := hskipped hhead d hd hpos
        have hwithin : s₁.issuedWithin a.donor bounds = true := by
          rcases hissued with hissued | hissued
          · exact hissued
          · obtain ⟨r, hr, hrow⟩ := List.any_eq_true.mp hissued
            obtain ⟨hget, hbounds⟩ := hgroups.known g (.head _) a ha
            simp only [Bool.decide_and, Bool.and_eq_true, decide_eq_true_eq] at hrow
            exact List.any_eq_true.mpr ⟨r, hr, by simp [hrow, hget, hbounds]⟩
        rw [hgroups.same g (.head _) a ha d hd, hnot] at hwithin
        cases hwithin
      · exact hserved (hsame.trans hhead.symm) g hg d hd hpos hnot
    · have hcovers : ∀ d ∈ (group.filter fun d => 0 < d.eligibleAmount).map Donation.pk,
          s.receiptsOver d = [] := by
        intro pk hpk
        obtain ⟨d, hd, rfl⟩ := List.mem_map.mp hpk
        obtain ⟨hd, hpos⟩ := List.mem_filter.mp hd
        apply hfree group (.head _) d hd (of_decide_eq_true hpos)
        rw [hgroups.same group (.head _) d hd anchor hanchor, hnew]
      obtain ⟨hsingle, hdonations, hmono, hgrows, hserved⟩ := ih report₁
        (hgroups.tail hissues.1) (hissues.single hs hcovers) fun g hg d hd hpos hnot => by
          obtain ⟨hwithin, hover⟩ := hgroups.frame hanchor hissues hg hd
          rw [hover]
          exact hfree g (.tail _ hg) d hd hpos (hwithin ▸ hnot)
      refine ⟨hsingle, hdonations.trans hissues.1, herrors ▸ hmono,
        fun d hd => hgrows d (hissues.grows hd), fun hsame g hg d hd hpos hnot => ?_⟩
      rcases List.mem_cons.mp hg with rfl | hg
      · apply hgrows
        apply hissues.covered
        exact List.mem_map_of_mem (List.mem_filter.mpr ⟨hd, decide_eq_true hpos⟩)
      · apply hserved (hsame.trans herrors.symm) g hg d hd hpos
        rw [(hgroups.frame hanchor hissues hg hd).1, hnot]

theorem exists_donorGroup {d : Donation} : (∃ group ∈ s.donorGroups bounds, d ∈ group) ↔
    d ∈ s.donations.rows ∧ d.status = .completed ∧ d.Within bounds := by
  simp only [donorGroups, List.mem_map, List.mem_dedup, exists_exists_and_eq_and, List.mem_filter,
    List.mem_insertionSort, decide_eq_true_eq]
  grind

theorem donorGroups_wellFormed : DonorGroups s bounds (s.donorGroups bounds) where
  known group hg d hd := by
    obtain ⟨hrow, -, hbounds⟩ := exists_donorGroup.mp ⟨group, hg, hd⟩
    exact ⟨Table.get_eq_some.mpr ⟨hrow, rfl⟩, hbounds⟩
  same group hg d hd d' hd' := by
    obtain ⟨donor, -, rfl⟩ := List.mem_map.mp hg
    have h := of_decide_eq_true (List.mem_filter.mp hd).2
    have h' := of_decide_eq_true (List.mem_filter.mp hd').2
    exact h.trans h'.symm
  apart := by
    refine List.pairwise_map.mpr ((List.nodup_dedup _).imp fun hne d hd d' hd' hsame => hne ?_)
    have h := of_decide_eq_true (List.mem_filter.mp hd).2
    have h' := of_decide_eq_true (List.mem_filter.mp hd').2
    exact h.symm.trans (hsame.trans h')

/-- The window of a tax year contains the donations that are dated in it. -/
theorem within_of_taxYear {d : Donation} {taxYear : ℤ}
    (hbounds : taxYearBounds taxYear = .ok bounds)
    (hyear : d.taxYear = some taxYear) : d.Within bounds := by
  unfold Donation.taxYear localDate at hyear
  split at hyear
  next date hdate =>
    split at hdate
    next hwest =>
      cases hdate
      obtain rfl := Option.some.inj hyear
      obtain ⟨hstart, hend⟩ := (Zone.year_eq_iff (one_le_yearOf _) hwest).mp rfl
      generalize yearOf (Zone.toronto.date d.createdAt) = y at *
      unfold taxYearBounds at hbounds
      split at hbounds
      · cases hbounds
      split at hbounds
      · cases hbounds
      rw [Int.toNat_natCast, Except.ok.injEq] at hbounds
      subst hbounds
      exact ⟨(Zone.newYear_le Zone.toronto_west_of_stJohns y).trans hstart,
        Nat.le_sub_one_of_lt (hend.trans_le (Zone.newYear_le Zone.vancouver_west_of_toronto _))⟩
    · cases hdate
  · cases hyear

/-! ## Runs -/

/-- Where the tests of the two issuers agree with what the issued receipts cover. -/
def ReceiptStore.Agrees (s : ReceiptStore) : ReceiptStep → Prop
  | .signal donation _ => s.activeCharity.isSome = true → ∀ d ∈ s.donations.rows,
      d.pk = donation → d.Receiptable → s.issuedFor donation = false → s.receiptsOver donation = []
  | .annual taxYear _ =>
    match s.activeCharity, taxYearBounds taxYear with
    | some _, .ok bounds => ∀ d ∈ s.donations.rows, d.Receiptable → d.Within bounds →
        if s.issuedWithin d.donor bounds then
          d.taxYear = some taxYear → s.receiptsOver d.pk ≠ []
        else s.receiptsOver d.pk = []
    | _, _ => True
  | _ => True

instance (s : ReceiptStore) (x : ReceiptStep) : Decidable (s.Agrees x) := by
  unfold ReceiptStore.Agrees
  cases x with
  | signal => dsimp only; infer_instance
  | annual taxYear _ =>
    dsimp only
    cases s.activeCharity <;> cases taxYearBounds taxYear <;> dsimp only <;> infer_instance
  | _ => exact inferInstanceAs (Decidable True)

/-- The signal does nothing, or it issues a receipt for the donation. -/
theorem onDonationCompleted_cases (d : Donation) (now : Instant) (s : ReceiptStore) :
    onDonationCompleted d now s = .ok (none, s) ∨
      ∃ charity, s.activeCharity = some charity ∧ d.Receiptable ∧ s.issuedFor d.pk = false ∧
        onDonationCompleted d now s =
          (issue charity (.single d) now >>= fun receipt => pure (some receipt)) s := by
  unfold onDonationCompleted
  split
  · exact .inl rfl
  next hcompleted =>
    split
    · exact .inl rfl
    next hpos =>
      rw [bind_of_ok get_apply]
      cases s.activeCharity with
      | none => exact .inl rfl
      | some charity =>
        dsimp only
        split
        · exact .inl rfl
        next hfree =>
          exact .inr ⟨charity, rfl, ⟨not_not.mp hcompleted, not_le.mp hpos⟩, by simpa using hfree,
            rfl⟩

theorem onDonationCompleted_ok {d : Donation} {a : Option OfficialDonationReceipt}
    (h : onDonationCompleted d now s = .ok (a, t)) :
    t = s ∨ (s.activeCharity.isSome = true ∧ d.Receiptable ∧ s.issuedFor d.pk = false ∧
      s.Issues d.pk [d.pk] t) := by
  rcases onDonationCompleted_cases d now s with hnone | ⟨charity, hcharity, hready, hfree, hissues⟩
  · cases hnone.symm.trans h
    exact .inl rfl
  · obtain ⟨r, u, hissue, hreturn⟩ := bind_ok.mp (hissues.symm.trans h)
    obtain ⟨-, rfl⟩ := pure_ok.mp hreturn
    exact .inr ⟨by rw [hcharity]; rfl, hready, hfree, issue_ok hissue⟩

/-- An annual run from a state that agrees with it. -/
theorem generateAnnualReceipts_ok {taxYear : ℤ} {answer : Except PaymentError AnnualReport}
    (hs : s.Single) (hagrees : s.Agrees (.annual taxYear clock))
    (h : generateAnnualReceipts taxYear clock s = (answer, t)) :
    t.Single ∧ t.donations = s.donations ∧ ∀ report, answer = .ok report → report.errors = 0 →
      ∀ d ∈ t.donations.rows, d.Receiptable → d.taxYear = some taxYear →
        t.receiptsOver d.pk ≠ [] := by
  unfold generateAnnualReceipts at h
  unfold ReceiptStore.Agrees at hagrees
  cases hcharity : s.activeCharity with
  | none =>
    simp only [hcharity, Prod.mk.injEq] at h
    obtain ⟨rfl, rfl⟩ := h
    refine ⟨hs, rfl, fun report hreport herrors => ?_⟩
    cases hreport
    cases herrors
  | some charity =>
    cases hbounds : taxYearBounds taxYear with
    | error e =>
      simp only [hcharity, hbounds, Prod.mk.injEq] at h
      obtain ⟨rfl, rfl⟩ := h
      exact ⟨hs, rfl, nofun⟩
    | ok bounds =>
      simp only [hcharity, hbounds, Prod.mk.injEq] at h hagrees
      obtain ⟨rfl, rfl⟩ := h
      have hagrees' : ∀ group ∈ s.donorGroups bounds, ∀ d ∈ group, 0 < d.eligibleAmount →
          d ∈ s.donations.rows ∧ if s.issuedWithin d.donor bounds then
            d.taxYear = some taxYear → s.receiptsOver d.pk ≠ [] else s.receiptsOver d.pk = [] := by
        intro group hg d hd hpos
        obtain ⟨hrow, hstatus, hwithin⟩ := exists_donorGroup.mp ⟨group, hg, hd⟩
        exact ⟨hrow, hagrees d hrow ⟨hstatus, hpos⟩ hwithin⟩
      obtain ⟨hsingle, hdonations, -, hgrows, hserved⟩ := receiptDonors charity clock {}
        donorGroups_wellFormed hs fun group hg d hd hpos hnot => by
          simpa [hnot] using (hagrees' group hg d hd hpos).2
      refine ⟨hsingle, hdonations, fun report hreport herrors d hd hready hyear => ?_⟩
      cases hreport
      rw [hdonations] at hd
      have hwithin := within_of_taxYear hbounds hyear
      by_cases hissued : s.issuedWithin d.donor bounds = true
      · apply hgrows
        have hcovered := hagrees d hd hready hwithin
        rw [if_pos hissued] at hcovered
        exact hcovered hyear
      · obtain ⟨group, hg, hdg⟩ := exists_donorGroup.mpr ⟨hd, hready.1, hwithin⟩
        exact hserved herrors group hg d hdg hready.2 (by simpa using hissued)

/-! ## Changes by hand -/

/-- No donation is counted in more receipts than before. -/
def Thins (s t : ReceiptStore) : Prop :=
  ∀ d, (t.receiptsOver d).length ≤ (s.receiptsOver d).length

instance : Std.Refl Thins := ⟨fun _ _ => le_rfl⟩

theorem Thins.single (h : Thins s t) (hs : s.Single) : t.Single := fun d => (h d).trans (hs d)

theorem Thins.of_receipts (h : t.receipts = s.receipts) : Thins s t := by
  intro d
  rw [receiptsOver, receiptsOver, h]

theorem writeReceipt_thins {f : OfficialDonationReceipt → OfficialDonationReceipt} (k : Uuid)
    (hf : ∀ r, (f r).status ≠ .issued) :
    Within Thins (write receiptTable PaymentError.ofViolation k f) := by
  intro s u t h d
  obtain ⟨T, hT, rfl⟩ := write_ok.mp h
  cases hget : s.receipts.get k with
  | none =>
    obtain rfl : s.receipts = T := Except.ok.inj ((Table.update_of_none hget).symm.trans hT)
    exact le_rfl
  | some r =>
    simp only [receiptsOver, receiptTable, ((Table.update_ok hget).mp hT).2,
      ← List.countP_eq_length_filter, List.countP_map]
    refine List.countP_mono_left fun a _ ha => ?_
    by_cases hk : OfficialDonationReceipt.schema.pk a = k
    · simp [hk, hf r] at ha
    · simpa [hk] using ha

/-- Withdrawing a receipt, by cancelling or superseding it. -/
theorem withdraw_thins {f : OfficialDonationReceipt → OfficialDonationReceipt} (e : PaymentError)
    (k : Uuid) (hf : ∀ r, (f r).status ≠ .issued) : Within Thins (do
      let row ← lookup receiptTable e k
      if row.status ≠ .issued then throw e
      write receiptTable PaymentError.ofViolation k f) := by
  intro s u t h
  obtain ⟨row, s₁, hlookup, h₁⟩ := bind_ok.mp h
  obtain ⟨-, rfl⟩ := lookup_ok.mp hlookup
  split at h₁
  · simp [bind_of_error throw_apply] at h₁
  · exact writeReceipt_thins k hf _ _ _ h₁

theorem createElsewhere_thins {α : Type} {S : Schema α} {ℓ : Lens ReceiptStore (Table S)}
    (hℓ : ∀ T s, (ℓ.set T s).receipts = s.receipts) (build : ℕ → α) :
    Within Thins (create ℓ PaymentError.ofViolation build) := by
  intro s r t h
  obtain ⟨-, T, -, rfl⟩ := create_ok.mp h
  exact .of_receipts (hℓ T s)

theorem writeElsewhere_thins {α : Type} {S : Schema α} {ℓ : Lens ReceiptStore (Table S)}
    (hℓ : ∀ T s, (ℓ.set T s).receipts = s.receipts) (k : ℕ) (f : α → α) :
    Within Thins (write ℓ PaymentError.ofViolation k f) := by
  intro s u t h
  obtain ⟨T, -, rfl⟩ := write_ok.mp h
  exact .of_receipts (hℓ T s)

theorem ReceiptStep.step_single {x : ReceiptStep} (hs : s.Single) (hagrees : s.Agrees x)
    (h : x.step s = some t) : t.Single := by
  cases x with
  | signal donation now =>
    obtain ⟨d, hd, rfl⟩ := Option.map_eq_some_iff.mp h
    cases hsignal : onDonationCompleted d now s with
    | error e =>
      rw [commit_of_error hsignal]
      exact hs
    | ok q =>
      rw [commit_of_ok (a := q.1) (t := q.2) hsignal]
      rcases onDonationCompleted_ok (a := q.1) (t := q.2) hsignal with
        heq | ⟨hcharity, hready, hnew, hissues⟩
      · rw [heq]
        exact hs
      · obtain ⟨hrow, rfl⟩ := Table.get_eq_some.mp hd
        refine hissues.single hs fun pk hpk => ?_
        rw [List.mem_singleton.mp hpk]
        exact hagrees hcharity d hrow rfl hready hnew
  | annual taxYear clock =>
    cases h
    exact (generateAnnualReceipts_ok hs hagrees rfl).1
  | donate d =>
    cases h
    exact ((createElsewhere_thins (fun _ _ => rfl) _).commit s).single hs
  | revise donation status =>
    cases h
    exact ((writeElsewhere_thins (fun _ _ => rfl) _ _).commit s).single hs
  | cancel receipt reason supersededBy =>
    cases h
    exact ((withdraw_thins _ _ (by simp)).commit s).single hs
  | supersede receipt newReceipt =>
    cases h
    exact ((withdraw_thins _ _ (by simp)).commit s).single hs
  | configure c =>
    cases h
    exact ((createElsewhere_thins (fun _ _ => rfl) _).commit s).single hs
  | activate charity isActive =>
    cases h
    exact ((writeElsewhere_thins (fun _ _ => rfl) _ _).commit s).single hs

theorem single_of_reachable (h : (receipting.under ReceiptStore.Agrees).Reachable s) :
    s.Single := by
  refine h.invariant (I := Single) (fun s₀ h₀ d => ?_) fun u x v _ hu hstep => ?_
  · have hempty : s₀.receipts = .empty := h₀
    simp [receiptsOver, hempty, Table.empty]
  · obtain ⟨hagrees, hstep⟩ := Machine.under_step.mp hstep
    exact ReceiptStep.step_single hu hagrees hstep

/-- In a run whose signals and annual runs agree with the coverage, no donation is counted in two
issued receipts, and an annual run without errors leaves every eligible donation of its year
covered. -/
theorem receipted_exactly_once {s : ReceiptStore}
    (h : (receipting.under ReceiptStore.Agrees).Reachable s) :
    (∀ d ∈ s.donations.rows, d.Receiptable → (s.receiptsOver d.pk).length ≤ 1) ∧
      ∀ taxYear clock report t, s.Agrees (.annual taxYear clock) →
        generateAnnualReceipts taxYear clock s = (.ok report, t) → report.errors = 0 →
          ∀ d ∈ t.donations.rows, d.Receiptable → d.taxYear = some taxYear →
            t.receiptsOver d.pk ≠ [] := by
  have hs := single_of_reachable h
  refine ⟨fun d _ _ => hs d.pk, fun taxYear clock report t hagrees hrun herrors => ?_⟩
  exact (generateAnnualReceipts_ok hs hagrees hrun).2.2 report rfl herrors

def charityOfTown : CharitySettings where
  pk := 0
  charityLegalName := "Town"
  charityRegistrationNumber := "123456789 RR 0001"
  charityAddressLine1 := "1 Main St"
  charityCity := "Ottawa"
  charityProvince := "ON"
  charityPostalCode := "K1A 0A6"
  placeOfIssue := "Ottawa"
  authorizedSignatoryName := "A"
  authorizedSignatoryTitle := "Clerk"

/-- A completed gift of ten dollars, on a day of 2024. -/
def giftOn (dayOfYear : ℕ) : Donation where
  pk := 0
  paymentIntent := dayOfYear
  donor := 7
  amount := 1000
  status := .completed
  donorNameSnapshot := "D"
  donorAddressSnapshot := "2 Main St\nOttawa, ON K1A 0A6"
  createdAt := (daysBefore 2024 + dayOfYear) * dayLength

/-- Noon of 1 February 2025. -/
def february2025 : Instant := (daysBefore 2025 + 31) * dayLength + hours 12

/-- Two gifts of one donor. -/
def twoGifts : List ReceiptStep :=
  [.configure charityOfTown, .donate (giftOn 60), .donate (giftOn 90)]

def secondGift : Donation := { giftOn 90 with pk := 2 }

def annualOnly : ReceiptStore :=
  (receipting.under ReceiptStore.Agrees).final {} (twoGifts ++ [.annual 2024 fun _ => february2025])

/-- Running the year again finds both gifts on the consolidated receipt. -/
theorem receipted_exactly_once_annualOnly :
    (annualOnly.receipts.rows.map fun r => (r.eligibleAmount, r.covers)) = [(2000, [1, 2])] ∧
      (annualOnly.receiptsOver 2).length ≤ 1 ∧
      (generateAnnualReceipts 2024 (fun _ => february2025) annualOnly).2.receiptsOver 2 ≠ [] := by
  have hreachable : (receipting.under ReceiptStore.Agrees).Reachable annualOnly :=
    Machine.Reachable.final (M := receipting.under ReceiptStore.Agrees) (s := {}) rfl _
  obtain ⟨hsingle, hcovered⟩ := receipted_exactly_once hreachable
  refine ⟨by decide +kernel, hsingle secondGift (by decide +kernel) (by decide),
    hcovered 2024 (fun _ => february2025) { skipped := 1 } _ (by decide +kernel) ?_ rfl
      secondGift (by decide +kernel) (by decide) (by decide +kernel)⟩
  exact Prod.ext (by decide +kernel) rfl

/-- The signal of the second gift comes after the annual run. -/
def signalledLate : ReceiptStore :=
  receipting.final {} (twoGifts ++ [.annual 2024 fun _ => february2025, .signal 2 february2025])

/-- Only the first gift was signalled. -/
def signalledOnce : ReceiptStore :=
  receipting.final {} (twoGifts ++ [.signal 1 february2025])

/-- The second gift is counted twice, or not at all by a run without errors. -/
theorem receipts_disagree :
    secondGift.Receiptable ∧ secondGift.taxYear = some 2024 ∧
    (receipting.Reachable signalledLate ∧ secondGift ∈ signalledLate.donations.rows ∧
      (signalledLate.receiptsOver 2).length = 2) ∧
    receipting.Reachable signalledOnce ∧ secondGift ∈ signalledOnce.donations.rows ∧
      (generateAnnualReceipts 2024 (fun _ => february2025) signalledOnce).1 =
        .ok { skipped := 1 } ∧
      (generateAnnualReceipts 2024 (fun _ => february2025) signalledOnce).2.receiptsOver 2 = [] :=
  ⟨by decide, by decide +kernel,
    ⟨Machine.Reachable.final (M := receipting) (s := {}) rfl _, by decide +kernel,
      by decide +kernel⟩,
    Machine.Reachable.final (M := receipting) (s := {}) rfl _, by decide +kernel,
    by decide +kernel, by decide +kernel⟩

end Civicos.Payments
