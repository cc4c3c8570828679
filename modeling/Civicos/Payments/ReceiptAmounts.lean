import Civicos.Payments.ReceiptOnce

/-!
# The amount of a receipt

A receipt adds up the donations that it covers. Later changes to the donations leave their amounts
as they are, so a receipt that was issued by the receiver or by the annual run goes on stating them.
-/
namespace Civicos.Payments

open Library Library.Transaction

namespace ReceiptStore

variable {s t : ReceiptStore} {d : Donation} {r r' : OfficialDonationReceipt} {k : Uuid}

/-- The eligible amount of a donation, zero if there is none -/
def eligibleOf (s : ReceiptStore) (k : Uuid) : Cents :=
  ((s.donations.get k).map Donation.eligibleAmount).getD 0

theorem eligibleOf_of_mem (hd : d ∈ s.donations.rows) : s.eligibleOf d.pk = d.eligibleAmount := by
  have hget : s.donations.get d.pk = some d := Table.get_eq_some.mpr ⟨hd, rfl⟩
  simp [eligibleOf, hget]

theorem exists_of_eligible (h : 0 < s.eligibleOf k) : ∃ d ∈ s.donations.rows, d.pk = k := by
  cases hget : s.donations.get k with
  | none => simp [eligibleOf, hget] at h
  | some d => exact ⟨d, Table.get_eq_some.mp hget⟩

/-- The receipt adds up the donations that it covers; its own donation is one of them. -/
structure Backed (s : ReceiptStore) (r : OfficialDonationReceipt) : Prop where
  anchor : r.donation ∈ r.covers
  nodup : r.covers.Nodup
  positive : ∀ k ∈ r.covers, 0 < s.eligibleOf k
  amount : r.eligibleAmount = (r.covers.map s.eligibleOf).sum

def AllBacked (s : ReceiptStore) : Prop := ∀ r ∈ s.receipts.rows, s.Backed r

/-- Every donation keeps its amount, and every receipt that is not new what it covers. -/
structure Carries (s t : ReceiptStore) : Prop where
  donations : ∀ d ∈ s.donations.rows, ∃ d' ∈ t.donations.rows,
    d'.pk = d.pk ∧ d'.eligibleAmount = d.eligibleAmount
  receipts : ∀ r ∈ t.receipts.rows, s.Backed r ∨ ∃ r₀ ∈ s.receipts.rows,
    r.donation = r₀.donation ∧ r.covers = r₀.covers ∧ r.eligibleAmount = r₀.eligibleAmount

namespace Carries

theorem eligibleOf (h : Carries s t) (hk : 0 < s.eligibleOf k) :
    t.eligibleOf k = s.eligibleOf k := by
  obtain ⟨d, hd, rfl⟩ := exists_of_eligible hk
  obtain ⟨d', hd', hpk, hamount⟩ := h.donations d hd
  rw [eligibleOf_of_mem hd, ← hamount, ← hpk, eligibleOf_of_mem hd']

theorem backed (h : Carries s t) (hr : s.Backed r) (hdonation : r'.donation = r.donation)
    (hcovers : r'.covers = r.covers) (hamount : r'.eligibleAmount = r.eligibleAmount) :
    t.Backed r' := by
  have hsame : ∀ k ∈ r.covers, t.eligibleOf k = s.eligibleOf k := fun k hk =>
    h.eligibleOf (hr.positive k hk)
  constructor
  · rw [hdonation, hcovers]
    exact hr.anchor
  · rw [hcovers]
    exact hr.nodup
  · intro k hk
    rw [hcovers] at hk
    rw [hsame k hk]
    exact hr.positive k hk
  · rw [hamount, hcovers, hr.amount]
    exact congrArg List.sum (List.map_congr_left fun k hk => (hsame k hk).symm)

theorem allBacked (h : Carries s t) (hs : s.AllBacked) : t.AllBacked := by
  intro r hr
  rcases h.receipts r hr with hnew | ⟨r₀, hr₀, hdonation, hcovers, hamount⟩
  · exact h.backed hnew rfl rfl rfl
  · exact h.backed (hs r₀ hr₀) hdonation hcovers hamount

theorem same_donations (h : t.donations = s.donations) : ∀ d ∈ s.donations.rows,
    ∃ d' ∈ t.donations.rows, d'.pk = d.pk ∧ d'.eligibleAmount = d.eligibleAmount := by
  intro d hd
  exact ⟨d, h ▸ hd, rfl, rfl⟩

theorem same_receipts (h : t.receipts = s.receipts) : ∀ r ∈ t.receipts.rows, s.Backed r ∨
    ∃ r₀ ∈ s.receipts.rows, r.donation = r₀.donation ∧ r.covers = r₀.covers ∧
      r.eligibleAmount = r₀.eligibleAmount := by
  intro r hr
  exact .inr ⟨r, h ▸ hr, rfl, rfl, rfl⟩

end Carries

instance : Std.Refl Carries := ⟨fun _ => ⟨Carries.same_donations rfl, Carries.same_receipts rfl⟩⟩

end ReceiptStore

open ReceiptStore

/-! ## Issuing -/

variable {charity : CharitySettings} {g : Gifts} {now : Instant} {s t : ReceiptStore}
  {r : OfficialDonationReceipt} {group : List Donation} {groups : List (List Donation)}
  {bounds : Instant × Instant} {clock : Uuid → Instant} {x : ReceiptStep}

/-- Donations with an amount, once each, and their sum -/
structure Gifts.Sound (s : ReceiptStore) (g : Gifts) : Prop where
  anchor : g.anchor.pk ∈ g.covers
  nodup : g.covers.Nodup
  positive : ∀ k ∈ g.covers, 0 < s.eligibleOf k
  amount : g.eligibleAmount = (g.covers.map s.eligibleOf).sum

theorem issue_carries (hg : g.Sound s) (h : issue charity g now s = .ok (r, t)) : Carries s t := by
  obtain ⟨hdonations, hrows, -, hanchor, hcovers, hamount⟩ := issue_inserts h
  refine ⟨Carries.same_donations hdonations, fun a ha => ?_⟩
  rw [hrows, List.mem_append, List.mem_singleton] at ha
  rcases ha with hold | rfl
  · exact .inr ⟨a, hold, rfl, rfl, rfl⟩
  · refine .inl ⟨?_, ?_, ?_, ?_⟩
    · rw [hanchor, hcovers]
      exact hg.anchor
    · rw [hcovers]
      exact hg.nodup
    · rw [hcovers]
      exact hg.positive
    · rw [hamount, hcovers]
      exact hg.amount

theorem single_sound {d : Donation} (hd : d ∈ s.donations.rows) (hpos : 0 < d.eligibleAmount) :
    (Gifts.single d).Sound s where
  anchor := .head _
  nodup := List.nodup_singleton _
  positive k hk := by
    rw [List.mem_singleton.mp hk, eligibleOf_of_mem hd]
    exact hpos
  amount := by simp [Gifts.single, eligibleOf_of_mem hd]

theorem annual_sound {anchor : Donation} {rest : List Donation}
    (hrows : ∀ d ∈ anchor :: rest, d ∈ s.donations.rows ∧ 0 < d.eligibleAmount)
    (hnodup : ((anchor :: rest).map Donation.pk).Nodup) : (Gifts.annual anchor rest).Sound s where
  anchor := .head _
  nodup := hnodup
  positive k hk := by
    obtain ⟨d, hd, rfl⟩ := List.mem_map.mp hk
    rw [eligibleOf_of_mem (hrows d hd).1]
    exact (hrows d hd).2
  amount := by
    unfold Gifts.annual
    rw [List.map_map]
    refine congrArg List.sum (List.map_congr_left fun d hd => ?_)
    exact (eligibleOf_of_mem (hrows d hd).1).symm

theorem onDonationCompleted_carries {d : Donation} {a : Option OfficialDonationReceipt}
    (hd : d ∈ s.donations.rows) (h : onDonationCompleted d now s = .ok (a, t)) : Carries s t := by
  rcases onDonationCompleted_cases d now s with hnone | ⟨charity, -, hready, -, hissues⟩
  · cases hnone.symm.trans h
    exact Std.Refl.refl _
  · obtain ⟨r, u, hissue, hreturn⟩ := bind_ok.mp (hissues.symm.trans h)
    obtain ⟨-, rfl⟩ := pure_ok.mp hreturn
    exact issue_carries (single_sound hd hready.2) hissue

/-- One turn of the annual loop -/
theorem receiptDonor_carries (report : AnnualReport)
    (hrows : ∀ d ∈ group, d ∈ s.donations.rows) (hnodup : (group.map Donation.pk).Nodup) :
    Carries s (receiptDonor charity bounds clock (report, s) group).2 ∧
      (receiptDonor charity bounds clock (report, s) group).2.donations = s.donations := by
  unfold receiptDonor
  cases hgroup : group.filter fun d => 0 < d.eligibleAmount with
  | nil => exact ⟨Std.Refl.refl s, rfl⟩
  | cons anchor rest =>
    have hsound : (Gifts.annual anchor rest).Sound s := by
      apply annual_sound
      · intro d hd
        rw [← hgroup] at hd
        obtain ⟨hmem, hpos⟩ := List.mem_filter.mp hd
        exact ⟨hrows d hmem, of_decide_eq_true hpos⟩
      · rw [← hgroup]
        exact (List.filter_sublist.map _).nodup hnodup
    dsimp only
    split
    · exact ⟨Std.Refl.refl s, rfl⟩
    cases hissue : issue charity (.annual anchor rest) (clock anchor.donor) s with
    | ok q =>
      rw [commit_of_ok (a := q.1) (t := q.2) hissue]
      exact ⟨issue_carries (r := q.1) hsound hissue, (issue_ok (r := q.1) hissue).1⟩
    | error e =>
      rw [commit_of_error hissue]
      dsimp only
      split <;> exact ⟨Std.Refl.refl s, rfl⟩

theorem receiptDonors_backed (report : AnnualReport) (hs : s.AllBacked)
    (hrows : ∀ group ∈ groups, ∀ d ∈ group, d ∈ s.donations.rows)
    (hnodup : ∀ group ∈ groups, (group.map Donation.pk).Nodup) :
    (groups.foldl (receiptDonor charity bounds clock) (report, s)).2.AllBacked := by
  induction groups generalizing report s with
  | nil => exact hs
  | cons group groups ih =>
    have hturn : Carries s (receiptDonor charity bounds clock (report, s) group).2 ∧
        (receiptDonor charity bounds clock (report, s) group).2.donations = s.donations :=
      receiptDonor_carries report (hrows group (.head _)) (hnodup group (.head _))
    obtain ⟨hcarries, hdonations⟩ := hturn
    rw [List.foldl_cons]
    generalize receiptDonor charity bounds clock (report, s) group = q at hcarries hdonations ⊢
    obtain ⟨report₁, s₁⟩ := q
    apply ih
    · exact hcarries.allBacked hs
    · intro group' hgroup' d hd
      rw [hdonations]
      exact hrows group' (.tail _ hgroup') d hd
    · exact fun group' hgroup' => hnodup group' (.tail _ hgroup')

theorem donorGroups_nodup : ∀ group ∈ s.donorGroups bounds, (group.map Donation.pk).Nodup := by
  intro group hgroup
  obtain ⟨donor, -, rfl⟩ := List.mem_map.mp hgroup
  have hrows : (s.donations.rows.map Donation.pk).Nodup := s.donations.nodup_pk
  refine (List.filter_sublist.map _).nodup ?_
  refine ((List.perm_insertionSort _ _).map _).nodup_iff.mpr ?_
  exact (List.filter_sublist.map _).nodup hrows

theorem generateAnnualReceipts_backed (taxYear : ℤ) (hs : s.AllBacked) :
    (generateAnnualReceipts taxYear clock s).2.AllBacked := by
  unfold generateAnnualReceipts
  cases s.activeCharity with
  | none => exact hs
  | some charity =>
    cases taxYearBounds taxYear with
    | error e => exact hs
    | ok bounds =>
      apply receiptDonors_backed _ hs _ donorGroups_nodup
      intro group hgroup d hd
      exact (exists_donorGroup.mp ⟨group, hgroup, hd⟩).1

/-! ## Runs -/

theorem withdraw_carries {f : OfficialDonationReceipt → OfficialDonationReceipt} (e : PaymentError)
    (k : Uuid) (hf : ∀ r, (f r).donation = r.donation ∧ (f r).covers = r.covers ∧
      (f r).eligibleAmount = r.eligibleAmount) : Within Carries (do
      let row ← lookup receiptTable e k
      if row.status ≠ .issued then throw e
      write receiptTable PaymentError.ofViolation k f) := by
  intro s u t h
  obtain ⟨row, s₁, hlookup, h₁⟩ := bind_ok.mp h
  obtain ⟨hrow, rfl⟩ := lookup_ok.mp hlookup
  split at h₁
  · simp [bind_of_error throw_apply] at h₁
  · obtain ⟨T, hT, rfl⟩ := write_ok.mp h₁
    refine ⟨Carries.same_donations rfl, fun r hr => ?_⟩
    rcases (Table.mem_update hT hrow).mp hr with ⟨hold, -⟩ | rfl
    · exact .inr ⟨r, hold, rfl, rfl, rfl⟩
    · exact .inr ⟨row, Table.mem_of_get hrow, hf row⟩

theorem donate_carries (d : Donation) :
    Within Carries (create donationTable PaymentError.ofViolation fun pk => { d with pk }) := by
  intro s a t h
  obtain ⟨-, T, hT, rfl⟩ := create_ok.mp h
  refine ⟨fun d hd => ⟨d, ?_, rfl, rfl⟩, Carries.same_receipts rfl⟩
  change d ∈ T.rows
  rw [(Table.insert_ok.mp hT).2]
  exact List.mem_append_left _ hd

theorem revise_carries (k : Uuid) (status : DonationStatus) :
    Within Carries (write donationTable PaymentError.ofViolation k fun d => { d with status }) := by
  intro s u t h
  obtain ⟨T, hT, rfl⟩ := write_ok.mp h
  refine ⟨fun d hd => ?_, Carries.same_receipts rfl⟩
  have hsame := Table.map_update (g := fun d : Donation => (d.pk, d.eligibleAmount)) hT
    fun _ => rfl
  have hmem : (d.pk, d.eligibleAmount) ∈
      s.donations.rows.map fun d : Donation => (d.pk, d.eligibleAmount) :=
    List.mem_map_of_mem hd
  rw [show (donationTable.get s).rows = s.donations.rows from rfl] at hsame
  rw [← hsame] at hmem
  obtain ⟨d', hd', heq⟩ := List.mem_map.mp hmem
  exact ⟨d', hd', congrArg Prod.fst heq, congrArg Prod.snd heq⟩

theorem create_carries {α : Type} {S : Schema α} {ℓ : Lens ReceiptStore (Table S)}
    (hℓ : ∀ T s, (ℓ.set T s).donations = s.donations ∧ (ℓ.set T s).receipts = s.receipts)
    (build : ℕ → α) : Within Carries (create ℓ PaymentError.ofViolation build) := by
  intro s r t h
  obtain ⟨-, T, -, rfl⟩ := create_ok.mp h
  exact ⟨Carries.same_donations (hℓ T s).1, Carries.same_receipts (hℓ T s).2⟩

theorem write_carries {α : Type} {S : Schema α} {ℓ : Lens ReceiptStore (Table S)}
    (hℓ : ∀ T s, (ℓ.set T s).donations = s.donations ∧ (ℓ.set T s).receipts = s.receipts)
    (k : ℕ) (f : α → α) : Within Carries (write ℓ PaymentError.ofViolation k f) := by
  intro s u t h
  obtain ⟨T, -, rfl⟩ := write_ok.mp h
  exact ⟨Carries.same_donations (hℓ T s).1, Carries.same_receipts (hℓ T s).2⟩

theorem ReceiptStep.step_backed (hs : s.AllBacked) (h : x.step s = some t) : t.AllBacked := by
  cases x with
  | signal donation now =>
    obtain ⟨d, hd, rfl⟩ := Option.map_eq_some_iff.mp h
    cases hsignal : onDonationCompleted d now s with
    | error e =>
      rw [commit_of_error hsignal]
      exact hs
    | ok q =>
      rw [commit_of_ok (a := q.1) (t := q.2) hsignal]
      exact (onDonationCompleted_carries (a := q.1) (Table.mem_of_get hd) hsignal).allBacked hs
  | annual taxYear clock =>
    cases h
    exact generateAnnualReceipts_backed taxYear hs
  | donate d =>
    cases h
    exact ((donate_carries d).commit s).allBacked hs
  | revise donation status =>
    cases h
    exact ((revise_carries donation status).commit s).allBacked hs
  | cancel receipt reason supersededBy =>
    cases h
    exact ((withdraw_carries _ _ (by simp)).commit s).allBacked hs
  | supersede receipt newReceipt =>
    cases h
    exact ((withdraw_carries _ _ (by simp)).commit s).allBacked hs
  | configure c =>
    cases h
    exact ((create_carries (fun _ _ => ⟨rfl, rfl⟩) _).commit s).allBacked hs
  | activate charity isActive =>
    cases h
    exact ((write_carries (fun _ _ => ⟨rfl, rfl⟩) _ _).commit s).allBacked hs

/-- Every receipt states the amounts of the donations that it covers. -/
theorem allBacked_of_reachable (h : receipting.Reachable s) : s.AllBacked := by
  refine h.invariant (I := AllBacked) (fun s₀ h₀ => ?_) fun u x v _ hu hstep => ?_
  · have hempty : s₀.receipts = .empty := h₀
    intro r hr
    simp [hempty, Table.empty] at hr
  · exact ReceiptStep.step_backed hu hstep

end Civicos.Payments
