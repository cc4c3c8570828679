import Civicos.Payments.GivingSystem
import Civicos.Payments.ReceiptOnce
import Civicos.Payments.WebhookChanges

/-!
# Refunded gifts

No code moves a donation away from completed. A gift whose payment has been refunded in full still
counts, and the annual run puts it on the receipt of its donor like every other gift.
-/
namespace Civicos.Payments

open Library Library.Transaction

/-! ## Every gift is completed -/

namespace WebhookStore

/-- What is new among the donations is completed. -/
def AddsCompleted (s t : WebhookStore) : Prop :=
  ∀ d ∈ t.donations.rows, d ∈ s.donations.rows ∨ d.status = .completed

instance : Std.Refl AddsCompleted := ⟨fun _ _ hd => .inl hd⟩

instance : IsTrans WebhookStore AddsCompleted where
  trans _ _ _ h g d hd := by
    rcases g d hd with hd | hcompleted
    · exact h d hd
    · exact .inr hcompleted

theorem AddsCompleted.of_same {s t : WebhookStore} (h : t.donations = s.donations) :
    AddsCompleted s t := by
  intro d hd
  rw [h] at hd
  exact .inl hd

end WebhookStore

open WebhookStore

section Webhooks

variable {α β : Type} {S : Schema α} {ℓ : Lens WebhookStore (Table S)} {i : PaymentIntent}

theorem reads_completed {x : WebhookTx β} (hx : ∀ s b t, x s = .ok (b, t) → t = s) :
    Within AddsCompleted x := by
  intro s b t h
  obtain rfl := hx s b t h
  exact Std.Refl.refl t

theorem lookupRow_completed (e : PaymentError) (k : ℕ) :
    Within AddsCompleted (lookup ℓ e k) :=
  reads_completed fun _ _ _ h => (lookup_ok.mp h).2

theorem lift_completed (x : Except PaymentError β) : Within AddsCompleted (liftM x : WebhookTx β) :=
  reads_completed fun _ _ _ h => (lift_ok.mp h).2

theorem createRow_completed (hℓ : ∀ T s, (ℓ.set T s).donations = s.donations) (build : ℕ → α) :
    Within AddsCompleted (create ℓ PaymentError.ofViolation build) := by
  intro s r t h
  obtain ⟨-, T, -, rfl⟩ := create_ok.mp h
  exact .of_same (hℓ T s)

theorem writeRow_completed (hℓ : ∀ T s, (ℓ.set T s).donations = s.donations) (k : ℕ)
    (f : α → α) : Within AddsCompleted (write ℓ PaymentError.ofViolation k f) := by
  intro s u t h
  obtain ⟨T, -, rfl⟩ := write_ok.mp h
  exact .of_same (hℓ T s)

theorem createDonation_completed {build : ℕ → Donation}
    (hbuild : ∀ k, (build k).status = .completed) :
    Within AddsCompleted (create donationTable PaymentError.ofViolation build) := by
  intro s r t h
  obtain ⟨rfl, T, hT, rfl⟩ := create_ok.mp h
  intro d hd
  have hrows : d ∈ T.rows := hd
  rw [Table.mem_insert hT] at hrows
  rcases hrows with hold | rfl
  · exact .inl hold
  · exact .inr (hbuild _)

namespace WebhookHandler

theorem transition_completed (k : Uuid) (status : IntentStatus) :
    Within AddsCompleted (transition k status) := by
  intro s u t h
  obtain ⟨-, -, -, -, ht, -⟩ := transition_ok h
  rw [ht]
  exact .of_same rfl

theorem handleOneTimeDonation_completed (amount : Cents) (french : Bool) (now : Instant) :
    Within AddsCompleted (handleOneTimeDonation i amount french now) := by
  refine .ite (fun _ => .pure _) fun _ => .get fun s => ?_
  refine .ite (fun _ => .pure _) fun _ => ?_
  refine .bind (lift_completed _) fun campaign => .bind (lookupRow_completed _ _) fun donor => ?_
  refine .bind (lift_completed _) fun name => ?_
  exact .bind (createDonation_completed fun _ => rfl) fun _ => .pure _

theorem complete_completed (event : WebhookEvent) (d : PaymentSucceeded) (french : Bool)
    (now : Instant) : Within AddsCompleted (complete event d i french now) := by
  refine .bind ?_ fun _ => .bind (transition_completed _ _) fun _ => ?_
  · exact .ite (fun _ => transition_completed _ _) fun _ => .pure _
  refine .bind (createRow_completed (fun _ _ => rfl) _) fun payment => .bind ?_ fun _ => ?_
  · rintro s u t ⟨⟩
    exact .of_same rfl
  · exact .ite (fun _ => handleOneTimeDonation_completed _ _ _) fun _ => .pure _

theorem audit_completed (entry : PaymentAuditEntry) : Within AddsCompleted (audit entry) := by
  rintro s u t ⟨⟩
  exact .of_same rfl

theorem handler_completed (event : WebhookEvent) (french : Bool) (now : Instant) :
    Within AddsCompleted (handler event french now) := by
  unfold handler
  cases event.payload with
  | paymentIntentSucceeded d =>
    refine .ite (fun _ => .pure _) fun _ => .get fun s => ?_
    refine .ite (fun _ => .pure _) fun _ => ?_
    rcases s.intentsFor d.gatewayIntentId with _ | ⟨i, _ | ⟨j, rest⟩⟩
    · exact .pure _
    · exact complete_completed event d french now
    · exact .throw _
  | paymentIntentFailed gatewayIntentId reason =>
    refine .ite (fun _ => .pure _) fun _ => .get fun s => ?_
    rcases s.intentsFor gatewayIntentId with _ | ⟨i, _ | ⟨j, rest⟩⟩
    · exact .pure _
    · exact .bind (transition_completed _ _) fun _ => audit_completed _
    · exact .throw _
  | malformed => exact .pure _
  | unhandled => exact .pure _

theorem dispatch_completed (event : WebhookEvent) (french : Bool) (now : Instant) :
    Within AddsCompleted (dispatch event french now) :=
  .bind (handler_completed event french now) fun _ => writeRow_completed (fun _ _ => rfl) _ _

end WebhookHandler

theorem WebhookWorker.act_completed {s t : WebhookStore} {p q : WebhookWorker} {c : WebhookChoice}
    (h : p.act s c = some (t, q)) : AddsCompleted s t := by
  have hevents {k : Uuid} {f : WebhookEvent → WebhookEvent} :
      AddsCompleted s (commit (write eventTable PaymentError.ofViolation k f) s).2 :=
    (writeRow_completed (ℓ := eventTable) (fun _ _ => rfl) k f).commit s
  cases p with
  | task event =>
    simp only [WebhookWorker.act] at h
    split at h
    · cases h
      exact Std.Refl.refl s
    · cases h
      exact Std.Refl.refl s
  | refusing event error =>
    cases h
    exact hevents
  | skipping event =>
    cases h
    exact hevents
  | handling event =>
    simp only [WebhookWorker.act] at h
    split at h
    next hrun =>
      cases h
      exact WebhookHandler.dispatch_completed _ _ _ _ _ _ hrun
    · cases h
      exact Std.Refl.refl s
  | failing event e =>
    cases h
    exact hevents
  | raised e => cases h
  | done => cases h
  | dead => cases h

theorem PortalWriter.renewal_completed (payer : Uuid) (charge : String) (amount : Cents)
    (campaign : Option Uuid) (name address : String) (now : Instant) :
    Within AddsCompleted (renewal payer charge amount campaign name address now) := by
  refine .bind (createRow_completed (fun _ _ => rfl) _) fun intent => ?_
  refine .bind (createRow_completed (fun _ _ => rfl) _) fun payment => ?_
  exact .bind (createDonation_completed fun _ => rfl) fun _ => .pure _

theorem PortalWriter.write_completed {s t : WebhookStore} {x : PortalWriter}
    (h : x.write s = some t) : AddsCompleted s t := by
  have hcreate {α : Type} {S : Schema α} {ℓ : Lens WebhookStore (Table S)}
      (hℓ : ∀ T s, (ℓ.set T s).donations = s.donations) (build : ℕ → α) :
      AddsCompleted s (commit (create ℓ PaymentError.ofViolation build) s).2 :=
    (createRow_completed hℓ build).commit s
  cases x with
  | register u =>
    cases h
    exact hcreate (fun _ _ => rfl) _
  | launch c =>
    cases h
    exact hcreate (fun _ _ => rfl) _
  | intend i =>
    obtain ⟨-, ht⟩ := Option.ite_none_right_eq_some.mp h
    cases ht
    exact hcreate (fun _ _ => rfl) _
  | renew payer charge amount campaign name address now =>
    obtain ⟨-, ht⟩ := Option.ite_none_right_eq_some.mp h
    cases ht
    exact (renewal_completed payer charge amount campaign name address now).commit s
  | receive id payload verified =>
    cases h
    exact hcreate (fun _ _ => rfl) _

end Webhooks

/-! ## Receipts -/

namespace ReceiptStore

/-- What a refund in full should lead to -/
structure Withdrawn (s : ReceiptStore) (d : Donation) : Prop where
  status : d.status ≠ .completed
  annual : ∀ taxYear clock, ∀ r ∈ (generateAnnualReceipts taxYear clock s).2.receipts.rows,
    r ∉ s.receipts.rows → d.pk ∉ r.covers
  signal : ∀ now, ∀ r ∈ (commit (onDonationCompleted d now) s).2.receipts.rows,
    r ∉ s.receipts.rows → d.pk ∉ r.covers

/-- A gift that the annual run of its year adds to whatever it issues to the donor. -/
structure Counted (s : ReceiptStore) (d : Donation) : Prop where
  completed : d.status = .completed
  annual : ∀ taxYear clock bounds, taxYearBounds taxYear = .ok bounds → d.Within bounds →
    0 < d.eligibleAmount → ∀ r ∈ (generateAnnualReceipts taxYear clock s).2.receipts.rows,
      r ∉ s.receipts.rows → (∃ a ∈ s.donations.rows, a.pk = r.donation ∧ a.donor = d.donor) →
        d.pk ∈ r.covers

end ReceiptStore

open ReceiptStore

section Receipts

variable {charity : CharitySettings} {bounds : Instant × Instant} {clock : Uuid → Instant}
  {s t : ReceiptStore} {group : List Donation} {groups : List (List Donation)} {a d : Donation}
  {r : OfficialDonationReceipt}

/-- A receipt over the gifts of one of these groups -/
def OverGroup (groups : List (List Donation)) (r : OfficialDonationReceipt) : Prop :=
  ∃ group ∈ groups, (∃ a ∈ group, a.pk = r.donation) ∧
    r.covers = (group.filter fun d => 0 < d.eligibleAmount).map Donation.pk

theorem receiptDonors_new (report : AnnualReport) :
    let p := groups.foldl (receiptDonor charity bounds clock) (report, s)
    p.2.donations = s.donations ∧
      ∀ r ∈ p.2.receipts.rows, r ∈ s.receipts.rows ∨ OverGroup groups r := by
  induction groups generalizing report s with
  | nil => exact ⟨rfl, fun r hr => .inl hr⟩
  | cons group groups ih =>
    rw [List.foldl_cons]
    have hturn := receiptDonor_cases charity bounds clock report s group
    generalize receiptDonor charity bounds clock (report, s) group = q at hturn ⊢
    obtain ⟨report₁, s₁⟩ := q
    obtain ⟨hdonations, hrows⟩ := ih (s := s₁) report₁
    have hlater (r : OfficialDonationReceipt) (h : OverGroup groups r) :
        OverGroup (group :: groups) r := by
      obtain ⟨g, hg, hover⟩ := h
      exact ⟨g, .tail _ hg, hover⟩
    rcases hturn with ⟨rfl, -⟩ | ⟨-, anchor, hanchor, -, hissues⟩
    · exact ⟨hdonations, fun r hr => (hrows r hr).imp_right (hlater r)⟩
    · obtain ⟨hsame, new, hnew, -, hdonation, hcovers⟩ := hissues
      refine ⟨hdonations.trans hsame, fun r hr => ?_⟩
      rcases hrows r hr with hold | hover
      · rw [show s₁.receipts.rows = s.receipts.rows ++ [new] from hnew, List.mem_append,
          List.mem_singleton] at hold
        rcases hold with hold | rfl
        · exact .inl hold
        · exact .inr ⟨group, .head _, ⟨anchor, hanchor, hdonation.symm⟩, hcovers⟩
      · exact .inr (hlater r hover)

/-- The gifts of a donor in a year are in one group. -/
theorem mem_donorGroup (hgroup : group ∈ s.donorGroups bounds) (ha : a ∈ group)
    (hd : d ∈ s.donations.rows) (hcompleted : d.status = .completed) (hwithin : d.Within bounds)
    (hdonor : a.donor = d.donor) : d ∈ group := by
  obtain ⟨donor, -, rfl⟩ := List.mem_map.mp hgroup
  have hkey : a.donor = donor := of_decide_eq_true (List.mem_filter.mp ha).2
  simp only [List.mem_filter, List.mem_insertionSort, decide_eq_true_eq]
  exact ⟨⟨hd, hcompleted, hwithin⟩, hdonor.symm.trans hkey⟩

theorem counted_of_completed (hd : d ∈ s.donations.rows) (hcompleted : d.status = .completed) :
    s.Counted d := by
  refine ⟨hcompleted, fun taxYear clock bounds hbounds hwithin hpos r hr hnew hdonor => ?_⟩
  obtain ⟨a, ha, hpk, hsame⟩ := hdonor
  unfold generateAnnualReceipts at hr
  cases hcharity : s.activeCharity with
  | none =>
    simp only [hcharity] at hr
    exact absurd hr hnew
  | some charity =>
    simp only [hcharity, hbounds] at hr
    rcases (receiptDonors_new {}).2 r hr with hold | ⟨group, hgroup, ⟨b, hb, hanchor⟩, hcovers⟩
    · exact absurd hold hnew
    · obtain ⟨hrow, -, -⟩ := exists_donorGroup.mp ⟨group, hgroup, hb⟩
      obtain rfl : a = b := Table.eq_of_pk ha hrow (hpk.trans hanchor.symm)
      rw [hcovers]
      refine List.mem_map_of_mem (List.mem_filter.mpr ⟨?_, decide_eq_true hpos⟩)
      exact mem_donorGroup hgroup hb hd hcompleted hwithin hsame

theorem generateAnnualReceipts_donations (taxYear : ℤ) :
    (generateAnnualReceipts taxYear clock s).2.donations = s.donations := by
  unfold generateAnnualReceipts
  cases s.activeCharity with
  | none => rfl
  | some charity =>
    cases taxYearBounds taxYear with
    | error e => rfl
    | ok bounds => exact (receiptDonors_new {}).1

theorem withdraw_donations {f : OfficialDonationReceipt → OfficialDonationReceipt}
    (e : PaymentError) (k : Uuid) : Within (fun s t : ReceiptStore => t.donations = s.donations) (do
      let row ← lookup receiptTable e k
      if row.status ≠ .issued then throw e
      write receiptTable PaymentError.ofViolation k f) := by
  intro s u t h
  obtain ⟨row, s₁, hlookup, h₁⟩ := bind_ok.mp h
  obtain ⟨-, rfl⟩ := lookup_ok.mp hlookup
  split at h₁
  · simp [bind_of_error throw_apply] at h₁
  · obtain ⟨T, -, rfl⟩ := write_ok.mp h₁
    rfl

theorem ReceiptStep.step_donations {x : ReceiptStep} (hx : x.keepsGifts = true)
    (h : x.step s = some t) : t.donations = s.donations := by
  cases x with
  | signal donation now =>
    obtain ⟨d, -, rfl⟩ := Option.map_eq_some_iff.mp h
    cases hsignal : onDonationCompleted d now s with
    | error e => rw [commit_of_error hsignal]
    | ok q =>
      rw [commit_of_ok (a := q.1) (t := q.2) hsignal]
      obtain hsame | ⟨-, -, -, hissues⟩ := onDonationCompleted_ok (a := q.1) hsignal
      · rw [hsame]
      · exact hissues.1
  | annual taxYear clock =>
    cases h
    exact generateAnnualReceipts_donations taxYear
  | donate d => cases hx
  | revise donation status => cases hx
  | cancel receipt reason supersededBy =>
    cases h
    exact (withdraw_donations _ _).commit s
  | supersede receipt newReceipt =>
    cases h
    exact (withdraw_donations _ _).commit s
  | configure c =>
    cases h
    have hsame : Within (fun s t : ReceiptStore => t.donations = s.donations)
        (create charityTable PaymentError.ofViolation fun pk => { c with pk }) := by
      intro s r t h
      obtain ⟨-, T, -, rfl⟩ := create_ok.mp h
      rfl
    exact hsame.commit s
  | activate charity isActive =>
    cases h
    have hsame : Within (fun s t : ReceiptStore => t.donations = s.donations)
        (write charityTable PaymentError.ofViolation charity fun row => { row with isActive }) := by
      intro s u t h
      obtain ⟨T, -, rfl⟩ := write_ok.mp h
      rfl
    exact hsame.commit s

end Receipts

/-! ## Runs -/

section Runs

variable {s t : GivingStore}

/-- Refunds do not touch the gifts, and what is new among the gifts is completed. -/
theorem GivingWorker.act_completed {p q : GivingWorker} {c : GivingChoice}
    (h : p.act s c = some (t, q)) : AddsCompleted s.gifts t.gifts := by
  cases p with
  | webhook w =>
    cases c with
    | webhook c =>
      obtain ⟨r, hact, heq⟩ := Option.map_eq_some_iff.mp h
      cases heq
      exact WebhookWorker.act_completed hact
    | refund c => cases h
  | refund w =>
    cases c with
    | webhook c => cases h
    | refund c =>
      obtain ⟨r, -, heq⟩ := Option.map_eq_some_iff.mp h
      cases heq
      exact .of_same rfl

theorem GivingEvent.step_completed {x : GivingEvent} (h : x.step s = some t) :
    AddsCompleted s.gifts t.gifts := by
  cases x with
  | portal x =>
    obtain ⟨u, hwrite, rfl⟩ := Option.map_eq_some_iff.mp h
    exact PortalWriter.write_completed hwrite
  | chargeRefunded gatewayEventId d =>
    cases h
    apply AddsCompleted.of_same
    cases hrun : zoom GivingStore.refundPart (handleChargeRefunded gatewayEventId d) s with
    | error e => rw [commit_of_error hrun]
    | ok r =>
      rw [commit_of_ok (a := r.1) (t := r.2) hrun]
      obtain ⟨u, -, ht⟩ := zoom_ok.mp (show _ = Except.ok (r.1, r.2) from hrun)
      rw [ht]
      rfl
  | receipt x =>
    obtain ⟨hx, hstep⟩ := Option.ite_none_right_eq_some.mp h
    obtain ⟨u, hu, rfl⟩ := Option.map_eq_some_iff.mp hstep
    exact .of_same (x.step_donations hx hu)

theorem completed_of_reachable {s : Pool.State GivingStore GivingWorker}
    (h : giving.machine.Reachable s) :
    ∀ d ∈ s.store.gifts.donations.rows, d.status = .completed := by
  have hkeep {s t : GivingStore} (hs : ∀ d ∈ s.gifts.donations.rows, d.status = .completed)
      (hadds : AddsCompleted s.gifts t.gifts) :
      ∀ d ∈ t.gifts.donations.rows, d.status = .completed := by
    intro d hd
    rcases hadds d hd with hold | hcompleted
    · exact hs d hold
    · exact hcompleted
  refine Program.store_invariant (P := giving)
    (I := fun s => ∀ d ∈ s.gifts.donations.rows, d.status = .completed) ?_ ?_ ?_ h
  · rintro s rfl d hd
    cases hd
  · intro s p c t q hs hact
    exact hkeep hs (GivingWorker.act_completed hact)
  · intro s x t hs hstep
    exact hkeep hs (GivingEvent.step_completed hstep)

end Runs

/-- The payment of the gift has been refunded in full. -/
def GivingStore.FullyRefunded (s : GivingStore) (d : Donation) : Prop :=
  ∃ p ∈ s.gifts.payments.rows, p.intent = d.paymentIntent ∧ s.refundedOf p = p.amountPaid

instance (s : GivingStore) (d : Donation) : Decidable (s.FullyRefunded d) :=
  inferInstanceAs (Decidable (∃ p ∈ s.gifts.payments.rows, _ ∧ _))

/-- A gift is withdrawn after a refund in full exactly if there is no refund in full. Every gift
counts as completed, and the annual run of its year adds it to whatever it issues to the donor. -/
theorem fully_refunded_counts {s : Pool.State GivingStore GivingWorker}
    (h : giving.machine.Reachable s) {d : Donation} (hd : d ∈ s.store.gifts.donations.rows) :
    ((s.store.FullyRefunded d → (GivingStore.receiptPart.get s.store).Withdrawn d) ↔
        ¬ s.store.FullyRefunded d) ∧
      (GivingStore.receiptPart.get s.store).Counted d := by
  have hcompleted := completed_of_reachable h d hd
  refine ⟨⟨fun hwithdrawn hfull => ?_, fun hnot hfull => absurd hfull hnot⟩, ?_⟩
  · exact (hwithdrawn hfull).status hcompleted
  · exact counted_of_completed hd hcompleted

/-- A gift of ten dollars, on a day of 2024 -/
def giftOf2024 : Instant := (daysBefore 2024 + 60) * dayLength

/-- A donor gives ten dollars, and staff refund them. -/
def refunded : Pool.State GivingStore GivingWorker :=
  giving.machine.final ⟨{}, []⟩ [
    .env (.portal (.register { pk := 0, firstName := "D", postalAddress := "2 Main St\nOttawa" })),
    .env (.portal (.intend
      { pk := 0, payer := 1, purpose := .donation, gatewayIntentId := "pi_1" })),
    .env (.portal (.receive "evt_1" (.paymentIntentSucceeded
      { gatewayIntentId := "pi_1", gatewayChargeId := "ch_1", amountPaid := 1000 }) true)),
    .spawn (.webhook (.task 1)), .act 0 (.webhook {}), .act 0 (.webhook { now := giftOf2024 }),
    .spawn (.refund (.post ⟨1, some { paymentPk := 1, amount := 1000, reason := "requested" }, 9⟩)),
    .act 1 (.refund { idempotencyKey := "k", now := giftOf2024 }),
    .act 1 (.refund { executes := true, gatewayRefundId := some "re_1" }), .act 1 (.refund {}),
    .env (.receipt (.configure charityOfTown))]

theorem refunded_reachable : giving.machine.Reachable refunded :=
  Machine.Reachable.final (M := giving.machine) (s := ⟨{}, []⟩) ⟨rfl, rfl⟩ _

theorem refunded_counts : ∃ d ∈ refunded.store.gifts.donations.rows,
    ¬ (refunded.store.FullyRefunded d → (GivingStore.receiptPart.get refunded.store).Withdrawn d) ∧
      (GivingStore.receiptPart.get refunded.store).Counted d := by
  obtain ⟨d, hd, hfull⟩ : ∃ d ∈ refunded.store.gifts.donations.rows,
      refunded.store.FullyRefunded d := by decide +kernel
  obtain ⟨hiff, hcounted⟩ := fully_refunded_counts refunded_reachable hd
  exact ⟨d, hd, fun hwithdrawn => hiff.mp hwithdrawn hfull, hcounted⟩

/-- The annual run of the next February -/
def receipted : Pool.State GivingStore GivingWorker :=
  giving.machine.final refunded [.env (.receipt (.annual 2024 fun _ => february2025))]

theorem receipt_after_refund : giving.machine.Reachable refunded ∧
    giving.machine.Later refunded receipted ∧ refunded.store.receipts.rows = [] ∧
    ∃ d ∈ refunded.store.gifts.donations.rows, refunded.store.FullyRefunded d ∧
      d.status = .completed ∧ ∃ r ∈ receipted.store.receipts.rows, d.pk ∈ r.covers :=
  ⟨refunded_reachable, Machine.Later.final refunded _, by decide +kernel, by decide +kernel⟩

end Civicos.Payments
