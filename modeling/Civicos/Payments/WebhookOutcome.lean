import Civicos.Payments.WebhookChanges

/-!
# Payment webhooks converge

An event that reports a payment ends with the intent completed, one payment and, for a one-time
gift, one donation, as long as no event for the intent closed it before and the rows that the
event describes are accepted by their tables.
-/
namespace Civicos.Payments

open Library Library.Transaction

namespace WebhookStore

variable {s t : WebhookStore}

def paymentsOf (s : WebhookStore) (intent : Uuid) : ℕ :=
  s.payments.rows.countP (·.intent = intent)

def donationsOf (s : WebhookStore) (intent : Uuid) : ℕ :=
  s.donations.rows.countP (·.paymentIntent = intent)

/-- One payment, and one donation for a one-time gift. -/
def Recorded (s : WebhookStore) (i : PaymentIntent) : Prop :=
  s.paymentsOf i.pk = 1 ∧ (i.isOneTimeDonation = true → s.donationsOf i.pk = 1)

/-- The gateway's intent is completed and recorded. -/
def Converged (s : WebhookStore) (gatewayIntentId : String) : Prop :=
  ∃ i ∈ s.intents.rows, i.gatewayIntentId = gatewayIntentId ∧ i.status = .completed ∧ s.Recorded i

instance (s : WebhookStore) (g : String) : Decidable (s.Converged g) := by
  unfold Converged Recorded
  infer_instance

/-- Exactly the completed intents are recorded. -/
structure Consistent (s : WebhookStore) : Prop where
  payer : ∀ i ∈ s.intents.rows, (s.users.get i.payer).isSome = true
  completed : ∀ i ∈ s.intents.rows, i.status = .completed → s.Recorded i
  unpaid : ∀ i ∈ s.intents.rows, i.status ≠ .completed → s.paymentsOf i.pk = 0 ∧
    s.donationsOf i.pk = 0
  payment : ∀ p ∈ s.payments.rows, (s.intents.get p.intent).isSome = true
  donation : ∀ d ∈ s.donations.rows, (s.intents.get d.paymentIntent).isSome = true

theorem paymentsOf_insert {p : Payment} (h : s.payments.insert p = .ok t.payments) (k : Uuid) :
    t.paymentsOf k = s.paymentsOf k + if p.intent = k then 1 else 0 := by
  rw [paymentsOf, paymentsOf, (Table.insert_ok.mp h).2, List.countP_append, List.countP_singleton]
  simp only [decide_eq_true_eq]

theorem donationsOf_insert {d : Donation} (h : s.donations.insert d = .ok t.donations) (k : Uuid) :
    t.donationsOf k = s.donationsOf k + if d.paymentIntent = k then 1 else 0 := by
  rw [donationsOf, donationsOf, (Table.insert_ok.mp h).2, List.countP_append, List.countP_singleton]
  simp only [decide_eq_true_eq]

theorem paymentsOf_congr (h : t.payments = s.payments) (k : Uuid) :
    t.paymentsOf k = s.paymentsOf k := by
  rw [paymentsOf, paymentsOf, h]

theorem donationsOf_congr (h : t.donations = s.donations) (k : Uuid) :
    t.donationsOf k = s.donationsOf k := by
  rw [donationsOf, donationsOf, h]

/-- The donations of an intent that had none. -/
theorem Gives.donationsOf {i : PaymentIntent} (h : Gives s t i) (hnone : s.donationsOf i.pk = 0) :
    (i.isOneTimeDonation = true → t.donationsOf i.pk = 1) ∧
      ∀ k, k ≠ i.pk → t.donationsOf k = s.donationsOf k := by
  rcases h with ⟨hsame, hgift⟩ | ⟨-, d, hd, hinsert⟩
  · refine ⟨fun honce => ?_, fun k _ => donationsOf_congr hsame k⟩
    obtain ⟨d, hd, hintent⟩ := hgift honce
    have hzero := List.countP_eq_zero.mp hnone d hd
    simp [hintent] at hzero
  · have hrows := donationsOf_insert hinsert
    refine ⟨fun _ => ?_, fun k hk => ?_⟩
    · rw [hrows, hnone, if_pos hd]
    · rw [hrows, if_neg fun heq => hk (heq.symm.trans hd), Nat.add_zero]

theorem Recorded.of_counts {i : PaymentIntent} (h : s.Recorded i)
    (hpayments : t.paymentsOf i.pk = s.paymentsOf i.pk)
    (hdonations : t.donationsOf i.pk = s.donationsOf i.pk) : t.Recorded i := by
  rw [Recorded, hpayments, hdonations]
  exact h

theorem Sets.mem_iff {i j : PaymentIntent} {status : IntentStatus} (h : Sets s t i status) :
    j ∈ t.intents.rows ↔ j = { i with status } ∨ (j ∈ s.intents.rows ∧ j.pk ≠ i.pk) := by
  have hmem : ∀ {T : Table PaymentIntent.schema}, j ∈ T.rows ↔ T.get j.pk = some j :=
    fun {T} => ⟨fun hj => Table.get_eq_some.mpr ⟨hj, rfl⟩, fun hj => Table.mem_of_get hj⟩
  rw [hmem, hmem, h]
  by_cases hpk : i.pk = j.pk
  · rw [if_pos hpk, Option.some.injEq]
    constructor
    · exact fun heq => .inl heq.symm
    · rintro (rfl | ⟨-, hne⟩)
      · rfl
      · exact absurd hpk.symm hne
  · rw [if_neg hpk]
    constructor
    · exact fun hj => .inr ⟨hj, Ne.symm hpk⟩
    · rintro (rfl | ⟨hj, -⟩)
      · exact absurd rfl hpk
      · exact hj

theorem Consistent.fresh_payment (hs : s.Consistent) {i : PaymentIntent}
    (h : s.intents.insert i = .ok t.intents) : s.paymentsOf i.pk = 0 ∧ s.donationsOf i.pk = 0 := by
  have hnone : s.intents.get i.pk = none := by
    rw [Table.get_eq_none]
    exact fun j hj => ((Table.insert_ok.mp h).1.2 j hj).1
  constructor
  · refine List.countP_eq_zero.mpr fun p hp hintent => ?_
    have hsome := hs.payment p hp
    rw [of_decide_eq_true hintent, hnone] at hsome
    cases hsome
  · refine List.countP_eq_zero.mpr fun d hd hintent => ?_
    have hsome := hs.donation d hd
    rw [of_decide_eq_true hintent, hnone] at hsome
    cases hsome

/-- Only unpaid intents are touched, so recorded ones stay as they are. -/
theorem Books.recorded (h : Books s t) (hs : s.Consistent) {i : PaymentIntent}
    (hi : i ∈ s.intents.rows) (hstatus : i.status = .completed) :
    i ∈ t.intents.rows ∧ t.Recorded i := by
  have hrecorded := hs.completed i hi hstatus
  have hne : ∀ {j : PaymentIntent}, s.intents.get j.pk = some j →
      (j.status = .pending ∨ j.status = .processing) → i.pk ≠ j.pk := by
    intro j hj hopen heq
    obtain rfl : i = j := Table.eq_of_pk hi (Table.mem_of_get hj) heq
    simp [hstatus] at hopen
  have hapart : ∀ {j : PaymentIntent}, s.intents.insert j = .ok t.intents →
      i ∈ t.intents.rows ∧ i.pk ≠ j.pk := by
    intro j hj
    obtain ⟨⟨-, hap⟩, hrows⟩ := Table.insert_ok.mp hj
    exact ⟨by rw [hrows]; exact List.mem_append_left _ hi, (hap i hi).1⟩
  cases h with
  | same h =>
    exact ⟨h.intents ▸ hi, hrecorded.of_counts (paymentsOf_congr h.payments _)
      (donationsOf_congr h.donations _)⟩
  | completes j p found status intents intent payments donations =>
    have hpk := hne found status
    have hnone := (hs.unpaid j (Table.mem_of_get found)
      (by rcases status with h | h <;> simp [h])).2
    refine ⟨intents.mem_iff.mpr (.inr ⟨hi, hpk⟩), hrecorded.of_counts ?_ ?_⟩
    · rw [paymentsOf_insert payments, if_neg fun heq => hpk (heq.symm.trans intent), Nat.add_zero]
    · exact (donations.donationsOf hnone).2 _ hpk
  | fails j found status intents payments donations =>
    exact ⟨intents.mem_iff.mpr (.inr ⟨hi, hne found status⟩),
      hrecorded.of_counts (paymentsOf_congr payments _) (donationsOf_congr donations _)⟩
  | intends j status payer intents payments donations =>
    exact ⟨(hapart intents).1,
      hrecorded.of_counts (paymentsOf_congr payments _) (donationsOf_congr donations _)⟩
  | renews j p d status payer intents intent payments gift donations =>
    obtain ⟨hmem, hpk⟩ := hapart intents
    refine ⟨hmem, hrecorded.of_counts ?_ ?_⟩
    · rw [paymentsOf_insert payments, if_neg fun heq => hpk (heq.symm.trans intent), Nat.add_zero]
    · rw [donationsOf_insert donations, if_neg fun heq => hpk (heq.symm.trans gift), Nat.add_zero]
  | registers u users intents payments donations =>
    exact ⟨intents ▸ hi,
      hrecorded.of_counts (paymentsOf_congr payments _) (donationsOf_congr donations _)⟩

theorem Books.converged (h : Books s t) (hs : s.Consistent) {g : String} (hg : s.Converged g) :
    t.Converged g := by
  obtain ⟨i, hi, hid, hstatus, -⟩ := hg
  obtain ⟨hi', hrecorded⟩ := h.recorded hs hi hstatus
  exact ⟨i, hi', hid, hstatus, hrecorded⟩

/-- Recorded if and only if completed. -/
def Settled (s : WebhookStore) (i : PaymentIntent) : Prop :=
  (i.status = .completed → s.Recorded i) ∧
    (i.status ≠ .completed → s.paymentsOf i.pk = 0 ∧ s.donationsOf i.pk = 0)

theorem Consistent.settled (hs : s.Consistent) {i : PaymentIntent} (hi : i ∈ s.intents.rows)
    (hpayments : t.paymentsOf i.pk = s.paymentsOf i.pk)
    (hdonations : t.donationsOf i.pk = s.donationsOf i.pk) : t.Settled i := by
  refine ⟨fun hstatus => (hs.completed i hi hstatus).of_counts hpayments hdonations,
    fun hstatus => ?_⟩
  rw [hpayments, hdonations]
  exact hs.unpaid i hi hstatus

theorem Books.settled (h : Books s t) (hs : s.Consistent) :
    ∀ i ∈ t.intents.rows, t.Settled i := by
  intro i hi
  cases h with
  | same h =>
    exact hs.settled (h.intents ▸ hi) (paymentsOf_congr h.payments _)
      (donationsOf_congr h.donations _)
  | completes j p found status intents intent payments donations =>
    have hopen : j.status ≠ .completed := by rcases status with h | h <;> simp [h]
    have hnone := hs.unpaid j (Table.mem_of_get found) hopen
    obtain ⟨hgift, hothers⟩ := donations.donationsOf hnone.2
    rcases intents.mem_iff.mp hi with rfl | ⟨hi, hne⟩
    · refine ⟨fun _ => ⟨?_, hgift⟩, fun hstatus => absurd rfl hstatus⟩
      rw [paymentsOf_insert payments, if_pos intent, hnone.1]
    · refine hs.settled hi ?_ (hothers _ hne)
      rw [paymentsOf_insert payments, if_neg fun heq => hne (heq.symm.trans intent), Nat.add_zero]
  | fails j found status intents payments donations =>
    have hopen : j.status ≠ .completed := by rcases status with h | h <;> simp [h]
    rcases intents.mem_iff.mp hi with rfl | ⟨hi, -⟩
    · refine ⟨nofun, fun _ => ?_⟩
      rw [paymentsOf_congr payments, donationsOf_congr donations]
      exact hs.unpaid j (Table.mem_of_get found) hopen
    · exact hs.settled hi (paymentsOf_congr payments _) (donationsOf_congr donations _)
  | intends j status payer intents payments donations =>
    rw [Table.mem_insert intents] at hi
    rcases hi with hi | rfl
    · exact hs.settled hi (paymentsOf_congr payments _) (donationsOf_congr donations _)
    · refine ⟨fun hstatus => ?_, fun _ => ?_⟩
      · rw [status] at hstatus
        cases hstatus
      · rw [paymentsOf_congr payments, donationsOf_congr donations]
        exact hs.fresh_payment intents
  | renews j p d status payer intents intent payments gift donations =>
    obtain ⟨hpaid, hgiven⟩ := hs.fresh_payment intents
    obtain ⟨⟨-, hapart⟩, hrows⟩ := Table.insert_ok.mp intents
    rw [hrows, List.mem_append, List.mem_singleton] at hi
    rcases hi with hi | rfl
    · have hne : j.pk ≠ i.pk := fun heq => (hapart i hi).1 heq.symm
      refine hs.settled hi ?_ ?_
      · rw [paymentsOf_insert payments, if_neg fun heq => hne (intent.symm.trans heq), Nat.add_zero]
      · rw [donationsOf_insert donations, if_neg fun heq => hne (gift.symm.trans heq), Nat.add_zero]
    · refine ⟨fun _ => ⟨?_, fun _ => ?_⟩, fun hstatus => absurd status hstatus⟩
      · rw [paymentsOf_insert payments, if_pos intent, hpaid]
      · rw [donationsOf_insert donations, if_pos gift, hgiven]
  | registers u users intents payments donations =>
    exact hs.settled (intents ▸ hi) (paymentsOf_congr payments _) (donationsOf_congr donations _)

/-- Users and intents are never removed. -/
theorem Books.kept (h : Books s t) :
    (∀ k, (s.users.get k).isSome = true → (t.users.get k).isSome = true) ∧
    ∀ k, (s.intents.get k).isSome = true → (t.intents.get k).isSome = true := by
  have hsets : ∀ {i : PaymentIntent} {status}, Sets s t i status →
      ∀ k, (s.intents.get k).isSome = true → (t.intents.get k).isSome = true := by
    intro i status hi k hk
    rw [hi]
    split
    · rfl
    · exact hk
  have hinsert : ∀ {i : PaymentIntent}, s.intents.insert i = .ok t.intents →
      ∀ k, (s.intents.get k).isSome = true → (t.intents.get k).isSome = true := by
    intro i hi k hk
    obtain ⟨j, hj⟩ := Option.isSome_iff_exists.mp hk
    rw [Table.get_of_insert hi hj]
    rfl
  cases h with
  | same h => exact ⟨fun k hk => h.users ▸ hk, fun k hk => h.intents ▸ hk⟩
  | completes i p _ _ intents _ _ _ users => exact ⟨fun k hk => users ▸ hk, hsets intents⟩
  | fails i _ _ intents _ _ users => exact ⟨fun k hk => users ▸ hk, hsets intents⟩
  | intends i _ _ intents _ _ users => exact ⟨fun k hk => users ▸ hk, hinsert intents⟩
  | renews i p d _ _ intents _ _ _ _ users => exact ⟨fun k hk => users ▸ hk, hinsert intents⟩
  | registers u users intents =>
    refine ⟨fun k hk => ?_, fun k hk => intents ▸ hk⟩
    obtain ⟨j, hj⟩ := Option.isSome_iff_exists.mp hk
    rw [Table.get_of_insert users hj]
    rfl

/-- New rows refer to rows. -/
theorem Books.refers (h : Books s t) (hs : s.Consistent) :
    (∀ i ∈ t.intents.rows, (s.users.get i.payer).isSome = true) ∧
    (∀ p ∈ t.payments.rows, (t.intents.get p.intent).isSome = true) ∧
    ∀ d ∈ t.donations.rows, (t.intents.get d.paymentIntent).isSome = true := by
  obtain ⟨-, hintents⟩ := h.kept
  have hpaid : ∀ p ∈ s.payments.rows, (t.intents.get p.intent).isSome = true :=
    fun p hp => hintents _ (hs.payment p hp)
  have hgiven : ∀ d ∈ s.donations.rows, (t.intents.get d.paymentIntent).isSome = true :=
    fun d hd => hintents _ (hs.donation d hd)
  have hpays : ∀ {p : Payment}, s.payments.insert p = .ok t.payments →
      (t.intents.get p.intent).isSome = true →
      ∀ p ∈ t.payments.rows, (t.intents.get p.intent).isSome = true := by
    intro p hp hsome p' hp'
    rw [Table.mem_insert hp] at hp'
    rcases hp' with hp' | rfl
    · exact hpaid p' hp'
    · exact hsome
  have hgifts : ∀ {d : Donation}, s.donations.insert d = .ok t.donations →
      (t.intents.get d.paymentIntent).isSome = true →
      ∀ d ∈ t.donations.rows, (t.intents.get d.paymentIntent).isSome = true := by
    intro d hd hsome d' hd'
    rw [Table.mem_insert hd] at hd'
    rcases hd' with hd' | rfl
    · exact hgiven d' hd'
    · exact hsome
  have hadded : ∀ {i : PaymentIntent}, s.intents.insert i = .ok t.intents →
      (s.users.get i.payer).isSome = true →
      (∀ j ∈ t.intents.rows, (s.users.get j.payer).isSome = true) ∧
        (t.intents.get i.pk).isSome = true := by
    intro i hi hpayer
    obtain ⟨-, hrows⟩ := Table.insert_ok.mp hi
    refine ⟨fun j hj => ?_, ?_⟩
    · rw [hrows, List.mem_append, List.mem_singleton] at hj
      rcases hj with hj | rfl
      · exact hs.payer j hj
      · exact hpayer
    · rw [show t.intents.get i.pk = some i from (Table.get_insert hi i.pk).trans (if_pos rfl)]
      rfl
  have hstays : ∀ {i : PaymentIntent} {status}, Sets s t i status → s.intents.get i.pk = some i →
      ∀ j ∈ t.intents.rows, (s.users.get j.payer).isSome = true := by
    intro i status hi hfound j hj
    rcases hi.mem_iff.mp hj with rfl | ⟨hj, -⟩
    · exact hs.payer i (Table.mem_of_get hfound)
    · exact hs.payer j hj
  cases h with
  | same h => exact ⟨h.intents ▸ hs.payer, h.payments ▸ hpaid, h.donations ▸ hgiven⟩
  | completes i p found _ intents intent payments donations =>
    have hsome : (t.intents.get i.pk).isSome = true := by
      rw [intents, if_pos rfl]
      rfl
    refine ⟨hstays intents found, hpays payments (intent ▸ hsome), ?_⟩
    rcases donations with ⟨hsame, -⟩ | ⟨-, d, hd, hinsert⟩
    · exact hsame ▸ hgiven
    · exact hgifts hinsert (hd ▸ hsome)
  | fails i found _ intents payments donations =>
    exact ⟨hstays intents found, payments ▸ hpaid, donations ▸ hgiven⟩
  | intends i _ payer intents payments donations =>
    exact ⟨(hadded intents payer).1, payments ▸ hpaid, donations ▸ hgiven⟩
  | renews i p d _ payer intents intent payments gift donations =>
    obtain ⟨hpayers, hsome⟩ := hadded intents payer
    exact ⟨hpayers, hpays payments (intent ▸ hsome), hgifts donations (gift ▸ hsome)⟩
  | registers u users intents payments donations =>
    exact ⟨intents ▸ hs.payer, payments ▸ hpaid, donations ▸ hgiven⟩

theorem Books.consistent (h : Books s t) (hs : s.Consistent) : t.Consistent := by
  obtain ⟨hpayer, hpayment, hdonation⟩ := h.refers hs
  have hsettled := h.settled hs
  exact ⟨fun i hi => h.kept.1 _ (hpayer i hi), fun i hi => (hsettled i hi).1,
    fun i hi => (hsettled i hi).2, hpayment, hdonation⟩

end WebhookStore

/-! ## Events -/

/-- The gateway's intent that a verified event reports as paid. -/
def WebhookEvent.reports (e : WebhookEvent) : Option String :=
  match e.payload with
  | .paymentIntentSucceeded d =>
    if e.signatureVerified = true ∧ d.gatewayIntentId ≠ "" then some d.gatewayIntentId else none
  | _ => none

/-- The task has been at the event: it applied it, or recorded an error. -/
def WebhookEvent.isHandled (e : WebhookEvent) : Prop := e.processed = true ∨ e.error ≠ ""

theorem WebhookEvent.reports_eq_some {e : WebhookEvent} {g : String} (h : e.reports = some g) :
    ∃ d, e.payload = .paymentIntentSucceeded d ∧ d.gatewayIntentId ≠ "" ∧
      d.gatewayIntentId = g := by
  unfold WebhookEvent.reports at h
  split at h
  next d hpayload =>
    obtain ⟨hreported, hg⟩ := Option.ite_none_right_eq_some.mp h
    exact ⟨d, hpayload, hreported.2, Option.some.inj hg⟩
  next => cases h

namespace WebhookStore

variable {s t : WebhookStore}

/-- Every reported payment whose event was handled is in the books. -/
def Delivered (s : WebhookStore) : Prop :=
  ∀ e ∈ s.events.rows, ∀ g, e.reports = some g → e.isHandled → s.Converged g

/-- An event stays, and goes on reporting the same. -/
def EventsKept (s t : WebhookStore) : Prop :=
  ∀ k e, s.events.get k = some e → ∃ e', t.events.get k = some e' ∧ e'.reports = e.reports

theorem EventsKept.of_same (h : t.events = s.events) : EventsKept s t :=
  fun k e he => ⟨e, by rw [h]; exact he, rfl⟩

/-- Rewriting the marks of one event. -/
theorem events_update {k : Uuid} {f : WebhookEvent → WebhookEvent}
    (h : s.events.update k f = .ok t.events)
    (hf : ∀ e, (f e).pk = e.pk ∧ (f e).reports = e.reports) : EventsKept s t ∧
      ∀ e' ∈ t.events.rows, ∃ e ∈ s.events.rows, e'.reports = e.reports ∧ (e.pk ≠ k → e' = e) := by
  cases hget : s.events.get k with
  | none =>
    rw [Table.update_of_none hget, Except.ok.injEq] at h
    exact ⟨.of_same h.symm, fun e he => ⟨e, h ▸ he, rfl, fun _ => rfl⟩⟩
  | some e₁ =>
    have hpk : e₁.pk = k := Table.pk_of_get hget
    constructor
    · intro j e he
      rw [Table.get_update h hget ((hf e₁).1.trans hpk)]
      split
      next hkj =>
        obtain rfl : e₁ = e := Option.some.inj (hget.symm.trans (hkj ▸ he))
        exact ⟨_, rfl, (hf e₁).2⟩
      next => exact ⟨e, he, rfl⟩
    · intro e' he'
      rcases (Table.mem_update h hget).mp he' with ⟨he', -⟩ | rfl
      · exact ⟨e', he', rfl, fun _ => rfl⟩
      · exact ⟨e₁, Table.mem_of_get hget, (hf e₁).2, fun hne => absurd hpk hne⟩

/-- A handled event is marked after its payment is in the books. -/
theorem Delivered.update {k : Uuid} {f : WebhookEvent → WebhookEvent} (hs : s.Delivered)
    (hbooks : ∀ g, s.Converged g → t.Converged g) (h : s.events.update k f = .ok t.events)
    (hf : ∀ e, (f e).pk = e.pk ∧ (f e).reports = e.reports)
    (hk : ∀ e, s.events.get k = some e → ∀ g, e.reports = some g → t.Converged g) :
    t.Delivered := by
  intro e' he' g hg hhandled
  obtain ⟨e, he, hreports, hothers⟩ := (events_update h hf).2 e' he'
  rw [hreports] at hg
  by_cases hpk : e.pk = k
  · exact hk e (Table.get_eq_some.mpr ⟨he, hpk⟩) g hg
  · rw [hothers hpk] at hhandled
    exact hbooks g (hs e he g hg hhandled)

theorem Delivered.of_same (hs : s.Delivered) (hbooks : ∀ g, s.Converged g → t.Converged g)
    (h : t.events = s.events) : t.Delivered := by
  intro e he g hg hhandled
  rw [h] at he
  exact hbooks g (hs e he g hg hhandled)

end WebhookStore

/-! ## Rows that the tables accept -/

open WebhookStore WebhookHandler

/-- The donation of a one-time gift passes the checks of its table. -/
def donationFits (s : WebhookStore) (i : PaymentIntent) (amount : Cents) (c : WebhookChoice) :
    Bool :=
  match resolveCampaign s i, s.users.get i.payer with
  | .ok campaign, some donor =>
    match donorLegalName i donor with
    | .ok name => ∀ x ∈ Donation.schema.checks,
        x.holds (donationRow i amount campaign name donor c.french c.now s.donations.next) = true
    | .error _ => false
  | _, _ => false

/-- The reported payment can be recorded: the intent is known by its id, it is not closed, no
payment has the charge, and the rows pass the checks of their tables. -/
def payable (s : WebhookStore) (d : PaymentSucceeded) (c : WebhookChoice) : Bool :=
  match s.intentsFor d.gatewayIntentId with
  | [i] => i.status = .completed ∨
      (i.status = .pending ∨ i.status = .processing) ∧
      (∀ p ∈ s.payments.rows, p.gatewayChargeId ≠ d.gatewayChargeId) ∧
      (∀ x ∈ Payment.schema.checks, x.holds (paymentRow d i.pk c.now s.payments.next) = true) ∧
      (i.isOneTimeDonation = true → donationFits s i d.amountPaid c = true)
  | _ => false

/-- Whenever the handler of a reported payment runs, the payment is payable. -/
def Payable (s : WebhookStore) (p : WebhookWorker) (c : WebhookChoice) : Prop :=
  match p with
  | .handling e =>
    match e.payload with
    | .paymentIntentSucceeded d => d.gatewayIntentId = "" ∨ payable s d c = true
    | _ => True
  | _ => True

instance (s : WebhookStore) (p : WebhookWorker) (c : WebhookChoice) :
    Decidable (Payable s p c) := by
  unfold Payable
  split
  · split <;> infer_instance
  · infer_instance

section Returns

variable {s t : WebhookStore} {i : PaymentIntent}

theorem transition_returns (status : IntentStatus) (hfound : s.intents.get i.pk = some i)
    (hallowed : status ∈ i.status.allowedTransitions) :
    ∃ t, transition i.pk status s = .ok ((), t) := by
  have hvalid : PaymentIntent.schema.Valid { i with status } :=
    fun x hx => by
      have hold := s.intents.valid i (Table.mem_of_get hfound) x hx
      rw [PaymentIntent.schema, List.mem_singleton] at hx
      subst hx
      exact hold
  obtain ⟨⟨_, t⟩, hwrite⟩ : Returns (write intentTable PaymentError.ofViolation i.pk
      fun row => { row with status }) s :=
    write_returns hfound hvalid rfl fun _ hx => absurd hx List.not_mem_nil
  refine ⟨t, bind_ok.mpr ⟨i, s, lookup_of_get hfound, ?_⟩⟩
  rw [if_pos hallowed]
  exact hwrite

/-- An open intent can be completed. -/
theorem completed_returns (hfound : s.intents.get i.pk = some i)
    (hopen : i.status = .pending ∨ i.status = .processing) :
    ∃ t₁ t₂, startProcessing i s = .ok ((), t₁) ∧ transition i.pk .completed t₁ = .ok ((), t₂) := by
  unfold startProcessing
  rcases hopen with hstatus | hstatus
  · obtain ⟨t₁, h₁⟩ := transition_returns .processing hfound
      (by simp [hstatus, IntentStatus.allowedTransitions])
    obtain ⟨i₁, hget₁, -, -, -, hsets₁⟩ := transition_ok h₁
    obtain rfl : i = i₁ := Option.some.inj (hfound.symm.trans hget₁)
    have hfound₁ : t₁.intents.get i.pk = some { i with status := .processing } := by
      rw [hsets₁, if_pos rfl]
    obtain ⟨t₂, h₂⟩ := transition_returns (i := { i with status := .processing })
      .completed hfound₁ (by simp [IntentStatus.allowedTransitions])
    exact ⟨t₁, t₂, by rw [if_pos hstatus, h₁], h₂⟩
  · obtain ⟨t₂, h₂⟩ := transition_returns .completed hfound
      (by simp [hstatus, IntentStatus.allowedTransitions])
    exact ⟨s, t₂, by rw [if_neg (by simp [hstatus])]; rfl, h₂⟩

theorem recordGift_returns {amount : Cents} {c : WebhookChoice}
    (hfits : i.isOneTimeDonation = true → donationFits s i amount c = true) :
    ∃ t, recordGift i amount c.french c.now s = .ok ((), t) := by
  unfold recordGift
  split
  next hpurpose =>
    unfold handleOneTimeDonation
    split
    · exact ⟨s, rfl⟩
    next hrecurring =>
      have hfits := hfits (by simp [PaymentIntent.isOneTimeDonation, hpurpose, hrecurring])
      unfold donationFits at hfits
      split at hfits
      next campaign donor hcampaign hdonor =>
        cases hname : donorLegalName i donor with
        | error e => simp [hname] at hfits
        | ok name =>
          simp only [hname, decide_eq_true_eq] at hfits
          have hcreate : Returns (create donationTable PaymentError.ofViolation
              (donationRow i amount campaign name donor c.french c.now)) s :=
            (create_returns rfl).mpr ⟨hfits, fun _ _ _ hx => absurd hx List.not_mem_nil⟩
          obtain ⟨⟨d, t⟩, hd⟩ := hcreate
          rw [bind_of_ok get_apply]
          split
          · exact ⟨s, rfl⟩
          · refine ⟨t, ?_⟩
            rw [bind_of_ok (lift_ok.mpr ⟨hcampaign, rfl⟩), bind_of_ok (lookup_of_get hdonor),
              bind_of_ok (lift_ok.mpr ⟨hname, rfl⟩), bind_of_ok hd]
            rfl
      next => cases hfits
  next => exact ⟨s, rfl⟩

theorem donationFits_congr {amount : Cents} {c : WebhookChoice}
    (hcampaigns : t.campaigns = s.campaigns)
    (husers : t.users = s.users) (hdonations : t.donations = s.donations) :
    donationFits t i amount c = donationFits s i amount c := by
  simp only [donationFits, resolveCampaign, hcampaigns, husers, hdonations]

theorem markProcessed_returns (event : Uuid) (now : Instant) :
    ∃ t, markProcessed event now s = .ok ((), t) := by
  cases hget : s.events.get event with
  | none =>
    exact ⟨s, write_ok.mpr ⟨s.events, Table.update_of_none hget, rfl⟩⟩
  | some e =>
    have hvalid : WebhookEvent.schema.Valid
        { e with processed := true, processedAt := some now, error := "" } := by
      intro x hx
      have hold := s.events.valid e (Table.mem_of_get hget) x hx
      rw [WebhookEvent.schema, List.mem_singleton] at hx
      subst hx
      exact hold
    obtain ⟨⟨_, t⟩, hwrite⟩ : Returns (markProcessed event now) s :=
      write_returns hget hvalid rfl fun x hx => by
        rw [WebhookEvent.schema, List.mem_singleton] at hx
        subst hx
        rfl
    exact ⟨t, hwrite⟩

/-- What a payable event of an open intent does. -/
theorem complete_returns (event : WebhookEvent) {d : PaymentSucceeded} {c : WebhookChoice}
    (hs : s.Consistent) (hfound : s.intents.get i.pk = some i)
    (hopen : i.status = .pending ∨ i.status = .processing)
    (hcharge : ∀ p ∈ s.payments.rows, p.gatewayChargeId ≠ d.gatewayChargeId)
    (hvalid : ∀ x ∈ Payment.schema.checks, x.holds (paymentRow d i.pk c.now s.payments.next) = true)
    (hfits : i.isOneTimeDonation = true → donationFits s i d.amountPaid c = true) :
    ∃ t, complete event d i c.french c.now s = .ok ((), t) := by
  obtain ⟨t₁, t₂, h₁, h₂⟩ := completed_returns hfound hopen
  obtain ⟨-, ht₂, -⟩ := completed_ok hfound h₁ h₂
  have hnone := hs.unpaid i (Table.mem_of_get hfound) (by rcases hopen with h | h <;> simp [h])
  have hcreate : Returns (create paymentTable PaymentError.ofViolation (paymentRow d i.pk c.now))
    t₂ := by
    rw [ht₂]
    refine (create_returns rfl).mpr ⟨hvalid, fun p hp x hx hclash => ?_⟩
    rw [Payment.schema] at hx
    rcases List.mem_cons.mp hx with rfl | hx
    · have hzero := List.countP_eq_zero.mp hnone.1 p hp
      exact hzero (decide_eq_true (Option.some.inj hclash.2))
    · rw [List.mem_singleton] at hx
      subst hx
      exact hcharge p hp (Option.some.inj hclash.2)
  obtain ⟨⟨p, t₃⟩, h₃⟩ := hcreate
  obtain ⟨hp, T, -, ht₃⟩ := create_ok.mp h₃
  have hamount : p.amountPaid = d.amountPaid := congrArg Payment.amountPaid hp
  obtain ⟨t₅, h₅⟩ : ∃ t, recordGift i p.amountPaid c.french c.now
      { t₃ with audits := t₃.audits ++ [{
        action := .paymentCompleted
        paymentIntent := i.pk
        payment := p.pk
        details := [("gateway_event_id", .str event.gatewayEventId),
          ("payment_pk", .str (toString p.pk))] }] } = .ok ((), t) := by
    refine recordGift_returns fun honce => ?_
    rw [hamount, donationFits_congr (s := s)]
    · exact hfits honce
    · rw [ht₃, ht₂]
      rfl
    · rw [ht₃, ht₂]
      rfl
    · rw [ht₃, ht₂]
      rfl
  refine ⟨t₅, ?_⟩
  rw [complete, bind_of_ok h₁, bind_of_ok h₂, bind_of_ok h₃]
  exact h₅

end Returns

section Dispatch

variable {s t : WebhookStore} {e : WebhookEvent} {d : PaymentSucceeded} {c : WebhookChoice}

/-- Handling a payable event puts the payment into the books, or finds it there. -/
theorem dispatch_converges (hs : s.Consistent) (hpayload : e.payload = .paymentIntentSucceeded d)
    (hid : d.gatewayIntentId ≠ "") (hpayable : payable s d c = true) :
    s.Converged d.gatewayIntentId ∨
      ∃ t, dispatch e c.french c.now s = .ok ((), t) ∧ t.Converged d.gatewayIntentId := by
  unfold payable at hpayable
  split at hpayable
  next i hi =>
    obtain ⟨hfound, hgateway⟩ := intentsFor_singleton hi
    rcases of_decide_eq_true hpayable with hstatus | ⟨hopen, hcharge, hvalid, hfits⟩
    · have hmem := Table.mem_of_get hfound
      exact .inl ⟨i, hmem, hgateway, hstatus, hs.completed i hmem hstatus⟩
    · obtain ⟨t₁, h₁⟩ := complete_returns e hs hfound hopen hcharge hvalid hfits
      obtain ⟨t₂, h₂⟩ := markProcessed_returns (s := t₁) e.pk c.now
      have hhandler : handler e c.french c.now s = .ok ((), t₁) := by
        have hfree : ¬ (d.gatewayChargeId ≠ "" ∧
            s.payments.rows.any (·.gatewayChargeId = d.gatewayChargeId) = true) := by
          rintro ⟨-, hany⟩
          obtain ⟨p, hp, heq⟩ := List.any_eq_true.mp hany
          exact hcharge p hp (of_decide_eq_true heq)
        simp only [handler, hpayload, handlePaymentIntentSucceeded, if_neg hid]
        rw [bind_of_ok get_apply, if_neg hfree]
        simp only [hi]
        exact h₁
      refine .inr ⟨t₂, by rw [dispatch, bind_of_ok hhandler, h₂], ?_⟩
      obtain ⟨-, p, -, -, hsets, -⟩ := complete_ok hfound h₁
      have hbooks := (handler_ok hhandler).2
      have hmem : { i with status := .completed } ∈ t₁.intents.rows := hsets.mem_iff.mpr (.inl rfl)
      have hconverged : t₁.Converged d.gatewayIntentId :=
        ⟨_, hmem, hgateway, rfl, (hbooks.consistent hs).completed _ hmem rfl⟩
      exact Books.converged (.same (markProcessed_ok h₂).1) (hbooks.consistent hs) hconverged
  next => cases hpayable

end Dispatch

/-! ## Runs -/

/-- What is known while a delivery is under way. -/
def WebhookWorker.Knows (s : WebhookStore) : WebhookWorker → Prop
  | .refusing k _ => ∃ e, s.events.get k = some e ∧ e.reports = none
  | .skipping k => ∃ e, s.events.get k = some e ∧ e.reports = none
  | .handling e => e.signatureVerified = true ∧
      ∃ e', s.events.get e.pk = some e' ∧ e'.reports = e.reports
  | .failing e _ => (∃ e', s.events.get e.pk = some e' ∧ e'.reports = e.reports) ∧
      ∀ g, e.reports = some g → s.Converged g
  | _ => True

theorem WebhookWorker.Knows.mono {s t : WebhookStore} {p : WebhookWorker} (h : p.Knows s)
    (hevents : EventsKept s t) (hbooks : ∀ g, s.Converged g → t.Converged g) : p.Knows t := by
  cases p with
  | refusing k error =>
    obtain ⟨e, he, hreports⟩ := h
    obtain ⟨e', he', hsame⟩ := hevents k e he
    exact ⟨e', he', hsame.trans hreports⟩
  | skipping k =>
    obtain ⟨e, he, hreports⟩ := h
    obtain ⟨e', he', hsame⟩ := hevents k e he
    exact ⟨e', he', hsame.trans hreports⟩
  | handling e =>
    obtain ⟨hverified, e₁, he₁, hreports⟩ := h
    obtain ⟨e', he', hsame⟩ := hevents _ e₁ he₁
    exact ⟨hverified, e', he', hsame.trans hreports⟩
  | failing e error =>
    obtain ⟨⟨e₁, he₁, hreports⟩, hconverged⟩ := h
    obtain ⟨e', he', hsame⟩ := hevents _ e₁ he₁
    exact ⟨⟨e', he', hsame.trans hreports⟩, fun g hg => hbooks g (hconverged g hg)⟩
  | _ => trivial

theorem classify_knows {s : WebhookStore} {e : WebhookEvent} (he : s.events.get e.pk = some e) :
    (WebhookWorker.classify e).Knows s := by
  unfold WebhookWorker.classify
  split
  · trivial
  split
  next hunverified =>
    refine ⟨e, he, ?_⟩
    unfold WebhookEvent.reports
    split
    · exact if_neg fun h => hunverified h.1
    · rfl
  next hverified =>
    cases hpayload : e.payload with
    | malformed exception code => exact ⟨e, he, by rw [WebhookEvent.reports, hpayload]⟩
    | unhandled => exact ⟨e, he, by rw [WebhookEvent.reports, hpayload]⟩
    | paymentIntentSucceeded d => exact ⟨of_not_not hverified, e, he, rfl⟩
    | paymentIntentFailed g reason => exact ⟨of_not_not hverified, e, he, rfl⟩

/-- Marks that the task leaves outside of the handler. -/
theorem marks_ok {s : WebhookStore} {k : Uuid} {f : WebhookEvent → WebhookEvent}
    {x : WebhookTx Unit} (hx : x = write eventTable .ofViolation k f)
    (hf : ∀ e, (f e).pk = e.pk ∧ (f e).reports = e.reports) (hs : s.Consistent ∧ s.Delivered)
    (hk : ∀ e, s.events.get k = some e → ∀ g, e.reports = some g → s.Converged g) :
    ((commit x s).2.Consistent ∧ (commit x s).2.Delivered) ∧
      EventsKept s (commit x s).2 ∧ ∀ g, s.Converged g → (commit x s).2.Converged g := by
  cases hok : x s with
  | error error =>
    rw [commit_of_error hok]
    exact ⟨hs, .of_same rfl, fun _ => id⟩
  | ok r =>
    rw [commit_of_ok hok]
    rw [hx] at hok
    obtain ⟨T, hupdate, ht⟩ := write_ok.mp hok
    have hsame : SameBooks s r.2 := by rw [ht]; exact ⟨rfl, rfl, rfl, rfl⟩
    have hevents : s.events.update k f = .ok r.2.events := by rw [ht]; exact hupdate
    have hbooks : ∀ g, s.Converged g → r.2.Converged g := fun g => (Books.same hsame).converged hs.1
    exact ⟨⟨(Books.same hsame).consistent hs.1, hs.2.update hbooks hevents hf fun e he g hg =>
      hbooks g (hk e he g hg)⟩, (events_update hevents hf).1, hbooks⟩

/-- The handler of a payable event. -/
theorem handling_knows {s t : WebhookStore} {e : WebhookEvent} {q : WebhookWorker}
    {c : WebhookChoice}
    (hs : s.Consistent ∧ s.Delivered) (hp : WebhookWorker.Knows s (.handling e))
    (hpayable : Payable s (.handling e) c)
    (h : WebhookWorker.act s (.handling e) c = some (t, q)) :
    (t.Consistent ∧ t.Delivered) ∧ q.Knows t ∧ EventsKept s t ∧
      ∀ g, s.Converged g → t.Converged g := by
  obtain ⟨-, e', he', hreports⟩ := hp
  have hconverges : ∀ g, e.reports = some g → s.Converged g ∨
      ∃ t, dispatch e c.french c.now s = .ok ((), t) ∧ t.Converged g := by
    intro g hg
    obtain ⟨d, hpayload, hid, rfl⟩ := WebhookEvent.reports_eq_some hg
    simp only [Payable, hpayload] at hpayable
    exact dispatch_converges hs.1 hpayload hid (hpayable.resolve_left hid)
  cases hok : dispatch e c.french c.now s with
  | error error =>
    simp only [WebhookWorker.act, hok, Option.some.injEq, Prod.mk.injEq] at h
    obtain ⟨rfl, rfl⟩ := h
    refine ⟨hs, ⟨⟨e', he', hreports⟩, fun g hg => ?_⟩, .of_same rfl, fun _ => id⟩
    rcases hconverges g hg with hconverged | ⟨t, ht, -⟩
    · exact hconverged
    · rw [hok] at ht
      cases ht
  | ok r =>
    simp only [WebhookWorker.act, hok, Option.some.injEq, Prod.mk.injEq] at h
    obtain ⟨rfl, rfl⟩ := h
    obtain ⟨hbooks, hupdate⟩ := dispatch_ok hok
    have hmono : ∀ g, s.Converged g → r.2.Converged g := fun g => hbooks.converged hs.1
    have hmarks : ∀ e₁, s.events.get e.pk = some e₁ → ∀ g, e₁.reports = some g →
        r.2.Converged g := by
      intro e₁ he₁ g hg
      obtain rfl : e' = e₁ := Option.some.inj (he'.symm.trans he₁)
      rcases hconverges g (hreports.symm.trans hg) with hconverged | ⟨t, ht, hconverged⟩
      · exact hmono g hconverged
      · rw [hok] at ht
        cases ht
        exact hconverged
    exact ⟨⟨hbooks.consistent hs.1, hs.2.update hmono hupdate (fun _ => ⟨rfl, rfl⟩) hmarks⟩,
      trivial, (events_update hupdate fun _ => ⟨rfl, rfl⟩).1, hmono⟩

theorem WebhookWorker.act_knows {s t : WebhookStore} {p q : WebhookWorker} {c : WebhookChoice}
    (hs : s.Consistent ∧ s.Delivered) (hp : p.Knows s) (hpayable : Payable s p c)
    (h : WebhookWorker.act s p c = some (t, q)) :
    (t.Consistent ∧ t.Delivered) ∧ q.Knows t ∧ EventsKept s t ∧
      ∀ g, s.Converged g → t.Converged g := by
  have hsilent : ∀ {k : Uuid} {e : WebhookEvent}, s.events.get k = some e → e.reports = none →
      ∀ e, s.events.get k = some e → ∀ g, e.reports = some g → s.Converged g := by
    intro k e he hreports e₁ he₁ g hg
    obtain rfl : e = e₁ := Option.some.inj (he.symm.trans he₁)
    rw [hreports] at hg
    cases hg
  cases p with
  | task k =>
    cases he : s.events.get k with
    | none =>
      simp only [WebhookWorker.act, he, Option.some.injEq, Prod.mk.injEq] at h
      obtain ⟨rfl, rfl⟩ := h
      exact ⟨hs, trivial, .of_same rfl, fun _ => id⟩
    | some e =>
      simp only [WebhookWorker.act, he, Option.some.injEq, Prod.mk.injEq] at h
      obtain ⟨rfl, rfl⟩ := h
      have hpk : e.pk = k := Table.pk_of_get he
      exact ⟨hs, classify_knows (hpk ▸ he), .of_same rfl, fun _ => id⟩
  | refusing k error =>
    cases h
    obtain ⟨e, he, hreports⟩ := hp
    obtain ⟨hs', hevents, hbooks⟩ := marks_ok (x := WebhookWorker.saveError k error id) rfl
      (fun _ => ⟨rfl, rfl⟩) hs (hsilent he hreports)
    exact ⟨hs', trivial, hevents, hbooks⟩
  | skipping k =>
    cases h
    obtain ⟨e, he, hreports⟩ := hp
    obtain ⟨hs', hevents, hbooks⟩ := marks_ok (x := markProcessed k c.now) rfl
      (fun _ => ⟨rfl, rfl⟩) hs (hsilent he hreports)
    exact ⟨hs', trivial, hevents, hbooks⟩
  | handling e => exact handling_knows hs hp hpayable h
  | failing e error =>
    cases h
    obtain ⟨⟨e', he', hreports⟩, hconverged⟩ := hp
    obtain ⟨hs', hevents, hbooks⟩ := marks_ok
      (x := WebhookWorker.saveError e.pk error.typeName fun _ => 1) rfl (fun _ => ⟨rfl, rfl⟩) hs
      fun e₁ he₁ g hg => by
        obtain rfl : e' = e₁ := Option.some.inj (he'.symm.trans he₁)
        exact hconverged g (hreports.symm.trans hg)
    exact ⟨hs', trivial, hevents, hbooks⟩
  | raised error => cases h
  | done => cases h
  | dead => cases h

theorem renewal_ok {s t : WebhookStore} {payer : Uuid} {charge : String} {amount : Cents}
    {campaign : Option Uuid} {name address : String} {now : Instant} {u : Unit}
    (hpayer : (s.users.get payer).isSome = true)
    (h : PortalWriter.renewal payer charge amount campaign name address now s = .ok (u, t)) :
    Books s t ∧ t.events = s.events := by
  obtain ⟨i, s₁, hi, h₁⟩ := bind_ok.mp h
  obtain ⟨hrow, T, hintent, rfl⟩ := create_ok.mp hi
  obtain ⟨p, s₂, hp, h₂⟩ := bind_ok.mp h₁
  obtain ⟨hpaid, T', hpayment, rfl⟩ := create_ok.mp hp
  obtain ⟨d, s₃, hd, h₃⟩ := bind_ok.mp h₂
  obtain ⟨hgiven, T'', hdonation, rfl⟩ := create_ok.mp hd
  cases h₃
  have hpayer' : (s.users.get i.payer).isSome = true := by
    rw [hrow]
    exact hpayer
  exact ⟨.renews i p d (congrArg PaymentIntent.status hrow) hpayer' hintent
    (congrArg Payment.intent hpaid) hpayment (congrArg Donation.paymentIntent hgiven) hdonation rfl,
    rfl⟩

/-- The portal only adds rows, and events that nobody has handled. -/
theorem PortalWriter.write_ok {s t : WebhookStore} {x : PortalWriter} (h : x.write s = some t) :
    Books s t ∧ (t.events = s.events ∨ ∃ e, ¬ e.isHandled ∧ s.events.insert e = .ok t.events) := by
  have hsame : Books s s ∧ (s.events = s.events ∨ ∃ e, ¬ e.isHandled ∧
      s.events.insert e = .ok s.events) := ⟨.same (.refl s), .inl rfl⟩
  cases x with
  | register u =>
    cases h
    cases hok : Transaction.create userTable PaymentError.ofViolation
      (fun pk => { u with pk }) s with
    | error e => rw [commit_of_error hok]; exact hsame
    | ok r =>
      obtain ⟨-, T, hinsert, ht⟩ := create_ok.mp hok
      rw [commit_of_ok hok, ht]
      exact ⟨.registers _ hinsert rfl rfl rfl, .inl rfl⟩
  | launch c =>
    cases h
    cases hok : Transaction.create campaignTable PaymentError.ofViolation
      (fun pk => { c with pk }) s with
    | error e => rw [commit_of_error hok]; exact hsame
    | ok r =>
      obtain ⟨-, T, -, ht⟩ := create_ok.mp hok
      rw [commit_of_ok hok, ht]
      exact ⟨.same ⟨rfl, rfl, rfl, rfl⟩, .inl rfl⟩
  | intend i =>
    obtain ⟨hpayer, ht⟩ := Option.ite_none_right_eq_some.mp h
    cases ht
    cases hok : Transaction.create intentTable PaymentError.ofViolation
        (fun pk => { i with pk, status := .pending }) s with
    | error e => rw [commit_of_error hok]; exact hsame
    | ok r =>
      obtain ⟨hrow, T, hinsert, ht⟩ := create_ok.mp hok
      rw [commit_of_ok hok, ht]
      have hpayer' : (s.users.get r.1.payer).isSome = true := by
        rw [hrow]
        exact hpayer
      exact ⟨.intends r.1 (congrArg PaymentIntent.status hrow) hpayer' hinsert rfl rfl
        rfl, .inl rfl⟩
  | renew payer charge amount campaign name address now =>
    obtain ⟨hpayer, ht⟩ := Option.ite_none_right_eq_some.mp h
    cases ht
    cases hok : renewal payer charge amount campaign name address now s with
    | error e => rw [commit_of_error hok]; exact hsame
    | ok r =>
      obtain ⟨hbooks, hevents⟩ := renewal_ok hpayer hok
      rw [commit_of_ok hok]
      exact ⟨hbooks, .inl hevents⟩
  | receive id payload verified =>
    cases h
    cases hok : Transaction.create eventTable PaymentError.ofViolation
        (fun pk => { pk, gatewayEventId := id, payload, signatureVerified := verified }) s with
    | error e => rw [commit_of_error hok]; exact hsame
    | ok r =>
      obtain ⟨hrow, T, hinsert, ht⟩ := create_ok.mp hok
      rw [commit_of_ok hok, ht]
      refine ⟨.same ⟨rfl, rfl, rfl, rfl⟩, .inr ⟨r.1, ?_, hinsert⟩⟩
      rw [hrow]
      simp [WebhookEvent.isHandled]

def tenDollars : PaymentSucceeded where
  gatewayIntentId := "pi"
  gatewayChargeId := "ch"
  amountPaid := 1000

/-- A gift of ten dollars, with a failed attempt among the events. -/
def gift : List (Pool.Label WebhookWorker WebhookChoice PortalWriter) := [
  .env (.register { pk := 0, firstName := "A" }),
  .env (.intend { pk := 0, payer := 1, purpose := .donation, gatewayIntentId := "pi" }),
  .env (.receive "e1" (.paymentIntentSucceeded tenDollars) true),
  .env (.receive "e2" (.paymentIntentFailed "pi" "card_declined") true),
  .spawn (.task 1), .spawn (.task 2), .spawn (.task 1)]

/-- Two deliveries of the success, the failure in between. -/
def given : Pool.State WebhookStore WebhookWorker :=
  (webhooks.under Payable).machine.final ⟨{}, []⟩ (gift ++ [
    .act 0 {}, .act 2 {}, .act 0 {}, .act 1 {}, .act 1 {}, .act 1 {}, .act 2 {}])

end Civicos.Payments
