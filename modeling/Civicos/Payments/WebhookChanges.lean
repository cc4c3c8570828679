import Civicos.Payments.Webhook

/-!
# What webhooks change

Every transaction of the webhook task and of the portal does one of a few things to intents,
payments and donations.
-/
namespace Civicos.Payments

open Library Library.Transaction

namespace WebhookStore

variable {s t u : WebhookStore}

/-- The books are left alone. -/
structure SameBooks (s t : WebhookStore) : Prop where
  users : t.users = s.users
  intents : t.intents = s.intents
  payments : t.payments = s.payments
  donations : t.donations = s.donations

theorem SameBooks.refl (s : WebhookStore) : SameBooks s s := ⟨rfl, rfl, rfl, rfl⟩

/-- One intent changes its status. -/
def Sets (s t : WebhookStore) (i : PaymentIntent) (status : IntentStatus) : Prop :=
  ∀ k, t.intents.get k = if i.pk = k then some { i with status } else s.intents.get k

/-- A donation is recorded for an intent, unless it is not a one-time gift or has one already. -/
def Gives (s t : WebhookStore) (i : PaymentIntent) : Prop :=
  (t.donations = s.donations ∧
    (i.isOneTimeDonation = true → ∃ d ∈ s.donations.rows, d.paymentIntent = i.pk)) ∨
  (i.isOneTimeDonation = true ∧
    ∃ d, d.paymentIntent = i.pk ∧ s.donations.insert d = .ok t.donations)

/-- Everything that can happen to the books. -/
inductive Books (s t : WebhookStore) : Prop
  | same (h : SameBooks s t)
  | completes (i : PaymentIntent) (p : Payment) (found : s.intents.get i.pk = some i)
      (status : i.status = .pending ∨ i.status = .processing) (intents : Sets s t i .completed)
      (intent : p.intent = i.pk) (payments : s.payments.insert p = .ok t.payments)
      (donations : Gives s t i) (users : t.users = s.users)
  | fails (i : PaymentIntent) (found : s.intents.get i.pk = some i)
      (status : i.status = .pending ∨ i.status = .processing) (intents : Sets s t i .failed)
      (payments : t.payments = s.payments) (donations : t.donations = s.donations)
      (users : t.users = s.users)
  | intends (i : PaymentIntent) (status : i.status = .pending)
      (payer : (s.users.get i.payer).isSome = true) (intents : s.intents.insert i = .ok t.intents)
      (payments : t.payments = s.payments) (donations : t.donations = s.donations)
      (users : t.users = s.users)
  | renews (i : PaymentIntent) (p : Payment) (d : Donation) (status : i.status = .completed)
      (payer : (s.users.get i.payer).isSome = true) (intents : s.intents.insert i = .ok t.intents)
      (intent : p.intent = i.pk) (payments : s.payments.insert p = .ok t.payments)
      (gift : d.paymentIntent = i.pk) (donations : s.donations.insert d = .ok t.donations)
      (users : t.users = s.users)
  | registers (u : User) (users : s.users.insert u = .ok t.users) (intents : t.intents = s.intents)
      (payments : t.payments = s.payments) (donations : t.donations = s.donations)

theorem Books.of_same (h : Books s t) (h' : SameBooks t u) : Books s u := by
  obtain ⟨hu, hi, hp, hd⟩ := h'
  have hsets : ∀ {i status}, Sets s t i status → Sets s u i status := by
    intro i status h k
    rw [hi]
    exact h k
  cases h with
  | same h => exact .same ⟨hu.trans h.users, hi.trans h.intents, hp.trans h.payments,
      hd.trans h.donations⟩
  | completes i p found status intents intent payments donations users =>
    rw [← hp] at payments
    unfold Gives at donations
    rw [← hd] at donations
    exact .completes i p found status (hsets intents) intent payments donations (hu.trans users)
  | fails i found status intents payments donations users =>
    exact .fails i found status (hsets intents) (hp.trans payments) (hd.trans donations)
      (hu.trans users)
  | intends i status payer intents payments donations users =>
    rw [← hi] at intents
    exact .intends i status payer intents (hp.trans payments) (hd.trans donations) (hu.trans users)
  | renews i p d status payer intents intent payments gift donations users =>
    rw [← hi] at intents
    rw [← hp] at payments
    rw [← hd] at donations
    exact .renews i p d status payer intents intent payments gift donations (hu.trans users)
  | registers x users intents payments donations =>
    rw [← hu] at users
    exact .registers x users (hi.trans intents) (hp.trans payments) (hd.trans donations)

theorem intentsFor_singleton {g : String} {i : PaymentIntent} (h : s.intentsFor g = [i]) :
    s.intents.get i.pk = some i ∧ i.gatewayIntentId = g := by
  have hmem : i ∈ s.intentsFor g := by rw [h]; exact .head _
  obtain ⟨hrow, hid⟩ := List.mem_filter.mp hmem
  exact ⟨Table.get_eq_some.mpr ⟨hrow, rfl⟩, of_decide_eq_true hid⟩

end WebhookStore

namespace WebhookHandler

open WebhookStore

variable {s t : WebhookStore} {i : PaymentIntent} {u : Unit}

theorem transition_ok {pk : Uuid} {status : IntentStatus}
    (h : transition pk status s = .ok (u, t)) :
    ∃ i, s.intents.get pk = some i ∧ i.pk = pk ∧ status ∈ i.status.allowedTransitions ∧
      t = { s with intents := t.intents } ∧ Sets s t i status := by
  obtain ⟨i, s₁, hi, h₁⟩ := bind_ok.mp h
  obtain ⟨hget, rfl⟩ := lookup_ok.mp hi
  have hpk : i.pk = pk := Table.pk_of_get hget
  subst hpk
  split at h₁
  next hallowed =>
    obtain ⟨T, hupdate, rfl⟩ := write_ok.mp h₁
    exact ⟨i, hget, rfl, hallowed, rfl, Table.get_update hupdate hget rfl⟩
  next => cases h₁

theorem handleOneTimeDonation_ok {amount : Cents} {french : Bool} {now : Instant}
    (hpurpose : i.purpose = .donation)
      (h : handleOneTimeDonation i amount french now s = .ok (u, t)) :
    t = { s with donations := t.donations } ∧ Gives s t i := by
  have honce : i.isOneTimeDonation = true ↔ i.metadataGet "is_recurring" ≠ some (.str "1") := by
    simp [PaymentIntent.isOneTimeDonation, hpurpose]
  unfold handleOneTimeDonation at h
  split at h
  next hrecurring =>
    obtain ⟨-, rfl⟩ := pure_ok.mp h
    exact ⟨rfl, .inl ⟨rfl, fun hgift => absurd hrecurring (honce.mp hgift)⟩⟩
  next hrecurring =>
    obtain ⟨_, _, hget, h₁⟩ := bind_ok.mp h
    cases hget
    split at h₁
    next hany =>
      obtain ⟨-, rfl⟩ := pure_ok.mp h₁
      obtain ⟨d, hd, hintent⟩ := List.any_eq_true.mp hany
      exact ⟨rfl, .inl ⟨rfl, fun _ => ⟨d, hd, of_decide_eq_true hintent⟩⟩⟩
    next =>
      obtain ⟨campaign, s₁, hcampaign, h₂⟩ := bind_ok.mp h₁
      obtain ⟨-, rfl⟩ := lift_ok.mp hcampaign
      obtain ⟨donor, s₂, hdonor, h₃⟩ := bind_ok.mp h₂
      obtain ⟨-, rfl⟩ := lookup_ok.mp hdonor
      obtain ⟨name, s₃, hname, h₄⟩ := bind_ok.mp h₃
      obtain ⟨-, rfl⟩ := lift_ok.mp hname
      obtain ⟨d, s₄, hcreate, h₅⟩ := bind_ok.mp h₄
      obtain ⟨hd, T, hinsert, rfl⟩ := create_ok.mp hcreate
      obtain ⟨-, rfl⟩ := pure_ok.mp h₅
      exact ⟨rfl, .inr ⟨honce.mpr hrecurring, d, congrArg Donation.paymentIntent hd, hinsert⟩⟩

theorem recordGift_ok {amount : Cents} {french : Bool} {now : Instant}
    (h : recordGift i amount french now s = .ok (u, t)) :
    t = { s with donations := t.donations } ∧ Gives s t i := by
  unfold recordGift at h
  split at h
  next hpurpose => exact handleOneTimeDonation_ok hpurpose h
  next hpurpose =>
    obtain ⟨-, rfl⟩ := pure_ok.mp h
    refine ⟨rfl, .inl ⟨rfl, fun hgift => ?_⟩⟩
    simp [PaymentIntent.isOneTimeDonation, hpurpose] at hgift

/-- The two transitions of an intent on its way to completion. -/
theorem completed_ok {v : Unit} (hfound : s.intents.get i.pk = some i)
    (hfirst : startProcessing i s = .ok (u, t)) {t' : WebhookStore}
    (hcompleted : transition i.pk .completed t = .ok (v, t')) :
    (i.status = .pending ∨ i.status = .processing) ∧ t' = { s with intents := t'.intents } ∧
      Sets s t' i .completed := by
  obtain ⟨i₂, hget₂, hpk₂, hallowed₂, ht', hsets₂⟩ := transition_ok hcompleted
  unfold startProcessing at hfirst
  split at hfirst
  next hpending =>
    obtain ⟨i₁, hget₁, hpk₁, -, ht, hsets₁⟩ := transition_ok hfirst
    obtain rfl : i = i₁ := Option.some.inj (hfound.symm.trans hget₁)
    rw [hsets₁, if_pos rfl, Option.some.injEq] at hget₂
    refine ⟨.inl hpending, ?_, fun k => ?_⟩
    · rw [ht', ht]
    · rw [hsets₂, hsets₁, ← hget₂]
      split <;> rfl
  next hpending =>
    obtain ⟨-, rfl⟩ := pure_ok.mp hfirst
    obtain rfl : i = i₂ := Option.some.inj (hfound.symm.trans hget₂)
    refine ⟨.inr ?_, ht', hsets₂⟩
    cases hstatus : i.status <;> simp [hstatus, IntentStatus.allowedTransitions] at hallowed₂ ⊢

theorem complete_ok {event : WebhookEvent} {d : PaymentSucceeded} {french : Bool} {now : Instant}
    (hfound : s.intents.get i.pk = some i) (h : complete event d i french now s = .ok (u, t)) :
    t.events = s.events ∧ ∃ p, s.intents.get i.pk = some i ∧
      (i.status = .pending ∨ i.status = .processing) ∧ Sets s t i .completed ∧
      p.intent = i.pk ∧ s.payments.insert p = .ok t.payments ∧ Gives s t i ∧ t.users = s.users := by
  obtain ⟨_, s₁, hfirst, h₁⟩ := bind_ok.mp h
  obtain ⟨_, s₂, hcompleted, h₂⟩ := bind_ok.mp h₁
  obtain ⟨hstatus, hs₂, hsets⟩ := completed_ok hfound hfirst hcompleted
  obtain ⟨p, s₃, hcreate, h₃⟩ := bind_ok.mp h₂
  obtain ⟨hp, T, hinsert, rfl⟩ := create_ok.mp hcreate
  obtain ⟨_, s₄, haudit, h₄⟩ := bind_ok.mp h₃
  cases haudit
  obtain ⟨ht, hgives⟩ := recordGift_ok h₄
  have hintent : p.intent = i.pk := congrArg Payment.intent hp
  rw [hs₂] at hinsert hgives ht
  rw [ht]
  exact ⟨rfl, p, hfound, hstatus, hsets, hintent, hinsert, hgives, rfl⟩

/-- What a handled event does to the books. -/
theorem handler_ok {event : WebhookEvent} {french : Bool} {now : Instant}
    (h : handler event french now s = .ok (u, t)) : t.events = s.events ∧ Books s t := by
  have hsame : ∀ {v : Unit} {t : WebhookStore}, (pure () : WebhookTx Unit) s = .ok (v, t) →
      t.events = s.events ∧ Books s t := by
    intro v t hpure
    obtain ⟨-, rfl⟩ := pure_ok.mp hpure
    exact ⟨rfl, .same (.refl _)⟩
  cases hpayload : event.payload with
  | paymentIntentSucceeded d =>
    simp only [handler, hpayload, handlePaymentIntentSucceeded] at h
    split at h
    · exact hsame h
    obtain ⟨_, _, hget, h₁⟩ := bind_ok.mp h
    cases hget
    split at h₁
    · exact hsame h₁
    rcases hi : s.intentsFor d.gatewayIntentId with _ | ⟨i, _ | ⟨j, rest⟩⟩
    · simp only [hi] at h₁
      exact hsame h₁
    · simp only [hi] at h₁
      obtain ⟨hevents, p, hfound, hstatus, hsets, hintent, hinsert, hgives, husers⟩ :=
        complete_ok (intentsFor_singleton hi).1 h₁
      exact ⟨hevents, .completes i p hfound hstatus hsets hintent hinsert hgives husers⟩
    · simp only [hi] at h₁
      cases h₁
  | paymentIntentFailed g reason =>
    simp only [handler, hpayload, handlePaymentIntentFailed] at h
    split at h
    · exact hsame h
    obtain ⟨_, _, hget, h₁⟩ := bind_ok.mp h
    cases hget
    rcases hi : s.intentsFor g with _ | ⟨i, _ | ⟨j, rest⟩⟩
    · simp only [hi] at h₁
      exact hsame h₁
    · simp only [hi] at h₁
      obtain ⟨_, s₁, htransition, h₂⟩ := bind_ok.mp h₁
      obtain ⟨i', hfound, hpk, hallowed, hs₁, hsets⟩ := transition_ok htransition
      obtain rfl : i = i' := Option.some.inj ((intentsFor_singleton hi).1.symm.trans hfound)
      cases h₂
      have hstatus : i.status = .pending ∨ i.status = .processing := by
        cases hstatus : i.status <;> simp [hstatus, IntentStatus.allowedTransitions] at hallowed ⊢
      rw [hs₁]
      exact ⟨rfl, .fails i hfound hstatus hsets rfl rfl rfl⟩
    · simp only [hi] at h₁
      cases h₁
  | malformed exception code =>
    simp only [handler, hpayload] at h
    exact hsame h
  | unhandled =>
    simp only [handler, hpayload] at h
    exact hsame h

theorem markProcessed_ok {event : Uuid} {now : Instant}
    (h : markProcessed event now s = .ok (u, t)) :
    SameBooks s t ∧ s.events.update event (fun row =>
      { row with processed := true, processedAt := some now, error := "" }) = .ok t.events := by
  obtain ⟨T, hupdate, rfl⟩ := write_ok.mp h
  exact ⟨⟨rfl, rfl, rfl, rfl⟩, hupdate⟩

theorem dispatch_ok {event : WebhookEvent} {french : Bool} {now : Instant}
    (h : dispatch event french now s = .ok (u, t)) : Books s t ∧
      s.events.update event.pk (fun row =>
        { row with processed := true, processedAt := some now, error := "" }) = .ok t.events := by
  obtain ⟨_, s₁, hhandler, h₁⟩ := bind_ok.mp h
  obtain ⟨hevents, hbooks⟩ := handler_ok hhandler
  obtain ⟨hsame, hupdate⟩ := markProcessed_ok h₁
  rw [hevents] at hupdate
  exact ⟨hbooks.of_same hsame, hupdate⟩

end WebhookHandler

end Civicos.Payments
