import Civicos.Payments.RecurringGifts

/-!
# The lifecycle of a recurring gift

A cancelled plan stays cancelled, and what an invoice pays is recorded as a whole or not at all. As
long as no update of the subscription cancels a plan, every cancellation is on record exactly once;
the handler of these updates writes no audit entry.
-/
namespace Civicos.Payments

open Library Library.Transaction RecurringStore RecurringHandler

variable {s t u : RecurringStore} {p q : RecurringGiftPlan} {e : PlanAuditEntry}
  {A : Prop}

/-! ## The entries about a plan -/

namespace PlanAuditEntry

def detail (e : PlanAuditEntry) (key : String) : Option Value :=
  (e.details.find? (·.1 = key)).map (·.2)

/-- An entry names its plan by the primary key, or by the subscription if there is no such key. -/
def concerns (e : PlanAuditEntry) (p : RecurringGiftPlan) : Bool :=
  match e.detail "plan_pk" with
  | some v => v = .str (toString p.pk)
  | none => e.detail "gateway_subscription_id" = some (.str p.gatewaySubscriptionId)

theorem concerns_congr (hpk : q.pk = p.pk)
    (hid : q.gatewaySubscriptionId = p.gatewaySubscriptionId) : e.concerns q = e.concerns p := by
  unfold concerns
  rw [hpk, hid]

end PlanAuditEntry

namespace RecurringStore

/-- The cancellations of a plan that are on record -/
def cancellationsOf (s : RecurringStore) (p : RecurringGiftPlan) : List PlanAuditEntry :=
  s.audits.filter fun e => e.action = .recurringPlanCancelled ∧ e.concerns p = true

/-- Every cancelled plan is on record once, and no other plan is. -/
def Audited (s : RecurringStore) : Prop :=
  ∀ p ∈ s.plans.rows, (s.cancellationsOf p).length = if p.status = .cancelled then 1 else 0

/-- Every payment comes with its intent and its donation, and they with it. -/
structure Triples (s : RecurringStore) (l : List (PaymentIntent × Payment × RecurringDonation)) :
    Prop where
  intents : s.intents.rows = l.map (·.1)
  payments : s.payments.rows = l.map (·.2.1)
  donations : s.donations.rows = l.map (·.2.2)
  linked : ∀ x ∈ l, x.2.1.intent = x.1.pk ∧ x.2.2.paymentIntent = x.1.pk ∧
    x.2.2.amount = x.2.1.amountPaid ∧ 0 < x.2.1.amountPaid

/-! ## What a block does -/

/-- One plan that is not cancelled is saved. -/
structure Saves (s t : RecurringStore) (p q : RecurringGiftPlan) : Prop where
  found : p ∈ s.plans.rows
  before : p.status ≠ .cancelled
  pk : q.pk = p.pk
  subscription : q.gatewaySubscriptionId = p.gatewaySubscriptionId
  plans : ∀ a, a ∈ t.plans.rows ↔ (a ∈ s.plans.rows ∧ a.pk ≠ p.pk) ∨ a = q

/-- What has been paid is left alone. -/
structure SamePaid (s t : RecurringStore) : Prop where
  intents : t.intents = s.intents
  payments : t.payments = s.payments
  donations : t.donations = s.donations

/-- Everything that a block can do; where `A` holds, no plan is cancelled without an entry. -/
inductive Change (A : Prop) (s t : RecurringStore) : Prop
  | same (h : t = s)
  | moves (p q : RecurringGiftPlan) (saves : Saves s t p q) (open_ : q.status ≠ .cancelled)
      (paid : SamePaid s t) (audits : t.audits = s.audits)
  | unannounced (p q : RecurringGiftPlan) (saves : Saves s t p q) (not_announced : ¬ A)
      (paid : SamePaid s t) (audits : t.audits = s.audits)
  | cancels (p q : RecurringGiftPlan) (e : PlanAuditEntry) (saves : Saves s t p q)
      (closed : q.status = .cancelled) (paid : SamePaid s t) (audits : t.audits = s.audits ++ [e])
      (action : e.action = .recurringPlanCancelled)
      (concerns : ∀ a ∈ s.plans.rows, e.concerns a = true ↔ a = p)
  | records (i : PaymentIntent) (p : Payment) (d : RecurringDonation) (e : PlanAuditEntry)
      (plans : t.plans = s.plans) (intents : t.intents.rows = s.intents.rows ++ [i])
      (payments : t.payments.rows = s.payments.rows ++ [p])
      (donations : t.donations.rows = s.donations.rows ++ [d]) (intent : p.intent = i.pk)
      (gift : d.paymentIntent = i.pk) (amount : d.amount = p.amountPaid) (positive : 0 < d.amount)
      (audits : t.audits = s.audits ++ [e]) (action : e.action = .donationCreated)

theorem planOf_eq_some {id : String} (h : s.planOf id = some p) :
    p ∈ s.plans.rows ∧ p.gatewaySubscriptionId = id := by
  unfold planOf at h
  exact ⟨List.mem_of_find?_eq_some h, by simpa using List.find?_some h⟩

theorem plan_unique (hp : p ∈ s.plans.rows) (hq : q ∈ s.plans.rows)
    (h : p.gatewaySubscriptionId = q.gatewaySubscriptionId) : p = q := by
  refine Table.eq_of_clash (i := RecurringGiftPlan.gatewaySubscriptionIdKey)
    (List.mem_singleton.mpr rfl) hp hq ⟨Option.some_ne_none _, congrArg some h⟩

end RecurringStore

theorem savePlan_ok {f : RecurringGiftPlan → RecurringGiftPlan} {x : Unit}
    (hp : p ∈ s.plans.rows) (hbefore : p.status ≠ .cancelled) (hpk : (f p).pk = p.pk)
    (hid : (f p).gatewaySubscriptionId = p.gatewaySubscriptionId)
    (h : savePlan p.pk f s = .ok (x, t)) :
    Saves s t p (f p) ∧ SamePaid s t ∧ t.audits = s.audits := by
  obtain ⟨T, hT, rfl⟩ := write_ok.mp h
  have hget : s.plans.get p.pk = some p := Table.get_eq_some.mpr ⟨hp, rfl⟩
  exact ⟨⟨hp, hbefore, hpk, hid, fun a => Table.mem_update hT hget⟩, ⟨rfl, rfl, rfl⟩, rfl⟩

/-- A save that cancels a plan, and the entry of the cancellation -/
theorem cancel_ok {f : RecurringGiftPlan → RecurringGiftPlan} {e : PlanAuditEntry} {x : Unit}
    (hp : p ∈ s.plans.rows) (hopen : p.status ≠ .cancelled) (hpk : (f p).pk = p.pk)
    (hid : (f p).gatewaySubscriptionId = p.gatewaySubscriptionId)
    (hclosed : (f p).status = .cancelled) (haction : e.action = .recurringPlanCancelled)
    (hconcerns : ∀ a ∈ s.plans.rows, e.concerns a = true ↔ a = p)
    (h : (savePlan p.pk f >>= fun _ => audit e) s = .ok (x, t)) : Change A s t := by
  obtain ⟨_, s₁, hsave, h₁⟩ := bind_ok.mp h
  obtain ⟨hsaves, hpaid, haudits⟩ := savePlan_ok hp hopen hpk hid hsave
  cases h₁
  exact .cancels p _ e ⟨hsaves.found, hsaves.before, hsaves.pk, hsaves.subscription, hsaves.plans⟩
    hclosed ⟨hpaid.intents, hpaid.payments, hpaid.donations⟩ (congrArg (· ++ [e]) haudits) haction
    hconcerns

theorem handleSubscriptionDeleted_ok {eventId id : String} {now : Instant} {x : Unit}
    (h : handleSubscriptionDeleted eventId id now s = .ok (x, t)) : Change A s t := by
  unfold handleSubscriptionDeleted at h
  split at h
  · exact .same (pure_ok.mp h).2
  obtain ⟨_, _, hget, h₁⟩ := bind_ok.mp h
  cases hget
  cases hplan : s.planOf id with
  | none =>
    simp only [hplan] at h₁
    exact .same (pure_ok.mp h₁).2
  | some p =>
    simp only [hplan] at h₁
    split at h₁
    · exact .same (pure_ok.mp h₁).2
    next hopen =>
      obtain ⟨hrow, rfl⟩ := planOf_eq_some hplan
      refine cancel_ok hrow hopen (by rfl) (by rfl) (by rfl) (by rfl) (fun a ha => ?_) h₁
      have hsame : a.gatewaySubscriptionId = p.gatewaySubscriptionId ↔ a = p :=
        ⟨plan_unique ha hrow, congrArg _⟩
      simp [PlanAuditEntry.concerns, PlanAuditEntry.detail, ← hsame, eq_comm]

/-- The condition: no update cancels a plan that is not cancelled. -/
def Announced (s : RecurringStore) (id status : String) : Prop :=
  id ≠ "" → statusMap status = some .cancelled →
    ∀ p ∈ s.plans.rows, p.gatewaySubscriptionId = id → p.status = .cancelled

instance (s : RecurringStore) (id status : String) : Decidable (Announced s id status) :=
  inferInstanceAs (Decidable (_ → _ → ∀ p ∈ s.plans.rows, _ → _))

theorem handleSubscriptionUpdated_ok {id status : String} {now : Instant} {x : Unit}
    (h : handleSubscriptionUpdated id status now s = .ok (x, t)) :
    Change (Announced s id status) s t := by
  unfold handleSubscriptionUpdated at h
  split at h
  · exact .same (pure_ok.mp h).2
  next hid =>
    cases hmap : statusMap status with
    | none =>
      simp only [hmap] at h
      exact .same (pure_ok.mp h).2
    | some ours =>
      simp only [hmap] at h
      obtain ⟨_, _, hget, h₁⟩ := bind_ok.mp h
      cases hget
      cases hplan : s.planOf id with
      | none =>
        simp only [hplan] at h₁
        exact .same (pure_ok.mp h₁).2
      | some p =>
        simp only [hplan] at h₁
        split at h₁
        · exact .same (pure_ok.mp h₁).2
        next hother =>
          obtain ⟨-, hopen⟩ := not_or.mp hother
          obtain ⟨hrow, rfl⟩ := planOf_eq_some hplan
          obtain ⟨hsaves, hpaid, haudits⟩ :=
            savePlan_ok hrow hopen (by split <;> rfl) (by split <;> rfl) h₁
          by_cases hours : ours = .cancelled
          · refine .unannounced p _ hsaves (fun hannounced => hopen ?_) hpaid haudits
            exact hannounced hid (hours ▸ hmap) p hrow rfl
          · exact .moves p _ hsaves (by simp [hours]) hpaid haudits

theorem handleInvoicePaymentFailed_ok {id : String} {x : Unit}
    (h : handleInvoicePaymentFailed id s = .ok (x, t)) : Change A s t := by
  unfold handleInvoicePaymentFailed at h
  split at h
  · exact .same (pure_ok.mp h).2
  obtain ⟨_, _, hget, h₁⟩ := bind_ok.mp h
  cases hget
  cases hplan : s.planOf id with
  | none =>
    simp only [hplan] at h₁
    exact .same (pure_ok.mp h₁).2
  | some p =>
    simp only [hplan] at h₁
    split at h₁
    · exact .same (pure_ok.mp h₁).2
    next hactive =>
      obtain ⟨hrow, rfl⟩ := planOf_eq_some hplan
      have hopen : p.status ≠ .cancelled := by
        rw [not_not.mp hactive]
        decide
      obtain ⟨hsaves, hpaid, haudits⟩ := savePlan_ok hrow hopen (by rfl) (by rfl) h₁
      exact .moves p _ hsaves (by simp) hpaid haudits

theorem cancelView_ok {plan user : Uuid} {now : Instant} {x : Unit}
    (h : RecurringGiftCancelView.post plan user now s = .ok (x, t)) : Change A s t := by
  obtain ⟨p, s₁, hlookup, h₁⟩ := bind_ok.mp h
  obtain ⟨hrow, rfl⟩ := lookup_ok.mp hlookup
  split at h₁
  · exact .same (pure_ok.mp h₁).2
  next hopen =>
    have hp : p ∈ s₁.plans.rows := Table.mem_of_get hrow
    refine cancel_ok hp hopen (by rfl) (by rfl) (by rfl) (by rfl) (fun a ha => ?_) h₁
    have hsame : a.pk = p.pk ↔ a = p := ⟨Table.eq_of_pk ha hp, congrArg _⟩
    have hprint : toString p.pk = toString a.pk ↔ p.pk = a.pk := toString_uuid_inj
    simpa [PlanAuditEntry.concerns, PlanAuditEntry.detail, ← hsame, eq_comm] using hprint

theorem handleInvoicePaymentSucceeded_ok {eventId : String} {d : InvoicePaid} {now : Instant}
    {x : Unit} (h : handleInvoicePaymentSucceeded eventId d now s = .ok (x, t)) : Change A s t := by
  obtain ⟨_, _, hget, h₁⟩ := bind_ok.mp h
  cases hget
  cases hplan : s.planOf d.gatewaySubscriptionId with
  | none =>
    simp only [hplan] at h₁
    exact .same (pure_ok.mp h₁).2
  | some p =>
    simp only [hplan] at h₁
    obtain ⟨donor, s₁, hdonor, h₂⟩ := bind_ok.mp h₁
    obtain ⟨-, rfl⟩ := lookup_ok.mp hdonor
    obtain ⟨intent, s₂, hintent, h₃⟩ := bind_ok.mp h₂
    obtain ⟨hi, I, hI, rfl⟩ := create_ok.mp hintent
    obtain ⟨payment, s₃, hpayment, h₄⟩ := bind_ok.mp h₃
    obtain ⟨hp, P, hP, rfl⟩ := create_ok.mp hpayment
    obtain ⟨donation, s₄, hdonation, h₅⟩ := bind_ok.mp h₄
    obtain ⟨hd, D, hD, rfl⟩ := create_ok.mp hdonation
    cases h₅
    have hpositive : 0 < donation.amount := by
      have hvalid := (Table.insert_ok.mp hD).1.1 ⟨.check "payments_donation_amount_positive",
        fun d => 0 < d.amount⟩ (by simp [RecurringDonation.schema, Donation.schema])
      exact of_decide_eq_true hvalid
    have hamount : donation.amount = payment.amountPaid := by
      rw [hd, hp]
    exact .records intent payment donation _ rfl (Table.insert_ok.mp hI).2 (Table.insert_ok.mp hP).2
      (Table.insert_ok.mp hD).2 (congrArg Payment.intent hp)
      (congrArg (fun d : RecurringDonation => d.paymentIntent) hd) hamount hpositive rfl rfl

/-! ## What every block keeps -/

namespace RecurringStore

theorem Saves.kept (h : Saves s t p q) {a : RecurringGiftPlan} (ha : a ∈ s.plans.rows)
    (hclosed : a.status = .cancelled) : a ∈ t.plans.rows := by
  refine (h.plans a).mpr (.inl ⟨ha, fun hpk => ?_⟩)
  obtain rfl : a = p := Table.eq_of_pk ha h.found hpk
  exact h.before hclosed

/-- A cancelled plan is not touched. -/
theorem Change.kept (h : Change A s t) {a : RecurringGiftPlan} (ha : a ∈ s.plans.rows)
    (hclosed : a.status = .cancelled) : a ∈ t.plans.rows := by
  cases h with
  | same h => exact h ▸ ha
  | moves p q saves => exact saves.kept ha hclosed
  | unannounced p q saves => exact saves.kept ha hclosed
  | cancels p q e saves => exact saves.kept ha hclosed
  | records i p d e plans => exact plans ▸ ha

theorem cancellationsOf_congr (h : t.audits = s.audits) (hpk : q.pk = p.pk)
    (hid : q.gatewaySubscriptionId = p.gatewaySubscriptionId) :
    t.cancellationsOf q = s.cancellationsOf p := by
  unfold cancellationsOf
  rw [h]
  exact List.filter_congr fun e _ => by rw [PlanAuditEntry.concerns_congr hpk hid]

theorem cancellationsOf_append (h : t.audits = s.audits ++ [e]) (hpk : q.pk = p.pk)
    (hid : q.gatewaySubscriptionId = p.gatewaySubscriptionId) :
    (t.cancellationsOf q).length = (s.cancellationsOf p).length +
      if e.action = .recurringPlanCancelled ∧ e.concerns p = true then 1 else 0 := by
  have hsame : t.cancellationsOf q = t.cancellationsOf p := cancellationsOf_congr rfl hpk hid
  rw [hsame]
  unfold cancellationsOf
  rw [h, List.filter_append, List.length_append]
  split
  next hentry => simp [hentry]
  next hentry => simpa using hentry

theorem Change.audited (h : Change A s t) (hA : A) (hs : s.Audited) : t.Audited := by
  cases h with
  | same h => exact h ▸ hs
  | moves p q saves hopen paid audits =>
    intro a ha
    rcases (saves.plans a).mp ha with ⟨hold, -⟩ | rfl
    · rw [cancellationsOf_congr audits rfl rfl]
      exact hs a hold
    · rw [cancellationsOf_congr audits saves.pk saves.subscription, hs p saves.found,
        if_neg saves.before, if_neg hopen]
  | unannounced p q saves not_announced => exact absurd hA not_announced
  | cancels p q e saves closed paid audits action concerns =>
    intro a ha
    rcases (saves.plans a).mp ha with ⟨hold, hpk⟩ | rfl
    · have hother : ¬ (e.action = .recurringPlanCancelled ∧ e.concerns a = true) := by
        rintro ⟨-, hconcerns⟩
        exact hpk (congrArg RecurringGiftPlan.pk ((concerns a hold).mp hconcerns))
      rw [cancellationsOf_append audits rfl rfl, if_neg hother, hs a hold, Nat.add_zero]
    · have hthis : e.concerns p = true := (concerns p saves.found).mpr rfl
      rw [cancellationsOf_append audits saves.pk saves.subscription, if_pos ⟨action, hthis⟩,
        hs p saves.found, if_neg saves.before, if_pos closed]
  | records i p d e plans intents payments donations intent gift amount positive audits action =>
    intro a ha
    have hother : ¬ (e.action = .recurringPlanCancelled ∧ e.concerns a = true) := by
      simp [action]
    rw [cancellationsOf_append audits rfl rfl, if_neg hother, Nat.add_zero]
    exact hs a (plans ▸ ha)

theorem SamePaid.triples {l : List (PaymentIntent × Payment × RecurringDonation)}
    (h : SamePaid s t) (hs : s.Triples l) : t.Triples l := by
  refine ⟨?_, ?_, ?_, hs.linked⟩
  · rw [h.intents, hs.intents]
  · rw [h.payments, hs.payments]
  · rw [h.donations, hs.donations]

theorem Change.triples (h : Change A s t) (hs : ∃ l, s.Triples l) : ∃ l, t.Triples l := by
  obtain ⟨l, hl⟩ := hs
  cases h with
  | same h => exact ⟨l, h ▸ hl⟩
  | moves p q saves hopen paid => exact ⟨l, paid.triples hl⟩
  | unannounced p q saves hnot paid => exact ⟨l, paid.triples hl⟩
  | cancels p q e saves closed paid => exact ⟨l, paid.triples hl⟩
  | records i p d e plans intents payments donations intent gift amount positive =>
    refine ⟨l ++ [(i, p, d)], ?_, ?_, ?_, fun x hx => ?_⟩
    · rw [intents, hl.intents, List.map_append, List.map_singleton]
    · rw [payments, hl.payments, List.map_append, List.map_singleton]
    · rw [donations, hl.donations, List.map_append, List.map_singleton]
    · rcases List.mem_append.mp hx with hx | hx
      · exact hl.linked x hx
      · obtain rfl := List.mem_singleton.mp hx
        exact ⟨intent, gift, amount, amount ▸ positive⟩

/-- No two payments share their charge or their intent. -/
theorem Triples.apart {l : List (PaymentIntent × Payment × RecurringDonation)} (h : s.Triples l) :
    (l.map (·.2.1.gatewayChargeId)).Nodup ∧ (l.map (·.1.pk)).Nodup := by
  have hpayments : (s.payments.rows.map Payment.gatewayChargeId).Nodup := by
    refine List.pairwise_map.mpr (s.payments.apart.imp fun hapart heq => ?_)
    refine hapart.2 Payment.gatewayChargeIdKey (.tail _ (.head _)) ⟨Option.some_ne_none _, ?_⟩
    exact congrArg some heq
  have hintents : (s.intents.rows.map PaymentIntent.pk).Nodup := s.intents.nodup_pk
  rw [h.payments, List.map_map] at hpayments
  rw [h.intents, List.map_map] at hintents
  exact ⟨hpayments, hintents⟩

end RecurringStore

/-! ## Runs -/

def Announces (s : RecurringStore) (w : RecurringWorker) (_ : Instant) : Prop :=
  match w with
  | .delivered (.subscriptionUpdated id status) => Announced s id status
  | _ => True

instance (s : RecurringStore) : (w : RecurringWorker) → (now : Instant) →
    Decidable (Announces s w now)
  | .delivered (.subscriptionUpdated id status), _ =>
    inferInstanceAs (Decidable (Announced s id status))
  | .delivered (.subscriptionDeleted _ _), _ | .delivered (.invoicePaymentFailed _), _
  | .delivered (.invoicePaymentSucceeded _ _), _ | .recording _ _, _ | .setup _ _, _
  | .posting _ _, _ | .raised _, _ | .done, _ | .dead, _ => inferInstanceAs (Decidable True)

theorem act_change {w w' : RecurringWorker} {now : Instant} (h : w.act s now = some (t, w')) :
    Change (Announces s w now) s t := by
  have hfinish {x : RecurringTx Unit} (hx : ∀ t, x s = .ok ((), t) → Change (Announces s w now) s t)
      (h : RecurringWorker.finish x s = (t, w')) : Change (Announces s w now) s t := by
    unfold RecurringWorker.finish at h
    split at h
    next hrun =>
      cases h
      exact hx _ hrun
    next hrun =>
      cases h
      exact .same rfl
  cases w with
  | delivered e =>
    cases e with
    | subscriptionDeleted eventId id =>
      exact hfinish (fun _ => handleSubscriptionDeleted_ok) (Option.some.inj h)
    | subscriptionUpdated id status =>
      exact hfinish (fun _ => handleSubscriptionUpdated_ok) (Option.some.inj h)
    | invoicePaymentFailed id =>
      exact hfinish (fun _ => handleInvoicePaymentFailed_ok) (Option.some.inj h)
    | invoicePaymentSucceeded eventId d =>
      cases h
      exact .same rfl
  | recording eventId d =>
    exact hfinish (fun _ => handleInvoicePaymentSucceeded_ok) (Option.some.inj h)
  | setup plan user =>
    simp only [RecurringWorker.act] at h
    split at h
    · cases h
      exact .same rfl
    · split at h
      · cases h
        exact .same rfl
      · split at h <;> (cases h; exact .same rfl)
  | posting plan user => exact hfinish (fun _ => cancelView_ok) (Option.some.inj h)
  | raised e => cases h
  | done => cases h
  | dead => cases h

theorem triples_of_reachable {s : Pool.State RecurringStore RecurringWorker}
    (h : recurring.machine.Reachable s) : ∃ l, s.store.Triples l := by
  refine Program.store_invariant (P := recurring) (I := fun s => ∃ l, s.Triples l) ?_ ?_ ?_ h
  · rintro s ⟨-, hintents, hpayments, hdonations, -⟩
    refine ⟨[], ?_, ?_, ?_, fun x hx => absurd hx List.not_mem_nil⟩
    · simp [hintents, Table.empty]
    · simp [hpayments, Table.empty]
    · simp [hdonations, Table.empty]
  · intro s w now t w' hs hact
    exact (act_change hact).triples hs
  · intro s x
    exact x.elim

theorem recorded_of_reachable {s : Pool.State RecurringStore RecurringWorker}
    (h : (recurring.under Announces).machine.Reachable s) : s.store.Audited := by
  refine Program.store_invariant (P := recurring.under Announces) ?_ ?_ ?_ h
  · rintro s ⟨hopen, -, -, -, haudits⟩ p hp
    rw [if_neg (hopen p hp), cancellationsOf, haudits]
    rfl
  · intro s w now t w' hs hact
    obtain ⟨hannounces, hact⟩ := Program.under_act.mp hact
    exact (act_change hact).audited hannounces hs
  · intro s x
    exact x.elim

theorem cancelled_of_later {s t : Pool.State RecurringStore RecurringWorker}
    (h : recurring.machine.Later s t) (hp : p ∈ s.store.plans.rows)
    (hclosed : p.status = .cancelled) : p ∈ t.store.plans.rows := by
  refine h.induct (I := fun u => p ∈ u.store.plans.rows) hp ?_
  intro u l v _ hu hstep
  obtain ⟨w, -, -, rfl⟩ | ⟨k, now, w, st, w', -, -, hact, rfl⟩ | ⟨k, -, rfl⟩ | ⟨x, -⟩ :=
    Program.step_cases hstep
  · exact hu
  · exact (act_change hact).kept hu hclosed
  · exact hu
  · exact x.elim

/-- A cancelled plan stays as it is, and the payments form triples with different charges, in every
run. While no update cancels a plan, every cancelled plan is on record exactly once. -/
theorem recurring_gifts {s t : Pool.State RecurringStore RecurringWorker}
    (h : (recurring.under Announces).machine.Reachable s) (g : recurring.machine.Later s t) :
    (∀ p ∈ s.store.plans.rows, p.status = .cancelled → p ∈ t.store.plans.rows) ∧
      s.store.Audited ∧ ∃ l, t.store.Triples l ∧ (l.map (·.2.1.gatewayChargeId)).Nodup ∧
        (l.map (·.1.pk)).Nodup := by
  have hreachable : recurring.machine.Reachable t := (Program.reachable_of_under h).later g
  obtain ⟨l, hl⟩ := triples_of_reachable hreachable
  exact ⟨fun p hp hclosed => cancelled_of_later g hp hclosed, recorded_of_reachable h, l, hl,
    hl.apart⟩

/-- A monthly gift -/
def monthly : RecurringGiftPlan := { pk := 1, donor := 1, gatewaySubscriptionId := "sub_1" }

def subscribed : Pool.State RecurringStore RecurringWorker where
  store := {
    users := ⟨[{ pk := 1, firstName := "D", postalAddress := "2 Main St" }], by decide, by decide⟩
    plans := ⟨[monthly], by decide, by decide⟩ }
  workers := []

theorem subscribed_init : recurring.machine.Init subscribed :=
  ⟨⟨by decide, rfl, rfl, rfl, rfl⟩, rfl⟩

def invoice : InvoicePaid :=
  { gatewaySubscriptionId := "sub_1", gatewayChargeId := "ch_1", amountPaid := 1000 }

/-- Two deliveries of an invoice, and a deletion between the two halves of the donor's request -/
def deletedMeanwhile : Pool.State RecurringStore RecurringWorker :=
  (recurring.under Announces).machine.final subscribed [
    .spawn (.delivered (.invoicePaymentSucceeded "evt_1" invoice)),
    .spawn (.delivered (.invoicePaymentSucceeded "evt_1" invoice)),
    .act 0 0, .act 1 0, .act 0 1, .act 1 1, .spawn (.setup 1 1), .act 2 2,
    .spawn (.delivered (.subscriptionDeleted "evt_2" "sub_1")), .act 3 3, .act 2 4]

theorem recorded_once : deletedMeanwhile.store.Audited ∧
    (∃ l, deletedMeanwhile.store.Triples l ∧ (l.map (·.2.1.gatewayChargeId)).Nodup) ∧
    deletedMeanwhile.store.payments.rows.length = 1 ∧
    (deletedMeanwhile.store.plans.rows.map (·.status)) = [.cancelled] ∧
    deletedMeanwhile.store.audits.length = 2 := by
  have hreachable : (recurring.under Announces).machine.Reachable deletedMeanwhile :=
    Machine.Reachable.final (M := (recurring.under Announces).machine) subscribed_init _
  obtain ⟨-, haudited, l, hl, hnodup, -⟩ := recurring_gifts hreachable (.refl deletedMeanwhile)
  exact ⟨haudited, ⟨l, hl, hnodup⟩, by decide +kernel, by decide +kernel, by decide +kernel⟩

/-- The gateway reports that the subscription is canceled, and later that it is deleted. -/
def updatedToCanceled : Pool.State RecurringStore RecurringWorker :=
  recurring.machine.final subscribed [
    .spawn (.delivered (.subscriptionUpdated "sub_1" "canceled")), .act 0 0,
    .spawn (.delivered (.subscriptionDeleted "evt_2" "sub_1")), .act 1 1]

theorem cancelled_unrecorded : recurring.machine.Reachable updatedToCanceled ∧
    (updatedToCanceled.store.plans.rows.map (·.status)) = [.cancelled] ∧
    updatedToCanceled.store.audits = [] ∧ ¬ updatedToCanceled.store.Audited := by
  have hone : ∃ p ∈ updatedToCanceled.store.plans.rows, p.status = .cancelled := by decide +kernel
  have hnone : updatedToCanceled.store.audits = [] := by decide +kernel
  refine ⟨Machine.Reachable.final (M := recurring.machine) subscribed_init _, by decide +kernel,
    hnone, fun haudited => ?_⟩
  obtain ⟨p, hp, hclosed⟩ := hone
  have hcount := haudited p hp
  rw [if_pos hclosed, cancellationsOf, hnone] at hcount
  cases hcount

end Civicos.Payments
