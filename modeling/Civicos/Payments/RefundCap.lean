import Civicos.Payments.Refund
import Civicos.Library.Replace
import Mathlib.Algebra.Order.Group.Int

/-!
# Refunds stay below the payment

In the books the refunds that are not failed never exceed the payment. At the gateway they stay
below it as long as no refund is booked as failed that the gateway carried out.
-/
namespace Civicos.Payments

open Library Library.Transaction

namespace RefundStore

variable {s t : RefundStore}

def chargeOf (s : RefundStore) (payment : Uuid) : Option String :=
  (s.payments.get payment).map Payment.gatewayChargeId

/-- The share of a refund in what the books hold against a charge. -/
def share (s : RefundStore) (charge : String) (r : Refund) : ℤ :=
  if s.chargeOf r.payment = some charge ∧ r.gatewayStatus ≠ .failed then r.amount else 0

/-- Every refund belongs to a payment. -/
def Attached (s : RefundStore) : Prop := ∀ r ∈ s.refunds.rows, (s.chargeOf r.payment).isSome

/-- The cap in the books. -/
def Capped (s : RefundStore) : Prop :=
  ∀ p ∈ s.payments.rows, s.computeAlreadyRefunded p.pk ≤ p.amountPaid

theorem computeAlreadyRefunded_eq_total {p : Payment} (hp : p ∈ s.payments.rows) :
    s.computeAlreadyRefunded p.pk = Table.total (s.share p.gatewayChargeId) s.refunds := by
  unfold computeAlreadyRefunded Table.total
  rw [Table.sum_filter]
  refine congrArg List.sum (List.map_congr_left fun r _ => ?_)
  have hcharge : s.chargeOf r.payment = some p.gatewayChargeId ↔ r.payment = p.pk := by
    constructor
    · intro h
      obtain ⟨q, hq, heq⟩ := Option.map_eq_some_iff.mp h
      have hsame : q = p := Table.eq_of_clash (i := Payment.gatewayChargeIdKey)
        (by simp [Payment.schema])
        (Table.mem_of_get hq) hp ⟨Option.some_ne_none _, congrArg some heq⟩
      rw [← hsame]
      exact (Table.pk_of_get hq).symm
    · intro h
      exact Option.map_eq_some_iff.mpr ⟨p, Table.get_eq_some.mpr ⟨hp, h.symm⟩, rfl⟩
  simp only [share, hcharge, decide_eq_true_eq]

theorem paid_nonneg {p : Payment} (hp : Payment.schema.Valid p) : 0 ≤ p.amountPaid :=
  of_decide_eq_true (hp ⟨.check "payments_payment_amount_paid_non_negative",
    fun p => 0 ≤ p.amountPaid⟩ (by simp [Payment.schema]))

theorem amount_pos {r : Refund} (hr : r ∈ s.refunds.rows) : (0 : ℤ) < r.amount := by
  have hvalid := s.refunds.valid r hr _ (.tail _ (.tail _ (.tail _ (.head _))))
  simpa using hvalid

end RefundStore

/-! ## Moves of a worker -/

open RefundConfirmView RefundStore

/-- The booking that a worker still has to settle. -/
def RefundWorker.call : RefundWorker → Option RefundCall
  | calling call => some call
  | recording call _ _ => some call
  | failing call _ => some call
  | _ => none

/-- The row of a booking. -/
def RefundCall.Booked (call : RefundCall) (s : RefundStore) (r : Refund) : Prop :=
  s.refunds.get call.refund = some r ∧ r.payment = call.payment ∧ r.amount = call.amount ∧
    s.chargeOf call.payment = some call.gatewayChargeId

/-- Everything that a worker can do. -/
inductive RefundMove (s : RefundStore) :
    RefundWorker → RefundChoice → RefundStore → RefundWorker → Prop
  | refused {r c q} (finished : q.call = none) : RefundMove s (.post r) c s q
  | booked {r c T audits} {refund : Refund} {p : Payment} {call : RefundCall}
      (payment : s.payments.get p.pk = some p)
      (within : refund.amount ≤ p.amountPaid - s.computeAlreadyRefunded p.pk)
      (inserted : s.refunds.insert refund = .ok T) (pending : refund.gatewayStatus = .pending)
      (paid : refund.payment = p.pk)
      (called : call.refund = refund.pk ∧ call.payment = p.pk ∧ call.amount = refund.amount ∧
        call.gatewayChargeId = p.gatewayChargeId) :
      RefundMove s (.post r) c { s with refunds := T, audits := audits } (.calling call)
  | called {call c} : RefundMove s (.calling call) c (RefundWorker.createRefund s call c.executes)
      (match c.gatewayRefundId with
        | some id => .recording call c.executes id
        | none => .failing call c.executes)
  | confirmed {call c executed id T} (updated : s.refunds.update call.refund (fun row =>
        { row with gatewayRefundId := id, gatewayStatus := .succeeded }) = .ok T) :
      RefundMove s (.recording call executed id) c { s with refunds := T } .done
  | unconfirmed {call c executed id} {e : PaymentError} (failed : confirmed call id s = .error e) :
      RefundMove s (.recording call executed id) c s (.failing call executed)
  | failed {call c executed T} {marker : String} (updated : s.refunds.update call.refund (fun row =>
        { row with gatewayStatus := .failed, gatewayRefundId := marker }) = .ok T) :
      RefundMove s (.failing call executed) c { s with refunds := T } .done
  | stuck {call c executed e} : RefundMove s (.failing call executed) c s (.raised e)

theorem book_ok {s t : RefundStore} {payment : Payment} {data : RefundSession} {user : Uuid}
    {key : String} {now : Instant} {a : Except String RefundCall}
    (hpayment : s.payments.get payment.pk = some payment)
    (h : book payment data user key now s = .ok (a, t)) :
    (t = s ∧ ∃ message, a = .error message) ∨
      ∃ call, a = .ok call ∧ ∀ r c, RefundMove s (.post r) c t (.calling call) := by
  obtain ⟨intent, s₁, hintent, h₁⟩ := bind_ok.mp h
  obtain ⟨-, rfl⟩ := lookup_ok.mp hintent
  split at h₁
  · obtain ⟨rfl, rfl⟩ := pure_ok.mp h₁
    exact .inl ⟨rfl, _, rfl⟩
  obtain ⟨_, _, hget, h₂⟩ := bind_ok.mp h₁
  cases hget
  split at h₂
  · obtain ⟨rfl, rfl⟩ := pure_ok.mp h₂
    exact .inl ⟨rfl, _, rfl⟩
  next hwithin =>
    obtain ⟨refund, s₂, hcreate, h₃⟩ := bind_ok.mp h₂
    obtain ⟨hrefund, T, hinsert, rfl⟩ := create_ok.mp hcreate
    obtain ⟨_, s₃, hmodify, h₄⟩ := bind_ok.mp h₃
    cases hmodify
    obtain ⟨rfl, rfl⟩ := pure_ok.mp h₄
    refine .inr ⟨_, rfl, fun r c => ?_⟩
    have hle : refund.amount ≤ payment.amountPaid - s₁.computeAlreadyRefunded payment.pk := by
      rw [hrefund]
      exact not_lt.mp hwithin
    have hstatus : refund.gatewayStatus = .pending := congrArg Refund.gatewayStatus hrefund
    have hpaid : refund.payment = payment.pk := congrArg Refund.payment hrefund
    have hamount : data.amount = refund.amount := (congrArg Refund.amount hrefund).symm
    exact .booked hpayment hle hinsert hstatus hpaid ⟨rfl, rfl, hamount, rfl⟩

theorem post_ok {s t : RefundStore} {r : RefundPost} {limited : Bool} {key : String} {now : Instant}
    {a : Except String RefundCall} (h : post r limited key now s = .ok (a, t)) :
    (t = s ∧ ∃ message, a = .error message) ∨
      ∃ call, a = .ok call ∧ ∀ r c, RefundMove s (.post r) c t (.calling call) := by
  obtain ⟨payment, s₁, hpayment, h₁⟩ := bind_ok.mp h
  obtain ⟨hget, rfl⟩ := lookup_ok.mp hpayment
  split at h₁
  · obtain ⟨rfl, rfl⟩ := pure_ok.mp h₁
    exact .inl ⟨rfl, _, rfl⟩
  cases hdata : getSessionData r payment with
  | none =>
    simp only [hdata] at h₁
    obtain ⟨rfl, rfl⟩ := pure_ok.mp h₁
    exact .inl ⟨rfl, _, rfl⟩
  | some data =>
    simp only [hdata] at h₁
    have hpk : payment.pk = r.paymentPk := Table.pk_of_get hget
    exact book_ok (hpk ▸ hget) h₁

theorem RefundWorker.act_move {s t : RefundStore} {p q : RefundWorker} {c : RefundChoice}
    (h : RefundWorker.act s p c = some (t, q)) : RefundMove s p c t q := by
  cases p with
  | post r =>
    cases hok : RefundConfirmView.post r c.rateLimited c.idempotencyKey c.now s with
    | error e =>
      simp only [RefundWorker.act, hok] at h
      cases h
      exact .refused rfl
    | ok x =>
      obtain ⟨a, t'⟩ := x
      obtain ⟨rfl, message, rfl⟩ | ⟨call, rfl, hmove⟩ := post_ok hok
      · simp only [RefundWorker.act, hok] at h
        cases h
        exact .refused rfl
      · simp only [RefundWorker.act, hok] at h
        cases h
        exact hmove r c
  | calling call =>
    cases h
    exact .called
  | recording call executed id =>
    cases hok : confirmed call id s with
    | error e =>
      simp only [RefundWorker.act, hok] at h
      cases h
      exact .unconfirmed hok
    | ok x =>
      simp only [RefundWorker.act, hok] at h
      cases h
      obtain ⟨T, hupdate, ht⟩ := write_ok.mp hok
      rw [ht]
      exact .confirmed hupdate
  | failing call executed =>
    cases hok : callFailed call s with
    | error e =>
      simp only [RefundWorker.act, hok] at h
      cases h
      exact .stuck
    | ok x =>
      simp only [RefundWorker.act, hok] at h
      cases h
      obtain ⟨T, hupdate, ht⟩ := write_ok.mp hok
      rw [ht]
      exact .failed hupdate
  | redirected message => cases h
  | raised e => cases h
  | done => cases h
  | dead => cases h

/-! ## Bookings persist -/

namespace RefundStore

variable {s t : RefundStore}

/-- Payments keep their charge, refunds their payment and amount. -/
structure Grows (s t : RefundStore) : Prop where
  charges : ∀ k charge, s.chargeOf k = some charge → t.chargeOf k = some charge
  refunds : ∀ k r, s.refunds.get k = some r →
    ∃ r', t.refunds.get k = some r' ∧ r'.payment = r.payment ∧ r'.amount = r.amount

theorem Grows.booked {call : RefundCall} {r : Refund} (h : Grows s t) (hr : call.Booked s r) :
    ∃ r', call.Booked t r' := by
  obtain ⟨hget, hpayment, hamount, hcharge⟩ := hr
  obtain ⟨r', hget', hpayment', hamount'⟩ := h.refunds _ r hget
  exact ⟨r', hget', hpayment'.trans hpayment, hamount'.trans hamount, h.charges _ _ hcharge⟩

theorem chargeOf_congr (h : t.payments = s.payments) : t.chargeOf = s.chargeOf := by
  funext k
  rw [chargeOf, chargeOf, h]

theorem share_congr (h : t.payments = s.payments) : t.share = s.share := by
  funext charge r
  rw [share, share, chargeOf_congr h]

theorem Attached.insert {refund : Refund} {T : Table Refund.schema} (hs : s.Attached)
    (hpayments : t.payments = s.payments) (hrefunds : t.refunds = T)
    (hinsert : s.refunds.insert refund = .ok T) (hrefund : (s.chargeOf refund.payment).isSome) :
    t.Attached := by
  intro r hr
  rw [chargeOf_congr hpayments]
  rw [hrefunds, (Table.insert_ok.mp hinsert).2, List.mem_append, List.mem_singleton] at hr
  rcases hr with hr | rfl
  · exact hs r hr
  · exact hrefund

/-- Rewriting a refund without moving it to another payment. -/
theorem update_kept {k : Uuid} {f : Refund → Refund} {T : Table Refund.schema}
    (hupdate : s.refunds.update k f = .ok T)
    (hf : ∀ r, (f r).pk = r.pk ∧ (f r).payment = r.payment ∧ (f r).amount = r.amount) :
    (∀ j r, s.refunds.get j = some r →
      ∃ r', T.get j = some r' ∧ r'.payment = r.payment ∧ r'.amount = r.amount) ∧
    ∀ r ∈ T.rows, ∃ r₀ ∈ s.refunds.rows, r.payment = r₀.payment := by
  cases hget : s.refunds.get k with
  | none =>
    rw [Table.update_of_none hget, Except.ok.injEq] at hupdate
    subst hupdate
    exact ⟨fun j r hr => ⟨r, hr, rfl, rfl⟩, fun r hr => ⟨r, hr, rfl⟩⟩
  | some r₁ =>
    have hpk : r₁.pk = k := Table.pk_of_get hget
    have hrow := Table.get_update hupdate hget ((hf r₁).1.trans hpk)
    constructor
    · intro j r hr
      rw [hrow]
      split
      next hkj =>
        obtain rfl : r₁ = r := Option.some.inj (hget.symm.trans (hkj ▸ hr))
        exact ⟨_, rfl, (hf r₁).2⟩
      next => exact ⟨r, hr, rfl, rfl⟩
    · intro r hr
      rcases (Table.mem_update hupdate hget).mp hr with ⟨hr, -⟩ | rfl
      · exact ⟨r, hr, rfl⟩
      · exact ⟨r₁, Table.mem_of_get hget, (hf r₁).2.1⟩

end RefundStore

section Moves

variable {s t : RefundStore} {p q : RefundWorker} {c : RefundChoice}

@[simp] theorem createRefund_payments (call : RefundCall) (executes : Bool) :
    (RefundWorker.createRefund s call executes).payments = s.payments := by
  unfold RefundWorker.createRefund
  split <;> rfl

@[simp] theorem createRefund_refunds (call : RefundCall) (executes : Bool) :
    (RefundWorker.createRefund s call executes).refunds = s.refunds := by
  unfold RefundWorker.createRefund
  split <;> rfl

theorem call_reply (call : RefundCall) (c : RefundChoice) :
    RefundWorker.call (match c.gatewayRefundId with
      | some id => .recording call c.executes id
      | none => .failing call c.executes) = some call := by
  cases c.gatewayRefundId with
  | none => rfl
  | some id => rfl

theorem RefundMove.payments (h : RefundMove s p c t q) : t.payments = s.payments := by
  cases h with
  | called => exact createRefund_payments _ _
  | _ => rfl

theorem RefundMove.grows (h : RefundMove s p c t q) : s.Grows t := by
  refine ⟨fun k charge hk => by rwa [chargeOf_congr h.payments], ?_⟩
  cases h with
  | booked _ _ inserted => exact fun k r hr => ⟨r, Table.get_of_insert inserted hr, rfl, rfl⟩
  | confirmed updated => exact (update_kept updated fun r => ⟨rfl, rfl, rfl⟩).1
  | failed updated => exact (update_kept updated fun r => ⟨rfl, rfl, rfl⟩).1
  | called => exact fun k r hr => ⟨r, by rwa [createRefund_refunds], rfl, rfl⟩
  | _ => exact fun k r hr => ⟨r, hr, rfl, rfl⟩

theorem RefundMove.attached (h : RefundMove s p c t q) (hs : s.Attached) : t.Attached := by
  have hupdated : ∀ {k : Uuid} {f : Refund → Refund} {T : Table Refund.schema},
      s.refunds.update k f = .ok T →
      (∀ r, (f r).pk = r.pk ∧ (f r).payment = r.payment ∧ (f r).amount = r.amount) →
      ∀ r ∈ T.rows, (s.chargeOf r.payment).isSome := by
    intro k f T hupdate hf r hr
    obtain ⟨r₀, hr₀, heq⟩ := (update_kept hupdate hf).2 r hr
    rw [heq]
    exact hs r₀ hr₀
  cases h with
  | booked payment _ inserted _ paid =>
    refine hs.insert rfl rfl inserted ?_
    rw [paid, chargeOf, payment]
    rfl
  | confirmed updated => exact hupdated updated fun r => ⟨rfl, rfl, rfl⟩
  | failed updated => exact hupdated updated fun r => ⟨rfl, rfl, rfl⟩
  | called =>
    intro r hr
    rw [chargeOf_congr (createRefund_payments _ _)]
    exact hs r (by simpa using hr)
  | _ => exact hs

/-- The next state of a worker is about a booking. -/
theorem RefundMove.booking (h : RefundMove s p c t q)
    (hp : ∀ call, p.call = some call → ∃ r, call.Booked s r) :
    ∀ call, q.call = some call → ∃ r, call.Booked t r := by
  intro call hq
  cases h with
  | refused finished => simp [finished] at hq
  | booked payment _ inserted _ paid called =>
    cases hq
    obtain ⟨hrefund, hpayment, hamount, hcharge⟩ := called
    refine ⟨_, ?_, paid.trans hpayment.symm, hamount.symm, ?_⟩
    · exact (Table.get_insert inserted _).trans (if_pos hrefund.symm)
    · rw [hpayment, hcharge]
      exact congrArg (Option.map Payment.gatewayChargeId) payment
  | @called call' =>
    have hcall : call' = call := Option.some.inj ((call_reply call' c).symm.trans hq)
    obtain ⟨r, hr⟩ := hp call (congrArg some hcall)
    have hmove : RefundMove s (.calling call') c (RefundWorker.createRefund s call' c.executes) _ :=
      .called
    exact hmove.grows.booked hr
  | confirmed => cases hq
  | unconfirmed =>
    cases hq
    exact hp _ rfl
  | failed => cases hq
  | stuck => cases hq

end Moves

theorem CheckoutWriter.write_ok {s t : RefundStore} {x : CheckoutWriter} (h : x.write s = some t) :
    t.refunds = s.refunds ∧ t.executed = s.executed ∧
      (t.payments = s.payments ∨ ∃ p, s.payments.insert p = .ok t.payments) := by
  cases x with
  | intend i =>
    cases h
    cases hok : Transaction.create intentTable PaymentError.ofViolation
      (fun pk => { i with pk }) s with
    | error e =>
      rw [commit_of_error hok]
      exact ⟨rfl, rfl, .inl rfl⟩
    | ok r =>
      obtain ⟨-, T, -, ht⟩ := create_ok.mp hok
      rw [commit_of_ok hok, ht]
      exact ⟨rfl, rfl, .inl rfl⟩
  | transition intent status =>
    cases h
    cases hok : Transaction.write intentTable PaymentError.ofViolation intent
        (fun row => { row with status }) s with
    | error e =>
      rw [commit_of_error hok]
      exact ⟨rfl, rfl, .inl rfl⟩
    | ok r =>
      obtain ⟨T, -, ht⟩ := Transaction.write_ok.mp hok
      rw [commit_of_ok hok, ht]
      exact ⟨rfl, rfl, .inl rfl⟩
  | capture p =>
    cases h
    cases hok : Transaction.create paymentTable PaymentError.ofViolation
      (fun pk => { p with pk }) s with
    | error e =>
      rw [commit_of_error hok]
      exact ⟨rfl, rfl, .inl rfl⟩
    | ok r =>
      obtain ⟨-, T, hinsert, ht⟩ := create_ok.mp hok
      rw [commit_of_ok hok, ht]
      exact ⟨rfl, rfl, .inr ⟨_, hinsert⟩⟩

theorem CheckoutWriter.grows {s t : RefundStore} {x : CheckoutWriter} (h : x.write s = some t) :
    s.Grows t := by
  obtain ⟨hrefunds, -, hpayments⟩ := CheckoutWriter.write_ok h
  refine ⟨fun k charge hk => ?_, fun k r hr => ⟨r, by rwa [hrefunds], rfl, rfl⟩⟩
  rcases hpayments with hpayments | ⟨p, hinsert⟩
  · rwa [chargeOf_congr hpayments]
  · obtain ⟨q, hq, hcharge⟩ := Option.map_eq_some_iff.mp hk
    exact Option.map_eq_some_iff.mpr ⟨q, Table.get_of_insert hinsert hq, hcharge⟩

/-- Refunds belong to payments, and every worker's booking has its row. -/
theorem booked_of_reachable {s : Pool.State RefundStore RefundWorker}
    (h : refunds.machine.Reachable s) :
    s.store.Attached ∧ ∀ p ∈ s.workers, ∀ call, p.call = some call →
      ∃ r, call.Booked s.store r := by
  refine Program.invariant (P := refunds) (I := Attached)
    (J := fun st p => ∀ call, p.call = some call → ∃ r, call.Booked st r) ?_ ?_ ?_ ?_ ?_ h
  · intro st hst r hr
    rw [hst.1] at hr
    cases hr
  · intro st p _ hentry call hcall
    cases p with
    | post r => cases hcall
    | _ => cases hentry
  · intro st _ call hcall
    cases hcall
  · intro st p e st' q hst hp hact
    have hmove := RefundWorker.act_move hact
    refine ⟨hmove.attached hst, hmove.booking hp, fun w hw call hcall => ?_⟩
    obtain ⟨r, hr⟩ := hw call hcall
    exact hmove.grows.booked hr
  · intro st x st' hst henv
    have hgrows := CheckoutWriter.grows henv
    refine ⟨fun r hr => ?_, fun w hw call hcall => ?_⟩
    · rw [(CheckoutWriter.write_ok henv).1] at hr
      obtain ⟨charge, hcharge⟩ := Option.isSome_iff_exists.mp (hst r hr)
      rw [hgrows.charges _ _ hcharge]
      rfl
    · obtain ⟨r, hr⟩ := hw call hcall
      exact hgrows.booked hr

/-! ## A booking is settled by one worker -/

/-- How many workers may still settle a refund. -/
def RefundWorker.holds (refund : Uuid) (p : RefundWorker) : ℤ :=
  (p.call.map fun call => if call.refund = refund then (1 : ℤ) else 0).getD 0

theorem RefundWorker.holds_of_call {p : RefundWorker} {call : RefundCall} (h : p.call = some call)
    (refund : Uuid) : p.holds refund = if call.refund = refund then 1 else 0 := by
  rw [RefundWorker.holds, h]
  rfl

theorem RefundWorker.holds_of_none {p : RefundWorker} (h : p.call = none) (refund : Uuid) :
    p.holds refund = 0 := by
  rw [RefundWorker.holds, h]
  rfl

theorem RefundWorker.holds_nonneg (refund : Uuid) (p : RefundWorker) : 0 ≤ p.holds refund := by
  cases h : p.call with
  | none => rw [RefundWorker.holds_of_none h]
  | some call =>
    rw [RefundWorker.holds_of_call h]
    split <;> decide

namespace RefundStore

def settledOnce (s : RefundStore) (refund : Uuid) : ℤ :=
  ((s.refunds.get refund).map fun r => if r.gatewayStatus = .pending then (0 : ℤ) else 1).getD 0

def bookedOnce (s : RefundStore) (refund : Uuid) : ℤ :=
  ((s.refunds.get refund).map fun _ => (1 : ℤ)).getD 0

variable {s t : RefundStore} {k : Uuid}

theorem settledOnce_nonneg (s : RefundStore) (refund : Uuid) : 0 ≤ s.settledOnce refund := by
  unfold settledOnce
  cases s.refunds.get refund with
  | none => exact le_refl _
  | some r =>
    simp only [Option.map_some, Option.getD_some]
    split <;> decide

theorem settledOnce_le (s : RefundStore) (refund : Uuid) :
    s.settledOnce refund ≤ s.bookedOnce refund := by
  unfold settledOnce bookedOnce
  cases s.refunds.get refund with
  | none => exact le_refl _
  | some r =>
    simp only [Option.map_some, Option.getD_some]
    split <;> decide

theorem once_congr (h : t.refunds = s.refunds) (refund : Uuid) :
    t.bookedOnce refund = s.bookedOnce refund ∧ t.settledOnce refund = s.settledOnce refund := by
  rw [bookedOnce, bookedOnce, settledOnce, settledOnce, h]
  exact ⟨rfl, rfl⟩

/-- Rewriting one refund. -/
theorem once_update {f : Refund → Refund} (hupdate : s.refunds.update k f = .ok t.refunds)
    (hf : ∀ r, (f r).pk = r.pk) (refund : Uuid) : t.bookedOnce refund = s.bookedOnce refund ∧
      (k ≠ refund → t.settledOnce refund = s.settledOnce refund) := by
  refine ⟨?_, fun hne => ?_⟩
  · by_cases hk : k = refund
    · subst hk
      unfold bookedOnce
      cases hget : s.refunds.get k with
      | none =>
        rw [Table.update_of_none hget, Except.ok.injEq] at hupdate
        rw [← hupdate, hget]
      | some r =>
        rw [Table.get_update hupdate hget ((hf r).trans (Table.pk_of_get hget)), if_pos rfl]
        rfl
    · rw [bookedOnce, bookedOnce, Table.get_update_of_ne hupdate hf hk]
  · rw [settledOnce, settledOnce, Table.get_update_of_ne hupdate hf hne]

end RefundStore

theorem RefundMove.permit {s t : RefundStore} {p q : RefundWorker} {c : RefundChoice}
    (refund : Uuid)
    (h : RefundMove s p c t q) : q.holds refund + t.settledOnce refund + s.bookedOnce refund ≤
      p.holds refund + s.settledOnce refund + t.bookedOnce refund := by
  have hsettled : ∀ {call : RefundCall} {f : Refund → Refund} {t : RefundStore},
      s.refunds.update call.refund f = .ok t.refunds → (∀ r, (f r).pk = r.pk) → p.call = some call →
      t.settledOnce refund + s.bookedOnce refund ≤
        p.holds refund + s.settledOnce refund + t.bookedOnce refund := by
    intro call f t hupdate hf hcall
    obtain ⟨hbooked, hother⟩ := once_update (t := t) hupdate hf refund
    have hle := settledOnce_le t refund
    have hnonneg := settledOnce_nonneg s refund
    have hone : t.bookedOnce refund ≤ 1 := by
      unfold bookedOnce
      cases t.refunds.get refund <;> simp
    rw [RefundWorker.holds_of_call hcall]
    split
    · omega
    next hne =>
      have hsame := hother hne
      omega
  cases h with
  | refused finished =>
    rw [RefundWorker.holds_of_none finished, RefundWorker.holds_of_none (p := .post _) rfl]
  | @booked _ _ _ _ r _ _ payment _ inserted pending _ called =>
    obtain ⟨hrefund, -⟩ := called
    rw [RefundWorker.holds_of_none (p := .post _) rfl, RefundWorker.holds_of_call rfl, hrefund]
    have hget : ∀ k, Table.get _ k = if r.pk = k then some r else s.refunds.get k :=
      Table.get_insert inserted
    simp only [settledOnce, bookedOnce, hget]
    split
    next hk =>
      have hnone : s.refunds.get refund = none := by
        rw [Table.get_eq_none]
        exact fun a ha => hk ▸ ((Table.insert_ok.mp inserted).1.2 a ha).1
      simp [hnone, pending]
    next => exact le_refl _
  | @called call =>
    obtain ⟨hbooked, hsettled⟩ :=
      once_congr (createRefund_refunds (s := s) call c.executes) refund
    rw [RefundWorker.holds_of_call (call_reply call c), RefundWorker.holds_of_call rfl, hbooked,
      hsettled]
  | confirmed updated =>
    rw [RefundWorker.holds_of_none (p := .done) rfl, Int.zero_add]
    exact hsettled (t := { s with refunds := _ }) updated (fun _ => rfl) rfl
  | unconfirmed =>
    rw [RefundWorker.holds_of_call (p := .failing _ _) rfl,
      RefundWorker.holds_of_call (p := .recording _ _ _) rfl]
  | failed updated =>
    rw [RefundWorker.holds_of_none (p := .done) rfl, Int.zero_add]
    exact hsettled (t := { s with refunds := _ }) updated (fun _ => rfl) rfl
  | stuck =>
    have hnonneg := RefundWorker.holds_nonneg refund (.failing ‹_› ‹_›)
    rw [RefundWorker.holds_of_none (p := .raised _) rfl]
    omega

/-- Whoever holds a booking finds it pending. -/
theorem pending_of_held {s : Pool.State RefundStore RefundWorker} (h : refunds.machine.Reachable s)
    {i : ℕ} {p : RefundWorker} {call : RefundCall} (hp : s.workers[i]? = some p)
    (hcall : p.call = some call) : ∃ r, call.Booked s.store r ∧ r.gatewayStatus = .pending := by
  obtain ⟨r, hr⟩ := (booked_of_reachable h).2 p (List.mem_of_getElem? hp) call hcall
  refine ⟨r, hr, ?_⟩
  have hcovered := Program.covered (P := refunds) (RefundWorker.holds call.refund)
    (settledOnce · call.refund) (bookedOnce · call.refund) ?_ ?_ rfl
    (RefundWorker.holds_nonneg call.refund) ?_ ?_ h
  · have hle : p.holds call.refund ≤ (s.workers.map (RefundWorker.holds call.refund)).sum :=
      List.single_le_sum (fun x hx => by
        obtain ⟨w, -, rfl⟩ := List.mem_map.mp hx
        exact RefundWorker.holds_nonneg _ w) _ (List.mem_map_of_mem (List.mem_of_getElem? hp))
    rw [RefundWorker.holds_of_call hcall, if_pos rfl] at hle
    simp only [settledOnce, bookedOnce, hr.1, Option.map_some, Option.getD_some] at hcovered
    by_contra hne
    rw [if_neg hne] at hcovered
    omega
  · intro st hst
    rw [settledOnce, bookedOnce, hst.1]
    exact le_refl _
  · intro w hentry
    cases w with
    | post r => rfl
    | _ => cases hentry
  · intro s i w e st q _ _ hact
    exact (RefundWorker.act_move hact).permit call.refund
  · intro s x st _ henv
    obtain ⟨hbooked, hsettled⟩ := once_congr (CheckoutWriter.write_ok henv).1 call.refund
    simp only [hbooked, hsettled]
    exact le_refl _

/-! ## The books -/

namespace RefundStore

variable {s t : RefundStore} {charge : String}

/-- What the books hold against a charge. -/
def bookedFor (s : RefundStore) (charge : String) : ℤ := Table.total (s.share charge) s.refunds

theorem bookedFor_insert {refund : Refund} (hpayments : t.payments = s.payments)
    (hinsert : s.refunds.insert refund = .ok t.refunds) :
    t.bookedFor charge = s.bookedFor charge + s.share charge refund := by
  rw [bookedFor, bookedFor, share_congr hpayments, Table.total_insert hinsert]

theorem bookedFor_update {k : Uuid} {r : Refund} {f : Refund → Refund}
    (hpayments : t.payments = s.payments) (hupdate : s.refunds.update k f = .ok t.refunds)
    (hget : s.refunds.get k = some r) :
    t.bookedFor charge = s.bookedFor charge - s.share charge r + s.share charge (f r) := by
  rw [bookedFor, bookedFor, share_congr hpayments, Table.total_update hupdate hget]

/-- Refunds are attached, so a new payment has none. -/
theorem bookedFor_of_grows (hs : s.Attached) (hgrows : s.Grows t)
    (hrefunds : t.refunds = s.refunds) :
    t.bookedFor charge = s.bookedFor charge := by
  unfold bookedFor Table.total
  rw [hrefunds]
  refine congrArg List.sum (List.map_congr_left fun r hr => ?_)
  obtain ⟨c, hc⟩ := Option.isSome_iff_exists.mp (hs r hr)
  rw [share, share, hc, hgrows.charges _ _ hc]

/-- The share of a pending refund. -/
theorem share_of_pending {r : Refund} {payment : Uuid} {c : String} {a : Cents}
    (hstatus : r.gatewayStatus ≠ .failed) (hpayment : r.payment = payment) (hamount : r.amount = a)
    (hcharge : s.chargeOf payment = some c) : s.share charge r = if c = charge then a else 0 := by
  simp only [share, hpayment, hcharge, hamount, Option.some.injEq, hstatus, ne_eq,
    not_false_eq_true,
    and_true]

theorem share_of_failed {r : Refund} (hstatus : r.gatewayStatus = .failed) :
    s.share charge r = 0 := by
  simp [share, hstatus]

variable {call : RefundCall} {r : Refund}

/-- A refund that the gateway confirmed still counts. -/
theorem bookedFor_confirmed {id : String} (hr : call.Booked s r)
    (hstatus : r.gatewayStatus = .pending)
    (hpayments : t.payments = s.payments) (hupdate : s.refunds.update call.refund (fun row =>
      { row with gatewayRefundId := id, gatewayStatus := .succeeded }) = .ok t.refunds) :
    t.bookedFor charge = s.bookedFor charge := by
  obtain ⟨hget, hpayment, hamount, hcharge⟩ := hr
  have hold : s.share charge r = if call.gatewayChargeId = charge then call.amount else 0 :=
    share_of_pending (by simp [hstatus]) hpayment hamount hcharge
  have hnew : s.share charge { r with gatewayRefundId := id, gatewayStatus := .succeeded } =
      if call.gatewayChargeId = charge then call.amount else 0 :=
    share_of_pending (by simp) hpayment hamount hcharge
  rw [bookedFor_update hpayments hupdate hget, hold, hnew]
  omega

/-- A failed refund does not count any more. -/
theorem bookedFor_failed {marker : String} (hr : call.Booked s r)
    (hstatus : r.gatewayStatus = .pending)
    (hpayments : t.payments = s.payments) (hupdate : s.refunds.update call.refund (fun row =>
      { row with gatewayStatus := .failed, gatewayRefundId := marker }) = .ok t.refunds) :
    t.bookedFor charge =
      s.bookedFor charge - if call.gatewayChargeId = charge then call.amount else 0 := by
  obtain ⟨hget, hpayment, hamount, hcharge⟩ := hr
  rw [bookedFor_update hpayments hupdate hget,
    share_of_pending (by simp [hstatus]) hpayment hamount hcharge, share_of_failed rfl]
  omega

end RefundStore

/-- The amount that is at stake in a call of the gateway for a charge. -/
def RefundCall.stake (call : RefundCall) (charge : String) : ℤ :=
  if call.gatewayChargeId = charge then call.amount else 0

/-- What a step from `p` to `q` adds to the books of a charge. -/
def RefundWorker.rebooks (charge : String) : RefundWorker → RefundWorker → ℤ
  | .post _, .calling call => call.stake charge
  | .failing call _, .done => -call.stake charge
  | _, _ => 0

theorem RefundMove.books {s : Pool.State RefundStore RefundWorker}
    (hs : refunds.machine.Reachable s)
    {i : ℕ} {p q : RefundWorker} {c : RefundChoice} {t : RefundStore} (hp : s.workers[i]? = some p)
    (h : RefundMove s.store p c t q) (charge : String) :
    t.bookedFor charge = s.store.bookedFor charge + RefundWorker.rebooks charge p q := by
  have hpayments := h.payments
  cases h with
  | @refused _ _ q finished =>
    cases q with
    | calling call => cases finished
    | _ => exact (Int.add_zero _).symm
  | @booked _ _ _ _ refund payment call hget within inserted pending paid called =>
    obtain ⟨hrefund, hpayment, hamount, hcharge⟩ := called
    have hcharges : s.store.chargeOf payment.pk = some payment.gatewayChargeId :=
      congrArg (Option.map Payment.gatewayChargeId) hget
    rw [bookedFor_insert hpayments inserted,
      share_of_pending (by simp [pending]) paid hamount.symm hcharges, ← hcharge]
    rfl
  | @called call =>
    have hsame : (RefundWorker.createRefund s.store call c.executes).bookedFor charge =
        s.store.bookedFor charge := by
      rw [bookedFor, bookedFor, share_congr hpayments, createRefund_refunds]
    rw [hsame]
    cases c.gatewayRefundId with
    | none => exact (Int.add_zero _).symm
    | some id => exact (Int.add_zero _).symm
  | confirmed updated =>
    obtain ⟨r, hr, hstatus⟩ := pending_of_held hs hp rfl
    rw [bookedFor_confirmed hr hstatus hpayments updated]
    exact (Int.add_zero _).symm
  | unconfirmed => exact (Int.add_zero _).symm
  | failed updated =>
    obtain ⟨r, hr, hstatus⟩ := pending_of_held hs hp rfl
    exact bookedFor_failed hr hstatus hpayments updated
  | stuck => exact (Int.add_zero _).symm

theorem RefundCall.Booked.stake_nonneg {call : RefundCall} {s : RefundStore} {r : Refund}
    (h : call.Booked s r) (charge : String) : 0 ≤ call.stake charge := by
  have hpos := amount_pos (Table.mem_of_get h.1)
  rw [h.2.2.1] at hpos
  unfold RefundCall.stake
  split
  · exact hpos.le
  · exact le_refl 0

theorem capped_of_reachable {s : Pool.State RefundStore RefundWorker}
    (h : refunds.machine.Reachable s) : s.store.Capped := by
  refine Program.reachable_invariant (P := refunds) (I := Capped) ?_ ?_ ?_ h
  · intro st hst p hp
    rw [computeAlreadyRefunded, hst.1]
    exact paid_nonneg (st.payments.valid p hp)
  · intro s i w e t q hs hw hcapped hact p hp
    have hmove := RefundWorker.act_move hact
    have hp' : p ∈ s.store.payments.rows := hmove.payments ▸ hp
    have hcap := hcapped p hp'
    have hbooks := hmove.books hs hw p.gatewayChargeId
    rw [computeAlreadyRefunded_eq_total hp'] at hcap
    rw [computeAlreadyRefunded_eq_total hp]
    change t.bookedFor p.gatewayChargeId ≤ p.amountPaid
    change s.store.bookedFor p.gatewayChargeId ≤ p.amountPaid at hcap
    rw [hbooks]
    unfold RefundWorker.rebooks
    split
    next r call =>
      cases hmove with
      | refused finished => cases finished
      | @booked _ _ _ _ refund payment _ hget within inserted pending paid called =>
        obtain ⟨-, -, hamount, hcharge⟩ := called
        rw [computeAlreadyRefunded_eq_total (Table.mem_of_get hget)] at within
        unfold RefundCall.stake
        split
        next hsame =>
          have hpayment : payment = p := Table.eq_of_clash (i := Payment.gatewayChargeIdKey)
            (by simp [Payment.schema]) (Table.mem_of_get hget) hp'
            ⟨Option.some_ne_none _, congrArg some (hcharge.symm.trans hsame)⟩
          subst hpayment
          rw [hamount]
          exact le_sub_iff_add_le'.mp within
        next => rwa [Int.add_zero]
    next call executed =>
      obtain ⟨r, hr, -⟩ := pending_of_held hs hw rfl
      have hstake := hr.stake_nonneg p.gatewayChargeId
      omega
    next => rwa [Int.add_zero]
  · intro s x t hs hcapped henv p hp
    have hattached := (booked_of_reachable hs).1
    obtain ⟨hrefunds, -, hpayments⟩ := CheckoutWriter.write_ok henv
    have hsame : t.computeAlreadyRefunded p.pk = s.store.computeAlreadyRefunded p.pk := by
      rw [computeAlreadyRefunded, computeAlreadyRefunded, hrefunds]
    rw [hsame]
    rcases hpayments with hpayments | ⟨p', hinsert⟩
    · exact hcapped p (hpayments ▸ hp)
    rw [Table.mem_insert hinsert] at hp
    rcases hp with hp | rfl
    · exact hcapped p hp
    · -- Nothing was refunded on a payment that did not exist.
      have hnone : s.store.refunds.rows.filter (fun r =>
          r.payment = p.pk ∧ r.gatewayStatus ≠ .failed) = [] := by
        refine List.filter_eq_nil_iff.mpr fun r hr hmine => ?_
        have hpk : r.payment = p.pk := (of_decide_eq_true hmine).1
        obtain ⟨charge, hcharge⟩ := Option.isSome_iff_exists.mp (hattached r hr)
        obtain ⟨p₀, hp₀, -⟩ := Option.map_eq_some_iff.mp hcharge
        exact ((Table.insert_ok.mp hinsert).1.2 p₀ (Table.mem_of_get hp₀)).1
          ((Table.pk_of_get hp₀).trans hpk)
      rw [computeAlreadyRefunded, hnone]
      exact paid_nonneg ((Table.insert_ok.mp hinsert).1.1)

/-! ## The gateway -/

/-- The gateway does not raise after it carried a refund out, and the identifier that it then
returns can be stored. -/
def GatewaySettles (db : RefundStore) (p : RefundWorker) (c : RefundChoice) : Prop :=
  match p with
  | .calling _ => c.executes = true → c.gatewayRefundId.isSome = true
  | .recording call true id => id.length ≤ 255 ∧
      ∀ row ∈ db.refunds.rows, row.pk ≠ call.refund → row.gatewayRefundId ≠ id
  | _ => True

instance (db : RefundStore) (p : RefundWorker) (c : RefundChoice) :
    Decidable (GatewaySettles db p c) := by
  unfold GatewaySettles
  split <;> infer_instance

theorem confirmed_returns {s : RefundStore} {call : RefundCall} {r : Refund} {id : String}
    {c : RefundChoice} (hr : call.Booked s r) (h : GatewaySettles s (.recording call true id) c) :
    Returns (confirmed call id) s := by
  obtain ⟨hlength, hfree⟩ := h
  have hget := hr.1
  have hpk : r.pk = call.refund := Table.pk_of_get hget
  have hvalid : Refund.schema.Valid
      { r with gatewayRefundId := id, gatewayStatus := .succeeded } := by
    have hold := s.refunds.valid r (Table.mem_of_get hget)
    simp only [Schema.Valid, Refund.schema, money, Check.width, List.forall_mem_cons,
      decide_eq_true_eq] at hold ⊢
    exact ⟨hold.1, hold.2.1, hlength, hold.2.2.2.1, fun _ hx => absurd hx List.not_mem_nil⟩
  have hapart : ∀ a ∈ s.refunds.rows, Refund.schema.pk a ≠ call.refund →
      Refund.schema.Apart a { r with gatewayRefundId := id, gatewayStatus := .succeeded } := by
    intro a ha hne
    refine ⟨fun heq => hne (heq.trans hpk), fun i hi => ?_⟩
    rw [Refund.schema, List.mem_singleton] at hi
    subst hi
    exact fun hclash => hfree a ha hne (Option.some.inj hclash.2)
  obtain ⟨T, hT⟩ := Table.update_returns_of_apart (f := fun row =>
    { row with gatewayRefundId := id, gatewayStatus := .succeeded }) hget hvalid hapart
  exact ⟨_, (write_ok (u := ())).mpr ⟨T, hT, rfl⟩⟩

/-- Whether a worker is about to book a refund as failed that the gateway carried out. -/
def RefundWorker.loses : RefundWorker → ℤ
  | .failing _ true => 1
  | _ => 0

theorem not_loses {s : Pool.State RefundStore RefundWorker}
    (h : (refunds.under GatewaySettles).machine.Reachable s) {p : RefundWorker}
    (hp : p ∈ s.workers) :
    p.loses = 0 := by
  have hnonneg : ∀ w : RefundWorker, 0 ≤ w.loses := by
    intro w
    unfold RefundWorker.loses
    split <;> decide
  have hcovered := Program.covered (P := refunds.under GatewaySettles)
    RefundWorker.loses (fun _ => 0)
    (fun _ => 0) (fun _ _ => le_refl 0) ?_ rfl hnonneg ?_ (fun _ _ _ _ _ => le_refl _) h
  · have hle : p.loses ≤ (s.workers.map RefundWorker.loses).sum :=
      List.single_le_sum (fun x hx => by
        obtain ⟨w, -, rfl⟩ := List.mem_map.mp hx
        exact hnonneg w) _ (List.mem_map_of_mem hp)
    have hp0 := hnonneg p
    omega
  · intro w hentry
    cases w with
    | post r => rfl
    | _ => cases hentry
  · intro s i w e st q hs hw hact
    obtain ⟨hsettles, hact⟩ := Program.under_act.mp hact
    have hw0 := hnonneg w
    suffices hq : q.loses ≤ w.loses by omega
    cases RefundWorker.act_move hact with
    | @refused _ _ q finished =>
      cases q with
      | failing call executed => cases finished
      | _ => exact le_refl 0
    | booked => exact le_refl 0
    | @called call =>
      cases hid : e.gatewayRefundId with
      | some id => exact le_refl 0
      | none =>
        cases hexecutes : e.executes with
        | false => exact le_refl 0
        | true =>
          have hreplies := hsettles hexecutes
          rw [hid] at hreplies
          cases hreplies
    | confirmed => exact le_refl 0
    | @unconfirmed call _ executed id _ failed =>
      cases executed with
      | false => exact le_refl 0
      | true =>
        obtain ⟨r, hr, -⟩ := pending_of_held (Program.reachable_of_under hs) hw rfl
        obtain ⟨x, hx⟩ := confirmed_returns hr hsettles
        rw [hx] at failed
        cases failed
    | failed => exact hw0
    | stuck => exact hw0

/-- What a worker may still make the gateway refund, or book as failed. -/
def RefundWorker.outstanding (charge : String) : RefundWorker → ℤ
  | .calling call => max (call.stake charge) 0
  | .recording call false _ => max (call.stake charge) 0
  | .failing call false => max (call.stake charge) 0
  | _ => 0

theorem RefundWorker.outstanding_nonneg (charge : String) (p : RefundWorker) :
    0 ≤ p.outstanding charge := by
  unfold RefundWorker.outstanding
  split <;> omega

theorem refundedAtGateway_createRefund (s : RefundStore) (call : RefundCall) (charge : String) :
    (RefundWorker.createRefund s call true).refundedAtGateway charge =
      s.refundedAtGateway charge + call.stake charge := by
  unfold RefundWorker.createRefund refundedAtGateway RefundCall.stake
  rw [if_pos rfl, List.filter_append, List.map_append, List.sum_append, List.filter_singleton]
  congr 1
  by_cases hcharge : call.gatewayChargeId = charge
  · simp [hcharge]
  · simp [hcharge]

/-- What left the gateway for a charge is held in the books. -/
theorem refunded_le_booked {s : Pool.State RefundStore RefundWorker}
    (h : (refunds.under GatewaySettles).machine.Reachable s) (charge : String) :
    s.store.refundedAtGateway charge ≤ s.store.bookedFor charge := by
  have hcovered := Program.covered (P := refunds.under GatewaySettles)
    (RefundWorker.outstanding charge)
    (refundedAtGateway · charge) (bookedFor · charge) ?_ ?_ rfl
    (RefundWorker.outstanding_nonneg charge) ?_ ?_ h
  · have hsum : 0 ≤ (s.workers.map (RefundWorker.outstanding charge)).sum :=
      List.sum_nonneg fun x hx => by
        obtain ⟨w, -, rfl⟩ := List.mem_map.mp hx
        exact RefundWorker.outstanding_nonneg charge w
    exact (le_add_of_nonneg_left hsum).trans hcovered
  · intro st hst
    rw [refundedAtGateway, bookedFor, hst.1, hst.2]
    exact le_refl _
  · intro w hentry
    cases w with
    | post r => rfl
    | _ => cases hentry
  · intro s i w e t q hs hw hact
    have hact' := (Program.under_act.mp hact).2
    have hreachable := Program.reachable_of_under hs
    have hmove := RefundWorker.act_move hact'
    have hbooks := hmove.books hreachable hw charge
    have hkeeps := not_loses hs (List.mem_of_getElem? hw)
    have hbooked := (booked_of_reachable hreachable).2 w (List.mem_of_getElem? hw)
    have hstake : ∀ call, q.call = some call → 0 ≤ call.stake charge := by
      intro call hcall
      obtain ⟨r, hr⟩ := hmove.booking hbooked call hcall
      exact hr.stake_nonneg charge
    suffices hstep : q.outstanding charge + t.refundedAtGateway charge ≤
        w.outstanding charge + s.store.refundedAtGateway charge + RefundWorker.rebooks charge w q by
      rw [hbooks]
      omega
    cases hmove with
    | @refused _ _ q finished =>
      cases q with
      | calling call => cases finished
      | recording call executed id => cases finished
      | failing call executed => cases finished
      | _ => simp [RefundWorker.outstanding, RefundWorker.rebooks]
    | @booked _ _ _ _ _ _ call =>
      have hcall := hstake call rfl
      have hsum : ∀ gateway : ℤ,
          max (call.stake charge) 0 + gateway ≤ 0 + gateway + call.stake charge := by
        intro gateway
        omega
      exact hsum _
    | @called call =>
      have hcall := hstake call (call_reply call e)
      have hdone : RefundWorker.rebooks charge (.calling call) (match e.gatewayRefundId with
          | some id => .recording call e.executes id
          | none => .failing call e.executes) = 0 := by
        cases e.gatewayRefundId with
        | none => rfl
        | some id => rfl
      have hleft : RefundWorker.outstanding charge (match e.gatewayRefundId with
          | some id => .recording call e.executes id
          | none => .failing call e.executes) =
        if e.executes then 0 else max (call.stake charge) 0 := by
        cases e.gatewayRefundId with
        | none => cases e.executes <;> rfl
        | some id => cases e.executes <;> rfl
      rw [hdone, hleft]
      cases e.executes with
      | false => exact (Int.add_zero _).ge
      | true =>
        rw [refundedAtGateway_createRefund]
        have hsum : ∀ gateway : ℤ,
            0 + (gateway + call.stake charge) ≤ max (call.stake charge) 0 + gateway + 0 := by
          intro gateway
          omega
        exact hsum _
    | @confirmed call _ executed id =>
      have hpaid := RefundWorker.outstanding_nonneg charge (.recording call executed id)
      have hsum : ∀ gateway : ℤ, 0 + gateway ≤
          RefundWorker.outstanding charge (.recording call executed id) + gateway + 0 := by
        intro gateway
        omega
      exact hsum _
    | @unconfirmed call _ executed =>
      cases executed with
      | false => simp [RefundWorker.outstanding, RefundWorker.rebooks]
      | true => simp [RefundWorker.outstanding, RefundWorker.rebooks]
    | @failed call _ executed =>
      cases executed with
      | false =>
        have hsum : ∀ gateway : ℤ,
            0 + gateway ≤ max (call.stake charge) 0 + gateway + -call.stake charge := by
          intro gateway
          omega
        exact hsum _
      | true => cases hkeeps
    | @stuck call _ executed =>
      have hpaid := RefundWorker.outstanding_nonneg charge (.failing call executed)
      simpa [RefundWorker.outstanding, RefundWorker.rebooks] using hpaid
  · intro s x t hs henv
    obtain ⟨hrefunds, hexecuted, -⟩ := CheckoutWriter.write_ok henv
    have hsame : t.bookedFor charge = s.store.bookedFor charge :=
      bookedFor_of_grows (booked_of_reachable (Program.reachable_of_under hs)).1
        (CheckoutWriter.grows henv) hrefunds
    rw [hsame, refundedAtGateway, refundedAtGateway, hexecuted]

/-- In every run the refunds of a payment that are not failed stay within the payment. In every run
in which the gateway settles what it carries out, so does the money that left the gateway. -/
theorem no_over_refund {s : Pool.State RefundStore RefundWorker} (h : refunds.machine.Reachable s) :
    (∀ p ∈ s.store.payments.rows, s.store.computeAlreadyRefunded p.pk ≤ p.amountPaid) ∧
    ((refunds.under GatewaySettles).machine.Reachable s → ∀ p ∈ s.store.payments.rows,
      s.store.refundedAtGateway p.gatewayChargeId ≤ p.amountPaid) := by
  have hcap := capped_of_reachable h
  refine ⟨hcap, fun hs p hp => ?_⟩
  have hle := hcap p hp
  rw [computeAlreadyRefunded_eq_total hp] at hle
  exact (refunded_le_booked hs p.gatewayChargeId).trans hle

/-- A completed payment of one dollar. -/
def completedPayment : List (Pool.Label RefundWorker RefundChoice CheckoutWriter) := [
  .env (.intend { pk := 0, payer := 1, purpose := .donation, status := .completed }),
  .env (.capture { pk := 0, intent := 1, gatewayChargeId := "ch", amountPaid := 100 })]

def fullRefund : RefundWorker := .post ⟨1, some ⟨1, 100, "duplicate", ""⟩, 2⟩

/-- Two confirmations of the full amount; the first call is carried out, then times out. -/
def timedOut : Pool.State RefundStore RefundWorker :=
  refunds.machine.final ⟨{}, []⟩ (completedPayment ++ [
    .spawn fullRefund, .act 0 { idempotencyKey := "a" }, .act 0 { executes := true }, .act 0 {},
    .spawn fullRefund, .act 1 { idempotencyKey := "b" },
    .act 1 { executes := true, gatewayRefundId := some "re" }, .act 1 {}])

/-- The same with a gateway that settles; the second confirmation is refused. -/
def settled : Pool.State RefundStore RefundWorker :=
  (refunds.under GatewaySettles).machine.final ⟨{}, []⟩ (completedPayment ++ [
    .spawn fullRefund, .act 0 { idempotencyKey := "a" },
    .act 0 { executes := true, gatewayRefundId := some "re" }, .act 0 {},
    .spawn fullRefund, .act 1 { idempotencyKey := "b" }])

theorem no_over_refund_settled :
    settled.store.payments.rows.map Payment.pk = [1] ∧
      settled.store.refundedAtGateway "ch" = 100 ∧ settled.store.refundedAtGateway "ch" ≤ 100 := by
  have hreachable : (refunds.under GatewaySettles).machine.Reachable settled :=
    Machine.Reachable.final (M := (refunds.under GatewaySettles).machine) (s := ⟨{}, []⟩)
      ⟨⟨rfl, rfl⟩, rfl⟩ _
  have hpayment : (⟨1, 1, "ch", 100, 0, 100, "card", none, none, 0⟩ : Payment) ∈
      settled.store.payments.rows := by decide +kernel
  exact ⟨by decide +kernel, by decide +kernel,
    (no_over_refund (Program.reachable_of_under hreachable)).2 hreachable _ hpayment⟩

/-- The payer got twice what was paid. -/
theorem refunded_twice :
    refunds.machine.Reachable timedOut ∧
      ∃ p ∈ timedOut.store.payments.rows, p.amountPaid = 100 ∧
        timedOut.store.refundedAtGateway p.gatewayChargeId = 200 := by
  refine ⟨Machine.Reachable.final (M := refunds.machine) (s := ⟨{}, []⟩) ⟨⟨rfl, rfl⟩, rfl⟩ _,
    ⟨1, 1, "ch", 100, 0, 100, "card", none, none, 0⟩, by decide +kernel, rfl, by decide +kernel⟩

end Civicos.Payments
