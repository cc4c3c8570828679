import Civicos.Payments.Bill

/-!
# Bill payments are recorded once

A payment request is recorded at most once for each tenant and request id, its bill is paid, and
a refused request leaves no trace. A paid bill takes further requests: the funds have moved.
-/
namespace Civicos.Payments

open Library Library.Transaction

/-- Every completed payment is for a paid bill. -/
def BillStore.PaidFor (s : BillStore) : Prop :=
  ∀ p ∈ s.payments.rows, p.status = .completed →
    ∃ b, s.bills.get p.bill = some b ∧ b.status = .paid

/-- The request is already recorded. -/
def BillStore.Recorded (s : BillStore) (r : TransferRequest) : Prop :=
  ∃ p ∈ s.payments.rows, p.platformTenantId = clip 100 r.platformTenantId ∧
    p.requestId = clip 100 r.requestId

/-- The payment that a request is recorded as. -/
structure GovStackBillPayment.Records (p : GovStackBillPayment) (r : TransferRequest)
    (b : GovStackBill) : Prop where
  bill : p.bill = b.pk
  requestId : p.requestId = clip 100 r.requestId
  platformTenantId : p.platformTenantId = clip 100 r.platformTenantId
  amount : p.amount = b.amount
  currency : p.currency = b.currency
  status : p.status = .completed

namespace GovStackP2GService

variable {s t : BillStore} {r : TransferRequest} {b : GovStackBill} {p : GovStackBillPayment}
  {billId tenant : String}

theorem audit_ok {e : AuditEntry} {u : Unit} (h : audit e s = .ok (u, t)) :
    t = { s with ledger := t.ledger } := by
  unfold audit at h
  cases hoverflow : e.overflow with
  | none =>
    simp only [hoverflow] at h
    cases h
    rfl
  | some column =>
    simp only [hoverflow] at h
    cases h

theorem getBill_ok (h : getBill billId tenant s = .ok (b, t)) :
    t = s ∧ s.billFor billId tenant = some b ∧ s.bills.get b.pk = some b := by
  obtain ⟨_, _, hget, h₁⟩ := bind_ok.mp h
  cases hget
  cases hfor : s.billFor billId tenant with
  | none =>
    simp only [hfor] at h₁
    cases h₁
  | some bill =>
    simp only [hfor] at h₁
    obtain ⟨rfl, rfl⟩ := pure_ok.mp h₁
    exact ⟨rfl, rfl, Table.get_eq_some.mpr ⟨List.mem_of_find?_eq_some hfor, rfl⟩⟩

/-- A payment is only created while its request is not recorded. -/
theorem createPayment_ok (h : createPayment r b s = .ok (p, t)) :
    p.Records r b ∧ ¬ s.Recorded r ∧ t = { s with payments := t.payments } ∧
      t.payments.rows = s.payments.rows ++ [p] := by
  unfold createPayment exceptIntegrityError at h
  split at h
  · cases h
  obtain ⟨rfl, T, hins, rfl⟩ := create_ok.mp h
  obtain ⟨⟨-, hapart⟩, hrows⟩ := Table.insert_ok.mp hins
  refine ⟨⟨rfl, rfl, rfl, rfl, rfl, rfl⟩, ?_, rfl, hrows⟩
  rintro ⟨p', hp', htenant, hrequest⟩
  have hclash := (hapart p' hp').2 GovStackBillPayment.tenantRequestId (.head _)
  refine hclash ⟨Option.some_ne_none _, ?_⟩
  simp [GovStackBillPayment.tenantRequestId, htenant, hrequest]

theorem markPaid_ok {u : Unit} (hb : s.bills.get b.pk = some b) (h : markPaid b s = .ok (u, t)) :
    t = { s with bills := t.bills } ∧
      ∀ k, t.bills.get k = if b.pk = k then some { b with status := .paid } else s.bills.get k := by
  unfold markPaid at h
  split at h
  · obtain ⟨T, hupd, rfl⟩ := write_ok.mp h
    exact ⟨rfl, fun k => Table.get_update hupd hb rfl k⟩
  next hpaid =>
    obtain ⟨-, rfl⟩ := pure_ok.mp h
    refine ⟨rfl, fun k => ?_⟩
    have hsame : { b with status := .paid } = b := by rw [← not_not.mp hpaid]
    rw [hsame]
    split
    next hk => rw [← hk, hb]
    · rfl

/-- What a successful payment request does: one completed payment of a bill that is paid then. -/
theorem createTransferRequest_ok {runtime : Bool} {now : Instant}
    (h : createTransferRequest runtime r now s = .ok (p, t)) : ¬ s.Recorded r ∧
      t.payments.rows = s.payments.rows ++ [p] ∧
        ∃ b, s.billFor r.billId r.platformTenantId = some b ∧
        p.Records r b ∧
          ∀ k, t.bills.get k =
            if b.pk = k then some { b with status := .paid } else s.bills.get k := by
  obtain ⟨b, s₁, hbill, h₁⟩ := bind_ok.mp h
  obtain ⟨rfl, hfor, hb⟩ := getBill_ok hbill
  obtain ⟨p', s₂, hpayment, h₂⟩ := bind_ok.mp h₁
  obtain ⟨hrecords, hnew, hs₂, hrows⟩ := createPayment_ok hpayment
  obtain ⟨_, s₃, hattempt, h₃⟩ := bind_ok.mp h₂
  obtain ⟨l, -, rfl⟩ := zoom_ok.mp hattempt
  obtain ⟨_, s₄, hmark, h₄⟩ := bind_ok.mp h₃
  have hb₂ : s₂.bills.get b.pk = some b := by
    rw [hs₂]
    exact hb
  obtain ⟨hs₄, hbills⟩ := markPaid_ok (s := BillStore.ledgerPart.set l s₂) hb₂ hmark
  obtain ⟨_, s₅, haudit, h₅⟩ := bind_ok.mp h₄
  have hs₅ := audit_ok haudit
  obtain ⟨rfl, rfl⟩ := pure_ok.mp h₅
  refine ⟨hnew, ?_, b, hfor, hrecords, fun k => ?_⟩
  · rw [hs₅, hs₄]
    exact hrows
  · rw [hs₅]
    refine (hbills k).trans ?_
    rw [hs₂]
    rfl

theorem markBillPaid_ok {actor : String} (h : markBillPaid billId tenant actor s = .ok (b, t)) :
    t.payments = s.payments ∧ ∃ b', s.bills.get b'.pk = some b' ∧
      ∀ k, t.bills.get k =
        if b'.pk = k then some { b' with status := .paid } else s.bills.get k := by
  obtain ⟨b', s₁, hbill, h₁⟩ := bind_ok.mp h
  obtain ⟨rfl, -, hb⟩ := getBill_ok hbill
  obtain ⟨_, s₂, hmark, h₂⟩ := bind_ok.mp h₁
  obtain ⟨hs₂, hbills⟩ := markPaid_ok hb hmark
  obtain ⟨_, s₃, haudit, h₃⟩ := bind_ok.mp h₂
  have hs₃ := audit_ok haudit
  obtain ⟨-, rfl⟩ := pure_ok.mp h₃
  refine ⟨?_, b', hb, fun k => ?_⟩
  · rw [hs₃, hs₂]
  · rw [hs₃]
    exact hbills k

end GovStackP2GService

/-! ## Paid bills stay paid -/

namespace BillStore

variable {s t : BillStore}

/-- A transaction that keeps paid bills paid and adds no payment. -/
theorem PaidFor.of_kept (h : s.PaidFor) (hpayments : t.payments = s.payments)
    (hkept : ∀ k b, s.bills.get k = some b → b.status = .paid →
      ∃ b', t.bills.get k = some b' ∧ b'.status = .paid) : t.PaidFor := by
  intro p hp hstatus
  rw [hpayments] at hp
  obtain ⟨b, hb, hpaid⟩ := h p hp hstatus
  exact hkept p.bill b hb hpaid

/-- Marking one bill as paid keeps the others. -/
theorem kept_of_marked {b : GovStackBill}
    (hbills : ∀ k, t.bills.get k = if b.pk = k then some { b with status := .paid }
      else s.bills.get k) {k : Uuid} {b' : GovStackBill} (hb' : s.bills.get k = some b')
    (hpaid : b'.status = .paid) : ∃ b'', t.bills.get k = some b'' ∧ b''.status = .paid := by
  rw [hbills]
  split
  · exact ⟨_, rfl, rfl⟩
  · exact ⟨b', hb', hpaid⟩

theorem paidFor_transfer {runtime : Bool} {r : TransferRequest} {now : Instant}
    {p : GovStackBillPayment} (hs : s.PaidFor)
    (h : GovStackP2GService.createTransferRequest runtime r now s = .ok (p, t)) : t.PaidFor := by
  obtain ⟨-, hrows, b, -, hrecords, hbills⟩ := GovStackP2GService.createTransferRequest_ok h
  intro p' hp' hstatus
  rw [hrows, List.mem_append, List.mem_singleton] at hp'
  rcases hp' with hp' | rfl
  · obtain ⟨b', hb', hpaid⟩ := hs p' hp' hstatus
    exact kept_of_marked hbills hb' hpaid
  · exact ⟨{ b with status := .paid }, by rw [hbills, hrecords.bill, if_pos rfl], rfl⟩

end BillStore

open BillStore GovStackP2GService

theorem BillWorker.act_paidFor {s t : BillStore} {p q : BillWorker} {c : BillChoice}
    (hs : s.PaidFor)
    (h : BillWorker.act s p c = some (t, q)) : t.PaidFor := by
  cases p with
  | transfer r =>
    cases h
    cases hok : createTransferRequest c.providerRuntimeEnabled r c.now s with
    | error e =>
      rw [commit_of_error hok]
      exact hs
    | ok x =>
      rw [commit_of_ok hok]
      exact paidFor_transfer hs hok
  | markPaid billId tenant actor =>
    cases h
    cases hok : markBillPaid billId tenant actor s with
    | error e =>
      rw [commit_of_error hok]
      exact hs
    | ok x =>
      rw [commit_of_ok hok]
      obtain ⟨hpayments, b, -, hbills⟩ := markBillPaid_ok hok
      exact hs.of_kept hpayments fun k b' hb' hpaid => kept_of_marked hbills hb' hpaid
  | transferred result => cases h
  | marked result => cases h
  | dead => cases h

theorem BillWriter.write_paidFor {s t : BillStore} {x : BillWriter} (hs : s.PaidFor)
    (h : x.write s = some t) : t.PaidFor := by
  cases x with
  | publish billId amount currency status tenant =>
    cases h
    cases hok : Transaction.create BillStore.billTable PaymentError.ofViolation (fun pk =>
        { pk, billId, amount, currency, status, platformTenantId := tenant }) s with
    | error e =>
      rw [commit_of_error hok]
      exact hs
    | ok x =>
      rw [commit_of_ok hok]
      obtain ⟨-, T, hins, ht⟩ := create_ok.mp hok
      rw [ht]
      exact hs.of_kept rfl fun k b hb hpaid => ⟨b, Table.get_of_insert hins hb, hpaid⟩
  | correct pk amount currency status =>
    simp only [BillWriter.write, Option.ite_none_left_eq_some, Option.some.injEq] at h
    obtain ⟨hkeep, rfl⟩ := h
    cases hok : Transaction.write BillStore.billTable PaymentError.ofViolation pk (fun row =>
        { row with amount, currency, status }) s with
    | error e =>
      rw [commit_of_error hok]
      exact hs
    | ok x =>
      rw [commit_of_ok hok]
      obtain ⟨T, hupd, ht⟩ := write_ok.mp hok
      rw [ht]
      refine hs.of_kept rfl fun k b hb hpaid => ?_
      by_cases hk : pk = k
      · subst hk
        have hpk : b.pk = pk := Table.pk_of_get hb
        refine ⟨{ b with amount, currency, status }, ?_, ?_⟩
        · exact (Table.get_update hupd hb hpk pk).trans (if_pos rfl)
        · by_contra hne
          refine hkeep (List.any_eq_true.mpr ⟨b, Table.mem_of_get hb, ?_⟩)
          exact decide_eq_true ⟨hpk, hpaid, hne⟩
      · exact ⟨b, (Table.get_update_of_ne hupd (fun _ => rfl) hk).trans hb, hpaid⟩
  | ledger l =>
    cases h
    exact hs

/-! ## Runs -/

theorem paidFor_of_reachable {s : Pool.State BillStore BillWorker}
    (h : bills.machine.Reachable s) : s.store.PaidFor := by
  refine Program.store_invariant (P := bills) (I := BillStore.PaidFor) ?_
    (fun _ _ _ _ _ hs hact => BillWorker.act_paidFor hs hact)
    (fun _ _ _ hs henv => BillWriter.write_paidFor hs henv) h
  intro s₀ h₀ p hp
  rw [show s₀.payments = .empty from h₀] at hp
  cases hp

/-- Over every interleaving of payment requests: one payment for each tenant and request id; a
completed payment is for a paid bill; a request that is already recorded, or refused for another
reason, changes nothing; and an accepted one, also on a paid bill, adds exactly its payment. -/
theorem bill_payments_sound {s : Pool.State BillStore BillWorker} (h : bills.machine.Reachable s) :
    (∀ p₁ ∈ s.store.payments.rows, ∀ p₂ ∈ s.store.payments.rows,
      p₁.platformTenantId = p₂.platformTenantId → p₁.requestId = p₂.requestId → p₁ = p₂) ∧
    (∀ p ∈ s.store.payments.rows, p.status = .completed →
      ∃ b, s.store.bills.get p.bill = some b ∧ b.status = .paid) ∧
    (∀ i c t r, s.workers[i]? = some (.transfer r) → s.store.Recorded r →
      bills.machine.step s (.act i c) = some t → t.store = s.store) ∧
    (∀ i c t r, s.workers[i]? = some (.transfer r) → bills.machine.step s (.act i c) = some t →
      (∃ e, t.workers[i]? = some (.transferred (.error e)) ∧ t.store = s.store) ∨
      ∃ p b, t.workers[i]? = some (.transferred (.ok p)) ∧
        t.store.payments.rows = s.store.payments.rows ++ [p] ∧
        s.store.billFor r.billId r.platformTenantId = some b ∧ p.Records r b ∧
        t.store.bills.get b.pk = some { b with status := .paid }) := by
  have hcases : ∀ i c t r, s.workers[i]? = some (.transfer r) →
      bills.machine.step s (.act i c) = some t →
      (∃ e, t.workers[i]? = some (.transferred (.error e)) ∧ t.store = s.store) ∨
      ∃ p, t.workers[i]? = some (.transferred (.ok p)) ∧
        createTransferRequest c.providerRuntimeEnabled r c.now s.store = .ok (p, t.store) := by
    intro i c t r hp hstep
    obtain ⟨st, q, hact, hst, hq⟩ := Program.step_act hp hstep
    cases hact
    cases hok : createTransferRequest c.providerRuntimeEnabled r c.now s.store with
    | error e =>
      rw [commit_of_error hok] at hst hq
      exact .inl ⟨e, hq, hst⟩
    | ok x =>
      rw [commit_of_ok hok] at hst hq
      rw [hst]
      exact .inr ⟨x.1, hq, rfl⟩
  refine ⟨?_, paidFor_of_reachable h, ?_, ?_⟩
  · intro p₁ hp₁ p₂ hp₂ htenant hrequest
    exact Table.eq_of_clash (i := GovStackBillPayment.tenantRequestId) (.head _) hp₁ hp₂
      ⟨Option.some_ne_none _, by simp [GovStackBillPayment.tenantRequestId, htenant, hrequest]⟩
  · intro i c t r hp hrecorded hstep
    obtain ⟨e, -, hst⟩ | ⟨p, -, hok⟩ := hcases i c t r hp hstep
    · exact hst
    · exact absurd hrecorded (createTransferRequest_ok hok).1
  · intro i c t r hp hstep
    obtain hrefused | ⟨p, hq, hok⟩ := hcases i c t r hp hstep
    · exact .inl hrefused
    · obtain ⟨-, hrows, b, hfor, hrecords, hbills⟩ := createTransferRequest_ok hok
      exact .inr ⟨p, b, hq, hrows, hfor, hrecords, by rw [hbills, if_pos rfl]⟩

/-- One bill, and two notifications with different request ids. -/
def notifiedTwice : Pool.State BillStore BillWorker :=
  bills.machine.final ⟨{}, []⟩ [
    .env (.publish "b" 100 "CAD" .unpaid ""),
    .spawn (.transfer { requestId := "r1", billId := "b" }), .act 0 ⟨true, 0⟩,
    .spawn (.transfer { requestId := "r2", billId := "b" }), .act 1 ⟨true, 0⟩,
    .spawn (.transfer { requestId := "r2", billId := "b" })]

theorem notifiedTwice_reachable : bills.machine.Reachable notifiedTwice :=
  Machine.Reachable.final (M := bills.machine) (s := ⟨{}, []⟩) ⟨rfl, rfl⟩ _

theorem bill_payments_sound_notifiedTwice :
    ∃ t, bills.machine.step notifiedTwice (.act 2 ⟨true, 0⟩) = some t ∧
      t.store = notifiedTwice.store := by
  have hstep := Machine.step_final (M := bills.machine) (s := notifiedTwice) (l := .act 2 ⟨true, 0⟩)
    (by decide +kernel)
  have hworker :
      notifiedTwice.workers[2]? = some (.transfer { requestId := "r2", billId := "b" }) :=
    rfl
  have hrecorded : notifiedTwice.store.Recorded { requestId := "r2", billId := "b" } := by
    unfold BillStore.Recorded
    decide +kernel
  exact ⟨_, hstep, (bill_payments_sound notifiedTwice_reachable).2.2.1 2 _ _ _ hworker
    hrecorded hstep⟩

/-- Both notifications are completed payments of the bill. -/
theorem paid_twice :
    bills.machine.Reachable notifiedTwice ∧
      notifiedTwice.store.payments.rows.map (fun p => (p.pk, p.bill, p.requestId, p.status)) =
        [(1, 1, "r1", .completed), (2, 1, "r2", .completed)] :=
  ⟨notifiedTwice_reachable, by decide +kernel⟩

end Civicos.Payments
