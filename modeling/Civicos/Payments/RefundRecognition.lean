import Civicos.Payments.RefundEvents

/-!
# Refunds of the portal that are taken for refunds of the dashboard

A refund is on course as long as its row carries the identifier of the gateway, or a worker is about
to store it, and no event has reported it. A refund leaves this course for good when the answer of
the gateway is lost, and when an event comes in before the identifier is stored.
-/
namespace Civicos.Payments

open Library Library.Transaction RefundConfirmView RefundStore RefundDesk

abbrev DeskState := Pool.State RefundDesk RefundWorker

abbrev DeskLabel := Pool.Label RefundWorker DeskChoice DeskEvent

/-- The identifier that a worker is about to store. -/
def RefundWorker.answer : RefundWorker → Option String
  | recording _ _ gatewayRefundId => some gatewayRefundId
  | _ => none

def Awaited (id : String) (ps : List RefundWorker) : Prop := ∃ p ∈ ps, p.answer = some id

instance (id : String) (ps : List RefundWorker) : Decidable (Awaited id ps) :=
  inferInstanceAs (Decidable (∃ p ∈ ps, _))

/-- The call returns if the gateway carried it out under `id`, and no event about `id` comes while a
worker is about to store it. -/
def Heard (id : String) (u : DeskState) : DeskLabel → Prop
  | .act _ (.gateway reply) => reply ≠ .lost id
  | .env (.chargeRefunded _ obj) =>
    (parseChargeRefunded obj).gatewayRefundId = id → ¬ Awaited id u.workers
  | _ => True

instance (id : String) (u : DeskState) (l : DeskLabel) : Decidable (Heard id u l) :=
  match l with
  | .act _ (.gateway reply) => inferInstanceAs (Decidable (reply ≠ .lost id))
  | .env (.chargeRefunded _ obj) => inferInstanceAs (Decidable
      ((parseChargeRefunded obj).gatewayRefundId = id → ¬ Awaited id u.workers))
  | .act _ (.portal _) | .env (.checkout _) | .env (.dashboard _ _) | .spawn _ | .die _ =>
    inferInstanceAs (Decidable True)

/-- No worker dies before its booking is settled. -/
def Finishes (u : DeskState) : DeskLabel → Prop
  | .die i => ∀ p ∈ u.workers[i]?, p.call = none
  | _ => True

instance (u : DeskState) (l : DeskLabel) : Decidable (Finishes u l) :=
  match l with
  | .die i => inferInstanceAs (Decidable (∀ p ∈ u.workers[i]?, p.call = none))
  | .spawn _ | .act _ _ | .env _ => inferInstanceAs (Decidable True)

/-- The runs in which every confirmation takes all of its steps. -/
def refundEvents : Machine DeskState DeskLabel := refundDesk.machine.under Finishes

/-- What the gateway carried out under `id` is recorded or about to be, and nobody reported it. -/
def OnCourse (id : String) (u : DeskState) : Prop :=
  ∀ k, u.store.Asked k id →
    (u.store.Recorded k id ∨ Awaited id u.workers) ∧ ¬ u.store.Reported id

section Steps

variable {u v : DeskState} {s t : RefundDesk} {ps : List RefundWorker} {i : ℕ}
  {p q : RefundWorker} {c : DeskChoice} {x : DeskEvent} {call : RefundCall} {k : Uuid} {id : String}

theorem onCourse_congr (hasked : ∀ k, v.store.Asked k id ↔ u.store.Asked k id)
    (hrecorded : ∀ k, u.store.Asked k id → (v.store.Recorded k id ↔ u.store.Recorded k id))
    (hawaited : Awaited id v.workers ↔ Awaited id u.workers)
    (hreported : v.store.Reported id ↔ u.store.Reported id) : OnCourse id v ↔ OnCourse id u := by
  refine forall_congr' fun k => ?_
  rw [hasked k, hawaited, hreported]
  exact imp_congr_right fun hk => by rw [hrecorded k hk]

theorem recorded_congr (hget : t.portal.refunds.get k = s.portal.refunds.get k) :
    t.Recorded k id ↔ s.Recorded k id := by
  rw [Recorded, Recorded, hget]

theorem RefundDesk.Open.not_recorded (h : s.Open call) : ¬ s.Recorded call.refund id := by
  obtain ⟨r, hr, hpending, -⟩ := h
  rintro ⟨r', hr', hsucceeded, -⟩
  obtain rfl : r = r' := Option.some.inj (hr.1.symm.trans hr')
  cases hpending.symm.trans hsucceeded

theorem RefundDesk.Holds.answered (h : s.Holds p) (hp : p.answer = some id) :
    ∃ call, p.call = some call ∧ s.Asked call.refund id := by
  cases p with
  | recording call executed id' =>
    cases hp
    exact ⟨call, rfl, h.2⟩
  | _ => cases hp

theorem awaited_set (hp : ps[i]? = some p) (hpa : p.answer ≠ some id) (hqa : q.answer ≠ some id) :
    Awaited id (ps.set i q) ↔ Awaited id ps := by
  constructor
  · rintro ⟨r, hr, hanswer⟩
    rcases List.mem_or_eq_of_mem_set hr with hr | rfl
    · exact ⟨r, hr, hanswer⟩
    · exact absurd hanswer hqa
  · rintro ⟨r, hr, hanswer⟩
    obtain ⟨j, hj⟩ := List.getElem?_of_mem hr
    have hij : i ≠ j := by
      rintro rfl
      obtain rfl : p = r := Option.some.inj (hp.symm.trans hj)
      exact hpa hanswer
    exact ⟨r, List.mem_of_getElem? ((List.getElem?_set_ne hij).trans hj), hanswer⟩

theorem RefundWorker.answer_ne (hp : p.answer = none) : p.answer ≠ some id := by simp [hp]

theorem and_heard_portal {P : Prop} {r : RefundChoice} :
    P ∧ Heard id u (.act i (.portal r)) ↔ P := and_iff_left trivial

/-- What the gateway issued can be stored. -/
theorem confirmed_of_holds {executed : Bool} {e : PaymentError} (hs : s.Sound)
    (h : s.Holds (.recording call executed id)) :
    RefundConfirmView.confirmed call id s.portal ≠ .error e := by
  obtain ⟨⟨r, hr, -⟩, hasked⟩ := h
  have hid : GatewayId id := by
    obtain ⟨g, hg, rfl, -⟩ := hasked
    exact (hs.real g hg).1
  have hsettles : GatewaySettles s.portal (.recording call true id) {} := by
    refine ⟨hid.length, fun row hrow hne hsame => hne ?_⟩
    have hcarried := hs.carried row hrow (by rw [hsame]; exact hid.real)
    exact (hcarried.unique hs hasked).mpr hsame
  obtain ⟨x, hx⟩ := confirmed_returns hr hsettles
  intro hfailed
  cases hx.symm.trans hfailed

/-- A worker moves without touching the store. -/
theorem onCourse_idle (hp : u.workers[i]? = some p) (hpa : p.answer = none)
    (hqa : q.answer = none) :
    OnCourse id ⟨u.store, u.workers.set i q⟩ ↔ OnCourse id u := by
  refine onCourse_congr (fun _ => Iff.rfl) (fun _ _ => Iff.rfl) ?_ Iff.rfl
  exact awaited_set hp (RefundWorker.answer_ne hpa) (RefundWorker.answer_ne hqa)

/-- The refund of another booking is issued. -/
theorem onCourse_issue {g : IssuedRefund} (hp : u.workers[i]? = some p) (hg : g.id ≠ id)
    (hpa : p.answer ≠ some id) (hqa : q.answer ≠ some id) :
    OnCourse id ⟨⟨RefundWorker.createRefund u.store.portal call true, g :: u.store.ledger⟩,
      u.workers.set i q⟩ ↔ OnCourse id u := by
  refine onCourse_congr (fun k => ?_) (fun _ _ => Iff.rfl) (awaited_set hp hpa hqa) Iff.rfl
  exact asked_issue.trans (or_iff_right fun h => hg h.1)

/-- The row of another booking, or of one that is lost, is rewritten. -/
theorem onCourse_rewrite {f : Refund → Refund} {T : Table Refund.schema}
    (hp : u.workers[i]? = some p) (hupdate : u.store.portal.refunds.update call.refund f = .ok T)
    (hf : ∀ r, (f r).pk = r.pk) (hpa : p.answer ≠ some id) (hopen : u.store.Open call)
    (hother : u.store.Asked call.refund id → ∀ r, (f r).gatewayStatus ≠ .succeeded) :
    OnCourse id ⟨{ u.store with portal := { u.store.portal with refunds := T } },
      u.workers.set i .done⟩ ↔ OnCourse id u := by
  refine onCourse_congr (fun _ => Iff.rfl) (fun k hk => ?_)
    (awaited_set hp hpa fun h => by cases h) Iff.rfl
  by_cases heq : call.refund = k
  · subst heq
    refine iff_of_false ?_ hopen.not_recorded
    rintro ⟨r, hr, hsucceeded, -⟩
    obtain ⟨r₀, ⟨hget, -⟩, -⟩ := hopen
    have hnew : T.get call.refund = some (f r₀) :=
      (Table.get_update hupdate hget ((hf r₀).trans (Table.pk_of_get hget)) _).trans (if_pos rfl)
    obtain rfl : f r₀ = r := Option.some.inj (hnew.symm.trans hr)
    exact hother hk r₀ hsucceeded
  · exact recorded_congr (Table.get_update_of_ne hupdate hf heq)

/-- The gateway stores an answer for the booking of the refund. -/
theorem onCourse_confirmed {T : Table Refund.schema} {executed : Bool} (hs : u.store.Sound)
    (hp : u.workers[i]? = some (.recording call executed id))
    (hheld : u.store.Holds (.recording call executed id))
    (hupdate : u.store.portal.refunds.update call.refund (fun row =>
      { row with gatewayRefundId := id, gatewayStatus := .succeeded }) = .ok T) :
    OnCourse id ⟨{ u.store with portal := { u.store.portal with refunds := T } },
      u.workers.set i .done⟩ ↔ OnCourse id u := by
  obtain ⟨⟨r, ⟨hget, -⟩, -⟩, hasked⟩ := hheld
  have hawaited : Awaited id u.workers := ⟨_, List.mem_of_getElem? hp, rfl⟩
  constructor
  · exact fun h k hk => ⟨.inr hawaited, (h k hk).2⟩
  · intro h k hk
    obtain rfl : call.refund = k := (hasked.unique hs hk).mpr rfl
    have hpk : r.pk = call.refund := Table.pk_of_get hget
    exact ⟨.inl ⟨_, (Table.get_update hupdate hget hpk _).trans (if_pos rfl), rfl, rfl⟩, (h _ hk).2⟩

theorem onCourse_move (hs : u.store.Sound) (hall : ∀ r ∈ u.workers, u.store.Holds r)
    (hp : u.workers[i]? = some p) (hmove : DeskMove u.store p c t q) :
    OnCourse id ⟨t, u.workers.set i q⟩ ↔ OnCourse id u ∧ Heard id u (.act i c) := by
  have hheld : u.store.Holds p := hall p (List.mem_of_getElem? hp)
  have hfresh : ∀ {g : IssuedRefund}, u.store.Issues g → g.id = id → ∀ k, ¬ u.store.Asked k id := by
    rintro g hissues rfl k ⟨h, hh, hid, -⟩
    exact hissues.2.2 h hh hid
  cases hmove with
  | idle finished =>
    have hqa : q.answer = none := by
      cases q with
      | recording call executed id => cases finished
      | _ => rfl
    exact (onCourse_idle hp rfl hqa).trans and_heard_portal.symm
  | @booked _ _ call refund T audits e hinsert _ _ _ hfiled hplain _ =>
    have hawaited : Awaited id (u.workers.set i (.calling call)) ↔ Awaited id u.workers :=
      awaited_set hp (RefundWorker.answer_ne rfl) (RefundWorker.answer_ne rfl)
    refine Iff.trans ?_ and_heard_portal.symm
    refine onCourse_congr (fun _ => Iff.rfl) (fun k hk => ?_) hawaited ?_
    · obtain ⟨g, hg, -, hrow⟩ := hk
      obtain ⟨r, hr, -⟩ := hs.booked g hg k hrow
      exact recorded_congr ((get_of_inserted hinsert).2 k r hr)
    · simp [Reported, hfiled, or_and_right, exists_or, hplain]
  | refused => exact (onCourse_idle hp rfl rfl).trans (and_iff_left fun h => by cases h).symm
  | @refunded call id' g hissued hissues =>
    cases hissued
    by_cases hid : id' = id
    · subst hid
      have hi : i < u.workers.length := (List.getElem?_eq_some_iff.mp hp).1
      have hmem := List.mem_set hi (RefundWorker.recording call true id')
      refine iff_of_true (fun k _ => ⟨.inr ⟨_, hmem, rfl⟩, fun hreported => ?_⟩)
        ⟨fun k hk => absurd hk (hfresh hissues rfl k), fun h => by cases h⟩
      obtain ⟨g, hg, hgid⟩ := hs.told _ hreported
      exact hissues.2.2 g hg hgid
    · refine (onCourse_issue hp hid (RefundWorker.answer_ne rfl) fun h => ?_).trans
        (and_iff_left fun h => by cases h).symm
      exact hid (Option.some.inj h)
  | @lost call id' g hissued hissues =>
    cases hissued
    by_cases hid : id' = id
    · subst hid
      refine iff_of_false (fun h => ?_) fun h => h.2 rfl
      rcases (h call.refund (asked_issue.mpr (.inl ⟨rfl, rfl⟩))).1 with hrecorded | ⟨r, hr, hanswer⟩
      · exact hheld.1.not_recorded hrecorded
      · rcases List.mem_or_eq_of_mem_set hr with hr | rfl
        · obtain ⟨call', -, hasked⟩ := (hall r hr).answered hanswer
          exact hfresh hissues rfl _ hasked
        · cases hanswer
    · refine (onCourse_issue hp hid (RefundWorker.answer_ne rfl) (RefundWorker.answer_ne rfl)).trans
        (and_iff_left fun h => ?_).symm
      exact hid (GatewayReply.lost.inj h)
  | @confirmed call c executed id' T hupdate =>
    refine Iff.trans ?_ and_heard_portal.symm
    by_cases hid : id' = id
    · subst hid
      exact onCourse_confirmed hs hp hheld hupdate
    · refine onCourse_rewrite hp hupdate (fun _ => rfl) (fun h => ?_) hheld.1 fun hasked => ?_
      · exact hid (Option.some.inj h)
      · exact absurd ((hheld.2.unique hs hasked).mp rfl) hid
  | unconfirmed hfailed => exact absurd hfailed (confirmed_of_holds hs hheld)
  | failed hupdate =>
    exact (onCourse_rewrite hp hupdate (fun _ => rfl) (RefundWorker.answer_ne rfl) hheld
      fun _ _ h => by cases h).trans and_heard_portal.symm
  | stuck => exact (onCourse_idle hp rfl rfl).trans and_heard_portal.symm

/-- While a worker is about to store the identifier, the charge has its payment, and no row carries
the identifier. -/
theorem unknown_of_awaited {g : IssuedRefund} (hs : s.Sound) (hp : s.Holds p)
    (hanswer : p.answer = some id) (hg : g ∈ s.ledger) (hid : g.id = id) :
    (∃ a ∈ s.portal.payments.rows, a.gatewayChargeId = g.charge) ∧
      ∀ r ∈ s.portal.refunds.rows, r.gatewayRefundId ≠ id := by
  obtain ⟨call, hcall, hasked⟩ := hp.answered hanswer
  obtain ⟨r, hr, -, hplaceholder⟩ := hp.open_ hcall
  constructor
  · obtain ⟨h, hh, hhid, hrow⟩ := hasked
    obtain rfl := hs.distinct g hg h hh (hid.trans hhid.symm)
    obtain ⟨r', -, hcharge⟩ := hs.booked g hg _ hrow
    obtain ⟨a, ha, heq⟩ := Option.map_eq_some_iff.mp hcharge
    exact ⟨a, Table.mem_of_get ha, heq⟩
  · rintro a ha rfl
    have hreal : placeholder a.gatewayRefundId = false := hid ▸ (hs.real g hg).1.real
    have hpk : a.pk = call.refund := ((hs.carried a ha hreal).unique hs hasked).mpr rfl
    have hget : s.portal.refunds.get call.refund = some a := Table.get_eq_some.mpr ⟨ha, hpk⟩
    obtain rfl : r = a := Option.some.inj (hr.1.symm.trans hget)
    cases hplaceholder.symm.trans hreal

/-- The event makes a report exactly if it is about a refund that no row carries. -/
theorem onCourse_env (hs : u.store.Sound) (hall : ∀ r ∈ u.workers, u.store.Holds r)
    (h : u.store.env x = some t) :
    OnCourse id ⟨t, u.workers⟩ ↔ OnCourse id u ∧ Heard id u (.env x) := by
  obtain ⟨-, hrefunds, hasked⟩ := env_keeps h
  have hsame : ∀ k, t.Recorded k id ↔ u.store.Recorded k id := fun k =>
    recorded_congr (by rw [hrefunds])
  cases x with
  | checkout x =>
    obtain ⟨portal, hportal, rfl⟩ := Option.map_eq_some_iff.mp h
    refine Iff.trans ?_ (and_iff_left (show Heard id u (.env (.checkout x)) from trivial)).symm
    refine onCourse_congr (fun k => hasked k id) (fun k _ => hsame k) Iff.rfl ?_
    rw [Reported, Reported, CheckoutWriter.audits hportal]
  | dashboard refund charge =>
    obtain ⟨-, ht⟩ := Option.ite_none_right_eq_some.mp h
    cases ht
    refine Iff.trans ?_
      (and_iff_left (show Heard id u (.env (.dashboard refund charge)) from trivial)).symm
    exact onCourse_congr (fun k => hasked k id) (fun k _ => hsame k) Iff.rfl Iff.rfl
  | chargeRefunded gatewayEventId obj =>
    obtain ⟨hsends, ht⟩ := Option.ite_none_right_eq_some.mp h
    cases ht
    obtain ⟨audits, hrun, hreported⟩ :=
      handleChargeRefunded_run u.store.portal gatewayEventId (parseChargeRefunded obj)
    rw [commit_of_ok hrun] at hasked hsame ⊢
    constructor
    · intro hv
      refine ⟨fun k hk => ⟨(hv k hk).1.imp_left (hsame k).mp, fun hold => ?_⟩, fun hid hwaits => ?_⟩
      · exact (hv k hk).2 ((hreported id).mpr (.inl hold))
      · obtain ⟨p, hp, hanswer⟩ := hwaits
        obtain ⟨call, -, hk⟩ := (hall p hp).answered hanswer
        have hne : id ≠ "" := by
          obtain ⟨g, hg, rfl, -⟩ := hk
          exact (hs.real g hg).1.nonempty
        obtain ⟨g, hg, hgid, hcharge⟩ := hsends.issued (by rw [hid]; exact hne)
        obtain ⟨hpayment, hnone⟩ := unknown_of_awaited hs (hall p hp) hanswer hg (hgid.trans hid)
        rw [hcharge] at hpayment
        exact (hv _ hk).2 ((hreported id).mpr
          (.inr ⟨hid, hne, hcharge ▸ (hs.real g hg).2, hpayment, hnone⟩))
    · rintro ⟨hu, hheard⟩ k hk
      obtain ⟨hcourse, hunreported⟩ := hu k hk
      refine ⟨hcourse.imp_left (hsame k).mpr, fun hv => ?_⟩
      rcases (hreported id).mp hv with hold | ⟨hid, -, -, -, hnone⟩
      · exact hunreported hold
      · obtain ⟨r, hr, -, hrid⟩ := hcourse.resolve_right (hheard hid)
        exact hnone r (Table.mem_of_get hr) hrid

theorem onCourse_step {l : DeskLabel} (hu : refundDesk.machine.Reachable u)
    (hfinishes : Finishes u l) (hstep : refundDesk.machine.step u l = some v) :
    OnCourse id v ↔ OnCourse id u ∧ Heard id u l := by
  obtain ⟨⟨hs, hall⟩, -⟩ := refundDesk_sound hu
  obtain ⟨p, rfl, hentry, rfl⟩ | ⟨i, c, p, t, q, rfl, hp, hact, rfl⟩ | ⟨i, rfl, rfl⟩ |
    ⟨x, t, rfl, henv, rfl⟩ := Program.step_cases hstep
  · refine Iff.trans ?_ (and_iff_left (show Heard id u (.spawn p) from trivial)).symm
    refine onCourse_congr (fun _ => Iff.rfl) (fun _ _ => Iff.rfl) ?_ Iff.rfl
    have hidle : p.answer = none := by
      cases p with
      | post r => rfl
      | _ => cases hentry
    simp [Awaited, hidle, or_and_right, exists_or]
  · exact onCourse_move hs hall hp (act_move hact)
  · refine Iff.trans ?_ (and_iff_left (show Heard id u (.die i) from trivial)).symm
    cases hp : u.workers[i]? with
    | none =>
      rw [List.set_eq_of_length_le (List.getElem?_eq_none_iff.mp hp)]
    | some p =>
      have hcall : p.call = none := hfinishes p hp
      refine onCourse_idle hp ?_ rfl
      cases p with
      | recording call executed id => cases hcall
      | _ => rfl
  · exact onCourse_env hs hall henv

end Steps

/-- At the end of a run a refund that the gateway carried out for a confirmation has its row, and
nobody is told to book it, if and only if its call returned and no event about it came before the
row had its identifier. -/
theorem recognised_iff {u₀ u : DeskState} {ls : List DeskLabel} {g : IssuedRefund} {k : Uuid}
    (h₀ : refundEvents.Init u₀) (hrun : refundEvents.run u₀ ls = some u)
    (hdone : ∀ p ∈ u.workers, p.call = none) (hg : g ∈ u.store.ledger) (hk : g.row = some k) :
    (u.store.Recorded k g.id ∧ ¬ u.store.Reported g.id) ↔
      (refundEvents.under (Heard g.id)).run u₀ ls = some u := by
  have hreachable : refundDesk.machine.Reachable u := .of_under (.of_run h₀ hrun)
  obtain ⟨⟨hs, -⟩, -⟩ := refundDesk_sound hreachable
  have hidle : ¬ Awaited g.id u.workers := by
    rintro ⟨p, hp, hanswer⟩
    have hcall := hdone p hp
    cases p with
    | recording call executed id => cases hcall
    | _ => cases hanswer
  have hcourse : (u.store.Recorded k g.id ∧ ¬ u.store.Reported g.id) ↔ OnCourse g.id u := by
    constructor
    · intro h k' hk'
      obtain rfl : k = k' := (Asked.unique hs ⟨g, hg, rfl, hk⟩ hk').mpr rfl
      exact ⟨.inl h.1, h.2⟩
    · intro h
      obtain ⟨hrecorded, hreported⟩ := h k ⟨g, hg, rfl, hk⟩
      exact ⟨hrecorded.resolve_right hidle, hreported⟩
  refine hcourse.trans (Machine.kept_iff_under_of_step (I := refundDesk.machine.Reachable)
    (.start h₀) ?_ ?_ ?_ hrun)
  · intro k' hk'
    obtain ⟨h, hh, -⟩ := hk'
    rw [h₀.1] at hh
    cases hh
  · exact fun v l w hv hstep => hv.step (Machine.under_step.mp hstep).2
  · intro v l w hv hstep
    obtain ⟨hfinishes, hstep⟩ := Machine.under_step.mp hstep
    exact onCourse_step hv hfinishes hstep

section Example

/-- A payment of one dollar, and the confirmation of its refund up to the call of the gateway. -/
private def confirmation : List DeskLabel := [
  .env (.checkout (.intend { pk := 0, payer := 1, purpose := .donation, status := .completed })),
  .env (.checkout (.capture { pk := 0, intent := 1, gatewayChargeId := "ch", amountPaid := 100 })),
  .spawn fullRefund, .act 0 (.portal { idempotencyKey := "a" })]

private def refundEvent : DeskLabel := .env (.chargeRefunded "evt" ⟨"ch", [⟨"re", 100⟩]⟩)

/-- The event comes after the row has its identifier. -/
private def recordedFirst : List DeskLabel :=
  confirmation ++ [.act 0 (.gateway (.refunded "re")), .act 0 (.portal {}), refundEvent]

/-- The event comes in between. -/
private def reportedFirst : List DeskLabel :=
  confirmation ++ [.act 0 (.gateway (.refunded "re")), refundEvent, .act 0 (.portal {})]

/-- The answer of the gateway gets lost. -/
private def answerLost : List DeskLabel :=
  confirmation ++ [.act 0 (.gateway (.lost "re")), .act 0 (.portal {}), refundEvent]

private def deskAfter (labels : List DeskLabel) : DeskState := refundEvents.final ⟨{}, []⟩ labels

private theorem empty_init : refundEvents.Init ⟨{}, []⟩ := ⟨rfl, rfl⟩

theorem recognised_iff_recorded_first :
    (deskAfter recordedFirst).store.Asked 1 "re" ∧ (deskAfter recordedFirst).store.Recorded 1 "re" ∧
      ¬ (deskAfter recordedFirst).store.Reported "re" := by
  have hrun : refundEvents.run ⟨{}, []⟩ recordedFirst = some (deskAfter recordedFirst) :=
    Machine.run_final (by decide +kernel)
  have hunder : (refundEvents.under (Heard "re")).run ⟨{}, []⟩ recordedFirst =
      some ((refundEvents.under (Heard "re")).final ⟨{}, []⟩ recordedFirst) :=
    Machine.run_final (by decide +kernel)
  have hsame : (refundEvents.under (Heard "re")).final ⟨{}, []⟩ recordedFirst =
      deskAfter recordedFirst := Option.some.inj ((Machine.run_of_under hunder).symm.trans hrun)
  have hissued : (⟨⟨"re", 100⟩, "ch", some 1⟩ : IssuedRefund) ∈
      (deskAfter recordedFirst).store.ledger := by decide +kernel
  exact ⟨by decide +kernel, (recognised_iff empty_init hrun (by decide +kernel) hissued rfl).mpr
    (hunder.trans (congrArg some hsame))⟩

/-- Staff are told to book a refund that has its row, and one whose row is marked as failed. -/
theorem portal_refund_reported :
    (refundEvents.Reachable (deskAfter reportedFirst) ∧
      (∀ p ∈ (deskAfter reportedFirst).workers, p.call = none) ∧
      (deskAfter reportedFirst).store.Asked 1 "re" ∧
      (deskAfter reportedFirst).store.Recorded 1 "re" ∧
      (deskAfter reportedFirst).store.Reported "re") ∧
    refundEvents.Reachable (deskAfter answerLost) ∧
      (∀ p ∈ (deskAfter answerLost).workers, p.call = none) ∧
      (deskAfter answerLost).store.Asked 1 "re" ∧ ¬ (deskAfter answerLost).store.Recorded 1 "re" ∧
      (deskAfter answerLost).store.Reported "re" :=
  ⟨⟨.final empty_init _, by decide +kernel⟩, .final empty_init _, by decide +kernel⟩

end Example

end Civicos.Payments
