import Civicos.Scheduler.Materialization

/-!
# Exactly-once admission

As long as recipients fit their columns and have keys of their own, every target that an admission
has asked for has one delivery and one outbox row, for as long as its schedule exists.
-/
namespace Civicos.Scheduler

open Library Library.Transaction
open Payments (Uuid Json Digest clip)
open Appointments (Instant)

namespace Store

/-- The delivery rows of a target. -/
def deliveryCount (s : Store) (a : Target) : ℕ := s.deliveries.rows.countP (·.target = a)

/-- The outbox rows of the deliveries of a target. -/
def outboxCount (s : Store) (a : Target) : ℕ :=
  s.outbox.rows.countP fun o => s.deliveries.rows.any fun d => d.pk = o.delivery ∧ d.target = a

end Store

variable {P : Permits} {s t : Store} {x : AlertSchedule} {r : AdmissionRequest} {now : Instant}
  {d : RecipientDelivery} {a b : Target} {asked : List Target} {op : Operation}

theorem deliveryCount_eq : s.deliveryCount a =
    if ∃ d ∈ s.deliveries.rows, d.target = a then 1 else 0 := by
  have hcount := Table.countP_key (t := s.deliveries.table) (i := RecipientDelivery.uniqueRecipient)
    (p := fun d => decide (d.target = a)) (by simp [RecipientDelivery.schema])
    (a.schedule, a.generation, a.recipient) fun d => by
      obtain ⟨schedule, generation, recipient⟩ := a
      simp [RecipientDelivery.uniqueRecipient, RecipientDelivery.target]
  rw [Store.deliveryCount, hcount]
  simp

theorem Store.Paired.outboxCount (hs : s.Paired) : s.outboxCount a = s.deliveryCount a := by
  have hpks : s.outboxCount a = (s.outbox.rows.map (·.delivery)).countP fun k =>
      s.deliveries.rows.any fun d => d.pk = k ∧ d.target = a := by
    rw [List.countP_map]
    rfl
  rw [hpks, hs.outbox, List.countP_map]
  refine List.countP_congr fun d hd => ?_
  simp only [Function.comp, List.any_eq_true, decide_eq_true_eq]
  constructor
  · rintro ⟨e, he, hpk, htarget⟩
    rwa [← show e = d from Table.eq_of_pk he hd hpk]
  · intro htarget
    exact ⟨d, hd, rfl, htarget⟩

/-! ## What is asked for -/

theorem mem_targets {k : ℕ} {expected : ℕ → Bool} {recipients : List Recipient} :
    a ∈ s.targets k expected recipients ↔ ∃ x, s.schedules.get k = some x ∧
      x.deliveryAdmittable = true ∧ expected x.deliveryGeneration = true ∧
      ∃ recipient ∈ recipients, a = ⟨x.pk, x.deliveryGeneration, recipient⟩ := by
  unfold Store.targets
  cases s.schedules.get k with
  | none => simp
  | some x =>
    dsimp only
    split
    next hopen =>
      rw [List.mem_map]
      constructor
      · rintro ⟨recipient, hmem, rfl⟩
        exact ⟨x, rfl, hopen.1, hopen.2, recipient, hmem, rfl⟩
      · rintro ⟨y, hy, -, -, recipient, hmem, rfl⟩
        cases hy
        exact ⟨recipient, hmem, rfl⟩
    next hclosed =>
      simp only [List.not_mem_nil, false_iff]
      rintro ⟨y, hy, hadmittable, hexpected, -⟩
      cases hy
      exact hclosed ⟨hadmittable, hexpected⟩

theorem mem_requests : a ∈ (Operation.admitScheduleGeneration r now).requests s ↔
    ∃ x, s.schedules.get r.schedule = some x ∧ x.opens r.expectedGeneration ∧
      ∃ recipient ∈ r.recipients, a = ⟨x.pk, x.deliveryGeneration, recipient⟩ := by
  simp only [Operation.requests, mem_targets, AlertSchedule.opens, decide_eq_true_eq, and_assoc]

/-- The admission that `dispatch_alert_schedule` makes. -/
def dispatched (x : AlertSchedule) (recipients : List Recipient) : AdmissionRequest where
  schedule := x.pk
  expectedGeneration := x.deliveryGeneration
  recipients
  ownerKey := some ("schedule:" ++ toString x.pk)
  correlationId := some ("scheduler:" ++ toString x.pk ++ ":" ++ toString x.deliveryGeneration)
  payload := some []

/-- Every admission asks for its targets as `admit_schedule_generation` does. -/
theorem admission_cases (h : op.admits = true) : op.requests s = [] ∧ ¬ Returns op.perform s ∨
    ∃ r now, (∀ a, a ∈ op.requests s ↔
        a ∈ (Operation.admitScheduleGeneration r now).requests s) ∧
      op.perform s = (Operation.admitScheduleGeneration r now).perform s := by
  cases op with
  | admitScheduleGeneration r now => exact .inr ⟨r, now, fun _ => .rfl, rfl⟩
  | dispatchAlertSchedule schedule recipients now =>
    cases hx : s.schedules.get schedule with
    | none =>
      refine .inl ⟨by simp [Operation.requests, Store.targets, hx], ?_⟩
      rintro ⟨⟨v, t⟩, hrun⟩
      obtain ⟨_, _, h₁, -⟩ := bind_ok.mp hrun
      obtain ⟨y, hy, -⟩ := scheduleRow_bind.mp h₁
      rw [hx] at hy
      cases hy
    | some x =>
      obtain rfl : x.pk = schedule := (Numbered.get_eq_some.mp hx).2
      refine .inr ⟨dispatched x recipients, now, fun a => ?_, ?_⟩
      · rw [mem_requests, Operation.requests, mem_targets]
        simp [dispatched, hx, AlertSchedule.opens]
      · have hrow : scheduleRow x.pk s = .ok (x, s) := by
          simp only [scheduleRow, hx]
        simp only [Operation.perform, dispatchAlertSchedule, bind_assoc]
        rw [bind_of_ok hrow]
        rfl
  | _ => cases h

theorem requests_of_not_admits (h : op.admits = false) : op.requests s = [] := by
  cases op with
  | admitScheduleGeneration => cases h
  | dispatchAlertSchedule => cases h
  | _ => rfl

/-! ## Schedules whose generation is admitted -/

/-- A schedule that has deliveries of its current generation is marked as admitted. -/
def Store.Marked (s : Store) : Prop :=
  ∀ d ∈ s.deliveries.rows, ∀ x, s.schedules.get d.schedule = some x →
    x.deliveryAdmittable = true → d.dispatchGeneration = x.deliveryGeneration →
    x.admittedGeneration = some x.deliveryGeneration

/-- Everything but admissions. -/
abbrev others : Permits := { enrol := False }

theorem Effect.marks (h : Effect others s t) (hpaired : s.Paired) (hs : s.Marked) : t.Marked := by
  cases h with
  | scheduled h fresh =>
    intro d hd x hx
    obtain ⟨y, hy, -⟩ := hpaired.reached d hd
    have hne : s.schedules.next ≠ d.schedule := fun heq => by
      rw [← heq, Numbered.get_next] at hy
      cases hy
    rw [Numbered.get_insert h (fresh _).1, if_neg hne] at hx
    exact hs d hd x hx
  | rescheduled keeps =>
    intro d hd x' hx' hadmittable hcurrent
    rw [Numbered.get_rewrite, Option.map_eq_some_iff] at hx'
    obtain ⟨x, hx, rfl⟩ := hx'
    split at hadmittable
    next hp =>
      rw [if_pos hp, (keeps x).1] at hcurrent
      rw [if_pos hp, (keeps x).1, (keeps x).2.2]
      exact hs d hd x hx ((keeps x).2.1 ▸ hadmittable) hcurrent
    next hp =>
      rw [if_neg hp] at hcurrent ⊢
      exact hs d hd x hx hadmittable hcurrent
  | materialized permit => exact permit.elim
  | marked permit => exact permit.elim
  | @delivered _ p f =>
    intro d' hd' x hx hadmittable hcurrent
    obtain ⟨d, hd, rfl⟩ := List.mem_map.mp hd'
    obtain ⟨-, hschedule, hgeneration⟩ := identity_kept (p d) f d
    rw [hschedule] at hx
    rw [hgeneration] at hcurrent
    exact hs d hd x hx hadmittable hcurrent
  | @fenced _ y f now hf hy h =>
    intro d' hd' x' hx' hadmittable hcurrent
    obtain ⟨d, hd, rfl⟩ := List.mem_map.mp hd'
    obtain ⟨-, hschedule, hgeneration⟩ := identity_kept (d.fencedBy y.pk) _ d
    rw [hschedule, Numbered.get_rewrite, Option.map_eq_some_iff] at hx'
    rw [hgeneration] at hcurrent
    obtain ⟨x, hx, rfl⟩ := hx'
    by_cases heq : x.pk = y.pk
    · obtain rfl : x = y := Table.eq_of_pk (Numbered.get_eq_some.mp hx).1
        (Numbered.get_eq_some.mp hy).1 heq
      obtain ⟨x', hx', hreached⟩ := hpaired.reached d hd
      obtain rfl : x = x' := Option.some.inj (hx.symm.trans hx')
      rw [if_pos (by simp)] at hadmittable hcurrent
      obtain ⟨-, ⟨hclosed, -⟩ | ⟨-, hnext⟩⟩ := h
      · simp [hclosed] at hadmittable
      · omega
    · rw [if_neg (by simp [heq])] at hadmittable hcurrent ⊢
      exact hs d hd x hx hadmittable hcurrent
  | deleted =>
    intro d hd x hx
    refine hs d (List.mem_filter.mp hd).1 x ?_
    have hget := Numbered.get_keep (t := s.schedules) (k := d.schedule) ▸ hx
    exact (Option.filter_eq_some_iff.mp hget).1
  | posted => exact hs

theorem get_marked {k generation : ℕ} {outcome : AdmissionOutcome} :
    (s.marked x.pk generation outcome).schedules.get k = (s.schedules.get k).map fun y =>
      if y.pk = x.pk then { y with
        admittedGeneration := some generation
        admissionOutcome := some outcome } else y := by
  simp [Store.marked, Numbered.get_rewrite]

theorem AdmissionStep.marks {a : Admission} (h : AdmissionStep r x s a t)
    (hx : s.schedules.get r.schedule = some x) (hs : s.Marked) : t.Marked := by
  cases h with
  | refused => exact hs
  | duplicate => exact hs
  | @admitted m opens admits outcome =>
    intro d hd y' hy' hadmittable hcurrent
    rw [get_marked, admits.schedules, Option.map_eq_some_iff] at hy'
    obtain ⟨y, hy, rfl⟩ := hy'
    have hpk : x.pk = r.schedule := (Numbered.get_eq_some.mp hx).2
    by_cases heq : y.pk = x.pk
    · obtain rfl : y = x := Table.eq_of_pk (Numbered.get_eq_some.mp hy).1
        (Numbered.get_eq_some.mp hx).1 heq
      simp
    · rw [if_neg heq] at hadmittable hcurrent ⊢
      obtain ⟨ds, hrows, -, hnew⟩ := admits.deliveries
      have hd : d ∈ m.deliveries.rows := hd
      rw [hrows, List.mem_append] at hd
      obtain hd | hd := hd
      · exact hs d hd y hy hadmittable hcurrent
      · obtain ⟨recipient, -, htarget⟩ := hnew d hd
        have hschedule : d.schedule = x.pk := congrArg Target.schedule htarget
        have hypk : y.pk = d.schedule := (Numbered.get_eq_some.mp hy).2
        exact absurd (hypk.trans hschedule) heq

theorem perform_admission {v : Unit}
    (h : (Operation.admitScheduleGeneration r now).perform s = .ok (v, t)) :
    ∃ a x, admitScheduleGeneration r now s = .ok (a, t) ∧
      s.schedules.get r.schedule = some x ∧ AdmissionStep r x s a t := by
  obtain ⟨a, _, h₁, ⟨⟩⟩ := bind_ok.mp h
  obtain ⟨x, hx, hstep⟩ := admitScheduleGeneration_step h₁
  exact ⟨a, x, h₁, hx, hstep⟩

/-- What an operation does: an admission, or effects without one. -/
theorem perform_cases {v : Unit} (h : op.perform s = .ok (v, t)) :
    op.requests s = [] ∧ Effects others s t ∨
    ∃ r now a x, (∀ b, b ∈ op.requests s ↔
        b ∈ (Operation.admitScheduleGeneration r now).requests s) ∧
      s.schedules.get r.schedule = some x ∧ AdmissionStep r x s a t := by
  cases hadmits : op.admits with
  | false =>
    refine .inl ⟨requests_of_not_admits hadmits, perform_effects (fun hcontra => ?_)
      (fun _ _ _ => trivial) (fun _ _ _ => trivial) (fun _ _ _ => trivial) h⟩
    rw [hadmits] at hcontra
    cases hcontra
  | true =>
    obtain ⟨-, hfails⟩ | ⟨r, now, hrequests, hperform⟩ := admission_cases (s := s) hadmits
    · exact absurd ⟨_, h⟩ hfails
    · rw [hperform] at h
      obtain ⟨a, x, -, hx, hstep⟩ := perform_admission h
      exact .inr ⟨r, now, a, x, hrequests, hx, hstep⟩

theorem reachable_marked {σ : State} (h : system.Reachable σ) :
    σ.store.Paired ∧ σ.store.Marked := by
  refine h.invariant (I := fun σ => σ.store.Paired ∧ σ.store.Marked) (fun σ hσ => ?_)
    fun u op v _ hu hstep => ?_
  · refine ⟨hσ.1.paired, fun d hd => ?_⟩
    rw [hσ.1.deliveries] at hd
    cases hd
  · obtain hsame | hrun := step_store hstep
    · rw [hsame]
      exact hu
    · refine ⟨(perform_any hrun).keeps (fun _ _ heffect => heffect.paired) hu.1, ?_⟩
      obtain ⟨-, heffects⟩ | ⟨r, now, a, x, -, hx, hadmission⟩ := perform_cases hrun
      · exact (heffects.keeps (I := fun m => m.Paired ∧ m.Marked) (fun _ _ heffect hm =>
          ⟨heffect.paired hm.1, heffect.marks hm.1 hm.2⟩) hu).2
      · exact hadmission.marks hx hu.2

/-! ## Exactly one -/

/-- The deliveries are those that have been asked for, schedules that are deleted apart. -/
structure Exact (s : Store) (asked : List Target) : Prop where
  paired : s.Paired
  only : ∀ d ∈ s.deliveries.rows, d.target ∈ asked
  all : ∀ a ∈ asked, (s.schedules.get a.schedule).isSome = true →
    ∃ d ∈ s.deliveries.rows, d.target = a
  used : ∀ a ∈ asked, a.schedule < s.schedules.next

theorem target_kept (c : Bool) (f : RecipientDelivery → DeliveryState) (d : RecipientDelivery) :
    (if c then d.withState f else d).target = d.target := by
  split <;> rfl

theorem target_rewrite {p : RecipientDelivery → Bool} {f : RecipientDelivery → DeliveryState} :
    (∃ d ∈ (s.deliveries.rewrite p (.withState f) (RecipientDelivery.preserves f)).rows,
      d.target = a) ↔ ∃ d ∈ s.deliveries.rows, d.target = a := by
  simp [target_kept]

theorem Effect.exact (h : Effect others s t) (hs : Exact s asked) : Exact t asked := by
  have hpaired := h.paired hs.paired
  cases h with
  | @scheduled _ T _ h fresh =>
    have hnext : T.next = s.schedules.next + 1 := (Numbered.insert_ok h (fresh _).1).2.1
    refine ⟨hpaired, hs.only, fun a ha hsome => ?_, fun a ha => ?_⟩
    · have hearlier := hs.used a ha
      rw [Numbered.get_insert h (fresh _).1, if_neg (by omega)] at hsome
      exact hs.all a ha hsome
    · have hearlier := hs.used a ha
      exact hnext ▸ Nat.lt_succ_of_lt hearlier
  | rescheduled =>
    refine ⟨hpaired, hs.only, fun a ha hsome => hs.all a ha ?_, hs.used⟩
    rwa [Numbered.get_rewrite, Option.isSome_map] at hsome
  | materialized permit => exact permit.elim
  | marked permit => exact permit.elim
  | delivered =>
    refine ⟨hpaired, fun d' hd' => ?_, fun a ha hsome => ?_, hs.used⟩
    · obtain ⟨d, hd, rfl⟩ := List.mem_map.mp hd'
      rw [target_kept]
      exact hs.only d hd
    · exact target_rewrite.mpr (hs.all a ha hsome)
  | fenced =>
    refine ⟨hpaired, fun d' hd' => ?_, fun a ha hsome => ?_, hs.used⟩
    · obtain ⟨d, hd, rfl⟩ := List.mem_map.mp hd'
      rw [target_kept]
      exact hs.only d hd
    · rw [Numbered.get_rewrite, Option.isSome_map] at hsome
      exact target_rewrite.mpr (hs.all a ha hsome)
  | @deleted _ k =>
    refine ⟨hpaired, fun d hd => hs.only d (List.mem_filter.mp hd).1, fun a ha hsome => ?_, hs.used⟩
    obtain ⟨x, hget⟩ := Option.isSome_iff_exists.mp hsome
    obtain ⟨hx, hne⟩ := Option.filter_eq_some_iff.mp (Numbered.get_keep.symm.trans hget)
    have hpk : x.pk = a.schedule := (Numbered.get_eq_some.mp hx).2
    obtain ⟨d, hd, htarget⟩ := hs.all a ha (by simp [hx])
    have hschedule : d.schedule = a.schedule := congrArg Target.schedule htarget
    refine ⟨d, List.mem_filter.mpr ⟨hd, ?_⟩, htarget⟩
    simpa [hschedule, hpk] using hne
  | posted => exact ⟨hpaired, hs.only, hs.all, hs.used⟩

theorem AdmissionStep.exact {a : Admission} {new : List Target} (h : AdmissionStep r x s a t)
    (hx : s.schedules.get r.schedule = some x) (hpaired : t.Paired)
    (hnew : ∀ b, b ∈ new ↔ x.opens r.expectedGeneration ∧
      ∃ recipient ∈ r.recipients, b = ⟨x.pk, x.deliveryGeneration, recipient⟩)
    (hs : Exact s asked) : Exact t (asked ++ new) := by
  have hbefore : x.pk < s.schedules.next :=
    s.schedules.used x (Numbered.get_eq_some.mp hx).1
  have hused : ∀ b ∈ asked ++ new, b.schedule < s.schedules.next := by
    intro b hb
    obtain hb | hb := List.mem_append.mp hb
    · exact hs.used b hb
    · obtain ⟨-, recipient, -, rfl⟩ := (hnew b).mp hb
      exact hbefore
  cases h with
  | refused closed =>
    refine ⟨hpaired, fun d hd => List.mem_append_left _ (hs.only d hd), fun b hb hsome => ?_, hused⟩
    obtain hb | hb := List.mem_append.mp hb
    · exact hs.all b hb hsome
    · exact absurd ((hnew b).mp hb).1 closed
  | duplicate _ _ all =>
    refine ⟨hpaired, fun d hd => List.mem_append_left _ (hs.only d hd), fun b hb hsome => ?_, hused⟩
    obtain hb | hb := List.mem_append.mp hb
    · exact hs.all b hb hsome
    · obtain ⟨-, recipient, hmem, rfl⟩ := (hnew b).mp hb
      exact all recipient hmem
  | @admitted m opens admits outcome =>
    obtain ⟨ds, hrows, -, hfresh⟩ := admits.deliveries
    refine ⟨hpaired, fun d hd => ?_, fun b hb hsome => ?_, fun b hb => ?_⟩
    · have hd : d ∈ m.deliveries.rows := hd
      rw [hrows, List.mem_append] at hd
      obtain hd | hd := hd
      · exact List.mem_append_left _ (hs.only d hd)
      · obtain ⟨recipient, hmem, htarget⟩ := hfresh d hd
        exact List.mem_append_right _
          ((hnew _).mpr ⟨opens, recipient, mem_canonicalRecipients.mp hmem, htarget⟩)
    · rw [get_marked, Option.isSome_map, admits.schedules] at hsome
      obtain hb | hb := List.mem_append.mp hb
      · obtain ⟨d, hd, htarget⟩ := hs.all b hb hsome
        refine ⟨d, ?_, htarget⟩
        exact hrows ▸ List.mem_append_left _ hd
      · obtain ⟨-, recipient, hmem, rfl⟩ := (hnew b).mp hb
        exact admits.all recipient (mem_canonicalRecipients.mpr hmem)
    · have hnext : m.schedules.next = s.schedules.next := by rw [admits.schedules]
      exact hnext ▸ hused b hb

/-! ## Runs -/

/-- The condition: the recipients of an admission to an open generation fit their columns, and none
has the key of another recipient. -/
def admissible (σ : State) (op : Operation) : Prop :=
  ∀ a ∈ op.requests σ.store, σ.store.accepts a ∧ ∀ b ∈ op.requests σ.store, a.key = b.key → a = b

instance (σ : State) (op : Operation) : Decidable (admissible σ op) :=
  inferInstanceAs (Decidable (∀ _ ∈ _, _))

variable {σ : State}

/-- An admission that meets the condition returns, if it asks for anything. -/
theorem perform_returns (hs : σ.store.Paired) (hC : admissible σ op)
    (ha : a ∈ op.requests σ.store) : Returns op.perform σ.store := by
  cases hadmits : op.admits with
  | false =>
    rw [requests_of_not_admits hadmits] at ha
    cases ha
  | true =>
    obtain ⟨hnone, -⟩ | ⟨r, now, hrequests, hperform⟩ := admission_cases (s := σ.store) hadmits
    · rw [hnone] at ha
      cases ha
    · obtain ⟨x, hx, hopens, -⟩ := mem_requests.mp ((hrequests a).mp ha)
      have hasks : ∀ recipient ∈ r.recipients,
          ⟨x.pk, x.deliveryGeneration, recipient⟩ ∈ op.requests σ.store := fun recipient hmem =>
        (hrequests _).mpr (mem_requests.mpr ⟨x, hx, hopens, recipient, hmem, rfl⟩)
      obtain ⟨⟨admission, t⟩, ht⟩ := admitScheduleGeneration_returns now hx hs
        (fun _ recipient hmem => (hC _ (hasks recipient hmem)).1)
        fun _ e he e' he' hkey => congrArg Target.recipient
          ((hC _ (hasks e he)).2 _ (hasks e' he') hkey)
      exact ⟨((), t), by rw [hperform]; exact (bind_of_ok ht).trans rfl⟩

theorem reachable_exact (h : (system.under admissible).Reachable σ) :
    Exact σ.store σ.requested := by
  refine h.invariant (I := fun σ => Exact σ.store σ.requested) (fun σ hσ => ?_)
    fun u op v _ hu hstep => ?_
  · obtain ⟨hinitial, hrequested⟩ := hσ
    rw [hrequested]
    refine ⟨hinitial.paired, fun d hd => ?_, by simp, by simp⟩
    rw [hinitial.deliveries] at hd
    cases hd
  · obtain ⟨hC, hstep⟩ := Machine.under_step.mp hstep
    have hrequested : v.requested = u.requested ++ op.requests u.store := by
      rw [← Option.some.inj hstep]
    rw [hrequested]
    cases hrun : op.perform u.store with
    | error e =>
      have hnone : op.requests u.store = [] := by
        refine List.eq_nil_iff_forall_not_mem.mpr fun a ha => ?_
        obtain ⟨p, hp⟩ := perform_returns hu.paired hC ha
        rw [hrun] at hp
        cases hp
      have hsame : v.store = u.store := by
        rw [← Option.some.inj hstep]
        simp [commit_of_error hrun]
      rw [hnone, List.append_nil, hsame]
      exact hu
    | ok p =>
      obtain ⟨_, t⟩ := p
      have hstore : v.store = t := by
        rw [← Option.some.inj hstep]
        simp [commit_of_ok hrun]
      rw [hstore]
      obtain ⟨hnone, heffects⟩ | ⟨r, now, a, x, hrequests, hx, hadmission⟩ := perform_cases hrun
      · rw [hnone, List.append_nil]
        exact heffects.keeps (I := fun m => Exact m u.requested)
          (fun _ _ heffect => heffect.exact) hu
      · refine hadmission.exact hx ((perform_any hrun).keeps
          (fun _ _ heffect => heffect.paired) hu.paired) (fun b => ?_) hu
        rw [hrequests, mem_requests]
        constructor
        · rintro ⟨y, hy, hopens, hrecipient⟩
          obtain rfl : x = y := Option.some.inj (hx.symm.trans hy)
          exact ⟨hopens, hrecipient⟩
        · rintro ⟨hopens, hrecipient⟩
          exact ⟨x, hx, hopens, hrecipient⟩

/-- Deliveries are only inserted for the generation of their schedule, while it may be admitted. -/
theorem inserted_current {v : Unit} (h : op.perform s = .ok (v, t)) (hd : d ∈ t.deliveries.rows)
    (hnew : s.deliveries.get d.pk = none) : ∃ x, s.schedules.get d.schedule = some x ∧
      x.deliveryAdmittable = true ∧ d.dispatchGeneration = x.deliveryGeneration := by
  have hold : ∀ e ∈ s.deliveries.rows, e.pk ≠ d.pk := Table.get_eq_none.mp hnew
  obtain ⟨-, heffects⟩ | ⟨r, now, a, x, -, hx, hadmission⟩ := perform_cases h
  · have hpks : ∀ e ∈ t.deliveries.rows, ∃ e' ∈ s.deliveries.rows, e'.pk = e.pk := by
      refine heffects.keeps (I := fun m => ∀ e ∈ m.deliveries.rows, ∃ e' ∈ s.deliveries.rows,
        e'.pk = e.pk) (fun u m heffect hu => ?_) fun e he => ⟨e, he, rfl⟩
      cases heffect with
      | materialized permit => exact permit.elim
      | @delivered _ p f =>
        intro e he
        obtain ⟨e', he', rfl⟩ := List.mem_map.mp he
        rw [(identity_kept (p e') f e').1]
        exact hu e' he'
      | @fenced _ y f _ =>
        intro e he
        obtain ⟨e', he', rfl⟩ := List.mem_map.mp he
        rw [(identity_kept (e'.fencedBy y.pk) _ e').1]
        exact hu e' he'
      | deleted => exact fun e he => hu e (List.mem_filter.mp he).1
      | _ => exact hu
    obtain ⟨e, he, hpk⟩ := hpks d hd
    exact absurd hpk (hold e he)
  · cases hadmission with
    | refused => exact absurd rfl (hold d hd)
    | duplicate => exact absurd rfl (hold d hd)
    | @admitted m opens admits =>
      obtain ⟨ds, hrows, -, hfresh⟩ := admits.deliveries
      have hd : d ∈ m.deliveries.rows := hd
      rw [hrows, List.mem_append] at hd
      obtain hd | hd := hd
      · exact absurd rfl (hold d hd)
      · obtain ⟨recipient, -, htarget⟩ := hfresh d hd
        have hschedule : d.schedule = x.pk := congrArg Target.schedule htarget
        refine ⟨x, ?_, opens.1, congrArg Target.generation htarget⟩
        rw [hschedule]
        exact Numbered.get_eq_some.mpr ⟨(Numbered.get_eq_some.mp hx).1, rfl⟩

/-- The answer of an admission counts the rows that it has inserted. -/
theorem AdmissionStep.counts {a : Admission} (h : AdmissionStep r x s a t)
    (hx : s.schedules.get r.schedule = some x) (hs : s.Marked) :
    t.deliveries.rows.length = s.deliveries.rows.length + a.created ∧
    t.outbox.rows.length = s.outbox.rows.length + a.created ∧
    (a.outcome = .created ↔ a.created ≠ 0) := by
  cases h with
  | refused _ outcome created => simp [outcome, created]
  | duplicate _ _ _ outcome created => simp [outcome, created]
  | @admitted m opens admits outcome =>
    obtain ⟨ds, hrows, hlength, -⟩ := admits.deliveries
    refine ⟨?_, admits.outbox, ?_⟩
    · change m.deliveries.rows.length = _
      rw [hrows, List.length_append, hlength]
    · obtain ⟨hzero, -, hcreated⟩ | ⟨hcreated, hsome, hfresh⟩ := outcome
      · simp [hzero, hcreated]
      · refine ⟨fun _ hnone => ?_, fun _ => hcreated⟩
        -- Rows that were there before belong to a generation that is marked as admitted.
        obtain ⟨hunmarked, rfl⟩ := hfresh hnone
        obtain ⟨recipient, hmem⟩ := List.exists_mem_of_ne_nil _ hsome
        obtain ⟨d, hd, htarget⟩ := admits.all recipient (mem_canonicalRecipients.mpr hmem)
        have hschedule : d.schedule = x.pk := congrArg Target.schedule htarget
        have hself : m.schedules.get d.schedule = some x := by
          rw [hschedule]
          exact Numbered.get_eq_some.mpr ⟨(Numbered.get_eq_some.mp hx).1, rfl⟩
        exact hunmarked (hs d hd x hself opens.1 (congrArg Target.generation htarget))

/-- In a run that meets the condition, every target that has been asked for has exactly one delivery
and one outbox row as long as its schedule exists, and no other target has any. Every step inserts
deliveries only for the current generation of an admittable schedule, and what an admission answers
is what it has inserted. -/
theorem admitted_once (h : (system.under admissible).Reachable σ) :
    (∀ a, σ.store.deliveryCount a =
        (if a ∈ σ.requested ∧ (σ.store.schedules.get a.schedule).isSome = true then 1 else 0) ∧
      σ.store.outboxCount a = σ.store.deliveryCount a) ∧
    (∀ op v t, Operation.perform op σ.store = .ok (v, t) → ∀ d ∈ t.deliveries.rows,
      σ.store.deliveries.get d.pk = none → ∃ x, σ.store.schedules.get d.schedule = some x ∧
        x.deliveryAdmittable = true ∧ d.dispatchGeneration = x.deliveryGeneration) ∧
    ∀ r now a t, admitScheduleGeneration r now σ.store = .ok (a, t) →
      t.deliveries.rows.length = σ.store.deliveries.rows.length + a.created ∧
      t.outbox.rows.length = σ.store.outbox.rows.length + a.created ∧
      (a.outcome = .created ↔ a.created ≠ 0) := by
  have hexact := reachable_exact h
  refine ⟨fun a => ⟨?_, hexact.paired.outboxCount⟩,
    fun op v t hrun d hd => inserted_current hrun hd, fun r now a t hrun => ?_⟩
  · rw [deliveryCount_eq]
    congr 1
    refine propext ⟨?_, fun ⟨ha, hsome⟩ => hexact.all a ha hsome⟩
    rintro ⟨d, hd, rfl⟩
    obtain ⟨x, hx, -⟩ := hexact.paired.reached d hd
    exact ⟨hexact.only d hd, by simp [RecipientDelivery.target, hx]⟩
  · obtain ⟨x, hx, hadmission⟩ := admitScheduleGeneration_step hrun
    exact hadmission.counts hx (reachable_marked h.of_under).2

/-- Two lists that overlap are admitted. -/
def overlapping : List Operation := [
  .alertScheduleCreate ⟨1, some 1, "", .ok 100⟩ 0,
  .admitScheduleGeneration {
    schedule := 1
    expectedGeneration := 1
    recipients := [⟨"subscriber", "5"⟩, ⟨"staff", "2"⟩, ⟨"subscriber", "5"⟩] } 100,
  .admitScheduleGeneration {
    schedule := 1
    expectedGeneration := 1
    recipients := [⟨"staff", "2"⟩, ⟨"resource", "9"⟩] } 200]

theorem overlapping_once :
    ((system.under admissible).final oneEvent overlapping).store.deliveries.rows.length = 3 ∧
    ((system.under admissible).final oneEvent overlapping).store.outboxCount
      ⟨1, 1, ⟨"staff", "2"⟩⟩ = 1 := by
  have honce := (admitted_once (Machine.Reachable.final (M := system.under admissible)
    oneEvent_initial overlapping)).1 ⟨1, 1, ⟨"staff", "2"⟩⟩
  refine ⟨by decide +kernel, honce.2.trans (honce.1.trans (if_pos ⟨?_, ?_⟩))⟩
  · decide +kernel
  · decide +kernel

/-- Two recipients whose kind and reference make one text. -/
def colliding : State := system.final oneEvent [
  .alertScheduleCreate ⟨1, some 1, "", .ok 100⟩ 0,
  .admitScheduleGeneration {
    schedule := 1
    expectedGeneration := 1
    recipients := [⟨"staff", "2:7"⟩, ⟨"staff:2", "7"⟩] } 100]

theorem colliding_lost : ∃ σ : State, system.Reachable σ ∧
    σ.store.schedules.rows.map (fun x => (x.deliveryAdmittable, x.deliveryGeneration)) =
      [(true, 1)] ∧
    ⟨1, 1, ⟨"staff", "2:7"⟩⟩ ∈ σ.requested ∧
    σ.store.deliveryCount ⟨1, 1, ⟨"staff", "2:7"⟩⟩ = 0 :=
  ⟨colliding, Machine.Reachable.final oneEvent_initial _, by decide +kernel, by decide +kernel,
    by decide +kernel⟩

end Civicos.Scheduler
