import Civicos.Scheduler.Materialization
import Civicos.Scheduler.OutboxFencing

/-!
# Wake-ups of waiting deliveries

The outbox row of a delivery that waits is never cancelled under it. The publisher can still publish
the row, or has handed it to the broker, or has spent its attempts.
-/
namespace Civicos.Scheduler

open Library Library.Transaction
open Payments (Uuid Json Digest clip)
open Appointments (Instant)

namespace SchedulerOutbox

/-- Neither published, nor cancelled, nor given up. -/
def publishable (o : SchedulerOutbox) : Bool :=
  o.isOpen ∧ o.publisherState ∉ [PublisherState.published, .cancelled, .exhausted]

end SchedulerOutbox

variable {P : Permits} {s t : Store} {d : RecipientDelivery} {o : SchedulerOutbox}
  {new : OutboxState} {now : Instant}

theorem publishable_iff : o.publishable = true ↔ o.isOpen = true ∧
    o.publisherState ≠ .published ∧ o.publisherState ≠ .cancelled ∧
      o.publisherState ≠ .exhausted := by
  simp [SchedulerOutbox.publishable]

/-- A publishable row is claimable once its lease and its back-off are over. -/
theorem SchedulerOutbox.Sound.claimable_later {p : PublisherPolicy} (ho : o.Sound p)
    (h : o.publishable = true) : ∃ start, ∀ now, start ≤ now → o.claimable now = true := by
  obtain ⟨hopen, hpublished, hcancelled, hexhausted⟩ := publishable_iff.mp h
  have hlease := ho.lease
  cases hexpires : o.publisherLeaseExpiresAt with
  | none =>
    refine ⟨o.availableAt, fun now hnow => ?_⟩
    have hclaimed : o.publisherState ≠ .claimed := fun hstate => by
      simpa [hexpires] using hlease.mp hstate
    cases hstate : o.publisherState <;>
      simp_all [SchedulerOutbox.claimable]
  | some expires =>
    refine ⟨max o.availableAt (expires + 1), fun now hnow => ?_⟩
    have hclaimed : o.publisherState = .claimed := hlease.mpr (by simp [hexpires])
    have hdue : o.availableAt ≤ now := (le_max_left _ _).trans hnow
    have hover : expires < now := by
      have := (le_max_right o.availableAt (expires + 1)).trans hnow
      exact Int.lt_of_add_one_le this
    simp [SchedulerOutbox.claimable, hopen, hclaimed, hexpires, hdue, hover]

/-! ## Effects -/

/-- Rows are only given up when their attempts are spent. -/
def Store.Spent (s : Store) : Prop :=
  ∀ o ∈ s.outbox.rows, o.publisherState = .exhausted → s.policy.maxAttempts ≤ o.publishAttempts

/-- The outbox row of a pending delivery is not cancelled. -/
def Store.Uncancelled (s : Store) : Prop :=
  ∀ d ∈ s.deliveries.rows, d.status = .pending → ∀ o ∈ s.outbox.rows, o.delivery = d.pk →
    o.publisherState ≠ .cancelled

/-- An outbox row is only cancelled with the generation of its delivery. -/
def Store.CancelsSuperseded (s : Store) : Prop :=
  ∀ d ∈ s.deliveries.rows, ∀ o ∈ s.outbox.rows, o.delivery = d.pk →
    o.publisherState = .cancelled → ∀ x, s.schedules.get d.schedule = some x →
      x.deliveryAdmittable = true → d.dispatchGeneration < x.deliveryGeneration

theorem OutboxStep.spent (h : OutboxStep P s o new) (hnew : new.publisherState = .exhausted) :
    s.policy.maxAttempts ≤ new.publishAttempts := by
  cases h with
  | exhausted _ _ spent => exact spent
  | failed errorClass unknownHandoff =>
    unfold SchedulerOutbox.failed at hnew ⊢
    split at hnew
    next hspent => rwa [if_pos hspent]
    next => cases unknownHandoff <;> cases hnew
  | _ => cases hnew

theorem OutboxStep.uncancelled (h : OutboxStep P s o new) : new.publisherState ≠ .cancelled := by
  intro hnew
  cases h with
  | failed errorClass unknownHandoff =>
    unfold SchedulerOutbox.failed at hnew
    split at hnew
    next => cases hnew
    next => cases unknownHandoff <;> cases hnew
  | _ => cases hnew

theorem DeliveryStep.not_pending {new : DeliveryState} (h : DeliveryStep P s d new) :
    new.status ≠ .pending := by
  intro hnew
  cases h with
  | claimed _ h => rw [h] at hnew; cases hnew
  | succeeded _ h => rw [h] at hnew; cases hnew
  | failed _ h => rw [h] at hnew; cases hnew
  | retried _ _ h => rw [h] at hnew; cases hnew
  | acknowledged _ h => rw [h] at hnew; cases hnew
  | replayed _ _ h => rw [h] at hnew; cases hnew

theorem Effect.spent (h : Effect P s t) (hs : s.Spent) : t.Spent := by
  cases h with
  | materialized _ _ _ h =>
    obtain ⟨at_, hinsert⟩ := h.outbox
    have hpolicy : t.policy = s.policy := by rw [h.others]
    intro o ho hstate
    rw [(Numbered.insert_ok hinsert rfl).1, List.mem_append, List.mem_singleton] at ho
    rw [hpolicy]
    obtain ho | rfl := ho
    · exact hs o ho hstate
    · cases hstate
  | @posted _ p f steps =>
    intro o' ho' hstate
    obtain ⟨o, ho, rfl⟩ := List.mem_map.mp ho'
    by_cases hp : p o = true
    · rw [if_pos hp] at hstate ⊢
      exact (steps o ho hp).spent hstate
    · rw [if_neg hp] at hstate ⊢
      exact hs o ho hstate
  | @fenced _ y =>
    intro o' ho' hstate
    obtain ⟨o, ho, rfl⟩ := List.mem_map.mp ho'
    by_cases hp : o.fencedBy s.deliveries.rows y.pk = true
    · rw [if_pos hp] at hstate
      cases hstate
    · rw [if_neg hp] at hstate ⊢
      exact hs o ho hstate
  | deleted => exact fun o ho => hs o (List.mem_filter.mp ho).1
  | _ => exact hs

/-- Fencing leaves the rows of other schedules alone. -/
theorem not_fenced {k : ℕ} (hd : d ∈ s.deliveries.rows) (hdelivery : o.delivery = d.pk)
    (hne : d.schedule ≠ k) : o.fencedBy s.deliveries.rows k = false := by
  rw [Bool.eq_false_iff]
  intro h
  simp only [SchedulerOutbox.fencedBy, List.any_eq_true, decide_eq_true_eq] at h
  obtain ⟨⟨e, he, hpk, hschedule⟩, -⟩ := h
  obtain rfl : e = d := Table.eq_of_pk he hd (hpk.trans hdelivery)
  exact hne hschedule

theorem Effect.uncancelled (h : Effect P s t) (hpaired : s.Paired) (hs : s.Uncancelled) :
    t.Uncancelled := by
  cases h with
  | materialized _ _ _ h =>
    obtain ⟨build, hbuild, hinsert⟩ := h.deliveries
    obtain ⟨at_, hpost⟩ := h.outbox
    obtain ⟨hpk, -⟩ := hbuild s.deliveries.next
    intro d hd hpending o ho hdelivery hstate
    rw [(Numbered.insert_ok hinsert hpk).1, List.mem_append, List.mem_singleton] at hd
    rw [(Numbered.insert_ok hpost rfl).1, List.mem_append, List.mem_singleton] at ho
    obtain ho | rfl := ho
    · obtain hd | rfl := hd
      · exact hs d hd hpending o ho hdelivery hstate
      · have := hpaired.earlier ho
        omega
    · cases hstate
  | @delivered _ p f steps =>
    intro d' hd' hpending
    obtain ⟨d, hd, rfl⟩ := List.mem_map.mp hd'
    by_cases hp : p d = true
    · rw [if_pos hp] at hpending
      exact absurd hpending (steps d hd hp).not_pending
    · rw [if_neg hp] at hpending ⊢
      exact hs d hd hpending
  | @fenced _ y =>
    intro d' hd' hpending o' ho' hdelivery
    obtain ⟨d, hd, rfl⟩ := List.mem_map.mp hd'
    obtain ⟨o, ho, rfl⟩ := List.mem_map.mp ho'
    by_cases hp : d.fencedBy y.pk = true
    · rw [if_pos hp] at hpending
      cases hpending
    · rw [if_neg hp] at hpending hdelivery
      have hne : d.schedule ≠ y.pk := fun heq =>
        hp (by simp [RecipientDelivery.fencedBy, heq, hpending, DeliveryStatus.isTerminal])
      have hdelivery : o.delivery = d.pk := by
        split at hdelivery <;> exact hdelivery
      rw [if_neg (by simp [not_fenced hd hdelivery hne])]
      exact hs d hd hpending o ho hdelivery
  | deleted =>
    intro d hd hpending o ho
    exact hs d (List.mem_filter.mp hd).1 hpending o (List.mem_filter.mp ho).1
  | @posted _ p f steps =>
    intro d hd hpending o' ho' hdelivery
    obtain ⟨o, ho, rfl⟩ := List.mem_map.mp ho'
    by_cases hp : p o = true
    · rw [if_pos hp]
      exact (steps o ho hp).uncancelled
    · rw [if_neg hp] at hdelivery ⊢
      exact hs d hd hpending o ho hdelivery
  | _ => exact hs

/-- A schedule whose generation is neither given up nor opened. -/
theorem get_kept {f : AlertSchedule → AlertSchedule} {p : AlertSchedule → Bool}
    {k : ℕ} {x' : AlertSchedule} (hf : AlertSchedule.schema.Preserves f)
    (keeps : ∀ x, (f x).deliveryGeneration = x.deliveryGeneration ∧
      (f x).deliveryAdmittable = x.deliveryAdmittable)
    (h : (s.schedules.rewrite p f hf).get k = some x') : ∃ x, s.schedules.get k = some x ∧
      x'.deliveryGeneration = x.deliveryGeneration ∧
      x'.deliveryAdmittable = x.deliveryAdmittable := by
  rw [Numbered.get_rewrite, Option.map_eq_some_iff] at h
  obtain ⟨x, hx, rfl⟩ := h
  refine ⟨x, hx, ?_⟩
  split
  · exact keeps x
  · exact ⟨rfl, rfl⟩

theorem Store.CancelsSuperseded.of_kept (hs : s.CancelsSuperseded)
    (hdeliveries : t.deliveries = s.deliveries) (houtbox : t.outbox = s.outbox)
    (h : ∀ k x', t.schedules.get k = some x' → ∃ x, s.schedules.get k = some x ∧
      x'.deliveryGeneration = x.deliveryGeneration ∧
      x'.deliveryAdmittable = x.deliveryAdmittable) : t.CancelsSuperseded := by
  intro d hd o ho hdelivery hstate x' hx' hadmittable
  rw [hdeliveries] at hd
  rw [houtbox] at ho
  obtain ⟨x, hx, hgeneration, hsame⟩ := h d.schedule x' hx'
  rw [hgeneration]
  exact hs d hd o ho hdelivery hstate x hx (hsame ▸ hadmittable)

theorem Effect.cancelsSuperseded (h : Effect P s t) (hpaired : s.Paired)
    (hs : s.CancelsSuperseded) : t.CancelsSuperseded := by
  cases h with
  | @scheduled _ T build h fresh =>
    intro d hd o ho hdelivery hstate x hx
    obtain ⟨y, hy, -⟩ := hpaired.reached d hd
    have hne : s.schedules.next ≠ d.schedule := fun heq => by
      rw [← heq, Numbered.get_next] at hy
      cases hy
    rw [Numbered.get_insert h (fresh _).1, if_neg hne] at hx
    exact hs d hd o ho hdelivery hstate x hx
  | @rescheduled _ _ _ hf keeps =>
    exact hs.of_kept rfl rfl fun k x' => get_kept hf fun x => ⟨(keeps x).1, (keeps x).2.1⟩
  | @marked _ _ _ hf _ _ keeps => exact hs.of_kept rfl rfl fun k x' => get_kept hf keeps
  | materialized _ _ _ h =>
    obtain ⟨build, hbuild, hinsert⟩ := h.deliveries
    obtain ⟨at_, hpost⟩ := h.outbox
    obtain ⟨hpk, -⟩ := hbuild s.deliveries.next
    intro d hd o ho hdelivery hstate x hx
    rw [h.schedules] at hx
    rw [(Numbered.insert_ok hinsert hpk).1, List.mem_append, List.mem_singleton] at hd
    rw [(Numbered.insert_ok hpost rfl).1, List.mem_append, List.mem_singleton] at ho
    obtain ho | rfl := ho
    · obtain hd | rfl := hd
      · exact hs d hd o ho hdelivery hstate x hx
      · have := hpaired.earlier ho
        omega
    · cases hstate
  | @delivered _ p f =>
    intro d' hd' o ho hdelivery hstate x hx hadmittable
    obtain ⟨d, hd, rfl⟩ := List.mem_map.mp hd'
    obtain ⟨hpk, hschedule, hgeneration⟩ := identity_kept (p d) f d
    rw [hpk] at hdelivery
    rw [hschedule] at hx
    rw [hgeneration]
    exact hs d hd o ho hdelivery hstate x hx hadmittable
  | @fenced _ y f now hf hy h =>
    intro d' hd' o' ho' hdelivery hstate x' hx' hadmittable
    obtain ⟨d, hd, rfl⟩ := List.mem_map.mp hd'
    obtain ⟨o, ho, rfl⟩ := List.mem_map.mp ho'
    obtain ⟨hpk, hschedule, hgeneration⟩ := identity_kept (d.fencedBy y.pk) _ d
    rw [hpk] at hdelivery
    rw [hschedule, Numbered.get_rewrite, Option.map_eq_some_iff] at hx'
    rw [hgeneration]
    obtain ⟨x, hx, rfl⟩ := hx'
    have hxpk : x.pk = d.schedule := (Numbered.get_eq_some.mp hx).2
    by_cases heq : x.pk = y.pk
    -- The schedule that is fenced goes on with a generation that nobody has been admitted to.
    · obtain rfl : x = y := Table.eq_of_pk (Numbered.get_eq_some.mp hx).1
        (Numbered.get_eq_some.mp hy).1 heq
      obtain ⟨x', hx', hreached⟩ := hpaired.reached d hd
      obtain rfl : x = x' := Option.some.inj (hx.symm.trans hx')
      rw [if_pos (by simp)] at hadmittable ⊢
      obtain ⟨-, ⟨hclosed, -⟩ | ⟨-, hnext⟩⟩ := h
      · simp [hclosed] at hadmittable
      · omega
    · have hdelivery : o.delivery = d.pk := by
        split at hdelivery <;> exact hdelivery
      rw [if_neg (by simp [heq])] at hadmittable ⊢
      rw [if_neg (by simp [not_fenced hd hdelivery (hxpk ▸ heq)])] at hstate
      exact hs d hd o ho hdelivery hstate x hx hadmittable
  | deleted =>
    intro d hd o ho hdelivery hstate x hx
    refine hs d (List.mem_filter.mp hd).1 o (List.mem_filter.mp ho).1 hdelivery hstate x ?_
    have hget := Numbered.get_keep (t := s.schedules) (k := d.schedule) ▸ hx
    exact (Option.filter_eq_some_iff.mp hget).1
  | @posted _ p f steps =>
    intro d hd o' ho' hdelivery hstate
    obtain ⟨o, ho, rfl⟩ := List.mem_map.mp ho'
    by_cases hp : p o = true
    · rw [if_pos hp] at hstate
      exact absurd hstate (steps o ho hp).uncancelled
    · rw [if_neg hp] at hdelivery hstate
      exact hs d hd o ho hdelivery hstate

/-! ## Runs -/

variable {σ : State}

structure Store.Awake (s : Store) : Prop where
  paired : s.Paired
  spent : s.Spent
  uncancelled : s.Uncancelled
  cancelsSuperseded : s.CancelsSuperseded

theorem reachable_awake (h : system.Reachable σ) : σ.store.Awake := by
  refine invariant (fun s hs => ?_) (fun s t heffect hs => ?_) h
  · have hdeliveries : s.deliveries.rows = [] := by rw [hs.deliveries]; rfl
    refine ⟨hs.paired, fun o ho => ?_, fun d hd => ?_, fun d hd => ?_⟩
    · rw [hs.outbox] at ho
      cases ho
    · rw [hdeliveries] at hd
      cases hd
    · rw [hdeliveries] at hd
      cases hd
  · exact ⟨heffect.paired hs.paired, heffect.spent hs.spent,
      heffect.uncancelled hs.paired hs.uncancelled,
      heffect.cancelsSuperseded hs.paired hs.cancelsSuperseded⟩

/-- An exhausted row that is still open is taken up again by `replay_outbox`. -/
theorem replayOutbox_rearms (ho : o ∈ s.outbox.rows) (hopen : o.isOpen = true)
    (hstate : o.publisherState = .exhausted) (now : Instant) :
    ∃ t, replayOutbox o.pk now s = .ok (true, t) ∧
      ∃ o' ∈ t.outbox.rows, o'.delivery = o.delivery ∧ o'.publishable = true := by
  have hreplayable : o.replayable o.pk = true := by
    simp [SchedulerOutbox.replayable, hopen, hstate]
  have hany : s.outbox.rows.any (·.replayable o.pk) = true :=
    List.any_eq_true.mpr ⟨o, ho, hreplayable⟩
  refine ⟨_, by
    change Except.ok (s.outbox.rows.any (·.replayable o.pk), _) = _
    rw [hany], _, List.mem_map_of_mem ho, ?_, ?_⟩
  · rw [if_pos hreplayable]
    rfl
  · rw [if_pos hreplayable]
    refine publishable_iff.mpr ⟨isOpen_iff.mpr (isOpen_iff.mp hopen), ?_⟩
    simp [SchedulerOutbox.withState]

/-- In every reachable state a delivery of an admittable schedule that is pending, or is retried in
the schedule's current generation, has exactly one outbox row: the publisher can publish it, from
some time on whenever it looks, or the row has been handed to the broker, or its publish attempts
are spent and `replay_outbox` makes it publishable again. -/
theorem waiting_awake (h : system.Reachable σ) :
    ∀ d ∈ σ.store.deliveries.rows, ∀ x, σ.store.schedules.get d.schedule = some x →
      x.deliveryAdmittable = true →
      d.status = .pending ∨ d.status = .retry ∧ d.dispatchGeneration = x.deliveryGeneration →
      ∃ o ∈ σ.store.outbox.rows, o.delivery = d.pk ∧
        (∀ o' ∈ σ.store.outbox.rows, o'.delivery = d.pk → o' = o) ∧
        (o.publishable = true ∧ (∃ start, ∀ now, start ≤ now → o.claimable now = true) ∨
        o.publisherState = .published ∨
        o.publisherState = .exhausted ∧ σ.store.policy.maxAttempts ≤ o.publishAttempts ∧
          ∀ now, ∃ t, replayOutbox o.pk now σ.store = .ok (true, t) ∧
            ∃ o' ∈ t.outbox.rows, o'.delivery = d.pk ∧ o'.publishable = true) := by
  intro d hd x hx hadmittable hwaiting
  have hawake := reachable_awake h
  have hsound := reachable_outboxSound h
  obtain ⟨o, ho, hdelivery⟩ := hawake.paired.posted hd
  have hcancelled : o.publisherState ≠ .cancelled := by
    intro hstate
    obtain hpending | ⟨-, hcurrent⟩ := hwaiting
    · exact hawake.uncancelled d hd hpending o ho hdelivery hstate
    · have := hawake.cancelsSuperseded d hd o ho hdelivery hstate x hx hadmittable
      omega
  refine ⟨o, ho, hdelivery, fun o' ho' hdelivery' => ?_, ?_⟩
  · refine Table.eq_of_clash (i := SchedulerOutbox.uniqueDelivery)
      (by simp [SchedulerOutbox.schema]) ho' ho ⟨Option.some_ne_none _, ?_⟩
    exact congrArg some (hdelivery'.trans hdelivery.symm)
  · by_cases hpublished : o.publisherState = .published
    · exact .inr (.inl hpublished)
    · have hopen : o.isOpen = true := isOpen_iff.mpr ⟨by
        simpa [hpublished] using (hsound o ho).published, by
        simpa [hcancelled] using (hsound o ho).cancelled⟩
      by_cases hexhausted : o.publisherState = .exhausted
      · refine .inr (.inr ⟨hexhausted, hawake.spent o ho hexhausted, fun now => ?_⟩)
        rw [← hdelivery]
        exact replayOutbox_rearms ho hopen hexhausted now
      · have hpublishable := publishable_iff.mpr ⟨hopen, hpublished, hcancelled, hexhausted⟩
        exact .inl ⟨hpublishable, (hsound o ho).claimable_later hpublishable⟩

/-- The alert is admitted; the publisher claims its outbox row and hands it to the broker. -/
def handedOver : State := system.final oneEvent [
  .alertScheduleCreate ⟨1, some 1, "", .ok 100⟩ 0,
  .dispatchAlertSchedule 1 [⟨"subscriber", "5"⟩] 100,
  .claimOutbox 60 "publisher" 100 7,
  .markOutboxPublished 1 7 1 200]

theorem pending_published : ∃ σ : State, system.Reachable σ ∧
    σ.store.schedules.rows.map (·.deliveryAdmittable) = [true] ∧
    σ.store.deliveries.rows.map (fun d => (d.pk, d.status)) = [(1, .pending)] ∧
    σ.store.outbox.rows.map (fun o => (o.delivery, o.publisherState)) = [(1, .published)] :=
  ⟨handedOver, Machine.Reachable.final oneEvent_initial _, by decide +kernel, by decide +kernel,
    by decide +kernel⟩

/-- The publisher fails as often as it may, and its row is given up. -/
def givenUp : State := system.final oneEvent [
  .alertScheduleCreate ⟨1, some 1, "", .ok 100⟩ 0,
  .dispatchAlertSchedule 1 [⟨"subscriber", "5"⟩] 100,
  .claimOutbox 60 "publisher" 100 7, .markOutboxFailed 1 7 1 "ConnectionError" false 100,
  .claimOutbox 60 "publisher" (seconds 100) 8,
  .markOutboxFailed 1 8 2 "ConnectionError" false (seconds 100),
  .claimOutbox 60 "publisher" (seconds 300) 9,
  .markOutboxFailed 1 9 3 "ConnectionError" false (seconds 300)]

theorem givenUp_awake :
    givenUp.store.deliveries.rows.map (fun d => (d.status, d.dispatchGeneration)) =
      [(.pending, 1)] ∧
    givenUp.store.outbox.rows.map (·.publisherState) = [.exhausted] ∧
    ∀ d ∈ givenUp.store.deliveries.rows, ∀ x, givenUp.store.schedules.get d.schedule = some x →
      x.deliveryAdmittable = true → d.status = .pending →
      ∃ o ∈ givenUp.store.outbox.rows, o.delivery = d.pk := by
  refine ⟨by decide +kernel, by decide +kernel, fun d hd x hx hadmittable hpending => ?_⟩
  have hreachable : system.Reachable givenUp := Machine.Reachable.final oneEvent_initial _
  obtain ⟨o, ho, hdelivery, -⟩ := waiting_awake hreachable d hd x hx hadmittable (.inl hpending)
  exact ⟨o, ho, hdelivery⟩

end Civicos.Scheduler
