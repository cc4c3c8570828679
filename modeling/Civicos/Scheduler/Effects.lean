import Civicos.Scheduler.System

/-!
# What the scheduler's transactions do

Every transaction is a sequence of effects: rows of one kind are rewritten in a way that their
states allow, a schedule is fenced, a recipient is materialized. Later proofs cite the effects and
never unfold an operation.
-/
namespace Civicos.Scheduler

open Library Library.Transaction Relation
open Payments (Uuid Json Digest clip)
open Appointments (Instant)

/-! ## Effects -/

/-- What a sequence of effects may do: whether it may admit recipients, the deliveries that it may
replay or retry, and the outbox rows that it may publish or give up. -/
structure Permits where
  enrol : Prop := True
  replay : Store → RecipientDelivery → Prop := fun _ _ => True
  retry : Store → RecipientDelivery → Prop := fun _ _ => True
  settle : Store → SchedulerOutbox → Prop := fun _ _ => True

/-- What may become of a delivery, fencing apart. -/
inductive DeliveryStep (P : Permits) (s : Store) (d : RecipientDelivery) : DeliveryState → Prop
  | claimed {new} (live : d.status.isTerminal = false) (h : new.status = .inFlight) :
    DeliveryStep P s d new
  | succeeded {new} (held : d.status = .inFlight) (h : new.status = .delivered) :
    DeliveryStep P s d new
  | failed {new} (held : d.status = .inFlight) (h : new.status = .deadLetter) :
    DeliveryStep P s d new
  | retried {new} (held : d.status = .inFlight) (permit : P.retry s d) (h : new.status = .retry) :
    DeliveryStep P s d new
  | acknowledged {new} (held : d.status = .delivered) (h : new.status = .acknowledged) :
    DeliveryStep P s d new
  | replayed {new} (dead : d.status = .deadLetter) (permit : P.replay s d)
      (h : new.status = .retry) : DeliveryStep P s d new

/-- What may become of an outbox row, fencing apart. -/
inductive OutboxStep (P : Permits) (s : Store) (o : SchedulerOutbox) : OutboxState → Prop
  | exhausted (now) (h : o.claimable now = true) (spent : s.policy.maxAttempts ≤ o.publishAttempts)
      (permit : P.settle s o) : OutboxStep P s o { o.withoutLease with
        publisherState := .exhausted
        exhaustedAt := some now
        publisherStateChangedAt := some now }
  | claimed (leaseSeconds owner now token) (h : o.claimable now = true)
      (left : (o.publishAttempts : ℤ) < s.policy.maxAttempts) :
        OutboxStep P s o { o.toOutboxState with
        publisherGeneration := o.publisherGeneration + 1
        publisherToken := some token
        publisherOwner := clip 120 owner
        publisherLeaseExpiresAt := some (now + seconds leaseSeconds)
        publishAttempts := o.publishAttempts + 1
        publisherState := .claimed
        publisherStateChangedAt := some now }
  | published (now) (isOpen : o.isOpen = true) (h : o.publisherState = .claimed)
      (permit : P.settle s o) : OutboxStep P s o { o.withoutLease with
        publishedAt := some now
        publisherState := .published
        publisherStateChangedAt := some now
        publisherFailureClass := ""
        exhaustedAt := none
        lastError := "" }
  | failed (errorClass unknownHandoff now) (isOpen : o.isOpen = true)
      (h : o.publisherState = .claimed)
      (permit : s.policy.maxAttempts ≤ o.publishAttempts → P.settle s o) :
      OutboxStep P s o (o.failed s.policy errorClass unknownHandoff now)
  | replayed (now) (isOpen : o.isOpen = true) (h : o.publisherState = .exhausted) :
      OutboxStep P s o { o.withoutLease with
        publisherState := .pending
        publisherFailureClass := ""
        publisherStateChangedAt := some now
        exhaustedAt := none
        publishAttempts := 0
        availableAt := now }

namespace Store

/-- The store after `_fence_locked_schedule_child_work`. -/
def fence (s : Store) (schedule : ℕ) (now : Instant) : Store :=
  { s with
    deliveries := s.deliveries.rewrite (·.fencedBy schedule) (.withState fun d =>
      { d.toDeliveryState with
        status := .cancelled
        cancelledAt := some now
        leaseToken := none
        leaseExpiresAt := none }) (RecipientDelivery.preserves _)
    outbox := s.outbox.rewrite (·.fencedBy s.deliveries.rows schedule) (.withState fun o =>
      { o.toOutboxState with
        cancelledAt := some now
        publisherState := .cancelled
        publisherStateChangedAt := some now
        publisherToken := none
        publisherOwner := ""
        publisherLeaseExpiresAt := none }) (SchedulerOutbox.preserves _) }

/-- The store without a schedule and what belongs to it. -/
def without (s : Store) (schedule : ℕ) : Store :=
  { s with
    schedules := s.schedules.keep (·.pk ≠ schedule)
    deliveries := s.deliveries.keep (·.schedule ≠ schedule)
    outbox := s.outbox.keep fun o =>
      !s.deliveries.rows.any fun d => d.pk = o.delivery ∧ d.schedule = schedule }

end Store

/-- The generation of a fenced schedule is given up: the schedule is cancelled, or goes on with the
next generation. -/
def AlertSchedule.Superseded (x x' : AlertSchedule) : Prop :=
  x'.admittedGeneration = none ∧
    (x'.deliveryAdmittable = false ∧ x'.deliveryGeneration = x.deliveryGeneration ∨
      x'.deliveryAdmittable = true ∧ x'.deliveryGeneration = x.deliveryGeneration + 1)

/-- A delivery and its outbox row for a recipient of the current generation. -/
structure Materialized (x : AlertSchedule) (r : Recipient) (s t : Store) : Prop where
  deliveries : ∃ build, (∀ pk, (build pk).pk = pk ∧ (build pk).schedule = x.pk ∧
    (build pk).dispatchGeneration = x.deliveryGeneration ∧ (build pk).recipient = r ∧
    (build pk).idempotencyKey = recipientIdempotencyKey x.pk x.deliveryGeneration r ∧
    (build pk).status = .pending) ∧ s.deliveries.insert build = .ok t.deliveries
  outbox : ∃ at_, s.outbox.insert (fun pk =>
    { pk, delivery := s.deliveries.next, availableAt := at_ }) = .ok t.outbox
  others : t = { s with deliveries := t.deliveries, outbox := t.outbox }

inductive Effect (P : Permits) : Store → Store → Prop
  | scheduled {s T build} (h : s.schedules.insert build = .ok T)
      (fresh : ∀ pk, (build pk).pk = pk ∧ (build pk).deliveryGeneration = 1 ∧
        (build pk).deliveryAdmittable = true ∧ (build pk).admittedGeneration = none) :
      Effect P s { s with schedules := T }
  | rescheduled {s k f hf} (keeps : ∀ x : AlertSchedule,
      (f x).deliveryGeneration = x.deliveryGeneration ∧
      (f x).deliveryAdmittable = x.deliveryAdmittable ∧
      (f x).admittedGeneration = x.admittedGeneration) :
      Effect P s { s with schedules := s.schedules.rewrite (·.pk = k) f hf }
  | materialized {x r s t} (enrol : P.enrol) (hx : s.schedules.get x.pk = some x)
      (admittable : x.deliveryAdmittable = true) (h : Materialized x r s t) : Effect P s t
  | marked {x s f hf} (enrol : P.enrol) (hx : s.schedules.get x.pk = some x)
      (keeps : ∀ y, (f y).deliveryGeneration = y.deliveryGeneration ∧
        (f y).deliveryAdmittable = y.deliveryAdmittable) :
      Effect P s { s with schedules := s.schedules.rewrite (·.pk = x.pk) f hf }
  | delivered {s p f} (steps : ∀ d ∈ s.deliveries.rows, p d = true → DeliveryStep P s d (f d)) :
      Effect P s { s with
        deliveries := s.deliveries.rewrite p (.withState f) (RecipientDelivery.preserves f) }
  | fenced {s x f now} (hf : AlertSchedule.schema.Preserves f)
      (hx : s.schedules.get x.pk = some x) (h : x.Superseded (f x)) :
        Effect P s { s.fence x.pk now with schedules := s.schedules.rewrite (·.pk = x.pk) f hf }
  | deleted {s k} : Effect P s (s.without k)
  | posted {s p f} (steps : ∀ o ∈ s.outbox.rows, p o = true → OutboxStep P s o (f o)) :
      Effect P s { s with
        outbox := s.outbox.rewrite p (.withState f) (SchedulerOutbox.preserves f) }

variable {P : Permits} {s t u : Store} {now : Instant} {k : ℕ} {x : AlertSchedule}

abbrev Effects (P : Permits) : Store → Store → Prop := ReflTransGen (Effect P)

/-- What every effect keeps, a sequence of effects keeps. -/
theorem Effects.keeps {I : Store → Prop} (h : Effects P s t)
    (keep : ∀ s t, Effect P s t → I s → I t) (hs : I s) : I t := by
  induction h with
  | refl => exact hs
  | tail _ heffect ih => exact keep _ _ heffect ih

/-! ## Reading -/

section Reading

variable {α β : Type} {a : α} {b : β}

theorem scheduleRow_bind {g : AlertSchedule → Tx β} : (scheduleRow k >>= g) s = .ok (b, t) ↔
    ∃ x, s.schedules.get k = some x ∧ g x s = .ok (b, t) := by
  rw [bind_apply, scheduleRow]
  cases s.schedules.get k with
  | none => simp [Except.bind]
  | some x => simp [Except.bind]

theorem deliveryOf_bind {key : Digest String} {g : RecipientDelivery → Tx β}
    (h : (deliveryOf key >>= g) s = .ok (b, t)) :
    ∃ d, s.deliveries.rows.find? (·.idempotencyKey = key) = some d ∧ d ∈ s.deliveries.rows ∧
      d.idempotencyKey = key ∧ g d s = .ok (b, t) := by
  rw [bind_apply, deliveryOf] at h
  cases hd : s.deliveries.rows.find? (·.idempotencyKey = key) with
  | none => simp [hd, Except.bind] at h
  | some d =>
    rw [hd] at h
    exact ⟨d, rfl, List.mem_of_find?_eq_some hd, by simpa using List.find?_some hd, h⟩

theorem add_ok {S : Schema α} {ℓ : Lens Store (Numbered S)} {build : ℕ → α}
    (h : add ℓ build s = .ok (a, t)) :
    a = build (ℓ.get s).next ∧ ∃ T, (ℓ.get s).insert build = .ok T ∧ t = ℓ.set T s := by
  unfold add at h
  cases hT : (ℓ.get s).insert build with
  | error v => simp [hT] at h
  | ok T =>
    simp only [hT, Except.ok.injEq, Prod.mk.injEq] at h
    exact ⟨h.1.symm, T, rfl, h.2.symm⟩

end Reading

theorem validateTargetCategory_ok {category : String} {v : Unit}
    (h : validateTargetCategory category s = .ok (v, t)) : t = s := by
  unfold validateTargetCategory at h
  split at h
  · cases h
  · exact (pure_ok.mp h).2

theorem resolveEvent_ok {event : Uuid} {v : Unit} (h : resolveEvent event s = .ok (v, t)) :
    t = s := by
  obtain ⟨_, _, ⟨⟩, h₁⟩ := bind_ok.mp h
  split at h₁
  · cases h₁
  · exact (pure_ok.mp h₁).2

theorem resolveMessage_ok {message : Option ℕ} {m : ℕ} (h : resolveMessage message s = .ok (m, t)) :
    t = s := by
  unfold resolveMessage at h
  split at h <;> cases h
  rfl

theorem futureDatetime_ok {parsed : Except String Instant} {d : Instant}
    (h : futureDatetime parsed now s = .ok (d, t)) : t = s := by
  unfold futureDatetime at h
  split at h
  · cases h
  · split at h <;> cases h
    rfl

theorem supplied_ok {α β : Type} {value : Option α} {current b : β} {check : α → Tx β}
    (hcheck : ∀ a, check a s = .ok (b, t) → t = s)
    (h : supplied value current check s = .ok (b, t)) : t = s := by
  cases value with
  | none => exact (pure_ok.mp h).2
  | some a => exact hcheck a h

/-! ## Schedules -/

theorem alertScheduleCreate_effect {r : AlertCreation}
    (h : alertScheduleCreate r now s = .ok (x, t)) : Effect P s t := by
  obtain ⟨_, s₁, hcategory, h₁⟩ := bind_ok.mp h
  obtain rfl := validateTargetCategory_ok hcategory
  obtain ⟨_, s₂, hevent, h₂⟩ := bind_ok.mp h₁
  obtain rfl := resolveEvent_ok hevent
  obtain ⟨message, s₃, hmessage, h₃⟩ := bind_ok.mp h₂
  obtain rfl := resolveMessage_ok hmessage
  obtain ⟨alertDatetime, s₄, hdatetime, h₄⟩ := bind_ok.mp h₃
  obtain rfl := futureDatetime_ok hdatetime
  obtain ⟨-, T, hT, rfl⟩ := add_ok h₄
  exact .scheduled hT fun _ => ⟨rfl, rfl, rfl, rfl⟩

theorem superseded_advance (x : AlertSchedule) : x.Superseded { x with
    deliveryGeneration := x.deliveryGeneration + 1
    deliveryAdmittable := true
    admittedGeneration := none
    admissionOutcome := none } := ⟨rfl, .inr ⟨rfl, rfl⟩⟩

theorem fenceScheduleForModify_effect {n : ℕ} (hx : s.schedules.get x.pk = some x)
    (h : fenceScheduleForModify x now s = .ok (n, t)) : Effect P s t := by
  cases h
  exact .fenced _ hx (superseded_advance x)

theorem alertScheduleModify_effects {r : AlertChanges} {answer : Bool × String}
    (h : alertScheduleModify k r now s = .ok (answer, t)) : Effects P s t := by
  obtain ⟨row, hrow, h₁⟩ := scheduleRow_bind.mp h
  obtain ⟨slot, s₁, hslot, h₂⟩ := bind_ok.mp h₁
  obtain rfl := supplied_ok (fun event hcheck => by
    obtain ⟨_, _, hresolve, hpure⟩ := bind_ok.mp hcheck
    exact (pure_ok.mp hpure).2.trans (resolveEvent_ok hresolve)) hslot
  obtain ⟨category, s₂, hcategory, h₃⟩ := bind_ok.mp h₂
  obtain rfl := supplied_ok (fun category hcheck => by
    obtain ⟨_, _, hvalid, hpure⟩ := bind_ok.mp hcheck
    exact (pure_ok.mp hpure).2.trans (validateTargetCategory_ok hvalid)) hcategory
  obtain ⟨message, s₃, hmessage, h₄⟩ := bind_ok.mp h₃
  obtain rfl := supplied_ok (fun _ => resolveMessage_ok) hmessage
  obtain ⟨alertDatetime, s₄, hdatetime, h₅⟩ := bind_ok.mp h₄
  obtain rfl := supplied_ok (fun _ => futureDatetime_ok) hdatetime
  have hpk : row.pk = k := (Numbered.get_eq_some.mp hrow).2
  split at h₅
  · obtain ⟨n, s₅, hfence, h₆⟩ := bind_ok.mp h₅
    obtain ⟨_, _, ⟨⟩, h₇⟩ := bind_ok.mp h₆
    obtain ⟨-, rfl⟩ := pure_ok.mp h₇
    exact (ReflTransGen.single (fenceScheduleForModify_effect (hpk ▸ hrow) hfence)).tail
      (.rescheduled fun _ => ⟨rfl, rfl, rfl⟩)
  · obtain ⟨_, _, ⟨⟩, h₆⟩ := bind_ok.mp h₅
    obtain ⟨-, rfl⟩ := pure_ok.mp h₆
    exact .single (.rescheduled fun _ => ⟨rfl, rfl, rfl⟩)

theorem cancelSchedule_effect {n : ℕ} (h : cancelSchedule k now s = .ok (n, t)) :
    Effect P s t := by
  obtain ⟨row, hrow, h₁⟩ := scheduleRow_bind.mp h
  obtain rfl : row.pk = k := (Numbered.get_eq_some.mp hrow).2
  cases h₁
  have hf : AlertSchedule.schema.Preserves fun y => { y with
    deliveryAdmittable := false
    admittedGeneration := none
    admissionOutcome := none } := AlertSchedule.preserves fun _ => rfl
  exact .fenced hf hrow ⟨rfl, .inl ⟨rfl, rfl⟩⟩

theorem rearmSchedule_effects {answer : ℕ × Option ℕ}
    (h : rearmSchedule k now s = .ok (answer, t)) : Effects P s t := by
  obtain ⟨row, hrow, h₁⟩ := scheduleRow_bind.mp h
  obtain rfl : row.pk = k := (Numbered.get_eq_some.mp hrow).2
  split at h₁
  · obtain ⟨-, rfl⟩ := pure_ok.mp h₁
    exact .refl
  · cases h₁
    exact .single (.fenced _ hrow (superseded_advance row))

/-- Fencing only touches rows that are then deleted. -/
theorem without_fence (s : Store) (k : ℕ) (now : Instant) :
    (s.fence k now).without k = s.without k := by
  have hbelongs : ∀ o : SchedulerOutbox,
      ((s.fence k now).deliveries.rows.any fun d => d.pk = o.delivery ∧ d.schedule = k) =
        s.deliveries.rows.any fun d => d.pk = o.delivery ∧ d.schedule = k := fun o => by
    simp only [Store.fence, Numbered.rows_rewrite, List.any_map]
    congr 1
    funext d
    simp only [Function.comp]
    split <;> rfl
  unfold Store.without
  congr 1
  · refine Numbered.keep_rewrite (RecipientDelivery.preserves _) (fun d _ hd => ?_) fun _ => rfl
    simp only [RecipientDelivery.fencedBy, decide_eq_true_eq] at hd
    simp [hd.1]
  · simp only [hbelongs]
    refine Numbered.keep_rewrite (SchedulerOutbox.preserves _) (fun o _ ho => ?_) fun _ => rfl
    simp only [SchedulerOutbox.fencedBy, decide_eq_true_eq] at ho
    rw [ho.1]
    rfl

theorem deleteSchedule_effect {n : ℕ} (h : deleteSchedule k now s = .ok (n, t)) :
    Effect P s t := by
  obtain ⟨row, hrow, h₁⟩ := scheduleRow_bind.mp h
  cases h₁
  have hdeleted : Effect P s (s.without row.pk) := .deleted
  rw [← without_fence s row.pk now] at hdeleted
  exact hdeleted

/-! ## Deliveries -/

section Deliveries

variable {d row : RecipientDelivery} {key : Digest String} {token : Uuid} {answer : Bool}

theorem row_eq (hd : d ∈ s.deliveries.rows) (hrow : row ∈ s.deliveries.rows)
    (h : decide (d.pk = row.pk) = true) : d = row :=
  Table.eq_of_pk hd hrow (of_decide_eq_true h)

/-- A claim is refused, or takes a delivery that has not ended. -/
theorem claim_ok {leaseSeconds : ℤ} {a : Option Uuid}
    (h : claim key leaseSeconds now token s = .ok (a, t)) :
    a = none ∧ t = s ∨ a = some token ∧ Effect P s t ∧ ∃ d ∈ s.deliveries.rows,
      d.idempotencyKey = key ∧ d.status.isTerminal = false := by
  obtain ⟨row, -, hrow, hkey, h₁⟩ := deliveryOf_bind h
  split at h₁
  next => exact .inl (pure_ok.mp h₁)
  next hlive =>
    cases h₁
    have hlive : row.status.isTerminal = false := by
      simp only [not_or, Bool.not_eq_true] at hlive
      exact hlive.1
    refine .inr ⟨rfl, .delivered fun d hd hp => ?_, row, hrow, hkey, hlive⟩
    obtain rfl := row_eq hd hrow hp
    exact .claimed hlive rfl

theorem succeed_effects (h : succeed key token s = .ok (answer, t)) : Effects P s t := by
  obtain ⟨row, -, hrow, hkey, h₁⟩ := deliveryOf_bind h
  split at h₁
  next =>
    obtain ⟨-, rfl⟩ := pure_ok.mp h₁
    exact .refl
  next hheld =>
    cases h₁
    refine .single (.delivered fun d hd hp => ?_)
    obtain rfl := row_eq hd hrow hp
    simp only [RecipientDelivery.heldBy, Bool.not_eq_true', Bool.not_eq_false,
      decide_eq_true_eq] at hheld
    exact .succeeded hheld.1 rfl

theorem failed_step {retryAt : Instant} {e : String} (held : d.status = .inFlight)
    (permit : d.attempts < d.maxAttempts → P.retry s d) :
    DeliveryStep P s d { d.failed now retryAt with lastError := e } ∧
      DeliveryStep P s d (d.failed now retryAt) := by
  unfold RecipientDelivery.failed
  by_cases hspent : d.maxAttempts ≤ d.attempts
  · simp only [if_pos hspent]
    exact ⟨.failed held rfl, .failed held rfl⟩
  · simp only [if_neg hspent]
    exact ⟨.retried held (permit (by omega)) rfl, .retried held (permit (by omega)) rfl⟩

theorem fail_effects {errorClass : String}
    (permit : ∀ d ∈ s.deliveries.rows, d.idempotencyKey = key → d.heldBy token = true →
      d.attempts < d.maxAttempts → P.retry s d)
    (h : fail key token errorClass now s = .ok (answer, t)) : Effects P s t := by
  obtain ⟨row, -, hrow, hkey, h₁⟩ := deliveryOf_bind h
  split at h₁
  next =>
    obtain ⟨-, rfl⟩ := pure_ok.mp h₁
    exact .refl
  next hheld =>
    cases h₁
    have hheld : row.heldBy token = true := by simpa using hheld
    have hflight : row.status = .inFlight := by
      simp only [RecipientDelivery.heldBy, decide_eq_true_eq] at hheld
      exact hheld.1
    refine .single (.delivered fun d hd hp => ?_)
    obtain rfl := row_eq hd hrow hp
    exact (failed_step hflight (permit d hd hkey hheld)).1

theorem acknowledge_effects (h : acknowledge key now s = .ok (answer, t)) : Effects P s t := by
  obtain ⟨row, -, hrow, hkey, h₁⟩ := deliveryOf_bind h
  split at h₁
  next =>
    obtain ⟨-, rfl⟩ := pure_ok.mp h₁
    exact .refl
  next hdelivered =>
    cases h₁
    refine .single (.delivered fun d hd hp => ?_)
    obtain rfl := row_eq hd hrow hp
    exact .acknowledged (not_not.mp hdelivered) rfl

theorem replay_effects
    (permit : ∀ d ∈ s.deliveries.rows, d.idempotencyKey = key → d.status = .deadLetter →
      P.replay s d)
    (h : replay key now s = .ok (answer, t)) : Effects P s t := by
  obtain ⟨row, -, hrow, hkey, h₁⟩ := deliveryOf_bind h
  split at h₁
  next =>
    obtain ⟨-, rfl⟩ := pure_ok.mp h₁
    exact .refl
  next hdead =>
    cases h₁
    have hdead := not_not.mp hdead
    refine .single (.delivered fun d hd hp => ?_)
    obtain rfl := row_eq hd hrow hp
    exact .replayed hdead (permit d hd hkey hdead) rfl

theorem reapExpired_effect {n : ℕ}
    (permit : ∀ d ∈ s.deliveries.rows, d.expired now = true → d.attempts < d.maxAttempts →
      P.retry s d)
    (h : reapExpired now s = .ok (n, t)) : Effect P s t := by
  cases h
  refine .delivered fun d hd hp => ?_
  have hflight : d.status = .inFlight := by
    simp only [RecipientDelivery.expired, decide_eq_true_eq] at hp
    exact hp.1
  exact (failed_step (e := "") hflight (permit d hd hp)).2

end Deliveries

/-! ## The publisher -/

section Publisher

variable {o row : SchedulerOutbox} {outbox : ℕ} {token : Uuid} {generation : ℕ} {answer : Bool}

theorem outbox_eq (ho : o ∈ s.outbox.rows) (hrow : row ∈ s.outbox.rows)
    (h : decide (o.pk = row.pk) = true) : o = row :=
  Table.eq_of_pk ho hrow (of_decide_eq_true h)

/-- Without a claimable row nothing happens; a spent row is given up; any other row is claimed. -/
theorem claimOutbox_ok {leaseSeconds : ℤ} {owner : String} {c : Option OutboxClaim}
    (h : claimOutbox leaseSeconds owner now token s = .ok (c, t)) :
    s.outbox.rows.find? (·.claimable now) = none ∧ c = none ∧ t = s ∨
    ∃ row, s.outbox.rows.find? (·.claimable now) = some row ∧
      (s.policy.maxAttempts ≤ row.publishAttempts ∧ c = none ∧ (P.settle s row → Effect P s t) ∨
      (row.publishAttempts : ℤ) < s.policy.maxAttempts ∧ Effect P s t ∧ ∃ key,
        c = some ⟨row.pk, key, token, row.publisherGeneration + 1⟩ ∧
        t.outbox.get row.pk = some (row.withState fun o => { o.toOutboxState with
          publisherGeneration := row.publisherGeneration + 1
          publisherToken := some token
          publisherOwner := clip 120 owner
          publisherLeaseExpiresAt := some (now + seconds leaseSeconds)
          publishAttempts := row.publishAttempts + 1
          publisherState := .claimed
          publisherStateChangedAt := some now })) := by
  obtain ⟨_, _, ⟨⟩, h₁⟩ := bind_ok.mp h
  cases hfind : s.outbox.rows.find? (·.claimable now) with
  | none =>
    simp only [hfind] at h₁
    exact .inl ⟨rfl, pure_ok.mp h₁⟩
  | some row =>
    simp only [hfind] at h₁
    have hrow : row ∈ s.outbox.rows := List.mem_of_find?_eq_some hfind
    have hclaimable : row.claimable now = true := List.find?_some hfind
    refine .inr ⟨row, rfl, ?_⟩
    split at h₁
    next hspent =>
      cases h₁
      refine .inl ⟨hspent, rfl, fun hsettle => .posted fun o ho hp => ?_⟩
      obtain rfl := outbox_eq ho hrow hp
      exact .exhausted now hclaimable hspent hsettle
    next hspent =>
      obtain ⟨_, _, ⟨⟩, h₂⟩ := bind_ok.mp h₁
      cases hdelivery : s.deliveries.get row.delivery with
      | none =>
        simp only [hdelivery] at h₂
        cases h₂
      | some delivery =>
        simp only [hdelivery] at h₂
        obtain ⟨rfl, rfl⟩ := pure_ok.mp h₂
        refine .inr ⟨by omega, .posted fun o ho hp => ?_, delivery.idempotencyKey, rfl, ?_⟩
        · obtain rfl := outbox_eq ho hrow hp
          exact .claimed leaseSeconds owner now token hclaimable (by omega)
        · have hget : s.outbox.get row.pk = some row := Numbered.get_eq_some.mpr ⟨hrow, rfl⟩
          rw [Numbered.get_rewrite, hget]
          simp

theorem claimedBy_iff : o.claimedBy outbox token generation = true ↔ o.pk = outbox ∧
    o.isOpen = true ∧ o.publisherState = .claimed ∧ o.publisherToken = some token ∧
      o.publisherGeneration = generation := by
  simp [SchedulerOutbox.claimedBy]

theorem markOutboxPublished_effect
    (permit : ∀ o ∈ s.outbox.rows, o.claimedBy outbox token generation = true → P.settle s o)
    (h : markOutboxPublished outbox token generation now s = .ok (answer, t)) : Effect P s t := by
  cases h
  refine .posted fun o ho hp => ?_
  obtain ⟨-, hopen, hclaimed, -⟩ := claimedBy_iff.mp hp
  exact .published now hopen hclaimed (permit o ho hp)

theorem markOutboxFailed_effect {errorClass : String} {unknownHandoff : Bool}
    (permit : ∀ o ∈ s.outbox.rows, o.claimedBy outbox token generation = true →
      s.policy.maxAttempts ≤ o.publishAttempts → P.settle s o)
    (h : markOutboxFailed outbox token generation errorClass unknownHandoff now s =
      .ok (answer, t)) : Effect P s t := by
  cases h
  refine .posted fun o ho hp => ?_
  obtain ⟨-, hopen, hclaimed, -⟩ := claimedBy_iff.mp hp
  exact .failed errorClass unknownHandoff now hopen hclaimed (permit o ho hp)

theorem replayOutbox_effect (h : replayOutbox outbox now s = .ok (answer, t)) : Effect P s t := by
  cases h
  refine .posted fun o ho hp => ?_
  simp only [SchedulerOutbox.replayable, decide_eq_true_eq] at hp
  exact .replayed now hp.2.2 hp.2.1

end Publisher

/-! ## Admission -/

section Admission

variable {r : AdmissionRequest} {recipient : Recipient} {recipients : List Recipient}
  {d : RecipientDelivery} {created : Bool} {ds : List RecipientDelivery} {n : ℕ}

theorem deliveryFor_eq_some {schedule generation : ℕ} :
    s.deliveryFor schedule generation recipient = some d ↔ d ∈ s.deliveries.rows ∧
      d.schedule = schedule ∧ d.dispatchGeneration = generation ∧ d.recipient = recipient := by
  unfold Store.deliveryFor
  rw [Table.find?_eq_some (i := RecipientDelivery.uniqueRecipient)
    (by simp [RecipientDelivery.schema]) (schedule, generation, recipient)
    (by simp [RecipientDelivery.uniqueRecipient])]
  simp [RecipientDelivery.uniqueRecipient]

/-- The row of a recipient is found, or inserted together with its outbox row. -/
theorem materializeLocked_ok
    (h : materializeLocked r x.pk x.deliveryGeneration now recipient s = .ok ((d, created), t)) :
    s.deliveryFor x.pk x.deliveryGeneration recipient = some d ∧ created = false ∧ t = s ∨
    s.deliveryFor x.pk x.deliveryGeneration recipient = none ∧ created = true ∧
      Materialized x recipient s t ∧ t.deliveries.get d.pk = some d ∧ d.pk = s.deliveries.next ∧
      d.schedule = x.pk ∧ d.dispatchGeneration = x.deliveryGeneration ∧
        d.recipient = recipient := by
  obtain ⟨_, _, ⟨⟩, h₁⟩ := bind_ok.mp h
  cases hfind : s.deliveryFor x.pk x.deliveryGeneration recipient with
  | some delivery =>
    simp only [hfind] at h₁
    obtain ⟨hpair, rfl⟩ := pure_ok.mp h₁
    cases hpair
    exact .inl ⟨rfl, rfl, rfl⟩
  | none =>
    simp only [hfind] at h₁
    obtain ⟨delivery, m, hdelivery, h₂⟩ := bind_ok.mp h₁
    obtain ⟨outbox, m', houtbox, h₃⟩ := bind_ok.mp h₂
    obtain ⟨hpair, rfl⟩ := pure_ok.mp h₃
    cases hpair
    obtain ⟨rfl, T, hT, rfl⟩ := add_ok hdelivery
    obtain ⟨rfl, O, hO, rfl⟩ := add_ok houtbox
    refine .inr ⟨rfl, rfl, ⟨⟨_, fun _ => ⟨rfl, rfl, rfl, rfl, rfl, rfl⟩, hT⟩, ⟨now, hO⟩, rfl⟩, ?_,
      rfl, rfl, rfl, rfl⟩
    exact Numbered.get_inserted hT rfl

theorem Materialized.schedules (h : Materialized x recipient s t) : t.schedules = s.schedules := by
  rw [h.others]

theorem materializeAll_effects (enrol : P.enrol) (hx : s.schedules.get x.pk = some x)
    (admittable : x.deliveryAdmittable = true)
    (h : materializeAll r x.pk x.deliveryGeneration now recipients s = .ok ((ds, n), t)) :
    Effects P s t ∧ t.schedules = s.schedules := by
  induction recipients generalizing s ds n with
  | nil =>
    obtain ⟨-, rfl⟩ := pure_ok.mp h
    exact ⟨.refl, rfl⟩
  | cons recipient rest ih =>
    obtain ⟨⟨d, created⟩, m, hone, h₁⟩ := bind_ok.mp h
    obtain ⟨⟨ds', n'⟩, m', hrest, h₂⟩ := bind_ok.mp h₁
    obtain ⟨-, rfl⟩ := pure_ok.mp h₂
    obtain ⟨-, -, rfl⟩ | ⟨-, -, hmaterialized, -⟩ := materializeLocked_ok hone
    · exact ih hx hrest
    · have hsame := hmaterialized.schedules
      obtain ⟨heffects, hschedules⟩ := ih (hsame ▸ hx) hrest
      exact ⟨.head (.materialized enrol hx admittable hmaterialized) heffects,
        hschedules.trans hsame⟩

theorem marked_effect {generation : ℕ} {outcome : AdmissionOutcome} {v : Unit} (enrol : P.enrol)
    (hx : s.schedules.get x.pk = some x) (h : markAdmitted x.pk generation outcome s = .ok (v, t)) :
    Effect P s t := by
  cases h
  exact .marked enrol hx fun _ => ⟨rfl, rfl⟩

theorem admitScheduleGeneration_effects {a : Admission} (enrol : P.enrol)
    (h : admitScheduleGeneration r now s = .ok (a, t)) : Effects P s t := by
  obtain ⟨row, hfind, h₁⟩ := scheduleRow_bind.mp h
  have hrow : s.schedules.get row.pk = some row := by
    have hpk : row.pk = r.schedule := (Numbered.get_eq_some.mp hfind).2
    rwa [hpk]
  have hrefl : ∀ {a' : Admission}, (pure a' : Tx Admission) s = .ok (a, t) → Effects P s t :=
    fun hpure => (pure_ok.mp hpure).2 ▸ .refl
  split at h₁
  next => exact hrefl h₁
  next henroltable =>
    have henroltable : row.deliveryAdmittable = true := by simpa using henroltable
    split at h₁
    next => exact hrefl h₁
    next =>
      split at h₁
      next =>
        split at h₁
        next => exact hrefl h₁
        next =>
          obtain ⟨_, m, hmark, h₂⟩ := bind_ok.mp h₁
          obtain ⟨-, rfl⟩ := pure_ok.mp h₂
          exact .single (marked_effect enrol hrow hmark)
      next =>
        obtain ⟨⟨ds, n⟩, m, hall, h₂⟩ := bind_ok.mp h₁
        obtain ⟨heffects, hschedules⟩ := materializeAll_effects enrol hrow henroltable hall
        dsimp only at h₂
        split at h₂
        next =>
          obtain ⟨-, rfl⟩ := pure_ok.mp h₂
          exact heffects
        next =>
          obtain ⟨_, m', hmark, h₃⟩ := bind_ok.mp h₂
          obtain ⟨-, rfl⟩ := pure_ok.mp h₃
          exact heffects.tail (marked_effect enrol (hschedules ▸ hrow) hmark)

end Admission

/-! ## Operations -/

namespace Operation

def admits : Operation → Bool
  | admitScheduleGeneration .. => true
  | dispatchAlertSchedule .. => true
  | _ => false

/-- The deliveries that an operation replays. -/
def replays (d : RecipientDelivery) : Operation → Bool
  | replay key _ => d.idempotencyKey = key ∧ d.status = .deadLetter
  | _ => false

/-- The deliveries whose attempt an operation ends, and which have attempts left. -/
def retries (d : RecipientDelivery) : Operation → Bool
  | fail key leaseToken _ _ =>
    d.idempotencyKey = key ∧ d.heldBy leaseToken ∧ d.attempts < d.maxAttempts
  | reapExpired now => d.expired now ∧ d.attempts < d.maxAttempts
  | _ => false

/-- The outbox rows that an operation publishes or gives up. -/
def settles (s : Store) (o : SchedulerOutbox) : Operation → Bool
  | claimOutbox _ _ now _ =>
    s.outbox.rows.find? (·.claimable now) = some o ∧ s.policy.maxAttempts ≤ o.publishAttempts
  | markOutboxPublished outbox token generation _ => o.claimedBy outbox token generation
  | markOutboxFailed outbox token generation _ _ _ =>
    o.claimedBy outbox token generation ∧ s.policy.maxAttempts ≤ o.publishAttempts
  | _ => false

end Operation

theorem perform_effects {op : Operation} {v : Unit} (henrol : op.admits = true → P.enrol)
    (hreplay : ∀ d ∈ s.deliveries.rows, op.replays d = true → P.replay s d)
    (hretry : ∀ d ∈ s.deliveries.rows, op.retries d = true → P.retry s d)
    (hsettle : ∀ o ∈ s.outbox.rows, op.settles s o = true → P.settle s o)
    (h : op.perform s = .ok (v, t)) : Effects P s t := by
  cases op with
  | alertScheduleCreate r now =>
    obtain ⟨_, _, h₁, ⟨⟩⟩ := bind_ok.mp h
    exact .single (alertScheduleCreate_effect h₁)
  | alertScheduleModify schedule r now =>
    obtain ⟨_, _, h₁, ⟨⟩⟩ := bind_ok.mp h
    exact alertScheduleModify_effects h₁
  | fenceScheduleForModify schedule now =>
    obtain ⟨row, hrow, h₁⟩ := scheduleRow_bind.mp h
    obtain ⟨_, _, h₂, ⟨⟩⟩ := bind_ok.mp h₁
    obtain rfl : row.pk = schedule := (Numbered.get_eq_some.mp hrow).2
    exact .single (fenceScheduleForModify_effect hrow h₂)
  | admitScheduleGeneration r now =>
    obtain ⟨_, _, h₁, ⟨⟩⟩ := bind_ok.mp h
    exact admitScheduleGeneration_effects (henrol rfl) h₁
  | dispatchAlertSchedule schedule recipients now =>
    obtain ⟨_, _, h₁, ⟨⟩⟩ := bind_ok.mp h
    obtain ⟨row, -, h₂⟩ := scheduleRow_bind.mp h₁
    exact admitScheduleGeneration_effects (henrol rfl) h₂
  | claim key leaseSeconds now token =>
    obtain ⟨_, _, h₁, ⟨⟩⟩ := bind_ok.mp h
    obtain ⟨-, rfl⟩ | ⟨-, heffect, -⟩ := claim_ok h₁
    · exact .refl
    · exact .single heffect
  | succeed key leaseToken =>
    obtain ⟨_, _, h₁, ⟨⟩⟩ := bind_ok.mp h
    exact succeed_effects h₁
  | fail key leaseToken errorClass now =>
    obtain ⟨_, _, h₁, ⟨⟩⟩ := bind_ok.mp h
    exact fail_effects (fun d hd hkey hheld hleft =>
      hretry d hd (by simp [Operation.retries, hkey, hheld, hleft])) h₁
  | acknowledge key now =>
    obtain ⟨_, _, h₁, ⟨⟩⟩ := bind_ok.mp h
    exact acknowledge_effects h₁
  | replay key now =>
    obtain ⟨_, _, h₁, ⟨⟩⟩ := bind_ok.mp h
    exact replay_effects (fun d hd hkey hdead =>
      hreplay d hd (by simp [Operation.replays, hkey, hdead])) h₁
  | reapExpired now =>
    obtain ⟨_, _, h₁, ⟨⟩⟩ := bind_ok.mp h
    exact .single (reapExpired_effect (fun d hd hexpired hleft =>
      hretry d hd (by simp [Operation.retries, hexpired, hleft])) h₁)
  | cancelSchedule schedule now =>
    obtain ⟨_, _, h₁, ⟨⟩⟩ := bind_ok.mp h
    exact .single (cancelSchedule_effect h₁)
  | deleteSchedule schedule now =>
    obtain ⟨_, _, h₁, ⟨⟩⟩ := bind_ok.mp h
    exact .single (deleteSchedule_effect h₁)
  | rearmSchedule schedule now =>
    obtain ⟨_, _, h₁, ⟨⟩⟩ := bind_ok.mp h
    exact rearmSchedule_effects h₁
  | claimOutbox leaseSeconds owner now token =>
    obtain ⟨_, _, h₁, ⟨⟩⟩ := bind_ok.mp h
    obtain ⟨-, -, rfl⟩ | ⟨row, hfind, ⟨hspent, -, heffect⟩ | ⟨-, heffect, -⟩⟩ := claimOutbox_ok h₁
    · exact .refl
    · exact .single (heffect (hsettle row (List.mem_of_find?_eq_some hfind)
        (by simp [Operation.settles, hfind, hspent])))
    · exact .single heffect
  | markOutboxPublished outbox token generation now =>
    obtain ⟨_, _, h₁, ⟨⟩⟩ := bind_ok.mp h
    exact .single (markOutboxPublished_effect (fun o ho hclaimed => hsettle o ho hclaimed) h₁)
  | markOutboxFailed outbox token generation errorClass unknownHandoff now =>
    obtain ⟨_, _, h₁, ⟨⟩⟩ := bind_ok.mp h
    exact .single (markOutboxFailed_effect (fun o ho hclaimed hspent =>
      hsettle o ho (by simp [Operation.settles, hclaimed, hspent])) h₁)
  | replayOutbox outbox now =>
    obtain ⟨_, _, h₁, ⟨⟩⟩ := bind_ok.mp h
    exact .single (replayOutbox_effect h₁)

theorem perform_any {op : Operation} {v : Unit} (h : op.perform s = .ok (v, t)) : Effects {} s t :=
  perform_effects (fun _ => trivial) (fun _ _ _ => trivial) (fun _ _ _ => trivial)
    (fun _ _ _ => trivial) h

/-! ## Runs -/

section Runs

variable {op : Operation} {σ τ : State}

theorem step_store (h : system.step σ op = some τ) :
    τ.store = σ.store ∨ op.perform σ.store = .ok ((), τ.store) := by
  obtain rfl := Option.some.inj h
  cases hrun : op.perform σ.store with
  | error e => exact .inl (by simp [commit_of_error hrun])
  | ok p =>
    obtain ⟨v, m⟩ := p
    exact .inr (by simp [commit_of_ok hrun])

/-- What an operation keeps that meets the condition `C`, a run keeps. -/
theorem invariant_under {C : State → Operation → Prop} [∀ s op, Decidable (C s op)]
    {I : Store → Prop} (start : ∀ s : Store, s.Initial → I s)
    (keep : ∀ σ op t, C σ op → I σ.store → op.perform σ.store = .ok ((), t) → I t)
    (h : (system.under C).Reachable σ) : I σ.store := by
  refine h.invariant (I := fun s => I s.store) (fun s hs => start s.store hs.1)
    fun u op v _ hu hstep => ?_
  obtain ⟨hC, hstep⟩ := Machine.under_step.mp hstep
  obtain hsame | hrun := step_store hstep
  · exact hsame ▸ hu
  · exact keep u op v.store hC hu hrun

/-- What every effect keeps, all runs keep. -/
theorem invariant {I : Store → Prop} (start : ∀ s : Store, s.Initial → I s)
    (keep : ∀ s t, Effect {} s t → I s → I t) (h : system.Reachable σ) : I σ.store := by
  refine h.invariant (I := fun s => I s.store) (fun s hs => start s.store hs.1)
    fun u op v _ hu hstep => ?_
  obtain hsame | hrun := step_store hstep
  · exact hsame ▸ hu
  · exact (perform_any hrun).keeps keep hu

end Runs

end Civicos.Scheduler
