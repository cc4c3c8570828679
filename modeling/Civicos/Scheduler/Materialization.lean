import Civicos.Scheduler.Effects
import Civicos.Library.Text

/-!
# One admission

Every delivery belongs to a schedule that exists, in a generation that the schedule has reached.
Deliveries and outbox rows stand in pairs, in the same order.

The recipients of an admission are materialized one after the other: a recipient that has a row
keeps it, any other recipient gets a delivery and its outbox row.
-/
namespace Civicos.Scheduler

open Library Library.Transaction

structure Store.Paired (s : Store) : Prop where
  reached : ∀ d ∈ s.deliveries.rows, ∃ x, s.schedules.get d.schedule = some x ∧
    d.dispatchGeneration ≤ x.deliveryGeneration
  outbox : s.outbox.rows.map (·.delivery) = s.deliveries.rows.map (·.pk)

variable {P : Permits} {s t : Store} {d : RecipientDelivery} {x : AlertSchedule} {k : ℕ}

/-- Schedules may go on, and new ones come in. -/
theorem Store.Paired.reached_of {s t : Store} (hs : s.Paired)
    (h : ∀ k x, s.schedules.get k = some x → ∃ x', t.schedules.get k = some x' ∧
      x.deliveryGeneration ≤ x'.deliveryGeneration) (hd : d ∈ s.deliveries.rows) :
    ∃ x, t.schedules.get d.schedule = some x ∧ d.dispatchGeneration ≤ x.deliveryGeneration := by
  obtain ⟨x, hx, hle⟩ := hs.reached d hd
  obtain ⟨x', hx', hle'⟩ := h d.schedule x hx
  exact ⟨x', hx', hle.trans hle'⟩

theorem rewrite_reaches {f : AlertSchedule → AlertSchedule} {p : AlertSchedule → Bool}
    (hf : AlertSchedule.schema.Preserves f)
    (h : ∀ x ∈ s.schedules.rows, p x = true → x.deliveryGeneration ≤ (f x).deliveryGeneration)
    (hx : s.schedules.get k = some x) :
    ∃ x', (s.schedules.rewrite p f hf).get k = some x' ∧
      x.deliveryGeneration ≤ x'.deliveryGeneration := by
  refine ⟨_, by rw [Numbered.get_rewrite, hx]; rfl, ?_⟩
  dsimp only
  split
  next hp => exact h x (Numbered.get_eq_some.mp hx).1 hp
  next => exact Nat.le_refl _

theorem AlertSchedule.Superseded.reaches {x' : AlertSchedule} (h : x.Superseded x') :
    x.deliveryGeneration ≤ x'.deliveryGeneration := by
  obtain ⟨-, ⟨-, hsame⟩ | ⟨-, hnext⟩⟩ := h <;> omega

theorem identity_kept (c : Bool) (f : RecipientDelivery → DeliveryState) (d : RecipientDelivery) :
    (if c then d.withState f else d).pk = d.pk ∧
    (if c then d.withState f else d).schedule = d.schedule ∧
    (if c then d.withState f else d).dispatchGeneration = d.dispatchGeneration := by
  split <;> exact ⟨rfl, rfl, rfl⟩

theorem pks_rewrite {p : RecipientDelivery → Bool} {f : RecipientDelivery → DeliveryState} :
    (s.deliveries.rewrite p (.withState f) (RecipientDelivery.preserves f)).rows.map (·.pk) =
      s.deliveries.rows.map (·.pk) :=
  Numbered.map_rewrite (f := RecipientDelivery.withState f) fun _ => rfl

theorem deliveries_rewrite {p : SchedulerOutbox → Bool} {f : SchedulerOutbox → OutboxState} :
    (s.outbox.rewrite p (.withState f) (SchedulerOutbox.preserves f)).rows.map (·.delivery) =
      s.outbox.rows.map (·.delivery) :=
  Numbered.map_rewrite (f := SchedulerOutbox.withState f) fun _ => rfl

/-- Deliveries of other schedules keep their outbox rows. -/
theorem Store.Paired.keep_pairs (hs : s.Paired) (k : ℕ) :
    (s.without k).outbox.rows.map (·.delivery) = (s.without k).deliveries.rows.map (·.pk) := by
  have hdeliveries : (s.without k).deliveries.rows.map (·.pk) =
      (s.deliveries.rows.map (·.pk)).filter fun pk =>
        !s.deliveries.rows.any fun d => d.pk = pk ∧ d.schedule = k := by
    rw [List.filter_map]
    refine congrArg _ (List.filter_congr fun d hd => ?_)
    simp only [Function.comp]
    rw [Bool.eq_iff_iff]
    simp only [ne_eq, decide_eq_true_eq, Bool.not_eq_true', List.any_eq_false, not_and]
    constructor
    · intro hne e he hpk
      rwa [show e = d from Table.eq_of_pk he hd hpk]
    · intro h
      exact h d hd rfl
  rw [hdeliveries, ← hs.outbox, List.filter_map]
  rfl

theorem Effect.paired (h : Effect P s t) (hs : s.Paired) : t.Paired := by
  cases h with
  | scheduled h fresh =>
    refine ⟨fun d => hs.reached_of fun k x hx => ⟨x, ?_, Nat.le_refl _⟩, hs.outbox⟩
    have hne : s.schedules.next ≠ k := by
      rintro rfl
      rw [Numbered.get_next] at hx
      cases hx
    rw [Numbered.get_insert h (fresh _).1, if_neg hne, hx]
  | @rescheduled _ _ _ hf keeps =>
    exact ⟨fun d => hs.reached_of fun k x =>
      rewrite_reaches hf fun x _ _ => (keeps x).1.ge, hs.outbox⟩
  | @marked _ _ _ hf _ _ keeps =>
    exact ⟨fun d => hs.reached_of fun k x =>
      rewrite_reaches hf fun x _ _ => (keeps x).1.ge, hs.outbox⟩
  | @materialized x r _ _ _ hx _ h =>
    obtain ⟨build, hbuild, hinsert⟩ := h.deliveries
    obtain ⟨at_, hpost⟩ := h.outbox
    have hschedules : t.schedules = s.schedules := h.schedules
    obtain ⟨hpk, hschedule, hgeneration, -⟩ := hbuild s.deliveries.next
    have hrows := (Numbered.insert_ok hinsert hpk).1
    refine ⟨fun d hd => ?_, ?_⟩
    · rw [hrows, List.mem_append, List.mem_singleton] at hd
      rw [hschedules]
      obtain hd | rfl := hd
      · exact hs.reached d hd
      · exact ⟨x, by rw [hschedule, hx], hgeneration.le⟩
    · rw [hrows, (Numbered.insert_ok hpost rfl).1, List.map_append, List.map_append, hs.outbox]
      simp [hpk]
  | delivered =>
    refine ⟨fun d' hd' => ?_, hs.outbox.trans pks_rewrite.symm⟩
    obtain ⟨d, hd, rfl⟩ := List.mem_map.mp hd'
    split <;> exact hs.reached d hd
  | @fenced _ y f now hf hy h =>
    refine ⟨fun d' hd' => ?_, ?_⟩
    · have hreached : ∀ d ∈ s.deliveries.rows, ∃ x,
          (s.schedules.rewrite (·.pk = y.pk) f hf).get d.schedule = some x ∧
            d.dispatchGeneration ≤ x.deliveryGeneration := fun d =>
        hs.reached_of (t := { s with schedules := s.schedules.rewrite (·.pk = y.pk) f hf })
          fun k x => rewrite_reaches hf fun x hx hp => by
            obtain rfl : x = y := Table.eq_of_pk hx (Numbered.get_eq_some.mp hy).1
              (of_decide_eq_true hp)
            exact h.reaches
      obtain ⟨d, hd, rfl⟩ := List.mem_map.mp hd'
      split <;> exact hreached d hd
    · exact deliveries_rewrite.trans (hs.outbox.trans pks_rewrite.symm)
  | @deleted _ k =>
    refine ⟨fun d hd => ?_, hs.keep_pairs k⟩
    obtain ⟨hd, hne⟩ := List.mem_filter.mp hd
    obtain ⟨x, hx, hle⟩ := hs.reached d hd
    have hpk : x.pk = d.schedule := (Numbered.get_eq_some.mp hx).2
    refine ⟨x, Numbered.get_keep.trans (Option.filter_eq_some_iff.mpr ⟨hx, ?_⟩), hle⟩
    simpa [hpk] using hne
  | posted =>
    exact ⟨hs.reached, deliveries_rewrite.trans hs.outbox⟩

theorem Store.Initial.paired (h : s.Initial) : s.Paired := by
  constructor
  · intro d hd
    rw [h.deliveries] at hd
    cases hd
  · rw [h.deliveries, h.outbox]
    rfl

/-- A row that stands belongs to a delivery that has got its number. -/
theorem Store.Paired.earlier {o : SchedulerOutbox} (hs : s.Paired) (ho : o ∈ s.outbox.rows) :
    o.delivery < s.deliveries.next := by
  have hmem : o.delivery ∈ s.deliveries.rows.map (·.pk) := by
    rw [← hs.outbox]
    exact List.mem_map_of_mem ho
  obtain ⟨d, hd, hpk⟩ := List.mem_map.mp hmem
  exact hpk ▸ s.deliveries.used d hd

/-- The outbox row of a delivery. -/
theorem Store.Paired.posted (hs : s.Paired) (hd : d ∈ s.deliveries.rows) :
    ∃ o ∈ s.outbox.rows, o.delivery = d.pk := by
  have hmem : d.pk ∈ s.outbox.rows.map (·.delivery) := by
    rw [hs.outbox]
    exact List.mem_map_of_mem hd
  simpa using hmem

end Civicos.Scheduler

/-! ## Recipients, one after the other -/

namespace Civicos.Scheduler

open Library Library.Transaction
open Payments (Uuid Json Digest clip)
open Appointments (Instant)

def RecipientDelivery.target (d : RecipientDelivery) : Target :=
  ⟨d.schedule, d.dispatchGeneration, d.recipient⟩

namespace Target

def key (a : Target) : Digest String :=
  recipientIdempotencyKey a.schedule a.generation a.recipient

/-- The recipient fits its columns. -/
def fits (a : Target) : Bool := a.recipient.kind.length ≤ 30 ∧ a.recipient.ref.length ≤ 180

end Target

/-- The target can be inserted: no other delivery has its key. -/
def Store.accepts (s : Store) (a : Target) : Prop :=
  a.fits = true ∧ ∀ d ∈ s.deliveries.rows, d.idempotencyKey = a.key → d.target = a

instance (s : Store) (a : Target) : Decidable (s.accepts a) := inferInstanceAs (Decidable (_ ∧ _))

variable {P : Permits} {s t : Store} {x : AlertSchedule} {r : AdmissionRequest} {now : Instant}
  {recipient : Recipient} {recipients : List Recipient} {ds : List RecipientDelivery} {n : ℕ}
  {d : RecipientDelivery}

theorem mem_canonicalRecipients : recipient ∈ canonicalRecipients recipients ↔
    recipient ∈ recipients := by
  simp [canonicalRecipients]

theorem canonicalRecipients_eq_nil : canonicalRecipients recipients = [] ↔ recipients = [] := by
  simp only [List.eq_nil_iff_forall_not_mem, mem_canonicalRecipients]

theorem deliveryFor_eq_none : s.deliveryFor x.pk x.deliveryGeneration recipient = none ↔
    ∀ d ∈ s.deliveries.rows, d.target ≠ ⟨x.pk, x.deliveryGeneration, recipient⟩ := by
  simp [Store.deliveryFor, RecipientDelivery.target]

/-- What materializing the recipients has done so far. -/
structure Admits (x : AlertSchedule) (recipients : List Recipient) (n : ℕ) (s t : Store) :
    Prop where
  schedules : t.schedules = s.schedules
  deliveries : ∃ ds, t.deliveries.rows = s.deliveries.rows ++ ds ∧ ds.length = n ∧
    ∀ d ∈ ds, ∃ recipient ∈ recipients, d.target = ⟨x.pk, x.deliveryGeneration, recipient⟩
  outbox : t.outbox.rows.length = s.outbox.rows.length + n
  all : ∀ recipient ∈ recipients, ∃ d ∈ t.deliveries.rows,
    d.target = ⟨x.pk, x.deliveryGeneration, recipient⟩

theorem Materialized.admits (h : Materialized x recipient s t) : Admits x [recipient] 1 s t := by
  obtain ⟨build, hbuild, hinsert⟩ := h.deliveries
  obtain ⟨at_, hpost⟩ := h.outbox
  obtain ⟨hpk, hschedule, hgeneration, hrecipient, -⟩ := hbuild s.deliveries.next
  have hrows := (Numbered.insert_ok hinsert hpk).1
  have htarget : (build s.deliveries.next).target = ⟨x.pk, x.deliveryGeneration, recipient⟩ := by
    simp [RecipientDelivery.target, hschedule, hgeneration, hrecipient]
  constructor
  · exact h.schedules
  · refine ⟨[build s.deliveries.next], hrows, rfl, ?_⟩
    simp [htarget]
  · rw [(Numbered.insert_ok hpost rfl).1]
    simp
  · intro recipient' h'
    obtain rfl := List.mem_singleton.mp h'
    exact ⟨build s.deliveries.next, by rw [hrows]; simp, htarget⟩

theorem Admits.nil (x : AlertSchedule) (s : Store) : Admits x [] 0 s s :=
  ⟨rfl, ⟨[], by simp⟩, rfl, by simp⟩

theorem Admits.append {u : Store} {rs rs' : List Recipient} {m : ℕ} (h : Admits x rs n s t)
    (g : Admits x rs' m t u) : Admits x (rs ++ rs') (n + m) s u := by
  obtain ⟨ds, hrows, hlength, hnew⟩ := h.deliveries
  obtain ⟨ds', hrows', hlength', hnew'⟩ := g.deliveries
  constructor
  · exact g.schedules.trans h.schedules
  · refine ⟨ds ++ ds', by rw [hrows', hrows, List.append_assoc], by simp [hlength, hlength'], ?_⟩
    intro d hd
    obtain hd | hd := List.mem_append.mp hd
    · obtain ⟨recipient, hmem, htarget⟩ := hnew d hd
      exact ⟨recipient, List.mem_append_left _ hmem, htarget⟩
    · obtain ⟨recipient, hmem, htarget⟩ := hnew' d hd
      exact ⟨recipient, List.mem_append_right _ hmem, htarget⟩
  · rw [g.outbox, h.outbox, Nat.add_assoc]
  · intro recipient hmem
    obtain hmem | hmem := List.mem_append.mp hmem
    · obtain ⟨d, hd, htarget⟩ := h.all recipient hmem
      exact ⟨d, by rw [hrows']; exact List.mem_append_left _ hd, htarget⟩
    · exact g.all recipient hmem

theorem materializeAll_admits
    (h : materializeAll r x.pk x.deliveryGeneration now recipients s = .ok ((ds, n), t)) :
    Admits x recipients n s t ∧ (n = 0 → t = s) := by
  induction recipients generalizing s ds n with
  | nil =>
    obtain ⟨hpair, rfl⟩ := pure_ok.mp h
    cases hpair
    exact ⟨.nil x t, fun _ => rfl⟩
  | cons recipient rest ih =>
    obtain ⟨⟨d, created⟩, m, hone, h₁⟩ := bind_ok.mp h
    obtain ⟨⟨ds', n'⟩, m', hrest, h₂⟩ := bind_ok.mp h₁
    obtain ⟨hpair, rfl⟩ := pure_ok.mp h₂
    cases hpair
    obtain ⟨hadmits, hnone⟩ := ih hrest
    obtain ⟨hfind, rfl, rfl⟩ | ⟨-, rfl, hmaterialized, -⟩ := materializeLocked_ok hone
    · refine ⟨⟨hadmits.schedules, ?_, ?_, ?_⟩, fun hn => hnone (by simpa using hn)⟩
      · obtain ⟨ds, hrows, hlength, hnew⟩ := hadmits.deliveries
        refine ⟨ds, hrows, by simpa using hlength, fun d hd => ?_⟩
        obtain ⟨recipient', hmem, htarget⟩ := hnew d hd
        exact ⟨recipient', List.mem_cons_of_mem _ hmem, htarget⟩
      · simpa using hadmits.outbox
      · intro recipient' hmem
        obtain rfl | hmem := List.mem_cons.mp hmem
        · obtain ⟨hd, hschedule, hgeneration, hrecipient⟩ := deliveryFor_eq_some.mp hfind
          obtain ⟨ds, hrows, -⟩ := hadmits.deliveries
          refine ⟨d, by rw [hrows]; exact List.mem_append_left _ hd, ?_⟩
          simp [RecipientDelivery.target, hschedule, hgeneration, hrecipient]
        · exact hadmits.all recipient' hmem
    · exact ⟨hmaterialized.admits.append hadmits, fun hn => by simp at hn⟩

/-! ## The outcome -/

theorem AlertSchedule.preserves_marked (generation : ℕ) (outcome : AdmissionOutcome) :
    AlertSchedule.schema.Preserves fun x => { x with
      admittedGeneration := some generation
      admissionOutcome := some outcome } := AlertSchedule.preserves fun _ => rfl

/-- The store after `markAdmitted`. -/
def Store.marked (s : Store) (schedule generation : ℕ) (outcome : AdmissionOutcome) : Store :=
  { s with schedules := s.schedules.rewrite (·.pk = schedule) (fun x => { x with
      admittedGeneration := some generation
      admissionOutcome := some outcome }) (AlertSchedule.preserves_marked generation outcome) }

/-- The generation that an admission expects may be admitted. -/
def AlertSchedule.opens (x : AlertSchedule) (expected : ℤ) : Prop :=
  x.deliveryAdmittable = true ∧ expected = x.deliveryGeneration

/-- The three ways in which an admission to the schedule `x` ends. -/
inductive AdmissionStep (r : AdmissionRequest) (x : AlertSchedule) (s : Store) :
    Admission → Store → Prop
  | refused {a} (closed : ¬ x.opens r.expectedGeneration) (outcome : a.outcome ≠ .created)
      (created : a.created = 0) : AdmissionStep r x s a s
  | duplicate {a} (opens : x.opens r.expectedGeneration)
      (marked : x.admittedGeneration = some x.deliveryGeneration)
      (all : ∀ recipient ∈ r.recipients, ∃ d ∈ s.deliveries.rows,
        d.target = ⟨x.pk, x.deliveryGeneration, recipient⟩)
      (outcome : a.outcome ≠ .created) (created : a.created = 0) : AdmissionStep r x s a s
  | admitted {a m} (opens : x.opens r.expectedGeneration)
      (admits : Admits x (canonicalRecipients r.recipients) a.created s m)
      (outcome : a.outcome = .zeroRecipients ∧ r.recipients = [] ∧ a.created = 0 ∨
        a.outcome = .created ∧ r.recipients ≠ [] ∧
          (a.created = 0 → x.admittedGeneration ≠ some x.deliveryGeneration ∧ m = s)) :
      AdmissionStep r x s a (m.marked x.pk x.deliveryGeneration a.outcome)

theorem admitScheduleGeneration_step {a : Admission}
    (h : admitScheduleGeneration r now s = .ok (a, t)) :
    ∃ x, s.schedules.get r.schedule = some x ∧ AdmissionStep r x s a t := by
  obtain ⟨x, hx, h₁⟩ := scheduleRow_bind.mp h
  refine ⟨x, hx, ?_⟩
  split at h₁
  next hclosed =>
    obtain ⟨rfl, rfl⟩ := pure_ok.mp h₁
    refine .refused (fun hopens => ?_) AdmissionOutcome.noConfusion rfl
    simp [hopens.1] at hclosed
  next hadmittable =>
    split at h₁
    next hstale =>
      obtain ⟨rfl, rfl⟩ := pure_ok.mp h₁
      exact .refused (fun hopens => hstale hopens.2) AdmissionOutcome.noConfusion rfl
    next hcurrent =>
      have hopens : x.opens r.expectedGeneration :=
        ⟨by simpa using hadmittable, not_not.mp hcurrent⟩
      split at h₁
      next hempty =>
        split at h₁
        next hmarked =>
          obtain ⟨rfl, rfl⟩ := pure_ok.mp h₁
          refine .duplicate hopens hmarked ?_ AdmissionOutcome.noConfusion rfl
          simp [canonicalRecipients_eq_nil.mp hempty]
        next =>
          obtain ⟨_, m, hmark, h₂⟩ := bind_ok.mp h₁
          obtain ⟨rfl, rfl⟩ := pure_ok.mp h₂
          cases hmark
          refine .admitted hopens ?_ (.inl ⟨rfl, canonicalRecipients_eq_nil.mp hempty, rfl⟩)
          rw [hempty]
          exact .nil x s
      next hsome =>
        obtain ⟨⟨ds, n⟩, m, hall, h₂⟩ := bind_ok.mp h₁
        obtain ⟨hadmits, hnone⟩ := materializeAll_admits hall
        dsimp only at h₂
        split at h₂
        next hdone =>
          obtain ⟨hmarked, rfl⟩ := hdone
          obtain ⟨rfl, rfl⟩ := pure_ok.mp h₂
          obtain rfl := hnone rfl
          exact .duplicate hopens hmarked (fun recipient hmem =>
            hadmits.all recipient (mem_canonicalRecipients.mpr hmem))
            AdmissionOutcome.noConfusion rfl
        next hfresh =>
          obtain ⟨_, m', hmark, h₃⟩ := bind_ok.mp h₂
          obtain ⟨rfl, rfl⟩ := pure_ok.mp h₃
          cases hmark
          refine .admitted hopens hadmits (.inr ⟨rfl, fun hnil => hsome ?_, fun hn => ?_⟩)
          · exact canonicalRecipients_eq_nil.mpr hnil
          · exact ⟨fun hmarked => hfresh ⟨hmarked, hn⟩, hnone hn⟩

/-! ## Success -/

theorem add_of_insert {α : Type} {S : Schema α} {ℓ : Lens Store (Numbered S)} {build : ℕ → α}
    {T : Numbered S} (h : (ℓ.get s).insert build = .ok T) :
    add ℓ build s = .ok (build (ℓ.get s).next, ℓ.set T s) := by
  simp only [add, h]

theorem delivery_inserted (r : AdmissionRequest) (now : Instant)
    (h : s.accepts ⟨x.pk, x.deliveryGeneration, recipient⟩)
    (hnone : s.deliveryFor x.pk x.deliveryGeneration recipient = none) :
    ∃ T, s.deliveries.insert (newDelivery r x.pk x.deliveryGeneration recipient now) = .ok T := by
  refine (Numbered.insert_returns rfl).mpr ⟨fun c hc => ?_, fun d hd i hi hclash => ?_⟩
  · have hfits := h.1
    simp only [Target.fits, decide_eq_true_eq] at hfits
    simp only [RecipientDelivery.schema, List.mem_cons, List.not_mem_nil, or_false] at hc
    obtain rfl | rfl | rfl | rfl := hc
    · simpa [Check.width, newDelivery] using hfits.1
    · simpa [Check.width, newDelivery] using hfits.2
    · simpa [Check.width, newDelivery] using Payments.length_clip_le _ _
    · simpa [Check.width, newDelivery] using Payments.length_clip_le _ _
  · have hother := deliveryFor_eq_none.mp hnone d hd
    simp only [RecipientDelivery.schema, List.mem_cons, List.not_mem_nil, or_false] at hi
    obtain rfl | rfl := hi
    · exact hother (h.2 d hd (Option.some.inj hclash.2))
    · have hkey := Option.some.inj hclash.2
      simp only [newDelivery, Prod.mk.injEq] at hkey
      exact hother (by simp [RecipientDelivery.target, hkey])

theorem outbox_inserted (now : Instant) (hs : s.Paired) :
    ∃ O, s.outbox.insert (fun pk => { pk, delivery := s.deliveries.next, availableAt := now }) =
      .ok O := by
  refine (Numbered.insert_returns rfl).mpr ⟨fun c hc => ?_, fun o ho i hi hclash => ?_⟩
  · simp [SchedulerOutbox.schema] at hc
  · simp only [SchedulerOutbox.schema, List.mem_singleton] at hi
    subst hi
    have hsame : o.delivery = s.deliveries.next := Option.some.inj hclash.2
    have := hs.earlier ho
    omega

/-- A recipient without a row is inserted if the store accepts it. -/
theorem materializeLocked_returns (r : AdmissionRequest) (now : Instant) (hs : s.Paired)
    (h : s.accepts ⟨x.pk, x.deliveryGeneration, recipient⟩) :
    Returns (materializeLocked r x.pk x.deliveryGeneration now recipient) s := by
  refine (returns_bind_of_ok rfl).mpr ?_
  cases hfind : s.deliveryFor x.pk x.deliveryGeneration recipient with
  | some delivery => exact returns_pure
  | none =>
    obtain ⟨T, hT⟩ := delivery_inserted r now h hfind
    obtain ⟨O, hO⟩ := outbox_inserted now hs
    refine (returns_bind_of_ok (add_of_insert (ℓ := Store.deliveryTable) hT)).mpr ?_
    have hposted := add_of_insert (ℓ := Store.outboxTable) (s := { s with deliveries := T }) hO
    exact (returns_bind_of_ok hposted).mpr returns_pure

/-- Recipients with different keys are all materialized. -/
theorem materializeAll_returns (r : AdmissionRequest) (now : Instant)
    (hx : s.schedules.get x.pk = some x)
    (admittable : x.deliveryAdmittable = true) (hs : s.Paired)
    (h : ∀ recipient ∈ recipients, s.accepts ⟨x.pk, x.deliveryGeneration, recipient⟩)
    (hkeys : ∀ a ∈ recipients, ∀ b ∈ recipients,
      recipientIdempotencyKey x.pk x.deliveryGeneration a =
        recipientIdempotencyKey x.pk x.deliveryGeneration b → a = b) :
    Returns (materializeAll r x.pk x.deliveryGeneration now recipients) s := by
  induction recipients generalizing s with
  | nil => exact returns_pure
  | cons recipient rest ih =>
    obtain ⟨⟨⟨d, created⟩, m⟩, hone⟩ := materializeLocked_returns r now hs
      (h recipient List.mem_cons_self)
    have hrest : Returns (materializeAll r x.pk x.deliveryGeneration now rest) m := by
      obtain ⟨-, -, rfl⟩ | ⟨-, -, hmaterialized, -⟩ := materializeLocked_ok hone
      · exact ih hx hs (fun a ha => h a (List.mem_cons_of_mem _ ha))
          fun a ha b hb => hkeys a (List.mem_cons_of_mem _ ha) b (List.mem_cons_of_mem _ hb)
      · have heffect : Effect {} s m := .materialized trivial hx admittable hmaterialized
        refine ih (hmaterialized.schedules ▸ hx) (heffect.paired hs) (fun a ha => ?_)
          fun a ha b hb => hkeys a (List.mem_cons_of_mem _ ha) b (List.mem_cons_of_mem _ hb)
        have haccepts := h a (List.mem_cons_of_mem _ ha)
        refine ⟨haccepts.1, fun e he hkey => ?_⟩
        obtain ⟨build, hbuild, hinsert⟩ := hmaterialized.deliveries
        obtain ⟨hpk, hschedule, hgeneration, hrecipient, hnewKey, -⟩ := hbuild s.deliveries.next
        rw [(Numbered.insert_ok hinsert hpk).1, List.mem_append, List.mem_singleton] at he
        obtain he | rfl := he
        · exact haccepts.2 e he hkey
        -- The row that has just been inserted has another key than all that follow.
        · obtain rfl : recipient = a := hkeys recipient List.mem_cons_self a
            (List.mem_cons_of_mem _ ha) (hnewKey.symm.trans hkey)
          simp [RecipientDelivery.target, hschedule, hgeneration, hrecipient]
    obtain ⟨⟨⟨ds, n⟩, t⟩, ht⟩ := hrest
    exact ⟨_, (bind_of_ok hone).trans ((bind_of_ok ht).trans rfl)⟩

/-- An admission returns if the schedule exists and all recipients can be materialized. -/
theorem admitScheduleGeneration_returns (now : Instant)
    (hx : s.schedules.get r.schedule = some x) (hs : s.Paired)
    (h : x.opens r.expectedGeneration → ∀ recipient ∈ r.recipients,
      s.accepts ⟨x.pk, x.deliveryGeneration, recipient⟩)
    (hkeys : x.opens r.expectedGeneration → ∀ a ∈ r.recipients, ∀ b ∈ r.recipients,
      recipientIdempotencyKey x.pk x.deliveryGeneration a =
        recipientIdempotencyKey x.pk x.deliveryGeneration b → a = b) :
    Returns (admitScheduleGeneration r now) s := by
  have hself : s.schedules.get x.pk = some x :=
    Numbered.get_eq_some.mpr ⟨(Numbered.get_eq_some.mp hx).1, rfl⟩
  have hrow : scheduleRow r.schedule s = .ok (x, s) := by
    simp only [scheduleRow, hx]
  refine (returns_bind_of_ok hrow).mpr ?_
  dsimp only
  split
  next => exact returns_pure
  next hadmittable =>
    split
    next => exact returns_pure
    next hcurrent =>
      have hopens : x.opens r.expectedGeneration :=
        ⟨by simpa using hadmittable, not_not.mp hcurrent⟩
      split
      next =>
        split
        next => exact returns_pure
        next => exact (returns_bind_of_ok rfl).mpr returns_pure
      next =>
        have hall : ∀ a ∈ canonicalRecipients r.recipients,
            s.accepts ⟨x.pk, x.deliveryGeneration, a⟩ := fun a ha =>
          h hopens a (mem_canonicalRecipients.mp ha)
        obtain ⟨⟨⟨ds, n⟩, t⟩, ht⟩ := materializeAll_returns r now hself hopens.1 hs hall
          fun a ha b hb => hkeys hopens a (mem_canonicalRecipients.mp ha) b
            (mem_canonicalRecipients.mp hb)
        refine (returns_bind_of_ok ht).mpr ?_
        dsimp only
        split
        next => exact returns_pure
        next => exact (returns_bind_of_ok rfl).mpr returns_pure

end Civicos.Scheduler
