import Civicos.Scheduler.Effects

/-!
# The publisher's outbox is fenced

Claims of an outbox row are numbered. Only the holder of the last claim may report an outcome, and
a row that is published or cancelled stays so.
-/
namespace Civicos.Scheduler

open Library Library.Transaction
open Payments (Uuid Json Digest clip)
open Appointments (Instant)

namespace SchedulerOutbox

/-- The columns of a row agree with its state. -/
structure Sound (p : PublisherPolicy) (o : SchedulerOutbox) : Prop where
  token : o.publisherState = .claimed ↔ o.publisherToken.isSome = true
  lease : o.publisherState = .claimed ↔ o.publisherLeaseExpiresAt.isSome = true
  published : o.publisherState = .published ↔ o.publishedAt.isSome = true
  cancelled : o.publisherState = .cancelled ↔ o.cancelledAt.isSome = true
  attempts : (o.publishAttempts : ℤ) ≤ max 0 p.maxAttempts

/-- What may happen to a row in the long run. -/
structure Onward (o o' : SchedulerOutbox) : Prop where
  generation : o.publisherGeneration ≤ o'.publisherGeneration
  published : o.publisherState = .published → o'.publisherState = .published
  cancelled : o.publisherState = .cancelled → o'.publisherState = .cancelled

theorem Onward.refl (o : SchedulerOutbox) : o.Onward o := ⟨Nat.le_refl _, id, id⟩

theorem Onward.trans {a b c : SchedulerOutbox} (h : a.Onward b) (g : b.Onward c) : a.Onward c :=
  ⟨h.generation.trans g.generation, g.published ∘ h.published, g.cancelled ∘ h.cancelled⟩

end SchedulerOutbox

variable {P : Permits} {s t : Store} {o o' : SchedulerOutbox} {new : OutboxState} {k : ℕ}
  {now : Instant}

theorem isOpen_iff : o.isOpen = true ↔ o.publishedAt = none ∧ o.cancelledAt = none := by
  simp [SchedulerOutbox.isOpen]

/-- An open row is neither published nor cancelled. -/
theorem SchedulerOutbox.Sound.live {p : PublisherPolicy} (h : o.Sound p) (hopen : o.isOpen = true) :
    o.publisherState ≠ .published ∧ o.publisherState ≠ .cancelled := by
  obtain ⟨hpublished, hcancelled⟩ := isOpen_iff.mp hopen
  exact ⟨fun hstate => by simpa [hpublished] using h.published.mp hstate,
    fun hstate => by simpa [hcancelled] using h.cancelled.mp hstate⟩

theorem claimable_open (h : o.claimable now = true) : o.isOpen = true := by
  simp only [SchedulerOutbox.claimable, decide_eq_true_eq] at h
  exact h.1

theorem OutboxStep.isOpen (h : OutboxStep P s o new) : o.isOpen = true := by
  cases h with
  | exhausted now h => exact claimable_open h
  | claimed _ _ _ _ h => exact claimable_open h
  | published _ isOpen => exact isOpen
  | failed _ _ _ isOpen => exact isOpen
  | replayed _ isOpen => exact isOpen

theorem OutboxStep.sound (h : OutboxStep P s o new) (ho : o.Sound s.policy) :
    (o.withState fun _ => new).Sound s.policy := by
  obtain ⟨hpublished, hcancelled⟩ := isOpen_iff.mp h.isOpen
  have hattempts := ho.attempts
  cases h with
  | exhausted =>
    constructor <;>
      simp [SchedulerOutbox.withState, OutboxState.withoutLease, hpublished, hcancelled, hattempts]
  | claimed _ _ _ _ _ left =>
    constructor <;>
      simp [SchedulerOutbox.withState, hpublished, hcancelled]
    omega
  | published =>
    constructor <;>
      simp [SchedulerOutbox.withState, OutboxState.withoutLease, hcancelled, hattempts]
  | failed errorClass unknownHandoff =>
    unfold SchedulerOutbox.failed
    split <;> cases unknownHandoff <;> constructor <;>
      simp [SchedulerOutbox.withState, OutboxState.withoutLease, hpublished, hcancelled, hattempts]
  | replayed =>
    constructor <;>
      simp [SchedulerOutbox.withState, OutboxState.withoutLease, hpublished, hcancelled]

theorem OutboxStep.onward (h : OutboxStep P s o new) (ho : o.Sound s.policy) :
    o.Onward (o.withState fun _ => new) := by
  obtain ⟨hpublished, hcancelled⟩ := ho.live h.isOpen
  refine ⟨?_, fun hstate => absurd hstate hpublished, fun hstate => absurd hstate hcancelled⟩
  cases h with
  | claimed => exact Nat.le_succ _
  | failed =>
    unfold SchedulerOutbox.failed
    split <;> exact Nat.le_refl _
  | _ => exact Nat.le_refl _

/-! ## Effects -/

def Store.OutboxSound (s : Store) : Prop := ∀ o ∈ s.outbox.rows, o.Sound s.policy

/-- Rows of `t` that `s` has had before have gone on from where they were. -/
structure Store.Follows (s t : Store) : Prop where
  next : s.outbox.next ≤ t.outbox.next
  rows : ∀ k < s.outbox.next, ∀ o', t.outbox.get k = some o' →
    ∃ o, s.outbox.get k = some o ∧ o.Onward o'

theorem Store.Follows.of_eq (h : t.outbox = s.outbox) : s.Follows t := by
  constructor
  · rw [h]
  · intro k _ o' ho'
    exact ⟨o', h ▸ ho', .refl o'⟩

theorem Store.Follows.trans {u : Store} (h : s.Follows t) (g : t.Follows u) : s.Follows u where
  next := h.next.trans g.next
  rows k hk o'' ho'' := by
    obtain ⟨o', ho', honward'⟩ := g.rows k (hk.trans_le h.next) o'' ho''
    obtain ⟨o, ho, honward⟩ := h.rows k hk o' ho'
    exact ⟨o, ho, honward.trans honward'⟩

/-- A row whose new state differs from the old one in a way that `OutboxStep` allows, or that is
fenced. -/
theorem follows_rewrite {p : SchedulerOutbox → Bool} {f : SchedulerOutbox → OutboxState}
    (hrows : t.outbox = s.outbox.rewrite p (.withState f) (SchedulerOutbox.preserves f))
    (steps : ∀ o ∈ s.outbox.rows, p o = true → o.Onward (o.withState f)) : s.Follows t := by
  constructor
  · rw [hrows]
    rfl
  · intro k _ o' ho'
    rw [hrows, Numbered.get_rewrite, Option.map_eq_some_iff] at ho'
    obtain ⟨o, ho, rfl⟩ := ho'
    refine ⟨o, ho, ?_⟩
    split
    next hp => exact steps o (Table.mem_of_get ho) hp
    next => exact .refl o

theorem fenced_open {ds : List RecipientDelivery} (h : o.fencedBy ds k = true) :
    o.isOpen = true := by
  simp only [SchedulerOutbox.fencedBy, decide_eq_true_eq] at h
  exact isOpen_iff.mpr h.2

theorem Effect.outbox (h : Effect P s t) (hs : s.OutboxSound) : t.OutboxSound ∧ s.Follows t := by
  have hsame : t.outbox = s.outbox → t.policy = s.policy → t.OutboxSound ∧ s.Follows t := by
    intro houtbox hpolicy
    refine ⟨fun o ho => ?_, .of_eq houtbox⟩
    rw [hpolicy]
    exact hs o (houtbox ▸ ho)
  cases h with
  | materialized _ _ _ h =>
    obtain ⟨at_, hinsert⟩ := h.outbox
    have hpolicy : t.policy = s.policy := by rw [h.others]
    obtain ⟨hrows, hnext, -⟩ := Numbered.insert_ok hinsert rfl
    refine ⟨fun o ho => ?_, ⟨by omega, fun k hk o' ho' => ?_⟩⟩
    · rw [hpolicy]
      rw [hrows, List.mem_append, List.mem_singleton] at ho
      obtain ho | rfl := ho
      · exact hs o ho
      · constructor <;> simp
    · rw [Numbered.get_insert hinsert rfl, if_neg (by omega)] at ho'
      exact ⟨o', ho', .refl o'⟩
  | posted steps =>
    refine ⟨fun o' ho' => ?_, follows_rewrite rfl fun o ho hp => (steps o ho hp).onward (hs o ho)⟩
    obtain ⟨o, ho, rfl⟩ := List.mem_map.mp ho'
    split
    next hp => exact (steps o ho hp).sound (hs o ho)
    next => exact hs o ho
  | fenced =>
    refine ⟨fun o' ho' => ?_, follows_rewrite rfl fun o ho hp => ?_⟩
    · obtain ⟨o, ho, rfl⟩ := List.mem_map.mp ho'
      split
      next hp =>
        obtain ⟨hpublished, -⟩ := isOpen_iff.mp (fenced_open hp)
        refine ⟨?_, ?_, ?_, ?_, (hs o ho).attempts⟩ <;>
          simp [SchedulerOutbox.withState, hpublished]
      next => exact hs o ho
    · have hlive := (hs o ho).live (fenced_open hp)
      exact ⟨Nat.le_refl _, fun hstate => absurd hstate hlive.1, fun _ => rfl⟩
  | deleted =>
    refine ⟨fun o ho => hs o (List.mem_filter.mp ho).1, ⟨Nat.le_refl _, fun k _ o' ho' => ?_⟩⟩
    have hget := Numbered.get_keep (t := s.outbox) (k := k) ▸ ho'
    exact ⟨o', (Option.filter_eq_some_iff.mp hget).1, .refl o'⟩
  | _ => exact hsame rfl rfl

/-! ## Runs -/

variable {σ τ : State} {op : Operation} {outbox generation : ℕ} {token : Uuid}

theorem reachable_outboxSound (h : system.Reachable σ) : σ.store.OutboxSound := by
  refine invariant (fun s hs o ho => ?_) (fun _ _ heffect hs => (heffect.outbox hs).1) h
  rw [hs.outbox] at ho
  cases ho

theorem step_follows (hs : σ.store.OutboxSound) (h : system.step σ op = some τ) :
    τ.store.OutboxSound ∧ σ.store.Follows τ.store := by
  obtain hsame | hrun := step_store h
  · rw [hsame]
    exact ⟨hs, .of_eq rfl⟩
  · refine (perform_any hrun).keeps (I := fun m => m.OutboxSound ∧ σ.store.Follows m)
      (fun _ _ heffect hm => ?_) ⟨hs, .of_eq rfl⟩
    obtain ⟨hsound, hfollows⟩ := heffect.outbox hm.1
    exact ⟨hsound, hm.2.trans hfollows⟩

theorem later_follows (hs : σ.store.OutboxSound) (h : system.Later σ τ) :
    σ.store.Follows τ.store :=
  (h.induct (I := fun v => v.store.OutboxSound ∧ σ.store.Follows v.store) ⟨hs, .of_eq rfl⟩
    fun _ _ _ _ hu hstep => ⟨(step_follows hu.1 hstep).1, hu.2.trans (step_follows hu.1 hstep).2⟩).2

/-- Only the token and the number of the last claim are accepted. -/
theorem refused (h : ∀ o ∈ s.outbox.rows, o.claimedBy outbox token generation = false)
    (errorClass : String) (unknownHandoff : Bool) :
    markOutboxPublished outbox token generation now s = .ok (false, s) ∧
      markOutboxFailed outbox token generation errorClass unknownHandoff now s = .ok
        (false, s) := by
  have hnone : s.outbox.rows.any (·.claimedBy outbox token generation) = false := by
    simpa using h
  constructor
  · change Except.ok (s.outbox.rows.any _, { s with outbox := s.outbox.rewrite _ _ _ }) = _
    rw [hnone, Numbered.rewrite_of_none h]
  · change Except.ok (s.outbox.rows.any _, { s with outbox := s.outbox.rewrite _ _ _ }) = _
    rw [hnone, Numbered.rewrite_of_none h]

/-- In every reachable state an outbox row has been published at most as often as the settings
allow, and it is claimed exactly if it has a token, and exactly if it has a lease. In all that
follows the claims of a row are numbered upwards, a published or cancelled row stays so, and a
report that does not carry the token and number of the current claim is refused. -/
theorem outbox_fenced (h : system.Reachable σ) :
    (∀ o ∈ σ.store.outbox.rows, (o.publishAttempts : ℤ) ≤ max 0 σ.store.policy.maxAttempts ∧
      (o.publisherState = .claimed ↔ o.publisherToken.isSome = true) ∧
      (o.publisherState = .claimed ↔ o.publisherLeaseExpiresAt.isSome = true)) ∧
    (∀ leaseSeconds owner now token c t,
      claimOutbox leaseSeconds owner now token σ.store = .ok (some c, t) →
      ∃ o o', σ.store.outbox.get c.outbox = some o ∧ t.outbox.get c.outbox = some o' ∧
        c.generation = o.publisherGeneration + 1 ∧
        o'.claimedBy c.outbox c.token c.generation = true) ∧
    (∀ τ, system.Later σ τ → ∀ k o o', σ.store.outbox.get k = some o →
      τ.store.outbox.get k = some o' → o.publisherGeneration ≤ o'.publisherGeneration ∧
        (o.publisherState = .published → o'.publisherState = .published) ∧
        (o.publisherState = .cancelled → o'.publisherState = .cancelled)) ∧
    ∀ k token generation, (∀ o ∈ σ.store.outbox.rows, o.claimedBy k token generation = false) →
      ∀ now errorClass unknownHandoff,
        markOutboxPublished k token generation now σ.store = .ok (false, σ.store) ∧
        markOutboxFailed k token generation errorClass unknownHandoff now σ.store =
          .ok (false, σ.store) := by
  have hsound := reachable_outboxSound h
  refine ⟨fun o ho => ?_, fun leaseSeconds owner now token c t hclaim => ?_,
    fun τ hlater k o o' ho ho' => ?_, fun k token generation hstale now errorClass unknown =>
      refused hstale errorClass unknown⟩
  · exact ⟨(hsound o ho).attempts, (hsound o ho).token, (hsound o ho).lease⟩
  · obtain ⟨-, hnone, -⟩ | ⟨row, hfind, ⟨-, hnone, -⟩ | ⟨-, -, key, hsome, hget⟩⟩ :=
      claimOutbox_ok (P := {}) hclaim
    · cases hnone
    · cases hnone
    · cases hsome
      have hrow : row ∈ σ.store.outbox.rows := List.mem_of_find?_eq_some hfind
      have hopen := claimable_open (List.find?_some hfind)
      refine ⟨row, _, Numbered.get_eq_some.mpr ⟨hrow, rfl⟩, hget, rfl, claimedBy_iff.mpr ?_⟩
      exact ⟨rfl, isOpen_iff.mpr (isOpen_iff.mp hopen), rfl, rfl, rfl⟩
  · have hk : k < σ.store.outbox.next := by
      obtain ⟨hmem, hpk⟩ := Numbered.get_eq_some.mp ho
      exact hpk ▸ σ.store.outbox.used o hmem
    obtain ⟨a, ha, honward⟩ := (later_follows hsound hlater).rows k hk o' ho'
    obtain rfl : o = a := Option.some.inj (ho.symm.trans ha)
    exact ⟨honward.generation, honward.published, honward.cancelled⟩

/-- A publisher's lease runs out and the row is claimed again. -/
def claimedTwice : State := system.final oneEvent [
  .alertScheduleCreate ⟨1, some 1, "", .ok 100⟩ 0,
  .dispatchAlertSchedule 1 [⟨"subscriber", "5"⟩] 100,
  .claimOutbox 60 "publisher" 100 7,
  .claimOutbox 60 "publisher" (seconds 100) 8]

theorem claimedTwice_fenced : claimedTwice.store.outbox.rows.map (·.publisherGeneration) = [2] ∧
    (∀ o ∈ claimedTwice.store.outbox.rows,
      (o.publishAttempts : ℤ) ≤ max 0 claimedTwice.store.policy.maxAttempts) ∧
    ∀ now, markOutboxPublished 1 7 1 now claimedTwice.store = .ok (false, claimedTwice.store) := by
  have hfenced := outbox_fenced (Machine.Reachable.final oneEvent_initial _ :
    system.Reachable claimedTwice)
  refine ⟨by decide +kernel, fun o ho => (hfenced.1 o ho).1, fun now => ?_⟩
  exact (hfenced.2.2.2 1 7 1 (by decide +kernel) now "" false).1

end Civicos.Scheduler
