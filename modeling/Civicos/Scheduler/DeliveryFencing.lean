import Civicos.Scheduler.Effects

/-!
# Deliveries are fenced

Work that has not ended belongs to the current generation of a schedule that may be admitted, as
long as only such work is replayed.
-/
namespace Civicos.Scheduler

open Library Library.Transaction
open Payments (Uuid Json Digest clip)
open Appointments (Instant)

namespace Store

/-- The delivery belongs to the current generation of a schedule that may be admitted. -/
def currentFor (s : Store) (d : RecipientDelivery) : Bool :=
  (s.schedules.get d.schedule).any fun x =>
    x.deliveryAdmittable ∧ d.dispatchGeneration = x.deliveryGeneration

def Fenced (s : Store) : Prop :=
  ∀ d ∈ s.deliveries.rows, d.status.isTerminal = false → s.currentFor d = true

end Store

variable {P : Permits} {s t : Store} {d : RecipientDelivery} {new : DeliveryState}
  {x : AlertSchedule} {k : ℕ}

theorem currentFor_iff : s.currentFor d = true ↔ ∃ x, s.schedules.get d.schedule = some x ∧
    x.deliveryAdmittable = true ∧ d.dispatchGeneration = x.deliveryGeneration := by
  simp [Store.currentFor, Option.any_eq_true]

/-- It only matters what the schedule of the delivery says. -/
theorem currentFor_of_schedule {d' : RecipientDelivery} (hs : s.currentFor d = true)
    (hd : d'.schedule = d.schedule ∧ d'.dispatchGeneration = d.dispatchGeneration)
    (h : ∀ x, s.schedules.get d.schedule = some x → ∃ x', t.schedules.get d.schedule = some x' ∧
      x'.deliveryAdmittable = x.deliveryAdmittable ∧
      x'.deliveryGeneration = x.deliveryGeneration) : t.currentFor d' = true := by
  obtain ⟨x, hx, hadmittable, hgeneration⟩ := currentFor_iff.mp hs
  obtain ⟨x', hx', hadmittable', hgeneration'⟩ := h x hx
  refine currentFor_iff.mpr ⟨x', hd.1 ▸ hx', hadmittable'.trans hadmittable, ?_⟩
  rw [hd.2, hgeneration, hgeneration']

theorem Fenced.of_schedules (hs : s.Fenced) (hdeliveries : t.deliveries = s.deliveries)
    (h : ∀ k x, s.schedules.get k = some x → ∃ x', t.schedules.get k = some x' ∧
      x'.deliveryAdmittable = x.deliveryAdmittable ∧
      x'.deliveryGeneration = x.deliveryGeneration) : t.Fenced := fun d hd hlive =>
  currentFor_of_schedule (hs d (hdeliveries ▸ hd) hlive) ⟨rfl, rfl⟩ (h d.schedule)

/-- A step only brings a delivery back that it was permitted to replay. -/
theorem DeliveryStep.live (h : DeliveryStep P s d new) (hnew : new.status.isTerminal = false) :
    d.status.isTerminal = false ∨ P.replay s d := by
  cases h with
  | claimed live => exact .inl live
  | succeeded _ h => simp [h, DeliveryStatus.isTerminal] at hnew
  | failed _ h => simp [h, DeliveryStatus.isTerminal] at hnew
  | retried held => exact .inl (by simp [held, DeliveryStatus.isTerminal])
  | acknowledged _ h => simp [h, DeliveryStatus.isTerminal] at hnew
  | replayed _ permit => exact .inr permit

theorem Effect.fences (hpermit : ∀ s d, P.replay s d → s.currentFor d = true)
    (h : Effect P s t) (hs : s.Fenced) : t.Fenced := by
  cases h with
  | scheduled h fresh =>
    refine Fenced.of_schedules hs rfl fun k x hx => ⟨x, ?_, rfl, rfl⟩
    have hne : s.schedules.next ≠ k := fun heq => by
      rw [← heq, Numbered.get_next] at hx
      cases hx
    rw [Numbered.get_insert h (fresh _).1, if_neg hne, hx]
  | rescheduled keeps =>
    refine Fenced.of_schedules hs rfl fun k x hx => ?_
    refine ⟨_, by rw [Numbered.get_rewrite, hx]; rfl, ?_⟩
    dsimp only
    split
    next => exact ⟨(keeps x).2.1, (keeps x).1⟩
    next => exact ⟨rfl, rfl⟩
  | marked _ _ keeps =>
    refine Fenced.of_schedules hs rfl fun k x hx => ?_
    refine ⟨_, by rw [Numbered.get_rewrite, hx]; rfl, ?_⟩
    dsimp only
    split
    next => exact ⟨(keeps x).2, (keeps x).1⟩
    next => exact ⟨rfl, rfl⟩
  | materialized _ hx admittable h =>
    obtain ⟨build, hbuild, hinsert⟩ := h.deliveries
    intro d hd hlive
    rw [(Numbered.insert_ok hinsert (hbuild _).1).1, List.mem_append, List.mem_singleton] at hd
    have hschedules : t.schedules = s.schedules := by rw [h.others]
    obtain hd | rfl := hd
    · refine currentFor_of_schedule (hs d hd hlive) ⟨rfl, rfl⟩ fun x hx => ⟨x, ?_, rfl, rfl⟩
      rw [hschedules, hx]
    · obtain ⟨-, hschedule, hgeneration, -⟩ := hbuild s.deliveries.next
      refine currentFor_iff.mpr ⟨_, ?_, admittable, hgeneration⟩
      rw [hschedules, hschedule, hx]
  | @delivered _ p f steps =>
    intro d' hd' hlive
    obtain ⟨d, hd, rfl⟩ := List.mem_map.mp hd'
    by_cases hp : p d = true
    · rw [if_pos hp] at hlive ⊢
      have hcurrent : s.currentFor d = true := by
        obtain hold | hreplay := (steps d hd hp).live hlive
        · exact hs d hd hold
        · exact hpermit s d hreplay
      exact currentFor_of_schedule hcurrent ⟨rfl, rfl⟩ fun x hx => ⟨x, hx, rfl, rfl⟩
    · rw [if_neg hp] at hlive ⊢
      exact hs d hd hlive
  | @fenced _ y f now _ hy _ =>
    intro d' hd' hlive
    obtain ⟨d, hd, rfl⟩ := List.mem_map.mp hd'
    by_cases hp : d.fencedBy y.pk = true
    · rw [if_pos hp] at hlive
      cases hlive
    · rw [if_neg hp] at hlive ⊢
      have hne : d.schedule ≠ y.pk := fun heq =>
        hp (by simp [RecipientDelivery.fencedBy, heq, hlive])
      refine currentFor_of_schedule (hs d hd hlive) ⟨rfl, rfl⟩ fun x hx => ⟨x, ?_, rfl, rfl⟩
      have hpk : x.pk = d.schedule := (Numbered.get_eq_some.mp hx).2
      rw [Numbered.get_rewrite, hx, Option.map_some, if_neg (by simp [hpk, hne])]
  | @deleted _ k =>
    intro d hd hlive
    obtain ⟨hd, hne⟩ := List.mem_filter.mp hd
    refine currentFor_of_schedule (hs d hd hlive) ⟨rfl, rfl⟩ fun x hx => ⟨x, ?_, rfl, rfl⟩
    have hpk : x.pk = d.schedule := (Numbered.get_eq_some.mp hx).2
    refine Numbered.get_keep.trans (Option.filter_eq_some_iff.mpr ⟨hx, ?_⟩)
    simpa [hpk] using hne
  | posted => exact hs

/-! ## Runs -/

/-- The condition: a dead letter is only replayed while it belongs to the current generation of a
schedule that may be admitted. -/
def replaysCurrent (σ : State) (op : Operation) : Prop :=
  ∀ d ∈ σ.store.deliveries.rows, op.replays d = true → σ.store.currentFor d = true

instance (σ : State) (op : Operation) : Decidable (replaysCurrent σ op) :=
  inferInstanceAs (Decidable (∀ _ ∈ _, _))

variable {σ : State}

theorem reachable_fenced (h : (system.under replaysCurrent).Reachable σ) : σ.store.Fenced := by
  refine invariant_under (fun s hs d hd => ?_) (fun σ op t hC hσ hrun => ?_) h
  · rw [hs.deliveries] at hd
    cases hd
  · have heffects : Effects { replay := fun s d => s.currentFor d = true } σ.store t :=
      perform_effects (fun _ => trivial) hC (fun _ _ _ => trivial) (fun _ _ _ => trivial) hrun
    exact heffects.keeps (fun _ _ heffect => heffect.fences fun _ _ => id) hσ

/-- In a run that meets the condition, every delivery that has not ended belongs to the current
generation of a schedule that may be admitted, and only such deliveries are claimed. -/
theorem deliveries_fenced (h : (system.under replaysCurrent).Reachable σ) :
    (∀ d ∈ σ.store.deliveries.rows, d.status.isTerminal = false →
      ∃ x, σ.store.schedules.get d.schedule = some x ∧
        d.dispatchGeneration = x.deliveryGeneration ∧ x.deliveryAdmittable = true) ∧
    ∀ key leaseSeconds now token a t,
      claim key leaseSeconds now token σ.store = .ok (some a, t) →
      ∃ d ∈ σ.store.deliveries.rows, d.idempotencyKey = key ∧
        ∃ x, σ.store.schedules.get d.schedule = some x ∧
          d.dispatchGeneration = x.deliveryGeneration ∧ x.deliveryAdmittable = true := by
  have hfenced : ∀ d ∈ σ.store.deliveries.rows, d.status.isTerminal = false →
      ∃ x, σ.store.schedules.get d.schedule = some x ∧
        d.dispatchGeneration = x.deliveryGeneration ∧ x.deliveryAdmittable = true := by
    intro d hd hlive
    obtain ⟨x, hx, hadmittable, hgeneration⟩ :=
      currentFor_iff.mp (reachable_fenced h d hd hlive)
    exact ⟨x, hx, hgeneration, hadmittable⟩
  refine ⟨hfenced, fun key leaseSeconds now token a t hclaim => ?_⟩
  obtain ⟨hnone, -⟩ | ⟨-, -, d, hd, hkey, hlive⟩ := claim_ok (P := {}) hclaim
  · cases hnone
  · exact ⟨d, hd, hkey, hfenced d hd hlive⟩

/-- The alert for one subscriber, in the first generation of the first schedule. -/
def firstKey : Digest String := recipientIdempotencyKey 1 1 ⟨"subscriber", "5"⟩

/-- An alert is admitted, then its schedule modified and admitted again. -/
def readmitted : List Operation := [
  .alertScheduleCreate ⟨1, some 1, "", .ok 100⟩ 0,
  .dispatchAlertSchedule 1 [⟨"subscriber", "5"⟩] 100,
  .alertScheduleModify 1 { alertDatetime := some (.ok 300) } 200,
  .dispatchAlertSchedule 1 [⟨"subscriber", "5"⟩] 300]

theorem readmitted_fenced :
    ((system.under replaysCurrent).final oneEvent readmitted).store.deliveries.rows.map
      (fun d => (d.dispatchGeneration, d.status)) = [(1, .cancelled), (2, .pending)] ∧
    ∀ d ∈ ((system.under replaysCurrent).final oneEvent readmitted).store.deliveries.rows,
      d.status.isTerminal = false → ∃ x,
        ((system.under replaysCurrent).final oneEvent readmitted).store.schedules.get d.schedule =
          some x ∧ d.dispatchGeneration = x.deliveryGeneration ∧ x.deliveryAdmittable = true :=
  ⟨by decide +kernel, (deliveries_fenced (Machine.Reachable.final
    (M := system.under replaysCurrent) oneEvent_initial readmitted)).1⟩

/-- Three failures make a dead letter; the schedule is cancelled; the dead letter is replayed. -/
def replayedLate : State := system.final oneEvent [
  .alertScheduleCreate ⟨1, some 1, "", .ok 100⟩ 0,
  .dispatchAlertSchedule 1 [⟨"subscriber", "5"⟩] 100,
  .claim firstKey 300 100 7, .fail firstKey 7 "timeout" 100,
  .claim firstKey 300 (seconds 10) 8, .fail firstKey 8 "timeout" (seconds 10),
  .claim firstKey 300 (seconds 20) 9, .fail firstKey 9 "timeout" (seconds 20),
  .cancelSchedule 1 (seconds 30), .replay firstKey (seconds 40)]

theorem cancelled_work_claimed : ∃ σ : State, system.Reachable σ ∧
    σ.store.schedules.rows.map (·.deliveryAdmittable) = [false] ∧
    σ.store.deliveries.rows.map (·.status) = [.retry] ∧
    (commit (claim firstKey 300 (seconds 40) 10) σ.store).1 = .ok (some 10) :=
  ⟨replayedLate, Machine.Reachable.final oneEvent_initial _, by decide +kernel, by decide +kernel,
    by decide +kernel⟩

end Civicos.Scheduler
