import Civicos.Appointments.Requests

/-!
# No-shows

A citizen's record counts the appointments that ended, and those to which the citizen did not come.
It does so as long as no booking is both marked absent and completed, and no count is lost to a
record that was read too early.
-/
namespace Civicos.Appointments

open Library Library.Transaction
open Payments (Uuid)

namespace Booking

/-- The booking ended completed or as a no-show. -/
def endedFor (citizen : ℕ) (b : Booking) : Bool :=
  b.citizen = citizen ∧ (b.status = .completed ∨ b.noShow = true)

def missedFor (citizen : ℕ) (b : Booking) : Bool := b.citizen = citizen ∧ b.noShow = true

end Booking

namespace Store

def ended (s : Store) (citizen : ℕ) : ℕ := s.bookings.rows.countP (Booking.endedFor citizen)

def missed (s : Store) (citizen : ℕ) : ℕ := s.bookings.rows.countP (Booking.missedFor citizen)

/-- The records count what the bookings say. -/
structure Accounted (s : Store) : Prop where
  total : ∀ c, (s.standing c).total = s.ended c
  noShows : ∀ c, (s.standing c).noShows = s.missed c

/-- No citizen is suspended in `t` who was not in `s`. -/
def Spares (s t : Store) : Prop :=
    ∀ c, (t.standing c).suspended = true → (s.standing c).suspended = true

/-- The type and the policy under which a no-show of a booking is counted. -/
def missedUnder (seen : Store) (old : Booking) : Option (AppointmentType × SchedulingPolicy) :=
  (seen.slots.get old.slot).bind fun x =>
    (seen.catalog.appointmentType x.appointmentType).map fun a =>
      (a, seen.catalog.resolvePolicy a x.location)

end Store

/-! ## Moves -/

variable {seen s m t : Store} {P : Permits} {b old new : Booking} {x : Slot} {c : ℕ}

theorem ended_replaced (h : s.bookings.Replaced old new t.bookings) (c : ℕ) :
    t.ended c + (if old.endedFor c then 1 else 0) = s.ended c + if new.endedFor c then 1 else 0 :=
  h.countP_eq

theorem missed_replaced (h : s.bookings.Replaced old new t.bookings) (c : ℕ) :
    t.missed c + (if old.missedFor c then 1 else 0) =
      s.missed c + if new.missedFor c then 1 else 0 :=
  h.countP_eq

namespace Store.Accounted

theorem congr (hs : s.Accounted) (hbookings : t.bookings = s.bookings)
    (hrecords : t.noShowRecords = s.noShowRecords) : t.Accounted where
  total c := by
    rw [Store.standing_congr hrecords, hs.total, Store.ended, Store.ended, hbookings]
  noShows c := by
    rw [Store.standing_congr hrecords, hs.noShows, Store.missed, Store.missed, hbookings]

/-- A booking is rewritten that ends no differently. -/
theorem rewritten (hs : s.Accounted) (h : s.bookings.Replaced old new t.bookings)
    (hended : ∀ c, new.endedFor c = old.endedFor c)
    (hmissed : ∀ c, new.missedFor c = old.missedFor c)
    (hstanding : ∀ c, t.standing c = s.standing c) : t.Accounted where
  total c := by
    have hcount := ended_replaced h c
    rw [hended] at hcount
    rw [hstanding, hs.total]
    omega
  noShows c := by
    have hcount := missed_replaced h c
    rw [hmissed] at hcount
    rw [hstanding, hs.noShows]
    omega

end Store.Accounted

theorem Opened.accounted (h : Opened b x s t) (hs : s.Accounted) : t.Accounted := by
  obtain ⟨hpresent, -⟩ := h.fresh
  have hopen : b.status ≠ .completed := by
    intro hstatus
    have hactive := h.active
    rw [hstatus] at hactive
    cases hactive
  constructor
  · intro c
    have hcount : t.ended c = s.ended c + if b.endedFor c then 1 else 0 :=
      Table.countP_insert h.bookings
    have hnot : b.endedFor c = false := by simp [Booking.endedFor, hpresent, hopen]
    rw [Store.standing_congr h.records, hs.total, hcount]
    simp [hnot]
  · intro c
    have hcount : t.missed c = s.missed c + if b.missedFor c then 1 else 0 :=
      Table.countP_insert h.bookings
    have hnot : b.missedFor c = false := by simp [Booking.missedFor, hpresent]
    rw [Store.standing_congr h.records, hs.noShows, hcount]
    simp [hnot]

theorem Closed.accounted (h : Closed old new x s t) (hs : s.Accounted) : t.Accounted := by
  have hold : old.status ≠ .completed := by
    intro hstatus
    have hactive := h.active
    rw [hstatus] at hactive
    cases hactive
  have hnew : new.status ≠ .completed := by
    obtain ⟨hnew, -⟩ | ⟨hnew, -⟩ := h.status <;> simp [hnew]
  refine hs.rewritten h.bookings (fun c => ?_) (fun c => ?_) h.standing
  · simp [Booking.endedFor, hold, hnew, h.same.citizen, h.same.noShow]
  · simp [Booking.missedFor, h.same.citizen, h.same.noShow]

/-- An attendance is counted for a booking that was not marked absent, from a current record. -/
theorem Completed.accounted (h : Completed seen old s t) (hfresh : Fresh seen s old.citizen)
    (hpresent : old.noShow = false) (hs : s.Accounted) : t.Accounted := by
  constructor
  · intro c
    have hcount := ended_replaced h.bookings c
    simp only [Booking.endedFor, h.confirmed, hpresent] at hcount
    rw [h.standing hfresh]
    split
    next hc =>
      have htotal := hs.total c
      simp [hc] at hcount htotal ⊢
      omega
    next hc =>
      have htotal := hs.total c
      have hc : ¬ old.citizen = c := fun heq => hc heq.symm
      simp [hc] at hcount
      omega
  · intro c
    have hcount := missed_replaced h.bookings c
    have hmissed := hs.noShows c
    simp only [Booking.missedFor, hpresent] at hcount
    rw [h.standing hfresh]
    split <;> simp_all

/-- An absence is counted once in both counters, from a current record. -/
theorem Absent.accounted {policy : SchedulingPolicy} (h : Absent seen policy old s t)
    (hfresh : Fresh seen s old.citizen) (hs : s.Accounted) : t.Accounted := by
  constructor
  · intro c
    have hcount := ended_replaced h.bookings c
    have htotal := hs.total c
    simp only [Booking.endedFor, h.confirmed, h.first] at hcount
    rw [h.standing hfresh]
    split
    next hc =>
      simp [hc] at hcount htotal ⊢
      omega
    next hc =>
      have hc : ¬ old.citizen = c := fun heq => hc heq.symm
      simp [hc] at hcount
      omega
  · intro c
    have hcount := missed_replaced h.bookings c
    have hmissed := hs.noShows c
    simp only [Booking.missedFor, h.first] at hcount
    rw [h.standing hfresh]
    split
    next hc =>
      simp [hc] at hcount hmissed ⊢
      omega
    next hc =>
      have hc : ¬ old.citizen = c := fun heq => hc heq.symm
      simp [hc] at hcount
      omega

/-- Moves other than no-shows, where attendances are counted as the condition says. -/
theorem Move.accounted (hmiss : ¬ P.miss)
    (hcount : ∀ s old, P.count s old → Fresh seen s old.citizen ∧ old.noShow = false)
    (h : Move seen P s t) (hs : s.Accounted) :
    t.Accounted ∧ ∀ c, (t.standing c).suspended = (s.standing c).suspended := by
  have hsame : ∀ {s t : Store}, t.noShowRecords = s.noShowRecords →
      ∀ c, (t.standing c).suspended = (s.standing c).suspended := fun heq c => by
    rw [Store.standing_congr heq]
  cases h with
  | opened _ h => exact ⟨h.accounted hs, hsame h.records⟩
  | closed _ h => exact ⟨h.accounted hs, fun c => by rw [h.standing]⟩
  | moved _ h => exact ⟨h.opened.accounted (h.closed.accounted hs), hsame h.records⟩
  | confirmed h =>
    refine ⟨hs.rewritten h.bookings (fun c => ?_) (fun c => rfl)
      (fun c => Store.standing_congr h.records), hsame h.records⟩
    simp [Booking.endedFor, h.pending]
  | completed count h =>
    obtain ⟨hfresh, hpresent⟩ := hcount _ _ count
    refine ⟨h.accounted hfresh hpresent hs, fun c => ?_⟩
    rw [h.standing hfresh]
    split <;> rfl
  | absent miss => exact absurd miss hmiss
  | tagged h =>
    obtain ⟨hbookings, ht, hnew⟩ := h
    have hrecords : t.noShowRecords = s.noShowRecords := by rw [ht]
    refine ⟨hs.rewritten hbookings (fun c => ?_) (fun c => ?_)
      (fun c => Store.standing_congr hrecords), hsame hrecords⟩ <;>
      · rw [hnew]
        rfl
  | locked h => exact ⟨hs.congr (by rw [h.2]) (by rw [h.2]), hsame (by rw [h.2])⟩
  | reopened _ h => exact ⟨hs.congr (by rw [h.2]) (by rw [h.2]), hsame (by rw [h.2])⟩
  | noted h => exact ⟨hs.congr h.bookings h.records, hsame h.records⟩

/-! ## Runs -/

/-- A no-show suspends, if at all, under a positive threshold and for a type that punishes. -/
def suspendsRightly (seen s : Store) (old : Booking) : Bool :=
  (s.standing old.citizen).suspended ||
    (seen.missedUnder old).all fun (a, policy) =>
      policy.noShowSuspensionThreshold ≤ (s.standing old.citizen).noShows + 1 →
        0 < policy.noShowSuspensionThreshold ∧ a.nonPunitiveNoShow = false

/-- The condition: an attendance or absence is counted from a current record, an attendance not for
a booking that was marked absent, and an absence suspends only where it may. -/
def countsOnce (s : Store) : Task → Bool
  | .running r seen _ => r.target.all fun k => (s.bookings.get k).all fun old =>
      (r.completes → Fresh seen s old.citizen ∧ old.noShow = false) ∧
      (r.marks → Fresh seen s old.citizen ∧ suspendsRightly seen s old)
  | _ => true

/-- Why a citizen is suspended by a request. -/
def Suspended (seen s t : Store) (r : Request) (c : ℕ) : Prop :=
  ∃ k actor ip old a policy, r = .markNoShow k actor ip ∧ s.bookings.get k = some old ∧
    old.citizen = c ∧ seen.missedUnder old = some (a, policy) ∧ a.nonPunitiveNoShow = false ∧
    0 < policy.noShowSuspensionThreshold ∧
    policy.noShowSuspensionThreshold ≤ (t.standing c).noShows

variable {r : Request} {u : Unit} {j : Option Sweep} {now : Instant}

theorem markNoShow_accounted {k : Uuid} {actor : Option User} {ip : Option String}
    (hC : countsOnce s (.running (.markNoShow k actor ip) seen j) = true) (hs : s.Accounted)
    (h : markNoShow seen now k actor ip s = .ok (b, t)) :
    t.Accounted ∧ ∀ c, (s.standing c).suspended = false → (t.standing c).suspended = true →
      Suspended seen s t (.markNoShow k actor ip) c := by
  obtain ⟨old, x, policy, hold, -, hx, ⟨a, ha, rfl⟩, habsent⟩ := markNoShow_ok h
  have hunder : seen.missedUnder old = some (a, seen.catalog.resolvePolicy a x.location) := by
    simp [Store.missedUnder, hx, ha]
  simp only [countsOnce, Request.target, Request.marks, Option.all_some, hold, decide_eq_true_eq,
    forall_const] at hC
  obtain ⟨-, hfresh, hrightly⟩ := hC
  refine ⟨habsent.accounted hfresh hs, fun c hbefore hafter => ?_⟩
  have hstanding := habsent.standing hfresh c
  rw [hstanding] at hafter
  split at hafter
  next hc =>
    subst hc
    rw [if_pos rfl] at hstanding
    simp only [hbefore, Bool.false_or, decide_eq_true_eq] at hafter
    simp only [suspendsRightly, hbefore, hunder, Option.all_some, Bool.false_or,
      decide_eq_true_eq] at hrightly
    obtain ⟨hpositive, hpunitive⟩ := hrightly hafter
    exact ⟨k, actor, ip, old, a, _, rfl, hold, rfl, hunder, hpunitive,
      hpositive, by rwa [hstanding]⟩
  next => cases hbefore.symm.trans hafter

theorem Manage.records {C : Uuid → Prop} (h : Manage C s t) :
    t.noShowRecords = s.noShowRecords := by
  cases h with
  | blocked h => exact h.records
  | restated h => exact h.records
  | retimed h => exact h.records
  | completed h => exact h.records

theorem perform_accounted (hC : countsOnce s (.running r seen j) = true) (hseen : Earlier seen s)
    (hs : s.Accounted) (h : r.perform seen now s = .ok (u, t)) :
    t.Accounted ∧ ∀ c, (s.standing c).suspended = false → (t.standing c).suspended = true →
      Suspended seen s t r c := by
  have hquiet : (t.Accounted ∧ ∀ c, (t.standing c).suspended = (s.standing c).suspended) →
      t.Accounted ∧ ∀ c, (s.standing c).suspended = false → (t.standing c).suspended = true →
        Suspended seen s t r c := fun ⟨haccounted, hsame⟩ =>
    ⟨haccounted, fun c hbefore hafter => by cases hbefore.symm.trans ((hsame c).symm.trans hafter)⟩
  cases hr : r.onSlots with
  | true =>
    refine hquiet ((perform_manages (C := fun _ => True) hr (fun _ _ => trivial)
      (fun _ _ => trivial) h).keeps (I := fun m => m.Accounted ∧
        ∀ c, (m.standing c).suspended = (s.standing c).suspended) (fun _ _ hmanage hm => ?_)
      ⟨hs, fun _ => rfl⟩)
    exact ⟨hm.1.congr hmanage.bookings hmanage.records, fun c =>
      (congrArg Standing.suspended (Store.standing_congr hmanage.records)).trans (hm.2 c)⟩
  | false =>
    cases hm : r.marks with
    | true =>
      cases r with
      | markNoShow k actor ip =>
        obtain ⟨b, m, hmark, ⟨⟩⟩ := bind_ok.mp h
        exact markNoShow_accounted hC hs hmark
      | _ => cases hm
    | false =>
      refine hquiet ((perform_moves (P := {
          miss := False
          count := fun m old => Fresh seen m old.citizen ∧ old.noShow = false }) hr hseen
        (fun _ => trivial) (by simp [hm]) (fun _ _ _ _ _ => trivial) (fun _ _ _ _ => trivial)
        (fun k m old hk hcompletes hway => ?_) h).keeps (I := fun m => m.Accounted ∧
          ∀ c, (m.standing c).suspended = (s.standing c).suspended) (fun _ _ hmove hm => ?_)
        ⟨hs, fun _ => rfl⟩)
      · -- a booking that the call has just opened is for the citizen of the one it closed
        have hrow : ∀ a, s.bookings.get k = some a → Fresh seen s a.citizen ∧ a.noShow = false := by
          intro a ha
          simp only [countsOnce, hk, ha, Option.all_some, decide_eq_true_eq] at hC
          exact hC.1 hcompletes
        obtain ⟨rfl, hold⟩ | ⟨hrecords, hpresent, a, ha, hcitizen⟩ := hway
        · exact hrow old hold
        · refine ⟨?_, hpresent⟩
          have hfresh := (hrow a ha).1
          unfold Fresh at hfresh ⊢
          rwa [hcitizen, Store.recordOf_congr hrecords]
      · obtain ⟨haccounted, hsame⟩ := hmove.accounted not_false (fun _ _ hcount => hcount) hm.1
        exact ⟨haccounted, fun c => (hsame c).trans (hm.2 c)⟩

/-- Staff can only lift suspensions. -/
theorem administer_standing {e : Administration} (h : administer s e = some t) (c : ℕ) :
    t.standing c = s.standing c ∨ t.standing c = { s.standing c with suspended := false } := by
  obtain ⟨_, rfl⟩ | ⟨_, _, -, -, rfl⟩ | ⟨k, R, hR, rfl⟩ := administer_cases h
  · exact .inl rfl
  · exact .inl rfl
  · cases hk : s.noShowRecords.get k with
    | none =>
      obtain rfl : s.noShowRecords = R := by simpa [Table.update_of_none hk] using hR
      exact .inl rfl
    | some r =>
      have hrep : s.noShowRecords.Replaced r { r with isSuspended := false } R :=
        .of_update hR hk rfl
      have hrec := Store.recordOf_replaced (s := s) (t := { s with noShowRecords := R }) hrep rfl c
      unfold Store.standing
      rw [hrec]
      split
      next hc =>
        have hold : s.recordOf c = some r := Store.recordOf_eq_some.mpr ⟨hrep.old_mem, hc.symm⟩
        exact .inr (by simp [hold, ClientNoShowRecord.standing])
      next => exact .inl rfl

theorem administer_accounted {e : Administration} (hs : s.Accounted)
    (h : administer s e = some t) : t.Accounted := by
  have hbookings := administer_bookings h
  constructor
  · intro c
    rw [Store.ended, hbookings]
    obtain hsame | hsame := administer_standing h c <;>
      · rw [hsame]
        exact hs.total c
  · intro c
    rw [Store.missed, hbookings]
    obtain hsame | hsame := administer_standing h c <;>
      · rw [hsame]
        exact hs.noShows c

abbrev accounted := system.under fun s task _ => countsOnce s task = true

theorem reachable_accounted {s : Pool.State Store Task} (h : accounted.machine.Reachable s) :
    s.store.Accounted := by
  refine invariant_under (fun s hs => ?_) (fun _ _ hs => hs.congr rfl rfl)
    (fun _ _ _ => administer_accounted)
    (fun r seen job now db t hC hseen hs hrun =>
      (perform_accounted (s := { db with clock := now }) (j := job) hC hseen hs hrun).1) h
  have hrecords : ∀ c, s.standing c = {} := fun c => by
    simp [Store.standing, Store.recordOf, hs.records]
  constructor <;> intro c <;> simp [hrecords, Store.ended, Store.missed, hs.bookings]

/-- In a run that meets the condition: the totals and no-shows of a citizen's record count the
bookings that ended so, and who becomes suspended has just been marked absent from an appointment
of a punitive type, and has reached a positive threshold. -/
theorem noShow_accounting {s : Pool.State Store Task} (h : accounted.machine.Reachable s) :
    (∀ c, (s.store.standing c).total = s.store.ended c ∧
      (s.store.standing c).noShows = s.store.missed c) ∧
    ∀ l t, accounted.machine.step s l = some t → ∀ c,
      (s.store.standing c).suspended = false → (t.store.standing c).suspended = true →
      ∃ (i : ℕ) (r : Request) (seen : Store) (job : Option Sweep),
        s.workers[i]? = some (.running r seen job) ∧ Suspended seen s.store t.store r c := by
  have haccounted := reachable_accounted h
  refine ⟨fun c => ⟨haccounted.total c, haccounted.noShows c⟩,
    fun l t hstep c hbefore hafter => ?_⟩
  have habsurd : t.store.standing c = s.store.standing c → False := fun hsame => by
    rw [hsame, hbefore] at hafter
    cases hafter
  obtain ⟨p, -, -, rfl⟩ | ⟨i, now, p, st, q, -, hp, hact, rfl⟩ | ⟨i, -, rfl⟩ |
    ⟨e, st, -, henv, rfl⟩ := Program.step_cases hstep
  · exact (habsurd rfl).elim
  · obtain ⟨hC, hact⟩ := Program.under_act.mp hact
    have hknows := reachable_knows (Program.reachable_of_under h) _ (List.mem_of_getElem? hp)
    obtain ⟨-, hst | ⟨r, seen, job, rfl, hrun⟩⟩ := act_store hact
    · exact (habsurd (by rw [hst]; rfl)).elim
    · exact ⟨i, r, seen, job, hp, (perform_accounted (s := { s.store with clock := now })
        (j := job) hC hknows (haccounted.congr rfl rfl) hrun).2 c hbefore hafter⟩
  · exact (habsurd rfl).elim
  · obtain hsame | hsame := administer_standing henv c
    · exact (habsurd hsame).elim
    · rw [hsame] at hafter
      cases hafter

/-- Suspension after `threshold` no-shows, for a type that may be non-punitive. -/
def suspendsAfter (threshold : ℕ) (nonPunitive : Bool) : Label :=
  .env (.configure {
    appointmentTypes := [{
      pk := 1, slug := "permit", serviceType := 1, nonPunitiveNoShow := nonPunitive }]
    users := [⟨7, false, true⟩, ⟨9, true, true⟩]
    settings := { noShowSuspensionThreshold := threshold } })

def staff : Option User := some ⟨9, true, true⟩

/-- A citizen has missed one appointment and is about to be marked absent from another. -/
def aboutToSuspend : Pool.State Store Task :=
  accounted.machine.final ⟨{}, []⟩ (clinic ++ [suspendsAfter 2 false] ++ serial 0 0 [
    .createBooking 1 7 {} none none, .confirmBooking 1 staff none, .markNoShow 1 staff none,
    .createBooking 2 7 {} none none, .confirmBooking 2 staff none] ++
    [.spawn (.call (.markNoShow 2 staff none) none), .act 5 0])

theorem aboutToSuspend_accounted : ∃ t,
    accounted.machine.step aboutToSuspend (.act 5 0) = some t ∧
    t.store.standing 7 = ⟨2, 2, true⟩ ∧
    (aboutToSuspend.store.standing 7).total = aboutToSuspend.store.ended 7 ∧
    ∃ (i : ℕ) (r : Request) (seen : Store) (job : Option Sweep),
      aboutToSuspend.workers[i]? = some (.running r seen job) ∧
      Suspended seen aboutToSuspend.store t.store r 7 := by
  have hreachable : accounted.machine.Reachable aboutToSuspend :=
    Machine.Reachable.final (M := accounted.machine) (s := ⟨{}, []⟩) initial_empty _
  have hstep := Machine.step_final (M := accounted.machine) (s := aboutToSuspend)
    (l := .act 5 0) (by decide +kernel)
  obtain ⟨hcounts, hsuspended⟩ := noShow_accounting hreachable
  exact ⟨_, hstep, by decide +kernel, (hcounts 7).1,
    hsuspended _ _ hstep 7 (by decide +kernel) (by decide +kernel)⟩

/-- One appointment, marked absent and then completed. -/
def absentCompleted : Pool.State Store Task :=
  system.machine.final ⟨{}, []⟩ (clinic ++ serial 0 0 [
    .createBooking 1 7 {} none none, .confirmBooking 1 staff none, .markNoShow 1 staff none,
    .completeBooking 1 staff none])

/-- One no-show. -/
def absentOnce (threshold : ℕ) (nonPunitive : Bool) : Pool.State Store Task :=
  system.machine.final ⟨{}, []⟩ (clinic ++ [suspendsAfter threshold nonPunitive] ++ serial 0 0 [
    .createBooking 1 7 {} none none, .confirmBooking 1 staff none, .markNoShow 1 staff none])

theorem absence_miscounted :
    (∃ s : Pool.State Store Task, system.machine.Reachable s ∧ (s.store.standing 7).total = 2 ∧
      s.store.ended 7 = 1) ∧
    (∃ s : Pool.State Store Task, system.machine.Reachable s ∧
      s.store.catalog.policies.map (·.noShowSuspensionThreshold) = [0] ∧
      (s.store.standing 7).suspended = true) ∧
    ∃ s : Pool.State Store Task, system.machine.Reachable s ∧
      s.store.catalog.appointmentTypes.map (·.nonPunitiveNoShow) = [true] ∧
      (s.store.standing 7).suspended = true :=
  ⟨⟨absentCompleted, Machine.Reachable.final (M := system.machine) (s := ⟨{}, []⟩) initial_empty _,
      by decide +kernel, by decide +kernel⟩,
    ⟨absentOnce 0 false,
      Machine.Reachable.final (M := system.machine) (s := ⟨{}, []⟩) initial_empty _,
      by decide +kernel, by decide +kernel⟩,
    ⟨absentOnce 1 true,
      Machine.Reachable.final (M := system.machine) (s := ⟨{}, []⟩) initial_empty _,
      by decide +kernel, by decide +kernel⟩⟩

end Civicos.Appointments
