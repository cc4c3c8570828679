import Civicos.Appointments.Requests
import Civicos.Library.Trail

/-!
# Statuses and the audit log

A booking moves along its state machine, from not being there at all. The log has one row for each
of these steps.
-/
namespace Civicos.Appointments

open Library Library.Transaction
open Payments (Uuid)

/-! ## The state machine -/

/-- What the log calls a status; `none` is that of a booking which is not there yet. -/
def statusText (status : Option BookingStatus) : String := (status.map (·.text)).getD ""

inductive Change : Option BookingStatus → Option BookingStatus → Prop where
  | create {status} (h : status.isActive = true) : Change none (some status)
  | step {a b} (h : BookingStatus.Step a b) : Change (some a) (some b)

abbrev StatusPath := Trail.Path Change statusText

/-- Rejected, cancelled and completed bookings stay so. -/
theorem Change.terminal {a : BookingStatus} {c : Option BookingStatus} (h : a.isActive = false) :
    ¬ Change (some a) c := by
  rintro (_ | hstep)
  cases hstep <;> cases h

namespace Store

def statusOf (s : Store) (k : Uuid) : Option BookingStatus := (s.bookings.get k).map (·.status)

/-- From `s` to `t` every booking goes along a path that the log has recorded in the meantime. -/
def Follows (s t : Store) : Prop :=
  ∀ k, ∃ ps, t.statusPath k = s.statusPath k ++ ps ∧ StatusPath (s.statusOf k) ps (t.statusOf k)

variable {s m t : Store}

theorem Follows.refl (s : Store) : s.Follows s := fun k => ⟨[], by simp, .nil _⟩

theorem Follows.trans (h : s.Follows m) (g : m.Follows t) : s.Follows t := by
  intro k
  obtain ⟨ps, hlog, hpath⟩ := h k
  obtain ⟨qs, hlog', hpath'⟩ := g k
  exact ⟨ps ++ qs, by rw [hlog', hlog, List.append_assoc], hpath.append hpath'⟩

/-- Nothing happens to bookings and log. -/
theorem Follows.of_eq (hbookings : ∀ k, t.statusOf k = s.statusOf k)
    (hlog : ∀ k, t.statusPath k = s.statusPath k) : s.Follows t := fun k =>
  ⟨[], by simp [hlog k], hbookings k ▸ .nil _⟩

/-- One booking takes one step, and the log says so. -/
theorem Follows.of_change {k : Uuid} {b : BookingStatus} (hchange : Change (s.statusOf k) (some b))
    (hnew : t.statusOf k = some b) (hothers : ∀ j, j ≠ k → t.statusOf j = s.statusOf j)
    (hlogged : Logged k (statusText (s.statusOf k)) b.text s t) : s.Follows t := by
  intro j
  refine ⟨_, hlogged j, ?_⟩
  split
  next hj =>
    subst hj
    rw [hnew]
    exact .single hchange
  next hj =>
    rw [hothers j hj]
    exact .nil _

end Store

/-! ## Moves -/

variable {seen s m t : Store} {P : Permits} {b old new : Booking} {x : Slot}

theorem statusOf_replaced (h : s.bookings.Replaced old new t.bookings) (k : Uuid) :
    t.statusOf k = if old.pk = k then some new.status else s.statusOf k := by
  unfold Store.statusOf
  rw [h.get_eq]
  change Option.map _ (if old.pk = k then _ else _) = _
  split <;> rfl

theorem statusOf_old (h : s.bookings.Replaced old new t.bookings) :
    s.statusOf old.pk = some old.status := by
  unfold Store.statusOf
  rw [show s.bookings.get old.pk = some old from h.get]
  rfl

/-- A booking whose status is rewritten. -/
theorem follows_replaced (h : s.bookings.Replaced old new t.bookings)
    (hstep : old.status.Step new.status)
    (hlogged : Logged old.pk old.status.text new.status.text s t) : s.Follows t := by
  have hold := statusOf_old h
  refine .of_change (k := old.pk) (b := new.status) ?_ ?_ (fun j hj => ?_) ?_
  · rw [hold]
    exact .step hstep
  · simp [statusOf_replaced h]
  · simp [statusOf_replaced h, hj.symm]
  · rw [hold]
    exact hlogged

/-- A booking whose status stays. -/
theorem follows_rewritten (h : s.bookings.Replaced old new t.bookings)
    (hsame : new.status = old.status) (hlog : ∀ k, t.statusPath k = s.statusPath k) :
    s.Follows t := by
  refine .of_eq (fun k => ?_) hlog
  rw [statusOf_replaced h]
  split
  next hk => rw [← hk, statusOf_old h, hsame]
  next => rfl

theorem Opened.follows (h : Opened b x s t) : s.Follows t := by
  have hfresh : s.statusOf b.pk = none := by
    have hnone : s.bookings.get b.pk = none :=
      Table.get_eq_none.mpr fun a ha => ((Table.insert_ok.mp h.bookings).1.2 a ha).1
    simp [Store.statusOf, hnone]
  have hget : ∀ k, t.statusOf k = if b.pk = k then some b.status else s.statusOf k := by
    intro k
    unfold Store.statusOf
    rw [Table.get_insert h.bookings]
    change Option.map _ (if b.pk = k then _ else _) = _
    split <;> rfl
  refine .of_change (k := b.pk) (b := b.status) ?_ ?_ (fun j hj => ?_) ?_
  · rw [hfresh]
    exact .create h.active
  · simp [hget]
  · simp [hget, hj.symm]
  · rw [hfresh]
    exact h.logged

theorem Closed.follows (h : Closed old new x s t) : s.Follows t :=
  follows_replaced h.bookings h.step h.logged

theorem Move.follows (h : Move seen P s t) : s.Follows t := by
  cases h with
  | opened _ h => exact h.follows
  | closed _ h => exact h.follows
  | moved _ h => exact h.closed.follows.trans h.opened.follows
  | confirmed h =>
    refine follows_replaced h.bookings ?_ ?_
    · rw [h.pending]
      exact .confirm
    · rw [h.pending]
      exact h.logged
  | completed _ h =>
    refine follows_replaced h.bookings ?_ ?_
    · rw [h.confirmed]
      exact .complete
    · rw [h.confirmed]
      exact h.logged
  | absent _ h => exact follows_rewritten h.bookings rfl h.statusPath
  | tagged h =>
    obtain ⟨hbookings, ht, hnew⟩ := h
    exact follows_rewritten hbookings (by rw [hnew]) fun k => by rw [ht]; rfl
  | locked h => exact .of_eq (fun k => by rw [h.2]; rfl) fun k => by rw [h.2]; rfl
  | reopened _ h => exact .of_eq (fun k => by rw [h.2]; rfl) fun k => by rw [h.2]; rfl
  | noted h path => exact .of_eq (fun k => by simp [Store.statusOf, h.bookings]) path

theorem Manage.auditLog {C : Uuid → Prop} (h : Manage C s t) : t.auditLog = s.auditLog := by
  cases h with
  | blocked h => exact h.auditLog
  | restated h => exact h.auditLog
  | retimed h => exact h.auditLog
  | completed h => exact h.auditLog

theorem Manage.follows {C : Uuid → Prop} (h : Manage C s t) : s.Follows t :=
  .of_eq (fun k => by simp [Store.statusOf, h.bookings]) fun k => by
    simp [Store.statusPath, h.auditLog]

/-! ## Runs -/

theorem perform_follows {u : Unit} {now : Instant} {r : Request} (hseen : Earlier seen s)
    (h : r.perform seen now s = .ok (u, t)) : s.Follows t :=
  perform_keeps (I := s.Follows) hseen (fun _ _ hmove hs => hs.trans hmove.follows)
    (fun _ _ hmanage hs => hs.trans hmanage.follows) h (.refl s)

theorem administer_follows {e : Administration} (h : administer s e = some t) : s.Follows t := by
  have hlog : t.auditLog = s.auditLog := by
    obtain ⟨_, rfl⟩ | ⟨_, _, -, -, rfl⟩ | ⟨_, _, -, rfl⟩ := administer_cases h <;> rfl
  exact .of_eq (fun k => by simp [Store.statusOf, administer_bookings h]) fun k => by
    simp [Store.statusPath, hlog]

theorem step_follows {s t : Pool.State Store Task} {l : Label} (h : system.machine.Reachable s)
    (hstep : system.machine.step s l = some t) : s.store.Follows t.store :=
  step_relates .refl (fun _ _ => .of_eq (fun _ => rfl) fun _ => rfl)
    (fun _ _ _ => administer_follows)
    (fun _ _ _ _ now _ _ hseen hrun =>
      perform_follows (s := { s.store with clock := now }) hseen hrun) h hstep

/-- In every state the log leads from no booking to the status of the row. -/
theorem reachable_path {s : Pool.State Store Task} (h : system.machine.Reachable s) (k : Uuid) :
    StatusPath none (s.store.statusPath k) (s.store.statusOf k) := by
  obtain ⟨s₀, h₀, hlater⟩ := h
  refine hlater.induct (I := fun s => StatusPath none (s.store.statusPath k) (s.store.statusOf k))
    ?_
    fun u l v hu ih hstep => ?_
  · have hpath : s₀.store.statusPath k = [] := by simp [Store.statusPath, h₀.1.auditLog]
    have hstatus : s₀.store.statusOf k = none := by
      simp [Store.statusOf, Table.get, h₀.1.bookings]
    rw [hpath, hstatus]
    exact .nil _
  · obtain ⟨ps, hlog, hpath⟩ := step_follows (.later (.start h₀) hu) hstep k
    rw [hlog]
    exact ih.append hpath

/-- Whatever the order of calls: the log of each booking records its path from nothing to its
status, each step extends it by what happens to the booking, ended bookings stay as they are, and a
transaction that raises leaves only a reading of the clock. -/
theorem status_trail {s : Pool.State Store Task} (h : system.machine.Reachable s) :
    (∀ k, StatusPath none (s.store.statusPath k) (s.store.statusOf k)) ∧
    (∀ l t, system.machine.step s l = some t → ∀ k,
      (∃ ps, t.store.statusPath k = s.store.statusPath k ++ ps ∧
        StatusPath (s.store.statusOf k) ps (t.store.statusOf k)) ∧
      ∀ status, s.store.statusOf k = some status → status.isActive = false →
        t.store.statusOf k = some status ∧ t.store.statusPath k = s.store.statusPath k) ∧
    ∀ (i : ℕ) now t r seen job e, s.workers[i]? = some (.running r seen job) →
      r.lacksActor = false →
      system.machine.step s (.act i now) = some t →
      r.respond (commit (r.perform seen now) { s.store with clock := now }).1 = .error e →
      t.store = { s.store with clock := now } := by
  refine ⟨reachable_path h, fun l t hstep k => ?_,
    fun i now t r seen job e hi hactor hstep he => ?_⟩
  · obtain ⟨ps, hlog, hpath⟩ := step_follows h hstep k
    refine ⟨⟨ps, hlog, hpath⟩, fun status hstatus hended => ?_⟩
    rw [hstatus] at hpath
    obtain ⟨hsame, rfl⟩ := hpath.of_stuck fun c => Change.terminal hended
    exact ⟨hsame, by rw [hlog, List.append_nil]⟩
  · obtain ⟨st, q, hact, rfl, -⟩ := Program.step_act hi hstep
    obtain ⟨-, hst | ⟨r', seen', job', hsame, hrun⟩⟩ := act_store hact
    · exact hst
    · cases hsame
      rw [commit_of_ok hrun] at he
      simp [Request.respond, hactor] at he

/-- A citizen books and the staff confirm; the citizen does not come. -/
def markedAbsent : Pool.State Store Task :=
  system.machine.final ⟨{}, []⟩ (clinic ++ serial 0 0 [
    .createBooking 1 7 {} none none, .confirmBooking 1 (some ⟨9, true, true⟩) none,
    .markNoShow 1 (some ⟨9, true, true⟩) none])

theorem markedAbsent_reachable : system.machine.Reachable markedAbsent :=
  Machine.Reachable.final (M := system.machine) (s := ⟨{}, []⟩) initial_empty _

theorem markedAbsent_trail :
    markedAbsent.store.statusPath 1 = [("", "pending"), ("pending", "confirmed")] ∧
    StatusPath none (markedAbsent.store.statusPath 1) (markedAbsent.store.statusOf 1) :=
  ⟨by decide +kernel, (status_trail markedAbsent_reachable).1 1⟩

/-- The changes that the log names, whether or not the status changed. -/
def Store.auditPath (s : Store) (booking : Uuid) : List (String × String) :=
  (s.auditLog.rows.filter fun r => r.booking = some booking ∧ r.newStatus ≠ "").map fun r =>
    (r.previousStatus, r.newStatus)

/-- The row of a no-show has a status, but is no step. -/
theorem absence_logged : ∃ s : Pool.State Store Task, system.machine.Reachable s ∧
    s.store.statusOf 1 = some .confirmed ∧
    s.store.auditPath 1 = [("", "pending"), ("pending", "confirmed"), ("confirmed", "confirmed")] ∧
    ¬ StatusPath none (s.store.auditPath 1) (s.store.statusOf 1) := by
  have hlog : markedAbsent.store.auditPath 1 =
    [("", "pending"), ("pending", "confirmed")] ++ [("confirmed", "confirmed")] := by decide +kernel
  have hstatus : markedAbsent.store.statusOf 1 = some .confirmed := by decide +kernel
  refine ⟨markedAbsent, markedAbsent_reachable, hstatus, hlog, fun hpath => ?_⟩
  rw [hlog, hstatus] at hpath
  obtain ⟨b, hchange, hlabels⟩ := hpath.last
  obtain _ | hstep := hchange
  · simp [statusText] at hlabels
  · cases hstep
    simp [statusText, BookingStatus.text] at hlabels

end Civicos.Appointments
