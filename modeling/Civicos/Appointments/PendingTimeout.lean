import Civicos.Appointments.StatusTrail

/-!
# The clean-up of pending bookings

The job lists pending bookings that have waited too long, reads each one again without a lock, and
calls the general cancellation. Between the two reads staff may confirm.
-/
namespace Civicos.Appointments

open Library Library.Transaction
open Payments (Uuid)

variable {n : ℕ} {st st' : Store} {task task' : Task} {now : Instant}

/-! ## The list of a run -/

/-- The row of booking `pk` is from before the cutoff of a run. -/
def Waited (st : Store) (job : Sweep) (pk : Uuid) : Prop :=
  ∃ b, st.bookings.get pk = some b ∧ b.createdAt < job.cutoff

/-- All bookings of a run have waited longer than `n` minutes. -/
def Overdue (n : ℕ) (st : Store) (job : Sweep) : Prop :=
  job.cutoff + minutes n ≤ st.clock ∧ ∀ pk ∈ job.pks, Waited st job pk

/-- What a worker of the job holds. -/
def Holds (n : ℕ) (st : Store) : Task → Prop
  | .sweeping job => Overdue n st job
  | .call r (some job) => ∃ pk, r = timeoutRequest pk ∧ Waited st job pk ∧ Overdue n st job
  | .running r _ (some job) => ∃ pk, r = timeoutRequest pk ∧ Waited st job pk ∧ Overdue n st job
  | _ => True

theorem Waited.later {job : Sweep} {pk : Uuid} (h : Waited st job pk) (hst : Earlier st st') :
    Waited st' job pk := by
  obtain ⟨b, hb, hlt⟩ := h
  obtain ⟨b', hb', honward⟩ := hst.keeps _ _ hb
  exact ⟨b', hb', honward.createdAt ▸ hlt⟩

theorem Overdue.later {job : Sweep} (h : Overdue n st job) (hst : Earlier st st')
    (hclock : st.clock ≤ st'.clock) : Overdue n st' job :=
  ⟨h.1.trans hclock, fun pk hpk => (h.2 pk hpk).later hst⟩

theorem Holds.later (h : Holds n st task) (hst : Earlier st st') (hclock : st.clock ≤ st'.clock) :
    Holds n st' task := by
  cases task with
  | sweeping job => exact Overdue.later h hst hclock
  | call r job =>
    cases job with
    | none => trivial
    | some job =>
      obtain ⟨pk, hr, hwaited, hoverdue⟩ := h
      exact ⟨pk, hr, hwaited.later hst, hoverdue.later hst hclock⟩
  | running r seen job =>
    cases job with
    | none => trivial
    | some job =>
      obtain ⟨pk, hr, hwaited, hoverdue⟩ := h
      exact ⟨pk, hr, hwaited.later hst, hoverdue.later hst hclock⟩
  | _ => trivial

theorem expiredPending_overdue (hn : st.catalog.pendingBookingTimeoutMinutes = n) :
    Overdue n { st with clock := now } (Store.expiredPending { st with clock := now } now) := by
  refine ⟨?_, fun pk hpk => ?_⟩
  · simp [Store.expiredPending, hn]
  · obtain ⟨b, hb, rfl⟩ := List.mem_map.mp hpk
    have hmem := List.mem_mergeSort.mp (List.mem_of_mem_take hb)
    simp only [List.mem_filter, decide_eq_true_eq] at hmem
    exact ⟨b, Table.get_eq_some.mpr ⟨hmem.1, rfl⟩, hmem.2.2⟩

/-! ## Runs -/

theorem act_holds (hn : st.catalog.pendingBookingTimeoutMinutes = n) (hknows : task.Knows st)
    (hold : Holds n st task) (h : system.act st task now = some (st', task')) :
    Holds n st' task' := by
  have hearlier := act_earlier hknows h
  have hclock : st.clock ≤ st'.clock := by
    rw [act_clock hknows h]
    exact (act_store h).1
  have hnow := hold.later hearlier hclock
  simp only [system, Option.ite_none_right_eq_some] at h
  obtain ⟨-, h⟩ := h
  cases task with
  | call r job =>
    cases h
    cases job <;> exact hnow
  | running r seen job =>
    cases job with
    | none =>
      cases h
      trivial
    | some job =>
      cases h
      obtain ⟨pk, -, -, hoverdue⟩ := hnow
      exact hoverdue
  | sweep =>
    cases h
    exact expiredPending_overdue hn
  | done answer => cases h
  | sweeping job =>
    obtain ⟨cutoff, pks⟩ := job
    cases pks with
    | nil =>
      cases h
      trivial
    | cons pk pks =>
      have hrest : Overdue n st' ⟨cutoff, pks⟩ :=
        ⟨hnow.1, fun k hk => hnow.2 k (List.mem_cons_of_mem pk hk)⟩
      simp only [Task.act] at h
      split at h <;> cases h
      · exact ⟨pk, rfl, hnow.2 pk List.mem_cons_self, hrest⟩
      · exact hrest

/-- The condition: when the job cancels a booking, staff have not confirmed it meanwhile. -/
def findsPending (s : Store) : Task → Bool
  | .running (.cancelBooking k _ _ _) _ (some _) =>
    (s.bookings.get k).all fun b => b.status ≠ .confirmed
  | _ => true

/-- The time-out is a setting of `n` minutes. -/
abbrev timely (n : ℕ) := system.under fun s task _ =>
  s.catalog.pendingBookingTimeoutMinutes = n ∧ findsPending s task = true

theorem reachable_holds {s : Pool.State Store Task} (h : (timely n).machine.Reachable s) :
    ∀ task ∈ s.workers, task.Knows s.store ∧ Holds n s.store task := by
  refine (Program.invariant (P := timely n) (I := fun _ => True)
    (J := fun st p => Task.Knows st p ∧ Holds n st p) (fun _ _ => trivial) (fun st p _ hp => ?_)
    (fun _ _ => ⟨trivial, trivial⟩) (fun st p now st' p' _ hp hact => ?_)
    (fun st e st' _ he => ⟨trivial, fun q hq => ?_⟩) h).2
  · cases p with
    | call r job =>
      cases job with
      | none => exact ⟨trivial, trivial⟩
      | some job => cases hp
    | sweep => exact ⟨trivial, trivial⟩
    | _ => cases hp
  · obtain ⟨⟨hn, -⟩, hact⟩ := Program.under_act.mp hact
    have hearlier := act_earlier hp.1 hact
    have hclock : st.clock ≤ st'.clock := by
      rw [act_clock hp.1 hact]
      exact (act_store hact).1
    exact ⟨trivial, ⟨act_knows hact, act_holds hn hp.1 hp.2 hact⟩,
      fun q hq => ⟨hq.1.later hearlier, hq.2.later hearlier hclock⟩⟩
  · have hearlier : Earlier st st' := .of_eq (administer_bookings he)
    exact ⟨hq.1.later hearlier, hq.2.later hearlier (administer_clock he).ge⟩

/-- In a run that meets the condition, a booking that the job cancels was pending and had waited
longer than the time-out when its row was changed, and the job counts no late cancellation. -/
theorem timeout_cancels_pending {s t : Pool.State Store Task} {i : ℕ} {r : Request} {seen : Store}
    {job : Sweep} (h : (timely n).machine.Reachable s)
    (hi : s.workers[i]? = some (.running r seen (some job)))
    (hstep : (timely n).machine.step s (.act i now) = some t) :
    (∀ k old new, s.store.bookings.get k = some old → t.store.bookings.get k = some new →
      new.status = .cancelled →
      old.status = .cancelled ∨ old.status = .pending ∧ old.createdAt + minutes n < now) ∧
    t.store.noShowRecords = s.store.noShowRecords := by
  obtain ⟨-, pk, rfl, ⟨b, hb, hlt⟩, hcutoff, -⟩ := reachable_holds h _ (List.mem_of_getElem? hi)
  obtain ⟨st, q, hact, rfl, -⟩ := Program.step_act hi hstep
  obtain ⟨⟨-, hC⟩, hact⟩ := Program.under_act.mp hact
  have hpending : b.status ≠ .confirmed := by simpa [findsPending, timeoutRequest, hb] using hC
  obtain ⟨hnow, hst | ⟨r, seen', job', hsame, hrun⟩⟩ := act_store hact
  · rw [hst]
    refine ⟨fun k old new hold hnew hcancelled => .inl ?_, rfl⟩
    obtain rfl : old = new := Option.some.inj (hold.symm.trans hnew)
    exact hcancelled
  · cases hsame
    obtain ⟨c, st', hcancel, ⟨⟩⟩ := bind_ok.mp hrun
    obtain ⟨old, x, hold, -, -, huncharged, hclosed⟩ := cancelBooking_ok hcancel
    obtain rfl : b = old := Option.some.inj (hb.symm.trans hold)
    refine ⟨fun k old new hk hnew hcancelled => ?_, huncharged hpending⟩
    rw [hclosed.bookings.get_eq] at hnew
    split at hnew
    next hpk =>
      subst hpk
      obtain rfl : b = old := Option.some.inj (hclosed.bookings.get.symm.trans hk)
      have hwait : b.createdAt + minutes n < now :=
        lt_of_lt_of_le (add_lt_add_left hlt _) (hcutoff.trans hnow)
      have hactive := hclosed.active
      cases hstatus : b.status with
      | pending => exact .inr ⟨rfl, hwait⟩
      | confirmed => exact absurd hstatus hpending
      | _ => simp [hstatus, BookingStatus.isActive] at hactive
    next =>
      obtain rfl : old = new := Option.some.inj (hk.symm.trans hnew)
      exact .inl hcancelled

/-- The job has listed the booking of a citizen and is about to cancel it. -/
def aboutToExpire : Pool.State Store Task :=
  (timely 30).machine.final ⟨{}, []⟩ (clinic ++
    serial (days 6) 0 [.createBooking 1 7 {} none none] ++
    [.spawn .sweep, .act 1 (days 6 + minutes 31), .act 1 (days 6 + minutes 31),
      .act 1 (days 6 + minutes 31)])

theorem aboutToExpire_pending : ∃ t,
    (timely 30).machine.step aboutToExpire (.act 1 (days 6 + minutes 31)) = some t ∧
    t.store.statusOf 1 = some .cancelled ∧
    (∀ k old new, aboutToExpire.store.bookings.get k = some old →
      t.store.bookings.get k = some new → new.status = .cancelled →
      old.status = .cancelled ∨
        old.status = .pending ∧ old.createdAt + minutes 30 < days 6 + minutes 31) ∧
    t.store.noShowRecords = aboutToExpire.store.noShowRecords := by
  have hreachable : (timely 30).machine.Reachable aboutToExpire :=
    Machine.Reachable.final (M := (timely 30).machine) (s := ⟨{}, []⟩) initial_empty _
  have hstep := Machine.step_final (M := (timely 30).machine) (s := aboutToExpire)
    (l := .act 1 (days 6 + minutes 31)) (by decide +kernel)
  refine ⟨_, hstep, by decide +kernel, ?_⟩
  have hi : aboutToExpire.workers[1]? = some (.running (timeoutRequest 1) aboutToExpire.store
      (some ⟨days 6 + minutes 1, []⟩)) := by decide +kernel
  exact timeout_cancels_pending hreachable hi hstep

/-- The job has read the booking as pending; then staff confirm it, and the job goes on. -/
def confirmedInTime : Pool.State Store Task :=
  system.machine.final ⟨{}, []⟩ (clinic ++ serial (days 6) 0 [.createBooking 1 7 {} none none] ++
    [.spawn .sweep, .act 1 (days 6 + minutes 31), .act 1 (days 6 + minutes 31)] ++
    serial (days 6 + minutes 31) 2 [.confirmBooking 1 (some ⟨9, true, true⟩) none] ++
    [.act 1 (days 6 + minutes 31)])

theorem timeout_cancels_confirmed : ∃ s t : Pool.State Store Task, system.machine.Reachable s ∧
    (∃ seen job, s.workers[1]? = some (.running (timeoutRequest 1) seen (some job))) ∧
    system.machine.step s (.act 1 (days 6 + minutes 31)) = some t ∧
    s.store.statusOf 1 = some .confirmed ∧ t.store.statusOf 1 = some .cancelled ∧
    t.store.noShowRecords.rows.map (fun r => (r.citizen, r.lateCancellationCount)) = [(7, 1)] :=
  ⟨confirmedInTime, system.machine.final confirmedInTime [.act 1 (days 6 + minutes 31)],
    Machine.Reachable.final (M := system.machine) (s := ⟨{}, []⟩) initial_empty _,
    ⟨confirmedInTime.store, ⟨days 6 + minutes 1, []⟩, by decide +kernel⟩,
    Machine.step_final (by decide +kernel), by decide +kernel, by decide +kernel,
    by decide +kernel⟩

end Civicos.Appointments
