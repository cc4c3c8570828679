import Civicos.Volunteers.Waitlist

/-!
# Booking again

A cancelled booking stays in its row, and no second row of the volunteer on the shift is accepted.
-/
namespace Civicos.Volunteers

open Library Library.Transaction

variable {s : Store} {x : Shift} {v : VolunteerProfile} {actor : Actor}

/-- Booking is open to a volunteer: a free seat, an approved application, and no booking that is
confirmed or waits. -/
structure Store.OpenTo (s : Store) (x : Shift) (v : VolunteerProfile) : Prop where
  shift : x ∈ s.shifts.rows
  volunteer : v ∈ s.profiles.rows
  live : x.isCancelled = false
  early : s.now < x.startDatetime
  approved : (v.pk, x.opportunity) ∈ s.approved
  free : ∀ capacity ∈ s.effectiveCapacity x, s.confirmed x.pk < capacity
  unbooked : ∀ b ∈ s.bookings.rows, b.shift = x.pk → b.volunteer = v.pk →
    b.status.cancellable = false

/-- The booking of a volunteer on a shift, whatever its status. -/
def ShiftBooking.ofPair (shift volunteer : ℕ) (b : ShiftBooking) : Bool :=
  b.shift = shift ∧ b.volunteer = volunteer

/-- The confirmed bookings of a volunteer on a shift. -/
def Store.seatsOf (s : Store) (shift volunteer : ℕ) : ℕ :=
  s.bookings.rows.countP fun b => b.ofPair shift volunteer ∧ b.status = .confirmed

namespace Store.OpenTo

theorem checks (h : s.OpenTo x v) (hactor : actor.pk = v.user) :
    bookShiftChecks x.pk v.pk actor s = .ok ((), s) := by
  have hx : s.shifts.get x.pk = some x := Numbered.get_eq_some.mpr ⟨h.shift, rfl⟩
  have hv : s.profiles.get v.pk = some v := Numbered.get_eq_some.mpr ⟨h.volunteer, rfl⟩
  refine fetch_bind.mpr ⟨x, hx, fetch_bind.mpr ⟨v, hv, ?_⟩⟩
  rw [if_neg (not_not.mpr hactor), if_neg (by simp [h.live])]
  refine bind_ok.mpr ⟨s, s, rfl, ?_⟩
  dsimp only
  rw [if_neg (not_le.mpr h.early), if_neg (not_not.mpr h.approved)]
  rfl

/-- With a free seat the transaction is the insert of a confirmed booking. -/
theorem bookShift_eq (h : s.OpenTo x v) :
    bookShift x.pk v.pk s = createBooking x.pk v.pk { status := .confirmed } s := by
  have hx : s.shifts.get x.pk = some x := Numbered.get_eq_some.mpr ⟨h.shift, rfl⟩
  have hfree : (s.effectiveCapacity x).all ((s.bookingsOf x.pk .confirmed).length < ·) = true := by
    cases hcapacity : s.effectiveCapacity x with
    | none => rfl
    | some capacity => exact decide_eq_true (h.free capacity hcapacity)
  unfold bookShift shiftOf
  rw [bind_of_ok (fetch_of_get hx), if_neg (by simp [h.live])]
  exact (bind_of_ok get_apply).trans (congrFun (if_pos hfree) s)

end Store.OpenTo

/-- A new row is accepted exactly when the pair has none. -/
theorem createBooking_returns {shift volunteer : ℕ} :
    (∃ r, createBooking shift volunteer { status := .confirmed } s = .ok r) ↔
      ∀ b ∈ s.bookings.rows, b.ofPair shift volunteer = false := by
  constructor
  · rintro ⟨r, h⟩ b hb
    obtain ⟨_, _, ⟨⟩, h₁⟩ := bind_ok.mp h
    obtain ⟨-, h₂⟩ := guard_ok h₁
    obtain ⟨hnone, -⟩ := guard_ok h₂
    by_contra hpair
    refine hnone (List.any_eq_true.mpr ⟨b, hb, ?_⟩)
    simpa [ShiftBooking.ofPair] using hpair
  · intro hnone
    let build (pk : ℕ) : ShiftBooking := { status := .confirmed, pk, shift, volunteer }
    obtain ⟨T, hT⟩ : ∃ T, s.bookings.insert build = .ok T := by
      refine (Numbered.insert_returns rfl).mpr
        ⟨fun c hc => (by cases hc), fun b hb i hi hclash => ?_⟩
      obtain rfl := List.mem_singleton.mp hi
      have hpair : (b.shift, b.volunteer) = (shift, volunteer) := Option.some.inj hclash.2
      have hfree := hnone b hb
      simp_all [ShiftBooking.ofPair]
    have hfree : ¬ (s.bookings.rows.any fun b =>
        b.shift = shift ∧ b.volunteer = volunteer) = true := by
      rw [List.any_eq_true]
      rintro ⟨b, hb, hpair⟩
      have hfree := hnone b hb
      rw [ShiftBooking.ofPair, hpair] at hfree
      cases hfree
    refine ⟨(build s.bookings.next, { s with bookings := T }), ?_⟩
    refine bind_ok.mpr ⟨s, s, rfl, ?_⟩
    dsimp only [Option.any_none]
    rw [if_neg Bool.false_ne_true, if_neg hfree]
    exact append_ok.mpr ⟨rfl, T, hT, rfl⟩

/-- The seats of a pair that had no booking, after one has been inserted. -/
theorem seatsOf_joined {t : Store} {b : ShiftBooking} {shift volunteer : ℕ}
    (hnone : ∀ b ∈ s.bookings.rows, b.ofPair shift volunteer = false)
    (hrows : t.bookings.rows = s.bookings.rows ++ [b]) (hpair : b.ofPair shift volunteer = true)
    (hstatus : b.status = .confirmed) : t.seatsOf shift volunteer = 1 := by
  unfold Store.seatsOf
  rw [hrows, List.countP_append, List.countP_singleton, List.countP_eq_zero.mpr]
  · simp [hpair, hstatus]
  · intro a ha
    simp [hnone a ha]

/-- Both blocks of a call that passes its checks. -/
theorem run_call {p : Pool.State Store Worker} {i : ℕ} {c : Call}
    (hworker : p.workers[i]? = some (.called c)) (hchecks : c.checks p.store = .ok ((), p.store)) :
    shifts.machine.run p [.act i (), .act i ()] =
      (Worker.act p.store (.checked c) ()).map fun r => ⟨r.1, p.workers.set i r.2⟩ := by
  obtain ⟨hi, -⟩ := List.getElem?_eq_some_iff.mp hworker
  have hact : Worker.act p.store (.called c) () = some (p.store, .checked c) := by
    simp only [Worker.act, commit_of_ok hchecks]
  have hfirst : shifts.machine.step p (.act i ()) =
      some ⟨p.store, p.workers.set i (.checked c)⟩ :=
    Option.bind_eq_some_iff.mpr ⟨_, hworker, Option.map_eq_some_iff.mpr ⟨_, hact, rfl⟩⟩
  have hchecked : (p.workers.set i (.checked c))[i]? = some (Worker.checked c) := by simp [hi]
  rw [Machine.run_cons, hfirst, Option.bind_some, Machine.run_cons]
  unfold Program.machine Program.step
  simp only [hchecked, Option.bind_some, Machine.run_nil, List.set_set, Option.bind_fun_some]
  rfl

/-- A volunteer to whom a shift is open books it if and only if they have never booked it: a
cancelled booking bars them. -/
theorem booksAgain_iff {p : Pool.State Store Worker} {i : ℕ} (h : p.store.OpenTo x v)
    (hactor : actor.pk = v.user)
    (hworker : p.workers[i]? = some (.called (.bookShift x.pk v.pk actor))) :
    (∃ q, shifts.machine.run p [.act i (), .act i ()] = some q ∧
      q.workers[i]? = some (.returned (.bookShift x.pk v.pk actor)) ∧
      q.store.seatsOf x.pk v.pk = 1) ↔
    ∀ b ∈ p.store.bookings.rows, b.ofPair x.pk v.pk = false := by
  obtain ⟨hi, -⟩ := List.getElem?_eq_some_iff.mp hworker
  have hbook := h.bookShift_eq
  rw [run_call hworker (h.checks hactor), ← createBooking_returns]
  constructor
  · rintro ⟨q, hq, hreturned, -⟩
    obtain ⟨⟨t, w⟩, hact, rfl⟩ := Option.map_eq_some_iff.mp hq
    obtain rfl : w = .returned _ := by simpa [hi] using hreturned
    cases hrun : createBooking x.pk v.pk { status := .confirmed } p.store with
    | ok r => exact ⟨r, rfl⟩
    | error e =>
      have herror : (Call.bookShift x.pk v.pk actor).perform p.store = .error e :=
        bind_of_error (hbook.trans hrun)
      simp [Worker.act, commit_of_error herror] at hact
  · rintro ⟨⟨b, t⟩, hrun⟩
    have hperform : (Call.bookShift x.pk v.pk actor).perform p.store = .ok ((), t) :=
      bind_of_ok (hbook.trans hrun)
    have hact : Worker.act p.store (.checked (.bookShift x.pk v.pk actor)) () =
        some (t, .returned (.bookShift x.pk v.pk actor)) := by
      simp only [Worker.act, commit_of_ok hperform]
    refine ⟨_, Option.map_eq_some_iff.mpr ⟨_, hact, rfl⟩, by simp [hi], ?_⟩
    obtain ⟨rfl, -, hrows⟩ := createBooking_ok hrun
    refine seatsOf_joined (createBooking_returns.mp ⟨_, hrun⟩) hrows ?_ rfl
    simp [ShiftBooking.ofPair]

/-- The shift of `oneSeat`, and the first of its volunteers. -/
def morning : Shift :=
  { pk := 1, opportunity := 1, startDatetime := 100, endDatetime := 200, capacity := some 1 }

def first : VolunteerProfile := { pk := 1, user := 1 }

theorem open_of_store {s : Store} (hshifts : s.shifts.rows = [morning])
    (hvolunteer : first ∈ s.profiles.rows) (hnow : s.now < 100) (happroved : (1, 1) ∈ s.approved)
    (hfree : s.confirmed 1 = 0)
    (hunbooked : ∀ b ∈ s.bookings.rows, b.status.cancellable = false) : s.OpenTo morning first where
  shift := by simp [hshifts]
  volunteer := hvolunteer
  live := rfl
  early := hnow
  approved := happroved
  free capacity hcapacity := by
    obtain rfl : 1 = capacity := Option.some.inj hcapacity
    exact hfree ▸ Nat.one_pos
  unbooked b hb _ _ := hunbooked b hb

/-- The first volunteer is about to book. -/
def unbooked : Pool.State Store Worker :=
  ⟨oneSeat, [.called (.bookShift 1 1 ⟨1, false, false, false⟩)]⟩

theorem unbooked_booksAgain :
    ∃ q, shifts.machine.run unbooked [.act 0 (), .act 0 ()] = some q ∧
      q.workers[0]? = some (.returned (.bookShift 1 1 ⟨1, false, false, false⟩)) ∧
      q.store.seatsOf 1 1 = 1 :=
  (booksAgain_iff (p := unbooked) (x := morning) (v := first)
    (open_of_store (by decide +kernel) (by decide +kernel) (by decide) (by decide)
      (by decide +kernel) (by decide +kernel)) rfl rfl).mpr (by decide +kernel)

/-- They have booked and cancelled, and are about to book again. -/
def barred : Pool.State Store Worker :=
  shifts.machine.final ⟨oneSeat, []⟩
    (through 0 (.bookShift 1 1 ⟨1, false, false, false⟩) ++
      through 1 (.cancelBooking 1 ⟨1, false, false, false⟩ "ill") ++
      [.spawn (.called (.bookShift 1 1 ⟨1, false, false, false⟩))])

theorem barred_fails : shifts.machine.Reachable barred ∧ barred.store.OpenTo morning first ∧
    ((shifts.machine.run barred [.act 2 (), .act 2 ()]).map fun q =>
      (q.workers[2]?, q.store.seatsOf 1 1)) =
      some (some (.raised (.bookShift 1 1 ⟨1, false, false, false⟩) (.validationError "__all__"
        "Shift booking with this Shift and Volunteer already exists.")), 0) :=
  ⟨Machine.Reachable.final (M := shifts.machine) (s := ⟨oneSeat, []⟩) ⟨rfl, rfl⟩ _,
    open_of_store (by decide +kernel) (by decide +kernel) (by decide +kernel) (by decide +kernel)
      (by decide +kernel) (by decide +kernel), by decide +kernel⟩

end Civicos.Volunteers
