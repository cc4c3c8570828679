import Civicos.Volunteers.ApplicationCycle
import Civicos.Volunteers.ShiftSteps

/-!
# Applications and seats

Bookings ask for an approved application before their transaction, and nothing asks for the bookings
when an application is withdrawn.
-/
namespace Civicos.Volunteers.ApprovedSeats

open Library Library.Transaction
open Applications (VolunteerApplication)

/-! ## Both services over one database -/

structure Office where
  shifts : Volunteers.Store := {}
  desk : Applications.Store := {}

namespace Office

/-- The volunteers with an approved application, and its opportunity. -/
def approved (o : Office) : List (ℕ × ℕ) :=
  (o.desk.applications.rows.filter (·.status = .approved)).map fun a => (a.volunteer, a.opportunity)

/-- What the booking service reads. -/
def view (o : Office) : Volunteers.Store := { o.shifts with approved := o.approved }

end Office

inductive Worker where
  | booking (w : Volunteers.Worker)
  | applying (w : Applications.Worker)
  | dead
deriving DecidableEq

namespace Worker

def entry : Worker → Bool
  | booking w => w.entry
  | applying w => w.entry
  | dead => false

def act (o : Office) : Worker → Option (Office × Worker)
  | booking w => (w.act o.view ()).map fun r => ({ o with shifts := r.1 }, booking r.2)
  | applying w => (w.act o.desk).map fun r => ({ o with desk := r.1 }, applying r.2)
  | dead => none

end Worker

/-- Any number of calls of both services, while time passes; nobody has applied or booked yet. -/
def office : Library.Program Office Worker Unit ℕ where
  Init o := o.shifts.bookings = .empty ∧ o.desk.applications = .empty ∧ o.desk.trail = [] ∧
    o.shifts.now = o.desk.now
  entry := Worker.entry
  halted := .dead
  act o w _ := w.act o
  env o time := some {
    shifts := { o.shifts with now := o.shifts.now + time }
    desk := { o.desk with now := o.desk.now + time } }

variable {s t : Volunteers.Store} {o o' : Office} {x : Shift} {a b : ShiftBooking} {c : Call}
  {shift volunteer : ℕ} {u : Unit}

/-! ## What a call does to the seats -/

theorem bookShift_ok (h : bookShift shift volunteer s = .ok (b, t)) :
    b.shift = shift ∧ b.volunteer = volunteer ∧ t.bookings.rows = s.bookings.rows ++ [b] := by
  obtain ⟨x, hget, h₁⟩ := fetch_bind.mp h
  obtain ⟨-, rfl⟩ := Numbered.get_eq_some.mp hget
  obtain ⟨-, h₂⟩ := guard_ok h₁
  obtain ⟨_, _, ⟨⟩, h₃⟩ := bind_ok.mp h₂
  dsimp only at h₃
  split at h₃
  · obtain ⟨rfl, -, hrows⟩ := createBooking_ok h₃
    exact ⟨rfl, rfl, hrows⟩
  · split at h₃
    · obtain ⟨-, h₄⟩ := guard_ok h₃
      obtain ⟨rfl, -, hrows⟩ := createBooking_ok h₄
      exact ⟨rfl, rfl, hrows⟩
    · cases h₃

/-- Another booking of the same volunteer and shift, which is live, too. -/
def Stems (s : Volunteers.Store) (b : ShiftBooking) : Prop :=
  ∃ a ∈ s.bookings.rows, a.shift = b.shift ∧ a.volunteer = b.volunteer ∧
    a.status.cancellable = true

theorem Stems.of_moved {f : ShiftBooking → BookingState} (ha : a ∈ s.bookings.rows)
    (hb : b ∈ (s.moved a f).rows) (hlive : b.status.cancellable = true)
    (hkeeps : (f a).status.cancellable = true → a.status.cancellable = true) : Stems s b := by
  rcases (Numbered.mem_rewrite_row (ShiftBooking.preserves f) ha).mp hb with ⟨hold, -⟩ | rfl
  · exact ⟨b, hold, rfl, rfl, hlive⟩
  · exact ⟨a, ha, rfl, rfl, hkeeps hlive⟩

/-- A live booking has been live before, or it has just been made. -/
theorem perform_stems (h : c.perform s = .ok (u, t)) (hb : b ∈ t.bookings.rows)
    (hlive : b.status.cancellable = true) :
    Stems s b ∨ ∃ actor, c = .bookShift b.shift b.volunteer actor := by
  cases perform_change h with
  | kept _ hbookings => exact .inl ⟨b, hbookings ▸ hb, rfl, rfl, hlive⟩
  | joined hcall =>
    cases c with
    | bookShift shift volunteer actor =>
      obtain ⟨new, _, hbook, ⟨⟩⟩ := bind_ok.mp h
      obtain ⟨rfl, rfl, hrows⟩ := bookShift_ok hbook
      rcases List.mem_append.mp (hrows ▸ hb) with hold | hnew
      · exact .inl ⟨b, hold, rfl, rfl, hlive⟩
      · obtain rfl := List.mem_singleton.mp hnew
        exact .inr ⟨actor, rfl⟩
    | _ => cases hcall
  | moved _ ha hbookings hmoves =>
    refine .inl (.of_moved ha (hbookings ▸ hb) hlive fun _ => ?_)
    cases hmoves <;> simp_all [BookingStatus.cancellable]
  | @promoted y was next f g _ _ _ hwas hstatus _ hnext _ hbookings =>
    obtain ⟨hmem, -, hwaits⟩ := Store.mem_bookingsOf.mp (List.argmin_mem hnext)
    have hlater : next ∈ (s.moved was f).rows := by
      refine (Numbered.mem_rewrite_row (ShiftBooking.preserves f) hwas).mpr (.inl ⟨hmem, ?_⟩)
      intro hpk
      rw [Table.eq_of_pk hmem hwas hpk, hstatus] at hwaits
      cases hwaits
    obtain ⟨a, ha, hshift, hvolunteer, halive⟩ := Stems.of_moved hlater (hbookings ▸ hb) hlive
      fun _ => by rw [hwaits]; rfl
    obtain ⟨a', ha', hshift', hvolunteer', halive'⟩ := Stems.of_moved hwas ha halive
      fun _ => by rw [hstatus]; rfl
    exact .inl ⟨a', ha', hshift'.trans hshift, hvolunteer'.trans hvolunteer, halive'⟩
  | @withdrawn y f g _ _ _ _ hstate hbookings =>
    rw [hbookings] at hb
    obtain ⟨a, ha, rfl⟩ := Numbered.mem_rewrite.mp hb
    split at hlive
    · simp [ShiftBooking.withState, hstate, BookingStatus.cancellable] at hlive
    next hother =>
      rw [if_neg hother]
      exact .inl ⟨a, ha, rfl, rfl, hlive⟩

/-- Shifts keep their times and their opportunities. -/
theorem perform_shift (h : c.perform s = .ok (u, t)) (hx : x ∈ t.shifts.rows) :
    t.now = s.now ∧ ∃ y ∈ s.shifts.rows, y.pk = x.pk ∧ y.opportunity = x.opportunity ∧
      y.startDatetime = x.startDatetime := by
  have hsame (same : s.Same t) : t.now = s.now ∧ ∃ y ∈ s.shifts.rows, y.pk = x.pk ∧
      y.opportunity = x.opportunity ∧ y.startDatetime = x.startDatetime :=
    ⟨same.now, x, same.shifts ▸ hx, rfl, rfl, rfl⟩
  cases perform_change h with
  | kept same => exact hsame same
  | joined _ same => exact hsame same
  | moved same => exact hsame same
  | promoted same => exact hsame same
  | withdrawn hnow _ _ hshifts =>
    rw [hshifts] at hx
    obtain ⟨y, hy, rfl⟩ := Numbered.mem_rewrite.mp hx
    refine ⟨hnow, y, hy, ?_⟩
    split <;> exact ⟨rfl, rfl, rfl⟩

/-! ## The invariant -/

/-- The volunteer of a live booking on a shift to come is approved for its opportunity. -/
def Office.Seated (o : Office) : Prop :=
  ∀ b ∈ o.shifts.bookings.rows, b.status.cancellable = true → ∀ x ∈ o.shifts.shifts.rows,
    x.pk = b.shift → o.shifts.now < x.startDatetime →
      ∃ a ∈ o.desk.applications.rows, a.volunteer = b.volunteer ∧ a.opportunity = x.opportunity ∧
        a.status = .approved

/-- The condition: an application is still approved when its volunteer is booked, and is withdrawn
only while its volunteer has no live booking on a shift to come. -/
def Steady (o : Office) (w : Worker) (_ : Unit) : Prop :=
  match w with
  | .booking (.checked (.bookShift shift volunteer _)) => ∀ x ∈ o.shifts.shifts.rows,
      x.pk = shift → (volunteer, x.opportunity) ∈ o.approved
  | .applying (.calling (.withdraw application _ _)) => ∀ a ∈ o.desk.applications.rows,
      a.pk = application → ∀ b ∈ o.shifts.bookings.rows, b.status.cancellable = true →
        b.volunteer = a.volunteer → ∀ x ∈ o.shifts.shifts.rows, x.pk = b.shift →
          x.opportunity = a.opportunity → x.startDatetime ≤ o.shifts.now
  | _ => True

instance (o : Office) : (w : Worker) → (u : Unit) → Decidable (Steady o w u)
  | .booking (.checked (.bookShift shift volunteer _)), _ =>
    inferInstanceAs (Decidable (∀ x ∈ o.shifts.shifts.rows, x.pk = shift →
      (volunteer, x.opportunity) ∈ o.approved))
  | .applying (.calling (.withdraw application _ _)), _ =>
    inferInstanceAs (Decidable (∀ a ∈ o.desk.applications.rows, a.pk = application →
      ∀ b ∈ o.shifts.bookings.rows, b.status.cancellable = true → b.volunteer = a.volunteer →
        ∀ x ∈ o.shifts.shifts.rows, x.pk = b.shift → x.opportunity = a.opportunity →
          x.startDatetime ≤ o.shifts.now))
  | .booking (.called _), _ | .booking (.returned _), _ | .booking (.raised _ _), _
  | .booking .dead, _ | .booking (.checked (.cancelBooking _ _ _)), _
  | .booking (.checked (.markNoShow _ _)), _ | .booking (.checked (.completeBooking _ _)), _
  | .booking (.checked (.cancelShift _ _ _)), _ | .applying (.applying _), _
  | .applying (.looking _), _ | .applying (.submitting _ _), _ | .applying .returned, _
  | .applying (.raised _), _ | .applying .dead, _ | .applying (.calling (.approve _ _)), _
  | .applying (.calling (.reject _ _ _)), _ | .dead, _ => inferInstanceAs (Decidable True)

theorem mem_approved {opportunity : ℕ} : (volunteer, opportunity) ∈ o.approved ↔
    ∃ a ∈ o.desk.applications.rows, a.volunteer = volunteer ∧ a.opportunity = opportunity ∧
      a.status = .approved := by
  simp only [Office.approved, List.mem_map, List.mem_filter, decide_eq_true_eq, Prod.mk.injEq]
  constructor
  · rintro ⟨a, ⟨ha, hstatus⟩, hvolunteer, hopportunity⟩
    exact ⟨a, ha, hvolunteer, hopportunity, hstatus⟩
  · rintro ⟨a, ha, hvolunteer, hopportunity, hstatus⟩
    exact ⟨a, ⟨ha, hstatus⟩, hvolunteer, hopportunity⟩

/-- A call of the booking service -/
theorem Office.Seated.booked (h : o.Seated) {v : Volunteers.Store}
    (hc : Steady o (.booking (.checked c)) ()) (hrun : c.perform o.view = .ok (u, v)) :
    ({ o with shifts := v } : Office).Seated := by
  intro b hb hlive x hx hpk hearly
  obtain ⟨hnow, y, hy, hypk, hyopportunity, hystart⟩ := perform_shift hrun hx
  rcases perform_stems hrun hb hlive with ⟨a, ha, hshift, hvolunteer, halive⟩ | ⟨actor, rfl⟩
  · have hearly' : o.shifts.now < y.startDatetime := hystart ▸ hnow ▸ hearly
    rw [← hvolunteer, ← hyopportunity]
    exact h a ha halive y hy ((hypk.trans hpk).trans hshift.symm) hearly'
  · rw [← hyopportunity]
    exact mem_approved.mp (hc y hy (hypk.trans hpk))

/-- An approval ends by a withdrawal only. -/
theorem approved_stays {d : Applications.Store} {e : Applications.Entry} {a : VolunteerApplication}
    (h : Applications.Change o.desk d e) (he : e ≠ .withdrawn)
    (ha : a ∈ o.desk.applications.rows) (happroved : a.status = .approved) :
    a ∈ d.applications.rows := by
  cases h with
  | created _ _ _ hrows => exact hrows ▸ List.mem_append_left _ ha
  | @moved b f _ hb hmoves ht =>
    have hne : a.pk ≠ b.pk := by
      intro hpk
      obtain rfl := Table.eq_of_pk ha hb hpk
      cases hmoves with
      | withdrawn => exact he rfl
      | resubmitted hwas => simp [happroved] at hwas
      | approved hwas => simp [happroved, Applications.ApplicationStatus.undecided] at hwas
      | rejected hwas => simp [happroved, Applications.ApplicationStatus.undecided] at hwas
    rw [ht]
    exact (Numbered.mem_rewrite_row (VolunteerApplication.preserves f) hb).mpr (.inl ⟨ha, hne⟩)

/-- A block of the application service -/
theorem Office.Seated.applied (h : o.Seated) {w w' : Applications.Worker} {d : Applications.Store}
    (hc : Steady o (.applying w) ()) (hact : w.act o.desk = some (d, w')) :
    ({ o with desk := d } : Office).Seated := by
  intro b hb hlive x hx hpk hearly
  obtain ⟨a, ha, hvolunteer, hopportunity, happroved⟩ := h b hb hlive x hx hpk hearly
  refine ⟨a, ?_, hvolunteer, hopportunity, happroved⟩
  rcases Applications.act_cases hact with rfl |
    ⟨-, ⟨e, he, hchange⟩ | ⟨application, owner, actor, rfl, hrun⟩⟩
  · exact ha
  · exact approved_stays hchange he ha happroved
  · obtain ⟨gone, hgone, hgonepk, -, rfl⟩ := Applications.withdraw_ok hrun
    refine (Numbered.mem_rewrite_row (VolunteerApplication.preserves _) hgone).mpr (.inl ⟨ha, ?_⟩)
    intro hsame
    have hlate := hc a ha (hsame.trans hgonepk) b hb hlive hvolunteer.symm x hx hpk
      hopportunity.symm
    exact absurd hearly (not_lt.mpr hlate)

theorem seated_of_reachable {s : Pool.State Office Worker}
    (h : (office.under Steady).machine.Reachable s) : s.store.Seated := by
  refine Program.store_invariant (P := office.under Steady) ?_ ?_ ?_ h
  · rintro o ⟨hbookings, -⟩ b hb
    rw [hbookings] at hb
    cases hb
  · intro o w e o' w' ho hact
    obtain ⟨hc, hact⟩ := Program.under_act.mp hact
    cases w with
    | booking w =>
      obtain ⟨⟨v, q⟩, hv, hr⟩ := Option.map_eq_some_iff.mp hact
      cases hr
      rcases act_performs hv with rfl | ⟨c, rfl, -, hrun⟩
      · exact ho
      · exact ho.booked hc hrun
    | applying w =>
      obtain ⟨⟨d, q⟩, hd, hr⟩ := Option.map_eq_some_iff.mp hact
      cases hr
      exact ho.applied hc hd
    | dead => cases hact
  · intro o time o' ho henv
    obtain rfl := Option.some.inj henv
    intro b hb hlive x hx hpk hearly
    have hearly' : o.shifts.now < x.startDatetime :=
      (Int.le_add_of_nonneg_right (Int.natCast_nonneg time)).trans_lt hearly
    exact ho b hb hlive x hx hpk hearly'

/-- Every confirmed or waitlisted booking on a shift to come belongs to an approved volunteer. -/
def Office.AllApproved (o : Office) : Prop :=
  ∀ b ∈ o.shifts.bookings.rows, b.status = .confirmed ∨ b.status = .waitlisted →
    ∀ x ∈ o.shifts.shifts.rows, x.pk = b.shift → o.shifts.now < x.startDatetime →
      ∃ a ∈ o.desk.applications.rows, a.volunteer = b.volunteer ∧ a.opportunity = x.opportunity ∧
        a.status = .approved

instance (o : Office) : Decidable o.AllApproved :=
  inferInstanceAs (Decidable (∀ b ∈ _, _ → ∀ x ∈ _, _ → _ → ∃ a ∈ _, _ ∧ _ ∧ _))

/-- As long as applications are withdrawn, and volunteers booked, with a view to one another, only
approved volunteers hold seats. -/
theorem seats_approved {s : Pool.State Office Worker}
    (h : (office.under Steady).machine.Reachable s) : s.store.AllApproved := by
  intro b hb hstatus x hx hpk hearly
  refine seated_of_reachable h b hb ?_ x hx hpk hearly
  rcases hstatus with hstatus | hstatus <;> (rw [hstatus]; rfl)

/-- One shift in the garden, whose programme user 9 coordinates, and one volunteer. -/
def garden : Office where
  shifts := {
    shifts := .seed [fun pk => { pk, opportunity := 1, startDatetime := 100, endDatetime := 200 }]
    profiles := .seed [fun pk => { pk, user := 7 }] }
  desk := {
    programs := [⟨1, some 9⟩]
    opportunities := [{ pk := 1, program := 1 }] }

/-- The volunteer applies, and is approved. -/
def approval : List (Pool.Label Worker Unit ℕ) :=
  [.spawn (.applying (.applying {
      volunteerProfile := { pk := 1, user := 7 }
      opportunity := { pk := 1, program := 1 }
      actor := { pk := 7 } })), .act 0 (), .act 0 (), .act 0 (),
    .spawn (.applying (.calling (.approve 1 { pk := 9, changeVolunteerapplication := true }))),
    .act 1 ()]

def booked : List (Pool.Label Worker Unit ℕ) :=
  [.spawn (.booking (.called (.bookShift 1 1 { pk := 7 }))), .act 2 (), .act 2 ()]

/-- Approved and booked -/
def seated : Pool.State Office Worker :=
  (office.under Steady).machine.final ⟨garden, []⟩ (approval ++ booked)

theorem seated_approved : seated.store.shifts.bookings.rows.map (·.status) = [.confirmed] ∧
    seated.store.AllApproved := by
  have hreachable : (office.under Steady).machine.Reachable seated :=
    Machine.Reachable.final (M := (office.under Steady).machine) (s := ⟨garden, []⟩)
      ⟨⟨rfl, rfl, rfl, rfl⟩, rfl⟩ _
  exact ⟨by decide +kernel, seats_approved hreachable⟩

/-- The volunteer withdraws the application, and the booking stays. -/
def unapproved : Pool.State Office Worker :=
  office.machine.final ⟨garden, []⟩ (approval ++ booked ++
    [.spawn (.applying (.calling (.withdraw 1 7 { pk := 7 }))), .act 3 ()])

theorem unapproved_reached :
    office.machine.Reachable unapproved ∧ ¬ unapproved.store.AllApproved :=
  ⟨Machine.Reachable.final (M := office.machine) (s := ⟨garden, []⟩) ⟨⟨rfl, rfl, rfl, rfl⟩, rfl⟩ _,
    by decide +kernel⟩

end Civicos.Volunteers.ApprovedSeats
