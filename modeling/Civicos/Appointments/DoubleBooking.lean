import Civicos.Appointments.Regeneration
import Civicos.Appointments.Capacity

/-!
# Double booking

Candidates of a date are compared with the slots that are stored, not with each other. The slots of
a staff member overlap when the interval is shorter than a slot with its buffers, or when windows of
a generation are closer to each other than the buffer before a slot.
-/
namespace Civicos.Appointments

open Library Library.Transaction
open Payments (Uuid)

namespace Schedule

variable {h : Schedule} {a : Agenda} {slots : List Slot} {date : ℤ} {w w' : Instant × Instant}
  {c d : Candidate} {cs : List Candidate}

/-! ## Windows that are apart -/

def hasRoom (h : Schedule) (w : Instant × Instant) : Bool := (h.candidate w.1).effectiveEnd ≤ w.2

def bufferBefore (h : Schedule) : Instant := minutes h.policy.bufferBeforeMinutes

/-- The buffer of its first slot begins after midnight. -/
def Begins (h : Schedule) (date : ℤ) (w : Instant × Instant) : Prop :=
  h.hasRoom w = true → h.InDay date w ∧ h.dayStart date + h.bufferBefore ≤ w.1

/-- An interval is long enough for a slot with its buffers, unless there is room for one only. -/
def Spaced (h : Schedule) (w : Instant × Instant) : Prop :=
  (h.candidate w.1).effectiveEnd ≤ (h.candidate (w.1 + h.stride)).effectiveStart ∨
    w.2 < (h.candidate (w.1 + h.stride)).effectiveEnd

/-- One window ends before the buffer of the first slot of the other. -/
def Clear (h : Schedule) (w w' : Instant × Instant) : Prop :=
  h.hasRoom w = true → h.hasRoom w' = true →
    w.2 + h.bufferBefore ≤ w'.1 ∨ w'.2 + h.bufferBefore ≤ w.1

/-- A date on which no two candidates overlap -/
def Orderly (h : Schedule) (a : Agenda) (date : ℤ) : Prop :=
  (∀ w ∈ h.windows a date, h.Begins date w ∧ h.Spaced w) ∧ (h.windows a date).Pairwise h.Clear

instance (h : Schedule) (date : ℤ) (w : Instant × Instant) : Decidable (h.Begins date w) :=
  inferInstanceAs (Decidable (_ → h.InDay date w ∧ _))

instance (h : Schedule) (w : Instant × Instant) : Decidable (h.Spaced w) :=
  inferInstanceAs (Decidable (_ ∨ _))

instance (h : Schedule) (w w' : Instant × Instant) : Decidable (h.Clear w w') :=
  inferInstanceAs (Decidable (_ → _ → _ ∨ _))

instance (h : Schedule) (a : Agenda) (date : ℤ) : Decidable (h.Orderly a date) :=
  inferInstanceAs (Decidable ((∀ w ∈ h.windows a date, _ ∧ _) ∧ List.Pairwise h.Clear _))

theorem Located.effectiveStart_eq (hc : h.Located w c) :
    c.effectiveStart = c.startDatetime - h.bufferBefore := by
  obtain ⟨k, rfl⟩ := hc.grid
  rfl

theorem Located.effectiveEnd_eq (hc : h.Located w c) :
    c.effectiveEnd = (h.candidate c.startDatetime).effectiveEnd := by
  obtain ⟨k, rfl⟩ := hc.grid
  rfl

theorem Located.hasRoom (hc : h.Located w c) : h.hasRoom w = true := by
  have hle := hc.start_le
  have hend := hc.effectiveEnd_eq
  have hroom := hc.room
  simp only [candidate] at hend
  refine decide_eq_true ?_
  simp only [candidate]
  linarith

/-- Candidates of a window are an interval apart. -/
theorem Located.stride_le (hc : h.Located w c) (hd : h.Located w d)
    (hlt : c.startDatetime < d.startDatetime) : c.startDatetime + h.stride ≤ d.startDatetime := by
  obtain ⟨m, hm⟩ := hc.grid
  obtain ⟨n, hn⟩ := hd.grid
  have hcstart : c.startDatetime = w.1 + m * h.stride := by rw [hm]; rfl
  have hdstart : d.startDatetime = w.1 + n * h.stride := by rw [hn]; rfl
  have hmn : (m : ℤ) < n := by
    refine lt_of_mul_lt_mul_right (a := h.stride) ?_ h.stride_nonneg
    linarith
  have hmul := Int.mul_le_mul_of_nonneg_right (Int.add_one_le_of_lt hmn) h.stride_nonneg
  linarith

/-- Where an interval is long enough, they do not overlap. -/
theorem Spaced.before (hw : h.Spaced w) (hc : h.Located w c) (hd : h.Located w d)
    (hlt : c.startDatetime < d.startDatetime) : c.effectiveEnd ≤ d.effectiveStart := by
  have hstride := hc.stride_le hd hlt
  have hstart := hc.start_le
  have hcend := hc.effectiveEnd_eq
  have hdend := hd.effectiveEnd_eq
  have hdstart := hd.effectiveStart_eq
  have hroom := hd.room
  simp only [Spaced, candidate, bufferBefore] at hw hcend hdend hdstart
  rcases hw with hw | hw
  · linarith
  · linarith

theorem Clear.apart (hw : h.Clear w w') (hc : h.Located w c) (hd : h.Located w' d) :
    c.effectiveEnd ≤ d.effectiveStart ∨ d.effectiveEnd ≤ c.effectiveStart := by
  have hcstart := hc.start_le
  have hdstart := hd.start_le
  have hcroom := hc.room
  have hdroom := hd.room
  rw [hc.effectiveStart_eq, hd.effectiveStart_eq]
  refine (hw hc.hasRoom hd.hasRoom).imp (fun hw => ?_) fun hw => ?_
  · linarith
  · linarith

/-- The candidates of a date -/
theorem Orderly.daySlots (hday : h.Orderly a date) (hpolicy : h.policy.isValid = true)
    (hslots : h.daySlots a slots date = some cs) : cs.Pairwise fun c d =>
      c.effectiveEnd ≤ d.effectiveStart ∨ d.effectiveEnd ≤ c.effectiveStart := by
  obtain ⟨grid, hgrid, hgrids⟩ := exists_daySlots a slots date hpolicy
  obtain rfl := Option.some.inj (hgrids.symm.trans hslots)
  have hlocated {w : Instant × Instant} {c : Candidate} (hc : c ∈ grid w) : h.Located w c :=
    (((hgrid w).mem c).mp hc).located
  split
  · exact .nil
  refine List.pairwise_flatMap.mpr ⟨fun w hw => ?_, ?_⟩
  · refine (hgrid w).increasing.imp_of_mem fun hc hd hlt => .inl ?_
    exact (hday.1 w hw).2.before (hlocated hc) (hlocated hd) hlt
  · refine hday.2.imp fun hclear => ?_
    intro c hc d hd
    exact hclear.apart (hlocated hc) (hlocated hd)

/-- A busy slot of the staff member does not overlap a candidate. -/
theorem Orderly.free (hday : h.Orderly a date) (hpolicy : h.policy.isValid = true)
    (hslots : h.daySlots a slots date = some cs) (hc : c ∈ cs) {x : Slot} (hx : x ∈ slots)
    (hstaff : x.staff = h.staff) (hbusy : x.isBusy = true) :
    overlaps c.effectiveStart c.effectiveEnd x.effectiveStart x.effectiveEnd = false := by
  obtain ⟨w, hw, hlocated⟩ := located_of_daySlots hpolicy hslots hc
  obtain ⟨hin, hbegins⟩ := (hday.1 w hw).1 hlocated.hasRoom
  by_contra hoverlap
  have hmeet : c.effectiveStart < x.effectiveEnd ∧ x.effectiveStart < c.effectiveEnd :=
    of_decide_eq_true (Bool.eq_true_of_not_eq_false hoverlap)
  refine hoverlap (free_of_daySlots hpolicy hslots hc hx hstaff hbusy ?_ ?_)
  · exact hmeet.2.trans_le (hlocated.room.trans hin.searched)
  · have hstart := hlocated.start_le
    have hbuffer : 0 ≤ h.maxBuffer := minutes_nonneg _
    have hmeet := hmeet.1
    rw [hlocated.effectiveStart_eq] at hmeet
    linarith

end Schedule

/-! ## Runs of generations and bookings -/

def Request.createsBooking : Request → Bool
  | createBooking .. => true
  | _ => false

theorem isBusy_occupied (n : ℕ) (x : Slot) : (x.occupied n).isBusy = true := by
  simp only [Slot.isBusy, Slot.occupied, occupancy]
  split
  · rfl
  · split <;> rfl

theorem createBooking_plans {seen s t : Store} {now : Instant} {r : Request}
    (hr : r.createsBooking = true) (h : r.perform seen now s = .ok ((), t)) :
    t.slots.rows.map Slot.plan = s.slots.rows.map Slot.plan ∧
      ((∀ x ∈ s.slots.rows, x.isBusy = true) → ∀ x ∈ t.slots.rows, x.isBusy = true) := by
  cases r with
  | createBooking slot citizen intake actor ip =>
    obtain ⟨b, u, hcreate, h'⟩ := bind_ok.mp h
    cases h'
    obtain ⟨x, policy, hopened, -⟩ := createBooking_ok hcreate
    refine ⟨hopened.slots.map_eq rfl, fun hbusy y hy => ?_⟩
    rcases hopened.slots.mem_iff.mp hy with ⟨hy, -⟩ | rfl
    · exact hbusy y hy
    · exact isBusy_occupied _ x
  | _ => cases hr

/-- Slots of a staff member whose effective intervals overlap -/
def Plan.Collides (p q : Plan) : Prop :=
  p.staff = q.staff ∧
    overlaps p.effectiveStart p.effectiveEnd q.effectiveStart q.effectiveEnd = true

theorem not_collides {p q : Plan}
    (hapart : p.effectiveEnd ≤ q.effectiveStart ∨ q.effectiveEnd ≤ p.effectiveStart) :
    ¬ p.Collides q := by
  rintro ⟨-, hoverlap⟩
  rw [Schedule.overlaps_eq_false.mpr hapart.symm] at hoverlap
  cases hoverlap

theorem Plan.Collides.symm {p q : Plan} (h : p.Collides q) : q.Collides p := by
  obtain ⟨hstaff, hoverlap⟩ := h
  have hmeet := of_decide_eq_true hoverlap
  exact ⟨hstaff.symm, decide_eq_true hmeet.symm⟩

namespace Schedule

variable {h : Schedule}

theorem days_not_collide {d e : ℤ} {w w' : Instant × Instant} {c c' : Candidate} (hlt : d < e)
    (hw : h.Begins d w) (hw' : h.Begins e w') (hc : h.Located w c) (hc' : h.Located w' c') :
    ¬ (h.plan c).Collides (h.plan c') := by
  have hmidnight : h.nextMidnight d ≤ h.dayStart e := h.zone.midnight_le (by omega)
  have hfinish := (hw hc.hasRoom).1.finish
  have hbegins := (hw' hc'.hasRoom).2
  have hroom := hc.room
  have hstart := hc'.start_le
  have heff := hc'.effectiveStart_eq
  refine not_collides (.inl ?_)
  show c.effectiveEnd ≤ c'.effectiveStart
  linarith

theorem slots_isBusy {slots : List Slot} {cs : List Candidate} {pks : List Uuid}
    (hstored : ∀ x ∈ slots, x.isBusy = true) :
    ∀ x ∈ slots ++ List.zipWith h.slot cs pks, x.isBusy = true := by
  intro x hx
  rcases List.mem_append.mp hx with hx | hx
  · exact hstored x hx
  · obtain ⟨c, pk, rfl⟩ := of_mem_slots hx
    rfl

end Schedule

/-- Generations for one staff member are rivals. -/
def collisions : Discipline Request.createsBooking where
  clash := Plan.Collides
  rivals h h' := h.staff = h'.staff
  placed h date w := h.Begins date w
  ready a _ h date := h.Orderly a date
  stored rows := ∀ x ∈ rows, x.isBusy = true
  symm := Plan.Collides.symm
  apart := fun hrivals hclash => of_decide_eq_false hrivals hclash.1
  placed_of_ready := fun hready w hw => (hready.1 w hw).1
  days := fun _ => Schedule.days_not_collide
  day := by
    intro a slots h date cs _ hpolicy hready hday
    exact List.pairwise_map.mpr ((hready.daySlots hpolicy hday).imp not_collides)
  free := by
    intro a slots h date cs _ hpolicy _ hstored hready hday c hc x hx hclash
    have hfree := hready.free hpolicy hday hc hx hclash.1 (hstored x hx)
    exact not_collides (Schedule.overlaps_eq_false.mp hfree) hclash
  empty := List.forall_mem_nil _
  inserted := Schedule.slots_isBusy
  requests := createBooking_plans

instance (a : Agenda) (slots : List Slot) (h : Schedule) (date : ℤ) :
    Decidable (collisions.ready a slots h date) :=
  inferInstanceAs (Decidable (h.Orderly a date))

/-! ## Bookings of a staff member -/

def Office.isTaken (o : Office) (x : Slot) : Prop := 0 < activeBookingCount o.appointments x.pk

/-- No two slots of a staff member that hold an active booking overlap. -/
def Office.NoDoubleBooking (o : Office) : Prop :=
  o.slots.Pairwise fun x y => x.staff = y.staff → o.isTaken x → o.isTaken y →
    overlaps x.effectiveStart x.effectiveEnd y.effectiveStart y.effectiveEnd = false

instance (o : Office) (x : Slot) : Decidable (o.isTaken x) :=
  inferInstanceAs (Decidable (0 < _))

instance (o : Office) : Decidable o.NoDoubleBooking :=
  inferInstanceAs (Decidable (o.slots.Pairwise fun _ _ => _ → _ → _ → _ = false))

/-- As long as every generation meets orderly dates and has no rival when it inserts, no staff
member is booked twice at a time. -/
theorem no_double_booking {s : Pool.State Office Desk}
    (h : ((office Request.createsBooking).machine.under collisions.Holds).Reachable s) :
    s.store.NoDoubleBooking := by
  have hplans := List.pairwise_map.mp (Discipline.kept_of_reachable h).1.plans
  refine hplans.imp fun hclash hstaff _ _ => ?_
  exact Bool.eq_false_of_not_eq_true fun hoverlap => hclash ⟨hstaff, hoverlap⟩

private def frontCounter : AppointmentType :=
  ⟨1, "counter", 1, 30, "in_person", 1, none, true, false⟩

/-- Slots of half an hour, and 5 minutes after each, on a grid of `interval` minutes -/
private def counterShift (interval finish : ℕ) : Office where
  appointments := {
    catalog := {
      appointmentTypes := [frontCounter]
      settings := { slotIntervalMinutes := interval } } }
  agenda := {
    staffProfiles := [⟨5, some 1, [1], true, none⟩]
    templates := [⟨5, 1, 540, finish, 0, none⟩] }

private theorem counterShift_init (allows : Request → Bool) (interval finish : ℕ) :
    (office allows).machine.Init ⟨counterShift interval finish, []⟩ :=
  ⟨⟨⟨rfl, rfl, rfl, nofun, rfl, rfl⟩, rfl⟩, rfl⟩

/-- A generation, and a booking for each of its first two slots -/
private def bothBooked : List (Pool.Label Desk Instant OfficeChange) :=
  .spawn (.generate ⟨frontCounter, 5, 1, 1⟩) :: List.replicate 4 (.act 0 0) ++
    [.spawn (.task (.call (.createBooking 1 7 {} none none) none)), .act 1 0, .act 1 0,
      .spawn (.task (.call (.createBooking 2 8 {} none none) none)), .act 2 0, .act 2 0]

/-- On the grid of a new installation -/
private def collided : Pool.State Office Desk :=
  (office Request.createsBooking).machine.final ⟨counterShift 15 590, []⟩ bothBooked

theorem quarter_hours_collide :
    (office Request.createsBooking).machine.Reachable collided ∧
      ¬ collided.store.NoDoubleBooking := by
  have hinit := counterShift_init Request.createsBooking 15 590
  exact ⟨.final hinit _, by decide +kernel⟩

private def roomy : Pool.State Office Desk :=
  ((office Request.createsBooking).machine.under collisions.Holds).final ⟨counterShift 40 620, []⟩
    bothBooked

theorem roomy_shift_booked : roomy.store.slots.length = 2 ∧
    (∀ x ∈ roomy.store.slots, roomy.store.isTaken x) ∧ roomy.store.NoDoubleBooking := by
  have hinit := counterShift_init Request.createsBooking 40 620
  have hreach := Machine.Reachable.final
    (M := (office Request.createsBooking).machine.under collisions.Holds) hinit bothBooked
  exact ⟨by decide +kernel, by decide +kernel, no_double_booking hreach⟩

end Civicos.Appointments
