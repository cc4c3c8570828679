import Civicos.Appointments.SlotGrid
import Mathlib.Algebra.Order.BigOperators.Group.List

/-!
# Local days

A date is searched for busy times, and its bookings are counted, in the 24 hours after its midnight.
That is not enough for the points of the grid that reach past these hours, nor for a day with a cap
that lasts longer.
-/
namespace Civicos.Appointments

open Library
open Payments (Uuid)

namespace Schedule

variable {h : Schedule} {a : Agenda} {t : Table Slot.schema} {slots : List Slot} {date : ℤ}
  {w : Instant × Instant} {busy : List (Instant × Instant)} {c : Candidate} {cs : List Candidate}
  {cap : ℕ}

def nextMidnight (h : Schedule) (date : ℤ) : Instant := h.zone.utc (date + 1) 0

/-- The results of a date overlap no busy slot of the staff member, and there are none on a local
day at the cap. -/
structure RespectsDay (h : Schedule) (a : Agenda) (slots : List Slot) (date : ℤ) : Prop where
  disjoint : ∀ cs, h.daySlots a slots date = some cs → ∀ c ∈ cs, ∀ x ∈ slots, x.staff = h.staff →
    x.isBusy = true →
      overlaps c.effectiveStart c.effectiveEnd x.effectiveStart x.effectiveEnd = false
  capped : ∀ cap ∈ h.maxDailyAppointments,
    cap ≤ spacesUsed h.staff slots (h.dayStart date) (h.nextMidnight date) →
      h.daySlots a slots date = some []

/-- Whether a point of the grid, with its buffers, is in the hours that are searched, and a capped
day lasts at most 24 hours. -/
structure InHours (h : Schedule) (date : ℤ) (c : Candidate) : Prop where
  before : h.dayStart date - h.maxBuffer ≤ c.effectiveStart
  after : c.effectiveEnd ≤ h.dayEnd date + h.maxBuffer
  midnight : h.maxDailyAppointments ≠ none → h.nextMidnight date ≤ h.dayEnd date

/-! ## Enough hours -/

theorem mem_busyTimes {b : Instant × Instant} : b ∈ h.busyTimes slots date ↔
    ∃ x ∈ slots, x.staff = h.staff ∧ x.effectiveStart < h.dayEnd date + h.maxBuffer ∧
      h.dayStart date - h.maxBuffer < x.effectiveEnd ∧ x.isBusy = true ∧
        b = (x.effectiveStart, x.effectiveEnd) := by
  simp only [busyTimes, List.mem_map, List.mem_filter, decide_eq_true_eq]
  constructor
  · rintro ⟨x, ⟨hx, hstaff, hbefore, hafter, hbusy⟩, rfl⟩
    exact ⟨x, hx, hstaff, hbefore, hafter, hbusy, rfl⟩
  · rintro ⟨x, hx, hstaff, hbefore, hafter, hbusy, rfl⟩
    exact ⟨x, ⟨hx, hstaff, hbefore, hafter, hbusy⟩, rfl⟩

theorem overlaps_eq_false {aStart aEnd bStart bEnd : Instant} :
    overlaps aStart aEnd bStart bEnd = false ↔ bEnd ≤ aStart ∨ aEnd ≤ bStart := by
  simp only [overlaps, decide_eq_false_iff_not, not_and_or, not_lt]

/-- What a candidate in the hours meets is found. -/
theorem free_of_inHours (hc : h.Offered (h.busyTimes slots date) w c) (hin : h.InHours date c)
    {x : Slot} (hx : x ∈ slots) (hstaff : x.staff = h.staff) (hbusy : x.isBusy = true) :
    overlaps c.effectiveStart c.effectiveEnd x.effectiveStart x.effectiveEnd = false := by
  by_cases hbefore : x.effectiveStart < h.dayEnd date + h.maxBuffer
  · by_cases hafter : h.dayStart date - h.maxBuffer < x.effectiveEnd
    · exact hc.free (x.effectiveStart, x.effectiveEnd)
        (mem_busyTimes.mpr ⟨x, hx, hstaff, hbefore, hafter, hbusy, rfl⟩)
    · exact overlaps_eq_false.mpr (.inl ((not_lt.mp hafter).trans hin.before))
  · exact overlaps_eq_false.mpr (.inr (hin.after.trans (not_lt.mp hbefore)))

theorem spacesUsed_mono {staff : ℕ} {start finish finish' : Instant} (hle : finish ≤ finish') :
    spacesUsed staff slots start finish ≤ spacesUsed staff slots start finish' := by
  unfold spacesUsed
  refine List.Sublist.sum_le_sum (List.Sublist.map _ ?_) fun _ _ => Nat.zero_le _
  refine List.monotone_filter_right _ fun x hx => ?_
  simp only [decide_eq_true_eq] at hx ⊢
  exact ⟨hx.1, hx.2.1, hx.2.2.1.trans_le hle, hx.2.2.2⟩

theorem daySlots_eq_nil (hpolicy : h.policy.isValid = true)
    (hnone : h.atDailyCap slots date = false → ∀ w ∈ h.windows a date, ∀ c,
      ¬ h.Offered (h.busyTimes slots date) w c) : h.daySlots a slots date = some [] := by
  obtain ⟨grid, hgrid, hslots⟩ := exists_daySlots a slots date hpolicy
  rw [hslots]
  split
  · rfl
  next hcap =>
    congr 1
    refine List.flatMap_eq_nil_iff.mpr fun w hw => List.eq_nil_iff_forall_not_mem.mpr fun c hc => ?_
    exact hnone (by simpa using hcap) w hw c (((hgrid w).mem c).mp hc)

theorem respectsDay_of_inHours (hpolicy : h.policy.isValid = true)
    (hin : ∀ w ∈ h.windows a date, ∀ c, h.Offered [] w c → h.InHours date c) :
    h.RespectsDay a slots date where
  disjoint cs hcs c hc x hx hstaff hbusy := by
    obtain ⟨-, w, hw, hoffered⟩ := (mem_daySlots hpolicy hcs).mp hc
    exact free_of_inHours hoffered (hin w hw c (hoffered.of_free nofun)) hx hstaff hbusy
  capped cap hcap hused := by
    refine daySlots_eq_nil hpolicy fun hbelow w hw c hc => ?_
    have hmidnight := (hin w hw c (hc.of_free nofun)).midnight (by simp [Option.mem_def.mp hcap])
    have hreached : h.atDailyCap slots date = true := (Option.any_eq_true _ _).mpr
      ⟨cap, hcap, decide_eq_true (hused.trans (spacesUsed_mono hmidnight))⟩
    rw [hreached] at hbelow
    cases hbelow

theorem minutes_mono {m n : ℕ} (hle : m ≤ n) : minutes m ≤ minutes n :=
  Int.mul_le_mul_of_nonneg_right (Int.ofNat_le.mpr hle) (by decide)

theorem Offered.start_le (hc : h.Offered busy w c) : w.1 ≤ c.startDatetime := by
  obtain ⟨k, rfl⟩ := hc.grid
  exact Int.le_add_of_nonneg_right (Int.mul_nonneg (Int.natCast_nonneg k) h.stride_nonneg)

theorem Offered.effectiveStart_eq (hc : h.Offered busy w c) :
    c.effectiveStart = c.startDatetime - minutes h.policy.bufferBeforeMinutes := by
  obtain ⟨k, rfl⟩ := hc.grid
  rfl

/-- On a day of at most 24 hours, the windows between its midnights are in the hours. -/
theorem inHours_of_ordinary (hday : h.nextMidnight date ≤ h.dayEnd date)
    (hstart : h.dayStart date ≤ w.1) (hend : w.2 ≤ h.nextMidnight date)
    (hc : h.Offered busy w c) : h.InHours date c where
  before := by
    have hbuffer : minutes h.policy.bufferBeforeMinutes ≤ h.maxBuffer :=
      minutes_mono (le_max_left _ _)
    have hle := hc.start_le
    rw [hc.effectiveStart_eq]
    linarith
  after := by
    have hbuffer : 0 ≤ h.maxBuffer := minutes_nonneg _
    have hroom := hc.room
    linarith
  midnight _ := hday

/-! ## Too few hours -/

section OneSlot

variable {start finish : Instant} {status : SlotStatus} {used : ℕ}

/-- The only slot, for which nothing but its place, its status and its spaces matter -/
def slotAt (h : Schedule) (start finish : Instant) (status : SlotStatus) (used : ℕ) : Slot where
  pk := 1
  appointmentType := h.appointmentType.pk
  staff := h.staff
  location := h.location
  startDatetime := start
  endDatetime := finish
  effectiveStart := start
  effectiveEnd := finish
  capacity := used + 1
  spacesUsed := used
  status

def oneSlot (h : Schedule) (status : SlotStatus) (used : ℕ) (hlt : start < finish) :
    Table Slot.schema where
  rows := [h.slotAt start finish status used]
  valid := by simp [Schema.Valid, Slot.schema, condition, slotAt, hlt]
  apart := List.pairwise_singleton _ _

/-- What the slot neither makes busy nor fills stays on offer. -/
theorem offered_beside (hpolicy : h.policy.isValid = true) (hw : w ∈ h.windows a date)
    (hc : h.Offered [] w c) (hbusy : h.busyTimes slots date = [])
    (hbelow : h.atDailyCap slots date = false) :
    ∃ cs, h.daySlots a slots date = some cs ∧ c ∈ cs := by
  obtain ⟨grid, -, hslots⟩ := exists_daySlots a slots date hpolicy
  refine ⟨_, hslots, (mem_daySlots hpolicy hslots).mpr ⟨hbelow, w, hw, ?_⟩⟩
  rw [hbusy]
  exact hc

theorem busyTimes_of_outside (hout : h.dayEnd date + h.maxBuffer ≤ start ∨
    finish ≤ h.dayStart date - h.maxBuffer) :
    h.busyTimes [h.slotAt start finish status used] date = [] := by
  refine List.eq_nil_iff_forall_not_mem.mpr fun b hb => ?_
  obtain ⟨x, hx, -, hbefore, hafter, -⟩ := mem_busyTimes.mp hb
  obtain rfl := List.mem_singleton.mp hx
  rcases hout with hout | hout
  · exact absurd hbefore (not_lt.mpr hout)
  · exact absurd hafter (not_lt.mpr hout)

theorem spacesUsed_slotAt (finish' : Instant) : spacesUsed h.staff
    [h.slotAt start finish status used] (h.dayStart date) finish' =
      if h.dayStart date ≤ start ∧ start < finish' then used else 0 := by
  unfold spacesUsed
  by_cases hin : h.dayStart date ≤ start ∧ start < finish'
  · rcases Nat.eq_zero_or_pos used with rfl | hused
    · simp [slotAt]
    · simp [slotAt, hin, hused]
  · have hout : ¬ (h.dayStart date ≤ start ∧ start < finish' ∧ 0 < used) :=
      fun hused => hin ⟨hused.1, hused.2.1⟩
    simp [slotAt, hin, hout]

theorem below_cap (hcap : h.maxDailyAppointments ≠ some 0)
    (hout : used = 0 ∨ h.dayEnd date ≤ start) :
    h.atDailyCap [h.slotAt start finish status used] date = false := by
  have hnone : spacesUsed h.staff [h.slotAt start finish status used] (h.dayStart date)
      (h.dayEnd date) = 0 := by
    rw [spacesUsed_slotAt]
    rcases hout with rfl | hout
    · simp
    · exact if_neg fun hin => absurd hin.2 (not_lt.mpr hout)
  refine Bool.eq_false_of_not_eq_true fun hat => ?_
  obtain ⟨cap, hsome, hle⟩ := (Option.any_eq_true _ _).mp hat
  rw [hnone] at hle
  obtain rfl := Nat.le_zero.mp (of_decide_eq_true hle)
  exact hcap hsome

end OneSlot

theorem Offered.effectiveStart_lt (htype : h.appointmentType.isValid = true)
    (hc : h.Offered [] w c) : c.effectiveStart < c.effectiveEnd := by
  obtain ⟨k, rfl⟩ := hc.grid
  have hduration : 0 < minutes h.appointmentType.durationMinutes := by
    simp only [AppointmentType.isValid, decide_eq_true_eq] at htype
    exact Int.mul_pos (by omega) (by decide)
  have hbefore := minutes_nonneg h.policy.bufferBeforeMinutes
  have hafter := minutes_nonneg h.policy.bufferAfterMinutes
  simp only [candidate]
  linarith

/-- A candidate that reaches out of the hours overlaps a slot that is out of them. -/
theorem inHours_of_respectsDay (htype : h.appointmentType.isValid = true)
    (hpolicy : h.policy.isValid = true) (hcap : h.maxDailyAppointments ≠ some 0)
    (hrespects : ∀ t : Table Slot.schema, h.RespectsDay a t.rows date)
    (hw : w ∈ h.windows a date) (hc : h.Offered [] w c) : h.InHours date c := by
  have hlt := hc.effectiveStart_lt htype
  constructor
  · by_contra hbefore
    have hstart := not_le.mp hbefore
    obtain ⟨cs, hcs, hmem⟩ := offered_beside hpolicy hw hc
      (busyTimes_of_outside (.inr le_rfl)) (below_cap hcap (.inl rfl))
    have hoverlap := (hrespects (h.oneSlot .available 0 hstart)).disjoint cs hcs c hmem _
      List.mem_cons_self rfl rfl
    rcases overlaps_eq_false.mp hoverlap with hle | hle
    · exact absurd hstart (not_lt.mpr hle)
    · exact absurd hlt (not_lt.mpr hle)
  · by_contra hafter
    have hend := not_le.mp hafter
    obtain ⟨cs, hcs, hmem⟩ := offered_beside hpolicy hw hc
      (busyTimes_of_outside (.inl le_rfl)) (below_cap hcap (.inl rfl))
    have hoverlap := (hrespects (h.oneSlot .available 0 hend)).disjoint cs hcs c hmem _
      List.mem_cons_self rfl rfl
    rcases overlaps_eq_false.mp hoverlap with hle | hle
    · exact absurd hlt (not_lt.mpr hle)
    · exact absurd hend (not_lt.mpr hle)
  · intro hsome
    by_contra hmidnight
    have hlong := not_le.mp hmidnight
    obtain ⟨cap, hcap'⟩ := Option.ne_none_iff_exists'.mp hsome
    have hstart : h.dayEnd date < h.dayEnd date + 1 := Int.lt_succ _
    have hnone : h.busyTimes [h.slotAt (h.dayEnd date) (h.dayEnd date + 1) .completed cap] date =
        [] := by
      refine List.eq_nil_iff_forall_not_mem.mpr fun b hb => ?_
      obtain ⟨x, hx, -, -, -, hbusy, -⟩ := mem_busyTimes.mp hb
      obtain rfl := List.mem_singleton.mp hx
      cases hbusy
    obtain ⟨cs, hcs, hmem⟩ := offered_beside hpolicy hw hc hnone (below_cap hcap (.inr le_rfl))
    have hday : h.dayStart date ≤ h.dayEnd date := Int.le_add_of_nonneg_right (by decide)
    have hempty := (hrespects (h.oneSlot .completed cap hstart)).capped cap hcap' (by
      simp only [oneSlot, spacesUsed_slotAt, hday, hlong, and_self, if_true, le_refl])
    obtain rfl := Option.some.inj (hempty.symm.trans hcs)
    cases hmem

/-- A date is right for all slots that there may be if and only if nothing is offered beside a cap
of 0, or all that its windows may offer is in the hours that are searched. -/
theorem respectsDay_iff (htype : h.appointmentType.isValid = true)
    (hpolicy : h.policy.isValid = true) :
    (∀ t : Table Slot.schema, h.RespectsDay a t.rows date) ↔ h.maxDailyAppointments = some 0 ∨
      ∀ w ∈ h.windows a date, ∀ c, h.Offered [] w c → h.InHours date c := by
  constructor
  · intro hrespects
    by_cases hcap : h.maxDailyAppointments = some 0
    · exact .inl hcap
    · exact .inr fun w hw c hc => inHours_of_respectsDay htype hpolicy hcap hrespects hw hc
  · rintro (hcap | hin) t
    · have hat : h.atDailyCap t.rows date = true := by simp [atDailyCap, hcap]
      have hnil : h.daySlots a t.rows date = some [] := if_pos hat
      refine ⟨fun cs hcs c hc => ?_, fun _ _ _ => hnil⟩
      obtain rfl := Option.some.inj (hnil.symm.trans hcs)
      cases hc
    · exact respectsDay_of_inHours hpolicy hin

end Schedule

/-! ## The service -/

namespace Office

variable {o : Office} {q : Query} {now : Instant} {c : Candidate} {results : List Candidate}

theorem mem_getAvailableSlots_days
    (hpolicies : ∀ h ∈ o.schedules q now, h.policy.isValid = true)
    (hresults : o.getAvailableSlots q now = some results) : c ∈ results ↔
      o.citizenBlocked q now = false ∧ ∃ date ∈ q.dates, ∃ h ∈ o.schedules q now,
        ∃ cs, h.daySlots o.agenda o.slots date = some cs ∧ c ∈ cs := by
  rw [mem_getAvailableSlots hpolicies hresults]
  refine and_congr_right fun _ => exists_congr fun date => and_congr_right fun _ =>
    exists_congr fun h => and_congr_right fun hh => ?_
  obtain ⟨grid, -, hslots⟩ := Schedule.exists_daySlots o.agenda o.slots date (hpolicies h hh)
  rw [← Schedule.mem_daySlots (hpolicies h hh) hslots]
  constructor
  · exact fun hc => ⟨_, hslots, hc⟩
  · rintro ⟨cs, hcs, hc⟩
    obtain rfl := Option.some.inj (hslots.symm.trans hcs)
    exact hc

theorem appointmentType_of_mem {h : Schedule} (hh : h ∈ o.schedules q now) :
    h.appointmentType = q.appointmentType := by
  obtain ⟨p, -, hp⟩ := List.mem_filterMap.mp hh
  obtain ⟨location, -, hsome⟩ := Option.bind_eq_some_iff.mp hp
  cases hsome
  rfl

/-- What the service returns are the results of the dates. Exactly the dates on which the windows
keep to the hours that are searched are right for all slots. -/
theorem local_days (htype : q.appointmentType.isValid = true)
    (hpolicies : ∀ h ∈ o.schedules q now, h.policy.isValid = true) :
    (∀ results, o.getAvailableSlots q now = some results → ∀ c, c ∈ results ↔
      o.citizenBlocked q now = false ∧ ∃ date ∈ q.dates, ∃ h ∈ o.schedules q now,
        ∃ cs, h.daySlots o.agenda o.slots date = some cs ∧ c ∈ cs) ∧
    ∀ h ∈ o.schedules q now, ∀ date,
      ((∀ t : Table Slot.schema, h.RespectsDay o.agenda t.rows date) ↔
        h.maxDailyAppointments = some 0 ∨
          ∀ w ∈ h.windows o.agenda date, ∀ c, h.Offered [] w c → h.InHours date c) := by
  constructor
  · intro results hresults c
    exact mem_getAvailableSlots_days hpolicies hresults
  · intro h hh date
    have htype' : h.appointmentType.isValid = true := appointmentType_of_mem hh ▸ htype
    exact Schedule.respectsDay_iff htype' (hpolicies h hh)

/-! ## The end of daylight saving time -/

/-- Clocks go back from two to one on day 1, a Monday here. -/
private def clocksBack : TimeZone where
  utc date minute := date * days 1 + minutes minute +
    if date < 1 ∨ date = 1 ∧ minute < 120 then hours 7 else hours 8
  midnight_le {d e} h := by
    have hdays : d * days 1 ≤ e * days 1 := Int.mul_le_mul_of_nonneg_right h (by decide)
    have hhours : hours 7 ≤ hours 8 := by decide
    have hnext (hlt : d < e) : d * days 1 + days 1 ≤ e * days 1 := by
      have hmul : (d + 1) * days 1 ≤ e * days 1 :=
        Int.mul_le_mul_of_nonneg_right (Int.add_one_le_of_lt hlt) (by decide)
      linarith
    split_ifs <;> first | linarith | omega

private def lateShift : Query where
  appointmentType := ⟨1, "counter", 1, 30, "in_person", 1, none, true, false⟩
  dateFrom := 1
  dateTo := 1

/-- One staff member, from ten to five to midnight -/
private def evening (zone : TimeZone) (cap : Option ℕ) (slots : Table Slot.schema) : Office where
  appointments := {
    slots
    catalog := { settings := { bufferAfterMinutes := 0 } } }
  agenda := {
    staffProfiles := [⟨5, some 1, [1], true, cap⟩]
    templates := [⟨5, 1, 1320, 1435, 0, none⟩] }
  zones _ := zone

/-- The slot at a quarter past eleven, which is taken -/
private def lateSlot : Table Slot.schema :=
  ⟨[⟨1, 1, 5, 1, days 2 + minutes 435, days 2 + minutes 465, days 2 + minutes 435,
    days 2 + minutes 465, 1, 1, .full, ""⟩], by decide, by decide⟩

/-- With that slot and a cap of 1, a candidate overlaps the slot, and others are on offer. -/
theorem last_hour_missed : (∃ results,
    (evening clocksBack none lateSlot).getAvailableSlots lateShift 0 = some results ∧
      ∃ c ∈ results, ∃ x ∈ lateSlot.rows, x.staff = c.staffId ∧ x.isBusy = true ∧
        overlaps c.effectiveStart c.effectiveEnd x.effectiveStart x.effectiveEnd = true) ∧
    ∃ h ∈ (evening clocksBack (some 1) lateSlot).schedules lateShift 0,
      1 ≤ Schedule.spacesUsed h.staff lateSlot.rows (h.dayStart 1) (h.nextMidnight 1) ∧
        h.daySlots (evening clocksBack (some 1) lateSlot).agenda lateSlot.rows 1 ≠ some [] := by
  constructor
  · have hpolicies : ∀ h ∈ (evening clocksBack none lateSlot).schedules lateShift 0,
        h.policy.isValid = true := by decide +kernel
    have hday : ∃ h ∈ (evening clocksBack none lateSlot).schedules lateShift 0, ∃ cs,
        h.daySlots (evening clocksBack none lateSlot).agenda lateSlot.rows 1 = some cs ∧
          ∃ c ∈ cs, ∃ x ∈ lateSlot.rows, x.staff = c.staffId ∧ x.isBusy = true ∧
            overlaps c.effectiveStart c.effectiveEnd x.effectiveStart x.effectiveEnd = true := by
      decide +kernel
    obtain ⟨h, hh, cs, hcs, c, hc, hoverlap⟩ := hday
    obtain ⟨results, hresults⟩ := exists_getAvailableSlots hpolicies
    have hmem : c ∈ results := (mem_getAvailableSlots_days hpolicies hresults).mpr
      ⟨rfl, 1, by decide, h, hh, cs, hcs, hc⟩
    exact ⟨results, hresults, c, hmem, hoverlap⟩
  · decide +kernel

/-- On a day of 24 hours nothing is missed. -/
theorem ordinary_evening_respected :
    ∃ h ∈ (evening (.fixed 0) (some 1) .empty).schedules lateShift 0, ∀ t : Table Slot.schema,
      h.RespectsDay (evening (.fixed 0) (some 1) .empty).agenda t.rows 1 := by
  have hpolicies : ∀ h ∈ (evening (.fixed 0) (some 1) .empty).schedules lateShift 0,
      h.policy.isValid = true := by decide +kernel
  have hwindows : ∃ h ∈ (evening (.fixed 0) (some 1) .empty).schedules lateShift 0,
      h.nextMidnight 1 ≤ h.dayEnd 1 ∧ ∀ w ∈ h.windows (evening (.fixed 0) (some 1) .empty).agenda 1,
        h.dayStart 1 ≤ w.1 ∧ w.2 ≤ h.nextMidnight 1 := by
    decide +kernel
  obtain ⟨h, hh, hday, hin⟩ := hwindows
  refine ⟨h, hh, ((local_days rfl hpolicies).2 h hh 1).mpr (.inr fun w hw c hc => ?_)⟩
  exact Schedule.inHours_of_ordinary hday (hin w hw).1 (hin w hw).2 hc

end Office

end Civicos.Appointments
