import Civicos.Appointments.Availability
import Mathlib.Tactic.Linarith

/-!
# The slot grid

A window yields the points of its grid with room for the slot and the buffer after it, within the
lead time and the advance of the policy, that overlap no busy time. Nothing is offered on a date at
the daily cap.
-/
namespace Civicos.Appointments

open Library
open Payments (Uuid)

/-- The validators of the fields -/
def AppointmentType.isValid (x : AppointmentType) : Bool :=
  5 ≤ x.durationMinutes ∧ x.durationMinutes ≤ 480 ∧ 1 ≤ x.capacityPerSlot ∧
    x.capacityPerSlot ≤ 100

def SchedulingPolicy.isValid (p : SchedulingPolicy) : Bool :=
  5 ≤ p.slotIntervalMinutes ∧ p.slotIntervalMinutes ≤ 240 ∧ p.bufferBeforeMinutes ≤ 240 ∧
    p.bufferAfterMinutes ≤ 240

theorem minutes_nonneg (n : ℕ) : 0 ≤ minutes n :=
  Int.mul_nonneg (Int.natCast_nonneg n) (by decide)

namespace Schedule

variable {h : Schedule} {a : Agenda} {slots : List Slot} {busy busy' : List (Instant × Instant)}
  {availEnd start : Instant} {fuel : ℕ} {w : Instant × Instant} {date : ℤ} {c d : Candidate}
  {cs : List Candidate}

/-! ## Windows -/

/-- What a window offers -/
structure Offered (h : Schedule) (busy : List (Instant × Instant)) (w : Instant × Instant)
    (c : Candidate) : Prop where
  grid : ∃ k : ℕ, c = h.candidate (w.1 + k * h.stride)
  room : c.effectiveEnd ≤ w.2
  lead : h.earliestAllowed ≤ c.startDatetime
  advance : ∀ last ∈ h.latestAllowed, c.startDatetime ≤ last
  free : ∀ b ∈ busy, overlaps c.effectiveStart c.effectiveEnd b.1 b.2 = false

theorem Offered.of_free (hc : h.Offered busy' w c)
    (hfree : ∀ b ∈ busy, overlaps c.effectiveStart c.effectiveEnd b.1 b.2 = false) :
    h.Offered busy w c := ⟨hc.grid, hc.room, hc.lead, hc.advance, hfree⟩

/-- Whether the loop ends at a point of the grid -/
def stopsAt (h : Schedule) (availEnd start : Instant) : Bool :=
  availEnd < (h.candidate start).effectiveEnd ∨
    (h.earliestAllowed ≤ start ∧ h.latestAllowed.any (· < start))

def takes (h : Schedule) (busy : List (Instant × Instant)) (start : Instant) : Bool :=
  h.earliestAllowed ≤ start ∧ ¬ busy.any fun b =>
    overlaps (h.candidate start).effectiveStart (h.candidate start).effectiveEnd b.1 b.2

theorem walk_eq_scan : h.walk busy availEnd fuel start =
    (scan (· + h.stride) (h.stopsAt availEnd) (h.takes busy) fuel start).map
      (List.map h.candidate) := by
  induction fuel generalizing start with
  | zero => rfl
  | succ fuel ih =>
    unfold walk scan
    simp only [ih, stopsAt, takes]
    by_cases hroom : availEnd < (h.candidate start).effectiveEnd
    · simp [hroom]
    by_cases hlead : start < h.earliestAllowed
    · simp [hroom, hlead, not_le.mpr hlead]
    have hlead' := not_lt.mp hlead
    by_cases hlate : h.latestAllowed.any (· < start) = true
    · simp [hroom, hlead, hlead', hlate]
    by_cases hbusy : (busy.any fun b => overlaps (h.candidate start).effectiveStart
        (h.candidate start).effectiveEnd b.1 b.2) = true
    · simp [hroom, hlead, hlead', hlate, hbusy]
    · simp [hroom, hlead, hlead', hlate, hbusy, Function.comp_def]

theorem stride_nonneg : 0 ≤ h.stride := minutes_nonneg _

theorem stride_pos (hpolicy : h.policy.isValid = true) : 0 < h.stride := by
  simp only [SchedulingPolicy.isValid, decide_eq_true_eq] at hpolicy
  exact Int.mul_pos (by omega) (by decide)

/-- Later points of the grid would end the loop as well. -/
theorem stopsAt_next (hstop : h.stopsAt availEnd start = true) :
    h.stopsAt availEnd (start + h.stride) = true := by
  have hstride := h.stride_nonneg
  simp only [stopsAt, decide_eq_true_eq, Option.any_eq_true] at hstop ⊢
  rcases hstop with hroom | ⟨hlead, last, hlast, hlate⟩
  · refine .inl (lt_of_lt_of_le hroom ?_)
    simp only [candidate]
    linarith
  · exact .inr ⟨by linarith, last, hlast, by linarith⟩

theorem next_iterate (k : ℕ) : (· + h.stride)^[k] start = start + k * h.stride := by
  simp [add_right_iterate]

theorem exists_walk (hpolicy : h.policy.isValid = true) :
    ∃ cs, h.walk busy w.2 (h.turns w) w.1 = some cs := by
  have hstride := stride_pos hpolicy
  obtain ⟨n, hn⟩ : ∃ n : ℕ, n = ((w.2 - w.1) / h.stride).toNat + 1 := ⟨_, rfl⟩
  have hend : h.stopsAt w.2 ((· + h.stride)^[n] w.1) = true := by
    have hlt := Int.lt_ediv_add_one_mul_self (w.2 - w.1) hstride
    have hle : (w.2 - w.1) / h.stride + 1 ≤ (n : ℤ) := by
      have htoNat := Int.self_le_toNat ((w.2 - w.1) / h.stride)
      rw [hn]
      push_cast
      linarith
    have hmul := Int.mul_le_mul_of_nonneg_right hle hstride.le
    have hduration := minutes_nonneg h.appointmentType.durationMinutes
    have hbuffer := minutes_nonneg h.policy.bufferAfterMinutes
    rw [next_iterate]
    refine decide_eq_true (.inl ?_)
    simp only [candidate]
    linarith
  obtain ⟨xs, hxs⟩ : ∃ xs, scan (· + h.stride) (h.stopsAt w.2) (h.takes busy) (n + 1) w.1 =
    some xs := exists_scan hend (Nat.lt_succ_self n)
  refine ⟨xs.map h.candidate, ?_⟩
  rw [walk_eq_scan, turns, ← Nat.succ_eq_add_one, ← hn, hxs]
  rfl

theorem mem_walk (hwalk : h.walk busy w.2 fuel w.1 = some cs) : c ∈ cs ↔ h.Offered busy w c := by
  rw [walk_eq_scan] at hwalk
  obtain ⟨xs, hxs, rfl⟩ := Option.map_eq_some_iff.mp hwalk
  rw [List.mem_map]
  constructor
  · rintro ⟨x, hx, rfl⟩
    obtain ⟨⟨k, rfl⟩, hstop, htakes⟩ := (mem_scan (fun _ => stopsAt_next) hxs).mp hx
    rw [next_iterate] at *
    simp only [stopsAt, takes, decide_eq_true_eq, decide_eq_false_iff_not, not_or, not_and,
      not_lt] at hstop htakes
    refine ⟨⟨k, rfl⟩, hstop.1, htakes.1, fun last hlast => ?_, fun b hb => ?_⟩
    · have hlate := hstop.2 htakes.1
      refine not_lt.mp fun hlt => hlate ?_
      exact (Option.any_eq_true _ _).mpr ⟨last, hlast, decide_eq_true hlt⟩
    · exact Bool.eq_false_of_not_eq_true fun hoverlap =>
        htakes.2 (List.any_eq_true.mpr ⟨b, hb, hoverlap⟩)
  · intro hc
    obtain ⟨k, rfl⟩ := hc.grid
    refine ⟨_, (mem_scan (fun _ => stopsAt_next) hxs).mpr ⟨⟨k, (next_iterate k).symm⟩, ?_, ?_⟩, rfl⟩
    · simp only [stopsAt, decide_eq_false_iff_not, not_or, not_and, Option.any_eq_true,
        decide_eq_true_eq, not_exists, not_lt]
      exact ⟨hc.room, fun _ last hlast => hc.advance last hlast⟩
    · simp only [takes, decide_eq_true_eq, List.any_eq_true, not_exists, not_and]
      exact ⟨hc.lead, fun b hb => by simp [hc.free b hb]⟩

/-- Candidates of a window are at least an interval apart. -/
theorem walk_pairwise (hwalk : h.walk busy availEnd fuel start = some cs) :
    cs.Pairwise fun c d => c.startDatetime + h.stride ≤ d.startDatetime := by
  rw [walk_eq_scan] at hwalk
  obtain ⟨xs, hxs, rfl⟩ := Option.map_eq_some_iff.mp hwalk
  refine List.pairwise_map.mpr (scan_pairwise (fun _ => stopsAt_next) (fun x m => ?_) hxs)
  have hmul := Int.mul_nonneg (Int.natCast_nonneg m) h.stride_nonneg
  rw [next_iterate]
  simp only [candidate]
  push_cast
  linarith

/-- The results of a window: what it offers, in the order of the grid -/
structure GridOf (h : Schedule) (busy : List (Instant × Instant)) (w : Instant × Instant)
    (cs : List Candidate) : Prop where
  mem : ∀ c, c ∈ cs ↔ h.Offered busy w c
  increasing : cs.Pairwise fun c d => c.startDatetime < d.startDatetime

theorem exists_gridOf (busy : List (Instant × Instant)) (w : Instant × Instant)
    (hpolicy : h.policy.isValid = true) :
    ∃ cs, h.walk busy w.2 (h.turns w) w.1 = some cs ∧ h.GridOf busy w cs := by
  obtain ⟨cs, hcs⟩ := exists_walk hpolicy
  have hstride := stride_pos hpolicy
  refine ⟨cs, hcs, fun c => mem_walk hcs, (walk_pairwise hcs).imp fun hle => ?_⟩
  linarith

/-! ## Dates -/

theorem exists_daySlots (a : Agenda) (slots : List Slot) (date : ℤ)
    (hpolicy : h.policy.isValid = true) :
    ∃ grid : Instant × Instant → List Candidate,
      (∀ w, h.GridOf (h.busyTimes slots date) w (grid w)) ∧ h.daySlots a slots date =
        some (if h.atDailyCap slots date then [] else (h.windows a date).flatMap grid) := by
  choose grid hwalk hgrid using fun w => exists_gridOf (h.busyTimes slots date) w hpolicy
  refine ⟨grid, hgrid, ?_⟩
  unfold daySlots
  split
  · rfl
  · rw [mapM_some fun w _ => hwalk w]
    simp [List.flatMap]

theorem mem_daySlots (hpolicy : h.policy.isValid = true)
    (hday : h.daySlots a slots date = some cs) : c ∈ cs ↔ h.atDailyCap slots date = false ∧
      ∃ w ∈ h.windows a date, h.Offered (h.busyTimes slots date) w c := by
  obtain ⟨grid, hgrid, hgrids⟩ := exists_daySlots a slots date hpolicy
  obtain rfl := Option.some.inj (hgrids.symm.trans hday)
  split
  next hcap => simp [hcap]
  next hcap => simp [hcap, (hgrid _).mem]

end Schedule

/-! ## The service -/

namespace Office

variable {o : Office} {q : Query} {now : Instant} {c : Candidate} {results : List Candidate}

/-- What a staff member's day contributes, where `grid` are the results of its windows -/
def dayGrid (o : Office) (h : Schedule) (date : ℤ) (grid : Instant × Instant → List Candidate) :
    List Candidate :=
  if h.atDailyCap o.slots date then [] else (h.windows o.agenda date).flatMap grid

theorem getAvailableSlots_eq (hpolicies : ∀ h ∈ o.schedules q now, h.policy.isValid = true)
    (hblocked : o.citizenBlocked q now = false) :
    ∃ grid : ℤ → Schedule → Instant × Instant → List Candidate,
      (∀ date, ∀ h ∈ o.schedules q now, ∀ w,
        h.GridOf (h.busyTimes o.slots date) w (grid date h w)) ∧
      o.getAvailableSlots q now = some ((q.dates.flatMap fun date =>
        (o.schedules q now).flatMap fun h => o.dayGrid h date (grid date h)).mergeSort
          fun c d => c.startDatetime ≤ d.startDatetime) := by
  have hday (date : ℤ) (h : Schedule) : ∃ grid : Instant × Instant → List Candidate,
      h ∈ o.schedules q now → (∀ w, h.GridOf (h.busyTimes o.slots date) w (grid w)) ∧
        h.daySlots o.agenda o.slots date = some (o.dayGrid h date grid) := by
    by_cases hh : h ∈ o.schedules q now
    · obtain ⟨grid, hgrid, hslots⟩ :=
        Schedule.exists_daySlots o.agenda o.slots date (hpolicies h hh)
      exact ⟨grid, fun _ => ⟨hgrid, hslots⟩⟩
    · exact ⟨fun _ => [], fun hh' => absurd hh' hh⟩
  choose grid hgrid using hday
  refine ⟨grid, fun date h hh => (hgrid date h hh).1, ?_⟩
  have hstaff (date : ℤ) : ((o.schedules q now).mapM fun h => h.daySlots o.agenda o.slots date) =
      some ((o.schedules q now).map fun h => o.dayGrid h date (grid date h)) :=
    mapM_some fun h hh => (hgrid date h hh).2
  unfold getAvailableSlots
  rw [hblocked, mapM_some fun date _ => hstaff date]
  simp [List.flatMap, List.flatten_flatten, Function.comp_def]

theorem exists_getAvailableSlots (hpolicies : ∀ h ∈ o.schedules q now, h.policy.isValid = true) :
    ∃ results, o.getAvailableSlots q now = some results := by
  cases hblocked : o.citizenBlocked q now with
  | true => exact ⟨[], if_pos hblocked⟩
  | false =>
    obtain ⟨grid, -, hresults⟩ := getAvailableSlots_eq hpolicies hblocked
    exact ⟨_, hresults⟩

theorem mem_getAvailableSlots (hpolicies : ∀ h ∈ o.schedules q now, h.policy.isValid = true)
    (hresults : o.getAvailableSlots q now = some results) :
    c ∈ results ↔ o.citizenBlocked q now = false ∧ ∃ date ∈ q.dates, ∃ h ∈ o.schedules q now,
      h.atDailyCap o.slots date = false ∧
        ∃ w ∈ h.windows o.agenda date, h.Offered (h.busyTimes o.slots date) w c := by
  cases hblocked : o.citizenBlocked q now with
  | true =>
    obtain rfl := Option.some.inj ((if_pos hblocked).symm.trans hresults)
    simp
  | false =>
    obtain ⟨grid, hgrid, hsorted⟩ := getAvailableSlots_eq hpolicies hblocked
    obtain rfl := Option.some.inj (hsorted.symm.trans hresults)
    simp only [List.mem_mergeSort, List.mem_flatMap, true_and]
    refine exists_congr fun date => and_congr_right fun _ => exists_congr fun h =>
      and_congr_right fun hh => ?_
    unfold dayGrid
    split
    next hcap => simp [hcap]
    next hcap => simp [hcap, (hgrid date h hh _).mem]

/-- The service ends. The results come in the order of their start, and are those of the windows of
the dates that are not at the daily cap. -/
theorem available_slots (hpolicies : ∀ h ∈ o.schedules q now, h.policy.isValid = true) :
    ∃ results, o.getAvailableSlots q now = some results ∧
      (results.Pairwise fun c d => c.startDatetime ≤ d.startDatetime) ∧
      (o.citizenBlocked q now = true → results = []) ∧
      (o.citizenBlocked q now = false → ∃ grid : ℤ → Schedule → Instant × Instant → List Candidate,
        (∀ date, ∀ h ∈ o.schedules q now, ∀ w,
          h.GridOf (h.busyTimes o.slots date) w (grid date h w)) ∧
        results.Perm (q.dates.flatMap fun date =>
          (o.schedules q now).flatMap fun h => o.dayGrid h date (grid date h))) := by
  cases hblocked : o.citizenBlocked q now with
  | true =>
    exact ⟨[], if_pos hblocked, .nil, fun _ => rfl, nofun⟩
  | false =>
    obtain ⟨grid, hgrid, hresults⟩ := getAvailableSlots_eq hpolicies hblocked
    refine ⟨_, hresults, ?_, nofun, fun _ => ⟨grid, hgrid, List.mergeSort_perm _ _⟩⟩
    refine (List.pairwise_mergeSort ?_ ?_ _).imp of_decide_eq_true
    · intro b c d hbc hcd
      exact decide_eq_true ((of_decide_eq_true hbc).trans (of_decide_eq_true hcd))
    · intro c d
      simpa using le_total c.startDatetime d.startDatetime

/-! ## Deviations -/

/-- The whole effective interval of a candidate fits in its window, and all those that do are
yielded. -/
def YieldsWholeGrid (o : Office) (q : Query) (now : Instant) : Prop :=
  ∃ results, o.getAvailableSlots q now = some results ∧ ∀ c, c ∈ results ↔
    ∃ date ∈ q.dates, ∃ h ∈ o.schedules q now, ∃ w ∈ h.windows o.agenda date,
      h.Offered (h.busyTimes o.slots date) w c ∧ w.1 ≤ c.effectiveStart

/-- Half an hour of any work on a grid of 30 minutes, on the first Monday -/
private def counter : AppointmentType where
  pk := 1
  slug := "counter"
  serviceType := 1

private def monday : Query where
  appointmentType := counter
  dateFrom := 1
  dateTo := 1

/-- One staff member, from nine to ten -/
private def morning (cap : Option ℕ) (before : ℕ) (slots : Table Slot.schema) : Office where
  appointments := {
    slots
    catalog := { settings := {
      slotIntervalMinutes := 30
      bufferBeforeMinutes := before
      bufferAfterMinutes := 0 } } }
  agenda := {
    staffProfiles := [⟨5, some 1, [1], true, cap⟩]
    templates := [⟨5, 1, 540, 600, 0, none⟩] }

/-- One slot in the afternoon, which is taken -/
private def taken : Table Slot.schema :=
  ⟨[⟨1, 1, 5, 1, days 1 + minutes 840, days 1 + minutes 870, days 1 + minutes 840,
    days 1 + minutes 870, 1, 1, .full, ""⟩], by decide, by decide⟩

theorem available_morning : ∃ results,
    (morning none 15 .empty).getAvailableSlots monday 0 = some results ∧
      ∃ c ∈ results, c.startDatetime = days 1 + minutes 570 := by
  have hpolicies : ∀ h ∈ (morning none 15 .empty).schedules monday 0, h.policy.isValid = true := by
    decide +kernel
  have hwalk : ∃ date ∈ monday.dates, ∃ h ∈ (morning none 15 .empty).schedules monday 0,
      h.atDailyCap [] date = false ∧ ∃ w ∈ h.windows (morning none 15 .empty).agenda date,
        ∃ cs, h.walk (h.busyTimes [] date) w.2 (h.turns w) w.1 = some cs ∧
          ∃ c ∈ cs, c.startDatetime = days 1 + minutes 570 := by
    decide +kernel
  obtain ⟨results, hresults, -⟩ := available_slots hpolicies
  obtain ⟨date, hdate, h, hh, hcap, w, hw, cs, hcs, c, hc, hstart⟩ := hwalk
  exact ⟨results, hresults, c, (mem_getAvailableSlots hpolicies hresults).mpr
    ⟨rfl, date, hdate, h, hh, hcap, w, hw, (Schedule.mem_walk hcs).mp hc⟩, hstart⟩

/-- The buffer before a slot may lie before the window, and the daily cap empties a date. -/
theorem not_whole_grid : ¬ (morning none 15 .empty).YieldsWholeGrid monday 0 ∧
    ¬ (morning (some 1) 0 taken).YieldsWholeGrid monday 0 := by
  constructor
  · rintro ⟨results, hresults, hmem⟩
    have hpolicies : ∀ h ∈ (morning none 15 .empty).schedules monday 0,
      h.policy.isValid = true := by decide +kernel
    have hwalk : ∃ date ∈ monday.dates, ∃ h ∈ (morning none 15 .empty).schedules monday 0,
        h.atDailyCap [] date = false ∧ ∃ w ∈ h.windows (morning none 15 .empty).agenda date,
          ∃ cs, h.walk (h.busyTimes [] date) w.2 (h.turns w) w.1 = some cs ∧ ∃ c ∈ cs,
            ∀ date ∈ monday.dates, ∀ h ∈ (morning none 15 .empty).schedules monday 0,
              ∀ w ∈ h.windows (morning none 15 .empty).agenda date, ¬ w.1 ≤ c.effectiveStart := by
      decide +kernel
    obtain ⟨date, hdate, h, hh, hcap, w, hw, cs, hcs, c, hc, hbefore⟩ := hwalk
    have hc : c ∈ results := (mem_getAvailableSlots hpolicies hresults).mpr
      ⟨rfl, date, hdate, h, hh, hcap, w, hw, (Schedule.mem_walk hcs).mp hc⟩
    obtain ⟨date, hdate, h, hh, w, hw, -, hstart⟩ := (hmem c).mp hc
    exact hbefore date hdate h hh w hw hstart
  · rintro ⟨results, hresults, hmem⟩
    have hnone : (morning (some 1) 0 taken).getAvailableSlots monday 0 = some [] := by
      decide +kernel
    obtain rfl := Option.some.inj (hnone.symm.trans hresults)
    have hwalk : ∃ date ∈ monday.dates, ∃ h ∈ (morning (some 1) 0 taken).schedules monday 0,
        ∃ w ∈ h.windows (morning (some 1) 0 taken).agenda date,
          ∃ cs, h.walk (h.busyTimes (morning (some 1) 0 taken).slots date) w.2 (h.turns w) w.1 =
            some cs ∧ ∃ c ∈ cs, w.1 ≤ c.effectiveStart := by
      decide +kernel
    obtain ⟨date, hdate, h, hh, w, hw, cs, hcs, c, hc, hstart⟩ := hwalk
    have hnot := (hmem c).mpr ⟨date, hdate, h, hh, w, hw, (Schedule.mem_walk hcs).mp hc, hstart⟩
    cases hnot

end Office

end Civicos.Appointments
