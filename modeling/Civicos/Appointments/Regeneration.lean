import Civicos.Appointments.GenerationRuns
import Civicos.Appointments.LocalDays

/-!
# Generating slots again

No constraint keeps two slots of a staff member and a type from starting at the same time. Only the
busy times do, and a slot that is cancelled, or not inserted yet, is none of them.
-/
namespace Civicos.Appointments

open Library Library.Transaction
open Payments (Uuid)

namespace Schedule

variable {h : Schedule} {a : Agenda} {slots : List Slot} {busy : List (Instant × Instant)}
  {date : ℤ} {w w' : Instant × Instant} {c c' : Candidate} {cs : List Candidate}

/-! ## Windows -/

/-- Between its midnights, and in the hours that are searched for busy times -/
structure InDay (h : Schedule) (date : ℤ) (w : Instant × Instant) : Prop where
  start : h.dayStart date ≤ w.1
  finish : w.2 ≤ h.nextMidnight date
  searched : w.2 ≤ h.dayEnd date + h.maxBuffer

instance (h : Schedule) (date : ℤ) (w : Instant × Instant) : Decidable (h.InDay date w) :=
  decidable_of_iff (h.dayStart date ≤ w.1 ∧ w.2 ≤ h.nextMidnight date ∧
      w.2 ≤ h.dayEnd date + h.maxBuffer)
    ⟨fun hw => ⟨hw.1, hw.2.1, hw.2.2⟩, fun hw => ⟨hw.start, hw.finish, hw.searched⟩⟩

/-- Whether a window offers a start when nothing is busy -/
def offers (h : Schedule) (w : Instant × Instant) (start : Instant) : Bool :=
  w.1 ≤ start ∧ (start - w.1) % h.stride = 0 ∧ (h.candidate start).effectiveEnd ≤ w.2 ∧
    h.earliestAllowed ≤ start ∧ ∀ last ∈ h.latestAllowed, start ≤ last

/-- Whether the grids of two windows may share a point -/
def shareGrid (h : Schedule) (w w' : Instant × Instant) : Bool :=
  w'.1 < w.2 ∧ w.1 < w'.2 ∧ (w'.1 - w.1) % h.stride = 0

theorem Located.start_le (hc : h.Located w c) : w.1 ≤ c.startDatetime := by
  obtain ⟨k, rfl⟩ := hc.grid
  exact Int.le_add_of_nonneg_right (Int.mul_nonneg (Int.natCast_nonneg k) h.stride_nonneg)

theorem Located.start_lt (htype : h.appointmentType.isValid = true) (hc : h.Located w c) :
    c.startDatetime < c.effectiveEnd ∧ c.startDatetime < w.2 := by
  obtain ⟨k, hk⟩ := hc.grid
  have hduration : 0 < minutes h.appointmentType.durationMinutes := by
    simp only [AppointmentType.isValid, decide_eq_true_eq] at htype
    exact Int.mul_pos (by omega) (by decide)
  have hbuffer := minutes_nonneg h.policy.bufferAfterMinutes
  have hlt : c.startDatetime < c.effectiveEnd := by
    rw [hk]
    simp only [candidate]
    linarith
  exact ⟨hlt, hlt.trans_le hc.room⟩

theorem Located.mod_stride (hc : h.Located w c) : (c.startDatetime - w.1) % h.stride = 0 := by
  obtain ⟨k, hk⟩ := hc.grid
  have hdiff : c.startDatetime - w.1 = k * h.stride := by
    rw [hk]
    simp [candidate]
  rw [hdiff]
  exact Int.mul_emod_left _ _

/-- Candidates of two windows start at one time only if the grids share the point. -/
theorem Located.ne_of_apart (htype : h.appointmentType.isValid = true)
    (hapart : h.shareGrid w w' = false) (hc : h.Located w c) (hc' : h.Located w' c') :
    c.startDatetime ≠ c'.startDatetime := by
  intro hsame
  have hlt := (hc.start_lt htype).2
  have hlt' := (hc'.start_lt htype).2
  have hle := hc.start_le
  have hle' := hc'.start_le
  have hgrid : (w'.1 - w.1) % h.stride = 0 := by
    have hsplit : w'.1 - w.1 = (c.startDatetime - w.1) - (c'.startDatetime - w'.1) := by
      linarith
    rw [hsplit, Int.sub_emod, hc.mod_stride, hc'.mod_stride]
    simp
  have hshare : h.shareGrid w w' = true := decide_eq_true
    ⟨by linarith, by linarith, hgrid⟩
  rw [hshare] at hapart
  cases hapart

theorem Offered.located (hc : h.Offered busy w c) : h.Located w c := ⟨hc.grid, hc.room⟩

theorem Offered.offers (hc : h.Offered busy w c) : h.offers w c.startDatetime = true := by
  obtain ⟨k, hk⟩ := hc.grid
  have hroom := hc.room
  refine decide_eq_true
    ⟨hc.start_le, hc.located.mod_stride, ?_, hc.lead, fun last hlast => hc.advance last hlast⟩
  rw [hk] at hroom ⊢
  exact hroom

/-- A busy slot of the staff member that starts with a candidate is found. -/
theorem start_ne_of_busy (htype : h.appointmentType.isValid = true)
    (hc : h.Offered (h.busyTimes slots date) w c) (hday : h.InDay date w) {x : Slot}
    (hx : x ∈ slots) (hvalid : Slot.schema.Valid x) (hstaff : x.staff = h.staff)
    (hbusy : x.isBusy = true) : x.startDatetime ≠ c.startDatetime := by
  intro hsame
  have hlt := (hc.located.start_lt htype).1
  have hends : x.startDatetime < x.endDatetime ∧ x.effectiveStart ≤ x.startDatetime ∧
      x.endDatetime ≤ x.effectiveEnd := by
    simp only [Schema.Valid, Slot.schema, condition, List.forall_mem_cons,
      decide_eq_true_eq] at hvalid
    exact ⟨hvalid.1, hvalid.2.2.1, hvalid.2.2.2.1⟩
  obtain ⟨hend, hestart, heend⟩ := hends
  have hbuffer : 0 ≤ h.maxBuffer := minutes_nonneg _
  have hbefore : c.effectiveStart ≤ c.startDatetime := by
    have hminutes := minutes_nonneg h.policy.bufferBeforeMinutes
    rw [hc.effectiveStart_eq]
    linarith
  have hle := hc.start_le
  have hroom := hc.room
  have hstart := hday.start
  have hsearched := hday.searched
  have hfree := hc.free (x.effectiveStart, x.effectiveEnd)
    (mem_busyTimes.mpr ⟨x, hx, hstaff, by linarith, by linarith, hbusy, rfl⟩)
  rcases overlaps_eq_false.mp hfree with hover | hover
  · have hover : x.effectiveEnd ≤ c.effectiveStart := hover
    linarith
  · have hover : c.effectiveEnd ≤ x.effectiveStart := hover
    linarith

/-- A date on which a generation meets no slots that it does not see: its windows are in the day and
share no point of their grids, and none of them offers the start of a slot that is not busy. -/
def Regular (h : Schedule) (a : Agenda) (slots : List Slot) (date : ℤ) : Prop :=
  (∀ w ∈ h.windows a date, h.InDay date w) ∧
    (h.windows a date).Pairwise (fun w w' => h.shareGrid w w' = false) ∧
      ∀ x ∈ slots, x.staff = h.staff → x.appointmentType = h.appointmentType.pk →
        x.isBusy = false → ∀ w ∈ h.windows a date, h.offers w x.startDatetime = false

instance (h : Schedule) (a : Agenda) (slots : List Slot) (date : ℤ) :
    Decidable (h.Regular a slots date) :=
  inferInstanceAs (Decidable (_ ∧ _ ∧ ∀ x ∈ slots, _ → _ → _ → ∀ w ∈ h.windows a date, _))

theorem daySlots_starts (htype : h.appointmentType.isValid = true)
    (hpolicy : h.policy.isValid = true) (hregular : h.Regular a slots date)
    (hday : h.daySlots a slots date = some cs) :
    cs.Pairwise fun c d => c.startDatetime ≠ d.startDatetime := by
  obtain ⟨grid, hgrid, hgrids⟩ := exists_daySlots a slots date hpolicy
  obtain rfl := Option.some.inj (hgrids.symm.trans hday)
  split
  · exact .nil
  refine List.pairwise_flatMap.mpr ⟨fun w _ => (hgrid w).increasing.imp ne_of_lt, ?_⟩
  refine hregular.2.1.imp fun hapart c hc d hd => ?_
  exact Located.ne_of_apart htype hapart (((hgrid _).mem c).mp hc).located
    (((hgrid _).mem d).mp hd).located

theorem daySlots_fresh (htype : h.appointmentType.isValid = true)
    (hpolicy : h.policy.isValid = true) (hvalid : ∀ x ∈ slots, Slot.schema.Valid x)
    (hregular : h.Regular a slots date) (hday : h.daySlots a slots date = some cs) (hc : c ∈ cs)
    {x : Slot} (hx : x ∈ slots) (hstaff : x.staff = h.staff)
    (hkind : x.appointmentType = h.appointmentType.pk) :
    x.startDatetime ≠ c.startDatetime := by
  obtain ⟨-, w, hw, hoffered⟩ := (mem_daySlots hpolicy hday).mp hc
  cases hbusy : x.isBusy with
  | true => exact start_ne_of_busy htype hoffered (hregular.1 w hw) hx (hvalid x hx) hstaff hbusy
  | false =>
    intro hsame
    have hnot := hregular.2.2 x hx hstaff hkind hbusy w hw
    rw [hsame, hoffered.offers] at hnot
    cases hnot

end Schedule

/-! ## Runs of generations and cancellations -/

def Request.cancelsSlot : Request → Bool
  | cancelSlot .. => true
  | _ => false

theorem cancelSlot_plans {seen s t : Store} {now : Instant} {r : Request}
    (hr : r.cancelsSlot = true) (h : r.perform seen now s = .ok ((), t)) :
    t.slots.rows.map Slot.plan = s.slots.rows.map Slot.plan := by
  cases r with
  | cancelSlot slot reason =>
    obtain ⟨y, m, hcancel, h'⟩ := bind_ok.mp h
    cases h'
    unfold Appointments.cancelSlot at hcancel
    obtain ⟨x, hx, h₁⟩ := lookup_bind.mp hcancel
    obtain ⟨-, h₂⟩ := guard_ok h₁
    split at h₂
    · obtain ⟨-, rfl⟩ := pure_ok.mp h₂
      rfl
    · obtain ⟨_, _, ⟨⟩, h₃⟩ := bind_ok.mp h₂
      obtain ⟨-, h₄⟩ := guard_ok h₃
      obtain ⟨T, hT, h₅⟩ := write_bind.mp h₄
      cases h₅
      exact Table.map_update hT fun _ => rfl
  | _ => cases hr

/-- Slots of a staff member and a type that start at one time -/
def Plan.sameStart (p q : Plan) : Prop :=
  p.staff = q.staff ∧ p.appointmentType = q.appointmentType ∧ p.startDatetime = q.startDatetime

/-- Generations for one staff member and type are rivals. -/
def starts : Discipline Request.cancelsSlot where
  clash := Plan.sameStart
  rivals h h' := h.staff = h'.staff ∧ h.appointmentType.pk = h'.appointmentType.pk
  placed h date w := h.InDay date w
  ready a slots h date := h.Regular a slots date
  stored _ := True
  symm := fun ⟨hstaff, hkind, hstart⟩ => ⟨hstaff.symm, hkind.symm, hstart.symm⟩
  apart := fun hrivals hclash => of_decide_eq_false hrivals ⟨hclash.1, hclash.2.1⟩
  placed_of_ready := fun hready => hready.1
  days := by
    intro h d e w w' c c' htype hlt hw hw' hc hc' hclash
    have hmidnight : h.nextMidnight d ≤ h.dayStart e := h.zone.midnight_le (by omega)
    have hbefore := (hc.start_lt htype).2
    have hafter := hc'.start_le
    have hfinish := hw.finish
    have hstart := hw'.start
    have hsame : c.startDatetime = c'.startDatetime := hclash.2.2
    linarith
  day := by
    intro a slots h date cs htype hpolicy hready hday
    refine List.pairwise_map.mpr ((Schedule.daySlots_starts htype hpolicy hready hday).imp ?_)
    exact fun hne hclash => hne hclash.2.2
  free := by
    intro a slots h date cs htype hpolicy hvalid _ hready hday c hc x hx hclash
    exact Schedule.daySlots_fresh htype hpolicy hvalid hready hday hc hx hclash.1 hclash.2.1
      hclash.2.2
  empty := trivial
  inserted _ := trivial
  requests hr h := ⟨cancelSlot_plans hr h, fun _ => trivial⟩

instance (a : Agenda) (slots : List Slot) (h : Schedule) (date : ℤ) :
    Decidable (starts.ready a slots h date) :=
  inferInstanceAs (Decidable (h.Regular a slots date))

/-- No two slots of a staff member and a type start at one time. -/
def Office.StartsOnce (o : Office) : Prop :=
  o.slots.Pairwise fun x y => ¬ (x.staff = y.staff ∧ x.appointmentType = y.appointmentType ∧
    x.startDatetime = y.startDatetime)

instance (o : Office) : Decidable o.StartsOnce :=
  inferInstanceAs (Decidable (o.slots.Pairwise _))

theorem startsOnce_of_reachable {s : Pool.State Office Desk}
    (h : ((office Request.cancelsSlot).machine.under starts.Holds).Reachable s) :
    s.store.StartsOnce :=
  List.pairwise_map.mp (Discipline.kept_of_reachable h).1.plans

/-! ## A generation that nothing interrupts -/

def Desk.alone (now : Instant) : ℕ → Office × Desk → Option (Office × Desk)
  | 0, r => some r
  | n + 1, r => (r.2.generation r.1 now).bind (Desk.alone now n)

variable {o o' : Office} {h : Schedule} {g : Generation} {now : Instant} {n k : ℕ}
  {todo : List ℤ} {found cs : List Candidate} {c : Candidate} {date : ℤ} {pks : List Uuid}

/-- What is found is stored. -/
inductive Stored (o : Office) (h : Schedule) : List Candidate → Office → Prop
  | nothing : Stored o h [] o
  | slots {found slots} (persisted : h.persist found o.appointments.slots = .ok slots) :
      Stored o h found { o with appointments := { o.appointments with slots } }

theorem alone_generated {r : Desk} (hend : Desk.alone now n (o, .generated k) = some (o', r)) :
    o' = o := by
  cases n with
  | zero =>
    cases hend
    rfl
  | succ n => cases hend

/-- What is left to do ends with an insertion, or there is nothing to insert. -/
theorem alone_scanning
    (hend : Desk.alone now n (o, .scanning h todo found) = some (o', .generated k)) :
    ∃ found', (∀ c ∈ found, c ∈ found') ∧ Stored o h found' o' ∧
      ∀ date ∈ todo, ∃ cs, h.daySlots o.agenda o.slots date = some cs ∧ ∀ c ∈ cs, c ∈ found' := by
  induction n generalizing todo found with
  | zero => cases hend
  | succ n ih =>
    obtain ⟨⟨o₁, r⟩, hblock, hrest⟩ := Option.bind_eq_some_iff.mp hend
    cases todo with
    | cons date todo =>
      obtain ⟨results, hday, hr⟩ := Option.map_eq_some_iff.mp hblock
      cases hr
      obtain ⟨found', hfound, hstored, hdates⟩ := ih hrest
      refine ⟨found', fun c hc => hfound c (List.mem_append_left _ hc), hstored, ?_⟩
      intro d hd
      rcases List.mem_cons.mp hd with rfl | hd
      · exact ⟨results, hday, fun c hc => hfound c (List.mem_append_right _ hc)⟩
      · exact hdates d hd
    | nil =>
      refine ⟨found, fun _ hc => hc, ?_, nofun⟩
      cases found with
      | nil =>
        cases hblock
        obtain rfl := alone_generated hrest
        exact .nothing
      | cons c cs =>
        cases hblock
        cases n with
        | zero => cases hrest
        | succ n =>
          obtain ⟨⟨o₂, r⟩, hinsert, hlast⟩ := Option.bind_eq_some_iff.mp hrest
          simp only [Desk.generation] at hinsert
          split at hinsert
          next slots hpersist =>
            cases hinsert
            obtain rfl := alone_generated hlast
            exact .slots hpersist
          · cases hinsert
            cases n with
            | zero => cases hlast
            | succ n => cases hlast

/-! ## A second generation -/

/-- The range of a generation, when it comes again: its windows are in their days and, unless no
time has passed, end within the advance. -/
def Office.Settled (o : Office) (g : Generation) (now now' : Instant) : Prop :=
  now ≤ now' ∧ ∀ h ∈ (o.schedules g.query now).head?, ∀ date ∈ g.query.dates,
    ∀ w ∈ h.windows o.agenda date, h.InDay date w ∧
      (now' = now ∨ ∀ last ∈ h.latestAllowed, w.2 ≤ last)

/-- A candidate that is offered again was offered before. -/
theorem Schedule.Offered.earlier {busy busy' : List (Instant × Instant)} {w : Instant × Instant}
    (htype : h.appointmentType.isValid = true) (hnow : h.now ≤ now)
    (hc : Schedule.Offered { h with now } busy' w c) (hbusy : ∀ b ∈ busy, b ∈ busy')
    (hadvance : now = h.now ∨ ∀ last ∈ h.latestAllowed, w.2 ≤ last) : h.Offered busy w c where
  grid := hc.grid
  room := hc.room
  lead := by
    have hlead : now + hours h.policy.minLeadTimeHours ≤ c.startDatetime := hc.lead
    unfold earliestAllowed
    linarith
  advance := by
    intro last hlast
    rcases hadvance with rfl | hadvance
    · exact hc.advance last hlast
    · have hlt : c.startDatetime < w.2 := (Located.start_lt htype ⟨hc.grid, hc.room⟩).2
      exact hlt.le.trans (hadvance last hlast)
  free b hb := hc.free b (hbusy b hb)

/-- What the second generation finds stored -/
structure Covered (h : Schedule) (slots slots' : List Slot) (found : List Candidate) : Prop where
  kept : ∀ x ∈ slots, x ∈ slots'
  inserted : ∀ c ∈ found, ∃ pk, h.slot c pk ∈ slots'
  used : ∀ start finish, Schedule.spacesUsed h.staff slots' start finish =
    Schedule.spacesUsed h.staff slots start finish

theorem Stored.covered (hstored : Stored o h found o') : Covered h o.slots o'.slots found := by
  cases hstored with
  | nothing => exact ⟨fun _ hx => hx, nofun, fun _ _ => rfl⟩
  | @slots _ t hpersist =>
    obtain ⟨cs, pks, hperm, hlength, hrows⟩ := Schedule.persist_ok hpersist
    have hslots : t.rows = o.slots ++ List.zipWith h.slot cs pks := hrows
    have hmem (x : Slot) : x ∈ t.rows ↔ x ∈ o.slots ∨ x ∈ List.zipWith h.slot cs pks := by
      rw [hslots, List.mem_append]
    refine ⟨fun x hx => (hmem x).mpr (.inl hx), fun c hc => ?_, fun start finish => ?_⟩
    · obtain ⟨pk, hpk⟩ := Schedule.exists_slot (h := h) hlength (hperm.mem_iff.mpr hc)
      exact ⟨pk, (hmem _).mpr (.inr hpk)⟩
    · have hunused : (List.zipWith h.slot cs pks).filter (fun x => x.staff = h.staff ∧
          start ≤ x.startDatetime ∧ x.startDatetime < finish ∧ 0 < x.spacesUsed) = [] := by
        refine List.filter_eq_nil_iff.mpr fun x hx => ?_
        obtain ⟨c, pk, rfl⟩ := Schedule.of_mem_slots hx
        simp [Schedule.slot]
      unfold Schedule.spacesUsed
      show ((List.filter _ t.rows).map (·.spacesUsed)).sum = _
      rw [hslots, List.filter_append, hunused, List.append_nil]

/-- A date offers nothing that a slot was stored for. -/
theorem daySlots_again {slots slots' : List Slot} {a : Agenda}
    (htype : h.appointmentType.isValid = true) (hpolicy : h.policy.isValid = true)
    (hnow : h.now ≤ now) (hvalid : ∀ x ∈ slots', Slot.schema.Valid x)
    (hwindows : ∀ w ∈ h.windows a date, h.InDay date w ∧
      (now = h.now ∨ ∀ last ∈ h.latestAllowed, w.2 ≤ last))
    (hcovered : Covered h slots slots' found)
    (hday : h.daySlots a slots date = some cs) (hfound : ∀ c ∈ cs, c ∈ found) :
    Schedule.daySlots { h with now } a slots' date = some [] := by
  obtain ⟨cs', hday'⟩ : ∃ cs', Schedule.daySlots { h with now } a slots' date = some cs' := by
    obtain ⟨_, -, hgrids⟩ := Schedule.exists_daySlots (h := { h with now }) a slots' date hpolicy
    exact ⟨_, hgrids⟩
  rw [hday']
  refine congrArg some (List.eq_nil_iff_forall_not_mem.mpr fun c hc => ?_)
  obtain ⟨hcap, w, hw, hoffered⟩ :=
    (Schedule.mem_daySlots (h := { h with now }) hpolicy hday').mp hc
  obtain ⟨hinDay, hadvance⟩ := hwindows w hw
  have hbusy : ∀ b ∈ h.busyTimes slots date, b ∈ h.busyTimes slots' date := by
    intro b hb
    obtain ⟨x, hx, hrest⟩ := Schedule.mem_busyTimes.mp hb
    exact Schedule.mem_busyTimes.mpr ⟨x, hcovered.kept x hx, hrest⟩
  have hcap : h.atDailyCap slots date = false := by
    unfold Schedule.atDailyCap at hcap ⊢
    rw [← hcovered.used]
    exact hcap
  have hfirst : c ∈ cs := (Schedule.mem_daySlots hpolicy hday).mpr
    ⟨hcap, w, hw, hoffered.earlier htype hnow hbusy hadvance⟩
  obtain ⟨pk, hpk⟩ := hcovered.inserted c (hfound c hfirst)
  exact Schedule.start_ne_of_busy (h := { h with now }) (w := w) (x := h.slot c pk) htype hoffered
    ⟨hinDay.start, hinDay.finish, hinDay.searched⟩ hpk (hvalid _ hpk) rfl rfl rfl

theorem alone_of_empty (hdays : ∀ date ∈ todo, h.daySlots o.agenda o.slots date = some []) :
    ∃ n, Desk.alone now n (o, .scanning h todo []) = some (o, .generated 0) := by
  induction todo with
  | nil => exact ⟨1, rfl⟩
  | cons date todo ih =>
    obtain ⟨n, hn⟩ := ih fun d hd => hdays d (List.mem_cons_of_mem _ hd)
    refine ⟨n + 1, ?_⟩
    have hblock : (Desk.scanning h (date :: todo) []).generation o now =
        some (o, .scanning h todo []) := by
      simp [Desk.generation, hdays date List.mem_cons_self]
    simp only [Desk.alone, hblock]
    exact hn

theorem schedules_at (o : Office) (q : Query) (now now' : Instant) :
    o.schedules q now' = (o.schedules q now).map fun h => { h with now := now' } := by
  unfold Office.schedules
  rw [List.map_filterMap]
  refine List.filterMap_congr fun p _ => ?_
  unfold Office.schedule
  cases p.location <;> rfl

theorem now_of_mem {q : Query} (hh : h ∈ o.schedules q now) : h.now = now := by
  obtain ⟨p, -, hp⟩ := List.mem_filterMap.mp hh
  obtain ⟨location, -, hlocation⟩ := Option.bind_eq_some_iff.mp hp
  cases hlocation
  rfl

theorem Stored.schedules (hstored : Stored o h found o') (q : Query) :
    o'.schedules q now = o.schedules q now := by
  cases hstored <;> rfl

theorem Stored.agenda (hstored : Stored o h found o') : o'.agenda = o.agenda := by
  cases hstored <;> rfl

/-- A generation that has created what it found creates nothing when it comes again. -/
theorem alone_again {now' : Instant} (hsettled : o.Settled g now now')
    (hend : Desk.alone now n (o, .generate g) = some (o', .generated k)) :
    ∃ m, Desk.alone now' m (o', .generate g) = some (o', .generated 0) := by
  cases n with
  | zero => cases hend
  | succ n =>
    obtain ⟨⟨o₁, r⟩, hblock, hrest⟩ := Option.bind_eq_some_iff.mp hend
    simp only [Desk.generation] at hblock
    split at hblock
    next hnone =>
      cases hblock
      obtain rfl := alone_generated hrest
      refine ⟨1, ?_⟩
      simp [Desk.alone, Desk.generation, schedules_at o' g.query now now', hnone]
    next h hhead =>
      split at hblock
      next hvalid =>
        cases hblock
        obtain ⟨found, -, hstored, hdates⟩ := alone_scanning hrest
        have hnow : h.now = now := now_of_mem (List.mem_of_mem_head? hhead)
        have hempty : ∀ date ∈ g.query.dates,
            Schedule.daySlots { h with now := now' } o'.agenda o'.slots date = some [] := by
          intro date hdate
          obtain ⟨cs, hday, hfound⟩ := hdates date hdate
          rw [hstored.agenda]
          refine daySlots_again hvalid.1 hvalid.2 (hnow ▸ hsettled.1)
            (fun x hx => o'.appointments.slots.valid x hx) ?_ hstored.covered hday hfound
          exact fun w hw => hnow ▸ hsettled.2 h hhead date hdate w hw
        obtain ⟨m, hm⟩ : ∃ m, Desk.alone now' m
            (o', .scanning { h with now := now' } g.query.dates []) = some (o', .generated 0) :=
          alone_of_empty hempty
        refine ⟨m + 1, ?_⟩
        have hblock : (Desk.generate g).generation o' now' =
            some (o', .scanning { h with now := now' } g.query.dates []) := by
          have hhead' : (o'.schedules g.query now').head? = some { h with now := now' } := by
            rw [schedules_at o' g.query now now', hstored.schedules, List.head?_map, hhead]
            rfl
          simp only [Desk.generation, hhead']
          exact if_pos hvalid
        simp only [Desk.alone, hblock]
        exact hm
      · cases hblock

/-! ## Uniqueness of starts -/

/-- As long as every generation is ready for its dates and has no rival when it inserts, no two
slots of a staff member and a type start at one time. A generation over a settled range creates
nothing when it comes again. -/
theorem regeneration {s : Pool.State Office Desk}
    (h : ((office Request.cancelsSlot).machine.under starts.Holds).Reachable s) :
    s.store.StartsOnce ∧ ∀ (g : Generation) (now now' : Instant) (n k : ℕ) (o : Office),
      s.store.Settled g now now' →
        Desk.alone now n (s.store, .generate g) = some (o, .generated k) →
          ∃ m, Desk.alone now' m (o, .generate g) = some (o, .generated 0) :=
  ⟨startsOnce_of_reachable h, fun _ _ _ _ _ _ hsettled hend => alone_again hsettled hend⟩

/-- Half an hour at a time, with room for one slot -/
private def briefShift : Office where
  appointments := {
    catalog := { settings := { slotIntervalMinutes := 30, bufferAfterMinutes := 0 } } }
  agenda := {
    staffProfiles := [⟨5, some 1, [1], true, none⟩]
    templates := [⟨5, 1, 540, 570, 0, none⟩] }

private def briefRange : Generation where
  appointmentType := ⟨1, "counter", 1, 30, "in_person", 1, none, true, false⟩
  staff := 5
  dateFrom := 1
  dateTo := 1

/-- A generation from its first query to its insertion -/
private def wholeGeneration (i : ℕ) : List (Pool.Label Desk Instant OfficeChange) :=
  .spawn (.generate briefRange) :: List.replicate 4 (.act i 0)

private theorem briefShift_init (allows : Request → Bool) :
    (office allows).machine.Init ⟨briefShift, []⟩ :=
  ⟨⟨⟨rfl, rfl, rfl, nofun, rfl, rfl⟩, rfl⟩, rfl⟩

/-- A slot is cancelled between two generations. -/
private def cancelledBetween : Pool.State Office Desk :=
  (office Request.cancelsSlot).machine.final ⟨briefShift, []⟩
    (wholeGeneration 0 ++ [.spawn (.task (.call (.cancelSlot 1 "ill") none)), .act 1 0, .act 1 0] ++
      wholeGeneration 2)

/-- Two generations query before one of them inserts. -/
private def generatedTwice : Pool.State Office Desk :=
  (office Request.cancelsSlot).machine.final ⟨briefShift, []⟩
    ((wholeGeneration 0).dropLast ++ wholeGeneration 1 ++ [.act 0 0])

theorem starts_twice :
    ((office Request.cancelsSlot).machine.Reachable cancelledBetween ∧
      ¬ cancelledBetween.store.StartsOnce) ∧
    (office Request.cancelsSlot).machine.Reachable generatedTwice ∧
      ¬ generatedTwice.store.StartsOnce := by
  have hinit := briefShift_init Request.cancelsSlot
  refine ⟨⟨.final hinit _, ?_⟩, .final hinit _, ?_⟩
  · decide +kernel
  · decide +kernel

private def generatedOnce : Pool.State Office Desk :=
  ((office Request.cancelsSlot).machine.under starts.Holds).final ⟨briefShift, []⟩
    (wholeGeneration 0)

/-- What a generation returns -/
private def Desk.returned : Desk → Option ℕ
  | .generated created => some created
  | _ => none

private theorem returned_eq_some {p : Desk} (h : p.returned = some k) : p = .generated k := by
  cases p with
  | generated created =>
    cases h
    rfl
  | _ => cases h

theorem brief_shift_once : generatedOnce.store.slots.length = 1 ∧
    generatedOnce.store.StartsOnce ∧ briefShift.Settled briefRange 0 (hours 1) ∧
    ∃ o, Desk.alone 0 4 (briefShift, .generate briefRange) = some (o, .generated 1) ∧
      ∃ m, Desk.alone (hours 1) m (o, .generate briefRange) = some (o, .generated 0) := by
  have hinit := briefShift_init Request.cancelsSlot
  have hsettled : briefShift.Settled briefRange 0 (hours 1) := by
    unfold Office.Settled
    decide +kernel
  have hstart : ((office Request.cancelsSlot).machine.under starts.Holds).Reachable
    ⟨briefShift, []⟩ := .start hinit
  have honce : ((office Request.cancelsSlot).machine.under starts.Holds).Reachable
    generatedOnce := .final (M := (office Request.cancelsSlot).machine.under starts.Holds) hinit _
  have hreturned : (Desk.alone 0 4 (briefShift, .generate briefRange)).any
    (fun r => r.2.returned = some 1) = true := by decide +kernel
  obtain ⟨⟨o, p⟩, ho, hp⟩ := (Option.any_eq_true _ _).mp hreturned
  obtain rfl := returned_eq_some (of_decide_eq_true hp)
  exact ⟨by decide +kernel, (regeneration honce).1, hsettled, o, ho,
    (regeneration hstart).2 briefRange 0 (hours 1) 4 1 o hsettled ho⟩

end Civicos.Appointments
