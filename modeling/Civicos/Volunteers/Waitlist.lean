import Civicos.Volunteers.ShiftSteps

/-!
# Seats and waitlists

The seats of a shift are counted by the confirmed bookings alone. A call that has passed its checks
before the shift starts may still reach its transaction after somebody has been marked as absent;
apart from such late bookings no shift is overbooked, and a seat that becomes free is passed on to
the one who has waited longest.
-/
namespace Civicos.Volunteers

open Library Library.Transaction

variable {s t : Store} {x y : Shift} {b b' next : ShiftBooking} {f g : ShiftBooking → BookingState}
  {k : ℕ} {status : BookingStatus} {w w' : Worker}

/-! ## The state of a shift -/

namespace Store

/-- The bookings of a shift. -/
structure Orderly (s : Store) (x : Shift) : Prop where
  seats : ∀ capacity ∈ s.effectiveCapacity x, s.taken x.pk ≤ capacity
  room : ∀ cap ∈ x.waitlistCap, (s.waitlist x.pk).length ≤ cap
  positions : (s.waitlist x.pk).Pairwise fun a b => a.pk < b.pk ∧ a.rank < b.rank
  passedOn : s.now < x.startDatetime → s.waitlist x.pk ≠ [] →
    ∃ capacity, s.effectiveCapacity x = some capacity ∧ capacity ≤ s.confirmed x.pk
  cancelled : x.isCancelled = true → s.confirmed x.pk = 0 ∧ s.waitlist x.pk = []

/-- An orderly shift whose waitlist is what booking has made of it. -/
structure Kept (s : Store) (x : Shift) : Prop extends s.Orderly x where
  enabled : s.waitlist x.pk ≠ [] → x.waitlistEnabled = true
  placed : ∀ b ∈ s.waitlist x.pk, b.waitlistPosition.isSome = true

theorem mem_waitlist :
    b ∈ s.waitlist k ↔ b ∈ s.bookings.rows ∧ b.shift = k ∧ b.status = .waitlisted :=
  mem_bookingsOf

theorem Same.effectiveCapacity (h : s.Same t) (x : Shift) :
    t.effectiveCapacity x = s.effectiveCapacity x := by
  unfold Store.effectiveCapacity
  rw [h.opportunities]

/-! ## Counting after a step -/

theorem taken_moved (hb : b ∈ s.bookings.rows) :
    Store.taken { s with bookings := s.moved b f } k + (if b.seatedOn k then 1 else 0) =
      s.taken k + if (b.withState f).seatedOn k then 1 else 0 :=
  Numbered.countP_rewrite_row (ShiftBooking.preserves f) hb

theorem confirmed_moved (hb : b ∈ s.bookings.rows) :
    Store.confirmed { s with bookings := s.moved b f } k + (if b.on k .confirmed then 1 else 0) =
      s.confirmed k + if (b.withState f).on k .confirmed then 1 else 0 := by
  unfold confirmed
  rw [length_bookingsOf, length_bookingsOf]
  exact Numbered.countP_rewrite_row (ShiftBooking.preserves f) hb

theorem waitlist_left (hb : b ∈ s.bookings.rows) (hafter : (f b).status ≠ .waitlisted) :
    Store.waitlist { s with bookings := s.moved b f } k =
      (s.waitlist k).filter fun a => a.pk ≠ b.pk :=
  Numbered.filter_rewrite_out (ShiftBooking.preserves f) hb
    (by simp [ShiftBooking.withState, hafter])

section Joined

variable (hrows : t.bookings.rows = s.bookings.rows ++ [b])
include hrows

theorem taken_joined : t.taken k = s.taken k + if b.shift = k ∧ b.status.seated then 1 else 0 := by
  unfold taken
  rw [hrows, List.countP_append, List.countP_singleton]
  simp [ShiftBooking.seatedOn]

theorem bookingsOf_joined : t.bookingsOf k status =
    s.bookingsOf k status ++ if b.shift = k ∧ b.status = status then [b] else [] := by
  unfold bookingsOf
  rw [hrows, List.filter_append, List.filter_singleton]
  simp

end Joined

end Store

/-! ## One step -/

theorem rank_lt_next (hplaced : ∀ b ∈ s.waitlist k, b.waitlistPosition.isSome = true)
    (hb : b ∈ s.waitlist k) : b.rank < WithTop.some (nextPosition (s.waitlist k)) := by
  obtain ⟨position, hposition⟩ := Option.isSome_iff_exists.mp (hplaced b hb)
  have hmem : position ∈ (s.waitlist k).filterMap (·.waitlistPosition) :=
    List.mem_filterMap.mpr ⟨b, hb, hposition⟩
  have hlt : position < nextPosition (s.waitlist k) :=
    Nat.lt_succ_of_le (List.le_max?_getD_of_mem hmem)
  unfold ShiftBooking.rank
  rw [hposition]
  exact WithTop.coe_lt_coe.mpr hlt

namespace Store

/-- Nobody joins, and the waitlist loses people only. -/
theorem Kept.of_sublist (h : s.Kept x) (hcapacity : t.effectiveCapacity x = s.effectiveCapacity x)
    (htaken : t.taken x.pk ≤ s.taken x.pk) (hwaitlist : (t.waitlist x.pk).Sublist (s.waitlist x.pk))
    (hconfirmed : t.now < x.startDatetime → t.waitlist x.pk ≠ [] →
      s.now < x.startDatetime ∧ s.confirmed x.pk ≤ t.confirmed x.pk)
    (hcancelled : x.isCancelled = true → t.confirmed x.pk ≤ s.confirmed x.pk) : t.Kept x where
  seats capacity hc := htaken.trans (h.seats capacity (hcapacity ▸ hc))
  room cap hcap := hwaitlist.length_le.trans (h.room cap hcap)
  positions := h.positions.sublist hwaitlist
  passedOn hearly hne := by
    obtain ⟨hearly', hle⟩ := hconfirmed hearly hne
    obtain ⟨capacity, hc, hfull⟩ := h.passedOn hearly' fun hnil =>
      hne (by simpa [hnil] using hwaitlist)
    exact ⟨capacity, hcapacity.trans hc, hfull.trans hle⟩
  cancelled hx := by
    obtain ⟨hzero, hnil⟩ := h.cancelled hx
    have hle := hcancelled hx
    exact ⟨by omega, by simpa [hnil] using hwaitlist⟩
  enabled hne := h.enabled fun hnil => hne (by simpa [hnil] using hwaitlist)
  placed b hb := h.placed b (hwaitlist.subset hb)

/-- Nothing happens to the bookings of the shift, while time may pass. -/
theorem Kept.of_same (h : s.Kept x) (hcapacity : t.effectiveCapacity x = s.effectiveCapacity x)
    (htaken : t.taken x.pk = s.taken x.pk)
    (hof : ∀ status, t.bookingsOf x.pk status = s.bookingsOf x.pk status) (hnow : s.now ≤ t.now) :
    t.Kept x := by
  have hconfirmed : t.confirmed x.pk = s.confirmed x.pk := congrArg List.length (hof .confirmed)
  have hwaitlist : t.waitlist x.pk = s.waitlist x.pk := hof .waitlisted
  exact h.of_sublist hcapacity htaken.le (hwaitlist ▸ List.Sublist.refl _)
    (fun hearly _ => ⟨hnow.trans_lt hearly, hconfirmed.ge⟩) fun _ => hconfirmed.le

theorem Kept.joined (h : s.Kept x) (hsame : s.Same t) (hshift : b.shift = x.pk)
    (hpk : b.pk = s.bookings.next) (live : x.isCancelled = false)
    (hrows : t.bookings.rows = s.bookings.rows ++ [b]) (hjoins : Joins s x b)
    (hseats : ∀ capacity ∈ s.effectiveCapacity x, s.confirmed x.pk < capacity →
      s.taken x.pk < capacity) : t.Kept x := by
  have htaken := taken_joined (k := x.pk) hrows
  have hconfirmed :
      t.confirmed x.pk = s.confirmed x.pk + if b.status = .confirmed then 1 else 0 := by
    unfold confirmed
    rw [bookingsOf_joined hrows, List.length_append]
    by_cases hb : b.status = .confirmed <;> simp [hb, hshift]
  have hwaitlist :
      t.waitlist x.pk = s.waitlist x.pk ++ if b.status = .waitlisted then [b] else [] := by
    unfold waitlist
    rw [bookingsOf_joined hrows]
    simp [hshift]
  cases hjoins with
  | seated hstatus free =>
    simp only [hstatus, hshift, BookingStatus.seated, and_self, if_true, reduceCtorEq, if_false,
      List.append_nil] at htaken hconfirmed hwaitlist
    refine ⟨⟨fun capacity hc => ?_, fun cap hcap => ?_, ?_, fun hearly hne => ?_, fun hx => ?_⟩,
      fun hne => ?_, fun a ha => ?_⟩
    · rw [hsame.effectiveCapacity] at hc
      have hlt := hseats capacity hc (free capacity hc)
      omega
    · exact hwaitlist ▸ h.room cap hcap
    · exact hwaitlist ▸ h.positions
    · obtain ⟨capacity, hc, hfull⟩ := h.passedOn (hsame.now ▸ hearly) (hwaitlist ▸ hne)
      exact ⟨capacity, (hsame.effectiveCapacity x).trans hc, by omega⟩
    · rw [live] at hx
      cases hx
    · exact h.enabled (hwaitlist ▸ hne)
    · exact h.placed a (hwaitlist ▸ ha)
  | @waits capacity hstatus hcapacity full enabled room hposition =>
    simp only [hstatus, BookingStatus.seated, and_false, if_true, reduceCtorEq, if_false,
      Nat.add_zero, Bool.false_eq_true] at htaken hconfirmed hwaitlist
    refine ⟨⟨fun capacity hc => ?_, fun cap hcap => ?_, ?_, fun hearly hne => ?_, fun hx => ?_⟩,
      fun hne => ?_, fun a ha => ?_⟩
    · rw [hsame.effectiveCapacity] at hc
      exact htaken ▸ h.seats capacity hc
    · rw [hwaitlist, List.length_append]
      exact room cap hcap
    · rw [hwaitlist]
      refine List.pairwise_append.mpr
        ⟨h.positions, List.pairwise_singleton _ _, fun a ha c hc => ?_⟩
      obtain rfl := List.mem_singleton.mp hc
      refine ⟨hpk ▸ s.bookings.used a (mem_waitlist.mp ha).1, ?_⟩
      have hrank : c.rank = some (nextPosition (s.waitlist x.pk)) := hposition
      rw [hrank]
      exact rank_lt_next h.placed ha
    · exact ⟨capacity, (hsame.effectiveCapacity x).trans hcapacity, by omega⟩
    · rw [live] at hx
      cases hx
    · exact enabled
    · rcases List.mem_append.mp (hwaitlist ▸ ha) with ha | ha
      · exact h.placed a ha
      · obtain rfl := List.mem_singleton.mp ha
        rw [hposition]
        rfl

theorem Kept.moved {c : Call} (h : s.Kept x) (hx : x ∈ s.shifts.rows) (hsame : s.Same t)
    (hb : b ∈ s.bookings.rows) (hbookings : t.bookings = s.moved b f)
    (hmoves : Moves c s b (f b).status)
    (hlate : c.ends = some b.pk → b.shift = x.pk → x.startDatetime ≤ s.now) : t.Kept x := by
  have htaken : t.taken x.pk + (if b.seatedOn x.pk then 1 else 0) =
      s.taken x.pk + if (b.withState f).seatedOn x.pk then 1 else 0 := by
    unfold taken
    rw [hbookings]
    exact taken_moved hb
  have hconfirmed : t.confirmed x.pk + (if b.on x.pk .confirmed then 1 else 0) =
      s.confirmed x.pk + if (b.withState f).on x.pk .confirmed then 1 else 0 := by
    unfold confirmed bookingsOf
    rw [hbookings]
    exact confirmed_moved hb
  have hwaitlist : t.waitlist x.pk = (s.waitlist x.pk).filter fun a => a.pk ≠ b.pk := by
    unfold waitlist bookingsOf
    rw [hbookings]
    refine waitlist_left hb ?_
    cases hmoves with
    | left _ his => simp [his]
    | freed _ his _ => simp [his]
    | ended _ _ his =>
      intro hwaits
      rw [hwaits] at his
      cases his.1
  have hsub : (t.waitlist x.pk).Sublist (s.waitlist x.pk) := hwaitlist ▸ List.filter_sublist
  simp only [ShiftBooking.seatedOn, ShiftBooking.on, ShiftBooking.withState] at htaken hconfirmed
  cases hmoves with
  | left hwas his =>
    simp only [hwas, his, BookingStatus.seated, Bool.false_eq_true, reduceCtorEq, and_false,
      decide_false, if_false, Nat.add_zero] at htaken hconfirmed
    exact h.of_sublist (hsame.effectiveCapacity x) htaken.le hsub
      (fun hearly _ => ⟨hsame.now ▸ hearly, hconfirmed.ge⟩) fun _ => hconfirmed.le
  | freed hwas his hnone =>
    simp only [hwas, his, BookingStatus.seated, Bool.false_eq_true, reduceCtorEq, and_false,
      and_true, decide_false, if_false, Nat.add_zero] at htaken hconfirmed
    refine h.of_sublist (hsame.effectiveCapacity x) (by omega) hsub (fun hearly hne => ?_)
      fun _ => by omega
    have hother : b.shift ≠ x.pk := by
      intro hshift
      have hnil : s.waitlist x.pk = [] := by
        by_contra hwaits
        exact hwaits (hshift ▸ hnone x hx hshift.symm (h.enabled hwaits))
      exact hne (by simpa [hnil] using hsub)
    rw [if_neg (by simpa using hother)] at hconfirmed
    exact ⟨hsame.now ▸ hearly, by omega⟩
  | ended hcall hwas his =>
    have hseated : BookingStatus.confirmed.seated = true := rfl
    simp only [hwas, hseated, his.1, his.2, and_true, and_false, decide_false, Bool.false_eq_true,
      if_false, Nat.add_zero] at htaken hconfirmed
    refine h.of_sublist (hsame.effectiveCapacity x) (by omega) hsub (fun hearly hne => ?_)
      fun _ => by omega
    have hother : b.shift ≠ x.pk := by
      intro hshift
      rw [hsame.now] at hearly
      exact absurd hearly (not_lt.mpr (hlate hcall hshift))
    rw [if_neg (by simpa using hother)] at hconfirmed
    exact ⟨hsame.now ▸ hearly, by omega⟩

theorem Kept.promoted (h : s.Kept x) (hsame : s.Same t) (hb : b ∈ s.bookings.rows)
    (hwas : b.status = .confirmed) (hleft : (f b).status = .cancelled)
    (hnext : nextUp (s.waitlist b.shift) = some next) (hin : (g next).status = .confirmed)
    (hbookings : t.bookings = Store.moved { s with bookings := s.moved b f } next g) :
    t.Kept x := by
  obtain ⟨hmem, hshift, hwaits⟩ := mem_waitlist.mp (List.argmin_mem hnext)
  have hne : next.pk ≠ b.pk := by
    intro hpk
    rw [Table.eq_of_pk hmem hb hpk, hwas] at hwaits
    cases hwaits
  have hmem' : next ∈ (s.moved b f).rows :=
    (Numbered.mem_rewrite_row (ShiftBooking.preserves f) hb).mpr (.inl ⟨hmem, hne⟩)
  have htaken : t.taken x.pk = s.taken x.pk := by
    have h₁ := taken_moved (k := x.pk) (f := f) hb
    have h₂ := taken_moved (s := { s with bookings := s.moved b f }) (k := x.pk) (f := g) hmem'
    have hcount : t.taken x.pk = Store.taken { s with
        bookings := Store.moved { s with bookings := s.moved b f } next g } x.pk := by
      unfold taken
      rw [hbookings]
    simp only [ShiftBooking.seatedOn, ShiftBooking.withState, hwas, hleft, hwaits, hin,
      hshift, BookingStatus.seated, Bool.false_eq_true, and_false, and_true, decide_false, if_false,
      Nat.add_zero] at h₁ h₂
    omega
  have hconfirmed : t.confirmed x.pk = s.confirmed x.pk := by
    have h₁ := confirmed_moved (k := x.pk) (f := f) hb
    have h₂ := confirmed_moved (s := { s with bookings := s.moved b f }) (k := x.pk) (f := g) hmem'
    have hcount : t.confirmed x.pk = Store.confirmed { s with
        bookings := Store.moved { s with bookings := s.moved b f } next g } x.pk := by
      unfold confirmed bookingsOf
      rw [hbookings]
    simp only [ShiftBooking.on, ShiftBooking.withState, hwas, hleft, hwaits, hin, hshift,
      reduceCtorEq, and_false, and_true, decide_false, Bool.false_eq_true, if_false,
      Nat.add_zero] at h₁ h₂
    omega
  have hsub : (t.waitlist x.pk).Sublist (s.waitlist x.pk) := by
    have h₁ := waitlist_left (k := x.pk) (f := f) hb (by simp [hleft])
    have h₂ := waitlist_left (s := { s with bookings := s.moved b f }) (k := x.pk) (f := g) hmem'
      (by simp [hin])
    have hlist : t.waitlist x.pk = Store.waitlist { s with
        bookings := Store.moved { s with bookings := s.moved b f } next g } x.pk := by
      unfold waitlist bookingsOf
      rw [hbookings]
    rw [hlist, h₂, h₁]
    exact List.filter_sublist.trans List.filter_sublist
  exact h.of_sublist (hsame.effectiveCapacity x) htaken.le hsub
    (fun hearly _ => ⟨hsame.now ▸ hearly, hconfirmed.ge⟩) fun _ => hconfirmed.le

section Withdrawn

variable (hbookings : t.bookings = s.bookings.rewrite
  (fun b => b.shift = y.pk ∧ b.status.cancellable) (.withState g) (ShiftBooking.preserves g))
include hbookings

theorem filter_withdrawn {q : ShiftBooking → Bool} (h : ∀ b ∈ s.bookings.rows, b.shift = y.pk →
    q b = false ∧ q (b.withState g) = false) :
    t.bookings.rows.filter q = s.bookings.rows.filter q := by
  rw [hbookings]
  refine Numbered.filter_rewrite_apart (ShiftBooking.preserves g) fun a ha hp => h a ha ?_
  exact (decide_eq_true_eq.mp hp).1

/-- The bookings of other shifts. -/
theorem Kept.withdrawn_other (h : s.Kept x) (hne : x.pk ≠ y.pk) (hnow : t.now = s.now)
    (hopportunities : t.opportunities = s.opportunities) : t.Kept x := by
  have hof : ∀ status, t.bookingsOf x.pk status = s.bookingsOf x.pk status := fun status =>
    filter_withdrawn hbookings fun b _ hb => by simp [ShiftBooking.withState, hb, hne.symm]
  have htaken : t.taken x.pk = s.taken x.pk := by
    unfold taken
    rw [List.countP_eq_length_filter, List.countP_eq_length_filter, filter_withdrawn hbookings]
    exact fun b _ hb => by simp [ShiftBooking.seatedOn, ShiftBooking.withState, hb, hne.symm]
  refine h.of_same ?_ htaken hof hnow.ge
  unfold effectiveCapacity
  rw [hopportunities]

/-- A cancelled shift has no live bookings left. -/
theorem bookingsOf_withdrawn (hstate : ∀ b, (g b).status = .cancelled)
    (hstatus : status.cancellable = true) : t.bookingsOf y.pk status = [] := by
  refine List.filter_eq_nil_iff.mpr fun b hb hlive => ?_
  rw [hbookings] at hb
  obtain ⟨a, -, rfl⟩ := Numbered.mem_rewrite.mp hb
  obtain ⟨hshift, his⟩ := of_decide_eq_true hlive
  split at hshift
  next hwithdrawn =>
    rw [if_pos hwithdrawn] at his
    have hcancelled : status = .cancelled := his.symm.trans (hstate a)
    rw [hcancelled] at hstatus
    cases hstatus
  next hother =>
    rw [if_neg hother] at his
    exact hother (by simpa [his] using ⟨hshift, hstatus⟩)

theorem taken_withdrawn (hstate : ∀ b, (g b).status = .cancelled) : t.taken k ≤ s.taken k := by
  unfold taken
  rw [hbookings, Numbered.rows_rewrite, List.countP_map]
  refine List.countP_mono_left fun b _ hseated => ?_
  simp only [Function.comp] at hseated
  split at hseated
  · simp [ShiftBooking.seatedOn, ShiftBooking.withState, hstate, BookingStatus.seated] at hseated
  · exact hseated

theorem Kept.withdrawn {f : Shift → ShiftState} (h : s.Kept x) (hpk : x.pk = y.pk)
    (hopportunities : t.opportunities = s.opportunities)
    (hstate : ∀ b, (g b).status = .cancelled) : t.Kept (x.withState f) := by
  have hnil : t.waitlist x.pk = [] := hpk ▸ bookingsOf_withdrawn hbookings hstate rfl
  have hzero : t.confirmed x.pk = 0 := by
    unfold confirmed
    rw [hpk, bookingsOf_withdrawn hbookings hstate rfl]
    rfl
  have hcapacity : t.effectiveCapacity (x.withState f) = s.effectiveCapacity x := by
    unfold effectiveCapacity
    rw [hopportunities]
    rfl
  change t.waitlist (x.withState f).pk = [] at hnil
  refine ⟨⟨fun capacity hc => ?_, fun cap _ => ?_, ?_, fun _ hne => absurd hnil hne,
    fun _ => ⟨hzero, hnil⟩⟩, fun hne => absurd hnil hne, fun b hb => ?_⟩
  · rw [hcapacity] at hc
    exact (taken_withdrawn hbookings hstate).trans (h.seats capacity hc)
  · rw [hnil]
    exact Nat.zero_le _
  · rw [hnil]
    exact .nil
  · rw [hnil] at hb
    cases hb

end Withdrawn

end Store

/-- One step: a late booking is the only thing that overbooks a shift. -/
theorem Change.kept_all {c : Call} (h : Change c s t) (hs : ∀ x ∈ s.shifts.rows, s.Kept x)
    (hseats : ∀ x ∈ s.shifts.rows, c.books = some x.pk → ∀ capacity ∈ s.effectiveCapacity x,
      s.confirmed x.pk < capacity → s.taken x.pk < capacity)
    (hlate : ∀ b ∈ s.bookings.rows, c.ends = some b.pk → ∀ x ∈ s.shifts.rows, b.shift = x.pk →
      x.startDatetime ≤ s.now) : ∀ x ∈ t.shifts.rows, t.Kept x := by
  intro x hx
  cases h with
  | kept same hbookings =>
    rw [same.shifts] at hx
    have hof : ∀ status, t.bookingsOf x.pk status = s.bookingsOf x.pk status := fun status => by
      unfold Store.bookingsOf
      rw [hbookings]
    have htaken : t.taken x.pk = s.taken x.pk := by
      unfold Store.taken
      rw [hbookings]
    exact (hs x hx).of_same (same.effectiveCapacity x) htaken hof same.now.ge
  | @joined y b hcall same hy live hshift hpk hrows hjoins =>
    rw [same.shifts] at hx
    by_cases hpk' : y.pk = x.pk
    · obtain rfl : y = x := Table.eq_of_pk hy hx hpk'
      exact (hs y hx).joined same hshift hpk live hrows hjoins (hseats y hx hcall)
    · have hne : b.shift ≠ x.pk := fun h => hpk' (hshift.symm.trans h)
      have hof : ∀ status, t.bookingsOf x.pk status = s.bookingsOf x.pk status := fun status => by
        simp [Store.bookingsOf_joined hrows, hne]
      have htaken : t.taken x.pk = s.taken x.pk := by
        simp [Store.taken_joined hrows, hne]
      exact (hs x hx).of_same (same.effectiveCapacity x) htaken hof same.now.ge
  | moved same hb hbookings hmoves =>
    rw [same.shifts] at hx
    exact (hs x hx).moved hx same hb hbookings hmoves fun hcall hshift =>
      hlate _ hb hcall x hx hshift
  | promoted same _ _ hb hwas hleft hnext hin hbookings =>
    rw [same.shifts] at hx
    exact (hs x hx).promoted same hb hwas hleft hnext hin hbookings
  | withdrawn hnow hopportunities hy hshifts hstate hbookings =>
    rw [hshifts] at hx
    obtain ⟨z, hz, rfl⟩ := Numbered.mem_rewrite.mp hx
    split
    next hpk => exact (hs z hz).withdrawn hbookings (by simpa using hpk) hopportunities hstate
    next hpk =>
      exact (hs z hz).withdrawn_other hbookings (by simpa using hpk) hnow hopportunities

/-! ## Runs -/

/-- Rows stay, with the columns that are fixed. -/
structure Store.Persists (s t : Store) : Prop where
  now : s.now ≤ t.now
  bookings : ∀ b ∈ s.bookings.rows, ∃ b' ∈ t.bookings.rows, b'.pk = b.pk ∧ b'.shift = b.shift
  shifts : ∀ x ∈ s.shifts.rows, ∃ x' ∈ t.shifts.rows, x'.pk = x.pk ∧
    x'.startDatetime = x.startDatetime

theorem Store.Persists.refl (s : Store) : s.Persists s :=
  ⟨le_rfl, fun b hb => ⟨b, hb, rfl, rfl⟩, fun x hx => ⟨x, hx, rfl, rfl⟩⟩

theorem bookings_rewrite {p : ShiftBooking → Bool} (hb : b ∈ s.bookings.rows) :
    ∃ b' ∈ (s.bookings.rewrite p (.withState f) (ShiftBooking.preserves f)).rows,
      b'.pk = b.pk ∧ b'.shift = b.shift := by
  refine ⟨_, Numbered.mem_rewrite.mpr ⟨b, hb, rfl⟩, ?_⟩
  split <;> exact ⟨rfl, rfl⟩

theorem Change.persists {c : Call} (h : Change c s t) : s.Persists t := by
  have hsame (same : s.Same t) : ∀ x ∈ s.shifts.rows, ∃ x' ∈ t.shifts.rows, x'.pk = x.pk ∧
      x'.startDatetime = x.startDatetime := fun x hx => ⟨x, same.shifts ▸ hx, rfl, rfl⟩
  cases h with
  | kept same hbookings =>
    exact ⟨same.now.ge, fun b hb => ⟨b, hbookings ▸ hb, rfl, rfl⟩, hsame same⟩
  | joined _ same _ _ _ _ hrows =>
    exact ⟨same.now.ge, fun b hb => ⟨b, hrows ▸ List.mem_append_left _ hb, rfl, rfl⟩, hsame same⟩
  | moved same _ hbookings =>
    exact ⟨same.now.ge, fun b hb => hbookings ▸ bookings_rewrite hb, hsame same⟩
  | promoted same _ _ _ _ _ _ _ hbookings =>
    refine ⟨same.now.ge, fun b hb => ?_, hsame same⟩
    obtain ⟨b₁, hb₁, hpk₁, hshift₁⟩ := bookings_rewrite hb
    obtain ⟨b₂, hb₂, hpk₂, hshift₂⟩ :=
      bookings_rewrite (s := { s with bookings := s.moved _ _ }) hb₁
    exact ⟨b₂, hbookings ▸ hb₂, hpk₂.trans hpk₁, hshift₂.trans hshift₁⟩
  | withdrawn hnow _ _ hshifts _ hbookings =>
    refine ⟨hnow.ge, fun b hb => hbookings ▸ bookings_rewrite hb, fun x hx => ?_⟩
    rw [hshifts]
    refine ⟨_, Numbered.mem_rewrite.mpr ⟨x, hx, rfl⟩, ?_⟩
    split <;> exact ⟨rfl, rfl⟩

/-- A call that ends a booking has found that the shift has begun. -/
def Store.Begun (s : Store) : Worker → Prop
  | .checked c => ∀ booking, c.ends = some booking → ∃ b ∈ s.bookings.rows, b.pk = booking ∧
      ∃ x ∈ s.shifts.rows, x.pk = b.shift ∧ x.startDatetime ≤ s.now
  | _ => True

theorem Store.Begun.of_persists (h : s.Begun w) (hpersists : s.Persists t) : t.Begun w := by
  cases w with
  | checked c =>
    intro booking hends
    obtain ⟨b, hb, rfl, x, hx, hpk, hbegun⟩ := h booking hends
    obtain ⟨b', hb', hpk', hshift'⟩ := hpersists.bookings b hb
    obtain ⟨x', hx', hxpk', hstart'⟩ := hpersists.shifts x hx
    exact ⟨b', hb', hpk', x', hx', (hxpk'.trans hpk).trans hshift'.symm,
      hstart' ▸ hbegun.trans hpersists.now⟩
  | _ => trivial

theorem requirePermission_ok {actor : Actor} {granted : Bool} {permission : String} {v : Unit}
    (h : requirePermission actor granted permission s = .ok (v, t)) : t = s := by
  unfold requirePermission at h
  split at h
  · exact (pure_ok.mp h).2
  · cases h

theorem checks_begun {c : Call} {v : Unit} (h : c.checks s = .ok (v, t)) :
    s.Begun (.checked c) := by
  intro booking hends
  cases c with
  | markNoShow k actor =>
    obtain rfl := Option.some.inj hends
    obtain ⟨_, _, hpermission, h₁⟩ := bind_ok.mp h
    obtain rfl := requirePermission_ok hpermission
    obtain ⟨b, hget, h₂⟩ := fetch_bind.mp h₁
    obtain ⟨hb, rfl⟩ := Numbered.get_eq_some.mp hget
    obtain ⟨-, h₃⟩ := guard_ok h₂
    obtain ⟨x, hget, h₄⟩ := fetch_bind.mp h₃
    obtain ⟨hx, hxpk⟩ := Numbered.get_eq_some.mp hget
    obtain ⟨_, _, ⟨⟩, h₅⟩ := bind_ok.mp h₄
    split at h₅
    · cases h₅
    · exact ⟨b, hb, rfl, x, hx, hxpk, not_lt.mp ‹_›⟩
  | completeBooking k actor =>
    obtain rfl := Option.some.inj hends
    obtain ⟨_, _, hpermission, h₁⟩ := bind_ok.mp h
    obtain rfl := requirePermission_ok hpermission
    obtain ⟨b, hget, h₂⟩ := fetch_bind.mp h₁
    obtain ⟨hb, rfl⟩ := Numbered.get_eq_some.mp hget
    obtain ⟨-, h₃⟩ := guard_ok h₂
    obtain ⟨x, hget, h₄⟩ := fetch_bind.mp h₃
    obtain ⟨hx, hxpk⟩ := Numbered.get_eq_some.mp hget
    obtain ⟨_, _, ⟨⟩, h₅⟩ := bind_ok.mp h₄
    split at h₅
    · cases h₅
    · have hlength : x.startDatetime < x.endDatetime :=
        of_decide_eq_true (Table.valid _ x hx _ (List.mem_singleton_self _))
      exact ⟨b, hb, rfl, x, hx, hxpk, hlength.le.trans (not_lt.mp ‹_›)⟩
  | _ => cases hends

/-- The condition: no call takes a seat that the confirmed bookings alone leave free, while the
volunteers who have already been marked as present or absent fill it. -/
def NotOverbooking (s : Store) (w : Worker) (_ : Unit) : Prop :=
  match w with
  | .checked (.bookShift shift _ _) => ∀ x ∈ s.shifts.rows, x.pk = shift →
      ∀ capacity ∈ s.effectiveCapacity x, s.confirmed x.pk < capacity → s.taken x.pk < capacity
  | _ => True

instance (s : Store) (w : Worker) (u : Unit) : Decidable (NotOverbooking s w u) := by
  unfold NotOverbooking
  split <;> infer_instance

theorem Store.kept_empty (h : s.bookings = .empty) : s.Kept x := by
  have hof : ∀ status, s.bookingsOf x.pk status = [] := fun status => by
    unfold Store.bookingsOf
    rw [h]
    rfl
  have hwaitlist : s.waitlist x.pk = [] := hof _
  have htaken : s.taken x.pk = 0 := by
    unfold Store.taken
    rw [h]
    rfl
  have hconfirmed : s.confirmed x.pk = 0 := congrArg List.length (hof .confirmed)
  refine ⟨⟨fun capacity _ => ?_, fun cap _ => ?_, ?_, fun _ hne => absurd hwaitlist hne,
    fun _ => ⟨hconfirmed, hwaitlist⟩⟩, fun hne => absurd hwaitlist hne, fun b hb => ?_⟩
  · omega
  · simp [hwaitlist]
  · simp [hwaitlist]
  · simp [hwaitlist] at hb

theorem act_cases {u v : Store} (h : w.act u () = some (v, w')) :
    v = u ∨ ∃ c, w = .checked c ∧ Change c u v := by
  rcases act_performs h with hsame | ⟨c, hw, -, hrun⟩
  · exact .inl hsame
  · exact .inr ⟨c, hw, perform_change hrun⟩

theorem act_begun {u v : Store} (h : w.act u () = some (v, w')) : v.Begun w' := by
  cases w with
  | called c =>
    simp only [Worker.act] at h
    cases hrun : c.checks u with
    | error e =>
      rw [commit_of_error hrun] at h
      cases h
      trivial
    | ok r =>
      rw [commit_of_ok (a := r.1) (t := r.2) hrun] at h
      cases h
      exact checks_begun hrun
  | checked c =>
    simp only [Worker.act] at h
    split at h <;> cases h <;> trivial
  | returned => cases h
  | raised => cases h
  | dead => cases h

theorem act_kept {u v : Store} (hu : ∀ x ∈ u.shifts.rows, u.Kept x) (hw : u.Begun w)
    (hc : NotOverbooking u w ()) (h : w.act u () = some (v, w')) :
    (∀ x ∈ v.shifts.rows, v.Kept x) ∧ u.Persists v := by
  obtain rfl | ⟨c, rfl, hchange⟩ := act_cases h
  · exact ⟨hu, .refl v⟩
  · refine ⟨hchange.kept_all hu (fun x hx hbooks => ?_) (fun b hb hends x hx hshift => ?_),
      hchange.persists⟩
    · cases c with
      | bookShift shift volunteer actor => exact hc x hx (Option.some.inj hbooks).symm
      | _ => cases hbooks
    · obtain ⟨b', hb', hpk, y, hy, hypk, hbegun⟩ := hw _ hends
      obtain rfl : b' = b := Table.eq_of_pk hb' hb hpk
      obtain rfl : y = x := Table.eq_of_pk hy hx (hypk.trans hshift)
      exact hbegun

theorem kept_of_reachable {s : Pool.State Store Worker}
    (h : (shifts.under NotOverbooking).machine.Reachable s) :
    (∀ x ∈ s.store.shifts.rows, s.store.Kept x) ∧ ∀ w ∈ s.workers, s.store.Begun w := by
  refine Program.invariant (P := shifts.under NotOverbooking)
    (I := fun u => ∀ x ∈ u.shifts.rows, u.Kept x) (J := Store.Begun) ?_ ?_ ?_ ?_ ?_ h
  · intro u hu x _
    exact Store.kept_empty hu
  · intro u w _ hentry
    cases w <;> trivial
  · exact fun _ _ => trivial
  · intro u w e v w' hu hw hact
    obtain ⟨hc, hact⟩ := Program.under_act.mp hact
    obtain ⟨hv, hpersists⟩ := act_kept hu hw hc hact
    exact ⟨hv, act_begun hact, fun q hq => hq.of_persists hpersists⟩
  · intro u event v hu henv
    cases event with
    | pass time =>
      obtain rfl := Option.some.inj henv
      have hlater : u.now ≤ u.now + (time : Instant) :=
        Int.le_add_of_nonneg_right (Int.natCast_nonneg _)
      refine ⟨fun x hx => (hu x hx).of_same rfl rfl (fun _ => rfl) hlater, fun w hw => ?_⟩
      exact hw.of_persists ⟨hlater, fun b hb => ⟨b, hb, rfl, rfl⟩, fun x hx => ⟨x, hx, rfl, rfl⟩⟩
    | approve approved =>
      obtain rfl := Option.some.inj henv
      refine ⟨fun x hx => (hu x hx).of_same rfl rfl (fun _ => rfl) le_rfl, fun w hw => ?_⟩
      exact hw.of_persists ⟨le_rfl, fun b hb => ⟨b, hb, rfl, rfl⟩, fun x hx => ⟨x, hx, rfl, rfl⟩⟩

/-- One of two different rows stands before the other. -/
theorem before_or_after {α : Type} {R : α → α → Prop} {l : List α} {a b : α} (h : l.Pairwise R)
    (ha : a ∈ l) (hb : b ∈ l) (hne : a ≠ b) : R a b ∨ R b a :=
  haveI : Std.Symm fun a b => R a b ∨ R b a := ⟨fun _ _ => Or.symm⟩
  (h.imp (S := fun a b => R a b ∨ R b a) Or.inl).forall ha hb hne

/-- Who is promoted has waited longest. -/
theorem Change.promotes {c : Call} (h : Change c s t)
    (hpositions : ∀ x ∈ s.shifts.rows,
      (s.waitlist x.pk).Pairwise fun a b => a.pk < b.pk ∧ a.rank < b.rank)
    (hb : b ∈ s.bookings.rows) (hwaits : b.status = .waitlisted) (hb' : b' ∈ t.bookings.rows)
    (hpk : b'.pk = b.pk) (hin : b'.status = .confirmed) :
    ∀ a ∈ s.waitlist b.shift, b.pk ≤ a.pk := by
  have hstays : b' ∉ s.bookings.rows := by
    intro hmem
    rw [Table.eq_of_pk hmem hb hpk, hwaits] at hin
    cases hin
  cases h with
  | kept _ hbookings => exact absurd (hbookings ▸ hb') hstays
  | joined _ _ _ _ _ hnew hrows =>
    rcases List.mem_append.mp (hrows ▸ hb') with hmem | hmem
    · exact absurd hmem hstays
    · obtain rfl := List.mem_singleton.mp hmem
      have hused : b.pk < s.bookings.next := s.bookings.used b hb
      omega
  | @moved a f _ ha hbookings hmoves =>
    rw [hbookings] at hb'
    rcases (Numbered.mem_rewrite_row (ShiftBooking.preserves f) ha).mp hb' with ⟨hmem, -⟩ | rfl
    · exact absurd hmem hstays
    · obtain rfl : a = b := Table.eq_of_pk ha hb hpk
      cases hmoves with
      | left _ his => simp [ShiftBooking.withState, his] at hin
      | freed hwas => simp [hwas] at hwaits
      | ended _ hwas => simp [hwas] at hwaits
  | @promoted x a next f g _ hx hashift ha hwas hleft hnext hin' hbookings =>
    obtain ⟨hmem, hshift, hwaits'⟩ := Store.mem_waitlist.mp (List.argmin_mem hnext)
    have hne : next.pk ≠ a.pk := by
      intro h
      rw [Table.eq_of_pk hmem ha h, hwas] at hwaits'
      cases hwaits'
    have hmem' : next ∈ (s.moved a f).rows :=
      (Numbered.mem_rewrite_row (ShiftBooking.preserves f) ha).mpr (.inl ⟨hmem, hne⟩)
    rw [hbookings] at hb'
    rcases (Numbered.mem_rewrite_row (ShiftBooking.preserves g) hmem').mp hb' with ⟨hold, -⟩ | rfl
    · rcases (Numbered.mem_rewrite_row (ShiftBooking.preserves f) ha).mp hold with ⟨hold, -⟩ | rfl
      · exact absurd hold hstays
      · simp [ShiftBooking.withState, hleft] at hin
    · obtain rfl : next = b := Table.eq_of_pk hmem hb hpk
      intro w hw
      by_contra hlt
      have hrank : next.rank ≤ w.rank := List.le_of_mem_argmin (hshift ▸ hw) hnext
      have hother : w ≠ next := fun h => hlt (h ▸ le_rfl)
      rw [hashift] at hshift hnext
      obtain hbefore | hafter := before_or_after (hpositions x hx) (hshift ▸ hw)
        (List.argmin_mem hnext) hother
      · exact absurd hbefore.2 (not_lt.mpr hrank)
      · exact absurd hafter.1.le hlt
  | withdrawn _ _ _ _ hstate hbookings =>
    rw [hbookings] at hb'
    obtain ⟨a, ha, rfl⟩ := Numbered.mem_rewrite.mp hb'
    split at hin
    · simp [ShiftBooking.withState, hstate] at hin
    next h =>
      rw [if_neg h] at hstays
      exact absurd ha hstays

/-- Apart from late bookings, every shift keeps to its seats and to its waitlist, a seat is passed
on before the shift starts, and who is promoted has waited longest. -/
theorem shifts_orderly {s t : Pool.State Store Worker} {l : Pool.Label Worker Unit Event}
    (h : (shifts.under NotOverbooking).machine.Reachable s)
    (hstep : (shifts.under NotOverbooking).machine.step s l = some t) :
    (∀ x ∈ s.store.shifts.rows, s.store.Orderly x) ∧
    ∀ b ∈ s.store.bookings.rows, b.status = .waitlisted → ∀ b' ∈ t.store.bookings.rows,
      b'.pk = b.pk → b'.status = .confirmed → ∀ a ∈ s.store.waitlist b.shift, b.pk ≤ a.pk := by
  have hkept := (kept_of_reachable h).1
  refine ⟨fun x hx => (hkept x hx).toOrderly, fun b hb hwaits b' hb' hpk hin => ?_⟩
  have hstays (hsame : t.store.bookings = s.store.bookings) : False := by
    rw [hsame] at hb'
    rw [Table.eq_of_pk hb' hb hpk, hwaits] at hin
    cases hin
  obtain ⟨p, -, -, rfl⟩ | ⟨i, e, w, u, w', -, -, hact, rfl⟩ | ⟨i, -, rfl⟩ |
    ⟨event, u, -, henv, rfl⟩ := Program.step_cases hstep
  · exact (hstays rfl).elim
  · obtain ⟨-, hact⟩ := Program.under_act.mp hact
    obtain hsame | ⟨c, -, hchange⟩ := act_cases hact
    · exact (hstays (congrArg Store.bookings hsame)).elim
    · exact hchange.promotes (fun x hx => (hkept x hx).positions) hb hwaits hb' hpk hin
  · exact (hstays rfl).elim
  · refine (hstays ?_).elim
    cases event <;> cases henv <;> rfl

/-- One shift with one seat, and three volunteers who may book it. -/
def oneSeat : Store where
  shifts := .seed [fun pk =>
    { pk, opportunity := 1, startDatetime := 100, endDatetime := 200, capacity := some 1 }]
  profiles := .seed [fun pk => { pk, user := 1 }, fun pk => { pk, user := 2 },
    fun pk => { pk, user := 3 }]
  approved := [(1, 1), (2, 1), (3, 1)]

/-- Both blocks of a call. -/
def through (i : ℕ) (c : Call) : List (Pool.Label Worker Unit Event) :=
  [.spawn (.called c), .act i (), .act i ()]

/-- Two volunteers book, and the first of them cancels. -/
def passedOn : Pool.State Store Worker :=
  (shifts.under NotOverbooking).machine.final ⟨oneSeat, []⟩
    (through 0 (.bookShift 1 1 ⟨1, false, false, false⟩) ++
      through 1 (.bookShift 1 2 ⟨2, false, false, false⟩) ++
      [.spawn (.called (.cancelBooking 1 ⟨1, false, false, false⟩ "ill")), .act 2 ()])

theorem passedOn_orderly :
    (∀ x ∈ passedOn.store.shifts.rows, passedOn.store.Orderly x) ∧
    ((shifts.under NotOverbooking).machine.final passedOn [.act 2 ()]).store.bookings.rows.map
      (·.status) = [.cancelled, .confirmed] := by
  have hreachable : (shifts.under NotOverbooking).machine.Reachable passedOn :=
    Machine.Reachable.final (M := (shifts.under NotOverbooking).machine) (s := ⟨oneSeat, []⟩)
      ⟨rfl, rfl⟩ _
  exact ⟨(shifts_orderly hreachable (l := .act 2 ()) rfl).1, by decide +kernel⟩

/-- The second volunteer passes the checks in time, and books after the first has not come. -/
def overbooked : Pool.State Store Worker :=
  shifts.machine.final ⟨oneSeat, []⟩
    (through 0 (.bookShift 1 1 ⟨1, false, false, false⟩) ++
      [.spawn (.called (.bookShift 1 2 ⟨2, false, false, false⟩)), .act 1 (), .env (.pass 150)] ++
      through 2 (.markNoShow 1 ⟨9, true, false, false⟩) ++ [.act 1 ()])

theorem overbooked_reached : shifts.machine.Reachable overbooked ∧
    overbooked.store.shifts.rows.map overbooked.store.effectiveCapacity = [some 1] ∧
    overbooked.store.taken 1 = 2 :=
  ⟨Machine.Reachable.final (M := shifts.machine) (s := ⟨oneSeat, []⟩) ⟨rfl, rfl⟩ _,
    by decide +kernel, by decide +kernel⟩

end Civicos.Volunteers
