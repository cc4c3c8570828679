import Civicos.Appointments.Effects

/-!
# The effects of each operation
-/
namespace Civicos.Appointments

open Library Library.Transaction
open Payments (Uuid Json Value)

variable {seen s t : Store} {u : Unit} {now : Instant} {booking : Uuid} {actor : Option User}
  {reason : String} {ip : Option String} {b : Booking}

/-- The policy for bookings in a slot, from the rows of `seen`. -/
def PolicyOf (seen : Store) (x : Slot) (location : ℕ) (policy : SchedulingPolicy) : Prop :=
  ∃ a, seen.catalog.appointmentType x.appointmentType = some a ∧
    policy = seen.catalog.resolvePolicy a location

/-- The policies that can apply to some booking. -/
def Catalog.policies (c : Catalog) : List SchedulingPolicy :=
  c.settings :: c.appointmentTypes.filterMap (·.schedulingPolicy) ++
    c.locations.filterMap (·.schedulingPolicy)

theorem resolvePolicy_mem {c : Catalog} {k location : ℕ} {a : AppointmentType}
    (h : c.appointmentType k = some a) : c.resolvePolicy a location ∈ c.policies := by
  have ha : a ∈ c.appointmentTypes := List.mem_of_find?_eq_some h
  unfold Catalog.resolvePolicy Catalog.policies
  split
  next policy hpolicy =>
    exact List.mem_append_left _ (List.mem_cons_of_mem _ (List.mem_filterMap.mpr ⟨a, ha, hpolicy⟩))
  next =>
    cases hl : c.location location with
    | none => simp
    | some l =>
      have hmem : l ∈ c.locations := List.mem_of_find?_eq_some hl
      cases hpolicy : l.schedulingPolicy with
      | none => simp [hpolicy]
      | some policy =>
        simp only [Option.bind_some, hpolicy, Option.getD_some]
        exact List.mem_append_right _ (List.mem_filterMap.mpr ⟨l, hmem, hpolicy⟩)

/-- No policy sets `f` above `n`. -/
def Catalog.atMost (c : Catalog) (f : SchedulingPolicy → ℕ) (n : ℕ) : Prop :=
  ∀ policy ∈ c.policies, f policy ≤ n

instance (c : Catalog) (f : SchedulingPolicy → ℕ) (n : ℕ) : Decidable (c.atMost f n) :=
  inferInstanceAs (Decidable (∀ _ ∈ _, _))

theorem PolicyOf.le {x : Slot} {location : ℕ} {policy : SchedulingPolicy} {f : SchedulingPolicy → ℕ}
    {n : ℕ} (h : PolicyOf seen x location policy) (hn : seen.catalog.atMost f n) :
    f policy ≤ n := by
  obtain ⟨a, ha, rfl⟩ := h
  exact hn _ (resolvePolicy_mem ha)

theorem checkBookable_ok {bookings : List Booking} {x : Slot} {citizen : ℕ} {a : AppointmentType}
    (h : checkBookable seen bookings now x citizen s = .ok (a, t)) :
    t = s ∧ x.isOpen = true ∧ x.spacesUsed < x.capacity ∧
      seen.catalog.appointmentType x.appointmentType = some a ∧
      activeCount bookings citizen <
        (seen.catalog.resolvePolicy a x.location).maxActiveBookingsPerCitizen := by
  unfold checkBookable at h
  obtain ⟨hopen, h⟩ := guard_ok h
  obtain ⟨a', ha, h⟩ := found_bind.mp h
  obtain ⟨-, h⟩ := guard_ok h
  obtain ⟨hcount, h⟩ := guard_ok h
  obtain ⟨rfl, rfl⟩ := pure_ok.mp h
  obtain ⟨hopen, hspace⟩ : x.isOpen = true ∧ x.spacesUsed < x.capacity := by simpa using hopen
  exact ⟨rfl, hopen, hspace, ha, by simpa using hcount⟩

theorem initialStatus_active (a : AppointmentType) : a.initialStatus.isActive = true := by
  unfold AppointmentType.initialStatus
  split <;> rfl

theorem text_ne_blank (status : BookingStatus) : status.text ≠ "" := by
  cases status <;> simp [BookingStatus.text]

theorem createBooking_ok {own : List Booking} {slot : Uuid} {citizen : ℕ} {intake : Intake}
    (h : createBooking seen own now slot citizen intake actor ip s = .ok (b, t)) :
    ∃ x policy, Opened b x s t ∧ PolicyOf seen x x.location policy ∧
      b.slot = slot ∧ b.citizen = citizen ∧ b.rescheduledFrom = none ∧ b.rescheduleCount = 0 ∧
      activeCount (seen.bookings.rows ++ own) citizen < policy.maxActiveBookingsPerCitizen := by
  unfold createBooking at h
  obtain ⟨-, h₁⟩ := guard_ok h
  obtain ⟨x, hx, h₂⟩ := lookup_bind.mp h₁
  obtain ⟨a, s₁, hcheck, h₃⟩ := bind_ok.mp h₂
  obtain ⟨rfl, hopen, hspace, ha, hcount⟩ := checkBookable_ok hcheck
  obtain ⟨B, hB, h₄⟩ := create_bind.mp h₃
  obtain ⟨_, s₂, htake, h₅⟩ := bind_ok.mp h₄
  obtain rfl := Table.pk_of_get hx
  obtain ⟨T, hT, rfl⟩ := updateSlotStatus_ok (n := x.spacesUsed + 1)
    (s := Store.bookingTable.set B s₁) hx htake
  obtain ⟨_, s₃, hlog, h₆⟩ := bind_ok.mp h₅
  obtain ⟨haudited, hlogged⟩ := writeAuditLog_logged hlog (text_ne_blank _) (text_ne_blank _)
  obtain ⟨_, s₄, hconsent, h₇⟩ := bind_ok.mp h₆
  obtain ⟨rfl, rfl⟩ := pure_ok.mp h₇
  obtain ⟨haudited', hnoted⟩ := writeConsentLog_noted hconsent
  have hall := haudited.trans haudited'
  refine ⟨x, _, ?_, ⟨a, ha, rfl⟩, rfl, rfl, rfl, rfl, hcount⟩
  exact {
    catalog := hall.catalog
    clock := hall.clock
    adminBlocked := hall.adminBlocked
    slot := rfl
    isOpen := hopen
    space := hspace
    active := initialStatus_active a
    fresh := ⟨rfl, rfl, rfl⟩
    bookings := hall.bookings ▸ hB
    slots := hall.slots ▸ hT
    logged := fun k => (hnoted k).trans (hlogged k)
    records := hall.records
    clipped := hall.clipped }

theorem Recorded.refl (s : Store) : Recorded s s := ⟨⟨rfl, rfl, rfl⟩, rfl, rfl, rfl, rfl⟩

/-- Status, space, record and log are written one after the other. -/
theorem Closed.of_writes {old : Booking} {x : Slot} {B : Table Booking.schema}
    {T : Table Slot.schema} {s₁ : Store} (hslot : old.slot = x.pk) (hsame : old.Same b)
    (hstatus : b.status = .cancelled ∧ old.status.isActive = true ∨
      b.status = .rejected ∧ old.status = .pending)
    (hB : s.bookings.Replaced old b B)
    (hT : s.slots.Replaced x (x.occupied (x.spacesUsed - 1)) T)
    (hrec : Recorded { s with
      bookings := B
      slots := T
      clipped := s.clipped + if x.spacesUsed = 0 then 1 else 0 } s₁)
    (hstanding : ∀ c, s₁.standing c = s.standing c)
    (hlog : Audited s₁ t ∧ Logged old.pk old.status.text b.status.text s₁ t) :
    Closed old b x s t where
  catalog := hlog.1.catalog.trans hrec.catalog
  clock := hlog.1.clock.trans hrec.clock
  adminBlocked := hlog.1.adminBlocked.trans hrec.adminBlocked
  slot := hslot
  same := hsame
  status := hstatus
  bookings := (hlog.1.bookings.trans hrec.bookings) ▸ hB
  slots := (hlog.1.slots.trans hrec.slots) ▸ hT
  logged := fun k => by
    rw [hlog.2 k, hrec.statusPath k]
    rfl
  standing := fun c => (Store.standing_congr hlog.1.records).trans (hstanding c)
  clipped := hlog.1.clipped.trans hrec.clipped

/-- Only the cancellation of a confirmed booking can count as a late one. -/
theorem cancelBooking_ok (h : cancelBooking seen now booking actor reason ip s = .ok (b, t)) :
    ∃ old x, s.bookings.get booking = some old ∧ b.status = .cancelled ∧
      b.rescheduled = old.rescheduled ∧
      (old.status ≠ .confirmed → t.noShowRecords = s.noShowRecords) ∧ Closed old b x s t := by
  unfold cancelBooking at h
  obtain ⟨old, hold, h₁⟩ := lookup_bind.mp h
  obtain ⟨hactive, h₂⟩ := guard_ok h₁
  obtain ⟨y, -, h₃⟩ := found_bind.mp h₂
  obtain ⟨a, -, h₄⟩ := found_bind.mp h₃
  obtain ⟨B, hB, h₅⟩ := write_bind.mp h₄
  obtain ⟨x, hx, h₆⟩ := lookup_bind.mp h₅
  obtain ⟨_, s₁, hrelease, h₇⟩ := bind_ok.mp h₆
  obtain ⟨s₂, hlate, h₈⟩ := when_ok h₇
  obtain ⟨_, s₃, hlog, h₉⟩ := bind_ok.mp h₈
  obtain ⟨rfl, rfl⟩ := pure_ok.mp h₉
  obtain rfl : old.pk = booking := Table.pk_of_get hold
  have hslot : x.pk = old.slot := Table.pk_of_get hx
  obtain ⟨T, hT, rfl⟩ := releaseSpace_ok (hslot ▸ hx) hrelease
  have hrec : Recorded { s with
      bookings := B
      slots := T
      clipped := s.clipped + if x.spacesUsed = 0 then 1 else 0 } s₂ ∧
      (∀ d, s₂.standing d = s.standing d) ∧
      (old.status ≠ .confirmed → s₂.noShowRecords = s.noShowRecords) := by
    obtain ⟨⟨-, hconfirmed⟩, hcount⟩ | ⟨-, rfl⟩ := hlate
    · obtain ⟨hrecorded, hstanding⟩ := countLateCancellation_ok hcount
      exact ⟨hrecorded, hstanding, fun hne => absurd (of_decide_eq_true hconfirmed) hne⟩
    · exact ⟨.refl _, fun _ => rfl, fun _ => rfl⟩
  have hstatus : old.status.isActive = true := by
    revert hactive
    cases old.status <;> simp [BookingStatus.isActive]
  have hne : BookingStatus.cancelled.text ≠ old.status.text := by
    revert hactive
    cases old.status <;> simp [BookingStatus.text]
  have hlogged := writeAuditLog_logged hlog (text_ne_blank _) hne
  exact ⟨old, x, hold, rfl, rfl, fun hne => hlogged.1.records.trans (hrec.2.2 hne),
    .of_writes hslot.symm ⟨rfl, rfl, rfl, rfl, rfl, rfl, rfl, rfl⟩ (.inl ⟨rfl, hstatus⟩)
      (.of_update hB hold rfl) hT hrec.1 hrec.2.1 hlogged⟩

theorem rejectBooking_ok (h : rejectBooking now booking actor reason ip s = .ok (b, t)) :
    ∃ old x, s.bookings.get booking = some old ∧ b.status = .rejected ∧
      b.rescheduled = old.rescheduled ∧ Closed old b x s t := by
  unfold rejectBooking at h
  obtain ⟨old, hold, h₁⟩ := lookup_bind.mp h
  obtain ⟨hpending, h₂⟩ := guard_ok h₁
  obtain ⟨B, hB, h₃⟩ := write_bind.mp h₂
  obtain ⟨x, hx, h₄⟩ := lookup_bind.mp h₃
  obtain ⟨_, s₁, hrelease, h₅⟩ := bind_ok.mp h₄
  obtain ⟨_, s₂, hlog, h₆⟩ := bind_ok.mp h₅
  obtain ⟨rfl, rfl⟩ := pure_ok.mp h₆
  obtain rfl : old.pk = booking := Table.pk_of_get hold
  have hslot : x.pk = old.slot := Table.pk_of_get hx
  obtain ⟨T, hT, rfl⟩ := releaseSpace_ok (hslot ▸ hx) hrelease
  have hpending : old.status = .pending := not_not.mp hpending
  have hne : BookingStatus.rejected.text ≠ old.status.text := by
    rw [hpending]
    decide
  exact ⟨old, x, hold, rfl, rfl, .of_writes hslot.symm ⟨rfl, rfl, rfl, rfl, rfl, rfl, rfl, rfl⟩
    (.inr ⟨rfl, hpending⟩) (.of_update hB hold rfl) hT (.refl _) (fun _ => rfl)
    (writeAuditLog_logged hlog (text_ne_blank _) hne)⟩

theorem confirmBooking_ok (h : confirmBooking booking actor ip s = .ok (b, t)) :
    ∃ old, s.bookings.get booking = some old ∧ b = { old with status := .confirmed } ∧
      Confirmed old s t := by
  unfold confirmBooking at h
  obtain ⟨old, hold, h₁⟩ := lookup_bind.mp h
  obtain ⟨hpending, h₂⟩ := guard_ok h₁
  obtain ⟨B, hB, h₃⟩ := write_bind.mp h₂
  obtain ⟨_, s₁, hlog, h₄⟩ := bind_ok.mp h₃
  obtain ⟨rfl, rfl⟩ := pure_ok.mp h₄
  obtain rfl : old.pk = booking := Table.pk_of_get hold
  have hpending : old.status = .pending := not_not.mp hpending
  rw [hpending] at hlog
  obtain ⟨haudited, hlogged⟩ := writeAuditLog_logged hlog (by decide) (by decide)
  exact ⟨old, hold, rfl, {
    catalog := haudited.catalog
    clock := haudited.clock
    adminBlocked := haudited.adminBlocked
    pending := hpending
    bookings := haudited.bookings ▸ .of_update hB hold rfl
    slots := haudited.slots
    logged := hlogged
    records := haudited.records
    clipped := haudited.clipped }⟩

theorem completeBooking_ok (h : completeBooking seen booking actor ip s = .ok (b, t)) :
    ∃ old, s.bookings.get booking = some old ∧ b = { old with status := .completed } ∧
      Completed seen old s t := by
  unfold completeBooking at h
  obtain ⟨old, hold, h₁⟩ := lookup_bind.mp h
  obtain ⟨hconfirmed, h₂⟩ := guard_ok h₁
  obtain ⟨B, hB, h₃⟩ := write_bind.mp h₂
  obtain ⟨_, s₁, hcount, h₄⟩ := bind_ok.mp h₃
  obtain ⟨_, s₂, hlog, h₅⟩ := bind_ok.mp h₄
  obtain ⟨rfl, rfl⟩ := pure_ok.mp h₅
  obtain rfl : old.pk = booking := Table.pk_of_get hold
  have hconfirmed : old.status = .confirmed := not_not.mp hconfirmed
  rw [hconfirmed] at hlog
  obtain ⟨hrec, hstanding⟩ := countAttendance_ok hcount
  obtain ⟨haudited, hlogged⟩ := writeAuditLog_logged hlog (by decide) (by decide)
  exact ⟨old, hold, rfl, {
    catalog := haudited.catalog.trans hrec.catalog
    clock := haudited.clock.trans hrec.clock
    adminBlocked := haudited.adminBlocked.trans hrec.adminBlocked
    confirmed := hconfirmed
    bookings := (haudited.bookings.trans hrec.bookings) ▸ .of_update hB hold rfl
    slots := haudited.slots.trans hrec.slots
    logged := fun k => (hlogged k).trans (congrArg (· ++ _) (hrec.statusPath k))
    standing := fun hfresh c => (Store.standing_congr haudited.records).trans (hstanding hfresh c)
    clipped := haudited.clipped.trans hrec.clipped }⟩

theorem markNoShow_ok (h : markNoShow seen now booking actor ip s = .ok (b, t)) :
    ∃ old x policy, s.bookings.get booking = some old ∧ b = { old with noShow := true } ∧
      seen.slots.get old.slot = some x ∧ PolicyOf seen x x.location policy ∧
      Absent seen policy old s t := by
  unfold markNoShow at h
  obtain ⟨old, hold, h₁⟩ := lookup_bind.mp h
  obtain ⟨hconfirmed, h₂⟩ := guard_ok h₁
  obtain ⟨hfirst, h₃⟩ := guard_ok h₂
  obtain ⟨B, hB, h₄⟩ := write_bind.mp h₃
  obtain ⟨r, s₁, hr, h₅⟩ := bind_ok.mp h₄
  obtain ⟨x, hx, h₆⟩ := found_bind.mp h₅
  obtain ⟨a, ha, h₇⟩ := found_bind.mp h₆
  obtain ⟨_, s₂, hsave, h₈⟩ := bind_ok.mp h₇
  obtain ⟨_, s₃, hlog, h₉⟩ := bind_ok.mp h₈
  obtain ⟨rfl, rfl⟩ := pure_ok.mp h₉
  obtain rfl : old.pk = booking := Table.pk_of_get hold
  obtain ⟨hread, hstanding, hcurrent⟩ := getOrCreateNoShowRecord_ok hr
  obtain ⟨hwrite, hrec⟩ := recordWrite_ok hsave (fun _ => rfl) fun _ => rfl
  obtain ⟨haudited, hpath⟩ := writeAuditLog_noted hlog (.inr rfl)
  have hall := hread.trans hwrite
  refine ⟨old, x, _, hold, rfl, hx, ⟨a, ha, rfl⟩, {
    catalog := haudited.catalog.trans hall.catalog
    clock := haudited.clock.trans hall.clock
    adminBlocked := haudited.adminBlocked.trans hall.adminBlocked
    confirmed := not_not.mp hconfirmed
    first := by simpa using hfirst
    bookings := (haudited.bookings.trans hall.bookings) ▸ .of_update hB hold rfl
    slots := haudited.slots.trans hall.slots
    statusPath := fun k => (hpath k).trans (hall.statusPath k)
    standing := fun hfresh c => ?_
    clipped := haudited.clipped.trans hall.clipped }⟩
  rw [Store.standing_congr haudited.records,
    settled (hcurrent hfresh) hstanding (by simpa [noShow_pk] using hrec) c]
  split
  next hc =>
    have hs : s.standing c = r.standing := by
      rw [hc, ← Store.standing_of_recordOf (hcurrent hfresh)]
      exact (hstanding old.citizen).symm
    rw [hs]
    exact standing_noShow r _ actor now
  next => rfl

/-- The booking may be moved once more, under the policy of its type at the new location. -/
def Movable (seen : Store) (old : Booking) (newSlot : Uuid) : Prop :=
  ∃ x y policy, seen.slots.get old.slot = some x ∧ seen.slots.get newSlot = some y ∧
    PolicyOf seen x y.location policy ∧ old.rescheduleCount < policy.maxRescheduleCount

theorem checkReschedulable_ok {old : Booking} {newSlot : Uuid}
    (h : checkReschedulable seen now old newSlot s = .ok (u, t)) :
    t = s ∧ old.status = .confirmed ∧ old.noShow = false ∧ Movable seen old newSlot := by
  unfold checkReschedulable at h
  obtain ⟨hconfirmed, h₁⟩ := guard_ok h
  obtain ⟨hpresent, h₂⟩ := guard_ok h₁
  obtain ⟨x, hx, h₃⟩ := found_bind.mp h₂
  obtain ⟨y, hy, h₄⟩ := found_bind.mp h₃
  obtain ⟨a, ha, h₅⟩ := found_bind.mp h₄
  obtain ⟨hcount, h₆⟩ := guard_ok h₅
  split at h₆
  · cases h₆
  · obtain ⟨-, rfl⟩ := pure_ok.mp h₆
    exact ⟨rfl, not_not.mp hconfirmed, by simpa using hpresent, x, y, _, hx, hy, ⟨a, ha, rfl⟩,
      by simpa using hcount⟩

theorem occupancy_open {n c : ℕ} (h : n < c) :
    occupancy n c ∈ [SlotStatus.available, .partiallyBooked] := by
  unfold occupancy
  split <;> simp

/-- Giving up one space of a slot that takes bookings, or of another slot, leaves it open. -/
theorem open_after_release {x y z : Slot} {T : Table Slot.schema} {k : Uuid}
    (hT : s.slots.Replaced x (x.occupied (x.spacesUsed - 1)) T) (hz : s.slots.get k = some z)
    (hopen : z.isOpen = true ∧ z.spacesUsed < z.capacity) (hy : T.get k = some y) :
    y.isOpen = true ∧ y.spacesUsed < y.capacity := by
  rw [hT.get_eq] at hy
  split at hy
  next hk =>
    subst hk
    obtain rfl : x = z := Option.some.inj (hT.get.symm.trans hz)
    obtain rfl := Option.some.inj hy
    have hlt : x.spacesUsed - 1 < x.capacity := by omega
    exact ⟨decide_eq_true (occupancy_open hlt), hlt⟩
  next =>
    obtain rfl : z = y := Option.some.inj (hz.symm.trans hy)
    exact hopen

theorem rescheduleBooking_ok {newSlot : Uuid}
    (h : rescheduleBooking seen now booking newSlot actor reason ip s = .ok (b, t)) :
    ∃ old new x y m, s.bookings.get booking = some old ∧ Moved old new b x y s m t ∧
      b.slot = newSlot ∧ Movable seen old newSlot ∧
      ∃ z, s.slots.get newSlot = some z ∧ z.isOpen = true := by
  unfold rescheduleBooking at h
  obtain ⟨old, hold, h₁⟩ := lookup_bind.mp h
  obtain ⟨_, s₁, hcheck, h₂⟩ := bind_ok.mp h₁
  obtain ⟨rfl, hconfirmed, hpresent, hpolicy⟩ := checkReschedulable_ok hcheck
  obtain ⟨x, hx, h₃⟩ := lookup_bind.mp h₂
  obtain ⟨z, hz, h₄⟩ := lookup_bind.mp h₃
  obtain ⟨hspace, h₅⟩ := guard_ok h₄
  obtain ⟨B, hB, h₆⟩ := write_bind.mp h₅
  obtain ⟨_, s₂, hrelease, h₇⟩ := bind_ok.mp h₆
  obtain ⟨B', hB', h₈⟩ := create_bind.mp h₇
  obtain ⟨y, hy, h₉⟩ := lookup_bind.mp h₈
  obtain ⟨_, s₃, htake, h₁₀⟩ := bind_ok.mp h₉
  obtain ⟨_, s₄, hlog, h₁₁⟩ := bind_ok.mp h₁₀
  obtain ⟨_, s₅, hlog', h₁₂⟩ := bind_ok.mp h₁₁
  obtain ⟨rfl, rfl⟩ := pure_ok.mp h₁₂
  obtain rfl : old.pk = booking := Table.pk_of_get hold
  have hxpk : x.pk = old.slot := Table.pk_of_get hx
  have hzpk : z.pk = newSlot := Table.pk_of_get hz
  have hypk : y.pk = newSlot := Table.pk_of_get hy
  have hopen : z.isOpen = true ∧ z.spacesUsed < z.capacity := by simpa using hspace
  obtain ⟨T, hT, rfl⟩ := releaseSpace_ok (s := Store.bookingTable.set B s₁) (hxpk ▸ hx) hrelease
  obtain ⟨T', hT', rfl⟩ := updateSlotStatus_ok (n := y.spacesUsed + 1) (hypk ▸ hy) htake
  obtain ⟨haudited, hlogged⟩ := writeAuditLog_logged hlog (text_ne_blank _)
    (by rw [hconfirmed]; decide)
  obtain ⟨haudited', hlogged'⟩ := writeAuditLog_logged hlog' (text_ne_blank _) (text_ne_blank _)
  have hall := haudited.trans haudited'
  have hy' := open_after_release hT hz hopen hy
  have hclosed : Closed old (old.replace now actor reason) x s₁ { s₁ with
      bookings := B
      slots := T
      auditLog := s₄.auditLog
      clipped := s₁.clipped + if x.spacesUsed = 0 then 1 else 0 } :=
    .of_writes hxpk.symm ⟨rfl, rfl, rfl, rfl, rfl, rfl, rfl, rfl⟩
      (.inl ⟨rfl, by rw [hconfirmed]; rfl⟩) (.of_update hB hold rfl) hT (.refl _) (fun _ => rfl)
      ⟨⟨⟨rfl, rfl, rfl⟩, rfl, rfl, rfl, rfl⟩, hlogged⟩
  refine ⟨old, _, x, y, _, hold, {
    closed := hclosed
    opened := {
      catalog := hall.catalog
      clock := hall.clock
      adminBlocked := hall.adminBlocked
      slot := hzpk.trans hypk.symm
      isOpen := hy'.1
      space := hy'.2
      active := rfl
      fresh := ⟨rfl, rfl, rfl⟩
      bookings := hall.bookings ▸ hB'
      slots := hall.slots ▸ hT'
      logged := hlogged'
      records := hall.records
      clipped := hall.clipped }
    confirmed := hconfirmed
    present := hpresent
    cancelled := rfl
    replaced := rfl
    citizen := rfl
    status := rfl
    link := rfl
    depth := rfl
    records := hall.records }, hzpk, hpolicy, z, hz, hopen.1⟩

/-! ## The GovStack adapter -/

theorem lockSlot_ok {k : Uuid} (h : lockSlot k s = .ok (u, t)) :
    ∃ x, x.pk = k ∧ Restatused x .blocked s t := by
  obtain ⟨x, hx, h₁⟩ := lookup_bind.mp h
  obtain rfl : x.pk = k := Table.pk_of_get hx
  obtain ⟨T, hT, rfl⟩ := write_replaces h₁ hx rfl
  exact ⟨x, rfl, hT, rfl⟩

theorem unlockSlot_ok {k : Uuid} (h : unlockSlot k s = .ok (u, t)) :
    ∃ x, x.pk = k ∧ Restatused x (occupancy x.spacesUsed x.capacity) s t := by
  obtain ⟨x, hx, h₁⟩ := lookup_bind.mp h
  obtain rfl : x.pk = k := Table.pk_of_get hx
  obtain ⟨T, hT, rfl⟩ := write_replaces h₁ hx rfl
  exact ⟨x, rfl, hT, rfl⟩

/-- Without such a booking nothing is written. -/
theorem saveGovStack_ok {k : Uuid} {exclusive : Option Bool} {entityId : Option String}
    (h : saveGovStack k exclusive entityId s = .ok (u, t)) :
    s.bookings.get k = none ∧ t = s ∨ ∃ old new, s.bookings.get k = some old ∧ Tagged old new s t ∧
      new.govstackExclusive = exclusive.getD old.govstackExclusive := by
  cases hk : s.bookings.get k with
  | none =>
    obtain ⟨B, hB, rfl⟩ := write_ok.mp h
    have hsame : Store.bookingTable.get s = B := by
      simpa [Store.bookingTable, Table.update_of_none hk] using hB
    exact .inl ⟨rfl, by rw [← hsame]; rfl⟩
  | some old =>
    obtain ⟨B, hB, rfl⟩ := write_replaces h hk rfl
    exact .inr ⟨old, _, rfl, ⟨hB, rfl, rfl⟩, rfl⟩

end Civicos.Appointments
