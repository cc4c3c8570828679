import Civicos.Appointments.Capacity

/-!
# Exclusive bookings

An active exclusive booking blocks its slot. The flag is a column of the booking and the block one
of the slot; for every slot that was ever booked, one says what the other says.
-/
namespace Civicos.Appointments

open Library Library.Transaction
open Payments (Uuid)

/-- An active booking that claims its slot for itself. -/
def Booking.holds (b : Booking) : Bool := b.status.isActive && b.govstackExclusive

namespace Store

def held (s : Store) (k : Uuid) : Prop := ∃ b ∈ s.bookings.rows, b.slot = k ∧ b.holds = true

def booked (s : Store) (k : Uuid) : Prop := ∃ b ∈ s.bookings.rows, b.slot = k

def blockedAt (s : Store) (k : Uuid) : Prop := ∃ x, s.slots.get k = some x ∧ x.status = .blocked

/-- Another booking than `pk` holds slot `k`. -/
def heldByOther (s : Store) (k pk : Uuid) : Bool :=
  s.bookings.rows.any fun b => b.slot = k ∧ b.pk ≠ pk ∧ b.holds

/-- Flag and block agree on slot `k`. -/
def AgreesAt (s : Store) (k : Uuid) : Prop := s.booked k → (s.held k ↔ s.blockedAt k)

end Store

variable {seen s m t : Store} {P : Permits} {b old new : Booking} {x : Slot} {k j pk : Uuid}

theorem heldByOther_iff : s.heldByOther k pk = true ↔
    ∃ b ∈ s.bookings.rows, b.slot = k ∧ b.pk ≠ pk ∧ b.holds = true := by
  simp [Store.heldByOther]

/-- A slot is held by one of its bookings or by another one. -/
theorem held_iff (h : s.bookings.get pk = some b) (hk : b.slot = k) :
    s.held k ↔ s.heldByOther k pk = true ∨ b.holds = true := by
  obtain ⟨hmem, hpk⟩ := Table.get_eq_some.mp h
  have hpk : b.pk = pk := hpk
  rw [heldByOther_iff]
  constructor
  · rintro ⟨a, ha, hak, hholds⟩
    by_cases heq : a.pk = pk
    · obtain rfl : a = b := Table.eq_of_pk ha hmem (heq.trans hpk.symm)
      exact .inr hholds
    · exact .inl ⟨a, ha, hak, heq, hholds⟩
  · rintro (⟨a, ha, hak, -, hholds⟩ | hholds)
    · exact ⟨a, ha, hak, hholds⟩
    · exact ⟨b, hmem, hk, hholds⟩

/-! ## A booking is rewritten -/

section Replaced

variable (h : s.bookings.Replaced old new t.bookings) (hslot : new.slot = old.slot)

include h hslot

theorem heldByOther_replaced (k : Uuid) :
    t.heldByOther k old.pk = s.heldByOther k old.pk := by
  have hpk : new.pk = old.pk := h.pk
  rw [Bool.eq_iff_iff, heldByOther_iff, heldByOther_iff]
  constructor
  · rintro ⟨a, ha, hak, hne, hholds⟩
    rcases h.mem_iff.mp ha with ⟨ha, -⟩ | rfl
    · exact ⟨a, ha, hak, hne, hholds⟩
    · exact absurd hpk hne
  · rintro ⟨a, ha, hak, hne, hholds⟩
    exact ⟨a, h.mem_iff.mpr (.inl ⟨ha, hne⟩), hak, hne, hholds⟩

theorem held_replaced :
    t.held old.slot ↔ s.heldByOther old.slot old.pk = true ∨ new.holds = true := by
  have hnew : t.bookings.get old.pk = some new := h.get_new
  rw [held_iff hnew hslot, heldByOther_replaced h hslot]

theorem booked_replaced (k : Uuid) : t.booked k ↔ s.booked k := by
  constructor
  · rintro ⟨a, ha, hak⟩
    rcases h.mem_iff.mp ha with ⟨ha, -⟩ | rfl
    · exact ⟨a, ha, hak⟩
    · exact ⟨old, h.old_mem, hslot ▸ hak⟩
  · rintro ⟨a, ha, hak⟩
    by_cases heq : a.pk = old.pk
    · obtain rfl : a = old := Table.eq_of_pk ha h.old_mem heq
      exact ⟨new, h.new_mem, hslot.trans hak⟩
    · exact ⟨a, h.mem_iff.mpr (.inl ⟨ha, heq⟩), hak⟩

/-- On other slots nothing changes. -/
theorem held_replaced_of_ne (hk : k ≠ old.slot) : t.held k ↔ s.held k := by
  constructor
  · rintro ⟨a, ha, hak, hholds⟩
    rcases h.mem_iff.mp ha with ⟨ha, -⟩ | rfl
    · exact ⟨a, ha, hak, hholds⟩
    · exact absurd (hak.symm.trans hslot) hk
  · rintro ⟨a, ha, hak, hholds⟩
    refine ⟨a, h.mem_iff.mpr (.inl ⟨ha, fun heq => ?_⟩), hak, hholds⟩
    obtain rfl : a = old := Table.eq_of_pk ha h.old_mem heq
    exact hk hak.symm

theorem agreesAt_of_ne (hk : k ≠ old.slot) (hslots : t.slots.get k = s.slots.get k)
    (hs : s.AgreesAt k) : t.AgreesAt k := by
  unfold Store.AgreesAt Store.blockedAt
  rw [booked_replaced h hslot, held_replaced_of_ne h hslot hk, hslots]
  exact hs

/-- The booking holds its slot as before, and no slot changes. -/
theorem agreesAt_rewritten (hholds : new.holds = old.holds) (hslots : t.slots = s.slots)
    (hs : s.AgreesAt k) : t.AgreesAt k := by
  by_cases hk : k = old.slot
  · subst hk
    have hold : s.bookings.get old.pk = some old := h.get
    unfold Store.AgreesAt Store.blockedAt
    rw [booked_replaced h hslot, held_replaced h hslot, hholds, hslots, ← held_iff hold rfl]
    exact hs
  · exact agreesAt_of_ne h hslot hk (by rw [hslots]) hs

/-- A row that does not begin to hold its slot adds no holder. -/
theorem heldByOther_mono (hholds : new.holds = true → old.holds = true)
    (hother : s.heldByOther k pk = false) : t.heldByOther k pk = false := by
  rw [Bool.eq_false_iff, ne_eq, heldByOther_iff] at hother ⊢
  rintro ⟨a, ha, hak, hne, ha'⟩
  rcases h.mem_iff.mp ha with ⟨ha, -⟩ | rfl
  · exact hother ⟨a, ha, hak, hne, ha'⟩
  · refine hother ⟨old, h.old_mem, hslot ▸ hak, fun hpk => hne ?_, hholds ha'⟩
    have hsame : a.pk = old.pk := h.pk
    exact hsame.trans hpk

end Replaced

/-! ## Effects -/

theorem occupancy_ne_blocked (n c : ℕ) : occupancy n c ≠ .blocked := by
  unfold occupancy
  split_ifs <;> simp

theorem not_blockedAt_occupied {n : ℕ} (h : s.slots.Replaced x (x.occupied n) t.slots) :
    ¬ t.blockedAt x.pk := by
  rintro ⟨y, hy, hblocked⟩
  obtain rfl : x.occupied n = y := Option.some.inj (h.get_new.symm.trans hy)
  exact occupancy_ne_blocked _ _ hblocked

/-- No booking holds an open slot. -/
theorem not_held_of_open (hs : s.AgreesAt x.pk) (hx : s.slots.get x.pk = some x)
    (hopen : x.isOpen = true) : ¬ s.held x.pk := by
  intro hheld
  have hbooked : s.booked x.pk := by
    obtain ⟨b, hb, hk, -⟩ := hheld
    exact ⟨b, hb, hk⟩
  obtain ⟨y, hy, hblocked⟩ := (hs hbooked).mp hheld
  obtain rfl : x = y := Option.some.inj (hx.symm.trans hy)
  simp [Slot.isOpen, hblocked] at hopen

theorem Opened.mem_iff (h : Opened b x s t) {a : Booking} :
    a ∈ t.bookings.rows ↔ a ∈ s.bookings.rows ∨ a = b := by
  rw [Table.mem_insert h.bookings]

theorem Opened.held_iff (h : Opened b x s t) (k : Uuid) : t.held k ↔ s.held k := by
  have hnot : b.holds = false := by simp [Booking.holds, h.fresh.2.2]
  constructor
  · rintro ⟨a, ha, hak, hholds⟩
    obtain ha | rfl := h.mem_iff.mp ha
    · exact ⟨a, ha, hak, hholds⟩
    · cases hnot.symm.trans hholds
  · rintro ⟨a, ha, hak, hholds⟩
    exact ⟨a, h.mem_iff.mpr (.inl ha), hak, hholds⟩

theorem Opened.agreesAt (h : Opened b x s t) (hs : ∀ k, s.AgreesAt k) : t.AgreesAt k := by
  intro hbooked
  rw [h.held_iff]
  by_cases hk : k = x.pk
  · subst hk
    have hnot := not_held_of_open (hs _) h.slots.get h.isOpen
    exact iff_of_false hnot (not_blockedAt_occupied h.slots)
  · have hslot : t.slots.get k = s.slots.get k := h.slots.get_of_ne (Ne.symm hk)
    obtain ⟨a, ha, hak⟩ := hbooked
    obtain ha | rfl := h.mem_iff.mp ha
    · unfold Store.blockedAt
      rw [hslot]
      exact hs k ⟨a, ha, hak⟩
    · exact absurd (hak.symm.trans h.slot) hk

/-- Closing a booking opens its slot, which then no other booking may hold. -/
theorem Closed.agreesAt (h : Closed old new x s t) (hother : s.heldByOther old.slot old.pk = false)
    (hs : ∀ k, s.AgreesAt k) : t.AgreesAt k := by
  by_cases hk : k = old.slot
  · subst hk
    intro _
    have hnew : new.holds = false := by
      obtain ⟨hnew, -⟩ | ⟨hnew, -⟩ := h.status <;>
        simp [Booking.holds, hnew, BookingStatus.isActive]
    rw [held_replaced h.bookings h.same.slot, hother, hnew, h.slot]
    exact iff_of_false (by simp) (not_blockedAt_occupied h.slots)
  · have hslot : t.slots.get k = s.slots.get k :=
      h.slots.get_of_ne fun hx => hk (hx.symm.trans h.slot.symm)
    exact agreesAt_of_ne h.bookings h.same.slot hk hslot (hs k)

theorem Confirmed.agreesAt (h : Confirmed old s t) (hs : ∀ k, s.AgreesAt k) : t.AgreesAt k := by
  refine agreesAt_rewritten h.bookings rfl ?_ h.slots (hs k)
  simp [Booking.holds, h.pending, BookingStatus.isActive]

theorem Absent.agreesAt {policy : SchedulingPolicy} (h : Absent seen policy old s t)
    (hs : ∀ k, s.AgreesAt k) : t.AgreesAt k :=
  agreesAt_rewritten h.bookings rfl rfl h.slots (hs k)

/-- Completing the last booking that holds a slot leaves the block behind; other slots agree. -/
theorem Completed.agreesAt_of_ne (h : Completed seen old s t) (hk : k ≠ old.slot)
    (hs : ∀ k, s.AgreesAt k) : t.AgreesAt k :=
  Appointments.agreesAt_of_ne h.bookings rfl hk (by rw [h.slots]) (hs k)

theorem Completed.agreesAt (h : Completed seen old s t)
    (hother : old.govstackExclusive = true → s.heldByOther old.slot old.pk = true)
    (hs : ∀ k, s.AgreesAt k) : t.AgreesAt k := by
  by_cases hk : k = old.slot
  · subst hk
    cases hexclusive : old.govstackExclusive with
    | false =>
      refine agreesAt_rewritten h.bookings rfl ?_ h.slots (hs _)
      simp [Booking.holds, hexclusive]
    | true =>
      have hold : s.bookings.get old.pk = some old := h.bookings.get
      have hheld := (held_iff hold rfl).mpr (.inl (hother hexclusive))
      intro hbooked
      rw [held_replaced h.bookings rfl]
      refine iff_of_true (.inl (hother hexclusive)) ?_
      unfold Store.blockedAt
      rw [h.slots]
      exact (hs _ ⟨old, h.bookings.old_mem, rfl⟩).mp hheld
  · exact h.agreesAt_of_ne hk hs

/-! ## The flag and the block -/

variable {u : Unit} {now : Instant} {status : SlotStatus} {exclusive : Bool} {entityId : String}
  {created bs : List Booking}

theorem Tagged.agreesAt (h : Tagged old new s t) (hholds : new.holds = old.holds)
    (hs : ∀ k, s.AgreesAt k) : t.AgreesAt k := by
  obtain ⟨hbookings, ht, hnew⟩ := h
  exact agreesAt_rewritten hbookings (by rw [hnew]) hholds (by rw [ht]) (hs k)

/-- The flag of a booking and then the status of its slot are written: they have to agree. -/
theorem Tagged.restatused (htag : Tagged old new s m) (h : Restatused x status m t)
    (hx : x.pk = old.slot)
    (hagree : s.heldByOther old.slot old.pk = true ∨ new.holds = true ↔ status = .blocked)
    (hs : ∀ k, k ≠ old.slot → s.AgreesAt k) : t.AgreesAt k := by
  obtain ⟨hbookings, hm, hnew⟩ := htag
  have hslot : new.slot = old.slot := by rw [hnew]
  have htm : t.bookings = m.bookings := by rw [h.2]
  have hrows : s.bookings.Replaced old new t.bookings := htm ▸ hbookings
  by_cases hk : k = old.slot
  · subst hk
    intro _
    rw [held_replaced hrows hslot, hagree]
    have hget : t.slots.get old.slot = some { x with status } := hx ▸ h.1.get_new
    simp [Store.blockedAt, hget]
  · have hslots : t.slots.get k = s.slots.get k := by
      have hms : m.slots = s.slots := by rw [hm]
      have hne : Slot.schema.pk x ≠ k := fun heq => hk (heq.symm.trans hx)
      rw [h.1.get_of_ne hne, hms]
    exact agreesAt_of_ne hrows hslot hk hslots (hs k hk)

/-- What `tagBookings` finds of a booking that was just made. -/
def Ready (exclusive : Bool) (s : Store) (b : Booking) : Prop :=
  ∃ row, s.bookings.get b.pk = some row ∧ row.slot = b.slot ∧ row.status.isActive = true ∧
    (exclusive = false → row.govstackExclusive = false)

theorem Opened.ready (h : Opened b x s t) : Ready exclusive t b :=
  ⟨b, Table.get_inserted h.bookings, rfl, h.active, fun _ => h.fresh.2.2⟩

theorem Ready.opened {a : Booking} (h : Opened b x s t) (ha : Ready exclusive s a) :
    Ready exclusive t a := by
  obtain ⟨row, hrow, hrest⟩ := ha
  exact ⟨row, Table.get_of_insert h.bookings hrow, hrest⟩

theorem bookEvents_agreesAt {citizen : User} {events : List Uuid} (hs : ∀ k, s.AgreesAt k)
    (hready : ∀ b ∈ created, Ready exclusive s b)
    (h : bookEvents seen now citizen events created s = .ok (bs, t)) :
    (∀ k, t.AgreesAt k) ∧ ∀ b ∈ bs, Ready exclusive t b := by
  induction events generalizing created s with
  | nil =>
    obtain ⟨rfl, rfl⟩ := pure_ok.mp h
    exact ⟨hs, hready⟩
  | cons event rest ih =>
    obtain ⟨y, -, h₁⟩ := found_bind.mp h
    obtain ⟨a, -, h₂⟩ := found_bind.mp h₁
    obtain ⟨b, m, hcreate, h₃⟩ := bind_ok.mp h₂
    obtain ⟨x, policy, hopened, -⟩ := createBooking_ok hcreate
    refine ih (fun k => hopened.agreesAt hs) (fun c hc => ?_) h₃
    rcases List.mem_append.mp hc with hc | hc
    · exact (hready c hc).opened hopened
    · exact List.mem_singleton.mp hc ▸ hopened.ready

theorem holds_of_tagged (hactive : old.status.isActive = true)
    (hnew : new.status = old.status) : new.holds = new.govstackExclusive := by
  simp [Booking.holds, hnew, hactive]

theorem tagBookings_agreesAt (hs : ∀ k, s.AgreesAt k) (hready : ∀ b ∈ bs, Ready exclusive s b)
    (h : tagBookings exclusive entityId bs s = .ok (u, t)) : ∀ k, t.AgreesAt k := by
  induction bs generalizing s with
  | nil =>
    obtain ⟨-, rfl⟩ := pure_ok.mp h
    exact hs
  | cons b rest ih =>
    obtain ⟨_, m, hsave, h₁⟩ := bind_ok.mp h
    obtain ⟨m', hlock, h₂⟩ := when_ok h₁
    obtain ⟨old, hold, hslot, hactive, hflag⟩ := hready b List.mem_cons_self
    obtain ⟨hnone, -⟩ | ⟨old', new, hold', htag, hexclusive⟩ := saveGovStack_ok hsave
    · cases hnone.symm.trans hold
    obtain rfl : old = old' := Option.some.inj (hold.symm.trans hold')
    have hpk : old.pk = b.pk := Table.pk_of_get hold
    have hnew : new.status = old.status := by rw [htag.2.2]
    have hholds : new.holds = exclusive := (holds_of_tagged hactive hnew).trans hexclusive
    have hkeep : ∀ c, Ready exclusive s c → Ready exclusive m c := by
      rintro c ⟨row, hrow, hrowslot, hrowactive, hrowflag⟩
      by_cases hc : old.pk = c.pk
      · obtain rfl : old = row := Option.some.inj ((hpk ▸ hold).symm.trans (hc ▸ hrow))
        refine ⟨new, hc ▸ htag.1.get_new, ?_, hnew ▸ hactive, fun hfalse => ?_⟩
        · rw [htag.2.2]
          exact hrowslot
        · rw [hexclusive, Option.getD_some, hfalse]
      · exact ⟨row, (htag.1.get_of_ne hc).trans hrow, hrowslot, hrowactive, hrowflag⟩
    obtain ⟨rfl, hlock⟩ | ⟨hnot, rfl⟩ := hlock
    · obtain ⟨x, hx, hrestatused⟩ := lockSlot_ok hlock
      refine ih (fun k => htag.restatused hrestatused (hx.trans hslot.symm) ?_ fun k _ => hs k)
        (fun c hc => ?_) h₂
      · simp [hholds]
      · have hm' : m'.bookings = m.bookings := by rw [hrestatused.2]
        obtain ⟨row, hrow, hrest⟩ := hkeep c (hready c (List.mem_cons_of_mem _ hc))
        exact ⟨row, hm' ▸ hrow, hrest⟩
    · have hfalse : exclusive = false := by simpa using hnot
      refine ih (fun k => htag.agreesAt ?_ hs)
        (fun c hc => hkeep c (hready c (List.mem_cons_of_mem _ hc))) h₂
      rw [hholds, hfalse, Booking.holds, hflag hfalse, Bool.and_false]

theorem appointmentCreate_agreesAt {r : AppointmentCreation} (hs : ∀ k, s.AgreesAt k)
    (h : appointmentCreate seen now r s = .ok (bs, t)) : ∀ k, t.AgreesAt k := by
  obtain ⟨citizen, entityId, m, -, hevents, htag⟩ := appointmentCreate_parts h
  have hnone : ∀ b ∈ ([] : List Booking), Ready r.exclusive s b := by simp
  obtain ⟨hm, hready⟩ := bookEvents_agreesAt hs hnone hevents
  exact tagBookings_agreesAt hm hready htag

/-! ## Modifying -/

variable {actor : Option User} {reason : String} {ip : Option String} {booking : Uuid}

theorem heldByOther_of_not_held (h : ¬ s.held k) : s.heldByOther k pk = false := by
  rw [Bool.eq_false_iff, ne_eq, heldByOther_iff]
  rintro ⟨a, ha, hak, -, hholds⟩
  exact h ⟨a, ha, hak, hholds⟩

/-- A booking moves out of a slot that no other booking holds. The new booking is alone. -/
theorem rescheduleBooking_agreesAt {newSlot : Uuid} (hs : ∀ k, s.AgreesAt k)
    (hother : ∀ old, s.bookings.get booking = some old → old.movable = true →
      s.heldByOther old.slot old.pk = false)
    (h : rescheduleBooking seen now booking newSlot actor reason ip s = .ok (b, t)) :
    (∀ k, t.AgreesAt k) ∧ t.heldByOther b.slot b.pk = false := by
  obtain ⟨old, new, x, y, m, hold, hmoved, -⟩ := rescheduleBooking_ok h
  have hmovable : old.movable = true := by
    simp [Booking.movable, hmoved.confirmed, hmoved.present]
  have hm : ∀ k, m.AgreesAt k := fun k => hmoved.closed.agreesAt (hother old hold hmovable) hs
  have hnot : ¬ t.held y.pk := by
    rw [hmoved.opened.held_iff]
    exact not_held_of_open (hm _) hmoved.opened.slots.get hmoved.opened.isOpen
  exact ⟨fun k => hmoved.opened.agreesAt hm, heldByOther_of_not_held (hmoved.opened.slot ▸ hnot)⟩

/-- A row that is written once more without holding its slot before or after. -/
theorem saveGovStack_idle {flag : Option Bool} {id : Option String}
    (hrow : ∀ row, s.bookings.get pk = some row →
      row.status.isActive = false ∨ flag.getD row.govstackExclusive = row.govstackExclusive)
    (h : saveGovStack pk flag id s = .ok (u, t)) :
    (∀ k, s.AgreesAt k) → (∀ k, t.AgreesAt k) := by
  intro hs
  obtain ⟨-, rfl⟩ | ⟨old, new, hold, htag, hflag⟩ := saveGovStack_ok h
  · exact hs
  · refine fun k => htag.agreesAt ?_ hs
    have hstatus : new.status = old.status := by rw [htag.2.2]
    obtain hinactive | hsame := hrow old hold
    · simp [Booking.holds, hstatus, hinactive]
    · simp [Booking.holds, hstatus, hflag, hsame]

end Civicos.Appointments
