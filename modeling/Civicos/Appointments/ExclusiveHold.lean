import Civicos.Appointments.ExclusiveFlag

/-!
# Exclusive bookings hold their slot

A modification is followed through its steps, and from the steps through the runs of the system.
-/
namespace Civicos.Appointments

open Library Library.Transaction
open Payments (Uuid)

variable {seen s m t : Store} {b c old new read moved : Booking} {x : Slot} {k : Uuid} {u : Unit}
  {now : Instant} {entityId : Option String} {exclusive : Option Bool}
  {status : Option StatusTransition}

/-! ## Moving to another event -/

theorem Restatused.heldByOther {status : SlotStatus} (h : Restatused x status s t) (k pk : Uuid) :
    t.heldByOther k pk = s.heldByOther k pk := by
  unfold Store.heldByOther
  rw [h.2]

theorem Tagged.heldByOther (h : Tagged old new s t) :
    t.heldByOther k old.pk = s.heldByOther k old.pk :=
  heldByOther_replaced h.1 (by rw [h.2.2]) k

/-- The new booking takes over the flag, alone in its slot. -/
theorem moveTo_agreesAt {event : Uuid} (hs : ∀ k, s.AgreesAt k)
    (hother : ∀ old, s.bookings.get read.pk = some old → old.movable = true →
      s.heldByOther old.slot old.pk = false)
    (h : moveTo seen now read event s = .ok (b, t)) :
    (∀ k, t.AgreesAt k) ∧ t.heldByOther b.slot b.pk = false ∧
      b.govstackExclusive = read.govstackExclusive := by
  obtain ⟨citizen, c, m₁, m₂, hreschedule, htag, rfl, hrest⟩ := moveTo_parts h
  obtain ⟨hm₁, halone⟩ := rescheduleBooking_agreesAt hs hother hreschedule
  obtain ⟨old, cancelled, x, y, m, hold, hmoved, -⟩ := rescheduleBooking_ok hreschedule
  have hc : m₁.bookings.get c.pk = some c := Table.get_inserted hmoved.opened.bookings
  have hgone : m₁.bookings.get read.pk = some cancelled := by
    have hpk : old.pk = read.pk := Table.pk_of_get hold
    exact hpk ▸ Table.get_of_insert hmoved.opened.bookings hmoved.closed.bookings.get_new
  have hne : c.pk ≠ read.pk := by
    intro heq
    obtain rfl : c = cancelled := Option.some.inj (hc.symm.trans (heq ▸ hgone))
    cases hmoved.status.symm.trans hmoved.cancelled
  obtain ⟨hnone, -⟩ | ⟨c', tagged, hc', htagged, hflag⟩ := saveGovStack_ok htag
  · cases hnone.symm.trans hc
  obtain rfl : c = c' := Option.some.inj (hc.symm.trans hc')
  have hactive : c.status.isActive = true := by rw [hmoved.status]; rfl
  have hholds : tagged.holds = read.govstackExclusive :=
    (holds_of_tagged hactive (by rw [htagged.2.2])).trans hflag
  have halone₂ : m₂.heldByOther c.slot c.pk = false := htagged.heldByOther.trans halone
  obtain ⟨hexclusive, m₃, hlock, hclear⟩ | ⟨hexclusive, rfl⟩ := hrest
  · obtain ⟨z, hz, hlocked⟩ := lockSlot_ok hlock
    have hm₃ : ∀ k, m₃.AgreesAt k := fun k =>
      htagged.restatused hlocked hz (by simp [hholds, hexclusive]) fun k _ => hm₁ k
    have hgone₃ : m₃.bookings.get read.pk = some cancelled := by
      have hsame : m₃.bookings = m₂.bookings := by rw [hlocked.2]
      rw [hsame, saveGovStack_frame htag hne, hgone]
    have hinactive : cancelled.status.isActive = false := by rw [hmoved.cancelled]; rfl
    refine ⟨saveGovStack_idle (fun row hrow => ?_) hclear hm₃, ?_, rfl⟩
    · obtain rfl : cancelled = row := Option.some.inj (hgone₃.symm.trans hrow)
      exact .inl hinactive
    · have halone₃ : m₃.heldByOther c.slot c.pk = false :=
        (hlocked.heldByOther c.slot c.pk).trans halone₂
      obtain ⟨hnone, -⟩ | ⟨row, cleared, hrow, hcleared, -⟩ := saveGovStack_ok hclear
      · cases hnone.symm.trans hgone₃
      obtain rfl : cancelled = row := Option.some.inj (hgone₃.symm.trans hrow)
      refine heldByOther_mono hcleared.1 (by rw [hcleared.2.2]) (fun hholds => ?_) halone₃
      rw [Booking.holds, hcleared.2.2] at hholds
      simp [hinactive] at hholds
  · refine ⟨fun k => htagged.agreesAt ?_ hm₁, halone₂, rfl⟩
    rw [hholds, hexclusive, Booking.holds, hmoved.opened.fresh.2.2, Bool.and_false]

/-! ## The transition -/

/-- What a transition leaves behind: only the completion of the last holder upsets its slot. -/
structure Settled (a c : Booking) (status : Option StatusTransition) (m t : Store) : Prop where
  row : t.bookings.get c.pk = some c
  slot : c.slot = a.slot
  others : ∀ k, k ≠ c.slot → t.AgreesAt k
  alone : t.heldByOther c.slot c.pk = m.heldByOther a.slot a.pk
  agrees : (status = some .completed → a.govstackExclusive = true →
    m.heldByOther a.slot a.pk = true) → t.AgreesAt c.slot

theorem transition_settled {a : Booking} (hs : ∀ k, m.AgreesAt k)
    (ha : m.bookings.get moved.pk = some a)
    (hclose : status.any (·.closes a) = true → m.heldByOther a.slot a.pk = false)
    (h : transition seen now moved status m = .ok (c, t)) :
    status = none ∧ c = moved ∧ t = m ∨ Settled a c status m t := by
  obtain hnone | ⟨old, hold, -, hslot, hrow, hcases⟩ := transition_ok h
  · exact .inl hnone
  obtain rfl : old = a := Option.some.inj (hold.symm.trans ha)
  refine .inr ?_
  obtain ⟨-, rfl, hconfirmed⟩ | ⟨hstatus, rfl, hcompleted⟩ | ⟨hstatus, -, x, hclosed⟩ := hcases
  · have hall : ∀ k, t.AgreesAt k := fun k => hconfirmed.agreesAt hs
    exact ⟨hrow, rfl, fun k _ => hall k, heldByOther_replaced hconfirmed.bookings rfl _,
      fun _ => hall _⟩
  · exact ⟨hrow, rfl, fun k hk => hcompleted.agreesAt_of_ne hk hs,
      heldByOther_replaced hcompleted.bookings rfl _,
      fun hother => hcompleted.agreesAt (hother hstatus) hs⟩
  · have hcloses : status.any (·.closes old) = true := by
      obtain ⟨rfl, hnew⟩ | ⟨rfl, -⟩ := hstatus
      · simpa [StatusTransition.closes] using hclosed.pending_of_rejected hnew
      · exact hclosed.active
    have hall : ∀ k, t.AgreesAt k := fun k => hclosed.agreesAt (hclose hcloses) hs
    refine ⟨hrow, hslot, fun k _ => hall k, ?_, fun _ => hall _⟩
    rw [hslot, hclosed.same.pk]
    exact heldByOther_replaced hclosed.bookings hclosed.same.slot _

/-! ## The flag -/

/-- The booking in hand has its row `a`, and only its own slot may be upset. -/
theorem toggleExclusive_agreesAt {a : Booking} (hrow : m.bookings.get c.pk = some a)
    (hslot : c.slot = a.slot) (hs : ∀ k, k ≠ c.slot → m.AgreesAt k)
    (hkeep : exclusive ≠ some false → m.AgreesAt c.slot)
    (hlock : exclusive = some true → c.status.isActive = true →
      a.status.isActive = true ∨ m.heldByOther a.slot a.pk = true)
    (hidle : exclusive = some true → c.status.isActive = false → a.status.isActive = false)
    (hunlock : exclusive = some false → m.heldByOther a.slot a.pk = false)
    (h : toggleExclusive c exclusive m = .ok (u, t)) : ∀ k, t.AgreesAt k := by
  have hall : exclusive ≠ some false → ∀ k, m.AgreesAt k := fun hne k => by
    by_cases hk : k = c.slot
    · exact hk ▸ hkeep hne
    · exact hs k hk
  match exclusive with
  | none =>
    obtain ⟨-, rfl⟩ := pure_ok.mp h
    exact hall (by simp)
  | some flag =>
    obtain ⟨_, m₁, hsave, hrest⟩ := bind_ok.mp h
    obtain ⟨hnone, -⟩ | ⟨row, new, hold, htag, hflag⟩ := saveGovStack_ok hsave
    · cases hnone.symm.trans hrow
    obtain rfl : a = row := Option.some.inj (hrow.symm.trans hold)
    have hstatus : new.status = a.status := by rw [htag.2.2]
    have hholds : new.holds = (a.status.isActive && flag) := by
      simp [Booking.holds, hstatus, hflag]
    cases flag with
    | false =>
      obtain ⟨x, hx, hunlocked⟩ := unlockSlot_ok hrest
      refine fun k => htag.restatused hunlocked (hx.trans hslot) ?_ fun k hk =>
        hs k fun hk' => hk (hk'.trans hslot)
      simp [hholds, hunlock rfl, occupancy_ne_blocked]
    | true =>
      by_cases hactive : c.status.isActive = true
      · simp only [hactive, if_true] at hrest
        obtain ⟨x, hx, hlocked⟩ := lockSlot_ok hrest
        refine fun k => htag.restatused hlocked (hx.trans hslot) ?_ fun k _ => hall (by simp) k
        obtain hactive' | hother := hlock rfl hactive
        · simp [hholds, hactive']
        · simp [hother]
      · simp only [hactive] at hrest
        obtain ⟨-, rfl⟩ := pure_ok.mp hrest
        have hinactive := hidle rfl (by simpa using hactive)
        have hsame : new.holds = a.holds := by
          rw [hholds, Booking.holds, hinactive, Bool.false_and, Bool.false_and]
        exact fun k => htag.agreesAt hsame (hall (by simp))

theorem saveEntityId_agreesAt (hs : ∀ k, s.AgreesAt k)
    (h : saveEntityId b entityId s = .ok (u, t)) : ∀ k, t.AgreesAt k := by
  cases entityId with
  | none =>
    obtain ⟨-, rfl⟩ := pure_ok.mp h
    exact hs
  | some id => exact saveGovStack_idle (fun _ _ => .inr rfl) h hs

/-! ## The condition -/

/-- Completing this booking leaves a block that no booking holds. -/
def Store.strands (s : Store) (old : Booking) : Bool :=
  old.status = .confirmed ∧ old.govstackExclusive ∧ !s.heldByOther old.slot old.pk

/-- The flag is set on a booking that was read as active and has ended since. -/
def Store.blocksLate (s : Store) (read old : Booking) : Bool :=
  read.status.isActive ∧ !old.status.isActive ∧ !s.heldByOther old.slot old.pk

/-- A modification that leaves a slot blocked without a booking that holds it. -/
def AppointmentModification.strands (r : AppointmentModification) (s : Store) (read old : Booking) :
    Bool :=
  if r.moves old.slot then
    r.completes ∧ r.exclusive ≠ some false ∧ old.movable ∧ read.govstackExclusive
  else
    r.completes ∧ r.exclusive ≠ some false ∧ s.strands old ∨
      (statusTransition r.statusId).toOption = some none ∧ r.exclusive = some true ∧
        s.blocksLate read old

/-- A request that leaves a slot blocked without a booking that holds it. -/
def Request.strands (seen s : Store) (old : Booking) : Request → Bool
  | completeBooking .. => s.strands old
  | appointmentModify r => (seen.bookings.get r.appointmentId).any fun read => r.strands s read old
  | _ => false

/-- The condition: a request on bookings frees no slot that another booking holds, and strands
none. -/
def keepsHold (s : Store) : Task → Bool
  | .running r seen _ => !r.onSlots ∧ r.target.all fun k => (s.bookings.get k).all fun old =>
      (r.frees old → !s.heldByOther old.slot old.pk) ∧ !r.strands seen s old
  | _ => true

/-! ## Modifying -/

/-- Steps 2 to 4, on the booking `moved` in hand with its row `a`. -/
theorem appointmentModify_settles {a : Booking} {m₁ m₂ m₃ : Store} (hs : ∀ k, m₁.AgreesAt k)
    (ha : m₁.bookings.get moved.pk = some a) (hslot : moved.slot = a.slot)
    (hidle : moved.status.isActive = false → a.status.isActive = false)
    (hclose : status.any (·.closes a) = true → m₁.heldByOther a.slot a.pk = false)
    (hunlock : exclusive = some false → m₁.heldByOther a.slot a.pk = false)
    (hcomplete : status = some .completed → exclusive ≠ some false → a.govstackExclusive = true →
      m₁.heldByOther a.slot a.pk = true)
    (hblank : status = none → exclusive = some true → moved.status.isActive = true →
      a.status.isActive = true ∨ m₁.heldByOther a.slot a.pk = true)
    (htransition : transition seen now moved status m₁ = .ok (c, m₂))
    (htoggle : toggleExclusive c exclusive m₂ = .ok ((), m₃))
    (hsave : saveEntityId c entityId m₃ = .ok ((), t)) : ∀ k, t.AgreesAt k := by
  refine saveEntityId_agreesAt ?_ hsave
  obtain ⟨hstatus, rfl, rfl⟩ | hsettled := transition_settled hs ha hclose htransition
  · exact toggleExclusive_agreesAt ha hslot (fun k _ => hs k) (fun _ => hs _) (hblank hstatus)
      (fun _ => hidle) hunlock htoggle
  · refine toggleExclusive_agreesAt hsettled.row rfl hsettled.others
      (fun hne => hsettled.agrees fun hstatus => hcomplete hstatus hne) (fun _ => .inl)
      (fun _ => id) (fun hx => hsettled.alone.trans (hunlock hx)) htoggle

theorem BookingStatus.Step.active {a b : BookingStatus} (h : BookingStatus.Step a b) :
    a.isActive = true := by
  cases h <;> rfl

/-- An ended booking stays ended. -/
theorem Booking.Onward.inactive (h : old.Onward new) (hold : old.status.isActive = false) :
    new.status.isActive = false := by
  obtain hsame | ⟨status, hstep, -⟩ := h.status.cases_head
  · rw [← hsame]
    exact hold
  · cases hstep.active.symm.trans hold

theorem appointmentModify_agreesAt {r : AppointmentModification} (hseen : Earlier seen s)
    (hs : ∀ k, s.AgreesAt k)
    (hfree : ∀ old, s.bookings.get r.appointmentId = some old → r.frees old = true →
      s.heldByOther old.slot old.pk = false)
    (hstrands : ∀ read old, seen.bookings.get r.appointmentId = some read →
      s.bookings.get r.appointmentId = some old → r.strands s read old = false)
    (h : appointmentModify seen now r s = .ok (b, t)) : ∀ k, t.AgreesAt k := by
  obtain ⟨status, entityId, read, moved, c, m₁, m₂, m₃, hstatus, hread, hmoved,
    htransition, htoggle,
    hsave⟩ := appointmentModify_parts h
  have hpk : read.pk = r.appointmentId := Table.pk_of_get hread
  obtain ⟨old, hold, honward⟩ := hseen.keeps _ _ hread
  have hslot : read.slot = old.slot := honward.slot.symm
  have hstrand := hstrands read old hread hold
  have hcompletes : status = some .completed → r.completes = true := by
    rintro rfl
    simp [AppointmentModification.completes, hstatus, Except.toOption]
  obtain ⟨rfl, rfl, hstays⟩ | ⟨event, -, hother, hto⟩ := moveAppointment_ok hmoved
  · have hmoves : r.moves old.slot = false := hslot ▸ hstays
    simp only [AppointmentModification.strands, hmoves, Bool.false_eq_true, if_false,
      decide_eq_false_iff_not, not_or, not_and] at hstrand
    refine appointmentModify_settles hs (hpk ▸ hold) hslot honward.inactive (fun hcloses => ?_)
      (fun hunlock => ?_) (fun hcomplete hkept hflag => ?_) (fun hblank hlock hactive => ?_)
      htransition htoggle hsave
    · have hcloses' : r.closes old = true := by
        simpa [AppointmentModification.closes, hstatus, Except.toOption] using hcloses
      exact hfree old hold (by simp [AppointmentModification.frees, hcloses'])
    · exact hfree old hold (by simp [AppointmentModification.frees, hunlock])
    · have hconfirmed : old.status = .confirmed := by
        obtain ⟨rfl, -⟩ | ⟨a, ha, -, -, -, hcases⟩ := transition_ok htransition
        · cases hcomplete
        · obtain rfl : old = a := Option.some.inj (hold.symm.trans (hpk ▸ ha))
          obtain ⟨hne, -⟩ | ⟨-, -, hcompleted⟩ | ⟨⟨hne, -⟩ | ⟨hne, -⟩, -⟩ := hcases
          · cases hne.symm.trans hcomplete
          · exact hcompleted.confirmed
          · cases hne.symm.trans hcomplete
          · cases hne.symm.trans hcomplete
      simpa [Store.strands, hconfirmed, hflag] using hstrand.1 (hcompletes hcomplete) hkept
    · have hnone : (statusTransition r.statusId).toOption = some none := by
        rw [hstatus, hblank]
        rfl
      have hlate := hstrand.2 hnone hlock
      simp only [Store.blocksLate, hactive, true_and, decide_eq_true_eq, not_and,
        Bool.not_eq_true', Bool.not_eq_false] at hlate
      cases hold' : old.status.isActive with
      | true => exact .inl rfl
      | false => exact .inr (hlate hold')
  · have hmoves : r.moves old.slot = true := hslot ▸ hother
    have hrow := (moveTo_ok hto).row
    obtain ⟨hm₁, halone, hflag⟩ := moveTo_agreesAt hs (fun a ha hmovable => by
      obtain rfl : old = a := Option.some.inj (hold.symm.trans (hpk ▸ ha))
      exact hfree old hold (by simp [AppointmentModification.frees, hmovable, hmoves])) hto
    refine appointmentModify_settles hm₁ hrow rfl id (fun _ => halone) (fun _ => halone)
      (fun hcomplete hkept hexclusive => ?_) (fun _ _ => .inl) htransition htoggle hsave
    have hmovable : old.movable = true := by
      obtain ⟨citizen, c', m, m', hreschedule, -⟩ := moveTo_parts hto
      obtain ⟨a, new, x, y, m'', ha, hmoved', -⟩ := rescheduleBooking_ok hreschedule
      obtain rfl : old = a := Option.some.inj (hold.symm.trans (hpk ▸ ha))
      simp [Booking.movable, hmoved'.confirmed, hmoved'.present]
    have hread' : read.govstackExclusive = true := hflag ▸ hexclusive
    simp [AppointmentModification.strands, hmoves, hcompletes hcomplete, hkept, hmovable,
      hread'] at hstrand

/-! ## Requests -/

variable {r : Request} {j : Option Sweep}

theorem agreesAt_noted (h : Audited s t) (hs : ∀ k, s.AgreesAt k) : ∀ k, t.AgreesAt k := by
  intro k
  have hk := hs k
  unfold Store.AgreesAt Store.booked Store.held Store.blockedAt at hk ⊢
  rw [h.bookings, h.slots]
  exact hk

theorem perform_agreesAt (hC : keepsHold s (.running r seen j) = true) (hseen : Earlier seen s)
    (hs : ∀ k, s.AgreesAt k) (h : r.perform seen now s = .ok (u, t)) : ∀ k, t.AgreesAt k := by
  simp only [keepsHold, decide_eq_true_eq, Bool.not_eq_true'] at hC
  obtain ⟨hr, htarget⟩ := hC
  have hrow : ∀ k old, r.target = some k → s.bookings.get k = some old →
      (r.frees old = true → s.heldByOther old.slot old.pk = false) ∧
        r.strands seen s old = false := by
    intro k old hk hold
    have hboth := htarget
    simp only [hk, hold, Option.all_some, decide_eq_true_eq] at hboth
    exact ⟨fun hfrees => by simpa using hboth.1 hfrees, by simpa using hboth.2⟩
  cases r with
  | createBooking slot citizen intake actor ip =>
    obtain ⟨_, _, hb, ⟨⟩⟩ := bind_ok.mp h
    obtain ⟨x, policy, hopened, -⟩ := createBooking_ok hb
    exact fun k => hopened.agreesAt hs
  | confirmBooking booking actor ip =>
    obtain ⟨_, _, hb, ⟨⟩⟩ := bind_ok.mp h
    obtain ⟨old, -, -, hconfirmed⟩ := confirmBooking_ok hb
    exact fun k => hconfirmed.agreesAt hs
  | rejectBooking booking actor reason ip =>
    obtain ⟨_, _, hb, ⟨⟩⟩ := bind_ok.mp h
    obtain ⟨old, x, hold, hstatus, -, hclosed⟩ := rejectBooking_ok hb
    have hpending := hclosed.pending_of_rejected hstatus
    exact fun k => hclosed.agreesAt ((hrow _ old rfl hold).1 (decide_eq_true hpending)) hs
  | cancelBooking booking actor reason ip =>
    obtain ⟨_, _, hb, ⟨⟩⟩ := bind_ok.mp h
    obtain ⟨old, x, hold, -, -, -, hclosed⟩ := cancelBooking_ok hb
    exact fun k => hclosed.agreesAt ((hrow _ old rfl hold).1 hclosed.active) hs
  | rescheduleBooking booking newSlot actor reason ip =>
    obtain ⟨_, _, hb, ⟨⟩⟩ := bind_ok.mp h
    exact (rescheduleBooking_agreesAt hs (fun old hold => (hrow _ old rfl hold).1) hb).1
  | markNoShow booking actor ip =>
    obtain ⟨_, _, hb, ⟨⟩⟩ := bind_ok.mp h
    obtain ⟨old, x, policy, -, -, -, -, habsent⟩ := markNoShow_ok hb
    exact fun k => habsent.agreesAt hs
  | completeBooking booking actor ip =>
    obtain ⟨_, _, hb, ⟨⟩⟩ := bind_ok.mp h
    obtain ⟨old, hold, -, hcompleted⟩ := completeBooking_ok hb
    have hstrand : s.strands old = false := (hrow _ old rfl hold).2
    refine fun k => hcompleted.agreesAt (fun hflag => ?_) hs
    simpa [Store.strands, hcompleted.confirmed, hflag] using hstrand
  | appointmentCreate r =>
    obtain ⟨_, _, hb, ⟨⟩⟩ := bind_ok.mp h
    exact appointmentCreate_agreesAt hs hb
  | appointmentModify r =>
    obtain ⟨_, _, hb, ⟨⟩⟩ := bind_ok.mp h
    refine appointmentModify_agreesAt hseen hs (fun old hold => (hrow _ old rfl hold).1)
      (fun read old hread hold => ?_) hb
    simpa [Request.strands, hread] using (hrow _ old rfl hold).2
  | appointmentDelete id caller =>
    obtain ⟨_, _, hb, ⟨⟩⟩ := bind_ok.mp h
    obtain ⟨citizen, hcancel⟩ := appointmentDelete_ok hb
    obtain ⟨old, x, hold, -, -, -, hclosed⟩ := cancelBooking_ok hcancel
    exact fun k => hclosed.agreesAt ((hrow _ old rfl hold).1 hclosed.active) hs
  | logCreate r =>
    obtain ⟨_, _, hb, ⟨⟩⟩ := bind_ok.mp h
    exact agreesAt_noted (logCreate_ok hb).1 hs
  | _ => cases hr

/-- The requests that book slot `k`. -/
def Request.enters (seen : Store) (k : Uuid) : Request → Bool
  | createBooking slot .. => slot = k
  | rescheduleBooking _ newSlot .. => newSlot = k
  | appointmentCreate r => k ∈ r.eventIds
  | appointmentModify r =>
    r.eventId = some k ∧ (seen.bookings.get r.appointmentId).any (·.slot ≠ k)
  | _ => false

theorem not_blockedAt_of_open (hx : s.slots.get k = some x) (hopen : x.isOpen = true) :
    ¬ s.blockedAt k := by
  rintro ⟨y, hy, hblocked⟩
  obtain rfl : x = y := Option.some.inj (hx.symm.trans hy)
  simp [Slot.isOpen, hblocked] at hopen

theorem bookEvents_open {citizen : User} {events : List Uuid} {created bs : List Booking}
    (h : bookEvents seen now citizen events created s = .ok (bs, t)) (hk : k ∈ events) :
    ¬ s.blockedAt k := by
  induction events generalizing created s with
  | nil => cases hk
  | cons event rest ih =>
    obtain ⟨y, hy, h₁⟩ := found_bind.mp h
    obtain ⟨a, -, h₂⟩ := found_bind.mp h₁
    obtain ⟨b, m, hcreate, h₃⟩ := bind_ok.mp h₂
    obtain ⟨x, policy, hopened, -, hslot, -⟩ := createBooking_ok hcreate
    have hevent : x.pk = event := by
      have hpk : y.pk = event := Table.pk_of_get hy
      exact hopened.slot.symm.trans (hslot.trans hpk)
    by_cases heq : x.pk = k
    · exact not_blockedAt_of_open (heq ▸ hopened.slots.get) hopened.isOpen
    · intro hblocked
      obtain rfl | hmem := List.mem_cons.mp hk
      · exact heq hevent
      · refine ih h₃ hmem ?_
        unfold Store.blockedAt at hblocked ⊢
        have hsame : m.slots.get k = s.slots.get k := hopened.slots.get_of_ne heq
        rwa [hsame]

/-- No request books a blocked slot. -/
theorem perform_open (hr : r.enters seen k = true) (h : r.perform seen now s = .ok (u, t)) :
    ¬ s.blockedAt k := by
  cases r with
  | createBooking slot citizen intake actor ip =>
    obtain ⟨_, _, hb, ⟨⟩⟩ := bind_ok.mp h
    obtain ⟨x, policy, hopened, -, hslot, -⟩ := createBooking_ok hb
    obtain rfl : slot = k := of_decide_eq_true hr
    have hx : x.pk = slot := hopened.slot.symm.trans hslot
    exact not_blockedAt_of_open (hx ▸ hopened.slots.get) hopened.isOpen
  | rescheduleBooking booking newSlot actor reason ip =>
    obtain ⟨_, _, hb, ⟨⟩⟩ := bind_ok.mp h
    obtain ⟨old, new, x, y, m, -, -, -, -, z, hz, hopen⟩ := rescheduleBooking_ok hb
    obtain rfl : newSlot = k := of_decide_eq_true hr
    exact not_blockedAt_of_open hz hopen
  | appointmentCreate r =>
    obtain ⟨_, _, hb, ⟨⟩⟩ := bind_ok.mp h
    obtain ⟨citizen, entityId, m, -, hevents, -⟩ := appointmentCreate_parts hb
    have hmem : k ∈ r.eventIds := of_decide_eq_true hr
    exact bookEvents_open hevents (List.mem_mergeSort.mpr hmem)
  | appointmentModify r =>
    obtain ⟨_, _, hb, ⟨⟩⟩ := bind_ok.mp h
    obtain ⟨status, entityId, read, moved, c, m₁, m₂, m₃, -, hread, hmoved, -⟩ :=
      appointmentModify_parts hb
    obtain ⟨hevent, hother⟩ : r.eventId = some k ∧ read.slot ≠ k := by
      simpa [Request.enters, hread] using hr
    rw [hevent] at hmoved
    obtain ⟨-, -, hstays⟩ | ⟨event, hk, -, hto⟩ := moveAppointment_ok hmoved
    · simp [Ne.symm hother] at hstays
    · obtain rfl := Option.some.inj hk
      obtain ⟨x, hx, hopen⟩ := (moveTo_ok hto).open_
      exact not_blockedAt_of_open hx hopen
  | _ => cases hr

/-! ## Runs -/

abbrev exclusiveKept := system.under fun s task _ => keepsHold s task = true

theorem administer_agreesAt {e : Administration} (hbalanced : s.Balanced) (hs : ∀ k, s.AgreesAt k)
    (h : administer s e = some t) : ∀ k, t.AgreesAt k := by
  obtain ⟨_, rfl⟩ | ⟨x, T, -, hT, rfl⟩ | ⟨_, _, -, rfl⟩ := administer_cases h
  · exact hs
  · intro k hbooked
    obtain ⟨b, hb, rfl⟩ := hbooked
    obtain ⟨y, hy⟩ := Option.isSome_iff_exists.mp (hbalanced.attached b hb)
    have hslots : T.get b.slot = s.slots.get b.slot :=
      (Table.get_of_insert hT hy).trans hy.symm
    unfold Store.blockedAt
    rw [hslots]
    exact hs b.slot ⟨b, hb, rfl⟩
  · exact hs

theorem reachable_agreesAt {s : Pool.State Store Task} (h : exclusiveKept.machine.Reachable s) :
    ∀ k, s.store.AgreesAt k := by
  refine (invariant_under (I := fun m => m.Balanced ∧ ∀ k, m.AgreesAt k) (fun s hs => ?_)
    (fun s now hs => ⟨hs.1.clocked now, hs.2⟩) (fun s e t hs he => ?_)
    (fun r seen job now db t hC hseen hs hrun => ?_) h).2
  · refine ⟨initial_balanced hs, fun k => ?_⟩
    rintro ⟨b, hb, -⟩
    rw [hs.bookings] at hb
    cases hb
  · exact ⟨administer_balanced hs.1 he, administer_agreesAt hs.1 hs.2 he⟩
  · exact ⟨perform_balanced (s := { db with clock := now }) hseen hs.1 hrun,
      perform_agreesAt (s := { db with clock := now }) (j := job) hC hseen hs.2 hrun⟩

/-- In a run that meets the condition, an active exclusive booking keeps its slot blocked and out
of reach, and a booked slot that is blocked has one. -/
theorem exclusive_holds {s : Pool.State Store Task} (h : exclusiveKept.machine.Reachable s) :
    (∀ b ∈ s.store.bookings.rows, b.status.isActive = true → b.govstackExclusive = true →
      (∃ x, s.store.slots.get b.slot = some x ∧ x.status = .blocked) ∧
      ∀ (r : Request) seen now, r.enters seen b.slot = true →
        ∃ e, r.perform seen now { s.store with clock := now } = .error e) ∧
    ∀ x ∈ s.store.slots.rows, x.status = .blocked → (∃ b ∈ s.store.bookings.rows, b.slot = x.pk) →
      ∃ b ∈ s.store.bookings.rows, b.slot = x.pk ∧ b.status.isActive = true ∧
        b.govstackExclusive = true := by
  have hagrees := reachable_agreesAt h
  refine ⟨fun b hb hactive hexclusive => ?_, fun x hx hblocked hbooked => ?_⟩
  · have hholds : b.holds = true := by rw [Booking.holds, hactive, hexclusive]; rfl
    have hblocked := (hagrees b.slot ⟨b, hb, rfl⟩).mp ⟨b, hb, rfl, hholds⟩
    refine ⟨hblocked, fun r seen now hr => ?_⟩
    cases hrun : r.perform seen now { s.store with clock := now } with
    | error e => exact ⟨e, rfl⟩
    | ok p =>
      obtain ⟨u, t⟩ := p
      exact absurd hblocked (perform_open (s := { s.store with clock := now }) hr hrun)
  · obtain ⟨b, hb, hslot, hholds⟩ :=
      (hagrees x.pk hbooked).mpr ⟨x, Table.get_eq_some.mpr ⟨hx, rfl⟩, hblocked⟩
    have hboth : b.status.isActive = true ∧ b.govstackExclusive = true := by
      simpa [Booking.holds] using hholds
    exact ⟨b, hb, hslot, hboth⟩

/-- An exclusive booking of the first slot. -/
def heldOnce : Pool.State Store Task :=
  exclusiveKept.machine.final ⟨{}, []⟩ (clinic ++ serial 0 0 [
    .appointmentCreate { eventIds := [1], participantId := "7", exclusive := true }])

theorem heldOnce_blocked : ∃ b ∈ heldOnce.store.bookings.rows, b.slot = 1 ∧
    (∃ x, heldOnce.store.slots.get 1 = some x ∧ x.status = .blocked) ∧
    ∀ (r : Request) seen now, r.enters seen 1 = true →
      ∃ e, r.perform seen now { heldOnce.store with clock := now } = .error e := by
  have hreachable : exclusiveKept.machine.Reachable heldOnce :=
    Machine.Reachable.final (M := exclusiveKept.machine) (s := ⟨{}, []⟩) initial_empty _
  obtain ⟨b, hb, hslot, hactive, hexclusive⟩ : ∃ b ∈ heldOnce.store.bookings.rows, b.slot = 1 ∧
      b.status.isActive = true ∧ b.govstackExclusive = true := by decide +kernel
  exact ⟨b, hb, hslot, hslot ▸ (exclusive_holds hreachable).1 b hb hactive hexclusive⟩

/-- A citizen holds the group slot alone; the booking that stood there before is cancelled. -/
def reopened : Pool.State Store Task :=
  system.machine.final ⟨{}, []⟩ (clinic ++ serial 0 0 [
    .createBooking 1 8 {} none none,
    .appointmentCreate { eventIds := [1], participantId := "7", exclusive := true },
    .cancelBooking 1 none "" none])

/-- The exclusive booking is over, and its slot still blocked. -/
def stranded : Pool.State Store Task :=
  system.machine.final ⟨{}, []⟩ (clinic ++ serial 0 0 [
    .appointmentCreate { eventIds := [1], participantId := "7", exclusive := true },
    .confirmBooking 1 (some ⟨9, true, true⟩) none,
    .completeBooking 1 (some ⟨9, true, true⟩) none])

theorem exclusive_hold_fails :
    (∃ s : Pool.State Store Task, system.machine.Reachable s ∧
      (s.store.bookings.get 2).any (fun b => b.slot = 1 ∧ b.holds) = true ∧
      (s.store.slots.get 1).map (·.status) = some .partiallyBooked) ∧
    ∃ s : Pool.State Store Task, system.machine.Reachable s ∧
      s.store.bookings.rows.map (fun b => (b.slot, b.status)) = [(1, .completed)] ∧
      (s.store.slots.get 1).map (·.status) = some .blocked :=
  ⟨⟨reopened, Machine.Reachable.final (M := system.machine) (s := ⟨{}, []⟩) initial_empty _,
      by decide +kernel, by decide +kernel⟩,
    ⟨stranded, Machine.Reachable.final (M := system.machine) (s := ⟨{}, []⟩) initial_empty _,
      by decide +kernel, by decide +kernel⟩⟩

end Civicos.Appointments
