import Civicos.Appointments.Capacity

/-!
# Cancelled events

`cancel_slot` refuses a slot with active bookings, the event interface cancels any slot.
-/
namespace Civicos.Appointments

open Library Library.Transaction
open Payments (Uuid)

/-- No active booking stands in a cancelled slot. -/
def Store.Vacated (s : Store) : Prop :=
  ∀ k x, s.slots.get k = some x → x.status = .cancelled →
    ∀ b ∈ s.bookings.rows, b.slot = k → b.status.isActive = false

variable {seen s t : Store} {P : Permits} {k : Uuid} {b old new : Booking} {x x' : Slot}

theorem activeBookingCount_eq_zero : activeBookingCount s k = 0 ↔
    ∀ b ∈ s.bookings.rows, b.slot = k → b.status.isActive = false := by
  simp [activeBookingCount, Store.bookingsOf, List.countP_eq_zero]

namespace Store.Vacated

/-- A slot is rewritten: only when it becomes cancelled something is to be shown. -/
theorem slot_replaced (hs : s.Vacated) (hslots : s.slots.Replaced x x' t.slots)
    (hbookings : t.bookings = s.bookings)
    (hnew : x'.status = .cancelled → x.status = .cancelled ∨ activeBookingCount s x.pk = 0) :
    t.Vacated := by
  intro k y hy hcancelled
  rw [hbookings]
  rw [hslots.get_eq] at hy
  split at hy
  next hk =>
    subst hk
    cases hy
    obtain hold | hnone := hnew hcancelled
    · exact hs _ x hslots.get hold
    · exact activeBookingCount_eq_zero.mp hnone
  next => exact hs k y hy hcancelled

/-- A booking is rewritten that does not become active. -/
theorem booking_replaced (hs : s.Vacated) (hbookings : s.bookings.Replaced old new t.bookings)
    (hslots : ∀ k y, t.slots.get k = some y → y.status = .cancelled →
      ∃ z, s.slots.get k = some z ∧ z.status = .cancelled)
    (hslot : new.slot = old.slot)
    (hactive : old.status.isActive = false → new.status.isActive = false) : t.Vacated := by
  intro k y hy hcancelled b hb hbk
  obtain ⟨z, hz, hzcancelled⟩ := hslots k y hy hcancelled
  rcases hbookings.mem_iff.mp hb with ⟨hb, -⟩ | rfl
  · exact hs k z hz hzcancelled b hb hbk
  · exact hactive (hs k z hz hzcancelled old hbookings.old_mem (hslot ▸ hbk))

end Store.Vacated

theorem occupancy_ne_cancelled (n c : ℕ) : occupancy n c ≠ .cancelled := by
  unfold occupancy
  split_ifs <;> simp

/-- After an occupied slot is rewritten, no further slot is cancelled. -/
theorem cancelled_of_occupied {n : ℕ}
    (hslots : s.slots.Replaced x (x.occupied n) t.slots) (k : Uuid)
    (y : Slot) (hy : t.slots.get k = some y) (hcancelled : y.status = .cancelled) :
    s.slots.get k = some y := by
  rw [hslots.get_eq] at hy
  split at hy
  next =>
    cases hy
    exact absurd hcancelled (occupancy_ne_cancelled _ _)
  next => exact hy

theorem Opened.vacated (h : Opened b x s t) (hs : s.Vacated) : t.Vacated := by
  intro k y hy hcancelled a ha hak
  have hold := cancelled_of_occupied h.slots k y hy hcancelled
  rw [Table.mem_insert h.bookings] at ha
  obtain ha | rfl := ha
  · exact hs k y hold hcancelled a ha hak
  · have hx : s.slots.get a.slot = some x := h.slot ▸ h.slots.get
    obtain rfl : x = y := Option.some.inj (hx.symm.trans (hak ▸ hold))
    have hopen := h.isOpen
    simp [Slot.isOpen, hcancelled] at hopen

theorem Closed.vacated (h : Closed old new x s t) (hs : s.Vacated) : t.Vacated := by
  refine hs.booking_replaced h.bookings (fun k y hy hcancelled => ?_) h.same.slot fun _ => ?_
  · exact ⟨y, cancelled_of_occupied h.slots k y hy hcancelled, hcancelled⟩
  · obtain ⟨hnew, -⟩ | ⟨hnew, -⟩ := h.status <;>
      · rw [hnew]
        rfl

theorem Move.vacated (h : Move seen P s t) (hs : s.Vacated) : t.Vacated := by
  have hsame : t.slots = s.slots → ∀ k y, t.slots.get k = some y → y.status = .cancelled →
      ∃ z, s.slots.get k = some z ∧ z.status = .cancelled := fun heq k y hy hcancelled =>
    ⟨y, heq ▸ hy, hcancelled⟩
  cases h with
  | opened _ h => exact h.vacated hs
  | closed _ h => exact h.vacated hs
  | moved _ h => exact h.opened.vacated (h.closed.vacated hs)
  | confirmed h =>
    refine hs.booking_replaced h.bookings (hsame h.slots) rfl fun hold => ?_
    rw [h.pending] at hold
    cases hold
  | completed _ h => exact hs.booking_replaced h.bookings (hsame h.slots) rfl fun _ => rfl
  | absent _ h => exact hs.booking_replaced h.bookings (hsame h.slots) rfl id
  | tagged h =>
    obtain ⟨hbookings, ht, hnew⟩ := h
    exact hs.booking_replaced hbookings (hsame (by rw [ht])) (by rw [hnew]) (by rw [hnew]; exact id)
  | locked h => exact hs.slot_replaced h.1 (by rw [h.2]) (by simp)
  | reopened _ h =>
    exact hs.slot_replaced h.1 (by rw [h.2]) fun hnew => absurd hnew (occupancy_ne_cancelled _ _)
  | noted h =>
    intro k y hy hcancelled
    rw [h.bookings]
    exact hs k y (h.slots ▸ hy) hcancelled

/-- `C` are slots that had no active bookings when they were to be cancelled. -/
theorem Manage.vacated {C : Uuid → Prop} (hC : ∀ k, C k → activeBookingCount s k = 0)
    (h : Manage C s t) (hs : s.Vacated) : t.Vacated := by
  cases h with
  | blocked h status => exact hs.slot_replaced h.slots h.bookings (by simp [status])
  | restated h cancels =>
    exact hs.slot_replaced h.slots h.bookings fun hnew => .inr (hC _ (cancels hnew))
  | retimed h status => exact hs.slot_replaced h.slots h.bookings fun hnew => .inl (status ▸ hnew)
  | completed h status => exact hs.slot_replaced h.slots h.bookings (by simp [status])

/-! ## Runs -/

/-- The condition: the event interface cancels only slots without active bookings. -/
def cancelsVacant (s : Store) : Task → Bool
  | .running r _ _ => r.cancels.all fun k => activeBookingCount s k = 0
  | _ => true

variable {r : Request} {u : Unit} {j : Option Sweep} {now : Instant}

theorem perform_vacated (hC : cancelsVacant s (.running r seen j) = true)
    (hseen : Earlier seen s) (hs : s.Vacated) (h : r.perform seen now s = .ok (u, t)) :
    t.Vacated := by
  cases hr : r.onSlots with
  | true =>
    refine ((perform_manages (C := fun k => activeBookingCount s k = 0) hr (fun k hk => ?_)
      (fun _ hk => hk) h).keeps (I := fun m => m.Vacated ∧ m.bookings = s.bookings)
      (fun m m' hmanage hm => ?_) ⟨hs, rfl⟩).1
    · simpa [cancelsVacant, hk] using hC
    · have hcount : ∀ k, activeBookingCount m k = activeBookingCount s k := fun k => by
        simp [activeBookingCount, Store.bookingsOf, hm.2]
      exact ⟨hmanage.vacated (fun k hk => (hcount k).trans hk) hm.1, hmanage.bookings.trans hm.2⟩
  | false =>
    exact (perform_moves (P := {}) hr hseen (fun _ => trivial) (fun _ => trivial)
      (fun _ _ _ _ _ => trivial) (fun _ _ _ _ => trivial) (fun _ _ _ _ _ _ => trivial) h).keeps
        (fun _ _ hmove => hmove.vacated) hs

/-- A new slot has no bookings, and is not taken for a cancelled one before. -/
theorem administer_vacated {e : Administration} (hs : s.Vacated) (hbalanced : s.Balanced)
    (h : administer s e = some t) : t.Vacated := by
  obtain ⟨_, rfl⟩ | ⟨x, T, -, hT, rfl⟩ | ⟨_, _, -, rfl⟩ := administer_cases h
  · exact hs
  · intro k y hy hcancelled b hb hbk
    obtain ⟨z, hz⟩ := Option.isSome_iff_exists.mp (hbalanced.attached b hb)
    subst hbk
    obtain rfl : z = y := Option.some.inj ((Table.get_of_insert hT hz).symm.trans hy)
    exact hs _ z hz hcancelled b hb rfl
  · exact hs

abbrev vacantCancelled := system.under fun s task _ => cancelsVacant s task = true

theorem reachable_vacated {s : Pool.State Store Task} (h : vacantCancelled.machine.Reachable s) :
    s.store.Vacated := by
  refine (invariant_under (I := fun s => s.Vacated ∧ s.Balanced) (fun s hs => ?_)
    (fun s now hs => ⟨hs.1, hs.2.clocked now⟩)
    (fun s e t hs he => ⟨administer_vacated hs.1 hs.2 he, administer_balanced hs.2 he⟩)
    (fun r seen job now db t hC hseen hs hrun => ⟨perform_vacated (s := { db with clock := now })
      (j := job) hC hseen hs.1 hrun,
      perform_balanced (s := { db with clock := now }) hseen hs.2 hrun⟩) h).1
  exact ⟨by simp [Store.Vacated, hs.bookings], initial_balanced hs⟩

/-- In a run that meets the condition, a cancelled slot has no pending or confirmed booking. -/
theorem cancelled_slots_vacated {s : Pool.State Store Task}
    (h : vacantCancelled.machine.Reachable s) :
    ∀ x ∈ s.store.slots.rows, x.status = .cancelled →
      ∀ b ∈ s.store.bookings.rows, b.slot = x.pk → b.status ≠ .pending ∧ b.status ≠ .confirmed := by
  intro x hx hcancelled b hb hbx
  have hactive := reachable_vacated h x.pk x (Table.get_eq_some.mpr ⟨hx, rfl⟩) hcancelled b hb hbx
  constructor
  · intro hstatus
    simp [hstatus, BookingStatus.isActive] at hactive
  · intro hstatus
    simp [hstatus, BookingStatus.isActive] at hactive

/-- The event of a cancelled booking is deleted. -/
def deletedVacant : Pool.State Store Task :=
  vacantCancelled.machine.final ⟨{}, []⟩ (clinic ++ serial 0 0 [
    .createBooking 1 7 {} none none, .cancelBooking 1 none "" none, .eventDelete 1])

theorem deletedVacant_vacated :
    (deletedVacant.store.slots.get 1).map (·.status) = some .cancelled ∧
    ∀ x ∈ deletedVacant.store.slots.rows, x.status = .cancelled →
      ∀ b ∈ deletedVacant.store.bookings.rows, b.slot = x.pk →
        b.status ≠ .pending ∧ b.status ≠ .confirmed :=
  ⟨by decide +kernel, cancelled_slots_vacated
    (Machine.Reachable.final (M := vacantCancelled.machine) (s := ⟨{}, []⟩) initial_empty _)⟩

/-- The event of a pending booking is deleted. -/
def deletedBooked : Pool.State Store Task :=
  system.machine.final ⟨{}, []⟩
    (clinic ++ serial 0 0 [.createBooking 1 7 {} none none, .eventDelete 1])

theorem deleted_event_booked : ∃ s : Pool.State Store Task, system.machine.Reachable s ∧
    (s.store.slots.get 1).map (·.status) = some .cancelled ∧
    (s.store.bookings.get 1).map (fun b => (b.slot, b.status)) = some (1, .pending) :=
  ⟨deletedBooked, Machine.Reachable.final (M := system.machine) (s := ⟨{}, []⟩) initial_empty _,
    by decide +kernel, by decide +kernel⟩

end Civicos.Appointments
