import Civicos.Appointments.Requests

/-!
# The capacity of slots

Every operation that changes how many bookings occupy a slot changes the counter of that slot by
as much.
-/
namespace Civicos.Appointments

open Library
open Payments (Uuid)

/-- Whether a booking occupies a space of a slot. -/
def Booking.weight (slot : Uuid) (b : Booking) : ℤ :=
  if b.slot = slot ∧ b.status.holdsSpace = true then 1 else 0

namespace Store

def occupants (s : Store) (slot : Uuid) : ℤ := Table.total (Booking.weight slot) s.bookings

/-- Bookings stand in slots that exist, and the counters count them. -/
structure Balanced (s : Store) : Prop where
  attached : ∀ b ∈ s.bookings.rows, (s.slots.get b.slot).isSome = true
  used : ∀ k x, s.slots.get k = some x → (x.spacesUsed : ℤ) = s.occupants k
  unclipped : s.clipped = 0

variable {s t : Store}

theorem occupants_congr (h : t.bookings = s.bookings) (k : Uuid) :
    t.occupants k = s.occupants k := by
  unfold occupants
  rw [h]

theorem occupants_nonneg (s : Store) (k : Uuid) : 0 ≤ s.occupants k :=
  Table.total_nonneg fun b _ => by
    unfold Booking.weight
    split <;> simp

/-- The sum of the weights is the number of occupying bookings. -/
theorem occupants_eq_countP (s : Store) (k : Uuid) :
    s.occupants k = s.bookings.rows.countP fun b => b.slot = k ∧ b.status.holdsSpace = true := by
  rw [← Table.total_indicator]
  simp only [occupants, decide_eq_true_eq]
  rfl

end Store

theorem Store.Balanced.unoccupied {s : Store} {k j : Uuid} (hs : s.Balanced) (hk : j = k)
    (hnone : s.slots.get j = none) : s.occupants k = 0 := by
  subst hk
  apply List.sum_eq_zero
  intro w hw
  obtain ⟨b, hb, rfl⟩ := List.mem_map.mp hw
  have hne : ¬ b.slot = j := by
    rintro rfl
    simpa [hnone] using hs.attached b hb
  simp [Booking.weight, hne]

/-! ## Moves -/

variable {seen s t : Store} {P : Permits} {b old new : Booking} {x x' : Slot}

theorem holdsSpace_of_active {status : BookingStatus} (h : status.isActive = true) :
    status.holdsSpace = true := by
  cases status <;> simp_all [BookingStatus.isActive, BookingStatus.holdsSpace]

/-- A replaced booking of the same slot changes the count of that slot only. -/
theorem occupants_replaced (h : s.bookings.Replaced old new t.bookings) (k : Uuid) :
    t.occupants k = s.occupants k - old.weight k + new.weight k := h.total_eq

/-- Bookings stay attached when slots stay, and rows only change beside their slot. -/
theorem attached_replaced (h : s.bookings.Replaced old new t.bookings) (hslot : new.slot = old.slot)
    (hslots : ∀ k, (t.slots.get k).isSome = (s.slots.get k).isSome)
    (hs : ∀ b ∈ s.bookings.rows, (s.slots.get b.slot).isSome = true) :
    ∀ b ∈ t.bookings.rows, (t.slots.get b.slot).isSome = true := by
  intro b hb
  rw [hslots]
  rcases h.mem_iff.mp hb with ⟨hb, -⟩ | rfl
  · exact hs b hb
  · rw [hslot]
    exact hs old h.old_mem

theorem Opened.balanced (h : Opened b x s t) (hs : s.Balanced) : t.Balanced where
  attached := by
    intro a ha
    rw [h.slots.get_isSome]
    rw [Table.mem_insert h.bookings] at ha
    obtain ha | rfl := ha
    · exact hs.attached a ha
    · rw [h.slot, show s.slots.get x.pk = some x from h.slots.get]
      rfl
  used := by
    intro k y hy
    have hcount : t.occupants k = s.occupants k + b.weight k := Table.total_insert h.bookings
    rw [h.slots.get_eq] at hy
    split at hy
    next hk =>
      have hx := hs.used x.pk x h.slots.get
      have hk : x.pk = k := hk
      have hone : b.weight k = 1 := by
        simp [Booking.weight, h.slot, hk, holdsSpace_of_active h.active]
      cases hy
      rw [hcount, hone, ← hk, ← hx]
      simp [Slot.occupied]
    next hk =>
      have hzero : b.weight k = 0 := by
        have hne : ¬ b.slot = k := by rw [h.slot]; exact hk
        simp [Booking.weight, hne]
      rw [hcount, hzero, hs.used k y hy, Int.add_zero]
  unclipped := h.clipped.trans hs.unclipped

/-- An active booking is counted, so there is a space to give back. -/
theorem Closed.balanced (h : Closed old new x s t) (hs : s.Balanced) : t.Balanced := by
  have hone : old.weight x.pk = 1 := by
    simp [Booking.weight, h.slot, holdsSpace_of_active h.active]
  have hzero : ∀ k, new.weight k = 0 := by
    intro k
    obtain ⟨hnew, -⟩ | ⟨hnew, -⟩ := h.status <;>
      simp [Booking.weight, hnew, BookingStatus.holdsSpace]
  have hcount : ∀ k, t.occupants k = s.occupants k - old.weight k := by
    intro k
    rw [occupants_replaced h.bookings, hzero, Int.add_zero]
  have hx := hs.used x.pk x h.slots.get
  have hpos : 1 ≤ x.spacesUsed := by
    have hnonneg := t.occupants_nonneg x.pk
    rw [hcount, hone] at hnonneg
    omega
  refine ⟨attached_replaced h.bookings h.same.slot h.slots.get_isSome hs.attached, ?_, ?_⟩
  · intro k y hy
    rw [h.slots.get_eq] at hy
    split at hy
    next hk =>
      have hk : x.pk = k := hk
      cases hy
      rw [hcount, ← hk, hone, ← hx]
      simp only [Slot.occupied]
      omega
    next hk =>
      have hother : old.weight k = 0 := by
        have hne : ¬ old.slot = k := by rw [h.slot]; exact hk
        simp [Booking.weight, hne]
      rw [hcount, hother, hs.used k y hy, Int.sub_zero]
  · have hne : x.spacesUsed ≠ 0 := by omega
    rw [h.clipped, if_neg hne, hs.unclipped]

/-- A booking that is rewritten in place keeps the balance if it occupies as before. -/
theorem Store.Balanced.rewritten (hs : s.Balanced) (h : s.bookings.Replaced old new t.bookings)
    (hslot : new.slot = old.slot) (hholds : new.status.holdsSpace = old.status.holdsSpace)
    (hslots : t.slots = s.slots) (hclipped : t.clipped = s.clipped) : t.Balanced where
  attached := attached_replaced h hslot (fun k => by rw [hslots]) hs.attached
  used := by
    intro k y hy
    rw [hslots] at hy
    rw [hs.used k y hy, occupants_replaced h]
    simp [Booking.weight, hslot, hholds]
  unclipped := hclipped.trans hs.unclipped

/-- A slot that is rewritten in place keeps the balance if its counter stays. -/
theorem Store.Balanced.reslotted (hs : s.Balanced) (h : s.slots.Replaced x x' t.slots)
    (hused : x'.spacesUsed = x.spacesUsed) (hbookings : t.bookings = s.bookings)
    (hclipped : t.clipped = s.clipped) : t.Balanced where
  attached := by
    intro b hb
    rw [h.get_isSome]
    exact hs.attached b (hbookings ▸ hb)
  used := by
    intro k y hy
    rw [s.occupants_congr hbookings]
    rw [h.get_eq] at hy
    split at hy
    next hk =>
      cases hy
      rw [hused, ← hk]
      exact hs.used x.pk x h.get
    next => exact hs.used k y hy
  unclipped := hclipped.trans hs.unclipped

theorem Move.balanced (h : Move seen P s t) (hs : s.Balanced) : t.Balanced := by
  cases h with
  | opened _ h => exact h.balanced hs
  | closed _ h => exact h.balanced hs
  | moved _ h => exact h.opened.balanced (h.closed.balanced hs)
  | confirmed h => exact hs.rewritten h.bookings rfl (by rw [h.pending]; rfl) h.slots h.clipped
  | completed _ h => exact hs.rewritten h.bookings rfl (by rw [h.confirmed]; rfl) h.slots h.clipped
  | absent _ h => exact hs.rewritten h.bookings rfl rfl h.slots h.clipped
  | tagged h =>
    obtain ⟨hbookings, ht, hnew⟩ := h
    exact hs.rewritten hbookings (by rw [hnew]) (by rw [hnew]) (by rw [ht]) (by rw [ht])
  | locked h => exact hs.reslotted h.1 rfl (by rw [h.2]) (by rw [h.2])
  | reopened _ h => exact hs.reslotted h.1 rfl (by rw [h.2]) (by rw [h.2])
  | noted h =>
    exact ⟨fun b hb => h.slots ▸ hs.attached b (h.bookings ▸ hb),
      fun k y hy => (s.occupants_congr h.bookings k).symm ▸ hs.used k y (h.slots ▸ hy),
      h.clipped.trans hs.unclipped⟩

theorem Manage.balanced {C : Uuid → Prop} (h : Manage C s t) (hs : s.Balanced) : t.Balanced := by
  cases h with
  | blocked h => exact hs.reslotted h.slots h.used h.bookings h.clipped
  | restated h => exact hs.reslotted h.slots h.used h.bookings h.clipped
  | retimed h => exact hs.reslotted h.slots h.used h.bookings h.clipped
  | completed h => exact hs.reslotted h.slots h.used h.bookings h.clipped

/-! ## Runs -/

variable {u : Unit} {now : Instant}

theorem perform_balanced {r : Request} (hseen : Earlier seen s) (hs : s.Balanced)
    (h : r.perform seen now s = .ok (u, t)) : t.Balanced :=
  perform_keeps hseen (fun _ _ hmove => hmove.balanced) (fun _ _ hmanage => hmanage.balanced) h hs

/-- New slots are empty. -/
theorem administer_balanced {e : Administration} (hs : s.Balanced) (h : administer s e = some t) :
    t.Balanced := by
  obtain ⟨_, rfl⟩ | ⟨x, T, hx, hT, rfl⟩ | ⟨_, _, -, rfl⟩ := administer_cases h
  · exact ⟨hs.attached, hs.used, hs.unclipped⟩
  · refine ⟨fun b hb => ?_, fun k y hy => ?_, hs.unclipped⟩
    · obtain ⟨y, hy⟩ := Option.isSome_iff_exists.mp (hs.attached b hb)
      exact Option.isSome_iff_exists.mpr ⟨y, Table.get_of_insert hT hy⟩
    · rw [Store.occupants_congr (s := s) (t := { s with slots := T }) rfl k]
      rw [Table.get_insert hT] at hy
      split at hy
      next hk =>
        have hapart := (Table.insert_ok.mp hT).1.2
        cases hy
        rw [hx, hs.unoccupied hk (Table.get_eq_none.mpr fun a ha => (hapart a ha).1)]
        rfl
      next => exact hs.used k y hy
  · exact ⟨hs.attached, hs.used, hs.unclipped⟩

theorem initial_balanced (hs : s.Initial) : s.Balanced := by
  refine ⟨by simp [hs.bookings], fun k x hx => ?_, hs.clipped⟩
  rw [hs.unused x (Table.mem_of_get hx), Store.occupants, Table.total, hs.bookings]
  rfl

theorem Store.Balanced.clocked (hs : s.Balanced) (now : Instant) :
    Store.Balanced { s with clock := now } := ⟨hs.attached, hs.used, hs.unclipped⟩

theorem reachable_balanced {s : Pool.State Store Task} (h : system.machine.Reachable s) :
    s.store.Balanced :=
  invariant (fun _ => initial_balanced) (fun _ now hs => hs.clocked now)
    (fun _ _ _ => administer_balanced) (fun _ _ _ _ _ => perform_balanced) h

/-- Whatever the calls and their order, the counter of a slot is the number of bookings that occupy
it, the slot holds no more than its capacity, and no count is ever cut off. -/
theorem spacesUsed_counts {s : Pool.State Store Task} (h : system.machine.Reachable s) :
    (∀ x ∈ s.store.slots.rows,
      (x.spacesUsed = s.store.bookings.rows.countP fun b =>
        b.slot = x.pk ∧ b.status.holdsSpace = true) ∧
        x.spacesUsed ≤ x.capacity) ∧ s.store.clipped = 0 := by
  have hbalanced := reachable_balanced h
  refine ⟨fun x hx => ⟨?_, ?_⟩, hbalanced.unclipped⟩
  · have hused := hbalanced.used x.pk x (Table.get_eq_some.mpr ⟨hx, rfl⟩)
    rw [Store.occupants_eq_countP] at hused
    omega
  · have hcheck := s.store.slots.valid x hx (condition "appt_slot_spaces_lte_capacity" fun s =>
      s.spacesUsed ≤ s.capacity) (by simp [Slot.schema])
    simpa [condition] using hcheck

/-- Two citizens book one slot, and one of them moves to another. -/
def movedOnce : Pool.State Store Task :=
  system.machine.final ⟨{}, []⟩ (clinic ++ serial 0 0 [
    .createBooking 1 7 {} none none, .createBooking 1 8 {} none none,
    .confirmBooking 1 (some ⟨9, true, true⟩) none,
    .rescheduleBooking 1 2 (some ⟨9, true, true⟩) "" none])

theorem movedOnce_counts : movedOnce.store.slots.rows.map (·.spacesUsed) = [1, 1] ∧
    ∀ x ∈ movedOnce.store.slots.rows,
      (x.spacesUsed = movedOnce.store.bookings.rows.countP fun b =>
        b.slot = x.pk ∧ b.status.holdsSpace = true) ∧ x.spacesUsed ≤ x.capacity :=
  ⟨by decide +kernel,
    (spacesUsed_counts (Machine.Reachable.final (M := system.machine) (s := ⟨{}, []⟩)
      initial_empty _)).1⟩

end Civicos.Appointments
