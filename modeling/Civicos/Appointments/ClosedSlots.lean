import Civicos.Appointments.Requests

/-!
# Closed slots

A completed or cancelled slot, and a slot that `block_slot` has blocked, takes no bookings any
more. It stays so as long as no booking that outlived the closing gives its space back.
-/
namespace Civicos.Appointments

open Library Library.Transaction
open Payments (Uuid)

/-- A slot that takes no bookings, and is not merely full. -/
def Slot.shut (x : Slot) : Bool := x.status ∈ [SlotStatus.blocked, .cancelled, .completed]

namespace Store

/-- Completed, cancelled or blocked by `block_slot`. -/
def closed (s : Store) (k : Uuid) : Bool :=
  (s.slots.get k).any fun x => x.status ∈ [SlotStatus.completed, .cancelled] ∨ k ∈ s.adminBlocked

def shutAt (s : Store) (k : Uuid) : Prop := ∃ x, s.slots.get k = some x ∧ x.shut = true

variable {s t : Store} {k : Uuid} {x x' : Slot}

theorem shutAt_congr (hslots : t.slots = s.slots) (h : s.shutAt k) : t.shutAt k := by
  unfold shutAt
  rwa [hslots]

/-- Only the rewriting of the slot itself may open it. -/
theorem shutAt_replaced (hslots : s.slots.Replaced x x' t.slots) (hnew : x.pk = k → x'.shut = true)
    (h : s.shutAt k) : t.shutAt k := by
  obtain ⟨y, hy, hshut⟩ := h
  unfold shutAt
  rw [hslots.get_eq]
  split
  next hk => exact ⟨x', rfl, hnew hk⟩
  next => exact ⟨y, hy, hshut⟩

/-- A shut slot stays shut when its own rewriting keeps it so. -/
theorem shutAt_kept (hslots : s.slots.Replaced x x' t.slots)
    (hkeep : x.shut = true → x'.shut = true) (h : s.shutAt k) : t.shutAt k := by
  refine shutAt_replaced hslots (fun hk => hkeep ?_) h
  obtain ⟨y, hy, hshut⟩ := h
  obtain rfl : x = y := Option.some.inj (hslots.get.symm.trans ((congrArg _ hk).trans hy))
  exact hshut

theorem not_isOpen_of_shut (h : x.shut = true) : x.isOpen = false := by
  revert h
  unfold Slot.shut Slot.isOpen
  cases x.status <;> simp

end Store

/-! ## Moves and slot requests -/

variable {seen s t : Store} {P : Permits} {k : Uuid} {b : Booking} {x : Slot}

/-- A booking is only opened in a slot that takes bookings. -/
theorem Opened.shutAt (h : Opened b x s t) (hs : s.shutAt k) : t.shutAt k := by
  refine Store.shutAt_kept h.slots (fun hshut => ?_) hs
  have hnot := Store.not_isOpen_of_shut hshut
  rw [h.isOpen] at hnot
  cases hnot

theorem Move.shutAt (hk : ¬ P.free k) (h : Move seen P s t) (hs : s.shutAt k) : t.shutAt k := by
  cases h with
  | opened _ h => exact h.shutAt hs
  | closed free h => exact Store.shutAt_replaced h.slots (fun hx => absurd (hx ▸ free) hk) hs
  | moved free h =>
    exact h.opened.shutAt
      (Store.shutAt_replaced h.closed.slots (fun hx => absurd (hx ▸ free) hk) hs)
  | confirmed h => exact Store.shutAt_congr h.slots hs
  | completed _ h => exact Store.shutAt_congr h.slots hs
  | absent _ h => exact Store.shutAt_congr h.slots hs
  | tagged h => exact Store.shutAt_congr (by rw [h.2.1]) hs
  | locked h => exact Store.shutAt_replaced h.1 (fun _ => rfl) hs
  | reopened free h => exact Store.shutAt_replaced h.1 (fun hx => absurd (hx ▸ free) hk) hs
  | noted h => exact Store.shutAt_congr h.slots hs

/-- Slots that `block_slot` has closed are shut. -/
def Store.Sealed (s : Store) : Prop := ∀ k ∈ s.adminBlocked, s.shutAt k

theorem Manage.sealed {C : Uuid → Prop} (h : Manage C s t) (hs : s.Sealed) : t.Sealed := by
  intro k hk
  cases h with
  | blocked h status empty admin =>
    have hnew : ∀ z : Slot, z.status = .blocked → z.shut = true := fun z hz => by
      simp [Slot.shut, hz]
    rw [admin, List.mem_cons] at hk
    obtain rfl | hk := hk
    · exact ⟨_, h.slots.get_new, hnew _ status⟩
    · exact Store.shutAt_kept h.slots (fun _ => hnew _ status) (hs k hk)
  | restated h cancels admin =>
    rw [admin, List.mem_filter] at hk
    refine Store.shutAt_replaced h.slots (fun hx => ?_) (hs k hk.1)
    simp [hx] at hk
  | retimed h status admin =>
    refine Store.shutAt_kept h.slots (fun hshut => ?_) (hs k (admin ▸ hk))
    simpa [Slot.shut, status] using hshut
  | completed h status admin =>
    refine Store.shutAt_kept h.slots (fun _ => ?_) (hs k (admin ▸ hk))
    simp [Slot.shut, status]

/-! ## Runs -/

/-- The condition: no request frees the slot of its booking after the slot was closed. -/
def freesOpen (s : Store) : Task → Bool
  | .running r _ _ => r.target.all fun k => (s.bookings.get k).all fun old =>
      !r.frees old || !s.closed old.slot
  | _ => true

theorem Store.Sealed.shutAt_of_closed (hs : s.Sealed) (h : s.closed k = true) : s.shutAt k := by
  unfold Store.closed at h
  cases hx : s.slots.get k with
  | none => simp [hx] at h
  | some x =>
    simp only [hx, Option.any_some, decide_eq_true_eq] at h
    obtain hstatus | hblocked := h
    · refine ⟨x, hx, ?_⟩
      unfold Slot.shut
      revert hstatus
      cases x.status <;> simp
    · exact hs k hblocked

variable {r : Request} {u : Unit} {j : Option Sweep} {now : Instant}

/-- A request on bookings keeps closed slots shut. -/
theorem perform_shut (hr : r.onSlots = false) (hC : freesOpen s (.running r seen j) = true)
    (hseen : Earlier seen s) (hs : s.Sealed) (h : r.perform seen now s = .ok (u, t)) :
    (∀ k, s.closed k = true → t.shutAt k) ∧ t.adminBlocked = s.adminBlocked := by
  have hmoves : Moves seen { free := fun k => s.closed k = false } s t := by
    refine perform_moves hr hseen (fun _ => trivial) (fun _ => trivial)
      (fun k old hk hold hfrees => ?_)
      (fun k x hx hopen => ?_) (fun _ _ _ _ _ _ => trivial) h
    · simpa [freesOpen, hk, hold, hfrees] using hC
    · cases hclosed : s.closed k with
      | false => exact hclosed
      | true =>
        obtain ⟨y, hy, hshut⟩ := hs.shutAt_of_closed hclosed
        obtain rfl : x = y := Option.some.inj (hx.symm.trans hy)
        rw [Store.not_isOpen_of_shut hshut] at hopen
        cases hopen
  refine ⟨fun k hclosed => ?_, ?_⟩
  · exact hmoves.keeps (I := fun m => m.shutAt k)
      (fun _ _ hmove => hmove.shutAt (by simp [hclosed])) (hs.shutAt_of_closed hclosed)
  · exact hmoves.keeps (I := fun m => m.adminBlocked = s.adminBlocked)
      (fun _ _ hmove hm => hmove.frame.adminBlocked.trans hm) rfl

theorem perform_sealed (hC : freesOpen s (.running r seen j) = true) (hseen : Earlier seen s)
    (hs : s.Sealed) (h : r.perform seen now s = .ok (u, t)) : t.Sealed := by
  cases hr : r.onSlots with
  | true =>
    exact (perform_manages (C := fun _ => True) hr (fun _ _ => trivial)
      (fun _ _ => trivial) h).keeps
      (fun _ _ hmanage => hmanage.sealed) hs
  | false =>
    obtain ⟨hshut, hadmin⟩ := perform_shut hr hC hseen hs h
    intro k hk
    rw [hadmin] at hk
    obtain ⟨x, hx, -⟩ := hs k hk
    exact hshut k (by simp [Store.closed, hx, hk])

theorem administer_sealed {e : Administration} (hs : s.Sealed) (h : administer s e = some t) :
    t.Sealed := by
  obtain ⟨_, rfl⟩ | ⟨_, T, -, hT, rfl⟩ | ⟨_, _, -, rfl⟩ := administer_cases h
  · exact hs
  · intro k hk
    obtain ⟨x, hx, hshut⟩ := hs k hk
    exact ⟨x, Table.get_of_insert hT hx, hshut⟩
  · exact hs

abbrev closedKept := system.under fun s task _ => freesOpen s task = true

theorem reachable_sealed {s : Pool.State Store Task} (h : closedKept.machine.Reachable s) :
    s.store.Sealed := by
  refine invariant_under (I := Store.Sealed) (fun s hs => ?_) (fun s now hs => hs)
    (fun s e t => administer_sealed)
    (fun r seen job now db t hC hseen hs => perform_sealed (j := job) hC hseen hs) h
  simp [Store.Sealed, hs.adminBlocked]

/-- In a run that meets the condition, no request on bookings opens a slot that is completed,
cancelled or blocked by `block_slot`. -/
theorem closed_slots_stay {s t : Pool.State Store Task} {i : ℕ} {k : Uuid}
    (h : closedKept.machine.Reachable s)
    (hi : ∀ r, (s.workers[i]?).bind Task.request = some r → r.onSlots = false)
    (hstep : closedKept.machine.step s (.act i now) = some t) (hclosed : s.store.closed k = true) :
    ∃ x, t.store.slots.get k = some x ∧
      x.status ∈ [SlotStatus.blocked, .cancelled, .completed] := by
  have hsealed := reachable_sealed h
  obtain ⟨p, st, q, hp, hact, rfl, -⟩ := Program.act_cases hstep
  obtain ⟨hC, hact⟩ := Program.under_act.mp hact
  have hshut : t.store.shutAt k := by
    obtain ⟨-, hst | ⟨r, seen, job, rfl, hrun⟩⟩ := act_store hact
    · rw [hst]
      exact hsealed.shutAt_of_closed hclosed
    · have hknows := reachable_knows (Program.reachable_of_under h) _ (List.mem_of_getElem? hp)
      exact (perform_shut (s := { s.store with clock := now }) (j := job) (hi r (by rw [hp]; rfl))
        hC hknows hsealed hrun).1 k hclosed
  obtain ⟨x, hx, hstatus⟩ := hshut
  exact ⟨x, hx, of_decide_eq_true hstatus⟩

/-- An administrator blocks the second slot; a booking in the first is about to be cancelled. -/
def cancelApart : Pool.State Store Task :=
  closedKept.machine.final ⟨{}, []⟩ (clinic ++ serial 0 0 [
    .createBooking 1 7 {} none none, .blockSlot 2 ""] ++
    [.spawn (.call (.cancelBooking 1 none "" none) none), .act 2 0])

theorem cancelApart_keeps :
    cancelApart.store.closed 2 = true ∧
    ∀ t, closedKept.machine.step cancelApart (.act 2 0) = some t →
      ∃ x, t.store.slots.get 2 = some x ∧
        x.status ∈ [SlotStatus.blocked, .cancelled, .completed] := by
  have hreachable : closedKept.machine.Reachable cancelApart :=
    Machine.Reachable.final (M := closedKept.machine) (s := ⟨{}, []⟩) initial_empty _
  have hclosed : cancelApart.store.closed 2 = true := by decide +kernel
  have hnext : (cancelApart.workers[2]?).bind Task.request =
    some (.cancelBooking 1 none "" none) := by decide +kernel
  refine ⟨hclosed, fun t hstep => closed_slots_stay hreachable (fun r hr => ?_) hstep hclosed⟩
  rw [hnext] at hr
  cases hr
  rfl

/-- The slot of a pending booking is over and completed; staff are about to cancel the booking. -/
def cancelLate : Pool.State Store Task :=
  system.machine.final ⟨{}, []⟩ (clinic ++ serial 0 0 [.createBooking 1 7 {} none none] ++
    serial (days 9) 1 [.markPastSlotsCompleted] ++
    [.spawn (.call (.cancelBooking 1 (some ⟨9, true, true⟩) "" none) none), .act 2 (days 9)])

theorem completed_slot_reopens : ∃ s t : Pool.State Store Task, system.machine.Reachable s ∧
    system.machine.step s (.act 2 (days 9)) = some t ∧
    (s.workers[2]?).bind Task.request = some (.cancelBooking 1 (some ⟨9, true, true⟩) "" none) ∧
    (s.store.slots.get 1).map (·.status) = some .completed ∧
    (t.store.slots.get 1).map (·.status) = some .available := by
  exact ⟨cancelLate, system.machine.final cancelLate [.act 2 (days 9)],
    Machine.Reachable.final (M := system.machine) (s := ⟨{}, []⟩) initial_empty _,
    Machine.step_final (by decide +kernel), by decide +kernel, by decide +kernel,
    by decide +kernel⟩

end Civicos.Appointments
