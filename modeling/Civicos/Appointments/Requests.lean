import Civicos.Appointments.Moves

/-!
# What a request does

Requests on bookings are sequences of moves, requests on slots sequences of rewritten slots. So is
everything that a step of the system does to the store.
-/
namespace Civicos.Appointments

open Library Library.Transaction Relation
open Payments (Uuid)

/-! ## Slots -/

/-- A slot is rewritten, but not its counter. -/
structure Managed (x x' : Slot) (s t : Store) : Prop where
  slots : s.slots.Replaced x x' t.slots
  used : x'.spacesUsed = x.spacesUsed
  bookings : t.bookings = s.bookings
  auditLog : t.auditLog = s.auditLog
  records : t.noShowRecords = s.noShowRecords
  clock : t.clock = s.clock
  clipped : t.clipped = s.clipped

/-- `C` are the slots that may be cancelled. -/
inductive Manage (C : Uuid → Prop) : Store → Store → Prop where
  | blocked {x x' s t} (h : Managed x x' s t) (status : x'.status = .blocked)
      (empty : activeBookingCount s x.pk = 0)
      (admin : t.adminBlocked = x.pk :: s.adminBlocked) : Manage C s t
  | restated {x x' s t} (h : Managed x x' s t) (cancels : x'.status = .cancelled → C x.pk)
      (admin : t.adminBlocked = s.adminBlocked.filter (· ≠ x.pk)) : Manage C s t
  | retimed {x x' s t} (h : Managed x x' s t) (status : x'.status = x.status)
      (admin : t.adminBlocked = s.adminBlocked) : Manage C s t
  | completed {x x' s t} (h : Managed x x' s t) (status : x'.status = .completed)
      (admin : t.adminBlocked = s.adminBlocked) : Manage C s t

theorem Manage.bookings {C : Uuid → Prop} {s t : Store} (h : Manage C s t) :
    t.bookings = s.bookings := by
  cases h with
  | blocked h => exact h.bookings
  | restated h => exact h.bookings
  | retimed h => exact h.bookings
  | completed h => exact h.bookings

abbrev Manages (C : Uuid → Prop) : Store → Store → Prop := ReflTransGen (Manage C)

theorem Manages.keeps {C : Uuid → Prop} {s t : Store} {I : Store → Prop} (h : Manages C s t)
    (keep : ∀ s t, Manage C s t → I s → I t) (hs : I s) : I t := by
  induction h with
  | refl => exact hs
  | tail _ hmanage ih => exact keep _ _ hmanage ih

variable {seen s t : Store} {C : Uuid → Prop} {P : Permits} {u : Unit} {now : Instant} {k : Uuid}
  {reason : String} {y : Slot}

theorem blockSlot_manages (h : blockSlot k reason s = .ok (y, t)) : Manages C s t := by
  unfold blockSlot at h
  obtain ⟨x, hx, h₁⟩ := lookup_bind.mp h
  obtain ⟨-, h₂⟩ := guard_ok h₁
  split at h₂
  · obtain ⟨-, rfl⟩ := pure_ok.mp h₂
    exact .refl
  · obtain ⟨_, _, ⟨⟩, h₃⟩ := bind_ok.mp h₂
    obtain ⟨hempty, h₄⟩ := guard_ok h₃
    obtain ⟨T, hT, h₅⟩ := write_bind.mp h₄
    cases h₅
    obtain rfl : x.pk = k := Table.pk_of_get hx
    exact .single (.blocked ⟨.of_update hT hx rfl, rfl, rfl, rfl, rfl, rfl, rfl⟩ rfl
      (by simpa using hempty) rfl)

theorem cancelSlot_manages (hC : ∀ k, activeBookingCount s k = 0 → C k)
    (h : cancelSlot k reason s = .ok (y, t)) : Manages C s t := by
  unfold cancelSlot at h
  obtain ⟨x, hx, h₁⟩ := lookup_bind.mp h
  obtain ⟨-, h₂⟩ := guard_ok h₁
  split at h₂
  · obtain ⟨-, rfl⟩ := pure_ok.mp h₂
    exact .refl
  · obtain ⟨_, _, ⟨⟩, h₃⟩ := bind_ok.mp h₂
    obtain ⟨hempty, h₄⟩ := guard_ok h₃
    obtain ⟨T, hT, h₅⟩ := write_bind.mp h₄
    cases h₅
    obtain rfl : x.pk = k := Table.pk_of_get hx
    exact .single (.restated ⟨.of_update hT hx rfl, rfl, rfl, rfl, rfl, rfl, rfl⟩
      (fun _ => hC _ (by simpa using hempty)) rfl)

theorem eventDelete_manages (hC : C k) (h : eventDelete k s = .ok (u, t)) : Manages C s t := by
  unfold eventDelete at h
  obtain ⟨x, hx, h₁⟩ := lookup_bind.mp h
  obtain ⟨T, hT, h₂⟩ := write_bind.mp h₁
  obtain rfl : x.pk = k := Table.pk_of_get hx
  cases h₂
  exact .single (.restated ⟨.of_update hT hx rfl, rfl, rfl, rfl, rfl, rfl, rfl⟩ (fun _ => hC) rfl)

/-- An `event_modify` that asks for the status "cancelled". -/
def EventChanges.cancels (changes : EventChanges) : Bool :=
  changes.status.any fun raw => (mapStatus raw).toOption = some .cancelled

theorem cancels_of_parse {changes : EventChanges} {status : Option SlotStatus}
    (h : parseField mapStatus changes.status = .ok status) (hc : status = some .cancelled) :
    changes.cancels = true := by
  unfold EventChanges.cancels
  cases hraw : changes.status with
  | none =>
    rw [hraw] at h
    cases h
    cases hc
  | some raw =>
    rw [hraw] at h
    cases hmap : mapStatus raw with
    | error e =>
      simp only [parseField, hmap] at h
      cases h
    | ok a =>
      simp only [parseField, hmap, Except.map, Except.ok.injEq] at h
      subst h
      simpa [hmap, Except.toOption] using hc

theorem eventModify_manages {changes : EventChanges} (hC : changes.cancels = true → C k)
    (h : eventModify k changes s = .ok (y, t)) : Manages C s t := by
  unfold eventModify at h
  obtain ⟨x, hx, h₁⟩ := lookup_bind.mp h
  obtain ⟨status, s₁, hlift, h₂⟩ := bind_ok.mp h₁
  obtain ⟨hstatus, rfl⟩ := lift_ok.mp hlift
  obtain ⟨capacity, s₂, hlift', h₃⟩ := bind_ok.mp h₂
  obtain ⟨-, rfl⟩ := lift_ok.mp hlift'
  obtain ⟨_, s₃, hcatalog, h₄⟩ := bind_ok.mp h₃
  cases hcatalog
  obtain ⟨T, hT, h₅⟩ := write_bind.mp h₄
  obtain rfl : x.pk = k := Table.pk_of_get hx
  obtain ⟨s₄, hforget, h₆⟩ := when_ok h₅
  obtain ⟨-, rfl⟩ := pure_ok.mp h₆
  have hreplaced := Table.Replaced.of_update hT hx rfl
  obtain ⟨hsome, ⟨⟩⟩ | ⟨hnone, rfl⟩ := hforget
  · refine .single (.restated ⟨hreplaced, rfl, rfl, rfl, rfl, rfl, rfl⟩
      (fun hcancelled => hC ?_) rfl)
    obtain ⟨a, rfl⟩ := Option.isSome_iff_exists.mp hsome
    exact cancels_of_parse hstatus (congrArg some hcancelled)
  · refine .single (.retimed ⟨hreplaced, rfl, rfl, rfl, rfl, rfl, rfl⟩ ?_ rfl)
    have hstatus : status = none := by simpa using hnone
    simp [EventChanges.onSlot, hstatus]

theorem completeSlots_manages {past : List Slot} (h : completeSlots past s = .ok (u, t)) :
    Manages C s t := by
  induction past generalizing s with
  | nil =>
    obtain ⟨-, rfl⟩ := pure_ok.mp h
    exact .refl
  | cons x rest ih =>
    obtain ⟨T, hT, h₁⟩ := write_bind.mp h
    refine ReflTransGen.trans ?_ (ih h₁)
    cases hx : s.slots.get x.pk with
    | none =>
      have hsame : s.slots = T := by
        simpa [Store.slotTable, Table.update_of_none hx] using hT
      rw [← hsame]
      exact .refl
    | some z =>
      exact .single (.completed ⟨.of_update hT hx rfl, rfl, rfl, rfl, rfl, rfl, rfl⟩ rfl rfl)

/-! ## Requests -/

namespace Request

/-- The requests that administrators, the event interface and the nightly job make. -/
def onSlots : Request → Bool
  | blockSlot .. => true
  | cancelSlot .. => true
  | eventModify .. => true
  | eventDelete .. => true
  | markPastSlotsCompleted => true
  | _ => false

/-- Whether a request makes bookings. -/
def books : Request → Bool
  | createBooking .. => true
  | appointmentCreate .. => true
  | _ => false

/-- The slot that a request cancels without looking at its bookings. -/
def cancels : Request → Option Uuid
  | eventModify event changes => if changes.cancels then some event else none
  | eventDelete event => some event
  | _ => none

/-- The booking that a request is about. -/
def target : Request → Option Uuid
  | confirmBooking booking _ _ => some booking
  | rejectBooking booking _ _ _ => some booking
  | cancelBooking booking _ _ _ => some booking
  | rescheduleBooking booking _ _ _ _ => some booking
  | markNoShow booking _ _ => some booking
  | completeBooking booking _ _ => some booking
  | appointmentModify r => some r.appointmentId
  | appointmentDelete appointmentId _ => some appointmentId
  | _ => none

/-- Whether a request frees the slot of its booking, whose row is `old`. -/
def frees (old : Booking) : Request → Bool
  | rejectBooking .. => old.status = .pending
  | cancelBooking .. => old.status.isActive
  | rescheduleBooking .. => old.movable
  | appointmentModify r => r.frees old
  | appointmentDelete .. => old.status.isActive
  | _ => false

def marks : Request → Bool
  | markNoShow .. => true
  | _ => false

/-- Whether a request counts the attendance of its booking. -/
def completes : Request → Bool
  | completeBooking .. => true
  | appointmentModify r => r.completes
  | _ => false

end Request

theorem perform_manages {r : Request} (hr : r.onSlots = true) (hC : ∀ k, r.cancels = some k → C k)
    (hempty : ∀ k, activeBookingCount s k = 0 → C k)
    (h : r.perform seen now s = .ok (u, t)) : Manages C s t := by
  cases r with
  | blockSlot slot reason =>
    obtain ⟨_, _, hx, ⟨⟩⟩ := bind_ok.mp h
    exact blockSlot_manages hx
  | cancelSlot slot reason =>
    obtain ⟨_, _, hx, ⟨⟩⟩ := bind_ok.mp h
    exact cancelSlot_manages hempty hx
  | eventModify event changes =>
    obtain ⟨_, _, hx, ⟨⟩⟩ := bind_ok.mp h
    exact eventModify_manages (fun hc => hC event (by simp [Request.cancels, hc])) hx
  | eventDelete event => exact eventDelete_manages (hC event rfl) h
  | markPastSlotsCompleted =>
    obtain ⟨_, _, hx, ⟨⟩⟩ := bind_ok.mp h
    obtain ⟨_, _, ⟨⟩, h₁⟩ := bind_ok.mp hx
    obtain ⟨_, _, hpast, ⟨⟩⟩ := bind_ok.mp h₁
    exact completeSlots_manages hpast
  | _ => cases hr

theorem perform_moves {r : Request} (hr : r.onSlots = false) (hseen : Earlier seen s)
    (hbook : r.books = true → P.book) (hmiss : r.marks = true → P.miss)
    (hfree : ∀ k old, r.target = some k → s.bookings.get k = some old → r.frees old = true →
      P.free old.slot)
    (hopen : ∀ k x, s.slots.get k = some x → x.isOpen = true → P.free k)
    (hcount : ∀ k m old, r.target = some k → r.completes = true → OnTheWay s k m old →
      P.count m old)
    (h : r.perform seen now s = .ok (u, t)) : Moves seen P s t := by
  cases r with
  | createBooking slot citizen intake actor ip =>
    obtain ⟨_, _, hb, ⟨⟩⟩ := bind_ok.mp h
    exact .single (createBooking_moves (hbook rfl) hb)
  | confirmBooking booking actor ip =>
    obtain ⟨_, _, hb, ⟨⟩⟩ := bind_ok.mp h
    obtain ⟨old, -, -, hconfirmed⟩ := confirmBooking_ok hb
    exact .single (.confirmed hconfirmed)
  | rejectBooking booking actor reason ip =>
    obtain ⟨_, _, hb, ⟨⟩⟩ := bind_ok.mp h
    exact .single (rejectBooking_moves (fun old hold hpending =>
      hfree _ old rfl hold (decide_eq_true hpending)) hb)
  | cancelBooking booking actor reason ip =>
    obtain ⟨_, _, hb, ⟨⟩⟩ := bind_ok.mp h
    exact .single (cancelBooking_moves (fun old hold hactive => hfree _ old rfl hold hactive) hb)
  | rescheduleBooking booking newSlot actor reason ip =>
    obtain ⟨_, _, hb, ⟨⟩⟩ := bind_ok.mp h
    exact .single (rescheduleBooking_moves
      (fun old hold hmovable => hfree _ old rfl hold hmovable) hb)
  | markNoShow booking actor ip =>
    obtain ⟨_, _, hb, ⟨⟩⟩ := bind_ok.mp h
    obtain ⟨old, x, policy, -, -, -, -, habsent⟩ := markNoShow_ok hb
    exact .single (.absent (hmiss rfl) habsent)
  | completeBooking booking actor ip =>
    obtain ⟨_, _, hb, ⟨⟩⟩ := bind_ok.mp h
    obtain ⟨old, hold, -, hcompleted⟩ := completeBooking_ok hb
    exact .single (.completed (hcount _ s old rfl rfl (.inl ⟨rfl, hold⟩)) hcompleted)
  | appointmentCreate r =>
    obtain ⟨_, _, hb, ⟨⟩⟩ := bind_ok.mp h
    exact appointmentCreate_moves (hbook rfl) hb
  | appointmentModify r =>
    obtain ⟨_, _, hb, ⟨⟩⟩ := bind_ok.mp h
    exact appointmentModify_moves hseen (fun old hold => hfree _ old rfl hold) hopen
      (fun m old hr => hcount _ m old rfl hr) hb
  | appointmentDelete id caller =>
    obtain ⟨_, _, hb, ⟨⟩⟩ := bind_ok.mp h
    obtain ⟨citizen, hcancel⟩ := appointmentDelete_ok hb
    exact .single (cancelBooking_moves (fun old hold hactive => hfree _ old rfl hold hactive)
      hcancel)
  | logCreate r =>
    obtain ⟨_, _, hb, ⟨⟩⟩ := bind_ok.mp h
    exact .single (logCreate_moves hb)
  | _ => cases hr

/-- What every move and every rewriting of a slot keeps, a request keeps. -/
theorem perform_keeps {r : Request} {I : Store → Prop} (hseen : Earlier seen s)
    (moves : ∀ s t, Move seen {} s t → I s → I t)
    (manages : ∀ s t, Manage (fun _ => True) s t → I s → I t)
    (h : r.perform seen now s = .ok (u, t)) (hs : I s) : I t := by
  cases hr : r.onSlots with
  | true =>
    exact (perform_manages hr (fun _ _ => trivial) (fun _ _ => trivial) h).keeps manages hs
  | false =>
    exact (perform_moves hr hseen (fun _ => trivial) (fun _ => trivial) (fun _ _ _ _ _ => trivial)
      (fun _ _ _ _ => trivial) (fun _ _ _ _ _ _ => trivial) h).keeps moves hs

/-! ## Steps of the system -/

variable {db db' : Store} {task task' : Task}

/-- A block of a worker moves the clock, and commits at most the transaction of its request. -/
theorem act_store (h : system.act db task now = some (db', task')) :
    db.clock ≤ now ∧ (db' = { db with clock := now } ∨ ∃ r seen job,
      task = .running r seen job ∧
        r.perform seen now { db with clock := now } = .ok ((), db')) := by
  simp only [system, Option.ite_none_right_eq_some] at h
  obtain ⟨hclock, h⟩ := h
  refine ⟨hclock, ?_⟩
  cases task with
  | call r job =>
    cases h
    exact .inl rfl
  | sweep =>
    cases h
    exact .inl rfl
  | done answer => cases h
  | sweeping job =>
    obtain ⟨cutoff, pks⟩ := job
    cases pks with
    | nil =>
      cases h
      exact .inl rfl
    | cons pk pks =>
      simp only [Task.act] at h
      split at h <;> cases h <;> exact .inl rfl
  | running r seen job =>
    have hdb : db' = (commit (r.perform seen now) { db with clock := now }).2 := by
      cases job <;> cases h <;> rfl
    cases hrun : r.perform seen now { db with clock := now } with
    | error e =>
      rw [commit_of_error hrun] at hdb
      exact .inl hdb
    | ok p =>
      obtain ⟨u, m⟩ := p
      rw [commit_of_ok hrun] at hdb
      exact .inr ⟨r, seen, job, rfl, hdb ▸ hrun⟩

/-- A worker that is about to run holds a snapshot of the store as it is. -/
theorem act_running {r : Request} {seen : Store} {job : Option Sweep}
    (h : system.act db task now = some (db', .running r seen job)) :
    seen = db' ∧ db' = { db with clock := now } := by
  simp only [system, Option.ite_none_right_eq_some] at h
  obtain ⟨-, h⟩ := h
  cases task with
  | call r job =>
    cases h
    exact ⟨rfl, rfl⟩
  | sweeping job =>
    obtain ⟨cutoff, pks⟩ := job
    cases pks with
    | nil => cases h
    | cons pk pks =>
      simp only [Task.act] at h
      split at h <;> cases h
  | running r seen job => cases job <;> cases h
  | _ => cases h

theorem perform_earlier {r : Request} (hseen : Earlier seen s)
    (h : r.perform seen now s = .ok (u, t)) : Earlier s t :=
  perform_keeps (I := Earlier s) hseen (fun _ _ hmove hs => hs.trans hmove.earlier)
    (fun _ _ hmanage hs => hs.trans (.of_eq hmanage.bookings)) h (.refl s)

theorem Manage.clock {C : Uuid → Prop} (h : Manage C s t) : t.clock = s.clock := by
  cases h with
  | blocked h => exact h.clock
  | restated h => exact h.clock
  | retimed h => exact h.clock
  | completed h => exact h.clock

theorem perform_clock {r : Request} (hseen : Earlier seen s)
    (h : r.perform seen now s = .ok (u, t)) : t.clock = s.clock :=
  perform_keeps (I := fun m => m.clock = s.clock) hseen
    (fun _ _ hmove hs => hmove.frame.clock.trans hs) (fun _ _ hmanage hs => hmanage.clock.trans hs)
    h rfl

/-- What workers know of the past. -/
def Task.Knows (db : Store) : Task → Prop
  | running _ seen _ => Earlier seen db
  | _ => True

theorem Task.Knows.later (h : task.Knows db) (hst : Earlier db db') : task.Knows db' := by
  cases task with
  | running r seen job => exact Earlier.trans h hst
  | _ => trivial

theorem act_earlier (hknows : task.Knows db) (h : system.act db task now = some (db', task')) :
    Earlier db db' := by
  obtain ⟨-, rfl | ⟨r, seen, job, rfl, hrun⟩⟩ := act_store h
  · exact .of_eq rfl
  · exact perform_earlier (s := { db with clock := now }) hknows hrun

theorem act_knows (h : system.act db task now = some (db', task')) : task'.Knows db' := by
  cases task' with
  | running r seen job =>
    obtain ⟨rfl, -⟩ := act_running h
    exact Earlier.refl _
  | _ => trivial

/-- Everything that happens beside the calls. -/
theorem administer_cases {e : Administration} (h : administer db e = some db') :
    (∃ catalog, db' = { db with catalog }) ∨
    (∃ x T, x.spacesUsed = 0 ∧ db.slots.insert x = .ok T ∧ db' = { db with slots := T }) ∨
    ∃ k R, db.noShowRecords.update k (fun row => { row with isSuspended := false }) = .ok R ∧
      db' = { db with noShowRecords := R } := by
  cases e with
  | configure catalog => exact .inl ⟨catalog, (Option.some.inj h).symm⟩
  | insertSlot x =>
    simp only [administer, Option.ite_none_right_eq_some] at h
    obtain ⟨hx, h⟩ := h
    split at h <;> cases h
    next T hT => exact .inr (.inl ⟨x, T, hx, hT, rfl⟩)
  | clearSuspension record =>
    simp only [administer] at h
    split at h <;> cases h
    next R hR => exact .inr (.inr ⟨record, R, hR, rfl⟩)

theorem act_clock (hknows : task.Knows db) (h : system.act db task now = some (db', task')) :
    db'.clock = now := by
  obtain ⟨-, rfl | ⟨r, seen, job, rfl, hrun⟩⟩ := act_store h
  · rfl
  · exact perform_clock (s := { db with clock := now }) hknows hrun

theorem administer_bookings {e : Administration} (h : administer db e = some db') :
    db'.bookings = db.bookings := by
  obtain ⟨_, rfl⟩ | ⟨_, _, -, -, rfl⟩ | ⟨_, _, -, rfl⟩ := administer_cases h <;> rfl

theorem administer_clock {e : Administration} (h : administer db e = some db') :
    db'.clock = db.clock := by
  obtain ⟨_, rfl⟩ | ⟨_, _, -, -, rfl⟩ | ⟨_, _, -, rfl⟩ := administer_cases h <;> rfl

theorem reachable_knows {s : Pool.State Store Task} (h : system.machine.Reachable s) :
    ∀ task ∈ s.workers, task.Knows s.store := by
  refine (Program.invariant (P := system) (I := fun _ => True) (J := fun st p => Task.Knows st p)
    (fun _ _ => trivial) (fun st p _ hp => ?_) (fun _ _ => trivial)
    (fun st p now st' p' _ hknows hact => ?_) (fun st e st' _ henv => ?_) h).2
  · cases p with
    | running r seen job => cases hp
    | _ => trivial
  · exact ⟨trivial, act_knows hact, fun q hq => hq.later (act_earlier hknows hact)⟩
  · exact ⟨trivial, fun q hq => hq.later (.of_eq (administer_bookings henv))⟩

/-! ## Invariants -/

section Invariants

variable {I : Store → Prop} {s : Pool.State Store Task}

theorem act_keeps (clock : ∀ s now, I s → I { s with clock := now })
    (run : ∀ r seen job t, task = .running r seen job → Earlier seen db →
      I { db with clock := now } → r.perform seen now { db with clock := now } = .ok ((), t) → I t)
    (hknows : task.Knows db) (h : system.act db task now = some (db', task')) (hI : I db) :
    I db' := by
  obtain ⟨-, rfl | ⟨r, seen, job, rfl, hrun⟩⟩ := act_store h
  · exact clock db now hI
  · exact run r seen job db' rfl hknows (clock db now hI) hrun

/-- What every transaction keeps, whatever the calls and their order. -/
theorem invariant (start : ∀ s : Store, s.Initial → I s)
    (clock : ∀ s now, I s → I { s with clock := now })
    (admin : ∀ s e t, I s → administer s e = some t → I t)
    (run : ∀ r seen now s t, Earlier seen s → I s →
      Request.perform seen now r s = .ok ((), t) → I t)
    (h : system.machine.Reachable s) : I s.store := by
  refine Program.reachable_invariant start (fun u i p now st q hu hp hI hact => ?_)
    (fun u e st _ hI henv => admin u.store e st hI henv) h
  have hknows := reachable_knows hu p (List.mem_of_getElem? hp)
  refine act_keeps clock (fun r seen job t _ hseen hI' hrun => ?_) hknows hact hI
  exact run r seen now { u.store with clock := now } t hseen hI' hrun

/-- How the stores before and after a step are related, when transactions relate them so. -/
theorem step_relates {R : Store → Store → Prop} {s t : Pool.State Store Task} {l : Label}
    (refl : ∀ s, R s s) (clock : ∀ s now, R s { s with clock := now })
    (admin : ∀ s e t, administer s e = some t → R s t)
    (run : ∀ (i : ℕ) r seen job now t, s.workers[i]? = some (.running r seen job) →
      Earlier seen s.store → r.perform seen now { s.store with clock := now } = .ok ((), t) →
      R s.store t)
    (h : system.machine.Reachable s) (hstep : system.machine.step s l = some t) :
    R s.store t.store := by
  obtain ⟨p, -, -, rfl⟩ | ⟨i, now, p, st, q, -, hp, hact, rfl⟩ | ⟨i, -, rfl⟩ |
    ⟨e, st, -, henv, rfl⟩ := Program.step_cases hstep
  · exact refl _
  · have hknows := reachable_knows h p (List.mem_of_getElem? hp)
    obtain ⟨-, rfl | ⟨r, seen, job, rfl, hrun⟩⟩ := act_store hact
    · exact clock _ now
    · exact run i r seen job now st hp hknows hrun
  · exact refl _
  · exact admin _ e st henv

variable {C : Store → Task → Instant → Prop} [∀ s p now, Decidable (C s p now)]

/-- What the condition says of the store, calls have read. -/
theorem reads_under {Q : Store → Prop} (hQ : ∀ s p now, C s p now → Q { s with clock := now })
    (h : (system.under C).machine.Reachable s) :
    ∀ task ∈ s.workers, ∀ r seen job, task = .running r seen job → Q seen := by
  refine (Program.invariant (P := system.under C) (I := fun _ => True)
    (J := fun _ p => ∀ r seen job, p = Task.running r seen job → Q seen) (fun _ _ => trivial)
    (fun st p _ hp r seen job hrun => ?_) (fun _ _ r seen job hrun => ?_)
    (fun st p now st' p' _ _ hact => ⟨trivial, fun r seen job hrun => ?_, fun _ hq => hq⟩)
    (fun _ _ _ _ _ => ⟨trivial, fun _ hq => hq⟩) h).2
  · subst hrun
    cases hp
  · cases hrun
  · subst hrun
    obtain ⟨hC, hact⟩ := Program.under_act.mp hact
    obtain ⟨rfl, rfl⟩ := act_running hact
    exact hQ _ _ _ hC

/-- What every transaction keeps that meets the condition `C`. -/
theorem invariant_under (start : ∀ s : Store, s.Initial → I s)
    (clock : ∀ s now, I s → I { s with clock := now })
    (admin : ∀ s e t, I s → administer s e = some t → I t)
    (run : ∀ r seen job now db t, C db (.running r seen job) now → Earlier seen db →
      I { db with clock := now } →
      Request.perform seen now r { db with clock := now } = .ok ((), t) → I t)
    (h : (system.under C).machine.Reachable s) : I s.store := by
  refine Program.reachable_invariant (P := system.under C) start
    (fun u i p now st q hu hp hI hact => ?_) (fun u e st _ hI henv => admin u.store e st hI henv) h
  obtain ⟨hC, hact⟩ := Program.under_act.mp hact
  have hknows := reachable_knows (Program.reachable_of_under hu) p (List.mem_of_getElem? hp)
  refine act_keeps clock (fun r seen job t hp hseen hI' hrun => ?_) hknows hact hI
  exact run r seen job now u.store t (hp ▸ hC) hseen hI' hrun

/-- What every transaction keeps that meets the condition, when what it has read is known as
well. -/
theorem invariant_reading {Q : Store → Prop} (hQ : ∀ s p now, C s p now → Q { s with clock := now })
    (start : ∀ s : Store, s.Initial → I s) (clock : ∀ s now, I s → I { s with clock := now })
    (admin : ∀ s e t, I s → administer s e = some t → I t)
    (run : ∀ r seen job now db t, C db (.running r seen job) now → Q seen → Earlier seen db →
      I { db with clock := now } →
      Request.perform seen now r { db with clock := now } = .ok ((), t) → I t)
    (h : (system.under C).machine.Reachable s) : I s.store := by
  refine Program.reachable_invariant (P := system.under C) start
    (fun u i p now st q hu hp hI hact => ?_) (fun u e st _ hI henv => admin u.store e st hI henv) h
  have hread := reads_under hQ hu p (List.mem_of_getElem? hp)
  obtain ⟨hC, hact⟩ := Program.under_act.mp hact
  have hknows := reachable_knows (Program.reachable_of_under hu) p (List.mem_of_getElem? hp)
  refine act_keeps clock (fun r seen job t hp hseen hI' hrun => ?_) hknows hact hI
  exact run r seen job now u.store t (hp ▸ hC) (hread r seen job hp) hseen hI' hrun

end Invariants

end Civicos.Appointments
