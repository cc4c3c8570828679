import Civicos.Appointments.Requests

/-!
# The limit of active bookings

The count of a citizen's active bookings is read under the lock of the slot, not of the citizen.
Where it is current, and no policy means "no limit" by a zero, the limit is kept.
-/
namespace Civicos.Appointments

open Library Library.Transaction
open Payments (Uuid)

namespace Store

def activeOf (s : Store) (citizen : ℕ) : ℕ := activeCount s.bookings.rows citizen

/-- The limit of the policy under which a slot is booked. -/
def limitAt (s seen : Store) (slot : Uuid) : Option ℕ :=
  (s.slots.get slot).bind fun x => (seen.catalog.appointmentType x.appointmentType).map fun a =>
    (seen.catalog.resolvePolicy a x.location).maxActiveBookingsPerCitizen

end Store

variable {seen s m t : Store} {P : Permits} {b old new : Booking} {x : Slot} {citizen n : ℕ}

/-! ## Moves that do not book -/

theorem activeOf_replaced (h : s.bookings.Replaced old new t.bookings)
    (hcitizen : new.citizen = old.citizen)
    (hactive : new.status.isActive = true → old.status.isActive = true) :
    t.activeOf citizen ≤ s.activeOf citizen := by
  have hcount := h.countP_eq (p := fun b => b.citizen = citizen ∧ b.status.isActive)
  simp only [Store.activeOf, activeCount]
  rw [hcitizen] at hcount
  by_cases hnew : new.status.isActive = true
  · simp only [hnew, hactive hnew] at hcount
    omega
  · simp only [hnew] at hcount
    simp only [and_false, decide_false, Bool.false_eq_true, if_false] at hcount
    omega

theorem activeOf_inserted {c : ℕ} (h : s.bookings.insert b = .ok t.bookings)
    (hactive : b.status.isActive = true) :
    t.activeOf c = s.activeOf c + if b.citizen = c then 1 else 0 := by
  have hcount := Table.countP_insert (p := fun b => b.citizen = c ∧ b.status.isActive) h
  simpa [Store.activeOf, activeCount, hactive] using hcount

theorem Closed.activeOf {c : ℕ} (h : Closed old new x s t) :
    t.activeOf c + (if old.citizen = c then 1 else 0) = s.activeOf c := by
  have hcount := h.bookings.countP_eq (p := fun b => b.citizen = c ∧ b.status.isActive)
  have hnew : new.status.isActive = false := by
    obtain ⟨hnew, -⟩ | ⟨hnew, -⟩ := h.status <;>
      · rw [hnew]
        rfl
  simpa [Store.activeOf, activeCount, h.active, hnew] using hcount

theorem Move.activeOf (hbook : ¬ P.book) (h : Move seen P s t) :
    t.activeOf citizen ≤ s.activeOf citizen := by
  have hsame : t.bookings = s.bookings → t.activeOf citizen ≤ s.activeOf citizen := fun heq => by
    simp [Store.activeOf, heq]
  cases h with
  | opened book => exact absurd book hbook
  | closed _ h =>
    have hcount := h.activeOf (c := citizen)
    omega
  | moved _ h =>
    have hclosed := h.closed.activeOf (c := citizen)
    have hopened := activeOf_inserted (c := citizen) h.opened.bookings h.opened.active
    rw [h.citizen] at hopened
    omega
  | confirmed h => exact activeOf_replaced h.bookings rfl fun _ => by rw [h.pending]; rfl
  | completed _ h => exact activeOf_replaced h.bookings rfl fun hnew => by cases hnew
  | absent _ h => exact activeOf_replaced h.bookings rfl id
  | tagged h => exact activeOf_replaced h.1 (by rw [h.2.2]) (by rw [h.2.2]; exact id)
  | locked h => exact hsame (by rw [h.2])
  | reopened _ h => exact hsame (by rw [h.2])
  | noted h => exact hsame h.bookings

/-! ## Bookings -/

variable {now : Instant} {own created bs : List Booking} {slot : Uuid} {intake : Intake}
  {actor : Option User} {ip : Option String} {u : Unit}

/-- A booking that was counted on a current basis keeps the limit of its policy. -/
theorem createBooking_limit
    (h : createBooking seen own now slot citizen intake actor ip s = .ok (b, t))
    (hcurrent : activeCount (seen.bookings.rows ++ own) citizen = s.activeOf citizen) :
    (∃ limit, s.limitAt seen slot = some limit ∧ t.activeOf citizen ≤ limit ∧
      ∀ n, seen.catalog.atMost (·.maxActiveBookingsPerCitizen) n → limit ≤ n) ∧
    (∀ d, d ≠ citizen → t.activeOf d = s.activeOf d) ∧
    activeCount (seen.bookings.rows ++ (own ++ [b])) citizen = t.activeOf citizen := by
  obtain ⟨x, policy, hopened, hpolicy, rfl, rfl, -, -, hlt⟩ := createBooking_ok h
  have hcount : ∀ d, t.activeOf d = s.activeOf d + if b.citizen = d then 1 else 0 := fun d =>
    activeOf_inserted hopened.bookings hopened.active
  refine ⟨⟨policy.maxActiveBookingsPerCitizen, ?_, ?_, fun n => hpolicy.le⟩, fun d hd => ?_, ?_⟩
  · obtain ⟨a, ha, rfl⟩ := hpolicy
    have hx : s.slots.get b.slot = some x := hopened.slot ▸ hopened.slots.get
    simp [Store.limitAt, hx, ha]
  · rw [hcount, if_pos rfl]
    omega
  · rw [hcount, if_neg (Ne.symm hd), Nat.add_zero]
  · rw [hcount, if_pos rfl, ← hcurrent, ← List.append_assoc]
    simp [activeCount, hopened.active]
    omega

theorem bookEvents_limit {events : List Uuid} {subscriber : User}
    (hn : seen.catalog.atMost (·.maxActiveBookingsPerCitizen) n)
    (hcurrent :
      activeCount (seen.bookings.rows ++ created) subscriber.pk = s.activeOf subscriber.pk)
    (hs : ∀ d, s.activeOf d ≤ n)
    (h : bookEvents seen now subscriber events created s = .ok (bs, t)) :
    ∀ d, t.activeOf d ≤ n := by
  induction events generalizing created s with
  | nil =>
    obtain ⟨-, rfl⟩ := pure_ok.mp h
    exact hs
  | cons event rest ih =>
    obtain ⟨x, -, h₁⟩ := found_bind.mp h
    obtain ⟨a, -, h₂⟩ := found_bind.mp h₁
    obtain ⟨b, m, hcreate, h₃⟩ := bind_ok.mp h₂
    obtain ⟨⟨limit, -, hle, hlimit⟩, hothers, hcount⟩ := createBooking_limit hcreate hcurrent
    refine ih hcount (fun d => ?_) h₃
    by_cases hd : d = subscriber.pk
    · rw [hd]
      exact hle.trans (hlimit n hn)
    · rw [hothers d hd]
      exact hs d

/-! ## Runs -/

/-- The condition: a call that books counts the citizen's bookings as they stand when it books, and
no limit is zero. -/
def countsCurrent (s : Store) : Task → Bool
  | .running (.createBooking slot citizen _ _ _) seen _ =>
    activeCount seen.bookings.rows citizen = s.activeOf citizen ∧ s.limitAt seen slot ≠ some 0
  | .running (.appointmentCreate r) seen _ =>
    r.participant.all (fun pk => activeCount seen.bookings.rows pk.toNat = s.activeOf pk.toNat) ∧
      r.eventIds.all fun slot => s.limitAt seen slot ≠ some 0
  | _ => true

theorem perform_limit {r : Request} {j : Option Sweep}
    (hn : seen.catalog.atMost (·.maxActiveBookingsPerCitizen) n)
    (hC : countsCurrent s (.running r seen j) = true) (hseen : Earlier seen s)
    (hs : ∀ d, s.activeOf d ≤ n) (h : r.perform seen now s = .ok (u, t)) :
    ∀ d, t.activeOf d ≤ n := by
  cases hr : r.onSlots with
  | true =>
    exact (perform_manages (C := fun _ => True) hr (fun _ _ => trivial)
      (fun _ _ => trivial) h).keeps
      (I := fun m => ∀ d, m.activeOf d ≤ n)
      (fun _ _ hmanage hs => by simpa [Store.activeOf, hmanage.bookings] using hs) hs
  | false =>
    cases hb : r.books with
    | false =>
      refine (perform_moves (P := { book := False }) hr hseen (by simp [hb])
        (fun _ => trivial) (fun _ _ _ _ _ => trivial) (fun _ _ _ _ => trivial)
          (fun _ _ _ _ _ _ => trivial) h).keeps
          (I := fun m => ∀ d, m.activeOf d ≤ n) (fun _ _ hmove hs d => ?_) hs
      exact (hmove.activeOf not_false).trans (hs d)
    | true =>
      cases r with
      | createBooking slot citizen intake actor ip =>
        simp only [countsCurrent, decide_eq_true_eq] at hC
        obtain ⟨b, m, hcreate, ⟨⟩⟩ := bind_ok.mp h
        obtain ⟨⟨limit, -, hle, hlimit⟩, hothers, -⟩ :=
          createBooking_limit hcreate (by simpa using hC.1)
        intro d
        by_cases hd : d = citizen
        · rw [hd]
          exact hle.trans (hlimit n hn)
        · rw [hothers d hd]
          exact hs d
      | appointmentCreate r =>
        obtain ⟨bs, m, hcreate, ⟨⟩⟩ := bind_ok.mp h
        obtain ⟨subscriber, entityId, m, hparticipant, hevents, htag⟩ :=
          appointmentCreate_parts hcreate
        have hcurrent :
            activeCount seen.bookings.rows subscriber.pk = s.activeOf subscriber.pk := by
          simp only [countsCurrent, decide_eq_true_eq, hparticipant, Option.all_some,
            Int.toNat_natCast] at hC
          exact hC.1
        have hmoves : Moves seen { book := False } m t := tagBookings_moves htag
        refine hmoves.keeps
          (I := fun m => ∀ d, m.activeOf d ≤ n) (fun _ _ hmove hs d => ?_)
          (bookEvents_limit hn (by simpa using hcurrent) hs hevents)
        exact (hmove.activeOf not_false).trans (hs d)
      | _ => cases hb

/-- No policy ever allows more than `n` active bookings. -/
abbrev limited (n : ℕ) := system.under fun s task _ =>
  s.catalog.atMost (·.maxActiveBookingsPerCitizen) n ∧ countsCurrent s task = true

theorem reachable_limit {s : Pool.State Store Task} (h : (limited n).machine.Reachable s) :
    ∀ citizen, s.store.activeOf citizen ≤ n :=
  invariant_reading (I := fun s => ∀ citizen, s.activeOf citizen ≤ n)
    (Q := fun s => s.catalog.atMost (·.maxActiveBookingsPerCitizen) n) (fun _ _ _ hC => hC.1)
    (fun s hs => by simp [Store.activeOf, activeCount, hs.bookings]) (fun _ _ hs => hs)
    (fun s e t hs he => by simpa [Store.activeOf, administer_bookings he] using hs)
    (fun r seen job now db t hC hread hseen hs hrun =>
      perform_limit (s := { db with clock := now }) (j := job) hread hC.2 hseen hs hrun) h

/-- In a run that meets the condition: where no policy ever allows more than `n` active bookings, no
citizen has more; a booking that is made keeps the limit of its own policy; and none is refused for
a limit of zero. -/
theorem active_limit {s : Pool.State Store Task} (h : (limited n).machine.Reachable s) :
    (∀ citizen, s.store.activeOf citizen ≤ n) ∧
    ∀ (i : ℕ) t slot citizen intake actor ip seen job,
      s.workers[i]? = some (.running (.createBooking slot citizen intake actor ip) seen job) →
      (limited n).machine.step s (.act i now) = some t →
      (t.store = { s.store with clock := now } ∨
        ∃ limit, s.store.limitAt seen slot = some limit ∧ t.store.activeOf citizen ≤ limit) ∧
      (s.store.limitAt seen slot = some 0 → ∀ message,
        (commit (createBooking seen [] now slot citizen intake actor ip)
          { s.store with clock := now }).1 ≠ .error (.maxActiveBookingsError message)) := by
  refine ⟨reachable_limit h, fun i t slot citizen intake actor ip seen job hi hstep => ?_⟩
  obtain ⟨st, q, hact, rfl, -⟩ := Program.step_act hi hstep
  obtain ⟨⟨-, hC⟩, hact⟩ := Program.under_act.mp hact
  simp only [countsCurrent, decide_eq_true_eq] at hC
  refine ⟨?_, fun hzero => absurd hzero hC.2⟩
  obtain ⟨-, hst | ⟨r', seen', job', hsame, hrun⟩⟩ := act_store hact
  · exact .inl hst
  · cases hsame
    obtain ⟨b, m, hcreate, ⟨⟩⟩ := bind_ok.mp hrun
    obtain ⟨⟨limit, hlimit, hle, -⟩, -⟩ :=
      createBooking_limit (s := { s.store with clock := now }) hcreate
        (by rw [List.append_nil]; exact hC.1)
    exact .inr ⟨limit, hlimit, hle⟩

/-- A citizen has booked, and is about to book once more. -/
def bookingAgain : Pool.State Store Task :=
  (limited 3).machine.final ⟨{}, []⟩ (clinic ++ serial 0 0 [.createBooking 1 7 {} none none] ++
    [.spawn (.call (.createBooking 2 7 {} none none) none), .act 1 0])

theorem bookingAgain_limit : ∃ t,
    (limited 3).machine.step bookingAgain (.act 1 0) = some t ∧ t.store.activeOf 7 = 2 ∧
    (t.store = { bookingAgain.store with clock := 0 } ∨
      ∃ limit, bookingAgain.store.limitAt bookingAgain.store 2 = some limit ∧
        t.store.activeOf 7 ≤ limit) := by
  have hreachable : (limited 3).machine.Reachable bookingAgain :=
    Machine.Reachable.final (M := (limited 3).machine) (s := ⟨{}, []⟩) initial_empty _
  have hstep := Machine.step_final (M := (limited 3).machine) (s := bookingAgain)
    (l := .act 1 0) (by decide +kernel)
  exact ⟨_, hstep, by decide +kernel, ((active_limit hreachable).2 1 _ 2 7 {} none none
    bookingAgain.store none (by decide +kernel) hstep).1⟩

/-- A limit of `n` active bookings for all. -/
def limitedTo (n : ℕ) : Label :=
  .env (.configure {
    appointmentTypes := [{ pk := 1, slug := "permit", serviceType := 1 }]
    settings := { maxActiveBookingsPerCitizen := n } })

/-- Two calls for different slots count before either has booked. -/
def bookedAtOnce : Pool.State Store Task :=
  system.machine.final ⟨{}, []⟩ (clinic ++ [limitedTo 1,
    .spawn (.call (.createBooking 1 7 {} none none) none),
    .spawn (.call (.createBooking 2 7 {} none none) none), .act 0 0, .act 1 0, .act 0 0, .act 1 0])

def bookedUnlimited : Pool.State Store Task :=
  system.machine.final ⟨{}, []⟩
    (clinic ++ [limitedTo 0] ++ serial 0 0 [.createBooking 1 7 {} none none])

theorem limit_exceeded :
    (∃ s : Pool.State Store Task, system.machine.Reachable s ∧
      s.store.catalog.policies.map (·.maxActiveBookingsPerCitizen) = [1] ∧ s.store.activeOf 7 = 2) ∧
    ∃ s : Pool.State Store Task, system.machine.Reachable s ∧
      s.store.catalog.policies.map (·.maxActiveBookingsPerCitizen) = [0] ∧
      s.workers = [.done (.error (.maxActiveBookingsError
        "Citizen 7 already has 0 active booking(s). Maximum is 0."))] :=
  ⟨⟨bookedAtOnce, Machine.Reachable.final (M := system.machine) (s := ⟨{}, []⟩) initial_empty _,
      by decide +kernel, by decide +kernel⟩,
    ⟨bookedUnlimited, Machine.Reachable.final (M := system.machine) (s := ⟨{}, []⟩) initial_empty _,
      by decide +kernel, by decide +kernel⟩⟩

end Civicos.Appointments
