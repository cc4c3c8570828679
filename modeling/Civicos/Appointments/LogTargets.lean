import Civicos.Appointments.System
import Mathlib

/-!
# The targets of log entries

A log entry names a slot and a citizen, and the booking is looked up by the pair as if there were
one. A citizen who cancels and books again has more than one on the slot, and the booking that is
found may be one that is over.
-/
namespace Civicos.Appointments

open Library Library.Transaction
open Payments (Uuid strip)

namespace Store

/-- All bookings that the citizen has had on the slot -/
def bookingsOn (s : Store) (slot : Uuid) (citizen : ℕ) : List Booking :=
  s.bookings.rows.filter fun b => b.slot = slot ∧ b.citizen = citizen

/-- Those that stand -/
def currentOn (s : Store) (slot : Uuid) (citizen : ℕ) : List Booking :=
  (s.bookingsOn slot citizen).filter fun b => b.status.holdsSpace

/-- The organization at whose location the slot is -/
def organizationAt (s : Store) (slot : Uuid) : Option ℕ :=
  ((s.slots.get slot).bind fun row => s.catalog.location row.location).map (·.organization)

end Store

/-- The request names the pair and passes all checks that do not look at bookings. -/
structure LogDetails.WellFormed (r : LogDetails) (s : Store) (slot : Uuid) (citizen : ℕ) :
    Prop where
  role : r.loggerRole ∈ ["admin", "organizer", "resource", "subscriber", "system"]
  category : strip r.logCategory ≠ ""
  refs : ∃ eventId subscriberId, parseLogDataRefs r.logData = .ok (eventId, subscriberId) ∧
    eventId.toNat? = some slot ∧ parseInt subscriberId = some (citizen : ℤ)
  entity : r.entityId = "" ∨ ∃ organization : ℕ, s.organizationAt slot = some organization ∧
    parseInt r.entityId = some (organization : ℤ)
  fits : r.logCategory.length ≤ 30 ∧ r.loggerId.length ≤ 50

/-- The entry is attached to a current booking of the pair; if there is none, the answer is that the
booking is not found. -/
def Attaches (seen : Store) (slot : Uuid) (citizen : ℕ) (db : Store)
    (result : Except AppointmentError BookingAuditLog × Store) : Prop :=
  if seen.currentOn slot citizen = [] then result = (.error (.doesNotExist "Booking"), db)
  else ∃ entry, ∃ b ∈ seen.currentOn slot citizen, result.1 = .ok entry ∧
    entry.booking = some b.pk ∧ result.2.auditLog.rows = db.auditLog.rows ++ [entry]

/-! ## The lookup -/

section Lookup

variable {seen db : Store} {r : LogDetails} {slot : Uuid} {citizen : ℕ} {b : Booking}

/-- The insert at the end -/
def logEntry (r : LogDetails) (booking : Booking) : Tx BookingAuditLog :=
  create Store.auditTable .ofViolation fun pk =>
    { pk
      booking := some booking.pk
      action := r.logCategory
      actorId := r.loggerId
      detail := [("log_data", .str r.logData)]
      actorRole := r.loggerRole }

theorem mem_bookingsOn : b ∈ seen.bookingsOn slot citizen ↔
    b ∈ seen.bookings.rows ∧ b.slot = slot ∧ b.citizen = citizen := by
  simp [Store.bookingsOn]

theorem resolveBooking_eq {eventId subscriberId : String} (he : eventId.toNat? = some slot)
    (hu : parseInt subscriberId = some (citizen : ℤ)) :
    resolveBooking seen eventId subscriberId = theOnly (seen.bookingsOn slot citizen) := by
  unfold resolveBooking Store.bookingsOn
  rw [he, hu]
  simp only [found, pure_bind, Nat.cast_inj]

theorem theOnly_congr {l : List Booking} {f g : Booking → Tx BookingAuditLog}
    (h : ∀ b ∈ l, f b db = g b db) : (theOnly l >>= f) db = (theOnly l >>= g) db := by
  match l with
  | [] => rfl
  | [b] => exact h b (.head _)
  | _ :: _ :: _ => rfl

/-- What is left of the call once the request has passed -/
theorem logCreate_eq (h : r.WellFormed seen slot citizen) : logCreate seen r db =
    (theOnly (seen.bookingsOn slot citizen) >>= logEntry r) db := by
  obtain ⟨hrole, hcategory, ⟨eventId, subscriberId, hrefs, he, hu⟩, hentity, -⟩ := h
  unfold logCreate
  simp only [hrole, hcategory, hrefs, not_true, if_false]
  rw [bind_of_ok lift_apply]
  simp only [resolveBooking_eq he hu]
  refine theOnly_congr fun b hb => ?_
  obtain ⟨-, rfl, -⟩ := mem_bookingsOn.mp hb
  refine congrFun (if_neg ?_) db
  rintro ⟨hgiven, hmismatch⟩
  rcases hentity with hblank | ⟨organization, hat, hparsed⟩
  · exact hgiven hblank
  · have hof : organizationOf seen b = some organization := hat
    simp [hparsed, hof] at hmismatch

theorem logEntry_ok (h : r.WellFormed seen slot citizen) (b : Booking) (db : Store) :
    ∃ entry db', logEntry r b db = .ok (entry, db') ∧ entry.booking = some b.pk ∧
      db'.auditLog.rows = db.auditLog.rows ++ [entry] := by
  obtain ⟨hrole, -, -, -, haction, hactor⟩ := h
  have hroleWidth : r.loggerRole.length ≤ 30 := by
    have hall : ∀ role ∈ ["admin", "organizer", "resource", "subscriber", "system"],
        role.length ≤ 30 := by decide
    exact hall _ hrole
  have hreturns : Returns (logEntry r b) db := by
    refine (create_returns rfl).mpr ⟨fun c hc => ?_, fun _ _ i hi => by cases hi⟩
    simp only [BookingAuditLog.schema, List.mem_cons, List.not_mem_nil, or_false] at hc
    rcases hc with rfl | rfl | rfl | rfl | rfl <;> simp_all [Check.width]
  obtain ⟨⟨entry, db'⟩, hrun⟩ := hreturns
  obtain ⟨rfl, T, hinsert, rfl⟩ := create_ok.mp hrun
  exact ⟨_, _, hrun, rfl, (Table.insert_ok.mp hinsert).2⟩

/-! ## The booking that is found -/

/-- The entry is attached as it should be exactly when the citizen has had no booking on the slot,
or has had one and it stands. -/
theorem log_attaches_iff (h : r.WellFormed seen slot citizen) (db : Store) :
    Attaches seen slot citizen db (commit (logCreate seen r) db) ↔
      seen.bookingsOn slot citizen = [] ∨
        ∃ b, seen.bookingsOn slot citizen = [b] ∧ b.status.holdsSpace = true := by
  have hrun := @logCreate_eq _ db _ _ _ h
  unfold Attaches Store.currentOn
  match hrows : seen.bookingsOn slot citizen with
  | [] =>
    rw [hrows] at hrun
    have herror : logCreate seen r db = .error (.doesNotExist "Booking") := hrun
    simp [commit_of_error herror]
  | [b] =>
    rw [hrows] at hrun
    obtain ⟨entry, db', hentry, hbooking, hrows'⟩ := logEntry_ok h b db
    have hok : logCreate seen r db = .ok (entry, db') := hrun.trans hentry
    rw [commit_of_ok hok]
    cases hcurrent : b.status.holdsSpace with
    | true => simp [hcurrent, hbooking, hrows']
    | false => simp [hcurrent]
  | b :: b' :: rest =>
    rw [hrows] at hrun
    have herror : logCreate seen r db = .error (.multipleObjectsReturned "Booking") := hrun
    rw [commit_of_error herror]
    split <;> simp

end Lookup

section Example

private def book (citizen : ℕ) : Request :=
  .createBooking 1 citizen {} (some ⟨citizen, false, true⟩) none

private def cancel (booking : Uuid) : Request :=
  .cancelBooking booking (some ⟨7, false, true⟩) "" none

private def after (requests : List Request) : Pool.State Store Task :=
  system.machine.final ⟨{}, []⟩ (clinic ++ serial 0 0 requests)

private theorem after_reachable (requests : List Request) :
    system.machine.Reachable (after requests) :=
  Machine.Reachable.final (M := system.machine) (s := ⟨{}, []⟩) initial_empty _

private def attended : LogDetails where
  loggerRole := "organizer"
  logCategory := "attendance"
  logData := "event_id:1,subscriber_id:7,status:attended"

private theorem attended_wellFormed (s : Store) : attended.WellFormed s 1 7 where
  role := by decide
  category := by decide +kernel
  refs := ⟨"1", "7", by decide +kernel, Nat.toNat?_repr 1, by decide +kernel⟩
  entity := .inl rfl
  fits := by decide

private def logged (s : Store) : Except AppointmentError BookingAuditLog × Store :=
  commit (logCreate s attended) s

private def booked : Pool.State Store Task := after [book 7]

theorem attended_attaches : system.machine.Reachable booked ∧
    (booked.store.bookingsOn 1 7).map (·.pk) = [1] ∧
    Attaches booked.store 1 7 booked.store (logged booked.store) := by
  have hrows : (booked.store.bookingsOn 1 7).map (·.pk) = [1] := by decide +kernel
  have hstands : (booked.store.bookingsOn 1 7).all (·.status.holdsSpace) = true := by
    decide +kernel
  refine ⟨after_reachable _, hrows, (log_attaches_iff (attended_wellFormed _) _).mpr (.inr ?_)⟩
  obtain ⟨b, hb, -⟩ := List.map_eq_singleton_iff.mp hrows
  rw [hb] at hstands
  exact ⟨b, hb, by simpa using hstands⟩

/-- The citizen has cancelled and booked again. -/
private def rebooked : Pool.State Store Task := after [book 7, cancel 1, book 7]

/-- The citizen has cancelled. -/
private def withdrawn : Pool.State Store Task := after [book 7, cancel 1]

theorem rebooked_not_resolved :
    system.machine.Reachable rebooked ∧ attended.WellFormed rebooked.store 1 7 ∧
    (rebooked.store.currentOn 1 7).map (·.pk) = [2] ∧
    (logged rebooked.store).1 = .error (.multipleObjectsReturned "Booking") ∧
    ¬ Attaches rebooked.store 1 7 rebooked.store (logged rebooked.store) ∧
    system.machine.Reachable withdrawn ∧ withdrawn.store.currentOn 1 7 = [] ∧
    (∃ entry, (logged withdrawn.store).1 = .ok entry ∧ entry.booking = some 1) ∧
    ¬ Attaches withdrawn.store 1 7 withdrawn.store (logged withdrawn.store) := by
  have hwell := attended_wellFormed rebooked.store
  have hpair : (rebooked.store.bookingsOn 1 7).map (·.pk) = [1, 2] := by decide +kernel
  have hcurrent : (rebooked.store.currentOn 1 7).map (·.pk) = [2] := by decide +kernel
  have hmany : (logged rebooked.store).1 = .error (.multipleObjectsReturned "Booking") := by
    obtain ⟨b, rest, hb, -, hrest⟩ := List.map_eq_cons_iff.mp hpair
    obtain ⟨b', rest', rfl, -, -⟩ := List.map_eq_cons_iff.mp hrest
    have hrun := @logCreate_eq _ rebooked.store _ _ _ hwell
    rw [hb] at hrun
    exact congrArg Prod.fst (commit_of_error hrun)
  have hsole : (withdrawn.store.bookingsOn 1 7).map (·.pk) = [1] := by decide +kernel
  have hnone : withdrawn.store.currentOn 1 7 = [] := by decide +kernel
  have hended : ∃ entry, (logged withdrawn.store).1 = .ok entry ∧ entry.booking = some 1 := by
    obtain ⟨b, hb, hpk⟩ := List.map_eq_singleton_iff.mp hsole
    have hrun := @logCreate_eq _ withdrawn.store _ _ _ (attended_wellFormed withdrawn.store)
    obtain ⟨entry, db', hentry, hbooking, -⟩ :=
      logEntry_ok (attended_wellFormed withdrawn.store) b withdrawn.store
    rw [hb] at hrun
    exact ⟨entry, congrArg Prod.fst (commit_of_ok (hrun.trans hentry)), hbooking.trans (hpk ▸ rfl)⟩
  refine ⟨after_reachable _, hwell, hcurrent, hmany, fun h => ?_, after_reachable _, hnone, hended,
    fun h => ?_⟩
  · have hsome : rebooked.store.currentOn 1 7 ≠ [] := fun h => by simp [h] at hcurrent
    rw [Attaches, if_neg hsome, hmany] at h
    obtain ⟨entry, b, -, hentry, -⟩ := h
    cases hentry
  · rw [Attaches, if_pos hnone] at h
    obtain ⟨entry, hentry, -⟩ := hended
    rw [h] at hentry
    cases hentry

end Example

end Civicos.Appointments
