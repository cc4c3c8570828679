import Civicos.Appointments.GovStackAppointment
import Civicos.Library.Replace

/-!
# What the booking operations do

Each effect is a relation between the store before and the store after, and each operation that
returns has the effects stated here. Later proofs cite these and never unfold an operation.
-/
namespace Civicos.Appointments

open Library Library.Transaction
open Payments (Uuid Json Value)

/-! ## Observations -/

def Slot.occupied (n : ℕ) (x : Slot) : Slot :=
  { x with spacesUsed := n, status := occupancy n x.capacity }

/-- What a citizen's record says; no record says nothing. -/
structure Standing where
  total : ℕ := 0
  noShows : ℕ := 0
  suspended : Bool := false
deriving DecidableEq, Repr

def ClientNoShowRecord.standing (r : ClientNoShowRecord) : Standing :=
  ⟨r.totalAppointments, r.noShowCount, r.isSuspended⟩

namespace Store

/-- The status changes of a booking that the log holds, oldest first. -/
def statusPath (s : Store) (booking : Uuid) : List (String × String) :=
  (s.auditLog.rows.filter fun r =>
    r.booking = some booking ∧ r.newStatus ≠ "" ∧ r.newStatus ≠ r.previousStatus).map fun r =>
      (r.previousStatus, r.newStatus)

def standing (s : Store) (citizen : ℕ) : Standing :=
  ((s.recordOf citizen).map (·.standing)).getD {}

variable {s t : Store} {r r' : ClientNoShowRecord} {c : ℕ}

theorem recordOf_eq_some : s.recordOf c = some r ↔ r ∈ s.noShowRecords.rows ∧ r.citizen = c := by
  unfold recordOf
  rw [Table.find?_eq_some (i := ClientNoShowRecord.uniqueCitizen)
    (by simp [ClientNoShowRecord.schema]) c (by simp [ClientNoShowRecord.uniqueCitizen])]
  simp [ClientNoShowRecord.uniqueCitizen]

theorem recordOf_congr (h : t.noShowRecords = s.noShowRecords) : t.recordOf c = s.recordOf c := by
  unfold recordOf
  rw [h]

theorem standing_congr (h : t.noShowRecords = s.noShowRecords) : t.standing c = s.standing c := by
  unfold standing
  rw [recordOf_congr h]

theorem standing_of_recordOf (h : s.recordOf c = some r) : s.standing c = r.standing := by
  simp [standing, h]

/-- A new record of a citizen who had none. -/
theorem recordOf_insert (h : s.noShowRecords.insert r = .ok t.noShowRecords) :
    t.recordOf c = if c = r.citizen then some r else s.recordOf c := by
  ext a
  rw [recordOf_eq_some, (Table.insert_ok.mp h).2, List.mem_append, List.mem_singleton]
  split
  next hc =>
    subst hc
    rw [Option.some.injEq]
    constructor
    · rintro ⟨ha | rfl, hac⟩
      · have hap := (Table.insert_ok.mp h).1.2 a ha
        exact absurd ⟨Option.some_ne_none _, congrArg some hac⟩
          (hap.2 ClientNoShowRecord.uniqueCitizen (by simp [ClientNoShowRecord.schema]))
      · rfl
    · rintro rfl
      exact ⟨.inr rfl, rfl⟩
  next hc =>
    rw [recordOf_eq_some]
    constructor
    · rintro ⟨ha | rfl, hac⟩
      · exact ⟨ha, hac⟩
      · exact absurd hac.symm hc
    · exact fun ⟨ha, hac⟩ => ⟨.inl ha, hac⟩

theorem recordOf_replaced (h : s.noShowRecords.Replaced r r' t.noShowRecords)
    (hc : r'.citizen = r.citizen) (d : ℕ) :
    t.recordOf d = if d = r.citizen then some r' else s.recordOf d := by
  ext a
  rw [recordOf_eq_some, h.mem_iff]
  split
  next hd =>
    subst hd
    rw [Option.some.injEq]
    constructor
    · rintro ⟨⟨ha, hpk⟩ | rfl, hac⟩
      · exact absurd (congrArg ClientNoShowRecord.schema.pk (Option.some.inj
          ((recordOf_eq_some.mpr ⟨ha, hac⟩).symm.trans (recordOf_eq_some.mpr ⟨h.old_mem, rfl⟩))))
            hpk
      · rfl
    · rintro rfl
      exact ⟨.inr rfl, hc⟩
  next hd =>
    rw [recordOf_eq_some]
    constructor
    · rintro ⟨⟨ha, -⟩ | rfl, hac⟩
      · exact ⟨ha, hac⟩
      · exact absurd (hac.symm.trans hc) hd
    · rintro ⟨ha, hac⟩
      refine ⟨.inl ⟨ha, fun hpk => hd ?_⟩, hac⟩
      rw [← hac, Table.eq_of_pk ha h.old_mem hpk]

end Store

/-! ## Helpers -/

variable {seen s s' t : Store} {u : Unit}

/-- What no booking operation touches. -/
structure Frame (s t : Store) : Prop where
  catalog : t.catalog = s.catalog
  clock : t.clock = s.clock
  adminBlocked : t.adminBlocked = s.adminBlocked

/-- Only the log differs. -/
structure Audited (s t : Store) : Prop extends Frame s t where
  bookings : t.bookings = s.bookings
  slots : t.slots = s.slots
  records : t.noShowRecords = s.noShowRecords
  clipped : t.clipped = s.clipped

theorem Audited.trans (h : Audited s s') (g : Audited s' t) : Audited s t where
  catalog := g.catalog.trans h.catalog
  clock := g.clock.trans h.clock
  adminBlocked := g.adminBlocked.trans h.adminBlocked
  bookings := g.bookings.trans h.bookings
  slots := g.slots.trans h.slots
  records := g.records.trans h.records
  clipped := g.clipped.trans h.clipped

/-- Only the records differ. -/
structure Recorded (s t : Store) : Prop extends Frame s t where
  bookings : t.bookings = s.bookings
  slots : t.slots = s.slots
  auditLog : t.auditLog = s.auditLog
  clipped : t.clipped = s.clipped

theorem Recorded.statusPath (h : Recorded s t) (k : Uuid) : t.statusPath k = s.statusPath k := by
  unfold Store.statusPath
  rw [h.auditLog]

theorem Recorded.trans (h : Recorded s s') (g : Recorded s' t) : Recorded s t where
  catalog := g.catalog.trans h.catalog
  clock := g.clock.trans h.clock
  adminBlocked := g.adminBlocked.trans h.adminBlocked
  bookings := g.bookings.trans h.bookings
  slots := g.slots.trans h.slots
  auditLog := g.auditLog.trans h.auditLog
  clipped := g.clipped.trans h.clipped

theorem updateSlotStatus_ok {x : Slot} {n : ℕ} (hx : s.slots.get x.pk = some x)
    (h : updateSlotStatus { x with spacesUsed := n } s = .ok (u, t)) :
    ∃ T, s.slots.Replaced x (x.occupied n) T ∧ t = { s with slots := T } :=
  write_replaces h hx rfl

theorem releaseSpace_ok {x : Slot} (hx : s.slots.get x.pk = some x)
    (h : releaseSpace x s = .ok (u, t)) :
    ∃ T, s.slots.Replaced x (x.occupied (x.spacesUsed - 1)) T ∧
      t = { s with slots := T, clipped := s.clipped + if x.spacesUsed = 0 then 1 else 0 } := by
  obtain ⟨_, s₁, hmodify, h₁⟩ := bind_ok.mp h
  cases hmodify
  obtain ⟨T, hT, rfl⟩ := updateSlotStatus_ok (n := x.spacesUsed - 1)
    (s := { s with clipped := s.clipped + if x.spacesUsed = 0 then 1 else 0 }) hx h₁
  exact ⟨T, hT, rfl⟩

theorem writeAuditLog_ok {booking : Uuid} {action previous new : String} {actor : Option User}
    {detail : Json} {ip : Option String}
    (h : writeAuditLog booking action actor previous new detail ip s = .ok (u, t)) :
    Audited s t ∧ ∀ k, t.statusPath k =
      s.statusPath k ++
        if k = booking ∧ new ≠ "" ∧ new ≠ previous then [(previous, new)] else [] := by
  obtain ⟨r, s₁, hcreate, h₁⟩ := bind_ok.mp h
  obtain ⟨rfl, rfl⟩ := pure_ok.mp h₁
  obtain ⟨rfl, A, hA, rfl⟩ := create_ok.mp hcreate
  refine ⟨⟨⟨rfl, rfl, rfl⟩, rfl, rfl, rfl, rfl⟩, fun k => ?_⟩
  have hrows := (Table.insert_ok.mp hA).2
  simp only [Store.statusPath, Store.auditTable] at hrows ⊢
  rw [hrows, List.filter_append, List.map_append]
  by_cases hk : k = booking ∧ new ≠ "" ∧ new ≠ previous
  · obtain ⟨rfl, hnew, hne⟩ := hk
    simp [hnew, hne]
  · have hk' : ¬ (some booking = some k ∧ new ≠ "" ∧ new ≠ previous) := fun hk' =>
      hk ⟨(Option.some.inj hk'.1).symm, hk'.2⟩
    rw [if_neg hk, List.filter_cons_of_neg (by simpa using hk')]
    rfl

/-- One status change of one booking enters the log. -/
def Logged (booking : Uuid) (previous new : String) (s t : Store) : Prop :=
  ∀ k, t.statusPath k = s.statusPath k ++ if k = booking then [(previous, new)] else []

theorem writeAuditLog_logged {booking : Uuid} {action previous new : String} {actor : Option User}
    {detail : Json} {ip : Option String}
    (h : writeAuditLog booking action actor previous new detail ip s = .ok (u, t))
    (hblank : new ≠ "") (hne : new ≠ previous) : Audited s t ∧ Logged booking previous new s t := by
  obtain ⟨haudited, hpath⟩ := writeAuditLog_ok h
  refine ⟨haudited, fun k => ?_⟩
  simpa [hblank, hne] using hpath k

/-- An entry without a status change. -/
theorem writeAuditLog_noted {booking : Uuid} {action previous new : String} {actor : Option User}
    {detail : Json} {ip : Option String}
    (h : writeAuditLog booking action actor previous new detail ip s = .ok (u, t))
    (hnew : new = "" ∨ new = previous) : Audited s t ∧ ∀ k, t.statusPath k = s.statusPath k := by
  obtain ⟨haudited, hpath⟩ := writeAuditLog_ok h
  refine ⟨haudited, fun k => ?_⟩
  rw [hpath k, if_neg (by tauto), List.append_nil]

theorem writeConsentLog_noted {booking : Uuid} {intake : Intake} {actor : Option User}
    {ip : Option String} (h : writeConsentLog booking intake actor ip s = .ok (u, t)) :
    Audited s t ∧ ∀ k, t.statusPath k = s.statusPath k := by
  unfold writeConsentLog at h
  split at h
  · exact writeAuditLog_noted h (.inl rfl)
  · obtain ⟨rfl, rfl⟩ := pure_ok.mp h
    exact ⟨⟨⟨rfl, rfl, rfl⟩, rfl, rfl, rfl, rfl⟩, fun _ => rfl⟩

/-- The record that a `get_or_create` reads has not been written since. -/
def Fresh (seen s : Store) (citizen : ℕ) : Prop :=
  seen.recordOf citizen = none ∨ seen.recordOf citizen = s.recordOf citizen

instance : Decidable (Fresh seen s c) := inferInstanceAs (Decidable (_ ∨ _))

theorem getOrCreateNoShowRecord_ok {c : ℕ} {r : ClientNoShowRecord}
    (h : getOrCreateNoShowRecord seen c s = .ok (r, t)) :
    Recorded s t ∧ (∀ d, t.standing d = s.standing d) ∧
      (Fresh seen s c → t.recordOf c = some r) := by
  cases hseen : seen.recordOf c with
  | some record =>
    simp only [getOrCreateNoShowRecord, hseen] at h
    obtain ⟨rfl, rfl⟩ := pure_ok.mp h
    refine ⟨⟨⟨rfl, rfl, rfl⟩, rfl, rfl, rfl, rfl⟩, fun _ => rfl, ?_⟩
    rintro (hnone | hsame)
    · cases hseen.symm.trans hnone
    · exact hsame ▸ hseen
  | none =>
    simp only [getOrCreateNoShowRecord, hseen] at h
    obtain ⟨_, _, hget, h₁⟩ := bind_ok.mp h
    cases hget
    cases hcurrent : s.recordOf c with
    | some record =>
      simp only [hcurrent] at h₁
      obtain ⟨rfl, rfl⟩ := pure_ok.mp h₁
      exact ⟨⟨⟨rfl, rfl, rfl⟩, rfl, rfl, rfl, rfl⟩, fun _ => rfl, fun _ => hcurrent⟩
    | none =>
      simp only [hcurrent] at h₁
      obtain ⟨hr, R, hR, rfl⟩ := create_ok.mp h₁
      have hrc : r.citizen = c := by rw [hr]
      have hrec : ∀ d, Store.recordOf { s with noShowRecords := R } d =
          if d = c then some r else s.recordOf d := by
        intro d
        rw [← hrc]
        exact Store.recordOf_insert (t := { s with noShowRecords := R }) hR
      refine ⟨⟨⟨rfl, rfl, rfl⟩, rfl, rfl, rfl, rfl⟩, fun d => ?_,
        fun _ => (hrec c).trans (if_pos rfl)⟩
      change Store.standing { s with noShowRecords := R } d = s.standing d
      unfold Store.standing
      rw [hrec d]
      split
      next hd => rw [hd, hcurrent, hr]; rfl
      next => rfl

theorem recordWrite_ok {k : Uuid} {f : ClientNoShowRecord → ClientNoShowRecord}
    (h : write Store.recordTable AppointmentError.ofViolation k f s = .ok (u, t))
    (hpk : ∀ r, (f r).pk = r.pk) (hc : ∀ r, (f r).citizen = r.citizen) :
    Recorded s t ∧ ∀ d, t.recordOf d =
      (s.recordOf d).map fun r => if r.pk = k then f r else r := by
  obtain ⟨R, hR, rfl⟩ := write_ok.mp h
  refine ⟨⟨⟨rfl, rfl, rfl⟩, rfl, rfl, rfl, rfl⟩, fun d => ?_⟩
  cases hr : s.noShowRecords.get k with
  | none =>
    obtain rfl : s.noShowRecords = R := by
      simpa [Store.recordTable, Table.update_of_none hr] using hR
    change s.recordOf d = _
    cases hd : s.recordOf d with
    | none => rfl
    | some r =>
      have hne : r.pk ≠ k := Table.get_eq_none.mp hr r (Store.recordOf_eq_some.mp hd).1
      simp [hne]
  | some r =>
    have hrep : s.noShowRecords.Replaced r (f r) R := .of_update hR hr (hpk r)
    rw [Store.recordOf_replaced (t := Store.recordTable.set R s) hrep (hc r)]
    have hrpk : r.pk = k := Table.pk_of_get hr
    split
    next hd => simp [hd, Store.recordOf_eq_some.mpr ⟨hrep.old_mem, rfl⟩, hrpk]
    next hd =>
      cases ha : s.recordOf d with
      | none => rfl
      | some a =>
        obtain ⟨hmem, rfl⟩ := Store.recordOf_eq_some.mp ha
        have hne : a.pk ≠ k := by
          rintro hak
          rw [Table.eq_of_pk hmem hrep.old_mem (hak.trans hrpk.symm)] at hd
          exact hd rfl
        simp [hne]

theorem countLateCancellation_ok {c : ℕ} (h : countLateCancellation seen c s = .ok (u, t)) :
    Recorded s t ∧ ∀ d, t.standing d = s.standing d := by
  obtain ⟨r, s₁, hr, h₁⟩ := bind_ok.mp h
  obtain ⟨hread, hstanding, -⟩ := getOrCreateNoShowRecord_ok hr
  obtain ⟨hwrite, hrec⟩ := recordWrite_ok h₁ (fun _ => rfl) fun _ => rfl
  refine ⟨hread.trans hwrite, fun d => ?_⟩
  rw [← hstanding d]
  unfold Store.standing
  rw [hrec d, Option.map_map]
  congr 2
  funext r
  simp only [Function.comp_apply]
  split <;> rfl

/-- Two writes of one record, of which the first only makes sure that it exists. -/
theorem settled {c : ℕ} {r : ClientNoShowRecord} {f : ClientNoShowRecord → ClientNoShowRecord}
    (hfresh : s'.recordOf c = some r) (hstanding : ∀ d, s'.standing d = s.standing d)
    (hrec : ∀ d, t.recordOf d = (s'.recordOf d).map fun a => if a.pk = r.pk then f a else a)
    (d : ℕ) :
    t.standing d = if d = c then (f r).standing else s.standing d := by
  rw [← hstanding d]
  unfold Store.standing
  rw [hrec d]
  split
  next hd => simp [hd, hfresh]
  next hd =>
    cases ha : s'.recordOf d with
    | none => rfl
    | some a =>
      have hne : a.pk ≠ r.pk := by
        intro hpk
        obtain ⟨hmem, rfl⟩ := Store.recordOf_eq_some.mp ha
        obtain ⟨hmem', rfl⟩ := Store.recordOf_eq_some.mp hfresh
        exact hd (congrArg ClientNoShowRecord.citizen (Table.eq_of_pk hmem hmem' hpk))
      simp [hne]

theorem countAttendance_ok {c : ℕ} (h : countAttendance seen c s = .ok (u, t)) :
    Recorded s t ∧ (Fresh seen s c → ∀ d, t.standing d =
      if d = c then { s.standing d with total := (s.standing d).total + 1 } else s.standing d) := by
  obtain ⟨r, s₁, hr, h₁⟩ := bind_ok.mp h
  obtain ⟨hread, hstanding, hcurrent⟩ := getOrCreateNoShowRecord_ok hr
  obtain ⟨hwrite, hrec⟩ := recordWrite_ok h₁ (fun _ => rfl) fun _ => rfl
  refine ⟨hread.trans hwrite, fun hfresh d => ?_⟩
  rw [settled (hcurrent hfresh) hstanding hrec d]
  split
  next hd =>
    rw [← hstanding d, hd, Store.standing_of_recordOf (hcurrent hfresh)]
    rfl
  next => rfl

theorem standing_noShow (r : ClientNoShowRecord) (policy : SchedulingPolicy) (actor : Option User)
    (now : Instant) : (r.noShow policy actor now).standing =
      { total := r.standing.total + 1
        noShows := r.standing.noShows + 1
        suspended := r.standing.suspended ||
          policy.noShowSuspensionThreshold ≤ r.standing.noShows + 1 } := by
  unfold ClientNoShowRecord.noShow ClientNoShowRecord.flag ClientNoShowRecord.standing
  dsimp only
  split_ifs <;> simp [*]

theorem noShow_pk (r : ClientNoShowRecord) (policy : SchedulingPolicy) (actor : Option User)
    (now : Instant) : (r.noShow policy actor now).pk = r.pk := by
  unfold ClientNoShowRecord.noShow ClientNoShowRecord.flag
  dsimp only
  split_ifs <;> rfl

/-! ## Effects on bookings -/

/-- What no booking operation changes in a booking. -/
structure Booking.Same (old new : Booking) : Prop where
  pk : new.pk = old.pk
  slot : new.slot = old.slot
  citizen : new.citizen = old.citizen
  noShow : new.noShow = old.noShow
  rescheduledFrom : new.rescheduledFrom = old.rescheduledFrom
  rescheduleCount : new.rescheduleCount = old.rescheduleCount
  exclusive : new.govstackExclusive = old.govstackExclusive
  createdAt : new.createdAt = old.createdAt

/-- A booking takes a space of an open slot. -/
structure Opened (b : Booking) (x : Slot) (s t : Store) : Prop extends Frame s t where
  slot : b.slot = x.pk
  isOpen : x.isOpen = true
  space : x.spacesUsed < x.capacity
  active : b.status.isActive = true
  fresh : b.noShow = false ∧ b.rescheduled = false ∧ b.govstackExclusive = false
  bookings : s.bookings.insert b = .ok t.bookings
  slots : s.slots.Replaced x (x.occupied (x.spacesUsed + 1)) t.slots
  logged : Logged b.pk "" b.status.text s t
  records : t.noShowRecords = s.noShowRecords
  clipped : t.clipped = s.clipped

/-- A booking is cancelled or rejected and gives its space back. -/
structure Closed (old new : Booking) (x : Slot) (s t : Store) : Prop extends Frame s t where
  slot : old.slot = x.pk
  same : old.Same new
  status : new.status = .cancelled ∧ old.status.isActive = true ∨
    new.status = .rejected ∧ old.status = .pending
  bookings : s.bookings.Replaced old new t.bookings
  slots : s.slots.Replaced x (x.occupied (x.spacesUsed - 1)) t.slots
  logged : Logged old.pk old.status.text new.status.text s t
  standing : ∀ c, t.standing c = s.standing c
  clipped : t.clipped = s.clipped + if x.spacesUsed = 0 then 1 else 0

theorem Closed.active {old new : Booking} {x : Slot} (h : Closed old new x s t) :
    old.status.isActive = true := by
  obtain ⟨-, hactive⟩ | ⟨-, hpending⟩ := h.status
  · exact hactive
  · rw [hpending]
    rfl

theorem Closed.pending_of_rejected {old new : Booking} {x : Slot} (h : Closed old new x s t)
    (hnew : new.status = .rejected) : old.status = .pending := by
  obtain ⟨hcancelled, -⟩ | ⟨-, hpending⟩ := h.status
  · cases hcancelled.symm.trans hnew
  · exact hpending

/-- A confirmed booking is closed and `b` opened in its place; `m` is the store in between. -/
structure Moved (old new b : Booking) (x y : Slot) (s m t : Store) : Prop where
  closed : Closed old new x s m
  opened : Opened b y m t
  confirmed : old.status = .confirmed
  present : old.noShow = false
  cancelled : new.status = .cancelled
  replaced : new.rescheduled = true
  citizen : b.citizen = old.citizen
  status : b.status = .confirmed
  link : b.rescheduledFrom = some old.pk
  depth : b.rescheduleCount = old.rescheduleCount + 1
  records : t.noShowRecords = s.noShowRecords

structure Confirmed (old : Booking) (s t : Store) : Prop extends Frame s t where
  pending : old.status = .pending
  bookings : s.bookings.Replaced old { old with status := .confirmed } t.bookings
  slots : t.slots = s.slots
  logged : Logged old.pk "pending" "confirmed" s t
  records : t.noShowRecords = s.noShowRecords
  clipped : t.clipped = s.clipped

/-- If the record that was read is still current, the attendance is counted. -/
structure Completed (seen : Store) (old : Booking) (s t : Store) : Prop extends Frame s t where
  confirmed : old.status = .confirmed
  bookings : s.bookings.Replaced old { old with status := .completed } t.bookings
  slots : t.slots = s.slots
  logged : Logged old.pk "confirmed" "completed" s t
  standing : Fresh seen s old.citizen → ∀ c, t.standing c =
    if c = old.citizen then { s.standing c with total := (s.standing c).total + 1 }
    else s.standing c
  clipped : t.clipped = s.clipped

/-- If the record that was read is still current, the absence is counted. -/
structure Absent (seen : Store) (policy : SchedulingPolicy) (old : Booking) (s t : Store) : Prop
    extends Frame s t where
  confirmed : old.status = .confirmed
  first : old.noShow = false
  bookings : s.bookings.Replaced old { old with noShow := true } t.bookings
  slots : t.slots = s.slots
  statusPath : ∀ k, t.statusPath k = s.statusPath k
  standing : Fresh seen s old.citizen → ∀ c, t.standing c =
    if c = old.citizen then
      { total := (s.standing c).total + 1
        noShows := (s.standing c).noShows + 1
        suspended := (s.standing c).suspended ||
          policy.noShowSuspensionThreshold ≤ (s.standing c).noShows + 1 }
    else s.standing c
  clipped : t.clipped = s.clipped

/-- The GovStack columns of a booking are written. -/
def Tagged (old new : Booking) (s t : Store) : Prop :=
  s.bookings.Replaced old new t.bookings ∧ t = { s with bookings := t.bookings } ∧
    new = { old with
      govstackExclusive := new.govstackExclusive
      govstackParticipantEntityId := new.govstackParticipantEntityId }

/-- What happens to a booking in the course of time. -/
inductive BookingStatus.Step : BookingStatus → BookingStatus → Prop where
  | confirm : Step pending confirmed
  | reject : Step pending rejected
  | cancelPending : Step pending cancelled
  | cancelConfirmed : Step confirmed cancelled
  | complete : Step confirmed completed

structure Booking.Onward (old new : Booking) : Prop where
  slot : new.slot = old.slot
  citizen : new.citizen = old.citizen
  createdAt : new.createdAt = old.createdAt
  rescheduledFrom : new.rescheduledFrom = old.rescheduledFrom
  rescheduleCount : new.rescheduleCount = old.rescheduleCount
  noShow : old.noShow = true → new.noShow = true
  status : Relation.ReflTransGen BookingStatus.Step old.status new.status

theorem Booking.Onward.refl (b : Booking) : b.Onward b :=
  ⟨rfl, rfl, rfl, rfl, rfl, id, .refl⟩

theorem Booking.Onward.trans {a b c : Booking} (h : a.Onward b) (g : b.Onward c) : a.Onward c where
  slot := g.slot.trans h.slot
  citizen := g.citizen.trans h.citizen
  createdAt := g.createdAt.trans h.createdAt
  rescheduledFrom := g.rescheduledFrom.trans h.rescheduledFrom
  rescheduleCount := g.rescheduleCount.trans h.rescheduleCount
  noShow := fun hb => g.noShow (h.noShow hb)
  status := h.status.trans g.status

/-- Bookings of `s` are still there in `t`, or have gone on from where they were. -/
abbrev Earlier (s t : Store) : Prop := s.bookings.Grows Booking.Onward t.bookings

theorem Earlier.refl (s : Store) : Earlier s s := Table.Grows.refl Booking.Onward.refl _

theorem Earlier.trans (h : Earlier s s') (g : Earlier s' t) : Earlier s t :=
  Table.Grows.trans (fun _ _ _ => Booking.Onward.trans) h g

theorem Earlier.of_eq (h : t.bookings = s.bookings) : Earlier s t := by
  unfold Earlier
  rw [h]
  exact Earlier.refl s

/-- Only the status of a slot is written. -/
def Restatused (x : Slot) (status : SlotStatus) (s t : Store) : Prop :=
  s.slots.Replaced x { x with status } t.slots ∧ t = { s with slots := t.slots }

/-! ## Bookings go on -/

theorem Closed.step {old new : Booking} {x : Slot} (h : Closed old new x s t) :
    old.status.Step new.status := by
  obtain ⟨hnew, hactive⟩ | ⟨hnew, hold⟩ := h.status
  · rw [hnew]
    revert hactive
    cases old.status <;> simp [BookingStatus.isActive]
    · exact .cancelPending
    · exact .cancelConfirmed
  · rw [hnew, hold]
    exact .reject

theorem Opened.earlier {x : Slot} {b : Booking} (h : Opened b x s t) : Earlier s t :=
  .of_insert Booking.Onward.refl h.bookings

theorem Closed.earlier {old new : Booking} {x : Slot} (h : Closed old new x s t) : Earlier s t :=
  h.bookings.grows Booking.Onward.refl
    ⟨h.same.slot, h.same.citizen, h.same.createdAt, h.same.rescheduledFrom, h.same.rescheduleCount,
      fun hold => h.same.noShow.trans hold, .single h.step⟩

theorem Moved.earlier {old new b : Booking} {x y : Slot} {m : Store}
    (h : Moved old new b x y s m t) : Earlier s t :=
  h.closed.earlier.trans h.opened.earlier

theorem Confirmed.earlier {old : Booking} (h : Confirmed old s t) : Earlier s t := by
  refine h.bookings.grows Booking.Onward.refl ⟨rfl, rfl, rfl, rfl, rfl, id, .single ?_⟩
  rw [h.pending]
  exact .confirm

theorem Completed.earlier {old : Booking} (h : Completed seen old s t) : Earlier s t := by
  refine h.bookings.grows Booking.Onward.refl ⟨rfl, rfl, rfl, rfl, rfl, id, .single ?_⟩
  rw [h.confirmed]
  exact .complete

theorem Absent.earlier {policy : SchedulingPolicy} {old : Booking}
    (h : Absent seen policy old s t) :
    Earlier s t :=
  h.bookings.grows Booking.Onward.refl ⟨rfl, rfl, rfl, rfl, rfl, fun _ => rfl, .refl⟩

theorem Tagged.earlier {old new : Booking} (h : Tagged old new s t) : Earlier s t := by
  obtain ⟨hbookings, -, hnew⟩ := h
  refine hbookings.grows Booking.Onward.refl ?_
  rw [hnew]
  exact ⟨rfl, rfl, rfl, rfl, rfl, id, .refl⟩

theorem Restatused.earlier {x : Slot} {status : SlotStatus} (h : Restatused x status s t) :
    Earlier s t :=
  .of_eq (by rw [h.2])

end Civicos.Appointments
