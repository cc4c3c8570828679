import Civicos.Appointments.Requests
import Civicos.Library.Chained

/-!
# Reschedule chains

A booking that is moved is closed and another one opened in its place, with a link back.
-/
namespace Civicos.Appointments

open Library Library.Transaction Relation
open Payments (Uuid)

/-- What stays of a booking, whatever happens to it. -/
structure Booking.Kept (a b : Booking) : Prop where
  pk : a.pk = b.pk
  slot : a.slot = b.slot
  link : a.rescheduledFrom = b.rescheduledFrom
  count : a.rescheduleCount = b.rescheduleCount

theorem Booking.Kept.trans {a b c : Booking} (h : a.Kept b) (g : b.Kept c) : a.Kept c :=
  ⟨h.pk.trans g.pk, h.slot.trans g.slot, h.link.trans g.link, h.count.trans g.count⟩

theorem kept_of_replaced {s t : Store} {old new b : Booking}
    (h : s.bookings.Replaced old new t.bookings) (hkept : old.Kept new)
    (hb : b ∈ t.bookings.rows) : ∃ a ∈ s.bookings.rows, a.Kept b := by
  rcases h.mem_iff.mp hb with ⟨hb, -⟩ | rfl
  · exact ⟨b, hb, rfl, rfl, rfl, rfl⟩
  · exact ⟨old, h.old_mem, hkept⟩

namespace Store

/-- Booking `b` came in the place of `a`. -/
def Replaces (s : Store) (a b : Booking) : Prop :=
  a ∈ s.bookings.rows ∧ b ∈ s.bookings.rows ∧ b.rescheduledFrom = some a.pk

/-- How many bookings stand before `b` in its chain. -/
inductive Depth (s : Store) : Booking → ℕ → Prop where
  | root {b} (h : b ∈ s.bookings.rows) (first : b.rescheduledFrom = none) : Depth s b 0
  | next {a b n} (h : Depth s a n) (link : s.Replaces a b) : Depth s b (n + 1)

/-- Counts go up along the links, and only cancelled bookings are replaced, each of them once. -/
structure Chained (s : Store) : Prop where
  root : ∀ b ∈ s.bookings.rows, b.rescheduledFrom = none → b.rescheduleCount = 0
  link : ∀ b ∈ s.bookings.rows, ∀ k, b.rescheduledFrom = some k →
    ∃ a, s.bookings.get k = some a ∧ b.rescheduleCount = a.rescheduleCount + 1 ∧
      a.status = .cancelled
  once : ∀ b ∈ s.bookings.rows, ∀ c ∈ s.bookings.rows, ∀ k, b.rescheduledFrom = some k →
    c.rescheduledFrom = some k → b = c

variable {s t : Store} {a b c old new : Booking}

namespace Chained

theorem count_eq (hs : s.Chained) (h : s.Replaces a b) :
    b.rescheduleCount = a.rescheduleCount + 1 ∧ a.status = .cancelled := by
  obtain ⟨ha, hb, hlink⟩ := h
  obtain ⟨c, hc, hcount, hstatus⟩ := hs.link b hb _ hlink
  obtain rfl : a = c := Option.some.inj ((Table.get_eq_some.mpr ⟨ha, rfl⟩).symm.trans hc)
  exact ⟨hcount, hstatus⟩

theorem rightUnique (hs : s.Chained) : Relator.RightUnique s.Replaces :=
  fun _ _ _ hb hc => hs.once _ hb.2.1 _ hc.2.1 _ hb.2.2 hc.2.2

theorem leftUnique : Relator.LeftUnique s.Replaces := by
  intro a b c ha hb
  exact Table.eq_of_pk ha.1 hb.1 (Option.some.inj (ha.2.2.symm.trans hb.2.2))

/-- The count of a booking is its depth. -/
theorem depth (hs : s.Chained) {n : ℕ} (hb : b ∈ s.bookings.rows) (hn : b.rescheduleCount = n) :
    s.Depth b n := by
  induction n generalizing b with
  | zero =>
    cases hlink : b.rescheduledFrom with
    | none => exact .root hb hlink
    | some k =>
      obtain ⟨a, -, hcount, -⟩ := hs.link b hb k hlink
      omega
  | succ n ih =>
    cases hlink : b.rescheduledFrom with
    | none =>
      have hzero := hs.root b hb hlink
      omega
    | some k =>
      obtain ⟨a, ha, hcount, -⟩ := hs.link b hb k hlink
      have hak : a.pk = k := Table.pk_of_get ha
      refine .next (ih (Table.mem_of_get ha) (by omega)) ⟨Table.mem_of_get ha, hb, ?_⟩
      rw [hlink, hak]

/-- A booking is rewritten that keeps its place, and stays cancelled if it was. -/
theorem rewritten (hs : s.Chained) (h : s.bookings.Replaced old new t.bookings)
    (hkept : old.Kept new) (hstatus : old.status = .cancelled → new.status = .cancelled) :
    t.Chained := by
  refine ⟨fun b hb hfirst => ?_, fun b hb k hk => ?_, fun b hb c hc k hbk hck => ?_⟩
  · obtain ⟨a, ha, hab⟩ := kept_of_replaced h hkept hb
    rw [← hab.count]
    exact hs.root a ha (hab.link.trans hfirst)
  · obtain ⟨a, ha, hab⟩ := kept_of_replaced h hkept hb
    obtain ⟨c, hc, hnext, hcancelled⟩ := hs.link a ha k (hab.link.trans hk)
    rw [h.get_eq, ← hab.count]
    split
    next hold =>
      subst hold
      obtain rfl : old = c := Option.some.inj (h.get.symm.trans hc)
      exact ⟨new, rfl, hkept.count ▸ hnext, hstatus hcancelled⟩
    next => exact ⟨c, hc, hnext, hcancelled⟩
  · obtain ⟨a, ha, hab⟩ := kept_of_replaced h hkept hb
    obtain ⟨d, hd, hdc⟩ := kept_of_replaced h hkept hc
    obtain rfl := hs.once a ha d hd k (hab.link.trans hbk) (hdc.link.trans hck)
    exact Table.eq_of_pk hb hc (hab.pk.symm.trans hdc.pk)

/-- A booking is opened: the first of a chain, or after a cancelled one that none has replaced. -/
theorem inserted (hs : s.Chained) (h : s.bookings.insert b = .ok t.bookings)
    (hb : b.rescheduledFrom = none ∧ b.rescheduleCount = 0 ∨
      ∃ a ∈ s.bookings.rows, b.rescheduledFrom = some a.pk ∧
        b.rescheduleCount = a.rescheduleCount + 1 ∧ a.status = .cancelled ∧
        ∀ c ∈ s.bookings.rows, c.rescheduledFrom ≠ some a.pk) : t.Chained := by
  have hmem : ∀ c, c ∈ t.bookings.rows ↔ c ∈ s.bookings.rows ∨ c = b := by
    intro c
    rw [Table.mem_insert h]
  have hfresh : ∀ c ∈ s.bookings.rows, ∀ k, c.rescheduledFrom = some k →
      b.rescheduledFrom ≠ some k := by
    intro c hc k hck hbk
    obtain ⟨hfirst, -⟩ | ⟨a, -, hlink, -, -, hfree⟩ := hb
    · cases hfirst.symm.trans hbk
    · exact hfree c hc (hck.trans (hbk.symm.trans hlink))
  refine ⟨fun c hc hfirst => ?_, fun c hc k hk => ?_, fun c hc d hd k hck hdk => ?_⟩
  · obtain hc | rfl := (hmem c).mp hc
    · exact hs.root c hc hfirst
    · obtain ⟨-, hzero⟩ | ⟨a, -, hlink, -⟩ := hb
      · exact hzero
      · cases hlink.symm.trans hfirst
  · obtain hc | rfl := (hmem c).mp hc
    · obtain ⟨a, ha, hrest⟩ := hs.link c hc k hk
      exact ⟨a, Table.get_of_insert h ha, hrest⟩
    · obtain ⟨hfirst, -⟩ | ⟨a, ha, hlink, hcount, hcancelled, -⟩ := hb
      · cases hfirst.symm.trans hk
      · obtain rfl : a.pk = k := Option.some.inj (hlink.symm.trans hk)
        exact ⟨a, Table.get_of_insert h (Table.get_eq_some.mpr ⟨ha, rfl⟩), hcount, hcancelled⟩
  · obtain hc | rfl := (hmem c).mp hc <;> obtain hd | rfl := (hmem d).mp hd
    · exact hs.once c hc d hd k hck hdk
    · exact absurd hdk (hfresh c hc k hck)
    · exact absurd hck (hfresh d hd k hdk)
    · rfl

/-- A booking that is not cancelled has not been replaced. -/
theorem not_replaced (hs : s.Chained) (ha : a ∈ s.bookings.rows) (hstatus : a.status ≠ .cancelled)
    (hc : c ∈ s.bookings.rows) : c.rescheduledFrom ≠ some a.pk := fun hlink =>
  hstatus (hs.count_eq ⟨ha, hc, hlink⟩).2

end Chained

end Store

/-! ## Moves -/

variable {seen s m t : Store} {P : Permits} {b old new : Booking} {x y : Slot}

theorem Closed.kept (h : Closed old new x s t) : old.Kept new :=
  ⟨h.same.pk.symm, h.same.slot.symm, h.same.rescheduledFrom.symm, h.same.rescheduleCount.symm⟩

theorem Closed.chained (h : Closed old new x s t) (hs : s.Chained) : t.Chained := by
  refine hs.rewritten h.bookings h.kept fun hcancelled => ?_
  have hactive := h.active
  rw [hcancelled] at hactive
  cases hactive

theorem Moved.chained (h : Moved old new b x y s m t) (hs : s.Chained) : t.Chained := by
  have hpk : new.pk = old.pk := h.closed.same.pk
  refine (h.closed.chained hs).inserted h.opened.bookings (.inr ⟨new, h.closed.bookings.new_mem,
    ?_, ?_, h.cancelled, fun c hc => ?_⟩)
  · rw [h.link, hpk]
  · rw [h.depth, h.closed.same.rescheduleCount]
  · -- the row that was just closed was confirmed, so nothing links to it
    have hfree : ∀ c ∈ s.bookings.rows, c.rescheduledFrom ≠ some old.pk := fun c hc =>
      hs.not_replaced h.closed.bookings.old_mem (by simp [h.confirmed]) hc
    rw [hpk]
    rcases h.closed.bookings.mem_iff.mp hc with ⟨hc, -⟩ | rfl
    · exact hfree c hc
    · rw [h.closed.same.rescheduledFrom]
      exact hfree old h.closed.bookings.old_mem

theorem Store.Chained.congr (hs : s.Chained) (hbookings : t.bookings = s.bookings) : t.Chained := by
  obtain ⟨root, link, once⟩ := hs
  exact ⟨hbookings ▸ root, hbookings ▸ link, hbookings ▸ once⟩

theorem Tagged.kept (h : Tagged old new s t) : old.Kept new := by
  rw [h.2.2]
  exact ⟨rfl, rfl, rfl, rfl⟩

theorem Move.chained (h : Move seen P s t) (hs : s.Chained) : t.Chained := by
  cases h with
  | opened _ h root depth => exact hs.inserted h.bookings (.inl ⟨root, depth⟩)
  | closed _ h => exact h.chained hs
  | moved _ h => exact h.chained hs
  | confirmed h => exact hs.rewritten h.bookings ⟨rfl, rfl, rfl, rfl⟩ (by simp [h.pending])
  | completed _ h => exact hs.rewritten h.bookings ⟨rfl, rfl, rfl, rfl⟩ (by simp [h.confirmed])
  | absent _ h => exact hs.rewritten h.bookings ⟨rfl, rfl, rfl, rfl⟩ id
  | tagged h => exact hs.rewritten h.1 h.kept (by rw [h.2.2]; exact id)
  | locked h => exact hs.congr (by rw [h.2])
  | reopened _ h => exact hs.congr (by rw [h.2])
  | noted h => exact hs.congr h.bookings

/-! ## The maximum -/

/-- A replacement that the policy, as read in `seen`, still allowed. -/
def WithinLimit (seen : Store) (b : Booking) : Prop :=
  ∃ old : Booking, b.rescheduledFrom = some old.pk ∧ b.rescheduleCount = old.rescheduleCount + 1 ∧
    Movable seen old b.slot

/-- Bookings of `t` are those of `s`, first bookings and allowed replacements. -/
def Limited (seen s t : Store) : Prop :=
  ∀ b ∈ t.bookings.rows, (∃ a ∈ s.bookings.rows, a.Kept b) ∨ b.rescheduledFrom = none ∨
    WithinLimit seen b

theorem Limited.of_eq (h : t.bookings = s.bookings) : Limited seen s t := fun b hb =>
  .inl ⟨b, h ▸ hb, rfl, rfl, rfl, rfl⟩

theorem Limited.of_replaced (h : s.bookings.Replaced old new t.bookings) (hkept : old.Kept new) :
    Limited seen s t := fun _ hb => .inl (kept_of_replaced h hkept hb)

theorem Limited.trans (h : Limited seen s m) (g : Limited seen m t) : Limited seen s t := by
  intro b hb
  obtain ⟨a, ha, hab⟩ | hb := g b hb
  · obtain ⟨c, hc, hca⟩ | hfirst | ⟨old, hlink, hcount, hmovable⟩ := h a ha
    · exact .inl ⟨c, hc, hca.trans hab⟩
    · exact .inr (.inl (hab.link.symm.trans hfirst))
    · exact .inr (.inr ⟨old, hab.link ▸ hlink, hab.count ▸ hcount, hab.slot ▸ hmovable⟩)
  · exact .inr hb

theorem Opened.limited (h : Opened b x s t)
    (hb : b.rescheduledFrom = none ∨ WithinLimit seen b) : Limited seen s t := by
  intro a ha
  rw [Table.mem_insert h.bookings] at ha
  obtain ha | rfl := ha
  · exact .inl ⟨a, ha, rfl, rfl, rfl, rfl⟩
  · exact .inr hb

theorem Move.limited (h : Move seen P s t) : Limited seen s t := by
  cases h with
  | opened _ h root => exact h.limited (.inl root)
  | closed _ h => exact .of_replaced h.bookings h.kept
  | moved _ h movable =>
    exact (Limited.of_replaced h.closed.bookings h.closed.kept).trans
      (h.opened.limited (.inr ⟨_, h.link, h.depth, movable⟩))
  | confirmed h => exact .of_replaced h.bookings ⟨rfl, rfl, rfl, rfl⟩
  | completed _ h => exact .of_replaced h.bookings ⟨rfl, rfl, rfl, rfl⟩
  | absent _ h => exact .of_replaced h.bookings ⟨rfl, rfl, rfl, rfl⟩
  | tagged h => exact .of_replaced h.1 h.kept
  | locked h => exact .of_eq (by rw [h.2])
  | reopened _ h => exact .of_eq (by rw [h.2])
  | noted h => exact .of_eq h.bookings

theorem WithinLimit.le {n : ℕ} (h : WithinLimit seen b)
    (hn : seen.catalog.atMost (·.maxRescheduleCount) n) :
    b.rescheduleCount ≤ n := by
  obtain ⟨old, -, hcount, x, y, policy, -, -, hpolicy, hlt⟩ := h
  have hle := hpolicy.le hn
  omega

/-! ## Runs -/

variable {r : Request} {u : Unit} {now : Instant} {n : ℕ}

theorem perform_chained (hseen : Earlier seen s) (hs : s.Chained)
    (h : r.perform seen now s = .ok (u, t)) : t.Chained ∧ Limited seen s t :=
  perform_keeps (I := fun m => m.Chained ∧ Limited seen s m) hseen
    (fun _ _ hmove hm => ⟨hmove.chained hm.1, hm.2.trans hmove.limited⟩)
    (fun _ _ hmanage hm => ⟨hm.1.congr hmanage.bookings, hm.2.trans (.of_eq hmanage.bookings)⟩)
    h ⟨hs, .of_eq rfl⟩

theorem initial_chained (hs : s.Initial) : s.Chained := by
  constructor <;> simp [hs.bookings]

theorem reachable_chained {s : Pool.State Store Task} (h : system.machine.Reachable s) :
    s.store.Chained :=
  invariant (fun _ => initial_chained) (fun _ _ hs => hs.congr rfl)
    (fun _ _ _ hs he => hs.congr (administer_bookings he))
    (fun _ _ _ _ _ hseen hs hrun => (perform_chained hseen hs hrun).1) h

/-- No policy allows more than `n` reschedulings. -/
abbrev reschedulesAtMost (n : ℕ) :=
  system.under fun s _ _ => s.catalog.atMost (·.maxRescheduleCount) n

theorem counts_atMost {s : Pool.State Store Task} (h : (reschedulesAtMost n).machine.Reachable s) :
    ∀ b ∈ s.store.bookings.rows, b.rescheduleCount ≤ n := by
  refine (invariant_reading (I := fun s => s.Chained ∧ ∀ b ∈ s.bookings.rows, b.rescheduleCount ≤ n)
    (Q := fun s => s.catalog.atMost (·.maxRescheduleCount) n) (fun _ _ _ hn => hn)
    (fun _ hs => ⟨initial_chained hs, by simp [hs.bookings]⟩)
    (fun _ _ hs => ⟨hs.1.congr rfl, hs.2⟩)
    (fun _ _ _ hs he => ⟨hs.1.congr (administer_bookings he), administer_bookings he ▸ hs.2⟩)
    (fun r seen job now db t _ hread hseen hs hrun => ?_) h).2
  obtain ⟨hchained, hlimited⟩ := perform_chained (s := { db with clock := now }) hseen hs.1 hrun
  refine ⟨hchained, fun b hb => ?_⟩
  obtain ⟨a, ha, hab⟩ | hfirst | hwithin := hlimited b hb
  · rw [← hab.count]
    exact hs.2 a ha
  · rw [hchained.root b hb hfirst]
    exact Nat.zero_le n
  · exact hwithin.le hread

/-- Whatever the calls and their order: chains have no cycles, no booking is replaced twice, the
count of a booking is its depth, and of the bookings of a chain at most one occupies its slot. A
new booking in a chain is one that the policy read by its call allows, so no count exceeds what
the policies have ever allowed. -/
theorem reschedule_chains {s : Pool.State Store Task} (h : system.machine.Reachable s) :
    (∀ b, ¬ TransGen s.store.Replaces b b) ∧
    (∀ a b c, s.store.Replaces a b → s.store.Replaces a c → b = c) ∧
    (∀ b ∈ s.store.bookings.rows, s.store.Depth b b.rescheduleCount) ∧
    (∀ a b, EqvGen s.store.Replaces a b → a.status.holdsSpace = true → b.status.holdsSpace = true →
      a = b) ∧
    (∀ (i : ℕ) now t r seen job, s.workers[i]? = some (.running r seen job) →
      system.machine.step s (.act i now) = some t → Limited seen s.store t.store) ∧
    ∀ n, (reschedulesAtMost n).machine.Reachable s →
      ∀ b ∈ s.store.bookings.rows, b.rescheduleCount ≤ n := by
  have hchained := reachable_chained h
  refine ⟨Lineage.acyclic (r := Booking.rescheduleCount) fun a b hab => ?_,
    fun a b c hb hc => hchained.rightUnique hb hc, fun b hb => hchained.depth hb rfl,
    fun a b hab => Lineage.eq_of_last (p := fun b => b.status.holdsSpace = true)
      hchained.rightUnique Store.Chained.leftUnique (fun c d hc hcd => ?_) hab,
    fun i now t r seen job hi hstep => ?_, fun n => counts_atMost⟩
  · rw [(hchained.count_eq hab).1]
    omega
  · rw [(hchained.count_eq hcd).2] at hc
    cases hc
  · obtain ⟨st, q, hact, rfl, -⟩ := Program.step_act hi hstep
    obtain ⟨-, hst | ⟨r', seen', job', hsame, hrun⟩⟩ := act_store hact
    · exact .of_eq (by rw [hst])
    · cases hsame
      exact (perform_chained (s := { s.store with clock := now })
        (reachable_knows h _ (List.mem_of_getElem? hi)) (hchained.congr rfl) hrun).2

/-- A booking goes to another week and back. -/
def movedBack : Pool.State Store Task :=
  system.machine.final ⟨{}, []⟩ (clinic ++ serial 0 0 [
    .createBooking 1 7 {} none none, .confirmBooking 1 (some ⟨9, true, true⟩) none,
    .rescheduleBooking 1 2 (some ⟨9, true, true⟩) "" none,
    .rescheduleBooking 2 1 (some ⟨9, true, true⟩) "" none])

theorem movedBack_chain :
    movedBack.store.bookings.rows.map (fun b => (b.rescheduledFrom, b.status)) =
      [(none, .cancelled), (some 1, .cancelled), (some 2, .confirmed)] ∧
    (∀ b ∈ movedBack.store.bookings.rows, movedBack.store.Depth b b.rescheduleCount) ∧
    ∀ a b, EqvGen movedBack.store.Replaces a b → a.status.holdsSpace = true →
      b.status.holdsSpace = true → a = b := by
  have hreachable : system.machine.Reachable movedBack :=
    Machine.Reachable.final (M := system.machine) (s := ⟨{}, []⟩) initial_empty _
  obtain ⟨-, -, hdepth, hlast, -⟩ := reschedule_chains hreachable
  exact ⟨by decide +kernel, hdepth, hlast⟩

end Civicos.Appointments
