import Civicos.Volunteers.Scheduling

/-!
# What a call does to the bookings

A transaction of the scheduling service inserts one booking, moves one booking on, promotes the
first of a waitlist in place of a cancelled booking, or cancels a shift with all of its bookings.
-/
namespace Civicos.Volunteers

open Library Library.Transaction
open Payments (clip)

variable {s t : Store} {x : Shift} {b next : ShiftBooking} {k shift volunteer booking : ℕ}
  {status : BookingStatus} {c : Call} {v : Unit}

/-- Everything but the bookings, the hours and the state of the shifts. -/
structure Store.Same (s t : Store) : Prop where
  now : t.now = s.now
  opportunities : t.opportunities = s.opportunities
  shifts : t.shifts = s.shifts

/-- A seat is taken by a confirmed booking, and stays taken when the volunteer has come or not. -/
def BookingStatus.seated : BookingStatus → Bool
  | confirmed | noShow | completed => true
  | _ => false

def ShiftBooking.seatedOn (k : ℕ) (b : ShiftBooking) : Bool := b.shift = k ∧ b.status.seated

def ShiftBooking.on (k : ℕ) (status : BookingStatus) (b : ShiftBooking) : Bool :=
  b.shift = k ∧ b.status = status

namespace Store

/-- The seats of a shift that are taken. -/
def taken (s : Store) (k : ℕ) : ℕ := s.bookings.rows.countP (ShiftBooking.seatedOn k)

def confirmed (s : Store) (k : ℕ) : ℕ := (s.bookingsOf k .confirmed).length

def waitlist (s : Store) (k : ℕ) : List ShiftBooking := s.bookingsOf k .waitlisted

theorem length_bookingsOf :
    (s.bookingsOf k status).length = s.bookings.rows.countP (ShiftBooking.on k status) := by
  rw [List.countP_eq_length_filter]
  rfl

theorem mem_bookingsOf :
    b ∈ s.bookingsOf k status ↔ b ∈ s.bookings.rows ∧ b.shift = k ∧ b.status = status := by
  simp [bookingsOf]

end Store

/-- A new booking is confirmed while a seat is free, and waits otherwise. -/
inductive Joins (s : Store) (x : Shift) (b : ShiftBooking) : Prop where
  | seated (hstatus : b.status = .confirmed)
    (free : ∀ capacity ∈ s.effectiveCapacity x, s.confirmed x.pk < capacity)
  | waits {capacity : ℕ} (hstatus : b.status = .waitlisted)
    (hcapacity : s.effectiveCapacity x = some capacity) (full : capacity ≤ s.confirmed x.pk)
    (enabled : x.waitlistEnabled = true)
    (room : ∀ cap ∈ x.waitlistCap, (s.waitlist x.pk).length < cap)
    (hposition : b.waitlistPosition = some (nextPosition (s.waitlist x.pk)))

/-- The shift on which a call books. -/
def Call.books : Call → Option ℕ
  | bookShift shift _ _ => some shift
  | _ => none

/-- The booking that a call ends after the shift has begun. -/
def Call.ends : Call → Option ℕ
  | markNoShow booking _ | completeBooking booking _ => some booking
  | _ => none

/-- Which status may follow which, and when nobody is promoted. -/
inductive Moves (c : Call) (s : Store) (b : ShiftBooking) (status : BookingStatus) : Prop where
  | left (hwas : b.status = .waitlisted) (his : status = .cancelled)
  | freed (hwas : b.status = .confirmed) (his : status = .cancelled)
    (hnone : ∀ x ∈ s.shifts.rows, x.pk = b.shift → x.waitlistEnabled = true →
      s.waitlist b.shift = [])
  | ended (hcall : c.ends = some b.pk) (hwas : b.status = .confirmed)
    (his : status.seated = true ∧ status ≠ .confirmed)

/-- The bookings after one booking has been given another state. -/
def Store.moved (s : Store) (b : ShiftBooking) (f : ShiftBooking → BookingState) :
    Numbered ShiftBooking.schema :=
  s.bookings.rewrite (·.pk = b.pk) (.withState f) (ShiftBooking.preserves f)

inductive Change (c : Call) (s t : Store) : Prop where
  | kept (same : s.Same t) (hbookings : t.bookings = s.bookings)
  | joined {x : Shift} {b : ShiftBooking} (hcall : c.books = some x.pk) (same : s.Same t)
    (hx : x ∈ s.shifts.rows) (live : x.isCancelled = false) (hshift : b.shift = x.pk)
    (hpk : b.pk = s.bookings.next) (hrows : t.bookings.rows = s.bookings.rows ++ [b])
    (hjoins : Joins s x b)
  | moved {b : ShiftBooking} {f : ShiftBooking → BookingState} (same : s.Same t)
    (hb : b ∈ s.bookings.rows) (hbookings : t.bookings = s.moved b f)
    (hmoves : Moves c s b (f b).status)
  | promoted {x : Shift} {b next : ShiftBooking} {f g : ShiftBooking → BookingState}
    (same : s.Same t) (hx : x ∈ s.shifts.rows) (hshift : b.shift = x.pk)
    (hb : b ∈ s.bookings.rows) (hwas : b.status = .confirmed)
    (hleft : (f b).status = .cancelled)
    (hnext : nextUp (s.waitlist b.shift) = some next) (hin : (g next).status = .confirmed)
    (hbookings : t.bookings = Store.moved { s with bookings := s.moved b f } next g)
  | withdrawn {x : Shift} {f : Shift → ShiftState} {g : ShiftBooking → BookingState}
    (hnow : t.now = s.now) (hopportunities : t.opportunities = s.opportunities)
    (hx : x ∈ s.shifts.rows)
    (hshifts : t.shifts = s.shifts.rewrite (·.pk = x.pk) (.withState f) (Shift.preserves f))
    (hstate : ∀ b, (g b).status = .cancelled)
    (hbookings : t.bookings = s.bookings.rewrite (fun b => b.shift = x.pk ∧ b.status.cancellable)
      (.withState g) (ShiftBooking.preserves g))

/-! ## One lemma for each function -/

theorem createBooking_ok {state : BookingState}
    (h : createBooking shift volunteer state s = .ok (b, t)) :
    b = { toBookingState := state, pk := s.bookings.next, shift, volunteer } ∧ s.Same t ∧
      t.bookings.rows = s.bookings.rows ++ [b] := by
  obtain ⟨_, _, ⟨⟩, h₁⟩ := bind_ok.mp h
  obtain ⟨-, h₂⟩ := guard_ok h₁
  obtain ⟨-, h₃⟩ := guard_ok h₂
  obtain ⟨rfl, T, hT, rfl⟩ := append_ok.mp h₃
  exact ⟨rfl, ⟨rfl, rfl, rfl⟩, Numbered.insert_rows hT fun _ => rfl⟩

theorem bookShift_change {actor : Actor} (h : bookShift shift volunteer s = .ok (b, t)) :
    Change (.bookShift shift volunteer actor) s t := by
  obtain ⟨x, hget, h₁⟩ := fetch_bind.mp h
  obtain ⟨hx, rfl⟩ := Numbered.get_eq_some.mp hget
  obtain ⟨hlive, h₂⟩ := guard_ok h₁
  obtain ⟨_, _, ⟨⟩, h₃⟩ := bind_ok.mp h₂
  dsimp only at h₃
  split at h₃
  next hfree =>
    obtain ⟨rfl, hsame, hrows⟩ := createBooking_ok h₃
    refine .joined rfl hsame hx (by simpa using hlive) rfl rfl hrows
      (.seated rfl fun capacity hc => ?_)
    have hc : s.effectiveCapacity x = some capacity := hc
    simpa [hc, Store.confirmed] using hfree
  next hfull =>
    split at h₃
    next henabled =>
      obtain ⟨hroom, h₄⟩ := guard_ok h₃
      obtain ⟨rfl, hsame, hrows⟩ := createBooking_ok h₄
      cases hcapacity : s.effectiveCapacity x with
      | none => simp [hcapacity] at hfull
      | some capacity =>
        simp only [hcapacity, Option.all_some, decide_eq_true_eq, Nat.not_lt] at hfull
        refine .joined rfl hsame hx (by simpa using hlive) rfl rfl hrows
          (.waits rfl hcapacity hfull henabled (fun cap hcap => ?_) rfl)
        have hcap : x.waitlistCap = some cap := hcap
        simpa [hcap, Store.waitlist] using hroom
    next => cases h₃

theorem waitlist_moved {f : ShiftBooking → BookingState} (hb : b ∈ s.bookings.rows)
    (hbefore : b.status ≠ .waitlisted) (hafter : (f b).status ≠ .waitlisted) :
    Store.waitlist { s with bookings := s.moved b f } k = s.waitlist k := by
  refine Numbered.filter_rewrite_apart (ShiftBooking.preserves f) fun a ha hpk => ?_
  obtain rfl : a = b := Table.eq_of_pk ha hb (of_decide_eq_true hpk)
  simp [ShiftBooking.withState, hbefore, hafter]

theorem promoteNext_ok {r : Option ShiftBooking} (h : promoteNext k s = .ok (r, t)) :
    r = nextUp (s.waitlist k) ∧ (nextUp (s.waitlist k) = none ∧ t = s ∨
    ∃ next, nextUp (s.waitlist k) = some next ∧
      t = { s with bookings := s.moved next ShiftBooking.promoted }) := by
  obtain ⟨_, _, ⟨⟩, h₁⟩ := bind_ok.mp h
  cases hnext : nextUp (s.bookingsOf k .waitlisted) with
  | none =>
    simp only [hnext] at h₁
    obtain ⟨rfl, hsame⟩ := pure_ok.mp h₁
    exact ⟨hnext.symm, .inl ⟨hnext, hsame⟩⟩
  | some next =>
    simp only [hnext] at h₁
    obtain ⟨_, _, ⟨⟩, h₂⟩ := bind_ok.mp h₁
    obtain ⟨rfl, hmoved⟩ := pure_ok.mp h₂
    exact ⟨hnext.symm, .inr ⟨next, hnext, hmoved⟩⟩

theorem cancelBooking_change {r : Option ShiftBooking} {reason : String} (c : Call)
    (h : cancelBooking booking reason s = .ok (r, t)) : Change c s t := by
  obtain ⟨b, hget, h₁⟩ := fetch_bind.mp h
  obtain ⟨hb, rfl⟩ := Numbered.get_eq_some.mp hget
  obtain ⟨x, hx, h₂⟩ := fetch_bind.mp h₁
  obtain ⟨hx, hxpk⟩ := Numbered.get_eq_some.mp hx
  obtain ⟨-, h₃⟩ := guard_ok h₂
  obtain ⟨b', hget', h₄⟩ := fetch_bind.mp h₃
  obtain rfl : b = b' := Option.some.inj (hget.symm.trans hget')
  obtain ⟨hcancellable, h₅⟩ := guard_ok h₄
  obtain ⟨_, _, ⟨⟩, h₆⟩ := bind_ok.mp h₅
  replace h₆ := rewriteRows_bind.mp h₆
  split at h₆
  next hpromotes =>
    obtain ⟨hwas, henabled⟩ := hpromotes
    -- the cancelled booking was confirmed, so that the waitlist is the one of the state before
    have hwaitlist := congrArg nextUp (waitlist_moved (k := b.shift) hb
      (f := ShiftBooking.cancelledAs s.now (clip 300 reason)) (by simp [hwas])
      (by simp [ShiftBooking.cancelledAs]))
    obtain ⟨-, ⟨hnone, rfl⟩ | ⟨next, hsome, rfl⟩⟩ := promoteNext_ok h₆
    · refine .moved ⟨rfl, rfl, rfl⟩ hb rfl (.freed hwas rfl fun _ _ _ _ => ?_)
      exact List.argmin_eq_none.mp (hwaitlist.symm.trans hnone)
    · exact .promoted ⟨rfl, rfl, rfl⟩ hx hxpk.symm hb hwas rfl (hwaitlist.symm.trans hsome) rfl rfl
  next hstays =>
    obtain ⟨-, rfl⟩ := pure_ok.mp h₆
    refine .moved ⟨rfl, rfl, rfl⟩ hb rfl ?_
    cases hwas : b.status with
    | waitlisted => exact .left hwas rfl
    | confirmed =>
      refine .freed hwas rfl fun y hy hpk henabled => ?_
      obtain rfl : y = x := Table.eq_of_pk hy hx (hpk.trans hxpk.symm)
      exact absurd ⟨hwas, henabled⟩ hstays
    | _ => simp [hwas, BookingStatus.cancellable] at hcancellable

theorem markNoShow_change {actor : Actor} (h : markNoShow booking s = .ok (v, t)) :
    Change (.markNoShow booking actor) s t := by
  obtain ⟨b, hget, h₁⟩ := fetch_bind.mp h
  obtain ⟨hb, rfl⟩ := Numbered.get_eq_some.mp hget
  obtain ⟨hconfirmed, h₂⟩ := guard_ok h₁
  obtain rfl := rewriteRows_ok.mp h₂
  exact .moved ⟨rfl, rfl, rfl⟩ hb rfl (.ended rfl (not_not.mp hconfirmed) ⟨rfl, by simp⟩)

theorem completeBooking_change {actor : Actor} (h : completeBooking booking s = .ok (v, t)) :
    Change (.completeBooking booking actor) s t := by
  obtain ⟨b, hget, h₁⟩ := fetch_bind.mp h
  obtain ⟨hb, rfl⟩ := Numbered.get_eq_some.mp hget
  obtain ⟨hconfirmed, h₂⟩ := guard_ok h₁
  obtain ⟨x, -, h₃⟩ := fetch_bind.mp (rewriteRows_bind.mp h₂)
  obtain ⟨_, _, ⟨⟩, h₄⟩ := bind_ok.mp h₃
  split at h₄
  · obtain ⟨-, rfl⟩ := pure_ok.mp h₄
    exact .moved ⟨rfl, rfl, rfl⟩ hb rfl (.ended rfl (not_not.mp hconfirmed) ⟨rfl, by simp⟩)
  · obtain ⟨l, _, happend, ⟨⟩⟩ := bind_ok.mp h₄
    obtain ⟨-, T, -, rfl⟩ := append_ok.mp happend
    exact .moved ⟨rfl, rfl, rfl⟩ hb rfl (.ended rfl (not_not.mp hconfirmed) ⟨rfl, by simp⟩)

theorem cancelShift_change {actor : Actor} {reason : String} (c : Call)
    (h : cancelShift shift actor reason s = .ok (v, t)) : Change c s t := by
  obtain ⟨x, hget, h₁⟩ := fetch_bind.mp h
  obtain ⟨hx, -⟩ := Numbered.get_eq_some.mp hget
  obtain ⟨-, h₂⟩ := guard_ok h₁
  obtain ⟨_, _, ⟨⟩, h₃⟩ := bind_ok.mp h₂
  obtain rfl := rewriteRows_ok.mp (rewriteRows_bind.mp h₃)
  exact .withdrawn rfl rfl hx rfl (fun _ => rfl) rfl

theorem perform_change (h : c.perform s = .ok (v, t)) : Change c s t := by
  cases c with
  | bookShift shift volunteer actor =>
    obtain ⟨b, _, hbook, ⟨⟩⟩ := bind_ok.mp h
    exact bookShift_change hbook
  | cancelBooking booking actor reason =>
    obtain ⟨r, _, hcancel, ⟨⟩⟩ := bind_ok.mp h
    exact cancelBooking_change _ hcancel
  | markNoShow booking actor => exact markNoShow_change h
  | completeBooking booking actor => exact completeBooking_change h
  | cancelShift shift actor reason => exact cancelShift_change _ h

/-- A block of a call is one of its transactions, or changes nothing. -/
theorem act_performs {u v : Store} {w w' : Worker} (h : w.act u () = some (v, w')) :
    v = u ∨ ∃ c, w = .checked c ∧ w' = .returned c ∧ c.perform u = .ok ((), v) := by
  cases w with
  | called c =>
    simp only [Worker.act] at h
    split at h <;> cases h <;> exact .inl rfl
  | checked c =>
    simp only [Worker.act] at h
    cases hrun : c.perform u with
    | error e =>
      rw [commit_of_error hrun] at h
      cases h
      exact .inl rfl
    | ok r =>
      rw [commit_of_ok (a := r.1) (t := r.2) hrun] at h
      cases h
      exact .inr ⟨c, rfl, rfl, hrun⟩
  | returned => cases h
  | raised => cases h
  | dead => cases h

end Civicos.Volunteers
