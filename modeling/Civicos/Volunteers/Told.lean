import Civicos.Volunteers.Notices

/-!
# Nobody is told

The mails to volunteers and coordinators that are due are those of a run in which there is nobody to
tell: the receivers for bookings, cancelled shifts and thresholds never run.
-/
namespace Civicos.Volunteers.Notices

open Library Library.Transaction
open Honoraria (HonorariumCall Honorarium Faults alertThreshold t4aThreshold)

/-- Mails other than those to a volunteer whose single booking has been cancelled -/
def Mail.concerns (m : Mail) : Bool := m.subjectKey ≠ "volunteer_booking_cancelled"

/-- Everybody concerned has been told, once, and nobody else. -/
def Told (h : Hall) : Prop := (h.mails.filter (·.concerns)).Perm h.due

instance {h : Hall} : Decidable (Told h) :=
  inferInstanceAs (Decidable ((h.mails.filter (·.concerns)).Perm h.due))

/-- No callback is left. -/
def Quiet (u : Pool.State Hall Worker) : Bool :=
  u.workers.all fun
    | .posting (_ :: _) => false
    | _ => true

/-! ## When a step concerns somebody -/

/-- Whether there is a seat or a place on the waitlist for a volunteer who has no booking yet -/
def admits (s : Store) (shift volunteer : ℕ) : Bool :=
  match s.shifts.get shift with
  | none => false
  | some x =>
    !x.isCancelled &&
      (!s.bookings.rows.any fun b => b.shift = x.pk ∧ b.volunteer = volunteer) &&
      ((s.effectiveCapacity x).all ((s.bookingsOf x.pk .confirmed).length < ·) ||
        x.waitlistEnabled && (!x.waitlistCap.any (· ≤ (s.bookingsOf x.pk .waitlisted).length)) &&
          nextPosition (s.bookingsOf x.pk .waitlisted) ≤ 32767)

/-- Whether somebody waits for the seat of a booking -/
def promotes (s : Store) (booking : ℕ) : Bool :=
  match s.bookings.get booking with
  | none => false
  | some b =>
    match s.shifts.get b.shift with
    | none => false
    | some x =>
      !x.isCancelled && b.status = .confirmed && x.waitlistEnabled && s.waitlist b.shift ≠ []

/-- Whether somebody has a booking on a shift that can be cancelled -/
def empties (s : Store) (shift : ℕ) : Bool :=
  match s.shifts.get shift with
  | none => false
  | some x => !x.isCancelled && s.bookings.rows.any (onShift shift)

def callConcerns (s : Store) : Call → Bool
  | .bookShift shift volunteer _ => admits s shift volunteer
  | .cancelBooking booking _ _ => promotes s booking
  | .cancelShift shift _ _ => empties s shift
  | _ => false

/-- Whether an honorarium is accepted and leaves the total of its year at the alert threshold -/
def reachesAlert (s : Honoraria.Store) (c : HonorariumCall) (faults : Faults) : Bool :=
  (c.accepted s).any fun (x, _) =>
    !c.lost faults s && x.paymentType = .honorarium &&
      alertThreshold ≤ s.cumulativeYtd c.volunteerProfile x.year + x.amount

def Worker.concerns (h : Hall) : Worker → Bool
  | .shift (.checked c) => callConcerns h.shifts c
  | .paying c faults => reachesAlert h.desk c faults
  | _ => false

/-- The step has nobody to tell. -/
def Unconcerned (u : Pool.State Hall Worker) : Pool.Label Worker Unit Event → Prop
  | .act i _ => (u.workers[i]?).all fun w => !w.concerns u.store
  | _ => True

instance (u : Pool.State Hall Worker) (l : Pool.Label Worker Unit Event) :
    Decidable (Unconcerned u l) :=
  match l with
  | .act i _ => inferInstanceAs
      (Decidable (((u.workers[i]?).all fun w => !w.concerns u.store) = true))
  | .spawn _ | .die _ | .env _ => inferInstanceAs (Decidable True)

variable {s t : Store} {h h' : Hall} {x : Shift} {b : ShiftBooking} {c : Call} {w w' : Worker}
  {shift volunteer booking : ℕ} {callbacks : List Callback} {due : List Mail}

/-! ## What is sent -/

/-- A receiver that is connected to a label does not hear the model. -/
theorem send_label {κ : Type} (text name : String) (run : κ → List Mail) (e : κ) :
    Signal.send [⟨some (.label text), run⟩] (Sender.model name) e = [] := by
  apply Signal.send_eq_nil
  intro r hr
  obtain rfl := List.mem_singleton.mp hr
  exact ⟨_, rfl, by simp⟩

theorem postHonorarium_silent (s : Honoraria.Store) (pk : ℕ) : postHonorarium s pk = [] := by
  unfold postHonorarium
  split
  next => rfl
  next x _ =>
    have hcreated : honorariumCreated.send (.model "Honorarium") (s, x.pk) = [] := rfl
    rw [hcreated, t4aThresholdReached, send_label, craAlertThresholdReached, send_label]
    simp

/-- Callbacks only tell volunteers whose single booking has been cancelled. -/
theorem run_concerns (h : Hall) (callback : Callback) :
    (callback.run h).filter (·.concerns) = [] := by
  cases callback with
  | booked booking =>
    simp only [Callback.run, shiftBooked]
    split
    next => rfl
    next => rw [send_label, List.filter_nil]
  | cancelled booking =>
    apply List.filter_eq_nil_iff.mpr
    intro m hm
    simp only [Callback.run] at hm
    split at hm
    next => cases hm
    next b _ =>
      simp only [shiftBookingCancelled, Signal.send, Signal.receivers, List.filter,
        Option.all_none, List.flatMap_cons, List.flatMap_nil, List.append_nil,
        notifyVolunteerOnBookingCancelled, List.mem_map] at hm
      obtain ⟨b', -, rfl⟩ := hm
      simp [Mail.concerns, bookingCancelledMail]
  | shiftCancelled shift =>
    simp only [Callback.run, Notices.shiftCancelled]
    split
    next => rfl
    next => rw [send_label, List.filter_nil]
  | honorarium pk =>
    simp only [Callback.run, postHonorarium_silent, List.filter_nil]

/-! ## What is due -/

theorem createBooking_returns {state : BookingState} :
    Returns (createBooking shift volunteer state) s ↔
      ¬ state.waitlistPosition.any (32767 < ·) ∧
        ¬ s.bookings.rows.any fun b => b.shift = shift ∧ b.volunteer = volunteer := by
  refine returns_get.trans ?_
  refine returns_guard.trans (and_congr_right fun _ => returns_guard.trans ?_)
  refine and_iff_left_of_imp fun hfree => ?_
  have hinsert : ∃ T, s.bookings.insert
      (fun pk => { toBookingState := state, pk, shift, volunteer }) = .ok T := by
    refine (Numbered.insert_returns rfl).mpr ⟨fun check hcheck => (by cases hcheck), ?_⟩
    rintro a ha i hi ⟨-, hkey⟩
    obtain rfl := List.mem_singleton.mp hi
    obtain ⟨hshift, hvolunteer⟩ := Prod.mk.inj (Option.some.inj hkey)
    exact hfree (List.any_eq_true.mpr ⟨a, ha, decide_eq_true ⟨hshift, hvolunteer⟩⟩)
  obtain ⟨T, hT⟩ := hinsert
  exact ⟨_, append_ok.mpr ⟨rfl, T, hT, rfl⟩⟩

theorem bookShift_returns : Returns (bookShift shift volunteer) s ↔
    admits s shift volunteer = true := by
  unfold admits
  cases hget : s.shifts.get shift with
  | none =>
    refine iff_of_false ?_ (by simp)
    rintro ⟨⟨b, t⟩, hrun⟩
    obtain ⟨x, hx, -⟩ := fetch_bind.mp hrun
    cases hx.symm.trans hget
  | some x =>
    refine (returns_bind_of_ok (fetch_of_get (ℓ := Store.shiftTable) hget)).trans ?_
    refine returns_guard.trans ?_
    dsimp only
    cases hlive : x.isCancelled with
    | true => simp
    | false =>
      refine (and_iff_right Bool.false_ne_true).trans (returns_get.trans ?_)
      generalize (s.effectiveCapacity x).all _ = free
      cases free with
      | true =>
        rw [if_pos rfl, createBooking_returns]
        simp
      | false =>
        rw [if_neg Bool.false_ne_true]
        cases hwaits : x.waitlistEnabled with
        | true =>
          rw [if_pos rfl]
          refine returns_guard.trans ?_
          rw [createBooking_returns]
          generalize x.waitlistCap.any _ = full
          simp only [Option.any_some, decide_eq_true_eq, not_lt, Bool.not_eq_true,
            Bool.not_false, Bool.true_and, Bool.false_or, Bool.and_eq_true,
            Bool.not_eq_eq_eq_not, Bool.not_true]
          constructor
          · rintro ⟨hfull, hposition, hpair⟩
            exact ⟨hpair, hfull, hposition⟩
          · rintro ⟨hpair, hfull, hposition⟩
            exact ⟨hfull, hposition, hpair⟩
        | false =>
          rw [if_neg Bool.false_ne_true]
          simp

theorem promotes_iff : promotes s booking = true ↔ ∃ b x, s.bookings.get booking = some b ∧
    s.shifts.get b.shift = some x ∧ x.isCancelled = false ∧ b.status = .confirmed ∧
      x.waitlistEnabled = true ∧ s.waitlist b.shift ≠ [] := by
  unfold promotes
  cases hb : s.bookings.get booking with
  | none => simp
  | some b =>
    cases hx : s.shifts.get b.shift with
    | none => simp [hx]
    | some x => simp [hx, and_assoc]

/-- Whom `cancel_booking` promotes -/
theorem cancelBooking_promotes {reason : String} {r : Option ShiftBooking}
    (hrun : cancelBooking booking reason s = .ok (r, t)) :
    r = none ↔ promotes s booking = false := by
  obtain ⟨b, hget, h₁⟩ := fetch_bind.mp hrun
  obtain ⟨hb, rfl⟩ := Numbered.get_eq_some.mp hget
  obtain ⟨x, hx, h₂⟩ := fetch_bind.mp h₁
  obtain ⟨hlive, h₃⟩ := guard_ok h₂
  obtain ⟨b', hget', h₄⟩ := fetch_bind.mp h₃
  obtain rfl : b = b' := Option.some.inj (hget.symm.trans hget')
  obtain ⟨-, h₅⟩ := guard_ok h₄
  obtain ⟨_, _, ⟨⟩, h₆⟩ := bind_ok.mp h₅
  replace h₆ := rewriteRows_bind.mp h₆
  rw [← Bool.not_eq_true, promotes_iff]
  split at h₆
  next hpromotes =>
    obtain ⟨hwas, henabled⟩ := hpromotes
    have hwaitlist := congrArg nextUp (waitlist_moved (k := b.shift) hb
      (f := ShiftBooking.cancelledAs s.now (Payments.clip 300 reason)) (by simp [hwas])
      (by simp [ShiftBooking.cancelledAs]))
    have hresult : r = nextUp (s.waitlist b.shift) := (promoteNext_ok h₆).1.trans hwaitlist
    rw [hresult, nextUp, List.argmin_eq_none]
    refine ⟨fun hnil => ?_, fun hnone => ?_⟩
    · rintro ⟨a, y, ha, -, -, -, -, hsome⟩
      obtain rfl : b = a := Option.some.inj (hget.symm.trans ha)
      exact hsome hnil
    · by_contra hsome
      exact hnone ⟨b, x, hget, hx, by simpa using hlive, hwas, henabled, hsome⟩
  next hstays =>
    obtain ⟨rfl, rfl⟩ := pure_ok.mp h₆
    refine iff_of_true rfl ?_
    rintro ⟨a, y, ha, hy, -, hstatus, henabled, -⟩
    obtain rfl : b = a := Option.some.inj (hget.symm.trans ha)
    obtain rfl : x = y := Option.some.inj (hx.symm.trans hy)
    exact hstays ⟨hstatus, henabled⟩

theorem cancelBooking_returns {reason : String} (hpromotes : promotes s booking = true) :
    Returns (cancelBooking booking reason) s := by
  obtain ⟨b, x, hb, hx, hlive, hwas, henabled, hsome⟩ := promotes_iff.mp hpromotes
  refine (returns_bind_of_ok (fetch_of_get (ℓ := Store.bookingTable) hb)).mpr ?_
  refine (returns_bind_of_ok (fetch_of_get (ℓ := Store.shiftTable) hx)).mpr ?_
  refine returns_guard.mpr ⟨by simp [hlive], ?_⟩
  refine (returns_bind_of_ok (fetch_of_get (ℓ := Store.bookingTable) hb)).mpr ?_
  refine returns_guard.mpr ⟨by simp [hwas, BookingStatus.cancellable], ?_⟩
  refine returns_get.mpr ?_
  refine (returns_bind_of_ok (a := ()) (rewriteRows_ok.mpr rfl)).mpr ?_
  rw [if_pos ⟨hwas, henabled⟩]
  refine returns_get.mpr ?_
  split
  next => exact returns_pure
  next => exact (returns_bind_of_ok (a := ()) (rewriteRows_ok.mpr rfl)).mpr returns_pure

theorem cancelShift_returns {actor : Actor} {reason : String} (hempties : empties s shift = true) :
    Returns (cancelShift shift actor reason) s := by
  unfold empties at hempties
  cases hx : s.shifts.get shift with
  | none => simp [hx] at hempties
  | some x =>
    rw [hx] at hempties
    have hlive : x.isCancelled = false := by simpa using (Bool.and_eq_true_iff.mp hempties).1
    refine (returns_bind_of_ok (fetch_of_get (ℓ := Store.shiftTable) hx)).mpr ?_
    refine returns_guard.mpr ⟨by simp [hlive], ?_⟩
    exact ⟨_, rfl⟩

/-- What a transaction owes, and when -/
theorem transaction_due (hrun : transaction c s = .ok ((callbacks, due), t)) :
    due = [] ↔ callConcerns s c = false := by
  cases c with
  | bookShift shift volunteer actor =>
    obtain ⟨b, u, hbook, ⟨⟩⟩ := bind_ok.mp hrun
    have hadmits : admits s shift volunteer = true := bookShift_returns.mp ⟨_, hbook⟩
    simp [callConcerns, hadmits]
  | cancelBooking booking actor reason =>
    obtain ⟨r, u, hcancel, ⟨⟩⟩ := bind_ok.mp hrun
    refine Iff.trans ?_ (cancelBooking_promotes hcancel)
    cases r <;> simp
  | cancelShift shift actor reason =>
    obtain ⟨_, _, ⟨⟩, h₁⟩ := bind_ok.mp hrun
    obtain ⟨u, v, hcancel, ⟨⟩⟩ := bind_ok.mp h₁
    obtain ⟨x, hget, h₂⟩ := fetch_bind.mp hcancel
    obtain ⟨hlive, -⟩ := guard_ok h₂
    have hget : s.shifts.get shift = some x := hget
    simp [callConcerns, empties, hget, hlive, List.filter_eq_nil_iff]
  | markNoShow booking actor =>
    obtain ⟨_, _, -, ⟨⟩⟩ := bind_ok.mp hrun
    simp [callConcerns]
  | completeBooking booking actor =>
    obtain ⟨_, _, -, ⟨⟩⟩ := bind_ok.mp hrun
    simp [callConcerns]

theorem transaction_returns (hconcerns : callConcerns s c = true) : Returns (transaction c) s := by
  cases c with
  | bookShift shift volunteer actor =>
    obtain ⟨⟨b, t⟩, hbook⟩ := bookShift_returns.mpr hconcerns
    exact (returns_bind_of_ok hbook).mpr returns_pure
  | cancelBooking booking actor reason =>
    have hreturns : Returns (cancelBooking booking reason) s := cancelBooking_returns hconcerns
    obtain ⟨⟨r, t⟩, hcancel⟩ := hreturns
    exact (returns_bind_of_ok hcancel).mpr returns_pure
  | cancelShift shift actor reason =>
    have hreturns : Returns (cancelShift shift actor reason) s := cancelShift_returns hconcerns
    obtain ⟨⟨u, t⟩, hcancel⟩ := hreturns
    exact returns_get.mpr ((returns_bind_of_ok hcancel).mpr returns_pure)
  | markNoShow booking actor => cases hconcerns
  | completeBooking booking actor => cases hconcerns

/-- The alert that an honorarium owes -/
theorem alerts_due {s t : Honoraria.Store} {c : HonorariumCall} {faults : Faults} {x : Honorarium}
    (hrun : Honoraria.createHonorarium c faults s = (.ok x, t)) :
    alerts t x.pk = [] ↔ reachesAlert s c faults = false := by
  have houtcome := Honoraria.createHonorarium_outcome c faults s
  rw [hrun] at houtcome
  cases houtcome with
  | @saved y user _ haccepted _ hsaved =>
    unfold reachesAlert
    rw [haccepted, Option.any_some]
    generalize c.lost faults s = lost at hsaved ⊢
    cases hsaved with
    | lost hpk =>
      have hnone : s.honoraria.get x.pk = none := hpk ▸ Numbered.get_next
      simp [alerts, hnone]
    | kept hpk hvolunteer hstate hrows =>
      have hget : t.honoraria.get x.pk = some x :=
        Numbered.get_eq_some.mpr ⟨by simp [hrows], rfl⟩
      have hcolumns : x.paymentType = y.paymentType ∧ x.amount = y.amount ∧
          x.paymentDate = y.paymentDate :=
        ⟨congrArg (·.paymentType) hstate, congrArg (·.amount) hstate,
          congrArg (·.paymentDate) hstate⟩
      obtain ⟨htype, hamount, hdate⟩ := hcolumns
      unfold alerts
      rw [hget]
      dsimp only
      by_cases hhonorarium : x.paymentType = .honorarium
      · rw [if_pos hhonorarium, Honoraria.cumulativeYtd_insert hrows hhonorarium, hvolunteer,
          hamount, hdate]
        have hyear : y.year = yearOf y.paymentDate := rfl
        have horder : alertThreshold ≤ t4aThreshold := by decide
        rw [← htype, hyear]
        split_ifs with hslip halert
        · simp [hhonorarium, horder.trans hslip]
        · simp [hhonorarium, halert]
        · simp [hhonorarium, halert]
      · rw [if_neg hhonorarium]
        simp [← htype, hhonorarium]

theorem no_alert {s t : Honoraria.Store} {c : HonorariumCall} {faults : Faults}
    {e : Honoraria.HonorariumError} (hrun : Honoraria.createHonorarium c faults s = (.error e, t)) :
    reachesAlert s c faults = false := by
  have houtcome := Honoraria.createHonorarium_outcome c faults s
  rw [hrun] at houtcome
  cases houtcome with
  | refused _ hrefused =>
    unfold reachesAlert
    rw [hrefused]
    rfl
  | saved _ _ hsaved =>
    generalize c.lost faults s = lost at hsaved
    cases hsaved

/-! ## One step -/

theorem worker_act_silent {v : Volunteers.Worker} (hcalling : ∀ c, v ≠ .checked c)
    (hact : (Worker.shift v).act h = some (h', w')) :
    h'.due = h.due ∧ h'.mails = h.mails ∧ (Worker.shift v).concerns h = false := by
  cases v with
  | checked c => exact absurd rfl (hcalling c)
  | called c =>
    obtain ⟨r, -, hr⟩ := Option.map_eq_some_iff.mp hact
    cases hr
    exact ⟨rfl, rfl, rfl⟩
  | returned c => cases hact
  | raised c e => cases hact
  | dead => cases hact

/-- What a block adds to the mails that are due, and to those that are sent -/
theorem act_adds (hact : w.act h = some (h', w')) :
    (∃ due, h'.due = h.due ++ due ∧ (due = [] ↔ w.concerns h = false)) ∧
      h'.mails.filter (·.concerns) = h.mails.filter (·.concerns) := by
  have hsame (hdue : h'.due = h.due) (hmails : h'.mails = h.mails)
      (hnobody : w.concerns h = false) :
      (∃ due, h'.due = h.due ++ due ∧ (due = [] ↔ w.concerns h = false)) ∧
        h'.mails.filter (·.concerns) = h.mails.filter (·.concerns) :=
    ⟨⟨[], by rw [hdue, List.append_nil], iff_of_true rfl hnobody⟩, by rw [hmails]⟩
  cases w with
  | shift v =>
    by_cases hcalling : ∃ c, v = .checked c
    · obtain ⟨c, rfl⟩ := hcalling
      simp only [Worker.act] at hact
      split at hact
      next callbacks due t hrun =>
        cases hact
        exact ⟨⟨due, rfl, transaction_due (commit_ok hrun)⟩, rfl⟩
      next e t hrun =>
        cases hact
        refine hsame rfl rfl ?_
        by_contra hconcerns
        obtain ⟨r, hr⟩ := transaction_returns (Bool.not_eq_false _ ▸ hconcerns)
        rw [commit_of_ok (a := r.1) (t := r.2) hr] at hrun
        cases hrun
    · obtain ⟨hdue, hmails, hnobody⟩ := worker_act_silent
        (fun c hc => hcalling ⟨c, hc⟩) hact
      exact hsame hdue hmails hnobody
  | paying c faults =>
    simp only [Worker.act] at hact
    split at hact
    next x t hrun =>
      cases hact
      exact ⟨⟨_, rfl, alerts_due hrun⟩, rfl⟩
    next e t hrun =>
      cases hact
      exact hsame rfl rfl (no_alert hrun)
  | posting callbacks =>
    cases callbacks with
    | nil => cases hact
    | cons callback rest =>
      cases hact
      refine ⟨⟨[], (List.append_nil _).symm, iff_of_true rfl rfl⟩, ?_⟩
      rw [List.filter_append, run_concerns, List.append_nil]
  | refused e => cases hact
  | dead => cases hact

/-! ## Every run -/

variable {u v s₀ : Pool.State Hall Worker} {l : Pool.Label Worker Unit Event}
  {ls : List (Pool.Label Worker Unit Event)}

theorem step_due (hstep : notices.machine.step u l = some v) :
    ∃ due, v.store.due = u.store.due ++ due ∧ (due = [] ↔ Unconcerned u l) := by
  have hnobody (hdue : v.store.due = u.store.due) (hl : Unconcerned u l) :
      ∃ due, v.store.due = u.store.due ++ due ∧ (due = [] ↔ Unconcerned u l) :=
    ⟨[], by rw [hdue, List.append_nil], iff_of_true rfl hl⟩
  obtain ⟨w, rfl, -, rfl⟩ | ⟨i, e, w, h', w', rfl, hw, hact, rfl⟩ | ⟨i, rfl, rfl⟩ |
    ⟨x, h', rfl, henv, rfl⟩ := Program.step_cases hstep
  · exact hnobody rfl trivial
  · obtain ⟨⟨due, hdue, hiff⟩, -⟩ := act_adds hact
    refine ⟨due, hdue, hiff.trans ?_⟩
    simp [Unconcerned, hw]
  · exact hnobody rfl trivial
  · refine hnobody ?_ trivial
    cases x <;> cases henv <;> rfl

theorem mails_of_reachable (hu : notices.machine.Reachable u) :
    u.store.mails.filter (·.concerns) = [] := by
  refine Program.store_invariant (I := fun h => h.mails.filter (·.concerns) = []) ?_ ?_ ?_ hu
  · rintro h ⟨hmails, -⟩
    rw [hmails]
    rfl
  · intro h w e h' w' hI hact
    exact (act_adds hact).2.trans hI
  · intro h x h' hI henv
    cases x <;> cases henv <;> exact hI

/-- Everybody concerned has been told at the end of a run exactly if no step concerned anybody. -/
theorem told_iff_unconcerned (h₀ : notices.machine.Init s₀)
    (hrun : notices.machine.run s₀ ls = some u) :
    Told u.store ↔ (notices.machine.under Unconcerned).run s₀ ls = some u := by
  have hmails := mails_of_reachable (.of_run h₀ hrun)
  have htold : Told u.store ↔ u.store.due = [] := by
    unfold Told
    rw [hmails, List.nil_perm]
  refine htold.trans (Machine.kept_iff_under (G := fun v => v.store.due = []) h₀.1.2 ?_ ?_ hrun)
  · intro u l v hnone hstep
    obtain ⟨due, hdue, hiff⟩ := step_due hstep
    rw [hdue, hnone, List.nil_append]
    exact hiff
  · intro u l v hsome hstep hnone
    obtain ⟨due, hdue, -⟩ := step_due hstep
    exact hsome (List.append_eq_nil_iff.mp (hdue ▸ hnone)).1

section Example

/-- One shift, and two volunteers with approved applications; the first one has a booking. -/
private def noticeBoard : Pool.State Hall Worker where
  store := { shifts := {
    opportunities := [{ pk := 1 }]
    shifts := .seed [fun pk => { pk, opportunity := 1, startDatetime := 10, endDatetime := 20 }]
    profiles := .seed [fun pk => { pk, user := 8 }, fun pk => { pk, user := 9 }]
    approved := [(1, 1), (2, 1)]
    bookings := .seed [fun pk => { pk, shift := 1, volunteer := 1 }] } }
  workers := []

private def books : List (Pool.Label Worker Unit Event) := [
  .spawn (.shift (.called (.bookShift 1 2 { pk := 9 }))), .act 0 (), .act 0 (), .act 0 ()]

private def cancels : List (Pool.Label Worker Unit Event) := [
  .spawn (.shift (.called (.cancelBooking 1 { pk := 8 } "ill"))), .act 0 (), .act 0 (), .act 0 ()]

theorem booking_not_told :
    (notices.machine.final noticeBoard books).store.mails = [] ∧
      Quiet (notices.machine.final noticeBoard books) = true ∧
      ¬ Told (notices.machine.final noticeBoard books).store := by
  decide +kernel

theorem told_cancels :
    Told ((notices.machine.under Unconcerned).final noticeBoard cancels).store ∧
      ((notices.machine.under Unconcerned).final noticeBoard cancels).store.mails.length = 1 :=
  have hrun : (notices.machine.under Unconcerned).run noticeBoard cancels =
      some ((notices.machine.under Unconcerned).final noticeBoard cancels) :=
    Machine.run_final (by decide +kernel)
  ⟨(told_iff_unconcerned ⟨⟨rfl, rfl⟩, rfl⟩ (Machine.run_of_under hrun)).mpr hrun,
    by decide +kernel⟩

end Example

end Civicos.Volunteers.Notices
