import Civicos.Library.Layer
import Civicos.Volunteers.Waitlist
import Mathlib.Data.List.Nodup

/-!
# Shift reminders

Two periodic tasks write to the volunteers of confirmed bookings, a day and two hours before their
shifts. Each marks a booking before it sends, in a transaction of its own, and goes on with the next
when one fails. The tasks are a layer over the scheduling service: they share the bookings with its
calls and with each other.
-/
namespace Civicos.Volunteers

open Library

/-- The two tasks -/
inductive Reminder where
  | day
  | twoHours
deriving DecidableEq, Repr

namespace Reminder

/-- `timedelta(hours=n)` -/
def timedelta (n : ℕ) : Instant := n * 3600000000

/-- From the clock to `window_start` -/
def earliest : Reminder → Instant
  | day => timedelta 23
  | twoHours => timedelta 1

/-- From the clock to `window_end` -/
def latest : Reminder → Instant
  | day => timedelta 25
  | twoHours => timedelta 3

def subjectKey : Reminder → String
  | day => "volunteer_shift_reminder_24h"
  | twoHours => "volunteer_shift_reminder_2h"

end Reminder

structure ReminderMail where
  kind : Reminder
  booking : ShiftBooking
  shift : Shift
deriving DecidableEq, Repr

/-- What the mail is one of at most one -/
def ReminderMail.key (m : ReminderMail) : Reminder × ℕ := (m.kind, m.booking.pk)

/-- The store of the tasks. A booking is in `sent` when its `reminder_24h_sent` or
`reminder_2h_sent` is true; no other code writes these columns. -/
structure Reminders where
  sent : List (Reminder × ℕ) := []
  mails : List ReminderMail := []
deriving DecidableEq, Repr

namespace Reminders

variable (r : Reminders) (s : Store) (k : Reminder)

/-- The shift is in the window of a task. -/
def InWindow (k : Reminder) (now : Instant) (x : Shift) : Prop :=
  now + k.earliest ≤ x.startDatetime ∧ x.startDatetime ≤ now + k.latest

instance (k : Reminder) (now : Instant) (x : Shift) : Decidable (InWindow k now x) :=
  inferInstanceAs (Decidable (_ ∧ _))

def IsDue (b : ShiftBooking) : Prop :=
  b.status = .confirmed ∧ (k, b.pk) ∉ r.sent ∧
    ∃ x ∈ s.shifts.get b.shift, InWindow k s.now x ∧ x.isCancelled = false

instance (b : ShiftBooking) : Decidable (r.IsDue s k b) := inferInstanceAs (Decidable (_ ∧ _))

/-- The bookings that a task starts with -/
def due : List ShiftBooking := s.bookings.rows.filter fun b => r.IsDue s k b

/-- The filter of the update that marks a booking -/
def Markable (pk : ℕ) : Prop :=
  (k, pk) ∉ r.sent ∧ ∃ b ∈ s.bookings.get pk, b.status = .confirmed

instance (pk : ℕ) : Decidable (r.Markable s k pk) := inferInstanceAs (Decidable (_ ∧ _))

/-- The booking and its shift when they are read again -/
def refetch (s : Store) (pk : ℕ) : Option (ShiftBooking × Shift) := do
  let b ← s.bookings.get pk
  let x ← s.shifts.get b.shift
  return (b, x)

end Reminders

/-- What a task returns -/
structure ReminderTally where
  sent : ℕ := 0
  skipped : ℕ := 0
  errors : ℕ := 0
deriving DecidableEq, Repr

/-- What sending a mail may come to. A template that cannot be rendered is counted as sent. -/
inductive MailReply where
  | accepted
  | templateError
  | raised
deriving DecidableEq, Repr

/-- A task by what it does next: the query, the update for the next booking, or the mail for a
booking that it has marked. -/
inductive ReminderWorker where
  | task (k : Reminder)
  | sweep (k : Reminder) (bookings : List ShiftBooking) (n : ReminderTally)
  | marked (k : Reminder) (booking : ℕ) (bookings : List ShiftBooking) (n : ReminderTally)
  | finished (k : Reminder) (n : ReminderTally)
deriving DecidableEq

namespace ReminderWorker

def entry : ReminderWorker → Bool
  | task _ => true
  | _ => false

def act (s : Store) (r : Reminders) (w : ReminderWorker) (reply : MailReply) :
    Option (Store × Reminders × ReminderWorker) :=
  match w with
  | task k => some (s, r, sweep k (r.due s k) {})
  | sweep k [] n => some (s, r, finished k n)
  | sweep k (b :: bookings) n =>
    if r.Markable s k b.pk then
      some (s, { r with sent := (k, b.pk) :: r.sent }, marked k b.pk bookings n)
    else some (s, r, sweep k bookings { n with skipped := n.skipped + 1 })
  | marked k pk bookings n =>
    match Reminders.refetch s pk, reply with
    | none, _ | some _, .raised =>
      some (s, r, sweep k bookings { n with errors := n.errors + 1 })
    | some _, .templateError => some (s, r, sweep k bookings { n with sent := n.sent + 1 })
    | some (b, x), .accepted =>
      some (s, { r with mails := r.mails ++ [⟨k, b, x⟩] },
        sweep k bookings { n with sent := n.sent + 1 })
  | finished _ _ => none

/-- The tasks read the store of the service. -/
theorem act_store {s s' : Store} {r r' : Reminders} {w w' : ReminderWorker} {reply : MailReply}
    (h : act s r w reply = some (s', r', w')) : s' = s := by
  unfold act at h
  repeat' split at h
  all_goals cases h
  all_goals rfl

end ReminderWorker

def reminding : Layer shifts Reminders ReminderWorker MailReply where
  Init r := r = {}
  entry := ReminderWorker.entry
  act := ReminderWorker.act
  conforms h := .inl (ReminderWorker.act_store h)

/-- The scheduling service with its reminders -/
def remindedShifts : Program (Store × Reminders) (Worker ⊕ ReminderWorker) (Unit ⊕ MailReply)
    Event :=
  shifts.extend reminding

/-- `send_shift_reminders_24h` -/
def sendShiftReminders24h : ReminderWorker := .task .day

/-- `send_shift_reminders_2h` -/
def sendShiftReminders2h : ReminderWorker := .task .twoHours


/-! ## Cancelled shifts -/

section Cancelled

variable {s t : Store} {c : Call} {b : ShiftBooking}

/-- A shift that has been cancelled has no booking that could be. -/
def Store.Cleared (s : Store) : Prop :=
  ∀ x ∈ s.shifts.rows, x.isCancelled = true →
    ∀ b ∈ s.bookings.rows, b.shift = x.pk → b.status.cancellable = false

theorem Store.Cleared.moved {f : ShiftBooking → BookingState} (h : s.Cleared)
    (hshifts : t.shifts = s.shifts) (hbookings : t.bookings = s.moved b f)
    (hstatus : (f b).status.cancellable = false ∨ ∀ x ∈ s.shifts.rows, x.pk = b.shift →
      x.isCancelled = false) (hb : b ∈ s.bookings.rows) : t.Cleared := by
  intro x hx hcancelled a ha hshift
  rw [hshifts] at hx
  rw [hbookings] at ha
  obtain ⟨a', ha', rfl⟩ := Numbered.mem_rewrite.mp ha
  split at hshift <;> split
  next hpk _ =>
    have hpk : a'.pk = b.pk := by simpa using hpk
    obtain rfl : a' = b := Table.eq_of_pk ha' hb hpk
    rcases hstatus with hstatus | hlive
    · exact hstatus
    · rw [hlive x hx hshift.symm] at hcancelled
      cases hcancelled
  next h₁ h₂ => exact absurd h₁ h₂
  next h₁ h₂ => exact absurd h₂ h₁
  next => exact h x hx hcancelled a' ha' hshift

theorem Change.cleared (hchange : Change c s t) (h : s.Cleared) : t.Cleared := by
  cases hchange with
  | kept same hbookings =>
    intro x hx hcancelled b hb hshift
    exact h x (same.shifts ▸ hx) hcancelled b (hbookings ▸ hb) hshift
  | joined hcall same hx live hshift hpk hrows =>
    intro y hy hcancelled a ha hon
    rw [same.shifts] at hy
    rw [hrows, List.mem_append, List.mem_singleton] at ha
    rcases ha with ha | rfl
    · exact h y hy hcancelled a ha hon
    · obtain rfl := Table.eq_of_pk hy hx (hon.symm.trans hshift)
      rw [live] at hcancelled
      cases hcancelled
  | moved same hb hbookings hmoves =>
    refine h.moved same.shifts hbookings (.inl ?_) hb
    rcases hmoves with ⟨-, his⟩ | ⟨-, his, -⟩ | ⟨-, -, his⟩
    · rw [his]; rfl
    · rw [his]; rfl
    · revert his
      cases (_ : BookingState).status <;> simp [BookingStatus.seated, BookingStatus.cancellable]
  | @promoted x b next f g same hx hshift hb hwas hleft hnext hin hbookings =>
    obtain ⟨hmem, hon, hwaits⟩ := Store.mem_bookingsOf.mp (List.argmin_mem hnext)
    have hfirst : Store.Cleared { s with bookings := s.moved b f } :=
      h.moved rfl rfl (.inl (by rw [hleft]; rfl)) hb
    refine hfirst.moved same.shifts hbookings (.inr fun y hy hpk => ?_) ?_
    · -- The booking that is left has been confirmed on the same shift.
      cases hcancelled : y.isCancelled with
      | false => rfl
      | true =>
        have hcleared := h y hy hcancelled b hb (hon.symm.trans hpk.symm)
        rw [hwas] at hcleared
        cases hcleared
    · rw [show Store.bookings { s with bookings := s.moved b f } = s.moved b f from rfl,
        Store.moved]
      refine Numbered.mem_rewrite.mpr ⟨next, hmem, if_neg ?_⟩
      intro hpk
      have hpk : next.pk = b.pk := by simpa using hpk
      obtain rfl : next = b := Table.eq_of_pk hmem hb hpk
      rw [hwaits] at hwas
      cases hwas
  | @withdrawn x f g hnow hopportunities hx hshifts hstate hbookings =>
    intro y hy hcancelled a ha hon
    rw [hshifts] at hy
    rw [hbookings] at ha
    obtain ⟨y', hy', rfl⟩ := Numbered.mem_rewrite.mp hy
    obtain ⟨a', ha', rfl⟩ := Numbered.mem_rewrite.mp ha
    by_cases hleft : a'.shift = x.pk ∧ a'.status.cancellable = true
    · rw [if_pos (by simpa using hleft)]
      exact congrArg BookingStatus.cancellable (hstate a')
    · rw [if_neg (by simpa using hleft)] at hon ⊢
      by_cases hpk : y'.pk = x.pk
      · rw [if_pos (by simpa using hpk)] at hon
        exact Bool.eq_false_iff.mpr fun hc => hleft ⟨hon.trans hpk, hc⟩
      · rw [if_neg (by simpa using hpk)] at hon hcancelled
        exact h y' hy' hcancelled a' ha' hon

end Cancelled


/-! ## One mail for a booking -/

section Once

variable {s s' t : Store} {r r' : Reminders} {k : Reminder} {w w' : ReminderWorker} {pk : ℕ}
  {reply : MailReply} {b : ShiftBooking} {x : Shift} {e : Reminder × ℕ}
  {u v : Pool.State (Store × Reminders) (Worker ⊕ ReminderWorker)}

/-- The booking is there, and it is not too early for its reminder. -/
def Timely (s : Store) (k : Reminder) (pk : ℕ) : Prop :=
  ∃ b ∈ s.bookings.rows, b.pk = pk ∧ ∃ x ∈ s.shifts.rows, x.pk = b.shift ∧
    x.startDatetime ≤ s.now + k.latest

theorem Timely.mono (h : Timely s k pk) (hpersists : s.Persists t) : Timely t k pk := by
  obtain ⟨b, hb, rfl, x, hx, hon, hstart⟩ := h
  obtain ⟨b', hb', hpk, hshift⟩ := hpersists.bookings b hb
  obtain ⟨x', hx', hxpk, hstart'⟩ := hpersists.shifts x hx
  refine ⟨b', hb', hpk, x', hx', by rw [hxpk, hon, hshift], ?_⟩
  rw [hstart']
  exact hstart.trans (Int.add_le_add_right hpersists.now _)

/-- A mail is for a booking that was marked, and is not sent before its time. -/
structure ReminderMail.Sound (s : Store) (r : Reminders) (m : ReminderMail) : Prop where
  flagged : m.key ∈ r.sent
  known : ∃ b ∈ s.bookings.rows, b.pk = m.booking.pk ∧ b.shift = m.booking.shift
  own : m.shift.pk = m.booking.shift
  timely : m.shift.startDatetime ≤ s.now + m.kind.latest

theorem ReminderMail.Sound.mono {m : ReminderMail} (h : m.Sound s r) (hpersists : s.Persists t)
    (hsent : ∀ e ∈ r.sent, e ∈ r'.sent) : m.Sound t r' := by
  obtain ⟨b, hb, hpk, hshift⟩ := h.known
  obtain ⟨b', hb', hpk', hshift'⟩ := hpersists.bookings b hb
  exact ⟨hsent _ h.flagged, ⟨b', hb', hpk'.trans hpk, hshift'.trans hshift⟩, h.own,
    h.timely.trans (Int.add_le_add_right hpersists.now _)⟩

/-- The bookings that a task has ahead -/
def ReminderWorker.ahead : ReminderWorker → List ShiftBooking
  | sweep _ bookings _ => bookings
  | marked _ _ bookings _ => bookings
  | _ => []

def ReminderWorker.kind : ReminderWorker → Reminder
  | task k => k
  | sweep k _ _ => k
  | marked k _ _ _ => k
  | finished k _ => k

/-- A booking that is marked and still without its mail -/
def ReminderWorker.owes : ReminderWorker → Option (Reminder × ℕ)
  | marked k pk _ _ => some (k, pk)
  | _ => none

/-- What a task knows of its bookings -/
structure ReminderWorker.Knows (s : Store) (r : Reminders) (w : ReminderWorker) : Prop where
  ahead : ∀ b ∈ w.ahead, Timely s w.kind b.pk
  owes : ∀ e ∈ w.owes, e ∈ r.sent ∧ Timely s e.1 e.2

theorem ReminderWorker.Knows.mono (h : w.Knows s r) (hpersists : s.Persists t)
    (hsent : ∀ e ∈ r.sent, e ∈ r'.sent) : w.Knows t r' :=
  ⟨fun b hb => (h.ahead b hb).mono hpersists,
    fun e he => ⟨hsent e (h.owes e he).1, (h.owes e he).2.mono hpersists⟩⟩

theorem timely_of_due (h : b ∈ r.due s k) : Timely s k b.pk := by
  obtain ⟨hb, hdue⟩ := List.mem_filter.mp h
  obtain ⟨-, -, x, hx, ⟨-, hlate⟩, -⟩ := of_decide_eq_true hdue
  obtain ⟨hx, hpk⟩ := Numbered.get_eq_some.mp hx
  exact ⟨b, hb, rfl, x, hx, hpk, hlate⟩

theorem refetch_eq_some (h : Reminders.refetch s pk = some (b, x)) :
    b ∈ s.bookings.rows ∧ b.pk = pk ∧ x ∈ s.shifts.rows ∧ x.pk = b.shift := by
  obtain ⟨b', hb, h₁⟩ := Option.bind_eq_some_iff.mp h
  obtain ⟨x', hx, h₂⟩ := Option.bind_eq_some_iff.mp h₁
  cases h₂
  obtain ⟨hb, hbpk⟩ := Numbered.get_eq_some.mp hb
  obtain ⟨hx, hxpk⟩ := Numbered.get_eq_some.mp hx
  exact ⟨hb, hbpk, hx, hxpk⟩

/-- What the blocks of the tasks do -/
inductive ReminderWorker.Acts (s : Store) (r : Reminders) :
    ReminderWorker → Reminders → ReminderWorker → Prop where
  | queries (k : Reminder) : Acts s r (task k) r (sweep k (r.due s k) {})
  | ends (k : Reminder) (n : ReminderTally) : Acts s r (sweep k [] n) r (finished k n)
  | marks (k : Reminder) (b : ShiftBooking) (bookings : List ShiftBooking) (n : ReminderTally)
      (markable : r.Markable s k b.pk) :
      Acts s r (sweep k (b :: bookings) n) { r with sent := (k, b.pk) :: r.sent }
        (marked k b.pk bookings n)
  | skips (k : Reminder) (b : ShiftBooking) (bookings : List ShiftBooking) (n : ReminderTally) :
      Acts s r (sweep k (b :: bookings) n) r (sweep k bookings { n with skipped := n.skipped + 1 })
  | fails (k : Reminder) (pk : ℕ) (bookings : List ShiftBooking) (n n' : ReminderTally) :
      Acts s r (marked k pk bookings n) r (sweep k bookings n')
  | sends (k : Reminder) (pk : ℕ) (bookings : List ShiftBooking) (n : ReminderTally)
      (b : ShiftBooking) (x : Shift) (fresh : Reminders.refetch s pk = some (b, x)) :
      Acts s r (marked k pk bookings n) { r with mails := r.mails ++ [⟨k, b, x⟩] }
        (sweep k bookings { n with sent := n.sent + 1 })

theorem ReminderWorker.act_acts (h : w.act s r reply = some (s', r', w')) : Acts s r w r' w' := by
  cases w with
  | task k =>
    cases h
    exact .queries k
  | sweep k bookings n =>
    cases bookings with
    | nil =>
      cases h
      exact .ends k n
    | cons b bookings =>
      simp only [act] at h
      split at h
      next hmarkable =>
        cases h
        exact .marks k b bookings n hmarkable
      next =>
        cases h
        exact .skips k b bookings n
  | marked k pk bookings n =>
    simp only [act] at h
    split at h
    next =>
      cases h
      exact .fails k pk bookings n _
    next =>
      cases h
      exact .fails k pk bookings n _
    next =>
      cases h
      exact .fails k pk bookings n _
    next b x fresh =>
      cases h
      exact .sends k pk bookings n b x fresh
  | finished => cases h

theorem ReminderWorker.Acts.sent (h : Acts s r w r' w') : ∀ e ∈ r.sent, e ∈ r'.sent := by
  cases h with
  | marks => exact fun _ he => List.mem_cons_of_mem _ he
  | _ => exact fun _ he => he

theorem ReminderWorker.Acts.knows (h : Acts s r w r' w') (hsound : ∀ m ∈ r.mails, m.Sound s r)
    (hw : w.Knows s r) : (∀ m ∈ r'.mails, m.Sound s r') ∧ w'.Knows s r' := by
  have hold := fun m hm => (hsound m hm).mono (.refl s) h.sent
  cases h with
  | queries k => exact ⟨hold, fun b hb => timely_of_due hb, nofun⟩
  | ends => exact ⟨hold, nofun, nofun⟩
  | marks k b bookings n =>
    refine ⟨hold, fun a ha => hw.ahead a (.tail _ ha), fun e he => ?_⟩
    cases he
    exact ⟨.head _, hw.ahead b (.head _)⟩
  | skips => exact ⟨hold, fun a ha => hw.ahead a (.tail _ ha), nofun⟩
  | fails => exact ⟨hold, hw.ahead, nofun⟩
  | sends k pk bookings n b x fresh =>
    refine ⟨fun m hm => ?_, hw.ahead, nofun⟩
    rcases List.mem_append.mp hm with hm | hm
    · exact hold m hm
    · obtain rfl := List.mem_singleton.mp hm
      obtain ⟨hb, hpk, hx, hon⟩ := refetch_eq_some fresh
      obtain ⟨hflag, b', hb', hpk', x', hx', hon', hstart⟩ := hw.owes _ rfl
      obtain rfl : b' = b := Table.eq_of_pk hb' hb (hpk'.trans hpk.symm)
      obtain rfl : x' = x := Table.eq_of_pk hx' hx (hon'.trans hon.symm)
      exact ⟨by rw [ReminderMail.key, hpk]; exact hflag, ⟨b', hb, rfl, rfl⟩, hon, hstart⟩

theorem shifts_persist {l : Pool.Label Worker Unit Event} {p q : Pool.State Store Worker}
    (h : shifts.machine.step p l = some q) : p.store.Persists q.store := by
  obtain ⟨w, -, -, rfl⟩ | ⟨i, c, w, t, w', -, -, hact, rfl⟩ | ⟨i, -, rfl⟩ |
    ⟨y, t, -, henv, rfl⟩ := Program.step_cases h
  · exact .refl _
  · obtain rfl | ⟨c, -, hchange⟩ := act_cases hact
    · exact .refl _
    · exact hchange.persists
  · exact .refl _
  · cases y with
    | pass time =>
      cases henv
      exact ⟨Int.le_add_of_nonneg_right (Int.natCast_nonneg _), fun b hb => ⟨b, hb, rfl, rfl⟩,
        fun x hx => ⟨x, hx, rfl, rfl⟩⟩
    | approve =>
      cases henv
      exact ⟨le_rfl, fun b hb => ⟨b, hb, rfl, rfl⟩, fun x hx => ⟨x, hx, rfl, rfl⟩⟩

/-- Some call, to stand for workers that are left out -/
def someCall : Worker := .called (.markNoShow 0 { pk := 0 })

theorem knows_of_reachable (h : remindedShifts.machine.Reachable u) :
    (∀ m ∈ u.store.2.mails, m.Sound u.store.1 u.store.2) ∧
      ∀ w, .inr w ∈ u.workers → w.Knows u.store.1 u.store.2 := by
  refine Program.layer_invariant (P := shifts) (E := reminding) (p := someCall)
    (R := Store.Persists) (K := fun s r => ∀ m ∈ r.mails, m.Sound s r)
    (J := fun s r w => w.Knows s r) rfl (fun _ _ _ _ => shifts_persist)
    (fun s r _ hr m hm => ?_) (fun s t r hpersists hsound => ⟨fun m hm =>
      (hsound m hm).mono hpersists fun _ he => he, fun w hw => hw.mono hpersists fun _ he => he⟩)
    (fun s r w _ hw => ?_) (fun p r w reply t r' w' _ hsound hw hact => ?_) h
  · rw [show r = {} from hr] at hm
    cases hm
  · cases w with
    | task => exact ⟨nofun, nofun⟩
    | _ => cases hw
  · obtain rfl := ReminderWorker.act_store hact
    have hacts := ReminderWorker.act_acts hact
    obtain ⟨hsound', hw'⟩ := hacts.knows hsound hw
    exact ⟨hsound', hw', fun q hq => hq.mono (.refl _) hacts.sent⟩

def owed : Worker ⊕ ReminderWorker → Option (Reminder × ℕ) := Sum.elim (fun _ => none) (·.owes)

def granted (e : Reminder × ℕ) (r : Reminders) : ℤ := if e ∈ r.sent then 1 else 0

def mailed (e : Reminder × ℕ) (r : Reminders) : ℤ := (r.mails.map ReminderMail.key).count e

theorem ReminderWorker.Acts.covered (h : Acts s r w r' w') (e : Reminder × ℕ) :
    Program.ticket owed e (.inr w') + mailed e r' + granted e r ≤
      Program.ticket owed e (.inr w) + mailed e r + granted e r' := by
  cases h with
  | queries | ends | skips => exact le_rfl
  | fails k pk bookings n =>
    by_cases he : (k, pk) = e <;> simp [Program.ticket, owed, owes, he]
  | marks k b bookings n markable =>
    by_cases he : (k, b.pk) = e
    · subst he
      simp [Program.ticket, owed, owes, granted, markable.1, mailed, add_comm]
    · simp [Program.ticket, owed, owes, granted, mailed, he, Ne.symm he]
  | sends k pk bookings n b x fresh =>
    obtain ⟨-, hpk, -, -⟩ := refetch_eq_some fresh
    by_cases he : (k, pk) = e <;>
      simp [Program.ticket, owed, owes, mailed, granted, ReminderMail.key, hpk, he, add_comm]

/-- A shift in a day, and a volunteer who may book it -/
def tomorrow : Store where
  shifts := .seed [fun pk =>
    { pk, opportunity := 1, startDatetime := Reminder.timedelta 24
      endDatetime := Reminder.timedelta 26 }]
  profiles := .seed [fun pk => { pk, user := 1 }]
  approved := [(1, 1)]

/-- The volunteer has booked. -/
def bookedTomorrow : Pool.State (Store × Reminders) (Worker ⊕ ReminderWorker) :=
  remindedShifts.machine.final ⟨(tomorrow, {}), []⟩
    [.spawn (.inl (.called (.bookShift 1 1 { pk := 1 }))), .act 0 (.inl ()), .act 0 (.inl ())]

/-- Two deliveries of the task have queried before either of them has marked the booking. -/
def delivered : Pool.State (Store × Reminders) (Worker ⊕ ReminderWorker) :=
  remindedShifts.machine.final bookedTomorrow
    [.spawn (.inr sendShiftReminders24h), .spawn (.inr sendShiftReminders24h),
      .act 1 (.inr .accepted), .act 2 (.inr .accepted), .act 1 (.inr .accepted),
      .act 2 (.inr .accepted), .act 1 (.inr .accepted)]

end Once


/-! ## A task that is left alone -/

section Alone

variable {s : Store} {r : Reminders} {k : Reminder} {i : ℕ} {n : ReminderTally}
  {ws : List (Worker ⊕ ReminderWorker)}

/-- The next block of a task, with a mail that is accepted -/
abbrev goOn (i : ℕ) : Pool.Label (Worker ⊕ ReminderWorker) (Unit ⊕ MailReply) Event :=
  .act i (.inr .accepted)

theorem goOn_step {w w' : ReminderWorker} {r' : Reminders} (hi : ws[i]? = some (.inr w))
    (h : w.act s r .accepted = some (s, r', w')) :
    remindedShifts.machine.step ⟨(s, r), ws⟩ (goOn i) = some ⟨(s, r'), ws.set i (.inr w')⟩ := by
  simp [Program.machine, Program.step, hi, remindedShifts, Program.extend, reminding, h]

/-- A booking as the query finds it -/
structure Found (s : Store) (r : Reminders) (k : Reminder) (b : ShiftBooking) (x : Shift) :
    Prop where
  row : s.bookings.get b.pk = some b
  shift : s.shifts.get b.shift = some x
  confirmed : b.status = .confirmed
  unmarked : (k, b.pk) ∉ r.sent

def mailOf (s : Store) (k : Reminder) (b : ShiftBooking) : Option ReminderMail :=
  (s.shifts.get b.shift).map fun x => ⟨k, b, x⟩

/-- The rest of a task -/
theorem sweep_run {bookings : List ShiftBooking} (hi : ws[i]? = some (.inr (.sweep k bookings n)))
    (hnodup : (bookings.map (·.pk)).Nodup) (hfound : ∀ b ∈ bookings, ∃ x, Found s r k b x) :
    ∃ r' ws', remindedShifts.machine.run ⟨(s, r), ws⟩
        (List.replicate (2 * bookings.length + 1) (goOn i)) = some ⟨(s, r'), ws'⟩ ∧
      ws'[i]? = some (.inr (.finished k { n with sent := n.sent + bookings.length })) ∧
      r'.mails = r.mails ++ bookings.filterMap (mailOf s k) ∧
      ∀ e, e ∈ r'.sent ↔ e ∈ r.sent ∨ e ∈ bookings.map fun b => (k, b.pk) := by
  have hlt : i < ws.length := (List.getElem?_eq_some_iff.mp hi).1
  induction bookings generalizing r ws n with
  | nil =>
    refine ⟨r, ws.set i (.inr (.finished k n)), ?_, by simp [hlt], by simp, by simp⟩
    exact Option.bind_eq_some_iff.mpr ⟨_, goOn_step hi rfl, rfl⟩
  | cons b bookings ih =>
    obtain ⟨x, hx⟩ := hfound b (.head _)
    rw [List.map_cons, List.nodup_cons] at hnodup
    have hmarkable : r.Markable s k b.pk := ⟨hx.unmarked, b, hx.row, hx.confirmed⟩
    have hmark : remindedShifts.machine.step ⟨(s, r), ws⟩ (goOn i) =
        some ⟨(s, { r with sent := (k, b.pk) :: r.sent }),
          ws.set i (.inr (.marked k b.pk bookings n))⟩ := goOn_step hi (if_pos hmarkable)
    have hrefetch : Reminders.refetch s b.pk = some (b, x) := by
      simp [Reminders.refetch, hx.row, hx.shift]
    have hsend : remindedShifts.machine.step
        ⟨(s, { r with sent := (k, b.pk) :: r.sent }),
          ws.set i (.inr (.marked k b.pk bookings n))⟩ (goOn i) =
        some ⟨(s, { sent := (k, b.pk) :: r.sent, mails := r.mails ++ [⟨k, b, x⟩] }),
          (ws.set i (.inr (.marked k b.pk bookings n))).set i
            (.inr (.sweep k bookings { n with sent := n.sent + 1 }))⟩ :=
      goOn_step (w := .marked k b.pk bookings n) (by simp [hlt])
        (by simp [ReminderWorker.act, hrefetch])
    have hrest : ∀ a ∈ bookings, ∃ y, Found s
        { sent := (k, b.pk) :: r.sent, mails := r.mails ++ [⟨k, b, x⟩] } k a y := by
      intro a ha
      obtain ⟨y, hy⟩ := hfound a (.tail _ ha)
      refine ⟨y, hy.row, hy.shift, hy.confirmed, fun hsent => ?_⟩
      rcases List.mem_cons.mp hsent with heq | hsent
      · exact hnodup.1 (List.mem_map.mpr ⟨a, ha, (Prod.mk.inj heq).2⟩)
      · exact hy.unmarked hsent
    have hnext : ((ws.set i (.inr (.marked k b.pk bookings n))).set i
        (.inr (.sweep k bookings { n with sent := n.sent + 1 })))[i]? =
          some (.inr (.sweep k bookings { n with sent := n.sent + 1 })) := by simp [hlt]
    obtain ⟨r', ws', hrun, hlast, hmails, hsent⟩ := ih hnext hnodup.2 hrest (by simp [hlt])
    refine ⟨r', ws', ?_, ?_, ?_, fun e => ?_⟩
    · rw [show 2 * (b :: bookings).length + 1 = 2 * bookings.length + 1 + 1 + 1 by simp; omega,
        List.replicate_succ, List.replicate_succ, Machine.run_cons, hmark]
      simp only [Option.bind_some, Machine.run_cons, hsend, hrun]
    · simpa [Nat.add_comm, Nat.add_left_comm] using hlast
    · simp [hmails, mailOf, hx.shift]
    · simp only [hsent, List.mem_cons, List.map_cons]
      tauto

theorem found_of_due {b : ShiftBooking} (h : b ∈ r.due s k) : ∃ x, Found s r k b x := by
  obtain ⟨hb, hdue⟩ := List.mem_filter.mp h
  obtain ⟨hconfirmed, hunmarked, x, hx, -⟩ := of_decide_eq_true hdue
  exact ⟨x, Numbered.get_eq_some.mpr ⟨hb, rfl⟩, hx, hconfirmed, hunmarked⟩

theorem keys_mailOf {bookings : List ShiftBooking}
    (h : ∀ b ∈ bookings, ∃ x, Found s r k b x) :
    (bookings.filterMap (mailOf s k)).map ReminderMail.key = bookings.map fun b => (k, b.pk) := by
  induction bookings with
  | nil => rfl
  | cons b bookings ih =>
    obtain ⟨x, hx⟩ := h b (.head _)
    simp [mailOf, hx.shift, ReminderMail.key] at ih ⊢
    exact ih fun a ha => h a (.tail _ ha)

/-- The windows of queries that are at most two hours apart leave no gap. -/
theorem exists_inWindow {times : ℕ → Instant} {x : Shift}
    (hstep : ∀ m, times (m + 1) ≤ times m + Reminder.timedelta 2)
    (hfirst : times 0 + k.earliest ≤ x.startDatetime)
    (hlast : ∃ m, x.startDatetime < times m + k.earliest) :
    ∃ m, Reminders.InWindow k (times m) x := by
  have hwidth : k.latest = k.earliest + Reminder.timedelta 2 := by cases k <;> rfl
  obtain ⟨n, hn⟩ := hlast
  induction n with
  | zero => exact absurd hfirst (not_le.mpr hn)
  | succ n ih =>
    by_cases hbefore : x.startDatetime < times n + k.earliest
    · exact ih hbefore
    · refine ⟨n, not_lt.mp hbefore, hn.le.trans ?_⟩
      rw [hwidth, ← add_assoc, add_right_comm]
      exact Int.add_le_add_right (hstep n) _

/-- A task that nobody interrupts marks and mails each booking that it finds, once and in order, and
leaves nothing to find for another one; and when the queries are at most two hours apart, as those
of an hourly schedule, the window of one of them has the start of each shift that lies ahead. -/
theorem reminder_sweep (hi : ws[i]? = some (.inr (.task k))) :
    (∃ r' ws', remindedShifts.machine.run ⟨(s, r), ws⟩
        (List.replicate (2 * (r.due s k).length + 2) (goOn i)) = some ⟨(s, r'), ws'⟩ ∧
      ws'[i]? = some (.inr (.finished k ⟨(r.due s k).length, 0, 0⟩)) ∧
      r'.mails = r.mails ++ (r.due s k).filterMap (mailOf s k) ∧
      (r'.mails.map ReminderMail.key) =
        r.mails.map ReminderMail.key ++ (r.due s k).map (fun b => (k, b.pk)) ∧
      r'.due s k = []) ∧
    ∀ (times : ℕ → Instant) (x : Shift),
      (∀ m, times (m + 1) ≤ times m + Reminder.timedelta 2) →
      times 0 + k.earliest ≤ x.startDatetime →
      (∃ m, x.startDatetime < times m + k.earliest) →
      ∃ m, Reminders.InWindow k (times m) x := by
  refine ⟨?_, fun times x => exists_inWindow⟩
  have hlt : i < ws.length := (List.getElem?_eq_some_iff.mp hi).1
  have hquery : remindedShifts.machine.step ⟨(s, r), ws⟩ (goOn i) =
      some ⟨(s, r), ws.set i (.inr (.sweep k (r.due s k) {}))⟩ := goOn_step hi rfl
  have hnodup : ((r.due s k).map (·.pk)).Nodup :=
    (s.bookings.table.nodup_pk).sublist (List.filter_sublist.map _)
  have hsweep : (ws.set i (.inr (.sweep k (r.due s k) {})))[i]? =
      some (.inr (.sweep k (r.due s k) {})) := by simp [hlt]
  obtain ⟨r', ws', hrun, hlast, hmails, hsent⟩ :=
    sweep_run hsweep hnodup fun b hb => found_of_due hb
  refine ⟨r', ws', ?_, by simpa using hlast, hmails, ?_, ?_⟩
  · rw [List.replicate_succ, Machine.run_cons, hquery]
    exact hrun
  · rw [hmails, List.map_append, keys_mailOf fun b hb => found_of_due hb]
  · refine List.filter_eq_nil_iff.mpr fun b hb hdue => ?_
    obtain ⟨hconfirmed, hunmarked, hwindow⟩ := of_decide_eq_true hdue
    refine hunmarked ((hsent _).mpr ?_)
    by_cases hmarked : (k, b.pk) ∈ r.sent
    · exact .inl hmarked
    · exact .inr (List.mem_map.mpr ⟨b, List.mem_filter.mpr ⟨hb, decide_eq_true
        ⟨hconfirmed, hmarked, hwindow⟩⟩, rfl⟩)

theorem reminder_sweep_booked : ∃ r' ws',
    remindedShifts.machine.run ⟨bookedTomorrow.store, [.inr sendShiftReminders24h]⟩
      (List.replicate (2 * (bookedTomorrow.store.2.due bookedTomorrow.store.1 .day).length + 2)
        (goOn 0)) = some ⟨(bookedTomorrow.store.1, r'), ws'⟩ ∧
      r'.mails.map ReminderMail.key = [(.day, 1)] := by
  obtain ⟨⟨r', ws', hrun, -, -, hkeys, -⟩, -⟩ := reminder_sweep (i := 0)
    (s := bookedTomorrow.store.1) (r := bookedTomorrow.store.2) (k := .day)
    (show [.inr sendShiftReminders24h][0]? = _ from rfl)
  have hdue : bookedTomorrow.store.2.mails.map ReminderMail.key ++
      (bookedTomorrow.store.2.due bookedTomorrow.store.1 .day).map (fun b => (.day, b.pk)) =
        [(.day, 1)] := by decide +kernel
  exact ⟨r', ws', hrun, hkeys.trans hdue⟩

end Alone

end Civicos.Volunteers
