import Civicos.Library.Machine
import Civicos.Volunteers.HonorariumRecord

/-!
# The thresholds of the revenue agency

Calls for one volunteer wait for the lock of the profile, and rows are edited one at a time. The
total of a year stays below the hard block; the rows without a flag stay below the threshold of the
slip, so that a total above it has a row with a flag.
-/
namespace Civicos.Volunteers.Honoraria

open Library Library.Transaction

/-! ## Edits of existing rows -/

inductive Column where
  | paymentType
  | amount
  | paymentDate
  | description
  | t4aRequired
deriving DecidableEq, Repr

/-- What an edit changes; it saves all columns, or the changed ones with the `others`. -/
structure Edit where
  paymentType : Option PaymentType := none
  amount : Option ℤ := none
  paymentDate : Option ℕ := none
  targeted : Bool := false
  others : List Column := []
deriving DecidableEq, Repr

namespace Edit

/-- The instance in memory -/
def apply (e : Edit) (x : HonorariumState) : HonorariumState :=
  { x with
    paymentType := e.paymentType.getD x.paymentType
    amount := e.amount.getD x.amount
    paymentDate := e.paymentDate.getD x.paymentDate }

def updateFields (e : Edit) : Option (List Column) :=
  if e.targeted then
    some ((e.paymentType.toList.map fun _ => .paymentType) ++
      (e.amount.toList.map fun _ => .amount) ++
      (e.paymentDate.toList.map fun _ => .paymentDate) ++ e.others)
  else none

end Edit

namespace HonorariumState

/-- The columns that an `UPDATE` sets -/
def written (fields : Option (List Column)) (x old : HonorariumState) : HonorariumState :=
  match fields with
  | none => x
  | some fields => {
      paymentType := if .paymentType ∈ fields then x.paymentType else old.paymentType
      amount := if .amount ∈ fields then x.amount else old.amount
      description := if .description ∈ fields then x.description else old.description
      paymentDate := if .paymentDate ∈ fields then x.paymentDate else old.paymentDate
      t4aRequired := if .t4aRequired ∈ fields then x.t4aRequired else old.t4aRequired
      payment := old.payment }

end HonorariumState

/-- `Honorarium.save` of a loaded instance, which adds the flag to the fields that are written -/
def saveHonorarium (h : Honorarium) (x : HonorariumState) (updateFields : Option (List Column))
    (skipClean : Bool) : Transaction HonorariumError Store Unit := do
  if skipClean then
    updateRow Store.honorariumTable .ofViolation h.pk fun old =>
      old.withState (x.written updateFields old.toHonorariumState)
  else
    let s ← get
    let x ← liftM (x.fullClean s (some h.pk) h.volunteer)
    let fields := updateFields.map fun fields =>
      if .t4aRequired ∈ fields then fields else fields ++ [.t4aRequired]
    updateRow Store.honorariumTable .ofViolation h.pk fun old =>
      old.withState (x.written fields old.toHonorariumState)

def editHonorarium (honorarium : ℕ) (e : Edit) : Transaction HonorariumError Store Unit := do
  let h ← fetch Store.honorariumTable (.doesNotExist "Honorarium") honorarium
  saveHonorarium h (e.apply h.toHonorariumState) e.updateFields false

/-! ## Any number of calls -/

/-- A call inside of its transaction -/
inductive Progress where
  | locked (c : HonorariumCall) (type : PaymentType) (user : ℕ)
  | validated (c : HonorariumCall) (x : HonorariumState) (user : ℕ)
deriving DecidableEq, Repr

/-- `holder` is the call that has locked a profile. -/
structure Desk where
  store : Store := {}
  holder : ℕ → Option Progress := fun _ => none

namespace Desk

def hold (d : Desk) (volunteer : ℕ) (p : Option Progress) : Desk :=
  { d with holder := Function.update d.holder volunteer p }

/-- A call waits here while another one has the profile. -/
def lock (d : Desk) (c : HonorariumCall) : Option Desk :=
  match c.checks, (c.lock ⟨d.store, false⟩).1, d.holder c.volunteerProfile with
  | .ok type, .ok v, none => some (d.hold c.volunteerProfile (some (.locked c type v.user)))
  | _, _, _ => none

def validate (d : Desk) (volunteer : ℕ) : Option Desk :=
  match d.holder volunteer with
  | some (.locked c type user) =>
    match (c.validate type ⟨d.store, false⟩).1 with
    | .ok x => some (d.hold volunteer (some (.validated c x user)))
    | .error _ => some (d.hold volunteer none)
  | _ => none

def save (d : Desk) (volunteer : ℕ) (faults : Faults) : Option Desk :=
  match d.holder volunteer with
  | some (.validated c x user) =>
    some { d.hold volunteer none with store := ((c.save x user faults).atomic d.store).2 }
  | _ => none

/-- Edits do not lock the profile; they come one after the other and while no call has it. -/
def edit (d : Desk) (honorarium : ℕ) (e : Edit) : Option Desk :=
  match d.store.honoraria.get honorarium with
  | none => some d
  | some h =>
    match d.holder h.volunteer with
    | some _ => none
    | none => some { d with store := (commit (editHonorarium honorarium e) d.store).2 }

end Desk

inductive Step where
  | lock (c : HonorariumCall)
  | validate (volunteer : ℕ)
  | save (volunteer : ℕ) (faults : Faults)
  | abandon (volunteer : ℕ)
  | edit (honorarium : ℕ) (e : Edit)

def Step.run (d : Desk) : Step → Option Desk
  | lock c => d.lock c
  | validate volunteer => d.validate volunteer
  | save volunteer faults => d.save volunteer faults
  | abandon volunteer => some (d.hold volunteer none)
  | edit honorarium e => d.edit honorarium e

/-- Nothing has been paid yet. -/
def desk : Machine Desk Step where
  Init d := d.store.honoraria = .empty ∧ d.holder = fun _ => none
  step := Step.run

variable {s t : Store} {d d' : Desk} {h h' : Honorarium} {c : HonorariumCall} {e : Edit}
  {x y : HonorariumState} {type : PaymentType} {user volunteer year : ℕ} {faults : Faults}
  {p : Honorarium → Bool}

/-! ## The invariant -/

/-- The rows of a year without a flag -/
def Honorarium.unflagged (volunteer year : ℕ) (h : Honorarium) : Bool :=
  h.counts volunteer year && !h.t4aRequired

structure Sound (s : Store) : Prop where
  below : ∀ volunteer year, s.cumulativeYtd volunteer year < hardBlock
  flagged : ∀ volunteer year, s.sumOf (Honorarium.unflagged volunteer year) < t4aThreshold

/-- What validation has established for a row that is in the store -/
def Passes (s : Store) (h : Honorarium) : Prop :=
  h.paymentType = .honorarium → s.cumulativeYtd h.volunteer (yearOf h.paymentDate) < hardBlock ∧
    (h.t4aRequired = false → s.cumulativeYtd h.volunteer (yearOf h.paymentDate) < t4aThreshold)

theorem counts_iff : h.counts volunteer year = true ↔
    h.volunteer = volunteer ∧ yearOf h.paymentDate = year ∧ h.paymentType = .honorarium := by
  simp [Honorarium.counts]

/-- One row has been saved. -/
theorem Sound.saved (hs : Sound s) (hsum : ∀ p, t.sumOf p ≤ s.sumOf p + weigh p h)
    (hpasses : Passes t h) : Sound t := by
  constructor
  · intro volunteer year
    by_cases hcounts : h.counts volunteer year = true
    · obtain ⟨rfl, rfl, htype⟩ := counts_iff.mp hcounts
      exact (hpasses htype).1
    · have hle := hsum (Honorarium.counts volunteer year)
      have hold := hs.below volunteer year
      rw [weigh, if_neg hcounts] at hle
      change t.sumOf _ < _
      change s.sumOf _ < _ at hold
      omega
  · intro volunteer year
    by_cases hcounts : h.unflagged volunteer year = true
    · -- the total of the year is an upper bound
      obtain ⟨hall, hflag⟩ := Bool.and_eq_true_iff.mp hcounts
      obtain ⟨rfl, rfl, htype⟩ := counts_iff.mp hall
      refine lt_of_le_of_lt (sumOf_mono fun a ha => ?_) ((hpasses htype).2 (by simpa using hflag))
      exact (Bool.and_eq_true_iff.mp ha).1
    · have hle := hsum (Honorarium.unflagged volunteer year)
      have hold := hs.flagged volunteer year
      rw [weigh, if_neg hcounts] at hle
      omega

theorem Sound.congr (hs : Sound s) (hrows : t.honoraria = s.honoraria) : Sound t := by
  obtain ⟨hbelow, hflagged⟩ := hs
  constructor
  · intro volunteer year
    unfold Store.cumulativeYtd
    rw [hrows]
    exact hbelow volunteer year
  · intro volunteer year
    unfold Store.sumOf
    rw [hrows]
    exact hflagged volunteer year

/-- What a call has established when it has validated its row: the total with the row -/
def Cleared (s : Store) (c : HonorariumCall) (x : HonorariumState) : Prop :=
  x.paymentType = .honorarium →
    s.cumulativeYtd c.volunteerProfile x.year + x.amount < hardBlock ∧
      (x.t4aRequired = false →
        s.cumulativeYtd c.volunteerProfile x.year + x.amount < t4aThreshold)

theorem Cleared.mono (hc : Cleared s c x)
    (hle : ∀ year, t.cumulativeYtd c.volunteerProfile year ≤
      s.cumulativeYtd c.volunteerProfile year) : Cleared t c x := by
  intro htype
  obtain ⟨hblock, hflag⟩ := hc htype
  have hyear := hle x.year
  exact ⟨by omega, fun hnot => by have := hflag hnot; omega⟩

/-! ## Validation -/

theorem validated (hclean : x.fullClean s none c.volunteerProfile = .ok y) : Cleared s c y := by
  obtain ⟨hfields, hclean⟩ := HonorariumState.fullClean_ok.mp hclean
  obtain ⟨hy, -, hthresholds⟩ := HonorariumState.clean_ok hclean
    (HonorariumState.amount_of_cleanFields hfields)
  intro htype
  rw [hy] at htype ⊢
  obtain ⟨hblock, hflag⟩ := hthresholds htype
  rw [HonorariumState.projected, existingTotal_none] at hblock hflag
  exact ⟨hblock, hflag⟩

/-- What is stored after the block of a validated call -/
theorem save_rows (s : Store) (c : HonorariumCall) (x : HonorariumState) (user : ℕ)
    (faults : Faults) : ((c.save x user faults).atomic s).2.honoraria = s.honoraria ∨
    ∃ h, ((c.save x user faults).atomic s).2.honoraria.rows = s.honoraria.rows ++ [h] ∧
      h.volunteer = c.volunteerProfile ∧
      ∃ payment, h.toHonorariumState = { x with payment } := by
  cases hT : s.honoraria.insert (c.row x) with
  | error v =>
    have hinsert : Block.statement HonorariumError.transactionManagementError
        (append Store.honorariumTable HonorariumError.ofViolation (c.row x)) ⟨s, false⟩ =
          (.error (.ofViolation v), ⟨s, true⟩) :=
      Block.statement_of_error (append_error.mpr ⟨v, hT, rfl⟩)
    have hrun : (c.save x user faults).atomic s = (.error _, s) :=
      Block.atomic_of_error (Block.bind_of_error hinsert)
    rw [hrun]
    exact .inl rfl
  | ok T =>
    have hsaved : Saved s c x
        (breaks faults (refuses s (c.row x s.honoraria.next) user) wiringSteps)
        ((c.save x user faults).atomic s) := save_saved hT
    generalize breaks _ _ _ = b at hsaved
    generalize (c.save x user faults).atomic s = r at hsaved
    cases hsaved with
    | lost => exact .inl rfl
    | @kept h t _ hvolunteer hstate hrows => exact .inr ⟨h, hrows, hvolunteer, _, hstate⟩

/-! ## Edits -/

/-- `save` with the flag among the fields -/
theorem written_of_mem {fields : List Column} (hdescription : y.description = x.description)
    (hpayment : y.payment = x.payment)
    (htype : .paymentType ∉ fields → y.paymentType = x.paymentType)
    (hamount : .amount ∉ fields → y.amount = x.amount)
    (hdate : .paymentDate ∉ fields → y.paymentDate = x.paymentDate)
    (hflag : .t4aRequired ∈ fields) : y.written (some fields) x = y := by
  have hwrites {α : Type} {col : Column} {a b : α} (hab : col ∉ fields → a = b) :
      (if col ∈ fields then a else b) = a := by
    split
    next => rfl
    next hnot => exact (hab hnot).symm
  unfold HonorariumState.written
  dsimp only
  rw [hwrites htype, hwrites hamount, hwrites hdate, hwrites fun _ => hdescription, if_pos hflag,
    ← hpayment]

/-- An edit writes what has been validated. -/
theorem written_updateFields (hy : y = { e.apply x with t4aRequired := y.t4aRequired }) :
    y.written (e.updateFields.map fun fields =>
      if .t4aRequired ∈ fields then fields else fields ++ [.t4aRequired]) x = y := by
  unfold Edit.updateFields
  by_cases htargeted : e.targeted = true
  · rw [if_pos htargeted, Option.map_some]
    refine written_of_mem ?_ ?_ ?_ ?_ ?_ ?_
    · rw [hy]
      rfl
    · rw [hy]
      rfl
    · rw [hy]
      cases htype : e.paymentType <;> simp [Edit.apply, htype]
      split <;> simp
    · rw [hy]
      cases hamount : e.amount <;> simp [Edit.apply, hamount]
      split <;> simp
    · rw [hy]
      cases hdate : e.paymentDate <;> simp [Edit.apply, hdate]
      split <;> simp
    · split
      next hin => exact hin
      next => exact List.mem_append_right _ (List.mem_singleton_self _)
  · rw [if_neg htargeted]
    rfl

theorem editHonorarium_ok {u : Unit} {honorarium : ℕ}
    (hrun : editHonorarium honorarium e s = .ok (u, t)) :
    ∃ h ∈ s.honoraria.rows, h.pk = honorarium ∧ ∃ y,
      (e.apply h.toHonorariumState).fullClean s (some h.pk) h.volunteer = .ok y ∧
      t.honoraria.rows =
        s.honoraria.rows.map fun a => if a.pk = h.pk then h.withState y else a := by
  obtain ⟨h, hget, hrun⟩ := fetch_bind.mp hrun
  obtain ⟨hh, hpk⟩ := Numbered.get_eq_some.mp hget
  obtain ⟨_, _, ⟨⟩, hrun⟩ := bind_ok.mp hrun
  obtain ⟨y, hclean, hrun⟩ := lift_bind.mp hrun
  obtain ⟨T, hT, rfl⟩ := updateRow_ok.mp hrun
  refine ⟨h, hh, hpk, y, hclean, ?_⟩
  obtain ⟨hfields, hflags⟩ := HonorariumState.fullClean_ok.mp hclean
  obtain ⟨hy, -⟩ := HonorariumState.clean_ok hflags (HonorariumState.amount_of_cleanFields hfields)
  have hget : s.honoraria.get h.pk = some h := Numbered.get_eq_some.mpr ⟨hh, rfl⟩
  have hrows := (Numbered.update_ok hT hget rfl).1
  rw [written_updateFields hy] at hrows
  exact hrows

/-! ## Every run -/

/-- Each profile is locked by a call for its volunteer, and what that call has validated holds. -/
def Held (d : Desk) : Prop :=
  ∀ volunteer p, d.holder volunteer = some p →
    match p with
    | .locked c _ _ => c.volunteerProfile = volunteer
    | .validated c x _ => c.volunteerProfile = volunteer ∧ Cleared d.store c x

theorem Held.hold {p : Option Progress} (hd : Held d)
    (hp : ∀ q, p = some q →
      match q with
      | .locked c _ _ => c.volunteerProfile = volunteer
      | .validated c x _ => c.volunteerProfile = volunteer ∧ Cleared d.store c x) :
    Held (d.hold volunteer p) := by
  intro v q hq
  by_cases hv : v = volunteer
  · subst hv
    exact hp q (by simpa [Desk.hold] using hq)
  · exact hd v q (by simpa [Desk.hold, hv] using hq)

/-- Rows of one volunteer do not matter for the calls of the others. -/
theorem Held.of_store (hd : Held d) (hfree : d.holder volunteer = none)
    (hle : ∀ v year, v ≠ volunteer → t.cumulativeYtd v year ≤ d.store.cumulativeYtd v year) :
    Held { d with store := t } := by
  intro v p hp
  have hold := hd v p hp
  have hne : v ≠ volunteer := by
    rintro rfl
    cases hp.symm.trans hfree
  cases p with
  | locked c type user => exact hold
  | validated c x user =>
    obtain ⟨rfl, hcleared⟩ := hold
    exact ⟨rfl, hcleared.mono fun year => hle _ year hne⟩

theorem weigh_other (hne : volunteer ≠ h.volunteer) :
    weigh (Honorarium.counts volunteer year) h = 0 := by
  refine if_neg fun hcounts => hne ?_
  exact (counts_iff.mp hcounts).1.symm

theorem lock_sound (hd : Held d) (hstep : d.lock c = some d') :
    d'.store = d.store ∧ Held d' := by
  unfold Desk.lock at hstep
  split at hstep
  next =>
    cases hstep
    refine ⟨rfl, hd.hold ?_⟩
    rintro q ⟨⟩
    rfl
  next => cases hstep

theorem validate_sound (hd : Held d) (hstep : d.validate volunteer = some d') :
    d'.store = d.store ∧ Held d' := by
  unfold Desk.validate at hstep
  split at hstep
  next c type user hlocked =>
    split at hstep
    next x hclean =>
      cases hstep
      refine ⟨rfl, hd.hold ?_⟩
      rintro q ⟨⟩
      exact ⟨hd _ _ hlocked, validated hclean⟩
    next =>
      cases hstep
      exact ⟨rfl, hd.hold nofun⟩
  next => cases hstep

theorem save_sound (hs : Sound d.store) (hd : Held d)
    (hstep : d.save volunteer faults = some d') : Sound d'.store ∧ Held d' := by
  unfold Desk.save at hstep
  split at hstep
  next c x user hvalidated =>
    cases hstep
    obtain ⟨rfl, hcleared⟩ := hd _ _ hvalidated
    have hreleased : Held (d.hold c.volunteerProfile none) := hd.hold nofun
    have hfree : (d.hold c.volunteerProfile none).holder c.volunteerProfile = none := by
      simp [Desk.hold]
    rcases save_rows d.store c x user faults with hsame | ⟨h, hrows, hvolunteer, payment, hstate⟩
    · refine ⟨hs.congr hsame, hreleased.of_store hfree fun v year _ => ?_⟩
      unfold Store.cumulativeYtd
      rw [hsame]
      exact le_refl _
    · refine ⟨hs.saved (h := h) (fun p => (sumOf_insert hrows).le) ?_,
        hreleased.of_store hfree fun v year hne => ?_⟩
      · -- the total was computed without the row
        have hx : x.paymentType = h.paymentType ∧ x.amount = h.amount ∧
            x.paymentDate = h.paymentDate ∧ x.t4aRequired = h.t4aRequired := by
          simp [hstate]
        obtain ⟨htype, hamount, hdate, hflag⟩ := hx
        intro hhonorarium
        obtain ⟨hblock, hslip⟩ := hcleared (htype.trans hhonorarium)
        rw [cumulativeYtd_insert hrows hhonorarium, hvolunteer, ← hamount, ← hdate, ← hflag]
        exact ⟨hblock, hslip⟩
      · have hsum := sumOf_insert (p := Honorarium.counts v year) hrows
        rw [weigh_other (hvolunteer ▸ hne)] at hsum
        exact (hsum.trans (Int.add_zero _)).le
  next => cases hstep

/-- The row `h` has got the columns `y`. -/
def Edited (s t : Store) (h : Honorarium) (y : HonorariumState) : Prop :=
  t.honoraria.rows = s.honoraria.rows.map fun a => if a.pk = h.pk then h.withState y else a

theorem sumOf_edited (hh : h ∈ s.honoraria.rows) (hrows : Edited s t h y) (p : Honorarium → Bool) :
    t.sumOf p ≤ s.sumOf p + weigh p (h.withState y) := by
  have hsum := sumOf_replace (p := p) hh hrows
  have hnonneg := weigh_nonneg (p := p) (amount_pos hh)
  omega

theorem edited_passes (hh : h ∈ s.honoraria.rows) (hrows : Edited s t h y)
    (hclean : (e.apply h.toHonorariumState).fullClean s (some h.pk) h.volunteer = .ok y) :
    Passes t (h.withState y) := by
  obtain ⟨hfields, hflags⟩ := HonorariumState.fullClean_ok.mp hclean
  obtain ⟨hy, -, hthresholds⟩ := HonorariumState.clean_ok hflags
    (HonorariumState.amount_of_cleanFields hfields)
  intro htype
  change y.paymentType = .honorarium at htype
  rw [hy] at htype
  obtain ⟨hblock, hslip⟩ := hthresholds htype
  rw [HonorariumState.projected, existingTotal_eq hh] at hblock hslip
  -- the sum without the row, and the row as it is now
  have hsum := sumOf_replace (p := Honorarium.counts h.volunteer y.year) hh hrows
  have hcounts : (h.withState y).counts h.volunteer y.year = true := by
    rw [counts_iff, hy]
    exact ⟨rfl, rfl, htype⟩
  have hyear : y.year = (e.apply h.toHonorariumState).year := by rw [hy]; rfl
  have hamount : y.amount = (e.apply h.toHonorariumState).amount := by rw [hy]
  rw [weigh, weigh, if_pos hcounts] at hsum
  change t.cumulativeYtd h.volunteer y.year =
    s.cumulativeYtd h.volunteer y.year - _ + y.amount at hsum
  change t.cumulativeYtd h.volunteer y.year < hardBlock ∧
    (y.t4aRequired = false → t.cumulativeYtd h.volunteer y.year < t4aThreshold)
  rw [hsum, hamount, hyear]
  exact ⟨hblock, hslip⟩

theorem edit_sound {honorarium : ℕ} (hs : Sound d.store) (hd : Held d)
    (hstep : d.edit honorarium e = some d') : Sound d'.store ∧ Held d' := by
  unfold Desk.edit at hstep
  split at hstep
  next =>
    cases hstep
    exact ⟨hs, hd⟩
  next a hget =>
    obtain ⟨ha, hapk⟩ := Numbered.get_eq_some.mp hget
    split at hstep
    next => cases hstep
    next hfree =>
      cases hstep
      cases hrun : editHonorarium honorarium e d.store with
      | error err =>
        rw [commit_of_error hrun]
        exact ⟨hs, hd⟩
      | ok r =>
        rw [commit_of_ok (a := r.1) (t := r.2) hrun]
        obtain ⟨h, hh, hpk, y, hclean, hrows⟩ := editHonorarium_ok (u := r.1) (t := r.2) hrun
        obtain rfl : h = a := Table.eq_of_pk hh ha (hpk.trans hapk.symm)
        refine ⟨hs.saved (sumOf_edited hh hrows) (edited_passes hh hrows hclean), ?_⟩
        refine hd.of_store hfree fun v year hne => ?_
        have hle := sumOf_edited hh hrows (Honorarium.counts v year)
        rw [weigh_other (h := h.withState y) hne] at hle
        exact hle.trans (Int.add_zero _).le

theorem step_sound {l : Step} (hs : Sound d.store) (hd : Held d) (hstep : desk.step d l = some d') :
    Sound d'.store ∧ Held d' := by
  cases l with
  | lock c =>
    obtain ⟨hstore, hheld⟩ := lock_sound hd hstep
    exact ⟨hstore ▸ hs, hheld⟩
  | validate volunteer =>
    obtain ⟨hstore, hheld⟩ := validate_sound hd hstep
    exact ⟨hstore ▸ hs, hheld⟩
  | save volunteer faults => exact save_sound hs hd hstep
  | abandon volunteer =>
    cases hstep
    exact ⟨hs, hd.hold nofun⟩
  | edit honorarium e => exact edit_sound hs hd hstep

theorem Sound.of_empty (hempty : s.honoraria = .empty) : Sound s := by
  constructor
  · intro volunteer year
    unfold Store.cumulativeYtd
    rw [hempty]
    exact (by decide : (0 : ℤ) < hardBlock)
  · intro volunteer year
    unfold Store.sumOf
    rw [hempty]
    exact (by decide : (0 : ℤ) < t4aThreshold)

theorem sound_of_reachable (hd : desk.Reachable d) : Sound d.store :=
  (hd.invariant (I := fun d => Sound d.store ∧ Held d)
    (fun _ ⟨hempty, hfree⟩ => ⟨.of_empty hempty, fun v p hp => by simp [hfree] at hp⟩)
    fun _ _ _ _ ⟨hs, hheld⟩ hstep => step_sound hs hheld hstep).1

/-- A total above the threshold has a row with a flag. -/
theorem Sound.exists_flagged (hs : Sound s)
    (hslip : t4aThreshold ≤ s.cumulativeYtd volunteer year) :
    ∃ h ∈ s.honoraria.rows, h.counts volunteer year = true ∧ h.t4aRequired = true := by
  by_contra hnone
  have hsame : s.cumulativeYtd volunteer year =
      s.sumOf (Honorarium.unflagged volunteer year) := by
    unfold Store.cumulativeYtd Store.sumOf
    congr 2
    refine List.filter_congr fun h hh => ?_
    cases hcounts : h.counts volunteer year with
    | false => simp [Honorarium.unflagged, hcounts]
    | true =>
      have hflag : h.t4aRequired = false := by
        by_contra hflag
        exact hnone ⟨h, hh, hcounts, by simpa using hflag⟩
      simp [Honorarium.unflagged, hcounts, hflag]
  have hlow := hs.flagged volunteer year
  omega

/-! ## Expenses -/

def Honorarium.isHonorarium (h : Honorarium) : Bool := h.paymentType = .honorarium

/-- Only rows of the type count. -/
theorem sumOf_congr (hsame : t.honoraria.rows.filter (·.isHonorarium) =
    s.honoraria.rows.filter (·.isHonorarium)) (hp : ∀ h, p h = true → h.isHonorarium = true) :
    t.sumOf p = s.sumOf p := by
  have hsplit (rows : List Honorarium) :
      rows.filter p = (rows.filter (·.isHonorarium)).filter p := by
    rw [List.filter_filter]
    refine List.filter_congr fun h _ => ?_
    cases hph : p h with
    | false => rfl
    | true => rw [hp h hph]; rfl
  unfold Store.sumOf
  rw [hsplit, hsplit s.honoraria.rows, hsame]

theorem counts_isHonorarium (hcounts : h.counts volunteer year = true) : h.isHonorarium = true :=
  decide_eq_true (counts_iff.mp hcounts).2.2

/-- Totals and validation do not see the other rows. -/
theorem expenses_ignored (hsame : t.honoraria.rows.filter (·.isHonorarium) =
    s.honoraria.rows.filter (·.isHonorarium)) :
    t.cumulativeYtd volunteer year = s.cumulativeYtd volunteer year ∧
      ∀ pk x, HonorariumState.clean t pk volunteer x = x.clean s pk volunteer := by
  refine ⟨sumOf_congr hsame fun _ => counts_isHonorarium, fun pk x => ?_⟩
  have htotal : t.existingTotal pk volunteer x.year = s.existingTotal pk volunteer x.year :=
    sumOf_congr hsame fun h hh => counts_isHonorarium (Bool.and_eq_true_iff.mp hh).1
  unfold HonorariumState.clean
  rw [htotal]

/-- In every state reached, the total of a year stays below the hard block, a total above the
threshold of the slip has a row with a flag, and expenses matter for neither. -/
theorem thresholds_hold (hd : desk.Reachable d) (volunteer year : ℕ) :
    d.store.cumulativeYtd volunteer year < hardBlock ∧
    (t4aThreshold ≤ d.store.cumulativeYtd volunteer year →
      ∃ h ∈ d.store.honoraria.rows, h.counts volunteer year = true ∧ h.t4aRequired = true) ∧
    (∀ t : Store, t.honoraria.rows.filter (·.isHonorarium) =
        d.store.honoraria.rows.filter (·.isHonorarium) →
      t.cumulativeYtd volunteer year = d.store.cumulativeYtd volunteer year ∧
        ∀ pk x, HonorariumState.clean t pk volunteer x = x.clean d.store pk volunteer) ∧
    ∀ pk (x : HonorariumState), x.paymentType = .expense →
      x.clean d.store pk volunteer = .ok x := by
  have hs := sound_of_reachable hd
  refine ⟨hs.below volunteer year, hs.exists_flagged, fun t => expenses_ignored, ?_⟩
  intro pk x hexpense
  unfold HonorariumState.clean
  rw [if_pos (by simp [hexpense])]

section Example

/-- One volunteer, and nothing paid -/
private def opened : Desk where
  store := { profiles := .seed [fun pk => { pk, user := 9 }] }

private def pays (amount : ℤ) (paymentType : String) : HonorariumCall where
  volunteerProfile := 1
  paymentType
  amount
  description := "Workshop"
  paymentDate := 739000
  createdBy := { pk := 3, addHonorarium := true }

/-- Two honoraria, and an expense that becomes a third one -/
private def visits : List Step := [
  .lock (pays 30000 "honorarium"), .validate 1, .save 1 fun _ => none,
  .lock (pays 15000 "honorarium"), .validate 1, .save 1 fun _ => none,
  .lock (pays 10000 "expense_reimbursement"), .validate 1, .save 1 fun _ => none,
  .edit 3 { paymentType := some .honorarium, targeted := true }]

theorem thresholds_hold_visits :
    (desk.final opened visits).store.cumulativeYtd 1 2024 = 55000 ∧
      ∃ h ∈ (desk.final opened visits).store.honoraria.rows,
        h.counts 1 2024 = true ∧ h.t4aRequired = true :=
  ⟨by decide +kernel,
    (thresholds_hold (Machine.Reachable.final (M := desk) ⟨rfl, rfl⟩ visits) 1 2024).2.1
      (by decide +kernel)⟩

end Example

end Civicos.Volunteers.Honoraria
