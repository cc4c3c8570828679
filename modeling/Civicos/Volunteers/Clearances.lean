import Civicos.Volunteers.Screening

/-!
# Clearances

What becomes of a record: its expiry stays as it was given, it is decided once, and no other record
for its volunteer, type and scope is accepted.
-/
namespace Civicos.Volunteers.Screening

open Library Library.Transaction

variable {s t : Store} {c : RecordCall} {d : CompleteCall} {r : ScreeningRecord}
  {x y : ScreeningColumns} {u : Unit} {pk : Option ℕ} {w w' : Worker}

/-! ## Validation -/

theorem filled_toVerdict : x.filled.toVerdict = x.toVerdict := by
  unfold ScreeningColumns.filled
  split <;> rfl

theorem filled_of_pending (h : x.verifiedClear = none) : x.filled = x := by
  refine if_neg ?_
  rintro ⟨-, hclear, -⟩
  simp [h] at hclear

theorem clean_ok (h : x.clean = .ok y) : y = x.filled := by
  unfold ScreeningColumns.clean at h
  cases hnotes : x.filled.noteErrors with
  | error e => simp [hnotes, Except.map] at h
  | ok _ => simpa [hnotes, Except.map, eq_comm] using h

theorem fullClean_ok (h : x.fullClean s pk = .ok y) :
    y = x.filled ∧ y.validateConstraints s pk = [] := by
  unfold ScreeningColumns.fullClean at h
  split at h
  next z hclean =>
    split at h
    next herrors =>
      cases h
      exact ⟨clean_ok hclean, (List.append_eq_nil_iff.mp herrors).2⟩
    next => cases h
  next => cases h

/-- A violated constraint is among the errors. -/
theorem fullClean_error {e : String × String} (h : e ∈ x.validateConstraints s pk)
    (hx : x.verifiedClear = none) :
    ∃ errors, x.fullClean s pk = .error (.validationError errors) ∧ e ∈ errors := by
  unfold ScreeningColumns.fullClean
  split
  next y hclean =>
    obtain rfl := (clean_ok hclean).trans (filled_of_pending hx)
    have hmem : e ∈ y.cleanFields ++ y.validateConstraints s pk := List.mem_append_right _ h
    split
    next hnil =>
      rw [hnil] at hmem
      cases hmem
    next => exact ⟨_, rfl, hmem⟩
  next => exact ⟨_, rfl, List.mem_append_right _ (List.mem_cons_of_mem _ h)⟩

/-! ## What the calls do -/

theorem validate_ok (h : c.validate s = .ok (x, t)) :
    t = s ∧ ∃ type, CheckType.ofText c.checkType = some type ∧ x = c.screening type s.today := by
  unfold RecordCall.validate at h
  obtain ⟨-, h⟩ := guard_ok h
  obtain ⟨type, htype, h⟩ := ask_bind.mp h
  obtain ⟨_, _, ⟨⟩, h⟩ := bind_ok.mp h
  obtain ⟨hclean, rfl⟩ := lift_ok.mp h
  exact ⟨rfl, type, htype, (fullClean_ok hclean).1.trans (filled_of_pending rfl)⟩

theorem save_ok (h : c.save x s = .ok (u, t)) :
    ∃ T, s.records.insert (fun pk => { toScreeningColumns := x, pk }) = .ok T ∧
      t = {
        s with
        records := T
        recorded := s.recorded ++ [(s.records.next, c)] } := by
  obtain ⟨_, _, happend, h⟩ := bind_ok.mp h
  obtain ⟨rfl, T, hT, rfl⟩ := append_ok.mp happend
  cases h
  exact ⟨T, hT, rfl⟩

theorem perform_ok (h : d.perform s = .ok (u, t)) :
    ∃ r ∈ s.records.rows, r.pk = d.screeningRecord ∧ r.verifiedClear = none ∧
      ∃ v : Verdict, v.verifiedClear = some d.verifiedClear ∧ t = {
        s with
        records := s.records.rewrite (·.pk = r.pk) (.withVerdict v) (ScreeningRecord.preserves v)
        decisions := s.decisions ++ [(r.pk, d.verifiedClear)] } := by
  unfold CompleteCall.perform at h
  obtain ⟨-, h⟩ := guard_ok h
  obtain ⟨r, hget, h⟩ := fetch_bind.mp h
  obtain ⟨hr, hpk⟩ := Numbered.get_eq_some.mp hget
  obtain ⟨hpending, h⟩ := guard_ok h
  obtain ⟨_, _, ⟨⟩, h⟩ := bind_ok.mp h
  obtain ⟨x, hclean, h⟩ := lift_bind.mp h
  have hverdict : x.toVerdict = d.verdict s.now := by
    rw [(fullClean_ok hclean).1, filled_toVerdict]
  cases h
  exact ⟨r, hr, hpk, by simpa using hpending, x.toVerdict, by rw [hverdict]; rfl, rfl⟩

/-! ## The invariant -/

/-- The record of a call -/
def RecordCall.Describes (c : RecordCall) (r : ScreeningRecord) : Prop :=
  c.volunteerProfile = r.volunteer ∧ CheckType.ofText c.checkType = some r.checkType ∧
    c.opportunity = r.opportunity ∧ c.expiryDate = r.expiresDate

structure Kept (s : Store) : Prop where
  described : ∀ r ∈ s.records.rows, ∃ c, (r.pk, c) ∈ s.recorded ∧ c.Describes r
  decided : ∀ p ∈ s.decisions, ∃ r ∈ s.records.rows, r.pk = p.1 ∧ r.verifiedClear = some p.2
  once : (s.decisions.map Prod.fst).Nodup

/-- What a call has validated is pending, and as the caller has asked for. -/
def Asked : Worker → Prop
  | .saving c x => c.volunteerProfile = x.volunteer ∧
      CheckType.ofText c.checkType = some x.checkType ∧ c.opportunity = x.opportunity ∧
      c.expiryDate = x.expiresDate
  | _ => True

theorem Kept.saved (hs : Kept s) (hasked : Asked (.saving c x)) (h : c.save x s = .ok (u, t)) :
    Kept t := by
  obtain ⟨T, hT, rfl⟩ := save_ok h
  have hrows := (Numbered.insert_ok hT rfl).1
  refine ⟨fun r hr => ?_, fun p hp => ?_, hs.once⟩
  · rcases List.mem_append.mp (hrows ▸ hr) with hold | hnew
    · obtain ⟨c', hc', hdescribes⟩ := hs.described r hold
      exact ⟨c', List.mem_append_left _ hc', hdescribes⟩
    · obtain rfl := List.mem_singleton.mp hnew
      exact ⟨c, List.mem_append_right _ (List.mem_singleton_self _), hasked⟩
  · obtain ⟨r, hr, hpk, hclear⟩ := hs.decided p hp
    exact ⟨r, hrows ▸ List.mem_append_left _ hr, hpk, hclear⟩

theorem Kept.completed (hs : Kept s) (h : d.perform s = .ok (u, t)) : Kept t := by
  obtain ⟨r, hr, -, hpending, v, hv, rfl⟩ := perform_ok h
  have hmem (a : ScreeningRecord) := Numbered.mem_rewrite_row (a := a)
    (ScreeningRecord.preserves v) hr
  -- the record has not been decided before
  have hfresh : ∀ p ∈ s.decisions, p.1 ≠ r.pk := by
    intro p hp hpk
    obtain ⟨a, ha, hapk, hclear⟩ := hs.decided p hp
    obtain rfl := Table.eq_of_pk ha hr (hapk.trans hpk)
    simp [hpending] at hclear
  refine ⟨fun a ha => ?_, fun p hp => ?_, ?_⟩
  · rcases (hmem a).mp ha with ⟨hold, -⟩ | rfl
    · exact hs.described a hold
    · exact hs.described r hr
  · rcases List.mem_append.mp hp with hold | hnew
    · obtain ⟨a, ha, hapk, hclear⟩ := hs.decided p hold
      exact ⟨a, (hmem a).mpr (.inl ⟨ha, hapk.trans_ne (hfresh p hold)⟩), hapk, hclear⟩
    · obtain rfl := List.mem_singleton.mp hnew
      exact ⟨_, (hmem _).mpr (.inr rfl), rfl, hv⟩
  · rw [List.map_append, List.nodup_append]
    refine ⟨hs.once, by simp, ?_⟩
    intro k hk l hl
    obtain ⟨p, hp, rfl⟩ := List.mem_map.mp hk
    obtain rfl := List.mem_singleton.mp hl
    exact hfresh p hp

/-- A block raises, or it returns. -/
theorem next_cases {α : Type} {f : Tx α} {g : α → Worker} (h : Worker.next f g s = (t, w)) :
    (t = s ∧ ∃ e, w = .raised e) ∨ ∃ a, f s = .ok (a, t) ∧ w = g a := by
  unfold Worker.next at h
  split at h
  next a t' hrun =>
    obtain ⟨rfl, rfl⟩ := Prod.mk.inj h
    exact .inr ⟨a, commit_ok hrun, rfl⟩
  next e t' hrun =>
    obtain ⟨rfl, rfl⟩ := Prod.mk.inj h
    exact .inl ⟨commit_error hrun, e, rfl⟩

theorem act_kept (hs : Kept s) (hw : Asked w) (h : w.act s = some (t, w')) : Kept t ∧ Asked w' := by
  cases w with
  | recording c =>
    rcases next_cases (Option.some.inj h) with ⟨rfl, e, rfl⟩ | ⟨x, hrun, rfl⟩
    · exact ⟨hs, trivial⟩
    · obtain ⟨rfl, type, htype, rfl⟩ := validate_ok hrun
      exact ⟨hs, rfl, htype, rfl, rfl⟩
  | saving c x =>
    rcases next_cases (Option.some.inj h) with ⟨rfl, e, rfl⟩ | ⟨_, hrun, rfl⟩
    · exact ⟨hs, trivial⟩
    · exact ⟨hs.saved hw hrun, trivial⟩
  | completing d =>
    rcases next_cases (Option.some.inj h) with ⟨rfl, e, rfl⟩ | ⟨_, hrun, rfl⟩
    · exact ⟨hs, trivial⟩
    · exact ⟨hs.completed hrun, trivial⟩
  | returned => cases h
  | raised e => cases h
  | dead => cases h

theorem kept_of_reachable {s : Pool.State Store Worker} (h : screening.machine.Reachable s) :
    Kept s.store := by
  refine (Program.invariant (P := screening) (I := Kept) (J := fun _ => Asked)
    ?_ ?_ ?_ ?_ ?_ h).1
  · rintro s ⟨hrows, -, hdecisions⟩
    refine ⟨fun r hr => ?_, by simp [hdecisions], by simp [hdecisions]⟩
    rw [hrows] at hr
    cases hr
  · intro s w _ _
    cases w <;> trivial
  · intro s _
    trivial
  · intro s w e t w' hs hw hact
    obtain ⟨ht, hw'⟩ := act_kept hs hw hact
    exact ⟨ht, hw', fun _ hq => hq⟩
  · intro s clock t hs henv
    obtain rfl := Option.some.inj henv
    exact ⟨⟨hs.described, hs.decided, hs.once⟩, fun _ hq => hq⟩

/-! ## One record for each volunteer, type and scope -/

/-- Whether two records are for the same volunteer, type and scope -/
def ScreeningColumns.Same (x y : ScreeningColumns) : Prop :=
  x.volunteer = y.volunteer ∧ x.checkType = y.checkType ∧ x.opportunity = y.opportunity

/-- The constraint that the scope of a record falls under -/
def ScreeningColumns.constraint (x : ScreeningColumns) : String :=
  match x.opportunity with
  | none => ScreeningRecord.withoutOpportunity.name
  | some _ => ScreeningRecord.withOpportunity.name

theorem constraint_violated (hr : r ∈ s.records.rows) (hsame : x.Same r.toScreeningColumns) :
    ScreeningColumns.constraintError x.constraint ∈ x.validateConstraints s none := by
  obtain ⟨hvolunteer, htype, hopportunity⟩ := hsame
  unfold ScreeningColumns.validateConstraints ScreeningColumns.constraint
  cases hscope : x.opportunity with
  | none =>
    refine List.mem_append_left _ ?_
    rw [if_pos]
    · exact List.mem_singleton_self _
    · refine List.any_eq_true.mpr ⟨r, hr, ?_⟩
      simp [ScreeningColumns.generalKey, ← hopportunity, hscope, hvolunteer, htype]
  | some opportunity =>
    refine List.mem_append_right _ ?_
    rw [if_pos]
    · exact List.mem_singleton_self _
    · refine List.any_eq_true.mpr ⟨r, hr, ?_⟩
      simp [ScreeningColumns.scopedKey, ← hopportunity, hscope, hvolunteer, htype]

/-- Another call for the same volunteer, type and scope does not pass validation. -/
theorem validate_refused (hr : r ∈ s.records.rows) (hperm : c.requestedBy.addScreeningrecord = true)
    (hvolunteer : c.volunteerProfile = r.volunteer)
    (htype : CheckType.ofText c.checkType = some r.checkType)
    (hopportunity : c.opportunity = r.opportunity) :
    ∃ errors, c.validate s = .error (.validationError errors) ∧
      ScreeningColumns.constraintError r.constraint ∈ errors := by
  have hsame : (c.screening r.checkType s.today).Same r.toScreeningColumns :=
    ⟨hvolunteer, rfl, hopportunity⟩
  have hconstraint : (c.screening r.checkType s.today).constraint = r.constraint := by
    unfold ScreeningColumns.constraint
    rw [← hopportunity]
    rfl
  obtain ⟨errors, hclean, hmem⟩ := fullClean_error (constraint_violated hr hsame) rfl
  refine ⟨errors, ?_, hconstraint ▸ hmem⟩
  unfold RecordCall.validate
  rw [if_neg (by simp [hperm])]
  have hask : ask (ScreeningError.valueError ("Unknown check_type '" ++ c.checkType ++
      "'. Valid values: " ++ ", ".intercalate (CheckType.all.map (·.value)) ++ "."))
      (fun _ : Store => CheckType.ofText c.checkType) s = .ok (r.checkType, s) := by
    simp only [ask, htype]
  dsimp only
  rw [bind_of_ok hask]
  exact lift_error.mpr hclean

/-- A call that had passed validation before is stopped by the constraint. -/
theorem save_refused (hr : r ∈ s.records.rows) (hsame : x.Same r.toScreeningColumns) :
    ¬ Returns (c.save x) s := by
  rintro ⟨⟨u, t⟩, h⟩
  obtain ⟨T, hT, -⟩ := save_ok h
  obtain ⟨-, hapart⟩ := (Numbered.insert_returns rfl).mp ⟨T, hT⟩
  obtain ⟨hvolunteer, htype, hopportunity⟩ := hsame
  cases hscope : r.opportunity with
  | none =>
    refine hapart r hr ScreeningRecord.withoutOpportunity (List.mem_cons_self) ⟨?_, ?_⟩
    · simp [ScreeningRecord.withoutOpportunity, ScreeningColumns.generalKey, hscope]
    · simp [ScreeningRecord.withoutOpportunity, ScreeningColumns.generalKey, hscope, hopportunity,
        hvolunteer, htype]
  | some opportunity =>
    refine hapart r hr ScreeningRecord.withOpportunity
      (List.mem_cons_of_mem _ (List.mem_singleton_self _)) ⟨?_, ?_⟩
    · simp [ScreeningRecord.withOpportunity, ScreeningColumns.scopedKey, hscope]
    · simp [ScreeningRecord.withOpportunity, ScreeningColumns.scopedKey, hscope, hopportunity,
        hvolunteer, htype]

/-! ## Alerts -/

/-- The volunteer of a cleared sector check is told on every day of its last thirty. -/
theorem alerted {today date : ℕ} (hr : r ∈ s.records.rows)
    (htype : r.checkType = .vulnerableSectorCheck) (hclear : r.verifiedClear = some true)
    (hdate : r.expiresDate = some date) (hfrom : date ≤ today + 30) (hto : today ≤ date) :
    ∃ m ∈ s.checkExpiringScreenings today, m.recipient = s.users r.volunteer ∧
      m.checkType = r.checkType ∧ m.expiryDate = some date := by
  have hexpiring : Store.expiring today r = true := by
    simp [Store.expiring, htype, hclear, hdate, hfrom, hto]
  refine ⟨_, List.mem_flatMap.mpr ⟨r, List.mem_filter.mpr ⟨hr, hexpiring⟩, List.mem_cons_self⟩, ?_⟩
  exact ⟨rfl, rfl, hdate⟩

/-! ## Every run -/

/-- Whoever completes a check that has been decided is refused. -/
theorem perform_refused (hr : r ∈ s.records.rows) (hclear : r.verifiedClear ≠ none)
    (hpk : r.pk = d.screeningRecord) : ¬ Returns d.perform s := by
  rintro ⟨⟨u, t⟩, h⟩
  obtain ⟨a, ha, hapk, hpending, -⟩ := perform_ok h
  obtain rfl := Table.eq_of_pk ha hr (hapk.trans hpk.symm)
  exact hclear hpending

/-- In every state reached, a record has the expiry that it was given, and a cleared sector check is
alerted for in its last thirty days; every record is decided at most once; and no other record for
its volunteer, type and scope is accepted. -/
theorem records_kept {s : Pool.State Store Worker} (h : screening.machine.Reachable s) :
    (∀ r ∈ s.store.records.rows, ∃ c, (r.pk, c) ∈ s.store.recorded ∧ c.Describes r ∧
      ∀ date, c.expiryDate = some date → r.expiresDate = some date ∧
        (r.checkType = .vulnerableSectorCheck → r.verifiedClear = some true →
          ∀ today, date ≤ today + 30 → today ≤ date →
            ∃ m ∈ s.store.checkExpiringScreenings today,
              m.recipient = s.store.users r.volunteer ∧ m.checkType = r.checkType ∧
                m.expiryDate = some date)) ∧
    ((s.store.decisions.map Prod.fst).Nodup ∧ ∀ p ∈ s.store.decisions,
      (∃ r ∈ s.store.records.rows, r.pk = p.1 ∧ r.verifiedClear = some p.2) ∧
        ∀ d : CompleteCall, d.screeningRecord = p.1 → ¬ Returns d.perform s.store) ∧
    ∀ r ∈ s.store.records.rows, ∀ c : RecordCall, c.volunteerProfile = r.volunteer →
      CheckType.ofText c.checkType = some r.checkType → c.opportunity = r.opportunity →
        (c.requestedBy.addScreeningrecord = true → ∃ errors,
          c.validate s.store = .error (.validationError errors) ∧
            ScreeningColumns.constraintError r.constraint ∈ errors) ∧
        ∀ x : ScreeningColumns, x.Same r.toScreeningColumns → ¬ Returns (c.save x) s.store := by
  have hs := kept_of_reachable h
  refine ⟨fun r hr => ?_, ⟨hs.once, fun p hp => ?_⟩, fun r hr c hvolunteer htype hopportunity => ?_⟩
  · obtain ⟨c, hc, hdescribes⟩ := hs.described r hr
    refine ⟨c, hc, hdescribes, fun date hdate => ?_⟩
    have hexpires : r.expiresDate = some date := hdescribes.2.2.2 ▸ hdate
    exact ⟨hexpires, fun htype hclear today => alerted hr htype hclear hexpires⟩
  · obtain ⟨r, hr, hpk, hclear⟩ := hs.decided p hp
    exact ⟨⟨r, hr, hpk, hclear⟩, fun d hd =>
      perform_refused hr (by simp [hclear]) (hpk.trans hd.symm)⟩
  · exact ⟨fun hperm => validate_refused hr hperm hvolunteer htype hopportunity,
      fun x => save_refused hr⟩

section Example

private def officer : Officer where
  pk := 3
  addScreeningrecord := true
  changeScreeningrecord := true

/-- A sector check with an expiry -/
private def sectorCheck (expiryDate : ℕ) : RecordCall where
  volunteerProfile := 1
  checkType := "vulnerable_sector_check"
  requestedBy := officer
  expiryDate := some expiryDate
  completedDate := some (expiryDate - 3 * 365)

/-- It is recorded on the day of the check, and cleared. -/
private def clearing (expiryDate : ℕ) : List (Pool.Label Worker Unit (Instant × ℕ)) :=
  [.env (0, expiryDate - 3 * 365), .spawn (.recording (sectorCheck expiryDate)), .act 0 (),
    .act 0 (), .spawn (.completing ⟨1, true, officer, "Submitted to the RCMP"⟩), .act 1 ()]

private def cleared : Pool.State Store Worker :=
  screening.machine.final ⟨{}, []⟩ (clearing 740000)

theorem records_kept_cleared :
    ∃ m ∈ cleared.store.checkExpiringScreenings 739990, m.expiryDate = some 740000 := by
  have hreachable : screening.machine.Reachable cleared :=
    Machine.Reachable.final (M := screening.machine) (s := ⟨{}, []⟩) ⟨⟨rfl, rfl, rfl⟩, rfl⟩ _
  have hrecorded : cleared.store.records.rows.map (fun r =>
      (r.pk, r.checkType, r.verifiedClear)) = [(1, .vulnerableSectorCheck, some true)] := by
    decide +kernel
  have hcalls : cleared.store.recorded = [(1, sectorCheck 740000)] := by decide +kernel
  obtain ⟨r, hr, hcolumns⟩ := List.mem_map.mp (hrecorded ▸ List.mem_singleton_self _)
  obtain ⟨hpk, htype, hclear⟩ : r.pk = 1 ∧ r.checkType = .vulnerableSectorCheck ∧
      r.verifiedClear = some true := by simpa using hcolumns
  obtain ⟨c, hc, -, hexpiry⟩ := (records_kept hreachable).1 r hr
  rw [hcalls] at hc
  obtain ⟨-, rfl⟩ := Prod.mk.inj (List.mem_singleton.mp hc)
  obtain ⟨m, hm, -, -, hdate⟩ := (hexpiry 740000 rfl).2 htype hclear 739990 (by omega) (by omega)
  exact ⟨m, hm, hdate⟩

/-- A new check can be recorded when a cleared one has expired. -/
def Store.Renewable (s : Store) : Prop :=
  ∀ r ∈ s.records.rows, r.verifiedClear = some true → r.expiresDate.any (· < s.today) = true →
    ∃ c : RecordCall, c.volunteerProfile = r.volunteer ∧
      CheckType.ofText c.checkType = some r.checkType ∧ c.opportunity = r.opportunity ∧
        Returns c.validate s

/-- The day after the expiry -/
private def expired : Pool.State Store Worker :=
  screening.machine.final ⟨{}, []⟩ (clearing 740000 ++ [.env (0, 740001)])

theorem expired_not_renewable :
    screening.machine.Reachable expired ∧ ¬ expired.store.Renewable := by
  refine ⟨Machine.Reachable.final (M := screening.machine) (s := ⟨{}, []⟩)
    ⟨⟨rfl, rfl, rfl⟩, rfl⟩ _, fun hrenewable => ?_⟩
  have hone : ∃ r ∈ expired.store.records.rows, r.verifiedClear = some true ∧
      r.expiresDate.any (· < expired.store.today) = true := by decide +kernel
  obtain ⟨r, hr, hclear, hdate⟩ := hone
  obtain ⟨c, hvolunteer, htype, hopportunity, ⟨x, t⟩, h⟩ := hrenewable r hr hclear hdate
  have hperm : c.requestedBy.addScreeningrecord = true := by
    unfold RecordCall.validate at h
    simpa using (guard_ok h).1
  obtain ⟨errors, herror, -⟩ := validate_refused hr hperm hvolunteer htype hopportunity
  rw [h] at herror
  cases herror

end Example

end Civicos.Volunteers.Screening
