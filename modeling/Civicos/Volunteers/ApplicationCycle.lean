import Civicos.Volunteers.Applications

/-!
# The cycle of an application

Between two submissions an application is decided at most once, by somebody who is entitled to it,
and a rejected application never changes again.
-/
namespace Civicos.Volunteers.Applications

open Library Library.Transaction

variable {s t : Store} {a b : VolunteerApplication} {actor : Actor} {u : Unit} {e : Entry} {k : ℕ}
  {st : ApplicationState}

/-! ## What a call does -/

def Store.Entitles (s : Store) (actor : Actor) (opportunity : ℕ) : Prop :=
  actor.isSuperuser = true ∨ s.coordinatorOf opportunity = some actor.pk

/-- From one state of an application to the next. -/
inductive Moves (s : Store) (a : VolunteerApplication) (st : ApplicationState) : Entry → Prop where
  | resubmitted (hwas : a.status = .withdrawn) (his : st.status = .pending)
    (hreason : st.rejectionReason = "") : Moves s a st .submitted
  | withdrawn (hwas : a.status.withdrawable = true) (his : st.status = .withdrawn)
    (hreason : st.rejectionReason = a.rejectionReason) : Moves s a st .withdrawn
  | approved {actor : Actor} (hwas : a.status.undecided = true)
    (entitled : s.Entitles actor a.opportunity) (his : st.status = .approved)
    (hreviewer : st.reviewedBy = some actor.pk)
    (hreason : st.rejectionReason = a.rejectionReason) : Moves s a st (.decided actor)
  | rejected {actor : Actor} (hwas : a.status.undecided = true)
    (entitled : s.Entitles actor a.opportunity) (his : st.status = .rejected)
    (hreviewer : st.reviewedBy = some actor.pk) : Moves s a st (.decided actor)

/-- What a call does when it returns, with the entry that it adds to the trail. -/
inductive Change (s t : Store) : Entry → Prop where
  | created {a : VolunteerApplication} (hpk : a.pk = s.applications.next)
    (hstatus : a.status = .pending) (hreason : a.rejectionReason = "")
    (hrows : t.applications.rows = s.applications.rows ++ [a])
    (hnext : t.applications.next = s.applications.next + 1)
    (ht : t = { s with
      applications := t.applications
      trail := s.trail ++ [(a.pk, .submitted)] }) : Change s t .submitted
  | moved {a : VolunteerApplication} {f : VolunteerApplication → ApplicationState} {e : Entry}
    (ha : a ∈ s.applications.rows) (hmoves : Moves s a (f a) e)
    (ht : t = { s with
      applications := s.applications.rewrite (·.pk = a.pk) (.withState f)
        (VolunteerApplication.preserves f)
      trail := s.trail ++ [(a.pk, e)] }) : Change s t e

theorem checks_same {c : Submission} (h : c.checks s = .ok (u, t)) : t = s := by
  unfold Submission.checks at h
  obtain ⟨-, h⟩ := guard_ok h
  obtain ⟨_, _, ⟨⟩, h⟩ := bind_ok.mp h
  obtain ⟨-, h⟩ := guard_ok h
  dsimp only at h
  split at h
  · cases h
  · exact (pure_ok.mp h).2

theorem submit_change {c : Submission} {seen : Option ℕ} (h : submit c seen s = .ok (u, t)) :
    Change s t .submitted := by
  obtain ⟨_, _, ⟨⟩, h⟩ := bind_ok.mp h
  cases hlocked : (seen.bind s.applications.get).filter c.reusable with
  | some a =>
    simp only [hlocked] at h
    obtain ⟨hget, hreusable⟩ := Option.filter_eq_some_iff.mp hlocked
    obtain ⟨k, -, hget⟩ := Option.bind_eq_some_iff.mp hget
    obtain ⟨ha, -⟩ := Numbered.get_eq_some.mp hget
    obtain ⟨-, hwas⟩ := Bool.and_eq_true_iff.mp hreusable
    cases rewriteRows_bind.mp h
    exact .moved ha (.resubmitted (of_decide_eq_true hwas) rfl rfl) rfl
  | none =>
    simp only [hlocked] at h
    obtain ⟨-, h⟩ := guard_ok h
    obtain ⟨a, _, happend, h⟩ := bind_ok.mp h
    obtain ⟨rfl, T, hT, rfl⟩ := append_ok.mp happend
    obtain ⟨hrows, hnext, -⟩ := Numbered.insert_ok hT rfl
    cases h
    exact .created rfl rfl rfl hrows hnext rfl

def VolunteerApplication.withdrawnState (a : VolunteerApplication) : ApplicationState :=
  { a.toApplicationState with status := .withdrawn }

theorem withdraw_ok {application owner : ℕ} (h : withdraw application owner actor s = .ok (u, t)) :
    ∃ a ∈ s.applications.rows, a.pk = application ∧ a.status.withdrawable = true ∧ t = { s with
      applications := s.applications.rewrite (·.pk = a.pk) (.withState (·.withdrawnState))
        (VolunteerApplication.preserves _)
      trail := s.trail ++ [(a.pk, .withdrawn)] } := by
  unfold withdraw at h
  obtain ⟨-, h⟩ := guard_ok h
  obtain ⟨a, hget, h⟩ := fetch_bind.mp h
  obtain ⟨ha, hpk⟩ := Numbered.get_eq_some.mp hget
  obtain ⟨hwas, h⟩ := guard_ok h
  cases rewriteRows_bind.mp h
  exact ⟨a, ha, hpk, not_not.mp hwas, rfl⟩

theorem withdraw_change {application owner : ℕ}
    (h : withdraw application owner actor s = .ok (u, t)) :
    Change s t .withdrawn := by
  obtain ⟨a, ha, -, hwas, rfl⟩ := withdraw_ok h
  refine .moved ha ?_ rfl
  exact .withdrawn hwas rfl rfl

/-- Both decisions -/
theorem decideApplication_ok {verb : String} {application : ℕ}
    {f : Instant → VolunteerApplication → ApplicationState}
    (h : decideApplication verb application actor f s = .ok (u, t)) :
    ∃ a ∈ s.applications.rows, a.status.undecided = true ∧ s.Entitles actor a.opportunity ∧
      t = { s with
        applications := s.applications.rewrite (·.pk = a.pk) (.withState (f s.now))
          (VolunteerApplication.preserves (f s.now))
        trail := s.trail ++ [(a.pk, .decided actor)] } := by
  unfold decideApplication at h
  obtain ⟨-, h⟩ := guard_ok h
  obtain ⟨a, hget, h⟩ := fetch_bind.mp h
  obtain ⟨ha, -⟩ := Numbered.get_eq_some.mp hget
  obtain ⟨_, _, ⟨⟩, h⟩ := bind_ok.mp h
  obtain ⟨hentitled, h⟩ := guard_ok h
  obtain ⟨hwas, h⟩ := guard_ok h
  cases rewriteRows_bind.mp h
  refine ⟨a, ha, not_not.mp hwas, ?_, rfl⟩
  by_cases hsuper : actor.isSuperuser = true
  · exact .inl hsuper
  · exact .inr (not_not.mp fun hne => hentitled ⟨hsuper, hne⟩)

theorem approveApplication_change {application : ℕ}
    (h : approveApplication application actor s = .ok (u, t)) : Change s t (.decided actor) := by
  unfold approveApplication at h
  obtain ⟨a, ha, hwas, hentitled, rfl⟩ := decideApplication_ok h
  refine .moved ha ?_ rfl
  exact .approved hwas hentitled rfl rfl rfl

theorem rejectApplication_change {application : ℕ} {rejectionReason : String}
    (h : rejectApplication application rejectionReason actor s = .ok (u, t)) :
    Change s t (.decided actor) := by
  unfold rejectApplication at h
  obtain ⟨a, ha, hwas, hentitled, rfl⟩ := decideApplication_ok h
  refine .moved ha ?_ rfl
  exact .rejected hwas hentitled rfl rfl

/-- A call that raises leaves the store as it is. -/
theorem next_cases {x : Tx Unit} {w w' : Worker} (h : Worker.next x w s = (t, w')) :
    (x s = .ok ((), t) ∧ w' = w) ∨ (t = s ∧ ∃ e, w' = .raised e) := by
  unfold Worker.next at h
  cases hrun : x s with
  | error e =>
    rw [commit_of_error hrun] at h
    cases h
    exact .inr ⟨rfl, e, rfl⟩
  | ok r =>
    rw [commit_of_ok (a := r.1) (t := r.2) hrun] at h
    cases h
    exact .inl ⟨rfl, rfl⟩

/-- What a block does: a withdrawal, another change, or nothing. -/
theorem act_cases {w w' : Worker} (h : w.act s = some (t, w')) :
    t = s ∨ w' = .returned ∧ ((∃ e, e ≠ .withdrawn ∧ Change s t e) ∨
      ∃ application owner actor, w = .calling (.withdraw application owner actor) ∧
        withdraw application owner actor s = .ok ((), t)) := by
  cases w with
  | applying c =>
    rcases next_cases (Option.some.inj h) with ⟨hrun, -⟩ | ⟨hsame, -⟩
    · exact .inl (checks_same hrun)
    · exact .inl hsame
  | looking c =>
    cases h
    exact .inl rfl
  | submitting c seen =>
    rcases next_cases (Option.some.inj h) with ⟨hrun, hw⟩ | ⟨hsame, -⟩
    · exact .inr ⟨hw, .inl ⟨_, by simp, submit_change hrun⟩⟩
    · exact .inl hsame
  | calling op =>
    rcases next_cases (Option.some.inj h) with ⟨hrun, hw⟩ | ⟨hsame, -⟩
    · refine .inr ⟨hw, ?_⟩
      cases op with
      | withdraw application owner actor => exact .inr ⟨application, owner, actor, rfl, hrun⟩
      | approve application actor =>
        exact .inl ⟨_, by simp, approveApplication_change hrun⟩
      | reject application rejectionReason actor =>
        exact .inl ⟨_, by simp, rejectApplication_change hrun⟩
    · exact .inl hsame
  | returned | raised | dead => cases h

theorem act_change {w w' : Worker} (h : w.act s = some (t, w')) :
    t = s ∨ ((∃ e, Change s t e) ∧ w' = .returned) := by
  rcases act_cases h with hsame | ⟨hw, ⟨e, -, hchange⟩ | ⟨_, _, _, -, hrun⟩⟩
  · exact .inl hsame
  · exact .inr ⟨⟨e, hchange⟩, hw⟩
  · exact .inr ⟨⟨_, withdraw_change hrun⟩, hw⟩

/-! ## The invariant -/

namespace Entry

def count (n : ℕ) : Entry → ℕ
  | submitted => 0
  | decided _ => n + 1
  | withdrawn => n

def decider (before : Option Actor) : Entry → Option Actor
  | decided actor => some actor
  | submitted | withdrawn => before

end Entry

/-- How often the application has been decided since it was last submitted. -/
def decisions (entries : List Entry) : ℕ := entries.foldl Entry.count 0

/-- Who has decided last. -/
def lastDecision (entries : List Entry) : Option Actor := entries.foldl Entry.decider none

namespace Store

def entriesOf (s : Store) (application : ℕ) : List Entry :=
  s.trail.filterMap fun e => if e.1 = application then some e.2 else none

/-- What holds of an application at any time. -/
structure Settled (s : Store) (a : VolunteerApplication) : Prop where
  once : decisions (s.entriesOf a.pk) ≤ 1
  reviewer : a.status = .approved ∨ a.status = .rejected → ∃ actor,
    lastDecision (s.entriesOf a.pk) = some actor ∧ a.reviewedBy = some actor.pk ∧
      s.Entitles actor a.opportunity
  reason : a.rejectionReason ≠ "" → a.status = .rejected

structure Kept (s : Store) (a : VolunteerApplication) : Prop extends s.Settled a where
  undecided : a.status.undecided = true → decisions (s.entriesOf a.pk) = 0

/-- The trail names applications that exist. -/
def Traced (s : Store) : Prop := ∀ e ∈ s.trail, e.1 < s.applications.next

theorem entriesOf_snoc (htrail : t.trail = s.trail ++ [(k, e)]) (j : ℕ) :
    t.entriesOf j = s.entriesOf j ++ if k = j then [e] else [] := by
  unfold entriesOf
  rw [htrail, List.filterMap_append]
  by_cases hkj : k = j <;> simp [hkj]

theorem entriesOf_fresh (h : s.Traced) : s.entriesOf s.applications.next = [] := by
  refine List.filterMap_eq_nil_iff.mpr fun e he => if_neg ?_
  exact Nat.ne_of_lt (h e he)

/-- What has not happened to an application does not matter to it. -/
theorem Kept.other (h : s.Kept a) (hentries : t.entriesOf a.pk = s.entriesOf a.pk)
    (hcoordinator : t.coordinatorOf a.opportunity = s.coordinatorOf a.opportunity) : t.Kept a := by
  obtain ⟨⟨honce, hreviewer, hreason⟩, hundecided⟩ := h
  refine ⟨⟨hentries ▸ honce, fun hstatus => ?_, hreason⟩, hentries ▸ hundecided⟩
  obtain ⟨actor, hlast, hby, hentitled⟩ := hreviewer hstatus
  exact ⟨actor, hentries ▸ hlast, hby, hentitled.imp_right (hcoordinator ▸ ·)⟩

theorem Kept.moved {f : VolunteerApplication → ApplicationState} (h : s.Kept a)
    (hmoves : Moves s a (f a) e) (hentries : t.entriesOf a.pk = s.entriesOf a.pk ++ [e])
    (hcoordinator : t.coordinatorOf a.opportunity = s.coordinatorOf a.opportunity) :
    t.Kept (a.withState f) := by
  have hdecisions : decisions (t.entriesOf a.pk) = e.count (decisions (s.entriesOf a.pk)) := by
    rw [hentries, decisions, List.foldl_append]
    rfl
  have hentitles {actor : Actor} (hentitled : s.Entitles actor a.opportunity) :
      t.Entitles actor a.opportunity := hentitled.imp_right (hcoordinator ▸ ·)
  have hlast {actor : Actor} (he : e = .decided actor) :
      lastDecision (t.entriesOf a.pk) = some actor := by
    rw [hentries, lastDecision, List.foldl_append, he]
    rfl
  have hplain : a.status ≠ .rejected → a.rejectionReason = "" := fun hne =>
    not_not.mp fun hreason => hne (h.reason hreason)
  cases hmoves with
  | resubmitted hwas his hreason =>
    refine ⟨⟨?_, ?_, ?_⟩, ?_⟩
    · exact hdecisions ▸ Nat.zero_le 1
    · intro hstatus
      simp [VolunteerApplication.withState, his] at hstatus
    · intro hne
      exact absurd hreason hne
    · exact fun _ => hdecisions
  | withdrawn hwas his hreason =>
    refine ⟨⟨?_, ?_, ?_⟩, ?_⟩
    · exact hdecisions ▸ h.once
    · intro hstatus
      simp [VolunteerApplication.withState, his] at hstatus
    · intro hne
      refine absurd (hreason.trans (hplain fun hrejected => ?_)) hne
      rw [hrejected] at hwas
      cases hwas
    · intro hundecided
      simp [VolunteerApplication.withState, his, ApplicationStatus.undecided] at hundecided
  | @approved actor hwas hentitled his hreviewer hreason =>
    have hzero := h.undecided hwas
    refine ⟨⟨?_, ?_, ?_⟩, ?_⟩
    · simp only [hzero] at hdecisions
      exact hdecisions.le
    · exact fun _ => ⟨actor, hlast rfl, hreviewer, hentitles hentitled⟩
    · intro hne
      refine absurd (hreason.trans (hplain fun hrejected => ?_)) hne
      rw [hrejected] at hwas
      cases hwas
    · intro hundecided
      simp [VolunteerApplication.withState, his, ApplicationStatus.undecided] at hundecided
  | @rejected actor hwas hentitled his hreviewer =>
    have hzero := h.undecided hwas
    refine ⟨⟨?_, ?_, ?_⟩, ?_⟩
    · simp only [hzero] at hdecisions
      exact hdecisions.le
    · exact fun _ => ⟨actor, hlast rfl, hreviewer, hentitles hentitled⟩
    · exact fun _ => his
    · intro hundecided
      simp [VolunteerApplication.withState, his, ApplicationStatus.undecided] at hundecided

end Store

/-! ## One step -/

theorem Change.coordinatorOf (h : Change s t e) (opportunity : ℕ) :
    t.coordinatorOf opportunity = s.coordinatorOf opportunity := by
  cases h with
  | created _ _ _ _ _ ht => rw [ht]; rfl
  | moved _ _ ht => rw [ht]; rfl

theorem Change.kept (h : Change s t e) (hs : ∀ a ∈ s.applications.rows, s.Kept a)
    (htraced : s.Traced) :
    (∀ a ∈ t.applications.rows, t.Kept a) ∧ t.Traced := by
  have hcoordinator := h.coordinatorOf
  cases h with
  | @created a hpk hstatus hreason hrows hnext ht =>
    have hentries := Store.entriesOf_snoc (congrArg Store.trail ht)
    refine ⟨fun b hb => ?_, fun e he => ?_⟩
    · rcases List.mem_append.mp (hrows ▸ hb) with hold | hnew
      · have hne : a.pk ≠ b.pk := hpk ▸ Nat.ne_of_gt (s.applications.used b hold)
        exact (hs b hold).other (by simpa [hne] using hentries b.pk) (hcoordinator _)
      · obtain rfl := List.mem_singleton.mp hnew
        have hfresh : t.entriesOf b.pk = [.submitted] := by
          rw [hentries, hpk, Store.entriesOf_fresh htraced, if_pos rfl, List.nil_append]
        refine ⟨⟨?_, ?_, ?_⟩, ?_⟩
        · exact hfresh ▸ Nat.zero_le 1
        · intro hdecided
          simp [hstatus] at hdecided
        · exact fun hne => absurd hreason hne
        · exact fun _ => hfresh ▸ rfl
    · rw [congrArg Store.trail ht] at he
      rcases List.mem_append.mp he with hold | hnew
      · have hlt := htraced e hold
        omega
      · obtain rfl := List.mem_singleton.mp hnew
        change a.pk < _
        omega
  | @moved a f _ ha hmoves ht =>
    have hentries := Store.entriesOf_snoc (congrArg Store.trail ht)
    refine ⟨fun b hb => ?_, fun x hx => ?_⟩
    · rw [ht] at hb
      rcases (Numbered.mem_rewrite_row (VolunteerApplication.preserves f) ha).mp hb with
        ⟨hold, hne⟩ | rfl
      · have hne : a.pk ≠ b.pk := Ne.symm hne
        exact (hs b hold).other (by simpa [hne] using hentries b.pk) (hcoordinator _)
      · exact (hs a ha).moved hmoves (by simpa using hentries a.pk) (hcoordinator _)
    · have hnext : t.applications.next = s.applications.next := by rw [ht]; rfl
      rw [congrArg Store.trail ht] at hx
      rw [hnext]
      rcases List.mem_append.mp hx with hold | hnew
      · exact htraced x hold
      · obtain rfl := List.mem_singleton.mp hnew
        exact s.applications.used a ha

/-- A rejected application does not change any more. -/
theorem Change.rejected_stays (h : Change s t e) (ha : a ∈ s.applications.rows)
    (hrejected : a.status = .rejected) : a ∈ t.applications.rows := by
  cases h with
  | created _ _ _ hrows => exact hrows ▸ List.mem_append_left _ ha
  | @moved b f _ hb hmoves ht =>
    have hne : a.pk ≠ b.pk := by
      intro hpk
      obtain rfl := Table.eq_of_pk ha hb hpk
      cases hmoves <;> simp_all [ApplicationStatus.withdrawable, ApplicationStatus.undecided]
    rw [ht]
    exact (Numbered.mem_rewrite_row (VolunteerApplication.preserves f) hb).mpr (.inl ⟨ha, hne⟩)

/-! ## Runs -/

theorem kept_of_reachable {s : Pool.State Store Worker} (h : applications.machine.Reachable s) :
    (∀ a ∈ s.store.applications.rows, s.store.Kept a) ∧ s.store.Traced := by
  refine Program.store_invariant (P := applications)
    (I := fun s => (∀ a ∈ s.applications.rows, s.Kept a) ∧ s.Traced) ?_ ?_ ?_ h
  · rintro s ⟨happlications, htrail⟩
    refine ⟨fun a ha => ?_, fun e he => ?_⟩
    · rw [happlications] at ha
      cases ha
    · rw [htrail] at he
      cases he
  · rintro s w e t w' ⟨hs, htraced⟩ hact
    rcases act_change hact with rfl | ⟨⟨e, hchange⟩, -⟩
    · exact ⟨hs, htraced⟩
    · exact hchange.kept hs htraced
  · rintro s time t ⟨hs, htraced⟩ henv
    obtain rfl := Option.some.inj henv
    exact ⟨fun a ha => (hs a ha).other rfl rfl, htraced⟩

theorem rejected_stays {s t : Pool.State Store Worker} (h : applications.machine.Later s t)
    (ha : a ∈ s.store.applications.rows) (hrejected : a.status = .rejected) :
    a ∈ t.store.applications.rows := by
  refine h.induct (I := fun u => a ∈ u.store.applications.rows) ha ?_
  rintro u l v - hu hstep
  obtain ⟨p, -, -, rfl⟩ | ⟨i, e, w, x, w', -, -, hact, rfl⟩ | ⟨i, -, rfl⟩ |
    ⟨time, x, -, henv, rfl⟩ := Program.step_cases hstep
  · exact hu
  · rcases act_change hact with rfl | ⟨⟨e, hchange⟩, -⟩
    · exact hu
    · exact hchange.rejected_stays hu hrejected
  · exact hu
  · obtain rfl := Option.some.inj henv
    exact hu

/-- A block after which its call has raised. -/
theorem unchanged_of_raised {s t : Pool.State Store Worker} {i : ℕ} {e : VolunteerError}
    (h : applications.machine.step s (.act i ()) = some t)
    (hraised : t.workers[i]? = some (.raised e)) : t.store = s.store := by
  obtain ⟨w, x, w', -, hact, rfl, hw⟩ := Program.act_cases h
  rcases act_change hact with hsame | ⟨-, rfl⟩
  · exact hsame
  · cases hw.symm.trans hraised

/-- At any time there is at most one application for an opportunity and a volunteer; it is decided
at most once after each submission, by somebody who is entitled to it and on record, and it carries
a reason only when it is rejected, which it stays. A call that raises has changed nothing. -/
theorem applications_settled {s t : Pool.State Store Worker} (h : applications.machine.Reachable s)
    (g : applications.machine.Later s t) :
    (∀ a ∈ s.store.applications.rows, ∀ b ∈ s.store.applications.rows,
      a.opportunity = b.opportunity → a.volunteer = b.volunteer → a = b) ∧
    (∀ a ∈ s.store.applications.rows, s.store.Settled a) ∧
    (∀ a ∈ s.store.applications.rows, a.status = .rejected → a ∈ t.store.applications.rows) ∧
    ∀ i e u, applications.machine.step s (.act i ()) = some u →
      u.workers[i]? = some (.raised e) → u.store = s.store := by
  refine ⟨fun a ha b hb hopportunity hvolunteer => ?_, fun a ha => ?_, fun a ha hrejected => ?_,
    fun i e u hstep hraised => unchanged_of_raised hstep hraised⟩
  · refine Table.eq_of_clash (List.mem_singleton.mpr rfl) ha hb ⟨Option.some_ne_none _, ?_⟩
    simp [VolunteerApplication.opportunityVolunteer, hopportunity, hvolunteer]
  · exact ((kept_of_reachable h).1 a ha).toSettled
  · exact rejected_stays g ha hrejected

/-- One opportunity, of a programme that user 9 coordinates. -/
def garden : Store where
  programs := [⟨1, some 9⟩]
  opportunities := [{ pk := 1, program := 1 }]

/-- The volunteer who is user 7 applies for the garden. -/
def planting : Submission where
  volunteerProfile := { pk := 1, user := 7 }
  opportunity := { pk := 1, program := 1 }
  actor := { pk := 7 }

def coordinator : Actor := { pk := 9, changeVolunteerapplication := true }

/-- All blocks of an application to the garden -/
def applied (i : ℕ) : List (Pool.Label Worker Unit ℕ) :=
  [.spawn (.applying planting), .act i (), .act i (), .act i ()]

def called (i : ℕ) (op : Operation) : List (Pool.Label Worker Unit ℕ) :=
  [.spawn (.calling op), .act i ()]

/-- Approved, withdrawn, submitted again and rejected. -/
def twoCycles : Pool.State Store Worker :=
  applications.machine.final ⟨garden, []⟩ (applied 0 ++ called 1 (.approve 1 coordinator) ++
    called 2 (.withdraw 1 7 { pk := 7 }) ++ applied 3 ++ called 4 (.reject 1 "full" coordinator))

theorem twoCycles_settled :
    (∀ a ∈ twoCycles.store.applications.rows, twoCycles.store.Settled a) ∧
    twoCycles.store.applications.rows.map (fun a => (a.status, a.reviewedBy)) =
      [(.rejected, some 9)] ∧
    twoCycles.store.entriesOf 1 = [.submitted, .decided coordinator, .withdrawn, .submitted,
      .decided coordinator] := by
  have hreachable : applications.machine.Reachable twoCycles :=
    Machine.Reachable.final (M := applications.machine) (s := ⟨garden, []⟩) ⟨⟨rfl, rfl⟩, rfl⟩ _
  exact ⟨(applications_settled hreachable (.refl _)).2.1, by decide +kernel, by decide +kernel⟩

end Civicos.Volunteers.Applications
