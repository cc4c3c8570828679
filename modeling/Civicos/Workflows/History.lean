import Civicos.Library.Trail
import Civicos.Workflows.WorkItem

/-!
# The history of a work item

An operation checks the instance that it has loaded, and the row may have changed since. As long as
what it has checked still holds of the row when it saves, the history is a path through the
statuses, and it counts the escalations.
-/
namespace Civicos.Workflows

open Library Library.Transaction

variable {s t : Store} {i : WorkItem} {op : Operation} {actor assignee : User} {u : Unit}

/-! ## What the operations do -/

/-- What an operation does when it returns. -/
inductive Change (i : WorkItem) (s t : Store) : Operation → Prop where
  | claim {actor : User} (free : i.assignedTo = none) (ht : t = { s with
      item := { s.item with
        assignedTo := some actor
        status := .inProgress }
      claims := s.claims + 1
      history := s.history ++ [{
        action := .claimed
        oldStatus := some i.status
        newStatus := some .inProgress
        actor := some actor.pk }] }) : Change i s t (.claim actor)
  | assign {assignee actor : User} (ht : t = { s with
      item := { s.item with assignedTo := some assignee }
      history := s.history ++ [{
        action := .assigned
        actor := some actor.pk
        notes := "Assigned to " ++ assignee.displayName }] }) :
          Change i s t (.assign assignee actor)
  | updateStatus {new : WorkItemStatus} {newStatus notes : String} {actor : User}
      {completedAt : Option Instant} (hnew : new ∈ i.status.validTransitions) (ht : t = { s with
      item := { s.item with
        status := new
        completedAt }
      history := s.history ++ [{
        action := .statusChangedTo new
        oldStatus := some i.status
        newStatus := some new
        actor := some actor.pk
        notes }] }) : Change i s t (.updateStatus newStatus actor notes)
  | escalate {actor : User} {reason notes : String} {escalatedAt : Option Instant}
      (below : i.escalationLevel < 2) (ht : t = { s with
      item := { s.item with
        escalationLevel := i.escalationLevel + 1
        escalatedAt }
      history := s.history ++ [{
        action := .escalated
        actor := some actor.pk
        notes }] }) : Change i s t (.escalate actor reason)

theorem claimWorkItem_ok (h : claimWorkItem i actor s = .ok (u, t)) :
    Change i s t (.claim actor) := by
  unfold claimWorkItem at h
  obtain ⟨-, h⟩ := guard_ok h
  cases hassigned : i.assignedTo with
  | some assignee =>
    simp only [hassigned] at h
    cases h
  | none =>
    simp only [hassigned] at h
    obtain ⟨-, h⟩ := guard_ok h
    cases h
    exact .claim hassigned rfl

theorem assignWorkItem_ok (h : assignWorkItem i assignee actor s = .ok (u, t)) :
    Change i s t (.assign assignee actor) := by
  unfold assignWorkItem at h
  obtain ⟨-, h⟩ := guard_ok h
  obtain ⟨-, h⟩ := guard_ok h
  obtain ⟨-, h⟩ := guard_ok h
  cases h
  exact .assign rfl

theorem updateWorkItemStatus_ok {newStatus notes : String}
    (h : updateWorkItemStatus i newStatus actor notes s = .ok (u, t)) :
    Change i s t (.updateStatus newStatus actor notes) := by
  unfold updateWorkItemStatus at h
  obtain ⟨-, h⟩ := guard_ok h
  cases hnew : WorkItemStatus.ofValue newStatus with
  | none =>
    simp only [hnew] at h
    cases h
  | some new =>
    simp only [hnew] at h
    obtain ⟨hvalid, h⟩ := guard_ok h
    cases h
    exact .updateStatus (by simpa [WorkItem.canTransitionTo] using hvalid) rfl

theorem escalateWorkItem_ok {reason : String} (h : escalateWorkItem i actor reason s = .ok (u, t)) :
    Change i s t (.escalate actor reason) := by
  unfold escalateWorkItem at h
  obtain ⟨-, h⟩ := guard_ok h
  obtain ⟨-, h⟩ := guard_ok h
  obtain ⟨hlevel, h⟩ := guard_ok h
  cases h
  exact .escalate (not_le.mp hlevel) rfl

theorem run_change (h : op.run i s = .ok (u, t)) : Change i s t op := by
  cases op with
  | claim actor => exact claimWorkItem_ok h
  | assign assignee actor => exact assignWorkItem_ok h
  | updateStatus newStatus actor notes => exact updateWorkItemStatus_ok h
  | escalate actor reason => exact escalateWorkItem_ok h

/-- Checking the deadline touches neither the status nor the assignee nor the escalations. -/
theorem checkSlaBreaches_ok (h : checkSlaBreaches s = .ok (u, t)) : t = s ∨ ∃ notes,
    t = { s with
      item := { s.item with slaBreachedAt := some s.now }
      history := s.history ++ [{
        action := .slaBreached
        actor := none
        notes }] } := by
  unfold checkSlaBreaches at h
  obtain ⟨_, _, ⟨⟩, h⟩ := bind_ok.mp h
  cases hdue : s.item.dueAt with
  | none =>
    simp only [hdue] at h
    exact .inl (pure_ok.mp h).2
  | some due =>
    simp only [hdue] at h
    split at h
    · exact .inl (pure_ok.mp h).2
    · cases h
      exact .inr ⟨_, rfl⟩

/-! ## The invariant -/

/-- The statuses of a row about the status -/
def WorkItemHistory.move (h : WorkItemHistory) : Option (WorkItemStatus × WorkItemStatus) :=
  h.oldStatus.bind fun old => h.newStatus.map fun new => (old, new)

def Follows (a b : WorkItemStatus) : Prop := b ∈ a.validTransitions

/-- What the history says of the item. -/
structure Store.Orderly (s : Store) : Prop where
  path : Trail.Path Follows id .pending (s.history.filterMap (·.move)) s.item.status
  claimed : s.claims ≤ 1
  level : s.item.escalationLevel ≤ 2
  escalations : s.item.escalationLevel = s.history.countP (·.action = .escalated)

/-- Whoever has claimed the item is its assignee, or somebody has reassigned it. -/
structure Store.Kept (s : Store) : Prop extends s.Orderly where
  unclaimed : s.item.assignedTo = none → s.claims = 0

/-- The condition: what an operation has checked on its instance holds of the row that it saves, and
a claim is a valid transition. -/
def Operation.UpToDate (i row : WorkItem) : Operation → Prop
  | claim _ => row.assignedTo = none ∧ row.status = i.status ∧ i.canTransitionTo .inProgress = true
  | assign _ _ => True
  | updateStatus _ _ _ => row.status = i.status
  | escalate _ _ => row.escalationLevel = i.escalationLevel

instance (i row : WorkItem) : (op : Operation) → Decidable (op.UpToDate i row)
  | .claim _ => inferInstanceAs (Decidable (_ ∧ _ ∧ _))
  | .assign _ _ => inferInstanceAs (Decidable True)
  | .updateStatus _ _ _ => inferInstanceAs (Decidable (_ = _))
  | .escalate _ _ => inferInstanceAs (Decidable (_ = _))

def UpToDate (s : Store) (w : Worker) (_ : Unit) : Prop :=
  match w with
  | .loaded op i => op.UpToDate i s.item
  | _ => True

instance (s : Store) : (w : Worker) → (u : Unit) → Decidable (UpToDate s w u)
  | .loaded op i, _ => inferInstanceAs (Decidable (op.UpToDate i s.item))
  | .called _, _ | .sweeping, _ | .returned, _ | .raised _, _ | .dead, _ =>
    inferInstanceAs (Decidable True)

theorem Change.kept (h : Change i s t op) (hc : op.UpToDate i s.item) (hs : s.Kept) : t.Kept := by
  obtain ⟨⟨hpath, hclaimed, hlevel, hescalations⟩, hunclaimed⟩ := hs
  cases h with
  | claim _ ht =>
    obtain ⟨hfree, hstatus, hvalid⟩ := hc
    subst ht
    have hzero := hunclaimed hfree
    refine ⟨⟨?_, ?_, hlevel, ?_⟩, by simp⟩
    · rw [List.filterMap_append]
      rw [hstatus] at hpath
      exact hpath.snoc (by simpa [Follows, WorkItem.canTransitionTo] using hvalid)
    · simp [hzero]
    · simpa using hescalations
  | assign ht =>
    subst ht
    refine ⟨⟨?_, hclaimed, hlevel, ?_⟩, by simp⟩
    · simpa [WorkItemHistory.move] using hpath
    · simpa using hescalations
  | updateStatus hnew ht =>
    subst ht
    refine ⟨⟨?_, hclaimed, hlevel, ?_⟩, hunclaimed⟩
    · rw [List.filterMap_append]
      rw [show s.item.status = i.status from hc] at hpath
      exact hpath.snoc hnew
    · simpa using hescalations
  | escalate below ht =>
    have hsame : s.item.escalationLevel = i.escalationLevel := hc
    subst ht
    refine ⟨⟨?_, hclaimed, below, ?_⟩, hunclaimed⟩
    · simpa [WorkItemHistory.move] using hpath
    · simp
      omega

theorem kept_of_sweep (h : checkSlaBreaches s = .ok (u, t)) (hs : s.Kept) : t.Kept := by
  obtain rfl | ⟨notes, rfl⟩ := checkSlaBreaches_ok h
  · exact hs
  · obtain ⟨⟨hpath, hclaimed, hlevel, hescalations⟩, hunclaimed⟩ := hs
    refine ⟨⟨?_, hclaimed, hlevel, ?_⟩, hunclaimed⟩
    · simpa [WorkItemHistory.move] using hpath
    · simpa using hescalations

/-- Nothing follows a terminal status. -/
theorem Change.stays (h : Change i s t op) (hc : op.UpToDate i s.item)
    (hterminal : s.item.status.terminal = true) : t.item.status = s.item.status := by
  have hstuck (a b : WorkItemStatus) (ha : a.terminal = true) (hab : b ∈ a.validTransitions) :
      False := by
    cases a <;> simp_all [WorkItemStatus.terminal, WorkItemStatus.validTransitions]
  cases h with
  | claim _ ht =>
    obtain ⟨-, hstatus, hvalid⟩ := hc
    exact (hstuck i.status _ (hstatus ▸ hterminal) (of_decide_eq_true hvalid)).elim
  | updateStatus hnew ht =>
    have hstatus : s.item.status = i.status := hc
    exact (hstuck i.status _ (hstatus ▸ hterminal) hnew).elim
  | assign ht => rw [ht]
  | escalate _ ht => rw [ht]

/-! ## Runs -/

/-- What a block of a request does. -/
theorem act_cases {w w' : Worker} (h : w.act s = some (t, w')) : t = s ∨
    (∃ op i, w = .loaded op i ∧ Change i s t op) ∨ checkSlaBreaches s = .ok ((), t) := by
  have hfinish (x : Tx Unit) (hx : Worker.finish x s = (t, w')) : t = s ∨ x s = .ok ((), t) := by
    unfold Worker.finish at hx
    cases hrun : x s with
    | error e =>
      rw [commit_of_error hrun] at hx
      cases hx
      exact .inl rfl
    | ok r =>
      rw [commit_of_ok (a := r.1) (t := r.2) hrun] at hx
      cases hx
      exact .inr rfl
  cases w with
  | called op =>
    cases h
    exact .inl rfl
  | loaded op i =>
    rcases hfinish _ (Option.some.inj h) with hsame | hrun
    · exact .inl hsame
    · exact .inr (.inl ⟨op, i, rfl, run_change hrun⟩)
  | sweeping =>
    rcases hfinish _ (Option.some.inj h) with hsame | hrun
    · exact .inl hsame
    · exact .inr (.inr hrun)
  | returned | raised | dead => cases h

theorem kept_of_reachable {s : Pool.State Store Worker}
    (h : (workItem.under UpToDate).machine.Reachable s) : s.store.Kept := by
  refine Program.store_invariant (P := workItem.under UpToDate) ?_ ?_ ?_ h
  · rintro s ⟨hstatus, hassigned, hlevel, ⟨actor, notes, hhistory⟩, hclaims⟩
    refine ⟨⟨?_, by omega, by omega, ?_⟩, fun _ => hclaims⟩
    · rw [hhistory, hstatus]
      exact .nil _
    · rw [hhistory, hlevel]
      rfl
  · intro s w e t w' hs hact
    obtain ⟨hc, hact⟩ := Program.under_act.mp hact
    obtain rfl | ⟨op, i, rfl, hchange⟩ | hsweep := act_cases hact
    · exact hs
    · exact hchange.kept hc hs
    · exact kept_of_sweep hsweep hs
  · intro s event t hs henv
    cases event with
    | pass time =>
      obtain rfl := Option.some.inj henv
      exact ⟨⟨hs.path, hs.claimed, hs.level, hs.escalations⟩, hs.unclaimed⟩
    | release =>
      obtain rfl := Option.some.inj henv
      exact ⟨⟨hs.path, Nat.zero_le 1, hs.level, hs.escalations⟩, fun _ => rfl⟩

theorem stays_of_later {s t : Pool.State Store Worker}
    (h : (workItem.under UpToDate).machine.Later s t)
    (hterminal : s.store.item.status.terminal = true) :
    t.store.item.status = s.store.item.status := by
  refine h.induct (I := fun u => u.store.item.status = s.store.item.status) rfl ?_
  rintro u l v - hu hstep
  obtain ⟨p, -, -, rfl⟩ | ⟨k, e, w, x, w', -, -, hact, rfl⟩ | ⟨k, -, rfl⟩ |
    ⟨event, x, -, henv, rfl⟩ := Program.step_cases hstep
  · exact hu
  · obtain ⟨hc, hact⟩ := Program.under_act.mp hact
    obtain rfl | ⟨op, i, rfl, hchange⟩ | hsweep := act_cases hact
    · exact hu
    · exact (hchange.stays hc (hu ▸ hterminal)).trans hu
    · obtain rfl | ⟨notes, rfl⟩ := checkSlaBreaches_ok hsweep
      · exact hu
      · exact hu
  · exact hu
  · cases event <;> (obtain rfl := Option.some.inj henv; exact hu)

/-- While every operation saves what it has checked, the history is a path through the statuses
that ends at the present one, at most one claim succeeds before the item is released, every
escalation is on record, and a terminal status stays. -/
theorem history_orderly {s t : Pool.State Store Worker}
    (h : (workItem.under UpToDate).machine.Reachable s)
    (g : (workItem.under UpToDate).machine.Later s t) :
    s.store.Orderly ∧
      (s.store.item.status.terminal = true → t.store.item.status = s.store.item.status) :=
  ⟨(kept_of_reachable h).toOrderly, stays_of_later g⟩

/-- An item that has just been created -/
def created : Pool.State Store Worker :=
  ⟨{ item := { title := "Review" }, history := [{ action := .created, actor := none }] }, []⟩

theorem created_init : workItem.machine.Init created :=
  ⟨⟨rfl, rfl, rfl, ⟨none, "", rfl⟩, rfl⟩, rfl⟩

def clerk (k : ℕ) : User := { pk := k, isStaff := true }

/-- Both blocks of a request -/
def through (k : ℕ) (op : Operation) : List (Pool.Label Worker Unit Event) :=
  [.spawn (.called op), .act k (), .act k ()]

/-- A claim, an escalation and the end of the work. -/
def worked : Pool.State Store Worker :=
  (workItem.under UpToDate).machine.final created (through 0 (.claim (clerk 1)) ++
    through 1 (.escalate (clerk 1) "late") ++ through 2 (.updateStatus "completed" (clerk 1) ""))

theorem worked_orderly : worked.store.Orderly ∧
    worked.store.item.status = .completed ∧ worked.store.item.escalationLevel = 1 ∧
    worked.store.claims = 1 := by
  have hreachable : (workItem.under UpToDate).machine.Reachable worked :=
    Machine.Reachable.final (M := (workItem.under UpToDate).machine) created_init _
  exact ⟨(history_orderly hreachable (.refl worked)).1, by decide +kernel⟩

/-- Two clerks load the same item, and both claim it. -/
def claimedTwice : Pool.State Store Worker :=
  workItem.machine.final created [.spawn (.called (.claim (clerk 1))),
    .spawn (.called (.claim (clerk 2))), .act 0 (), .act 1 (), .act 0 (), .act 1 ()]

theorem claimedTwice_reached : workItem.machine.Reachable claimedTwice ∧
    claimedTwice.store.claims = 2 ∧ ¬ claimedTwice.store.Orderly := by
  have hclaims : claimedTwice.store.claims = 2 := by decide +kernel
  refine ⟨Machine.Reachable.final (M := workItem.machine) created_init _, hclaims, fun h => ?_⟩
  have hle := h.claimed
  omega

end Civicos.Workflows
