import Civicos.Library.Trail
import Civicos.Portal.ServiceRequest

/-!
# The path of a service request

As long as every view that passes its checks finds the row as it has loaded it, the updates are one
path from the blank status to the status of the request. A second view that has loaded the row
before breaks the path, and may even reopen a closed request.
-/
namespace Civicos.Portal

open Library Library.Transaction

variable {s t : Store} {i : ServiceRequest} {c : Call} {u : Unit} {v w : View}
  {newStatus publicNote reason : String} {changedBy citizen : ℕ} {new : ServiceRequestStatus}

/-! ## What the services do -/

/-- What may follow a status -/
def Follows : Option ServiceRequestStatus → Option ServiceRequestStatus → Prop
  | none, new => new = some .submitted
  | some old, new => old ≠ .closed ∧ (old.isTerminal = true → new = some .closed)

/-- A status was saved, and the update says from which to which. -/
structure Moves (i : ServiceRequest) (new : ServiceRequestStatus) (s t : Store) : Prop where
  follows : Follows (some i.status) (some new)
  status : t.request.status = new
  updates : ∃ u, t.updates = s.updates ++ [u] ∧ u.oldStatus = some i.status ∧ u.newStatus = new

theorem checkTransition_ok (h : checkTransition i newStatus = .ok new) :
    ServiceRequestStatus.ofValue newStatus = some new ∧ Follows (some i.status) (some new) := by
  unfold checkTransition at h
  split at h
  · cases h
  next _ hnew =>
    split at h
    · cases h
    split at h
    · cases h
    next hopen =>
      split at h
      · cases h
      next hterminal =>
        cases h
        refine ⟨hnew, hopen, fun hi => ?_⟩
        by_contra hne
        exact hterminal ⟨hi, fun hclosed => hne (congrArg some hclosed)⟩

theorem updateRequestStatus_ok
    (h : updateRequestStatus i newStatus changedBy publicNote s = .ok (u, t)) :
    t.cancelledIn = s.cancelledIn ∧
      ∃ new, ServiceRequestStatus.ofValue newStatus = some new ∧ Moves i new s t := by
  obtain ⟨new, s₁, hrun, h₁⟩ := bind_ok.mp h
  obtain ⟨hcheck, rfl⟩ := lift_ok.mp hrun
  obtain ⟨hnew, hfollows⟩ := checkTransition_ok hcheck
  cases h₁
  exact ⟨rfl, new, hnew, hfollows, rfl, _, rfl, rfl, rfl⟩

theorem updateRequestStatus_check
    (h : updateRequestStatus i newStatus changedBy publicNote s = .ok (u, t)) :
    (checkTransition i newStatus).isOk = true := by
  obtain ⟨new, s₁, hrun, -⟩ := bind_ok.mp h
  obtain ⟨hcheck, -⟩ := lift_ok.mp hrun
  rw [hcheck]
  rfl

theorem cancelServiceRequest_check (h : cancelServiceRequest i citizen reason s = .ok (u, t)) :
    (checkCancellation i citizen).isOk = true := by
  obtain ⟨_, s₁, hrun, -⟩ := bind_ok.mp h
  obtain ⟨hcheck, -⟩ := lift_ok.mp hrun
  rw [hcheck]
  rfl

theorem cancelServiceRequest_ok (h : cancelServiceRequest i citizen reason s = .ok (u, t)) :
    i.status.canBeCancelled = true ∧ t.cancelledIn = s.cancelledIn ++ [s.request.status] ∧
      Moves i .closed s t := by
  obtain ⟨_, s₁, hrun, h₁⟩ := bind_ok.mp h
  obtain ⟨hcheck, rfl⟩ := lift_ok.mp hrun
  obtain ⟨_, s₂, hmark, h₂⟩ := bind_ok.mp h₁
  cases hmark
  obtain ⟨hcancelled, new, hnew, hmoves⟩ := updateRequestStatus_ok h₂
  obtain rfl : ServiceRequestStatus.closed = new := Option.some.inj hnew
  refine ⟨?_, hcancelled, hmoves.follows, hmoves.status, hmoves.updates⟩
  unfold checkCancellation at hcheck
  split at hcheck
  · cases hcheck
  split at hcheck
  · cases hcheck
  next hcan => exact Bool.not_eq_false _ ▸ hcan

/-! ## The path -/

def StatusUpdate.move (u : StatusUpdate) :
    Option ServiceRequestStatus × Option ServiceRequestStatus :=
  (u.oldStatus, some u.newStatus)

/-- The updates lead from the blank status to the present one, and what a citizen has cancelled was
not decided. -/
structure Store.Connected (s : Store) : Prop where
  path : Trail.Path Follows id none (s.updates.map (·.move)) (some s.request.status)
  cancelled : ∀ status ∈ s.cancelledIn, status.canBeCancelled = true

/-- A closed request stays closed, and a decided one is at most closed. -/
def Remains (old new : ServiceRequestStatus) : Prop :=
  (old = .closed → new = .closed) ∧ (old.isTerminal = true → new = old ∨ new = .closed)

theorem Remains.refl (status : ServiceRequestStatus) : Remains status status :=
  ⟨id, fun _ => .inl rfl⟩

theorem Remains.trans {a b c : ServiceRequestStatus} (h : Remains a b) (g : Remains b c) :
    Remains a c := by
  refine ⟨fun ha => g.1 (h.1 ha), fun ha => ?_⟩
  rcases h.2 ha with rfl | rfl
  · exact g.2 ha
  · exact .inr (g.1 rfl)

theorem Follows.remains {old : ServiceRequestStatus} (h : Follows (some old) (some new)) :
    Remains old new := by
  refine ⟨fun hclosed => absurd hclosed h.1, fun hterminal => .inr ?_⟩
  exact Option.some.inj (h.2 hterminal)

theorem Moves.path (h : Moves i new s t) (hi : i.status = s.request.status)
    (hs : Trail.Path Follows id none (s.updates.map (·.move)) (some s.request.status)) :
    Trail.Path Follows id none (t.updates.map (·.move)) (some t.request.status) := by
  obtain ⟨hfollows, hstatus, u, hupdates, hold, hnew⟩ := h
  rw [hupdates, List.map_append, List.map_singleton, StatusUpdate.move, hold, hnew, hstatus]
  rw [← hi] at hs
  exact hs.snoc hfollows

/-- The condition: a call that passes its checks on the instance finds its status in the row. -/
def Call.Fresh (i : ServiceRequest) (row : ServiceRequestStatus) : Call → Prop
  | update newStatus _ _ => (checkTransition i newStatus).isOk = true → i.status = row
  | cancel citizen _ => (checkCancellation i citizen).isOk = true → i.status = row

instance (i : ServiceRequest) (row : ServiceRequestStatus) : (c : Call) → Decidable (c.Fresh i row)
  | .update _ _ _ => inferInstanceAs (Decidable (_ → _))
  | .cancel _ _ => inferInstanceAs (Decidable (_ → _))

def UpToDate (s : Store) (v : View) (_ : Unit) : Prop :=
  match v with
  | .loaded c i => c.Fresh i s.request.status
  | _ => True

instance (s : Store) : (v : View) → (u : Unit) → Decidable (UpToDate s v u)
  | .loaded c i, _ => inferInstanceAs (Decidable (c.Fresh i s.request.status))
  | .called _, _ | .returned, _ | .raised _, _ | .dead, _ => inferInstanceAs (Decidable True)

/-- What a call leaves when it returns, and that the instance was up to date. -/
theorem run_ok (h : c.run i s = .ok (u, t)) (hc : c.Fresh i s.request.status) :
    i.status = s.request.status ∧ (∃ new, Moves i new s t) ∧
      ∀ status ∈ t.cancelledIn, status ∈ s.cancelledIn ∨ status.canBeCancelled = true := by
  cases c with
  | update newStatus changedBy publicNote =>
    obtain ⟨hcancelled, new, hnew, hmoves⟩ := updateRequestStatus_ok h
    have hcheck := updateRequestStatus_check h
    exact ⟨hc hcheck, ⟨new, hmoves⟩, fun status hstatus => .inl (hcancelled ▸ hstatus)⟩
  | cancel citizen reason =>
    obtain ⟨hcan, hcancelled, hmoves⟩ := cancelServiceRequest_ok h
    have hsame : i.status = s.request.status := hc (cancelServiceRequest_check h)
    refine ⟨hsame, ⟨.closed, hmoves⟩, fun status hstatus => ?_⟩
    rw [hcancelled] at hstatus
    rcases List.mem_append.mp hstatus with hold | hnew
    · exact .inl hold
    · exact .inr (List.mem_singleton.mp hnew ▸ hsame ▸ hcan)

theorem connected_of_run (h : c.run i s = .ok (u, t)) (hc : c.Fresh i s.request.status)
    (hs : s.Connected) : t.Connected := by
  obtain ⟨hsame, ⟨new, hmoves⟩, hcancelled⟩ := run_ok h hc
  refine ⟨hmoves.path hsame hs.path, fun status hstatus => ?_⟩
  rcases hcancelled status hstatus with hold | hcan
  · exact hs.cancelled status hold
  · exact hcan

theorem remains_of_run (h : c.run i s = .ok (u, t)) (hc : c.Fresh i s.request.status) :
    Remains s.request.status t.request.status := by
  obtain ⟨hsame, ⟨new, hmoves⟩, -⟩ := run_ok h hc
  rw [← hsame, hmoves.status]
  exact hmoves.follows.remains

/-! ## Runs -/

/-- What a block of a view does. -/
theorem act_cases (h : v.act s = some (t, w)) :
    t = s ∨ ∃ c i u, v = .loaded c i ∧ c.run i s = .ok (u, t) := by
  cases v with
  | called c =>
    cases h
    exact .inl rfl
  | loaded c i =>
    have hfinish : View.finish (c.run i) s = (t, w) := Option.some.inj h
    unfold View.finish at hfinish
    cases hrun : c.run i s with
    | error e =>
      rw [commit_of_error hrun] at hfinish
      cases hfinish
      exact .inl rfl
    | ok r =>
      rw [commit_of_ok (a := r.1) (t := r.2) hrun] at hfinish
      cases hfinish
      exact .inr ⟨c, i, r.1, rfl, hrun⟩
  | returned | raised | dead => cases h

theorem connected_of_reachable {s : Pool.State Store View}
    (h : (portal.under UpToDate).machine.Reachable s) : s.store.Connected := by
  refine Program.store_invariant (P := portal.under UpToDate) ?_ ?_ ?_ h
  · rintro s ⟨pk, citizen, referenceNumber, rfl⟩
    exact ⟨.single rfl, by simp [createServiceRequest]⟩
  · intro s v e t w hs hact
    obtain ⟨hc, hact⟩ := Program.under_act.mp hact
    obtain rfl | ⟨c, i, u, rfl, hrun⟩ := act_cases hact
    · exact hs
    · exact connected_of_run hrun hc hs
  · intro s event
    exact event.elim

theorem remains_of_later {s t : Pool.State Store View}
    (h : (portal.under UpToDate).machine.Later s t) :
    Remains s.store.request.status t.store.request.status := by
  refine h.induct (I := fun u => Remains s.store.request.status u.store.request.status)
    (.refl _) ?_
  intro u l x _ hu hstep
  obtain ⟨p, -, -, rfl⟩ | ⟨k, e, v, st, w, -, -, hact, rfl⟩ | ⟨k, -, rfl⟩ |
    ⟨event, -⟩ := Program.step_cases hstep
  · exact hu
  · obtain ⟨hc, hact⟩ := Program.under_act.mp hact
    obtain rfl | ⟨c, i, _, rfl, hrun⟩ := act_cases hact
    · exact hu
    · exact hu.trans (remains_of_run hrun hc)
  · exact hu
  · exact event.elim

/-- While every call finds the status that it has checked, the updates are one path to the present
status, no cancellation meets a decided request, a closed request stays closed and a decided one is
at most closed. -/
theorem status_path {s t : Pool.State Store View}
    (h : (portal.under UpToDate).machine.Reachable s)
    (g : (portal.under UpToDate).machine.Later s t) :
    s.store.Connected ∧ Remains s.store.request.status t.store.request.status :=
  ⟨connected_of_reachable h, remains_of_later g⟩

/-- A request that its citizen has just made -/
def submitted : Pool.State Store View := ⟨createServiceRequest 1 7 "SR-2026-0001", []⟩

theorem submitted_init : portal.machine.Init submitted := ⟨⟨1, 7, "SR-2026-0001", rfl⟩, rfl⟩

/-- Both blocks of a view -/
def through (k : ℕ) (c : Call) : List (Pool.Label View Unit Empty) :=
  [.spawn (.called c), .act k (), .act k ()]

/-- A review, an approval, a cancellation that is refused, and the end. -/
def decided : Pool.State Store View :=
  (portal.under UpToDate).machine.final submitted (through 0 (.update "in_review" 2 "") ++
    through 1 (.update "approved" 2 "") ++ through 2 (.cancel 7 "") ++
    through 3 (.update "closed" 2 ""))

theorem decided_path : decided.store.Connected ∧ decided.store.request.status = .closed ∧
    decided.store.updates.length = 4 ∧ decided.store.cancelledIn = [] ∧
    Remains decided.store.request.status decided.store.request.status := by
  have hreachable : (portal.under UpToDate).machine.Reachable decided :=
    Machine.Reachable.final (M := (portal.under UpToDate).machine) submitted_init _
  obtain ⟨hconnected, hremains⟩ := status_path hreachable (.refl decided)
  exact ⟨hconnected, by decide +kernel, by decide +kernel, by decide +kernel, hremains⟩

/-- Three views load the submitted request. Staff approve it, and then the citizen cancels it. -/
def cancelledLate : Pool.State Store View :=
  portal.machine.final submitted [.spawn (.called (.update "approved" 2 "")),
    .spawn (.called (.cancel 7 "")), .spawn (.called (.update "in_review" 3 "")),
    .act 0 (), .act 1 (), .act 2 (), .act 0 (), .act 1 ()]

/-- The third view puts the closed request back under review. -/
def reopened : Pool.State Store View := portal.machine.final cancelledLate [.act 2 ()]

theorem closed_reopened : portal.machine.Reachable cancelledLate ∧
    portal.machine.Later cancelledLate reopened ∧ ¬ cancelledLate.store.Connected ∧
    ¬ Remains cancelledLate.store.request.status reopened.store.request.status := by
  have hcancelled : ServiceRequestStatus.approved ∈ cancelledLate.store.cancelledIn := by
    decide +kernel
  have hclosed : cancelledLate.store.request.status = .closed := by decide +kernel
  have hopen : reopened.store.request.status = .inReview := by decide +kernel
  refine ⟨Machine.Reachable.final (M := portal.machine) submitted_init _,
    Machine.Later.final cancelledLate _, fun h => ?_, fun h => ?_⟩
  · exact absurd (h.cancelled _ hcancelled) (by decide)
  · have hstays := h.1 hclosed
    rw [hopen] at hstays
    cases hstays

end Civicos.Portal
