import Civicos.Payments.RuntimeSystem
import Mathlib.Algebra.Order.Group.Int
import Mathlib.Algebra.Order.BigOperators.Group.List

/-!
# Provider submission happens at most once

The submission marker on the execution intent is a permit: it is granted once, to the worker
that is admitted to submit, and is spent by the adapter call of that worker.
-/
namespace Civicos.Payments

open Library Library.Transaction

namespace Ledger

instance (l : Ledger) (pk : Uuid) : Decidable (l.Marked pk) :=
  decidable_of_iff ((l.intentOf pk).any (·.submitStartedAt.isSome) = true) (by
    simp [Marked, Option.any_eq_true])

theorem Change.marked {L : AttemptStatus → Prop} {l l' : Ledger} (h : Change L l l') {pk : Uuid}
    (hm : l.Marked pk) : l'.Marked pk := by
  cases h with
  | mark _ _ marked => exact marked pk hm
  | quiet _ _ hi | insert _ _ _ _ _ hi | touch _ _ _ _ _ _ _ _ hi | move _ _ _ _ _ _ _ _ hi
    | observe _ _ _ _ _ _ _ hi | settle _ _ _ _ _ _ _ _ _ _ _ _ hi =>
    simpa only [Marked, intentOf, hi] using hm

/-- The submission marker is never taken back. -/
theorem Evolves.marked {L : AttemptStatus → Prop} {l l' : Ledger} (h : Evolves L l l') {pk : Uuid}
    (hm : l.Marked pk) : l'.Marked pk := by
  induction h with
  | refl => exact hm
  | tail _ h ih => exact h.marked ih

end Ledger

namespace SubmitOnce

/-- The permits of the attempt that a worker holds. -/
def weight (pk : Uuid) : Worker → ℤ
  | .contact call => if call.attempt = pk ∧ call.kind = .submit then 1 else 0
  | _ => 0

def submissions (pk : Uuid) (w : World) : List ProviderCall :=
  w.contacts.filter fun call => call.attempt = pk ∧ call.kind = .submit

def granted (pk : Uuid) (w : World) : ℤ := if w.ledger.Marked pk then 1 else 0

variable {pk : Uuid} {w w' : World} {p q : Worker} {c : Choice}

theorem granted_mono {L : AttemptStatus → Prop} (pk : Uuid)
    (h : Ledger.Evolves L w.ledger w'.ledger) :
    granted pk w ≤ granted pk w' := by
  unfold granted
  by_cases hm : w.ledger.Marked pk
  · simp [hm, h.marked hm]
  · simp only [hm, if_false]
    split <;> decide

theorem weight_nonneg (pk : Uuid) (p : Worker) : 0 ≤ weight pk p := by
  unfold weight
  split
  · split <;> decide
  · exact le_refl 0

/-- A worker that leaves a transaction with no adapter call ahead takes no permit. -/
theorem weight_eq_zero (h : ∀ call, p ≠ .contact call) : weight pk p = 0 := by
  cases p with
  | contact call => exact absurd rfl (h call)
  | _ => rfl

/-- Admission grants a permit exactly when it hands one out. -/
theorem admission_covered (w : World) (pk : Uuid) (now : Instant) (token : String) (attempt : Uuid)
    (orchestrated : Bool) :
    weight pk (Worker.afterAdmission attempt orchestrated
        (commit (ProviderRuntime.submitOrPoll attempt token now) w.ledger).1) + granted pk w ≤
      granted pk { w with
        ledger := (commit (ProviderRuntime.submitOrPoll attempt token now) w.ledger).2 } := by
  cases h : ProviderRuntime.submitOrPoll attempt token now w.ledger with
  | error e =>
    rw [commit_of_error h, weight_eq_zero fun call => ?_]
    · simp
    · cases e <;> simp only [Worker.afterAdmission] <;> (try split) <;> simp
  | ok r =>
    obtain ⟨admission, l'⟩ := r
    rw [commit_of_ok h]
    have hmono : granted pk w ≤ granted pk { w with ledger := l' } :=
      granted_mono (L := fun _ => True) pk (ProviderRuntime.submitOrPoll_evolves _ _ _ h)
    cases admission with
    | returned r => simpa [weight, Worker.afterAdmission] using hmono
    | contact call =>
      obtain ⟨hpk, hmark⟩ := ProviderRuntime.submitOrPoll_marks h
      by_cases hs : call.attempt = pk ∧ call.kind = .submit
      · obtain ⟨hbefore, hafter⟩ := hmark hs.2
        obtain rfl : attempt = pk := hpk.symm.trans hs.1
        simp [weight, Worker.afterAdmission, hs, granted, hbefore, hafter]
      · simpa [weight, Worker.afterAdmission, hs] using hmono

/-- Apart from admissions no block leads to an adapter call, and only the call itself is a
contact. -/
theorem act_cases (pk : Uuid) (h : Worker.act w p c = some (w', q)) :
    (∃ call, p = .contact call ∧ weight pk q = 0 ∧ w' = { w with contacts := w.contacts ++ [call] })
    ∨ (∃ attempt orchestrated, p = .submitOrPoll attempt orchestrated) ∨
    (weight pk q = 0 ∧ w'.contacts = w.contacts) := by
  cases p with
  | contact call =>
    cases h
    refine .inl ⟨call, rfl, weight_eq_zero fun d => ?_, rfl⟩
    cases ProviderRuntime.received call c.reply <;> simp [Worker.afterReply]
  | submitOrPoll attempt orchestrated => exact .inr (.inl ⟨attempt, orchestrated, rfl⟩)
  | execute attempt orchestrated =>
    cases h
    refine .inr (.inr ⟨weight_eq_zero fun d => ?_, rfl⟩)
    unfold Worker.dispatch
    repeat' split
    all_goals simp
  | statusFirst attempt orchestrated =>
    cases h
    refine .inr (.inr ⟨weight_eq_zero fun d => ?_, rfl⟩)
    unfold Worker.afterStatusFirst
    split <;> simp
  | finalize | unavailable | triageUncertain | triageRetryable =>
    cases h
    exact .inr (.inr ⟨rfl, rfl⟩)
  | triageReconcile queue | triageConfigure queue =>
    cases queue with
    | nil =>
      cases h
      exact .inr (.inr ⟨rfl, rfl⟩)
    | cons a queue =>
      cases h
      refine .inr (.inr ⟨weight_eq_zero fun d => ?_, rfl⟩)
      unfold Worker.andThen
      split <;> simp
  | triageAudit | triageReview =>
    cases h
    refine .inr (.inr ⟨weight_eq_zero fun d => ?_, rfl⟩)
    unfold Worker.andThen
    split <;> simp
  | done => cases h

theorem act_covered (h : Worker.act w p c = some (w', q)) :
    weight pk q + (submissions pk w').length + granted pk w ≤
      weight pk p + (submissions pk w).length + granted pk w' := by
  have hmono : granted pk w ≤ granted pk w' :=
    granted_mono pk (Worker.act_evolves (L := fun _ => True) (fun _ _ => trivial) h)
  obtain ⟨call, rfl, hq, rfl⟩ | ⟨attempt, orchestrated, rfl⟩ | ⟨hq, hcontacts⟩ :=
    act_cases pk h
  · have hspent : (submissions pk { w with contacts := w.contacts ++ [call] }).length =
        (submissions pk w).length + weight pk (.contact call) := by
      by_cases hs : call.attempt = pk ∧ call.kind = .submit <;> simp [submissions, weight, hs]
    rw [hq, hspent]
    omega
  · cases h
    have hadmit := admission_covered w pk c.now c.token attempt orchestrated
    have hp : weight pk (.submitOrPoll attempt orchestrated) = 0 := rfl
    simp only [submissions]
    omega
  · have hp := weight_nonneg pk p
    rw [hq, show submissions pk w' = submissions pk w by simp [submissions, hcontacts]]
    omega

theorem submissions_covered (pk : Uuid) {s : Pool.State World Worker}
    (h : runtime.machine.Reachable s) :
    (s.workers.map (weight pk)).sum + ((submissions pk s.store).length : ℤ) ≤
      granted pk s.store := by
  refine runtime.covered (weight pk) (fun w => ((submissions pk w).length : ℤ)) (granted pk)
    ?_ ?_ rfl (weight_nonneg pk) ?_ ?_ h
  · rintro w ⟨-, hintents, -, hcontacts⟩
    simp [submissions, hcontacts, granted, Ledger.Marked, Ledger.intentOf, hintents, Table.empty]
  · intro p hp
    refine weight_eq_zero fun call hcall => ?_
    simp [runtime, hcall, Worker.isEntry] at hp
  · intro s i p e w' q _ _ hact
    exact act_covered hact
  · intro s x w' _ henv
    obtain ⟨hev, hcontacts⟩ := Writer.env_evolves (L := fun _ => True) (fun _ _ => trivial)
      (by cases x <;> trivial) henv
    have hmono := granted_mono pk hev
    simp only [submissions, hcontacts]
    omega

/-- Over every run, at most one adapter call for an attempt is a submission; every contact
that follows it is a status poll. -/
theorem submit_at_most_once {s : Pool.State World Worker} (h : runtime.machine.Reachable s)
    (pk : Uuid) :
    (submissions pk s.store).length ≤ 1 ∧
      ∀ before call after, s.store.contacts = before ++ call :: after →
        call.attempt = pk → call.kind = .submit →
        ∀ later ∈ after, later.attempt = pk → later.kind = .poll := by
  have hle : (submissions pk s.store).length ≤ 1 := by
    have hcov := submissions_covered pk h
    have hsum : 0 ≤ (s.workers.map (weight pk)).sum :=
      List.sum_nonneg fun n hn => by
        obtain ⟨p, -, rfl⟩ := List.mem_map.mp hn
        exact weight_nonneg pk p
    have hgrant : granted pk s.store ≤ 1 := by
      unfold granted
      split <;> decide
    omega
  refine ⟨hle, fun before call after hsplit hcall hkind later hlater hpk => ?_⟩
  cases hk : later.kind with
  | poll => rfl
  | submit =>
    have htwo : [call, later].Sublist (submissions pk s.store) := by
      have hsub : [call, later].Sublist (before ++ call :: after) :=
        .trans (.cons_cons call (List.singleton_sublist.mpr hlater)) (List.sublist_append_right _ _)
      simpa [submissions, hsplit, hcall, hkind, hpk, hk] using
        hsub.filter fun d => decide (d.attempt = pk ∧ d.kind = .submit)
    have := htwo.length_le
    simp at this
    omega

/-- A worker dies after its submission; after the lease has run out another one takes over. -/
def takeover : Pool.State World Worker :=
  runtime.machine.final
    ⟨{ ledger := { registrations := [
        ⟨1, "tenant", "g2p", factoryDeterministic, schemaVersion, some [], none, none, true⟩] } },
          []⟩
    [.env (.getOrCreateAttempt "tenant" "g2p" "r" [] { amount := some 100 } true),
      .spawn (.execute 1 true), .act 0 ⟨0, "first", .raised⟩, .act 0 ⟨0, "first", .raised⟩,
      .act 0 ⟨0, "first", .raised⟩, .die 0,
      .spawn (.execute 1 true), .act 1 ⟨minutes 6, "second", .raised⟩,
      .act 1 ⟨minutes 6, "second", .raised⟩, .act 1 ⟨minutes 6, "second", .raised⟩]

theorem submit_at_most_once_takeover :
    takeover.store.contacts.map ProviderCall.kind = [.submit, .poll] ∧
      (submissions 1 takeover.store).length ≤ 1 :=
  ⟨by decide +kernel, (submit_at_most_once
    (Machine.Reachable.final (M := runtime.machine) ⟨⟨rfl, rfl, rfl, rfl⟩, rfl⟩ _) 1).1⟩

end SubmitOnce

end Civicos.Payments
