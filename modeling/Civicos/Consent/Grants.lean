import Civicos.Consent.Steps

/-!
# Concurrent grants

There is never more than one current record of a citizen and a category. A grant that finds its
record, or creates it, returns what it was asked for. One that has lost the race for the current
record returns the record of whoever has won, which need not be what it was asked for.
-/
namespace Civicos.Consent

open Library Library.Transaction

variable {s t : Store} {r : ConsentRecord} {g : Grant} {k : ℕ}

namespace Grant

/-- What a caller may expect of the record that it is given. -/
def Answers (g : Grant) (r : ConsentRecord) : Prop :=
  r.currentOf g.citizen g.category = true ∧ r.status = .granted ∧ r.state = .signed ∧
    g.revision.all (fun asked => r.dataAgreementRevision = some asked) = true

instance (g : Grant) (r : ConsentRecord) : Decidable (g.Answers r) :=
  inferInstanceAs (Decidable (_ ∧ _ ∧ _ ∧ _))

/-- A grant has the revision that it was asked for. -/
def Bound (g : Grant) : Prop := ∀ asked, g.revision = some asked → g.bound.map (·.1) = some asked

theorem Bound.answers (hg : g.Bound) (hcurrent : r.currentOf g.citizen g.category = true)
    (hstatus : r.status = .granted) (hstate : r.state = .signed)
    (hrevision : ∀ b, g.bound = some b → r.dataAgreementRevision = some b.1) : g.Answers r := by
  refine ⟨hcurrent, hstatus, hstate, (Option.all_eq_true _ _).mpr fun asked hasked => ?_⟩
  obtain ⟨b, hb, rfl⟩ := Option.map_eq_some_iff.mp (hg asked hasked)
  exact decide_eq_true (hrevision b hb)

theorem Bound.answers_of_granted (hg : g.Bound) (hr : g.granted r = true) : g.Answers r := by
  simp only [granted, Bool.and_eq_true, decide_eq_true_eq, Option.all_eq_true] at hr
  obtain ⟨⟨⟨hcurrent, hstate⟩, hstatus⟩, hrevision⟩ := hr
  exact hg.answers hcurrent hstatus hstate hrevision

end Grant

namespace Worker

/-- The grant that a request is in the middle of -/
def grant : Worker → Option Grant
  | matching g _ | writing g _ | losing g | winning g _ => some g
  | _ => none

/-- Each request in the middle of a grant has the revision that it was asked for. -/
def Asks (p : Worker) : Prop := ∀ g, p.grant = some g → g.Bound

theorem Does.asks {p q : Worker} (h : Does s p t q) (hp : p.Asks) : q.Asks := by
  cases h with
  | opened hopened =>
    intro g hg asked hasked
    obtain rfl := Option.some.inj hg
    refine hopened.bound asked ?_
    rw [← hopened.asked]
    exact hasked
  | unmatched g seen | lost g seen | reread g => exact hp
  | _ => exact fun g hg => by cases hg

theorem asks_of_entry {p : Worker} (h : p.entry = true) : p.Asks := by
  intro g hg
  cases p with
  | matching | writing | losing | winning => cases h
  | _ => cases hg

/-- The record that a block of a grant returns is what the caller may expect, unless it is the
record of another request that has won. -/
theorem Does.answers {p : Worker} (h : Does s p t (returned (some k))) (hg : p.grant = some g)
    (hbound : g.Bound) : (∃ r ∈ t.records.rows, r.pk = k ∧ g.Answers r) ∨
      ∃ seen r, p = winning g seen ∧ t = s ∧ r.pk = k ∧ r ∈ s.records.rows ∧
        locked seen (·.currentOf g.citizen g.category) s = some r := by
  generalize hq : returned (some k) = q at h
  cases h with
  | matched hlocked =>
    obtain rfl := Option.some.inj hg
    obtain ⟨hr, -, hgranted⟩ := locked_mem hlocked
    cases hq
    exact .inl ⟨_, hr, rfl, hbound.answers_of_granted hgranted⟩
  | granted hgranted =>
    next g' seen =>
    obtain rfl := Option.some.inj hg
    cases hq
    refine .inl ⟨g'.signed s.now s.records.next, ?_, rfl, ?_⟩
    · rw [hgranted.records]
      exact List.mem_append_right _ (List.mem_singleton.mpr rfl)
    · refine hbound.answers (currentOf_iff.mpr ⟨rfl, rfl, rfl⟩) rfl rfl fun b hb => ?_
      exact congrArg (Option.map (·.1)) hb
  | won hlocked =>
    obtain rfl := Option.some.inj hg
    cases hq
    exact .inr ⟨_, _, rfl, rfl, rfl, (locked_mem hlocked).1, hlocked⟩
  | refused | unmatched | lost | reread => cases hq
  | _ => cases hg

theorem Does.winner {seen : Option ℕ} (h : Does s (winning g seen) t (returned (some k))) :
    ∃ r, r.pk = k ∧ t = s ∧ locked seen (·.currentOf g.citizen g.category) s = some r := by
  cases h with
  | won hlocked => exact ⟨_, rfl, rfl, hlocked⟩

end Worker

theorem asks_of_reachable {s : Pool.State Store Worker} (h : consent.machine.Reachable s) :
    ∀ p ∈ s.workers, p.Asks :=
  (Program.invariant (P := consent) (I := fun _ => True) (J := fun _ p => p.Asks)
    (fun _ _ => trivial) (fun _ _ _ hentry => Worker.asks_of_entry hentry)
    (fun _ _ _ hg => by cases hg)
    (fun _ _ _ _ _ _ hp hact => ⟨trivial, (act_does hact).asks hp, fun _ hq => hq⟩)
    (fun _ _ _ _ _ => ⟨trivial, fun _ hq => hq⟩) h).2

/-- In every reachable state a citizen has at most one current record of a category, and a grant
that returns has a record that was current, granted, signed and of the requested revision at its
commit if and only if it does not return the record of a winner that is not. -/
theorem grants_answer {s t : Pool.State Store Worker} {i : ℕ} {p : Worker}
    (h : consent.machine.Reachable s) (hp : s.workers[i]? = some p) (hg : p.grant = some g)
    (hstep : consent.machine.step s (.act i ()) = some t)
    (hreturned : t.workers[i]? = some (.returned (some k))) :
    (∀ r ∈ t.store.records.rows, ∀ a ∈ t.store.records.rows,
      r.currentOf a.citizen a.category = true → a.isCurrent = true → r = a) ∧
    ((∃ r ∈ t.store.records.rows, r.pk = k ∧ g.Answers r) ↔
      ∀ seen, p = .winning g seen →
        ∀ r ∈ Worker.locked seen (·.currentOf g.citizen g.category) s.store, g.Answers r) := by
  refine ⟨fun r hr a ha hcurrent hnow => ?_, ?_⟩
  · obtain ⟨hcitizen, hcategory, hrnow⟩ := currentOf_iff.mp hcurrent
    exact eq_of_current hr ha hcitizen hcategory hrnow hnow
  obtain ⟨st, q, hact, hst, hq⟩ := Program.step_act hp hstep
  obtain rfl : q = .returned (some k) := Option.some.inj (hq.symm.trans hreturned)
  have hdoes := act_does hact
  have hbound := asks_of_reachable h p (List.mem_of_getElem? hp) g hg
  rw [hst]
  constructor
  · rintro ⟨r, hr, rfl, hanswers⟩ seen rfl a hlocked
    obtain ⟨b, hpk, rfl, hb⟩ := hdoes.winner
    obtain rfl : a = b := Option.some.inj (hlocked.symm.trans hb)
    obtain rfl := Table.eq_of_pk hr (locked_mem hlocked).1 hpk.symm
    exact hanswers
  · intro hwinner
    rcases hdoes.answers hg hbound with hanswers | ⟨seen, r, rfl, rfl, rfl, hr, hlocked⟩
    · exact hanswers
    · exact ⟨r, hr, rfl, hwinner seen rfl r hlocked⟩

/-! ## Two first grants -/

/-- An agreement with two revisions -/
def revised : List Label :=
  [.spawn (.calling (.createDataAgreement [(.slug, .str "news")] none)), .act 0 (),
    .spawn (.editingCategory 1 (.put [(.version, .str "2")]) none), .act 1 (), .act 1 ()]

/-- A citizen grants the first revision. -/
def grantsFirst : List Label :=
  revised ++ [.spawn (.granting { citizen := 5, categorySlug := "news", revision := some 1 }),
    .act 2 (), .act 2 ()]

/-- What is left of the request at this place -/
def requestAt (i : ℕ) (s : Pool.State Store Worker) : Worker := (s.workers[i]?).getD .dead

def grantAt (i : ℕ) (s : Pool.State Store Worker) : Grant :=
  (requestAt i s).grant.getD ⟨{ citizen := 0, categorySlug := "" }, 0, none⟩

theorem grantsFirst_answers :
    let s := consent.machine.final start grantsFirst
    let t := consent.machine.final start (grantsFirst ++ [.act 2 ()])
    ∃ r ∈ t.store.records.rows, r.pk = 1 ∧ (grantAt 2 s).Answers r := by
  intro s t
  have hp : s.workers[2]? = some (requestAt 2 s) := rfl
  have hg : (requestAt 2 s).grant = some (grantAt 2 s) := rfl
  have hstep : consent.machine.step s (.act 2 ()) = some t := rfl
  have hreturned : t.workers[2]? = some (.returned (some 1)) := rfl
  have hwriting : ∀ seen, requestAt 2 s ≠ .winning (grantAt 2 s) seen := fun seen h => by cases h
  exact (grants_answer (.final start_init grantsFirst) hp hg hstep hreturned).2.mpr
    fun seen h => absurd h (hwriting seen)

/-- While the first grant is about to write, a second one for the other revision looks too, and
then loses the race. -/
def overtaken : List Label :=
  grantsFirst ++ [.spawn (.granting { citizen := 5, categorySlug := "news", revision := some 2 }),
    .act 3 (), .act 3 (), .act 2 (), .act 3 (), .act 3 ()]

/-- It returns a record of the first revision. -/
theorem overtaken_answer : ∃ s t i p g k, consent.machine.Reachable s ∧ s.workers[i]? = some p ∧
    p.grant = some g ∧ consent.machine.step s (.act i ()) = some t ∧
    t.workers[i]? = some (.returned (some k)) ∧
    ¬ ∃ r ∈ t.store.records.rows, r.pk = k ∧ g.Answers r := by
  refine ⟨consent.machine.final start overtaken,
    consent.machine.final start (overtaken ++ [.act 3 ()]), 3,
    requestAt 3 (consent.machine.final start overtaken),
    grantAt 3 (consent.machine.final start overtaken), 1, .final start_init overtaken, ?_, ?_, ?_,
    ?_, ?_⟩
  · rfl
  · rfl
  · rfl
  · rfl
  · decide +kernel

end Civicos.Consent
