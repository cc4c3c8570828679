import Civicos.Library.Machine
import Mathlib.Algebra.BigOperators.Group.List.Basic
import Mathlib.Algebra.Order.Group.Defs
import Mathlib.Tactic.Abel

/-!
# Workers over a shared store

A program describes one worker: `act` executes its next atomic block against the shared
store and returns the continuation. A pool runs any number of such workers interleaved with
environment transactions; a worker may die between any two of its blocks and tasks may be
delivered any number of times.

Five proof rules: `invariant` is a rely-guarantee rule with one assertion per worker,
`invariant_under` the same rule for runs under a condition on all workers, and `invariant_owned` the
rule for workers that own parts of the store; `done_or_held` follows work that is passed from the
store to a worker and back, and `covered` counts permits. There each worker holds a weight, and what
the pool has spent plus what its workers may still spend never exceeds what the store has granted.
-/
namespace Civicos.Library

/-- `act st p e = none` when the environment choice `e` does not fit the block `p`. -/
structure Program (σ φ ε η : Type*) where
  Init : σ → Prop
  entry : φ → Bool
  halted : φ
  act : σ → φ → ε → Option (σ × φ)
  env : σ → η → Option σ

namespace Pool

structure State (σ φ : Type*) where
  store : σ
  workers : List φ

inductive Label (φ ε η : Type*) where
  | spawn (p : φ)
  | act (i : ℕ) (e : ε)
  | die (i : ℕ)
  | env (x : η)

end Pool

namespace Program

variable {σ φ ε η : Type*} {P : Program σ φ ε η}

def step (P : Program σ φ ε η) (s : Pool.State σ φ) :
    Pool.Label φ ε η → Option (Pool.State σ φ)
  | .spawn p => if P.entry p then some { s with workers := s.workers ++ [p] } else none
  | .act i e => (s.workers[i]?).bind fun p =>
      (P.act s.store p e).map fun r => ⟨r.1, s.workers.set i r.2⟩
  | .die i => some { s with workers := s.workers.set i P.halted }
  | .env x => (P.env s.store x).map fun st => { s with store := st }

/-- The pool starts without workers. -/
def machine (P : Program σ φ ε η) : Machine (Pool.State σ φ) (Pool.Label φ ε η) where
  Init s := P.Init s.store ∧ s.workers = []
  step := P.step

/-- Everything a pool step can do. -/
theorem step_cases {s t : Pool.State σ φ} {l : Pool.Label φ ε η}
    (h : P.machine.step s l = some t) :
    (∃ p, l = .spawn p ∧ P.entry p = true ∧ t = ⟨s.store, s.workers ++ [p]⟩) ∨
    (∃ i e p st q, l = .act i e ∧ s.workers[i]? = some p ∧ P.act s.store p e = some (st, q) ∧
      t = ⟨st, s.workers.set i q⟩) ∨
    (∃ i, l = .die i ∧ t = ⟨s.store, s.workers.set i P.halted⟩) ∨
    (∃ x st, l = .env x ∧ P.env s.store x = some st ∧ t = ⟨st, s.workers⟩) := by
  cases l with
  | spawn p =>
    simp only [machine, step, Option.ite_none_right_eq_some, Option.some.injEq] at h
    exact .inl ⟨p, rfl, h.1, h.2.symm⟩
  | act i e =>
    obtain ⟨p, hp, h⟩ := Option.bind_eq_some_iff.mp h
    obtain ⟨⟨st, q⟩, hq, rfl⟩ := Option.map_eq_some_iff.mp h
    exact .inr (.inl ⟨i, e, p, st, q, rfl, hp, hq, rfl⟩)
  | die i =>
    simp only [machine, step, Option.some.injEq] at h
    exact .inr (.inr (.inl ⟨i, rfl, h.symm⟩))
  | env x =>
    obtain ⟨st, hst, rfl⟩ := Option.map_eq_some_iff.mp h
    exact .inr (.inr (.inr ⟨x, st, rfl, hst, rfl⟩))

/-- The worker that a step activates, and what is left of it. -/
theorem act_cases {s t : Pool.State σ φ} {i : ℕ} {e : ε}
    (h : P.machine.step s (.act i e) = some t) :
    ∃ p st q, s.workers[i]? = some p ∧ P.act s.store p e = some (st, q) ∧ t.store = st ∧
      t.workers[i]? = some q := by
  obtain ⟨p, hp, h⟩ := Option.bind_eq_some_iff.mp h
  obtain ⟨r, hr, rfl⟩ := Option.map_eq_some_iff.mp h
  obtain ⟨hlt, -⟩ := List.getElem?_eq_some_iff.mp hp
  exact ⟨p, r.1, r.2, hp, hr, rfl, by simp [hlt]⟩

/-- The step of a known worker. -/
theorem step_act {s t : Pool.State σ φ} {i : ℕ} {e : ε} {p : φ} (hp : s.workers[i]? = some p)
    (h : P.machine.step s (.act i e) = some t) :
    ∃ st q, P.act s.store p e = some (st, q) ∧ t.store = st ∧ t.workers[i]? = some q := by
  obtain ⟨p', st, q, hp', hact, hst, hq⟩ := act_cases h
  obtain rfl : p = p' := Option.some.inj (hp.symm.trans hp')
  exact ⟨st, q, hact, hst, hq⟩

/-- Rely-guarantee: `I` is kept on the store and `J` for every worker, when each block keeps
`I`, establishes its own next assertion and does not break the assertion of any other. -/
theorem invariant {I : σ → Prop} {J : σ → φ → Prop}
    (start : ∀ st, P.Init st → I st)
    (entry : ∀ st p, I st → P.entry p = true → J st p)
    (halted : ∀ st, I st → J st P.halted)
    (act : ∀ st p e st' p', I st → J st p → P.act st p e = some (st', p') →
      I st' ∧ J st' p' ∧ ∀ q, J st q → J st' q)
    (env : ∀ st x st', I st → P.env st x = some st' → I st' ∧ ∀ q, J st q → J st' q)
    {s : Pool.State σ φ} (h : P.machine.Reachable s) :
    I s.store ∧ ∀ p ∈ s.workers, J s.store p := by
  refine h.invariant (I := fun s => I s.store ∧ ∀ p ∈ s.workers, J s.store p)
    (fun s₀ h₀ => ⟨start _ h₀.1, by simp [h₀.2]⟩) ?_
  rintro u l v - ⟨hI, hJ⟩ hstep
  obtain ⟨p, -, hp, rfl⟩ | ⟨i, e, p, st, q, -, hp, hact, rfl⟩ | ⟨i, -, rfl⟩ |
    ⟨x, st, -, henv, rfl⟩ := step_cases hstep
  · refine ⟨hI, fun q hq => ?_⟩
    rcases List.mem_append.mp hq with hq | hq
    · exact hJ q hq
    · exact List.mem_singleton.mp hq ▸ entry _ p hI hp
  · obtain ⟨hI', hq', frame⟩ := act _ _ _ _ _ hI (hJ p (List.mem_of_getElem? hp)) hact
    refine ⟨hI', fun r hr => ?_⟩
    rcases List.mem_or_eq_of_mem_set hr with hr | rfl
    · exact frame r (hJ r hr)
    · exact hq'
  · refine ⟨hI, fun r hr => ?_⟩
    rcases List.mem_or_eq_of_mem_set hr with hr | rfl
    · exact hJ r hr
    · exact halted _ hI
  · obtain ⟨hI', frame⟩ := env _ _ _ hI henv
    exact ⟨hI', fun r hr => frame r (hJ r hr)⟩

/-- The same rule for the runs whose steps all meet a condition on the store and the workers. -/
theorem invariant_under {C : Pool.State σ φ → Pool.Label φ ε η → Prop} [∀ s l, Decidable (C s l)]
    {I : σ → Prop} {J : σ → φ → Prop}
    (start : ∀ st, P.Init st → I st)
    (entry : ∀ st p, I st → P.entry p = true → J st p)
    (halted : ∀ st, I st → J st P.halted)
    (act : ∀ (s : Pool.State σ φ) (i : ℕ) p e st q, C s (.act i e) → I s.store →
      (∀ r ∈ s.workers, J s.store r) → s.workers[i]? = some p → P.act s.store p e = some (st, q) →
      I st ∧ J st q ∧ ∀ j r, j ≠ i → s.workers[j]? = some r → J st r)
    (env : ∀ (s : Pool.State σ φ) x st, C s (.env x) → I s.store → (∀ r ∈ s.workers, J s.store r) →
      P.env s.store x = some st → I st ∧ ∀ r ∈ s.workers, J st r)
    {s : Pool.State σ φ} (h : (P.machine.under C).Reachable s) :
    I s.store ∧ ∀ p ∈ s.workers, J s.store p := by
  refine h.invariant (I := fun s => I s.store ∧ ∀ p ∈ s.workers, J s.store p)
    (fun s₀ h₀ => ⟨start _ h₀.1, by simp [h₀.2]⟩) ?_
  rintro u l v - ⟨hI, hJ⟩ hstep
  obtain ⟨hc, hstep⟩ := Machine.under_step.mp hstep
  obtain ⟨p, -, hp, rfl⟩ | ⟨i, e, p, st, q, rfl, hp, hact, rfl⟩ | ⟨i, -, rfl⟩ |
    ⟨x, st, rfl, henv, rfl⟩ := step_cases hstep
  · refine ⟨hI, fun q hq => ?_⟩
    rcases List.mem_append.mp hq with hq | hq
    · exact hJ q hq
    · exact List.mem_singleton.mp hq ▸ entry _ p hI hp
  · obtain ⟨hI', hq', frame⟩ := act u i p e st q hc hI hJ hp hact
    refine ⟨hI', fun r hr => ?_⟩
    obtain ⟨j, hj⟩ := List.getElem?_of_mem hr
    by_cases hij : j = i
    · subst hij
      rw [List.getElem?_set_self (List.getElem?_eq_some_iff.mp hp).1] at hj
      exact Option.some.inj hj ▸ hq'
    · rw [List.getElem?_set_ne (Ne.symm hij)] at hj
      exact frame j r hij hj
  · refine ⟨hI, fun r hr => ?_⟩
    rcases List.mem_or_eq_of_mem_set hr with hr | rfl
    · exact hJ r hr
    · exact halted _ hI
  · exact env u x st hc hI hJ henv

theorem getElem?_set_cases {ps : List φ} {i j : ℕ} {q r : φ} (h : (ps.set i q)[j]? = some r) :
    j = i ∧ r = q ∨ j ≠ i ∧ ps[j]? = some r := by
  by_cases hij : j = i
  · subst hij
    rw [List.getElem?_set_self'] at h
    obtain ⟨_, _, hr⟩ := Option.map_eq_some_iff.mp h
    exact .inl ⟨rfl, hr.symm⟩
  · rw [List.getElem?_set_ne (Ne.symm hij)] at h
    exact .inr ⟨hij, h⟩

/-- No key is held by two workers. -/
def HeldOnce {κ : Type*} (holds : φ → Option κ) (ps : List φ) : Prop :=
  ∀ (i j : ℕ) p q k, ps[i]? = some p → ps[j]? = some q → holds p = some k → holds q = some k → i = j

section HeldOnce

variable {κ : Type*} {holds : φ → Option κ} {ps : List φ} {i : ℕ} {p q : φ}

theorem HeldOnce.append (h : HeldOnce holds ps) (hp : holds p = none) :
    HeldOnce holds (ps ++ [p]) := by
  have hold : ∀ (i : ℕ) a k, (ps ++ [p])[i]? = some a → holds a = some k → ps[i]? = some a := by
    intro i a k ha hak
    rw [List.getElem?_append] at ha
    split at ha
    · exact ha
    · obtain rfl : a = p := List.mem_singleton.mp (List.mem_of_getElem? ha)
      cases hp.symm.trans hak
  intro i j a b k ha hb hak hbk
  exact h i j a b k (hold i a k ha hak) (hold j b k hb hbk) hak hbk

theorem HeldOnce.set (h : HeldOnce holds ps)
    (hq : ∀ (j : ℕ) r k, j ≠ i → ps[j]? = some r → holds r = some k → holds q ≠ some k) :
    HeldOnce holds (ps.set i q) := by
  intro j j' a b k ha hb hak hbk
  obtain ⟨rfl, rfl⟩ | ⟨hj, ha'⟩ := getElem?_set_cases ha
  · obtain ⟨rfl, -⟩ | ⟨hj', hb'⟩ := getElem?_set_cases hb
    · rfl
    · exact absurd hak (hq j' b k hj' hb' hbk)
  · obtain ⟨rfl, rfl⟩ | ⟨-, hb'⟩ := getElem?_set_cases hb
    · exact absurd hbk (hq j a k hj ha' hak)
    · exact h j j' a b k ha' hb' hak hbk

end HeldOnce

/-- Ownership: a worker holds at most one key, and comes to hold a new one only if nobody else holds
it. Then no key is held twice, and a block has to keep the assertions only of those workers that do
not hold its key. -/
theorem invariant_owned {κ : Type*} {I : σ → Prop} {J : σ → φ → Prop} (holds : φ → Option κ)
    (start : ∀ st, P.Init st → I st)
    (entry : ∀ st p, I st → P.entry p = true → J st p ∧ holds p = none)
    (halted : ∀ st, I st → J st P.halted) (idle : holds P.halted = none)
    (act : ∀ st p e st' q, I st → J st p → P.act st p e = some (st', q) →
      I st' ∧ J st' q ∧ (holds q = none ∨ holds q = holds p ∨ ∀ r, J st r → holds r ≠ holds q) ∧
        ∀ r, J st r → (∀ k, holds r = some k → holds p ≠ some k) → J st' r)
    (env : ∀ st x st', I st → P.env st x = some st' → I st' ∧ ∀ r, J st r → J st' r)
    {s : Pool.State σ φ} (h : P.machine.Reachable s) :
    (I s.store ∧ ∀ p ∈ s.workers, J s.store p) ∧ HeldOnce holds s.workers := by
  refine h.invariant (I := fun s =>
    (I s.store ∧ ∀ p ∈ s.workers, J s.store p) ∧ HeldOnce holds s.workers)
    (fun s₀ h₀ => ⟨⟨start _ h₀.1, by simp [h₀.2]⟩, by simp [HeldOnce, h₀.2]⟩) ?_
  rintro u l v - ⟨⟨hI, hJ⟩, hone⟩ hstep
  obtain ⟨p, -, hp, rfl⟩ | ⟨i, e, p, st, q, -, hp, hact, rfl⟩ | ⟨i, -, rfl⟩ |
    ⟨x, st, -, henv, rfl⟩ := step_cases hstep
  · obtain ⟨hentry, hidle⟩ := entry _ p hI hp
    refine ⟨⟨hI, fun q hq => ?_⟩, hone.append hidle⟩
    rcases List.mem_append.mp hq with hq | hq
    · exact hJ q hq
    · exact List.mem_singleton.mp hq ▸ hentry
  · obtain ⟨hI', hq, hkeys, frame⟩ := act _ _ _ _ _ hI (hJ p (List.mem_of_getElem? hp)) hact
    refine ⟨⟨hI', fun r hr => ?_⟩, hone.set fun j r k hj hr hrk hqk => ?_⟩
    · obtain ⟨j, hj⟩ := List.getElem?_of_mem hr
      rcases getElem?_set_cases hj with ⟨-, rfl⟩ | ⟨hji, hj⟩
      · exact hq
      · refine frame r (hJ r (List.mem_of_getElem? hj)) fun k hrk hpk => hji ?_
        exact hone j i r p k hj hp hrk hpk
    · rcases hkeys with hnone | hsame | hfresh
      · cases hnone.symm.trans hqk
      · exact hj (hone j i r p k hr hp hrk (hsame.symm.trans hqk))
      · exact hfresh r (hJ r (List.mem_of_getElem? hr)) (hrk.trans hqk.symm)
  · refine ⟨⟨hI, fun r hr => ?_⟩, hone.set fun j r k _ _ _ hk => nomatch idle.symm.trans hk⟩
    rcases List.mem_or_eq_of_mem_set hr with hr | rfl
    · exact hJ r hr
    · exact halted _ hI
  · obtain ⟨hI', frame⟩ := env _ _ _ hI henv
    exact ⟨⟨hI', fun r hr => frame r (hJ r hr)⟩, hone⟩

/-- What every block and every environment transaction of a reachable state keeps of the store. -/
theorem reachable_invariant {I : σ → Prop} (start : ∀ st, P.Init st → I st)
    (act : ∀ (s : Pool.State σ φ) (i : ℕ) p e st q, P.machine.Reachable s →
      s.workers[i]? = some p → I s.store → P.act s.store p e = some (st, q) → I st)
    (env : ∀ (s : Pool.State σ φ) x st, P.machine.Reachable s → I s.store →
      P.env s.store x = some st → I st)
    {s : Pool.State σ φ} (h : P.machine.Reachable s) : I s.store := by
  refine h.invariant (I := fun s => I s.store) (fun s₀ h₀ => start _ h₀.1) ?_
  intro u l v hu ih hstep
  obtain ⟨p, -, -, rfl⟩ | ⟨i, e, p, st, q, -, hp, hact, rfl⟩ | ⟨i, -, rfl⟩ |
    ⟨x, st, -, henv, rfl⟩ := step_cases hstep
  · exact ih
  · exact act u i p e st q hu hp ih hact
  · exact ih
  · exact env u x st hu ih henv

/-- What every block and every environment transaction keeps of the store. -/
theorem store_invariant {I : σ → Prop} (start : ∀ st, P.Init st → I st)
    (act : ∀ st p e st' p', I st → P.act st p e = some (st', p') → I st')
    (env : ∀ st x st', I st → P.env st x = some st' → I st')
    {s : Pool.State σ φ} (h : P.machine.Reachable s) : I s.store :=
  (invariant (J := fun _ _ => True) start (fun _ _ _ _ => trivial) (fun _ _ => trivial)
    (fun st p e st' p' hI _ hact => ⟨act st p e st' p' hI hact, trivial, fun _ _ => trivial⟩)
    (fun st x st' hI henv => ⟨env st x st' hI henv, fun _ _ => trivial⟩) h).1

/-! ## Programs whose blocks all meet a condition -/

/-- The program whose workers only take the steps that satisfy `C`. -/
def under (P : Program σ φ ε η) (C : σ → φ → ε → Prop) [∀ st p e, Decidable (C st p e)] :
    Program σ φ ε η :=
  { P with act := fun st p e => if C st p e then P.act st p e else none }

section Under

variable {C : σ → φ → ε → Prop} [∀ st p e, Decidable (C st p e)]

theorem under_act {st st' : σ} {p q : φ} {e : ε} :
    (P.under C).act st p e = some (st', q) ↔ C st p e ∧ P.act st p e = some (st', q) := by
  simp [under]

theorem step_of_under {s t : Pool.State σ φ} {l : Pool.Label φ ε η}
    (h : (P.under C).machine.step s l = some t) : P.machine.step s l = some t := by
  cases l with
  | spawn p => exact h
  | act i e =>
    obtain ⟨p, hp, h⟩ := Option.bind_eq_some_iff.mp h
    obtain ⟨r, hr, rfl⟩ := Option.map_eq_some_iff.mp h
    refine Option.bind_eq_some_iff.mpr ⟨p, hp, ?_⟩
    exact Option.map_eq_some_iff.mpr ⟨r, (under_act.mp hr).2, rfl⟩
  | die i => exact h
  | env x => exact h

theorem reachable_of_under {s : Pool.State σ φ} (h : (P.under C).machine.Reachable s) :
    P.machine.Reachable s :=
  h.invariant (I := P.machine.Reachable) (fun _ h₀ => .start h₀)
    fun _ _ _ _ hu hstep => hu.step (step_of_under hstep)

end Under

/-! ## Work in progress -/

section Work

variable {κ : Type*} {C : Pool.State σ φ → Pool.Label φ ε η → Prop} [∀ s l, Decidable (C s l)]

/-- What is due is done or in the hands of a worker, if no worker dies with work in its hands. -/
theorem done_or_held (due done : σ → κ → Prop) (holds : φ → κ → Prop)
    (start : ∀ st k, P.Init st → due st k → done st k)
    (act : ∀ (s : Pool.State σ φ) (i : ℕ) p e st q, (P.machine.under C).Reachable s →
      C s (.act i e) → s.workers[i]? = some p → P.act s.store p e = some (st, q) →
      (∀ k, done s.store k → done st k) ∧
        ∀ k, due st k → done st k ∨ holds q k ∨ due s.store k ∧ ¬ holds p k)
    (env : ∀ (s : Pool.State σ φ) x st, (P.machine.under C).Reachable s →
      P.env s.store x = some st →
      ∀ k, (done s.store k → done st k) ∧ (due st k → due s.store k ∨ done st k))
    (die : ∀ (s : Pool.State σ φ) (i : ℕ) p k, C s (.die i) → s.workers[i]? = some p → ¬ holds p k)
    {s : Pool.State σ φ} (h : (P.machine.under C).Reachable s) {k : κ} (hdue : due s.store k) :
    done s.store k ∨ ∃ p ∈ s.workers, holds p k := by
  refine Machine.Reachable.invariant
    (I := fun s => ∀ k, due s.store k → done s.store k ∨ ∃ p ∈ s.workers, holds p k) h ?_ ?_ k hdue
  · exact fun s₀ h₀ k hk => .inl (start _ k h₀.1 hk)
  · intro u l v hu ih hstep k hk
    obtain ⟨hc, hstep⟩ := Machine.under_step.mp hstep
    obtain ⟨p, -, -, rfl⟩ | ⟨i, e, p, st, q, rfl, hp, hact, rfl⟩ | ⟨i, rfl, rfl⟩ |
      ⟨x, st, -, henv, rfl⟩ := step_cases hstep
    · rcases ih k hk with hdone | ⟨q, hq, hheld⟩
      · exact .inl hdone
      · exact .inr ⟨q, List.mem_append_left _ hq, hheld⟩
    · obtain ⟨hmono, hwork⟩ := act u i p e st q hu hc hp hact
      have hq : q ∈ u.workers.set i q := List.mem_set (List.getElem?_eq_some_iff.mp hp).1 q
      rcases hwork k hk with hdone | hheld | ⟨hk, hnot⟩
      · exact .inl hdone
      · exact .inr ⟨q, hq, hheld⟩
      · rcases ih k hk with hdone | ⟨r, hr, hheld⟩
        · exact .inl (hmono k hdone)
        · obtain ⟨j, hj⟩ := List.getElem?_of_mem hr
          have hij : i ≠ j := by
            rintro rfl
            obtain rfl : p = r := Option.some.inj (hp.symm.trans hj)
            exact hnot hheld
          exact .inr ⟨r, List.mem_of_getElem? ((List.getElem?_set_ne hij).trans hj), hheld⟩
    · rcases ih k hk with hdone | ⟨r, hr, hheld⟩
      · exact .inl hdone
      · obtain ⟨j, hj⟩ := List.getElem?_of_mem hr
        have hij : i ≠ j := by
          rintro rfl
          exact die u i r k hc hj hheld
        exact .inr ⟨r, List.mem_of_getElem? ((List.getElem?_set_ne hij).trans hj), hheld⟩
    · obtain ⟨hmono, hnew⟩ := env u x st hu henv k
      rcases hnew hk with hk | hdone
      · exact (ih k hk).imp_left hmono
      · exact .inl hdone

end Work

/-! ## Permits -/

section Permits

variable {G : Type*} [AddCommGroup G]

theorem sum_set {w : φ → G} {ps : List φ} {i : ℕ} {p : φ} (q : φ) (h : ps[i]? = some p) :
    ((ps.set i q).map w).sum = (ps.map w).sum - w p + w q := by
  induction ps generalizing i with
  | nil => simp at h
  | cons r ps ih =>
    cases i with
    | zero =>
      simp only [List.getElem?_cons_zero, Option.some.injEq] at h
      subst h
      simp only [List.set_cons_zero, List.map_cons, List.sum_cons]
      abel
    | succ i =>
      simp only [List.getElem?_cons_succ] at h
      simp only [List.set_cons_succ, List.map_cons, List.sum_cons, ih h]
      abel

variable [PartialOrder G] [IsOrderedAddMonoid G]

/-- Permit accounting. Weights are not negative, so a dying worker only gives permits up. -/
theorem covered (w : φ → G) (spent granted : σ → G)
    (start : ∀ st, P.Init st → spent st ≤ granted st)
    (entry : ∀ p, P.entry p = true → w p = 0) (halted : w P.halted = 0) (nonneg : ∀ p, 0 ≤ w p)
    (act : ∀ (s : Pool.State σ φ) (i : ℕ) p e st q, P.machine.Reachable s →
      s.workers[i]? = some p → P.act s.store p e = some (st, q) →
      w q + spent st + granted s.store ≤ w p + spent s.store + granted st)
    (env : ∀ (s : Pool.State σ φ) x st, P.machine.Reachable s → P.env s.store x = some st →
      spent st + granted s.store ≤ spent s.store + granted st)
    {s : Pool.State σ φ} (h : P.machine.Reachable s) :
    (s.workers.map w).sum + spent s.store ≤ granted s.store := by
  refine h.invariant (I := fun s => (s.workers.map w).sum + spent s.store ≤ granted s.store)
    (fun s₀ h₀ => by simpa [h₀.2] using start _ h₀.1) ?_
  intro u l v hu ih hstep
  obtain ⟨p, -, hp, rfl⟩ | ⟨i, e, p, st, q, -, hp, hact, rfl⟩ | ⟨i, -, rfl⟩ |
    ⟨x, st, -, henv, rfl⟩ := step_cases hstep
  · simpa [entry p hp] using ih
  · have hle := add_le_add ih (act u i p e st q hu hp hact)
    rw [sum_set q hp, ← sub_nonneg]
    rw [← sub_nonneg] at hle
    convert hle using 1
    abel
  · cases hp : u.workers[i]? with
    | none =>
      rw [List.set_eq_of_length_le (List.getElem?_eq_none_iff.mp hp)]
      exact ih
    | some p =>
      have hp0 := nonneg p
      rw [sum_set _ hp, halted, add_zero]
      exact (add_le_add_left (sub_le_self _ hp0) _).trans ih
  · have hle := add_le_add ih (env u x st hu henv)
    rw [← sub_nonneg] at hle ⊢
    convert hle using 1
    abel

end Permits

end Program

end Civicos.Library
