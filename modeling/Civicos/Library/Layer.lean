import Mathlib.Algebra.Order.BigOperators.Group.List
import Mathlib.Algebra.Order.Group.Int
import Civicos.Library.Pool

/-!
# Layers over a program

A layer adds workers of its own to a program. Their blocks read the store of the program and keep
one of their own beside it; the store of the program they change only as its environment may.

Whatever a layer does, a run of the whole is a run of the program with something beside it:
`reachable_base`. `layer_invariant` is the rule for assertions over both stores: the program has to
keep them by what its steps guarantee, each block of the layer by what it does.
-/
namespace Civicos.Library

variable {σ φ ε η τ ψ δ : Type*}

/-- Steps that a map takes to runs. -/
theorem Machine.Later.map {S S' L L' : Type*} {M : Machine S L} {N : Machine S' L'} {s t : S}
    (f : S → S') (hstep : ∀ u l v, M.step u l = some v → N.Later (f u) (f v)) (h : M.Later s t) :
    N.Later (f s) (f t) :=
  h.induct (I := fun t => N.Later (f s) (f t)) (.refl _) fun u l v _ ih huv =>
    ih.trans (hstep u l v huv)

/-- Workers `ψ` with choices `δ` and a store `τ`. What a block does to the store of the program, a
transaction of its environment does. -/
structure Layer (P : Program σ φ ε η) (τ ψ δ : Type*) where
  Init : τ → Prop
  entry : ψ → Bool
  act : σ → τ → ψ → δ → Option (σ × τ × ψ)
  conforms : ∀ {st x q d st' x' q'}, act st x q d = some (st', x', q') →
    st' = st ∨ ∃ y, P.env st y = some st'

namespace Program

/-- A program and a layer over it -/
def extend (P : Program σ φ ε η) (E : Layer P τ ψ δ) : Program (σ × τ) (φ ⊕ ψ) (ε ⊕ δ) η where
  Init s := P.Init s.1 ∧ E.Init s.2
  entry
    | .inl p => P.entry p
    | .inr q => E.entry q
  halted := .inl P.halted
  act s p e :=
    match p, e with
    | .inl p, .inl e => (P.act s.1 p e).map fun r => ((r.1, s.2), .inl r.2)
    | .inr q, .inr d => (E.act s.1 s.2 q d).map fun r => ((r.1, r.2.1), .inr r.2.2)
    | _, _ => none
  env s x := (P.env s.1 x).map fun st => (st, s.2)

/-- What the program sees of a worker: those of the layer do nothing. -/
def ofLayer (P : Program σ φ ε η) : φ ⊕ ψ → φ
  | .inl p => p
  | .inr _ => P.halted

/-- What the program sees of a state -/
def base (P : Program σ φ ε η) (s : Pool.State (σ × τ) (φ ⊕ ψ)) : Pool.State σ φ :=
  ⟨s.store.1, s.workers.map P.ofLayer⟩

section Extend

variable {P : Program σ φ ε η} {E : Layer P τ ψ δ} {s t : Pool.State (σ × τ) (φ ⊕ ψ)}
  {st : σ} {x : τ} {p : φ} {q : ψ}

/-- The two kinds of blocks -/
theorem extend_act {r : φ ⊕ ψ} {e : ε ⊕ δ} {u : σ × τ} {r' : φ ⊕ ψ}
    (h : (P.extend E).act (st, x) r e = some (u, r')) :
    (∃ p e' st' p', r = .inl p ∧ e = .inl e' ∧ P.act st p e' = some (st', p') ∧
      u = (st', x) ∧ r' = .inl p') ∨
    ∃ q d st' x' q', r = .inr q ∧ e = .inr d ∧ E.act st x q d = some (st', x', q') ∧
      u = (st', x') ∧ r' = .inr q' := by
  cases r with
  | inl p =>
    cases e with
    | inr d => cases h
    | inl e' =>
      obtain ⟨a, ha, hu⟩ := Option.map_eq_some_iff.mp h
      cases hu
      exact .inl ⟨p, e', a.1, a.2, rfl, rfl, ha, rfl, rfl⟩
  | inr q =>
    cases e with
    | inl e' => cases h
    | inr d =>
      obtain ⟨a, ha, hu⟩ := Option.map_eq_some_iff.mp h
      cases hu
      exact .inr ⟨q, d, a.1, a.2.1, a.2.2, rfl, rfl, ha, rfl, rfl⟩

theorem map_set_ofLayer (ws : List (φ ⊕ ψ)) (i : ℕ) (r : φ ⊕ ψ) :
    (ws.set i r).map P.ofLayer = (ws.map P.ofLayer).set i (P.ofLayer r) :=
  List.map_set

/-- A step of the whole is a step of the program with its layer left out, or none. A worker of the
layer starts as one of the program that dies at once. -/
theorem later_of_step (hentry : P.entry p = true) {l : Pool.Label (φ ⊕ ψ) (ε ⊕ δ) η}
    (h : (P.extend E).machine.step s l = some t) : P.machine.Later (P.base s) (P.base t) := by
  obtain ⟨r, -, hr, rfl⟩ | ⟨i, e, r, u, r', -, hr, hact, rfl⟩ | ⟨i, -, rfl⟩ |
    ⟨y, u, -, henv, rfl⟩ := step_cases h
  · cases r with
    | inl r =>
      refine .single (l := .spawn r) ?_
      have hr : P.entry r = true := hr
      simp [machine, step, hr, base, ofLayer]
    | inr q =>
      have hspawn : P.machine.step (P.base s) (.spawn p) =
          some ⟨s.store.1, s.workers.map P.ofLayer ++ [p]⟩ := by
        simp [machine, step, hentry, base]
      refine (Machine.Later.single hspawn).tail (l := .die s.workers.length) ?_
      simp [machine, step, base, ofLayer]
  · rcases extend_act (x := s.store.2) hact with
      ⟨p, e', st', p', rfl, -, hp, rfl, rfl⟩ | ⟨q, d, st', x', q', rfl, -, hq, rfl, rfl⟩
    · refine .single (l := .act i e') ?_
      simp [machine, step, base, hr, hp, ofLayer]
    · have hsame : P.base ⟨(st', x'), s.workers.set i (.inr q')⟩ = ⟨st', (P.base s).workers⟩ := by
        have hhalted : (s.workers.map P.ofLayer)[i]? = some P.halted := by
          rw [List.getElem?_map, hr]
          rfl
        simp only [base, map_set_ofLayer, ofLayer, Pool.State.mk.injEq, true_and]
        rw [← (List.getElem?_eq_some_iff.mp hhalted).2, List.set_getElem_self]
      rw [hsame]
      rcases E.conforms hq with rfl | ⟨y, hy⟩
      · exact .refl _
      · exact .single (l := .env y) (by simp [machine, step, base, hy])
  · refine .single (l := .die i) ?_
    simp [machine, step, base, extend, ofLayer]
  · obtain ⟨st', hst, rfl⟩ := Option.map_eq_some_iff.mp henv
    exact .single (l := .env y) (by simp [machine, step, base, hst])

theorem later_base (hentry : P.entry p = true) (h : (P.extend E).machine.Later s t) :
    P.machine.Later (P.base s) (P.base t) :=
  h.map P.base fun _ _ _ => later_of_step hentry

theorem reachable_base (hentry : P.entry p = true) (h : (P.extend E).machine.Reachable s) :
    P.machine.Reachable (P.base s) := by
  obtain ⟨s₀, ⟨hinit, hempty⟩, hlater⟩ := h
  have hstart : P.machine.Reachable (P.base s₀) := .start ⟨hinit.1, by simp [base, hempty]⟩
  exact hstart.later (later_base hentry hlater)

/-- What every block of a layer does to its store, the runs of the whole do. -/
theorem layer_later {Q : τ → τ → Prop} [Std.Refl Q] [IsTrans τ Q] (hentry : P.entry p = true)
    (act : ∀ (u : Pool.State σ φ) x q d st' x' q', P.machine.Reachable u →
      E.act u.store x q d = some (st', x', q') → Q x x')
    (h : (P.extend E).machine.Reachable s) (hlater : (P.extend E).machine.Later s t) :
    Q s.store.2 t.store.2 := by
  refine hlater.induct (I := fun t => Q s.store.2 t.store.2) (Std.Refl.refl _) ?_
  intro u l v hu ih hstep
  have hbase := reachable_base hentry (h.later hu)
  obtain ⟨r, -, -, rfl⟩ | ⟨i, e, r, w, r', -, -, hact, rfl⟩ | ⟨i, -, rfl⟩ |
    ⟨y, w, -, henv, rfl⟩ := step_cases hstep
  · exact ih
  · rcases extend_act (x := u.store.2) hact with
      ⟨p', e', st', p'', -, -, -, rfl, -⟩ | ⟨q, d, st', x', q', -, -, hq, rfl, -⟩
    · exact ih
    · exact IsTrans.trans _ _ _ ih (act (P.base u) _ q d st' x' q' hbase hq)
  · exact ih
  · obtain ⟨st', -, rfl⟩ := Option.map_eq_some_iff.mp henv
    exact ih

/-- Assertions on both stores and on the workers of a layer. `R` is what the steps of the program
guarantee. -/
theorem layer_invariant {R : σ → σ → Prop} {K : σ → τ → Prop} {J : σ → τ → ψ → Prop}
    (hentry : P.entry p = true)
    (guarantee : ∀ u l v, P.machine.Reachable u → P.machine.step u l = some v → R u.store v.store)
    (start : ∀ st x, P.Init st → E.Init x → K st x)
    (stable : ∀ st st' x, R st st' → K st x → K st' x ∧ ∀ q, J st x q → J st' x q)
    (entry : ∀ st x q, K st x → E.entry q = true → J st x q)
    (act : ∀ (u : Pool.State σ φ) x q d st' x' q', P.machine.Reachable u → K u.store x →
      J u.store x q → E.act u.store x q d = some (st', x', q') →
      K st' x' ∧ J st' x' q' ∧ ∀ r, J u.store x r → J st' x' r)
    (h : (P.extend E).machine.Reachable s) :
    K s.store.1 s.store.2 ∧ ∀ q, .inr q ∈ s.workers → J s.store.1 s.store.2 q := by
  refine h.invariant (I := fun s =>
    K s.store.1 s.store.2 ∧ ∀ q, .inr q ∈ s.workers → J s.store.1 s.store.2 q)
    (fun s₀ h₀ => ⟨start _ _ h₀.1.1 h₀.1.2, by simp [h₀.2]⟩) ?_
  rintro u l v hu ⟨hK, hJ⟩ hstep
  have hbase := reachable_base hentry hu
  obtain ⟨r, -, hr, rfl⟩ | ⟨i, e, r, w, r', -, hr, hact, rfl⟩ | ⟨i, -, rfl⟩ |
    ⟨y, w, -, henv, rfl⟩ := step_cases hstep
  · refine ⟨hK, fun q hq => ?_⟩
    rcases List.mem_append.mp hq with hq | hq
    · exact hJ q hq
    · obtain rfl := List.mem_singleton.mp hq
      exact entry _ _ q hK hr
  · rcases extend_act (x := u.store.2) hact with
      ⟨p', e', st', p'', rfl, -, hp, rfl, rfl⟩ | ⟨q, d, st', x', q', rfl, -, hq, rfl, rfl⟩
    · have hR : R u.store.1 st' := guarantee (P.base u) (.act i e')
        ⟨st', (u.workers.map P.ofLayer).set i p''⟩ hbase
        (by simp [machine, step, base, hr, hp, ofLayer])
      obtain ⟨hK', hJ'⟩ := stable _ _ _ hR hK
      refine ⟨hK', fun q hq => hJ' q (hJ q ?_)⟩
      rcases List.mem_or_eq_of_mem_set hq with hq | hq
      · exact hq
      · cases hq
    · obtain ⟨hK', hown, hothers⟩ := act (P.base u) _ q d st' x' q' hbase hK
        (hJ q (List.mem_of_getElem? hr)) hq
      refine ⟨hK', fun q₁ hq => ?_⟩
      rcases List.mem_or_eq_of_mem_set hq with hq | hq
      · exact hothers q₁ (hJ q₁ hq)
      · cases hq
        exact hown
  · refine ⟨hK, fun q hq => ?_⟩
    rcases List.mem_or_eq_of_mem_set hq with hq | hq
    · exact hJ q hq
    · cases hq
  · obtain ⟨st', hst, rfl⟩ := Option.map_eq_some_iff.mp henv
    have hR : R u.store.1 st' := guarantee (P.base u) (.env y) ⟨st', (P.base u).workers⟩ hbase
      (by simp [machine, step, base, hst])
    obtain ⟨hK', hJ'⟩ := stable _ _ _ hR hK
    exact ⟨hK', fun q hq => hJ' q (hJ q hq)⟩

end Extend

/-! ## Tickets -/

section Tickets

variable {κ : Type*} [DecidableEq κ] {holds : φ → Option κ} {k : κ} {ps : List φ} {i : ℕ} {p q : φ}
  {n : ℤ}

def ticket (holds : φ → Option κ) (k : κ) (p : φ) : ℤ := if holds p = some k then 1 else 0

theorem ticket_nonneg (p : φ) : 0 ≤ ticket holds k p := by
  unfold ticket
  split <;> decide

theorem spent_le {w : φ → ℤ} {granted : ℤ} (nonneg : ∀ p, 0 ≤ w p)
    (h : (ps.map w).sum + n ≤ granted) : n ≤ granted := by
  have hsum : 0 ≤ (ps.map w).sum := List.sum_nonneg fun m hm => by
    obtain ⟨p, -, rfl⟩ := List.mem_map.mp hm
    exact nonneg p
  omega

/-- Of a ticket that is issued once, a holder is the only one, and it has not been spent. -/
theorem ticket_alone (h : (ps.map (ticket holds k)).sum + n ≤ 1) (hn : 0 ≤ n)
    (hp : ps[i]? = some p) (hheld : holds p = some k) (hq : holds q ≠ some k) :
    n = 0 ∧ ∀ r ∈ ps.set i q, holds r ≠ some k := by
  have hsum := sum_set (w := ticket holds k) q hp
  have hone : ticket holds k p = 1 := if_pos hheld
  have hzero : ticket holds k q = 0 := if_neg hq
  have hrest : ∀ m ∈ (ps.set i q).map (ticket holds k), 0 ≤ m := fun m hm => by
    obtain ⟨r, -, rfl⟩ := List.mem_map.mp hm
    exact ticket_nonneg r
  have hpos := List.sum_nonneg hrest
  refine ⟨by omega, fun r hr hheld' => ?_⟩
  have hle := List.single_le_sum hrest _ (List.mem_map_of_mem hr)
  rw [show ticket holds k r = 1 from if_pos hheld'] at hle
  omega

/-- `covered`, for tickets that only workers of a layer hold -/
theorem layer_covered {P : Program σ φ ε η} {E : Layer P τ ψ δ}
    {s : Pool.State (σ × τ) (φ ⊕ ψ)} (holds : φ ⊕ ψ → Option κ) (k : κ) (spent : τ → ℤ)
    (issued : σ → τ → ℤ) (program : ∀ p, holds (.inl p) = none)
    (start : ∀ st x, P.Init st → E.Init x → spent x ≤ issued st x)
    (entry : ∀ q, E.entry q = true → holds (.inr q) = none)
    (mono : ∀ st x, (∀ p e st' p', P.act st p e = some (st', p') → issued st x ≤ issued st' x) ∧
      ∀ y st', P.env st y = some st' → issued st x ≤ issued st' x)
    (act : ∀ st x q d st' x' q', E.act st x q d = some (st', x', q') →
      ticket holds k (.inr q') + spent x' + issued st x ≤
        ticket holds k (.inr q) + spent x + issued st' x')
    (h : (P.extend E).machine.Reachable s) :
    (s.workers.map (ticket holds k)).sum + spent s.store.2 ≤ issued s.store.1 s.store.2 := by
  have hnone : ∀ r, holds r = none → ticket holds k r = 0 := fun r hr => by simp [ticket, hr]
  refine covered (P := P.extend E) (ticket holds k) (fun u => spent u.2) (fun u => issued u.1 u.2)
    (fun u hu => start _ _ hu.1 hu.2) ?_ (hnone _ (program _)) ticket_nonneg ?_ ?_ h
  · rintro (p | q) hentry
    · exact hnone _ (program p)
    · exact hnone _ (entry q hentry)
  · intro u i r e v r' _ _ hact
    rcases extend_act (x := u.store.2) hact with
      ⟨p, e', st', p', rfl, -, hp, rfl, rfl⟩ | ⟨q, d, st', x', q', rfl, -, hq, rfl, rfl⟩
    · rw [hnone _ (program p), hnone _ (program p')]
      exact add_le_add_right ((mono _ _).1 p e' st' p' hp) _
    · exact act _ _ _ _ _ _ _ hq
  · intro u y v _ henv
    obtain ⟨st', hst, rfl⟩ := Option.map_eq_some_iff.mp henv
    exact add_le_add_right ((mono _ _).2 y st' hst) _

/-- Having a property somewhere, when one entry is replaced -/
theorem exists_mem_set {Q : φ → Prop} (hp : ps[i]? = some p) :
    (∃ r ∈ ps.set i q, Q r) ∨ Q p ↔ (∃ r ∈ ps, Q r) ∨ Q q := by
  constructor
  · rintro (⟨r, hr, hQ⟩ | hQ)
    · rcases List.mem_or_eq_of_mem_set hr with hr | rfl
      · exact .inl ⟨r, hr, hQ⟩
      · exact .inr hQ
    · exact .inl ⟨p, List.mem_of_getElem? hp, hQ⟩
  · rintro (⟨r, hr, hQ⟩ | hQ)
    · obtain ⟨j, hj⟩ := List.getElem?_of_mem hr
      by_cases hij : i = j
      · subst hij
        exact .inr (Option.some.inj (hp.symm.trans hj) ▸ hQ)
      · exact .inl ⟨r, List.mem_of_getElem? ((List.getElem?_set_ne hij).trans hj), hQ⟩
    · exact .inl ⟨q, List.mem_set (List.getElem?_eq_some_iff.mp hp).1 q, hQ⟩

end Tickets

end Program

end Civicos.Library
