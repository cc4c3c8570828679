import Mathlib.Data.List.Induction

/-!
# Labelled machines and their runs

A label carries every choice of the environment: the schedule, clock readings, random
tokens, replies of remote services. A step is then a function of the state and the label,
so runs can be evaluated; safety is proved by induction over the schedule.
-/
namespace Civicos.Library

/-- `step s l = none` means that `l` is not enabled in `s`. -/
structure Machine (S L : Type*) where
  Init : S → Prop
  step : S → L → Option S

namespace Machine

variable {S L α : Type*} {M : Machine S L} {s t u : S} {l : L} {ls : List L}

/-- Execute a schedule. -/
def run (M : Machine S L) : S → List L → Option S
  | s, [] => some s
  | s, l :: ls => (M.step s l).bind (M.run · ls)

/-- `t` occurs in some run that passes through `s` first. -/
def Later (M : Machine S L) (s t : S) : Prop := ∃ ls, M.run s ls = some t

def Reachable (M : Machine S L) (s : S) : Prop := ∃ s₀, M.Init s₀ ∧ M.Later s₀ s

@[simp] theorem run_nil : M.run s [] = some s := rfl

@[simp] theorem run_cons : M.run s (l :: ls) = (M.step s l).bind (M.run · ls) := rfl

theorem run_append (s : S) (as bs : List L) :
    M.run s (as ++ bs) = (M.run s as).bind (M.run · bs) := by
  induction as generalizing s with
  | nil => rfl
  | cons l as ih =>
    rw [List.cons_append, run_cons, run_cons, Option.bind_assoc]
    exact Option.bind_congr fun u _ => ih u

theorem Later.refl (s : S) : M.Later s s := ⟨[], rfl⟩

theorem Later.trans (h : M.Later s t) (g : M.Later t u) : M.Later s u := by
  obtain ⟨as, ha⟩ := h
  obtain ⟨bs, hb⟩ := g
  exact ⟨as ++ bs, by rw [run_append, ha]; exact hb⟩

theorem Later.single (h : M.step s l = some t) : M.Later s t := ⟨[l], by simp [h]⟩

theorem Later.tail (h : M.Later s t) (g : M.step t l = some u) : M.Later s u :=
  h.trans (.single g)

/-- Induction over a run from its end: what every step keeps, the run keeps. -/
theorem Later.induct {I : S → Prop} (h : M.Later s t) (start : I s)
    (keep : ∀ u l v, M.Later s u → I u → M.step u l = some v → I v) : I t := by
  obtain ⟨ls, hls⟩ := h
  induction ls using List.reverseRecOn generalizing t with
  | nil => simp only [run_nil, Option.some.injEq] at hls; exact hls ▸ start
  | append_singleton ls l ih =>
    rw [run_append] at hls
    obtain ⟨u, hu, hl⟩ := Option.bind_eq_some_iff.mp hls
    obtain ⟨v, hv, hvt⟩ := Option.bind_eq_some_iff.mp hl
    simp only [run_nil, Option.some.injEq] at hvt
    exact hvt ▸ keep u l v ⟨ls, hu⟩ (ih hu) hv

theorem Reachable.start (h : M.Init s) : M.Reachable s := ⟨s, h, .refl s⟩

theorem Reachable.later (h : M.Reachable s) (g : M.Later s t) : M.Reachable t := by
  obtain ⟨s₀, h₀, h⟩ := h
  exact ⟨s₀, h₀, h.trans g⟩

theorem Reachable.step (h : M.Reachable s) (g : M.step s l = some t) : M.Reachable t :=
  h.later (.single g)

theorem Reachable.of_run (h : M.Init s) (g : M.run s ls = some t) : M.Reachable t :=
  ⟨s, h, ls, g⟩

/-- The state in which a schedule ends, for evaluating runs. -/
def final (M : Machine S L) (s : S) (ls : List L) : S := (M.run s ls).getD s

theorem Later.final (s : S) (ls : List L) : M.Later s (M.final s ls) := by
  unfold Machine.final
  cases hr : M.run s ls with
  | none => exact .refl s
  | some t => exact ⟨ls, hr⟩

theorem Reachable.final (h : M.Init s) (ls : List L) : M.Reachable (M.final s ls) :=
  ⟨s, h, .final s ls⟩

theorem run_final (h : (M.run s ls).isSome = true) : M.run s ls = some (M.final s ls) := by
  obtain ⟨t, ht⟩ := Option.isSome_iff_exists.mp h
  simp [Machine.final, ht]

theorem step_final (h : (M.step s l).isSome = true) : M.step s l = some (M.final s [l]) := by
  obtain ⟨t, ht⟩ := Option.isSome_iff_exists.mp h
  simp [Machine.final, ht]

/-- An invariant holds initially and is kept by every step from a reachable state. -/
theorem Reachable.invariant {I : S → Prop} (h : M.Reachable s) (start : ∀ s₀, M.Init s₀ → I s₀)
    (keep : ∀ u l v, M.Reachable u → I u → M.step u l = some v → I v) : I s := by
  obtain ⟨s₀, h₀, h⟩ := h
  exact h.induct (start s₀ h₀) fun u l v hu => keep u l v ⟨s₀, h₀, hu⟩

/-! ## Runs whose steps all meet a condition -/

/-- The machine that only takes the steps of `M` that satisfy `C`. -/
def under (M : Machine S L) (C : S → L → Prop) [∀ s l, Decidable (C s l)] : Machine S L where
  Init := M.Init
  step s l := if C s l then M.step s l else none

section Under

variable {C : S → L → Prop} [∀ s l, Decidable (C s l)]

theorem under_step : (M.under C).step s l = some t ↔ C s l ∧ M.step s l = some t := by
  simp [under]

theorem Later.of_under (h : (M.under C).Later s t) : M.Later s t :=
  h.induct (.refl s) fun _ _ _ _ hu hv => hu.tail (under_step.mp hv).2

theorem Reachable.of_under (h : (M.under C).Reachable s) : M.Reachable s := by
  obtain ⟨s₀, h₀, h⟩ := h
  exact ⟨s₀, h₀, h.of_under⟩

/-- A property that holds after a step exactly if it held before and the step satisfies `C`: a run
that starts with it keeps it if and only if all of its steps satisfy `C`. -/
theorem kept_iff_under_of_step {I G : S → Prop} (start : I s) (good : G s)
    (inv : ∀ u l v, I u → M.step u l = some v → I v)
    (keep : ∀ u l v, I u → M.step u l = some v → (G v ↔ G u ∧ C u l)) (h : M.run s ls = some t) :
    G t ↔ (M.under C).run s ls = some t := by
  induction ls generalizing s with
  | nil =>
    simp only [run_nil, Option.some.injEq] at h
    subst h
    exact ⟨fun _ => rfl, fun _ => good⟩
  | cons l ls ih =>
    obtain ⟨u, hu, hut⟩ := Option.bind_eq_some_iff.mp h
    have hI : I u := inv s l u start hu
    by_cases hc : C s l
    · have hstep : (M.under C).step s l = some u := under_step.mpr ⟨hc, hu⟩
      rw [run_cons, hstep]
      exact ih hI ((keep s l u start hu).mpr ⟨good, hc⟩) hut
    · have hbad : I t ∧ ¬ G t := Later.induct (I := fun v => I v ∧ ¬ G v) ⟨ls, hut⟩
        ⟨hI, fun hgood => hc ((keep s l u start hu).mp hgood).2⟩ fun v l w _ hv hstep =>
          ⟨inv v l w hv.1 hstep, fun hgood => hv.2 ((keep v l w hv.1 hstep).mp hgood).1⟩
      have hstep : (M.under C).step s l = none := if_neg hc
      rw [run_cons, hstep]
      exact ⟨fun hgood => absurd hgood hbad.2, nofun⟩

/-- A property that is lost for good exactly by the steps that miss `C`: a run keeps it if and
only if all of its steps meet `C`. -/
theorem kept_iff_under {G : S → Prop} (start : G s)
    (keep : ∀ u l v, G u → M.step u l = some v → (G v ↔ C u l))
    (lost : ∀ u l v, ¬ G u → M.step u l = some v → ¬ G v) (h : M.run s ls = some t) :
    G t ↔ (M.under C).run s ls = some t := by
  refine kept_iff_under_of_step (I := fun _ => True) trivial start (fun _ _ _ _ _ => trivial) ?_ h
  intro u l v _ hstep
  by_cases hu : G u
  · rw [keep u l v hu hstep, and_iff_right hu]
  · exact iff_of_false (lost u l v hu hstep) fun hboth => hu hboth.1

/-- A property that holds in all states that a run has come through, if and only if all of its steps
meet `C`. -/
theorem always_iff_under {I G : S → Prop} (start : I s) (good : G s)
    (keep : ∀ u l v, I u → M.step u l = some v → (G v ↔ C u l) ∧ (G v → I v))
    (h : M.run s ls = some t) :
    (∀ ls' u, ls' <+: ls → M.run s ls' = some u → G u) ↔ (M.under C).run s ls = some t := by
  induction ls generalizing s with
  | nil =>
    simp only [run_nil, Option.some.injEq] at h
    subst h
    refine ⟨fun _ => rfl, fun _ ls' u hprefix hu => ?_⟩
    obtain rfl := List.prefix_nil.mp hprefix
    simp only [run_nil, Option.some.injEq] at hu
    exact hu ▸ good
  | cons l ls ih =>
    obtain ⟨u, hu, hut⟩ := Option.bind_eq_some_iff.mp h
    obtain ⟨hkeep, hinv⟩ := keep s l u start hu
    by_cases hc : C s l
    · have hgood : G u := hkeep.mpr hc
      rw [run_cons, under_step.mpr ⟨hc, hu⟩, Option.bind_some, ← ih (hinv hgood) hgood hut]
      constructor
      · intro hall ls' v hprefix hv
        refine hall (l :: ls') v (List.prefix_cons_iff.mpr (.inr ⟨ls', rfl, hprefix⟩)) ?_
        rw [run_cons, hu, Option.bind_some, hv]
      · intro hall ls' v hprefix hv
        rcases List.prefix_cons_iff.mp hprefix with rfl | ⟨ls'', rfl, hbelow⟩
        · simp only [run_nil, Option.some.injEq] at hv
          exact hv ▸ good
        · rw [run_cons, hu, Option.bind_some] at hv
          exact hall ls'' v hbelow hv
    · have hstep : (M.under C).step s l = none := if_neg hc
      rw [run_cons, hstep]
      refine ⟨fun hall => absurd (hkeep.mp (hall [l] u ?_ ?_)) hc, fun hnone => ?_⟩
      · exact List.prefix_cons_iff.mpr (.inr ⟨[], rfl, List.nil_prefix⟩)
      · rw [run_cons, hu]
        rfl
      · cases hnone

theorem run_of_under (h : (M.under C).run s ls = some t) : M.run s ls = some t := by
  induction ls generalizing s with
  | nil => exact h
  | cons l ls ih =>
    obtain ⟨u, hu, hut⟩ := Option.bind_eq_some_iff.mp h
    rw [run_cons, (under_step.mp hu).2]
    exact ih hut

/-- Part of a run under a condition. -/
theorem run_under_prefix {ls' : List L} (h : (M.under C).run s (ls ++ ls') = some t)
    (hu : M.run s ls = some u) : (M.under C).run s ls = some u := by
  rw [run_append] at h
  obtain ⟨v, hv, -⟩ := Option.bind_eq_some_iff.mp h
  rw [hv, ← hu, run_of_under hv]

end Under

/-- How many steps of a schedule satisfy `p` in the states in which they are taken. -/
def count (M : Machine S L) (p : S → L → Bool) : S → List L → ℕ
  | _, [] => 0
  | s, l :: ls =>
    match M.step s l with
    | none => 0
    | some t => (if p s l then 1 else 0) + M.count p t ls

theorem count_cons {p : S → L → Bool} (h : M.step s l = some t) :
    M.count p s (l :: ls) = (if p s l then 1 else 0) + M.count p t ls := by
  simp only [count, h]

/-! ## The values an observation takes along a run -/

/-- The successive distinct values of `f` after the first state of a run. -/
def history [DecidableEq α] (M : Machine S L) (f : S → Option α) : S → List L → List α
  | _, [] => []
  | s, l :: ls =>
    match M.step s l with
    | none => []
    | some t => (if f t = f s then [] else (f t).toList) ++ M.history f t ls

/-- A log that grows by the new value exactly when the observation changes is the
observation's history. -/
theorem log_eq_history [DecidableEq α] {f : S → Option α} {log : S → List α}
    {I : S → Prop} (start : I s) (keep : ∀ u l v, I u → M.step u l = some v → I v)
    (grow : ∀ u l v, I u → M.step u l = some v →
      log v = log u ++ (if f v = f u then [] else (f v).toList))
    (h : M.run s ls = some t) : log t = log s ++ M.history f s ls := by
  induction ls generalizing s with
  | nil => simp only [run_nil, Option.some.injEq] at h; simp [h, history]
  | cons l ls ih =>
    obtain ⟨u, hu, hut⟩ := Option.bind_eq_some_iff.mp h
    rw [ih (keep s l u start hu) hut, grow s l u start hu, List.append_assoc]
    simp [history, hu]

/-- What `g` sees in the steps of a run, in order. -/
def collect (M : Machine S L) (g : S → S → List α) : S → List L → List α
  | _, [] => []
  | s, l :: ls =>
    match M.step s l with
    | none => []
    | some t => g s t ++ M.collect g t ls

/-- A log to which each step adds what `g` sees in it. -/
theorem log_eq_collect {g : S → S → List α} {log : S → List α} {I : S → Prop} (start : I s)
    (keep : ∀ u l v, I u → M.step u l = some v → I v)
    (grow : ∀ u l v, I u → M.step u l = some v → log v = log u ++ g u v)
    (h : M.run s ls = some t) : log t = log s ++ M.collect g s ls := by
  induction ls generalizing s with
  | nil => simp only [run_nil, Option.some.injEq] at h; simp [h, collect]
  | cons l ls ih =>
    obtain ⟨u, hu, hut⟩ := Option.bind_eq_some_iff.mp h
    rw [ih (keep s l u start hu) hut, grow s l u start hu, List.append_assoc]
    simp [collect, hu]

end Machine

/-! ## Runs of a step function -/

section Along

variable {σ α β : Type*} {step : σ → α → σ} {P Q : σ → α → Prop} {s : σ} {as : List α}

/-- Every step of the run from `s` is taken where `P` holds. -/
def Along (step : σ → α → σ) (P : σ → α → Prop) : σ → List α → Prop
  | _, [] => True
  | s, a :: as => P s a ∧ Along step P (step s a) as

theorem along_congr (h : ∀ s a, P s a ↔ Q s a) (s : σ) (as : List α) :
    Along step P s as ↔ Along step Q s as := by
  induction as generalizing s with
  | nil => exact Iff.rfl
  | cons a as ih => exact and_congr (h s a) (ih (step s a))

/-- What every step leaves alone, the run leaves alone. -/
theorem Along.foldl {f : σ → β} {allowed : α → Prop} (h : Along step P s as)
    (hstep : ∀ s a, P s a → allowed a → f (step s a) = f s) (has : ∀ a ∈ as, allowed a) :
    f (as.foldl step s) = f s := by
  induction as generalizing s with
  | nil => rfl
  | cons a as ih =>
    have hrest := ih h.2 fun b hb => has b (List.mem_cons_of_mem _ hb)
    exact hrest.trans (hstep s a h.1 (has a List.mem_cons_self))

end Along

end Civicos.Library
