import Mathlib.Logic.Relation

/-!
# Transactions

A transaction reads and rewrites a store, or raises and leaves it as it was. Two kinds of
specification are used: `bind_ok` and its companions take a successful run apart, and
`Within R` says that every successful run relates the store before to the store after.
-/
namespace Civicos.Library

abbrev Transaction (ε σ : Type) := StateT σ (Except ε)

/-- A part of a store that can be read and replaced on its own. -/
structure Lens (σ τ : Type) where
  get : σ → τ
  set : τ → σ → σ
  get_set : ∀ t s, get (set t s) = t
  set_get : ∀ s, set (get s) s = s
  set_set : ∀ t u s, set t (set u s) = set t s

namespace Transaction

variable {ε σ τ α β : Type} {x : Transaction ε σ α} {f : α → Transaction ε σ β}
  {s t : σ} {a : α} {b : β} {e : ε}

/-- The answer of a transaction and the store that it leaves. -/
def commit (x : Transaction ε σ α) (s : σ) : Except ε α × σ :=
  match x s with
  | .ok (a, t) => (.ok a, t)
  | .error e => (.error e, s)

/-- Run on a part of a larger store. -/
def zoom (ℓ : Lens τ σ) (x : Transaction ε σ α) : Transaction ε τ α := fun s =>
  match x (ℓ.get s) with
  | .ok (a, t) => .ok (a, ℓ.set t s)
  | .error e => .error e

theorem pure_ok {a' : α} : (pure a : Transaction ε σ α) s = .ok (a', t) ↔ a' = a ∧ t = s := by
  constructor
  · rintro ⟨⟩
    exact ⟨rfl, rfl⟩
  · rintro ⟨rfl, rfl⟩
    rfl

theorem bind_apply : (x >>= f) s = (x s).bind fun r => f r.1 r.2 := rfl

theorem bind_ok : (x >>= f) s = .ok (b, t) ↔ ∃ a u, x s = .ok (a, u) ∧ f a u = .ok (b, t) := by
  rw [bind_apply]
  cases h : x s with
  | error e => simp [Except.bind]
  | ok r =>
    constructor
    · exact fun h => ⟨r.1, r.2, rfl, h⟩
    · rintro ⟨a, u, ⟨⟩, hf⟩
      exact hf

@[simp] theorem pure_apply : (pure a : Transaction ε σ α) s = .ok (a, s) := rfl

@[simp] theorem get_apply : (get : Transaction ε σ σ) s = .ok (s, s) := rfl

@[simp] theorem set_apply : (set t : Transaction ε σ PUnit) s = .ok (⟨⟩, t) := rfl

@[simp] theorem modify_apply {g : σ → σ} : (modify g : Transaction ε σ PUnit) s = .ok (⟨⟩, g s) :=
  rfl

@[simp] theorem throw_apply : (throw e : Transaction ε σ α) s = .error e := rfl

theorem bind_of_ok {u : σ} (h : x s = .ok (a, u)) : (x >>= f) s = f a u := by
  rw [bind_apply, h]
  rfl

theorem bind_of_error (h : x s = .error e) : (x >>= f) s = .error e := by
  rw [bind_apply, h]
  rfl

theorem bind_error :
    (x >>= f) s = .error e ↔ x s = .error e ∨ ∃ a u, x s = .ok (a, u) ∧ f a u = .error e := by
  rw [bind_apply]
  cases h : x s with
  | error e' => simp [Except.bind]
  | ok r =>
    constructor
    · exact fun h => .inr ⟨r.1, r.2, rfl, h⟩
    · rintro (⟨⟨⟩⟩ | ⟨a, u, ⟨⟩, hf⟩)
      exact hf

/-- What follows a check has passed it. -/
theorem guard_ok {c : Prop} [Decidable c] {k : Unit → Transaction ε σ β}
    (h : (if c then throw e >>= k else k ()) s = .ok (b, t)) : ¬ c ∧ k () s = .ok (b, t) := by
  by_cases hc : c
  · rw [if_pos hc, bind_of_error throw_apply] at h
    cases h
  · rw [if_neg hc] at h
    exact ⟨hc, h⟩

theorem lift_apply {x : Except ε α} :
    (liftM x : Transaction ε σ α) s = x.bind fun a => .ok (a, s) := rfl

theorem lift_ok {x : Except ε α} :
    (liftM x : Transaction ε σ α) s = .ok (a, t) ↔ x = .ok a ∧ t = s := by
  rw [lift_apply]
  cases x with
  | error e => simp [Except.bind]
  | ok a' => simp [Except.bind, eq_comm]

theorem lift_error {x : Except ε α} :
    (liftM x : Transaction ε σ α) s = .error e ↔ x = .error e := by
  rw [lift_apply]
  cases x with
  | error e' => simp [Except.bind]
  | ok a => simp [Except.bind]

theorem zoom_ok {ℓ : Lens τ σ} {s t : τ} :
    zoom ℓ x s = .ok (a, t) ↔ ∃ u, x (ℓ.get s) = .ok (a, u) ∧ t = ℓ.set u s := by
  unfold zoom
  cases h : x (ℓ.get s) with
  | error e => simp
  | ok r =>
    simp only [Except.ok.injEq, Prod.mk.injEq]
    constructor
    · rintro ⟨rfl, rfl⟩
      exact ⟨r.2, rfl, rfl⟩
    · rintro ⟨u, rfl, rfl⟩
      exact ⟨rfl, rfl⟩

theorem zoom_error {ℓ : Lens τ σ} {s : τ} : zoom ℓ x s = .error e ↔ x (ℓ.get s) = .error e := by
  unfold zoom
  cases h : x (ℓ.get s) with
  | error e' => simp
  | ok r => simp

theorem commit_of_ok (h : x s = .ok (a, t)) : commit x s = (.ok a, t) := by simp [commit, h]

theorem commit_of_error (h : x s = .error e) : commit x s = (.error e, s) := by simp [commit, h]

theorem commit_ok (h : commit x s = (.ok a, t)) : x s = .ok (a, t) := by
  cases hrun : x s with
  | error e =>
    rw [commit_of_error hrun] at h
    cases h
  | ok r =>
    rw [commit_of_ok (a := r.1) (t := r.2) hrun] at h
    cases h
    rfl

theorem commit_error (h : commit x s = (.error e, t)) : t = s := by
  cases hrun : x s with
  | error e' =>
    rw [commit_of_error hrun] at h
    exact (Prod.mk.inj h).2.symm
  | ok r =>
    rw [commit_of_ok (a := r.1) (t := r.2) hrun] at h
    cases h

/-- A transaction that leaves the store as it was, or raises. -/
theorem commit_same {r : Except ε α} (hx : ∀ a t, x s = .ok (a, t) → t = s)
    (h : commit x s = (r, t)) : t = s := by
  cases r with
  | error e => exact commit_error h
  | ok a => exact hx a t (commit_ok h)

/-- Whether a transaction returns. -/
def Returns (x : Transaction ε σ α) (s : σ) : Prop := ∃ r, x s = .ok r

theorem returns_bind :
    Returns (x >>= f) s ↔ ∃ a t, x s = .ok (a, t) ∧ Returns (f a) t := by
  constructor
  · rintro ⟨⟨b, u⟩, h⟩
    obtain ⟨a, t, hx, hf⟩ := bind_ok.mp h
    exact ⟨a, t, hx, _, hf⟩
  · rintro ⟨a, t, hx, ⟨b, u⟩, hf⟩
    exact ⟨_, bind_ok.mpr ⟨a, t, hx, hf⟩⟩

theorem returns_bind_of_ok (h : x s = .ok (a, t)) : Returns (x >>= f) s ↔ Returns (f a) t := by
  unfold Returns
  rw [bind_of_ok h]

@[simp] theorem returns_pure : Returns (pure a : Transaction ε σ α) s := ⟨_, rfl⟩

@[simp] theorem returns_throw : ¬ Returns (throw e : Transaction ε σ α) s := by
  rintro ⟨r, h⟩
  cases h

theorem returns_get {g : σ → Transaction ε σ β} : Returns (get >>= g) s ↔ Returns (g s) s := Iff.rfl

theorem returns_guard {c : Prop} [Decidable c] {k : Unit → Transaction ε σ β} :
    Returns (if c then throw e >>= k else k ()) s ↔ ¬ c ∧ Returns (k ()) s := by
  by_cases hc : c
  · rw [if_pos hc]
    refine iff_of_false ?_ fun h => h.1 hc
    rintro ⟨r, h⟩
    rw [bind_of_error throw_apply] at h
    cases h
  · rw [if_neg hc]
    exact (and_iff_right hc).symm

/-! ## Relational specifications -/

/-- Every successful run of `x` relates the stores at its two ends. -/
def Within (R : σ → σ → Prop) (x : Transaction ε σ α) : Prop :=
  ∀ s a t, x s = .ok (a, t) → R s t

namespace Within

variable {R Q : σ → σ → Prop}

theorem mono (hx : Within R x) (h : ∀ s t, R s t → Q s t) : Within Q x :=
  fun s a t hs => h s t (hx s a t hs)

theorem pure [Std.Refl R] (a : α) : Within R (Pure.pure a : Transaction ε σ α) := by
  rintro s b t ⟨⟩
  exact Std.Refl.refl s

theorem throw (e : ε) : Within R (MonadExcept.throw e : Transaction ε σ α) := by
  rintro s a t ⟨⟩

theorem bind [IsTrans σ R] (hx : Within R x) (hf : ∀ a, Within R (f a)) : Within R (x >>= f) := by
  intro s b t h
  obtain ⟨a, u, hx', hf'⟩ := bind_ok.mp h
  exact IsTrans.trans _ _ _ (hx _ _ _ hx') (hf _ _ _ _ hf')

theorem get_bind {f : σ → Transaction ε σ β} (hf : ∀ s b t, f s s = .ok (b, t) → R s t) :
    Within R (MonadState.get >>= f) :=
  fun s b t h => hf s b t h

theorem get {f : σ → Transaction ε σ β} (hf : ∀ s, Within R (f s)) :
    Within R (MonadState.get >>= f) :=
  .get_bind fun s => hf s s

theorem throw_bind {f : α → Transaction ε σ β} (e : ε) :
    Within R (MonadExcept.throw e >>= f) := by
  rintro s b t ⟨⟩

theorem ite {c : Prop} [Decidable c] {x y : Transaction ε σ α} (hx : c → Within R x)
    (hy : ¬ c → Within R y) : Within R (if c then x else y) := by
  by_cases h : c
  · simpa [h] using hx h
  · simpa [h] using hy h

theorem commit [Std.Refl R] (hx : Within R x) (s : σ) : R s (commit x s).2 := by
  cases h : x s with
  | error e => rw [commit_of_error h]; exact Std.Refl.refl s
  | ok r => rw [commit_of_ok (a := r.1) (t := r.2) h]; exact hx s r.1 r.2 h

theorem zoom {ℓ : Lens τ σ} {Q : τ → τ → Prop} (hx : Within R x)
    (h : ∀ s u, R (ℓ.get s) u → Q s (ℓ.set u s)) : Within Q (zoom ℓ x) := by
  intro s a t hs
  obtain ⟨u, hu, rfl⟩ := zoom_ok.mp hs
  exact h s u (hx _ _ _ hu)

end Within

end Transaction

end Civicos.Library
