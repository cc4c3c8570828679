import Civicos.Library.Objects

/-!
# Triples with exceptional postconditions

`Triple P x Q E`: from a store in `P`, `x` returns into `Q` or raises an exception in `E`.
`Keeps R E x` is the form for transactions that only relate the store before to the store after;
`Keeps.triple` turns it into a triple for every assertion that `R` respects.
-/
namespace Civicos.Library.Transaction

variable {ε σ τ α β : Type}

def Triple (P : σ → Prop) (x : Transaction ε σ α) (Q : α → σ → Prop) (E : ε → Prop) : Prop :=
  ∀ s, P s → (∀ a t, x s = .ok (a, t) → Q a t) ∧ ∀ e, x s = .error e → E e

namespace Triple

variable {P P' : σ → Prop} {Q R : α → σ → Prop} {T : β → σ → Prop} {E : ε → Prop}
  {x y : Transaction ε σ α} {f : α → Transaction ε σ β} {a : α} {e : ε}

theorem pure (h : ∀ s, P s → Q a s) : Triple P (Pure.pure a) Q E := by
  intro s hs
  refine ⟨fun b t hx => ?_, fun e hx => (by cases hx)⟩
  obtain ⟨rfl, rfl⟩ := pure_ok.mp hx
  exact h _ hs

theorem bind (hx : Triple P x Q E) (hf : ∀ a, Triple (Q a) (f a) T E) :
    Triple P (x >>= f) T E := by
  intro s hs
  obtain ⟨hok, herror⟩ := hx s hs
  refine ⟨fun b t h => ?_, fun e h => ?_⟩
  · obtain ⟨a, u, hxa, hfa⟩ := bind_ok.mp h
    exact (hf a u (hok a u hxa)).1 b t hfa
  · rcases bind_error.mp h with hxe | ⟨a, u, hxa, hfe⟩
    · exact herror e hxe
    · exact (hf a u (hok a u hxa)).2 e hfe

/-- Nothing runs after an exception. -/
theorem throw_bind (h : E e) : Triple P ((MonadExcept.throw e : Transaction ε σ α) >>= f) T E := by
  intro s _
  rw [bind_of_error throw_apply]
  refine ⟨fun b t hx => (by cases hx), fun e' hx => ?_⟩
  obtain rfl : e = e' := Except.error.inj hx
  exact h

/-- What has been read of the store is known to the rest. -/
theorem get_bind {f : σ → Transaction ε σ β} (hf : ∀ r, P r → Triple (· = r) (f r) T E) :
    Triple P (MonadState.get >>= f) T E := by
  intro s hs
  rw [bind_of_ok get_apply]
  exact hf s hs s rfl

theorem ite {c : Prop} [Decidable c] (hx : c → Triple P x Q E) (hy : ¬ c → Triple P y Q E) :
    Triple P (if c then x else y) Q E := by
  by_cases h : c
  · simpa [h] using hx h
  · simpa [h] using hy h

theorem mono (h : Triple P x Q E) (hP : ∀ s, P' s → P s) (hQ : ∀ a s, Q a s → R a s) :
    Triple P' x R E :=
  fun s hs => ⟨fun a t hx => hQ a t ((h s (hP s hs)).1 a t hx), (h s (hP s hs)).2⟩

theorem zoom {ℓ : Lens τ σ} {P : τ → Prop} {Q : α → τ → Prop}
    (h : ∀ s, P s → (∀ a u, x (ℓ.get s) = .ok (a, u) → Q a (ℓ.set u s)) ∧
      ∀ e, x (ℓ.get s) = .error e → E e) : Triple P (zoom ℓ x) Q E := by
  intro s hs
  refine ⟨fun a t hx => ?_, fun e hx => (h s hs).2 e (zoom_error.mp hx)⟩
  obtain ⟨u, hu, rfl⟩ := zoom_ok.mp hx
  exact (h s hs).1 a u hu

section Rows

variable {α : Type} {S : Schema α} {ℓ : Lens σ (Table S)} {k : ℕ} {Q : α → σ → Prop}

theorem lookup {missing : ε} (h : E missing) (hQ : ∀ s r, P s → (ℓ.get s).get k = some r → Q r s) :
    Triple P (lookup ℓ missing k) Q E := by
  refine fun s hs => ⟨fun r t hx => ?_, fun e hx => ?_⟩
  · obtain ⟨hget, rfl⟩ := lookup_ok.mp hx
    exact hQ _ r hs hget
  · unfold Transaction.lookup at hx
    split at hx <;> cases hx
    exact h

theorem write {f : α → α} {refuse : Violation → ε} {Q : Unit → σ → Prop} (h : ∀ v, E (refuse v))
    (hQ : ∀ s T, P s → (ℓ.get s).update k f = .ok T → Q () (ℓ.set T s)) :
    Triple P (write ℓ refuse k f) Q E := by
  refine fun s hs => ⟨fun u t hx => ?_, fun e hx => ?_⟩
  · obtain ⟨T, hT, rfl⟩ := write_ok.mp hx
    exact hQ s T hs hT
  · obtain ⟨v, -, rfl⟩ := write_error.mp hx
    exact h v

end Rows

end Triple

/-- The exceptions that a transaction can raise, from any store. -/
def Raises (E : ε → Prop) (x : Transaction ε σ α) : Prop := ∀ s e, x s = .error e → E e

namespace Raises

variable {E : ε → Prop} {x y : Transaction ε σ α} {f : α → Transaction ε σ β} {a : α} {e : ε}

theorem pure (a : α) : Raises E (Pure.pure a : Transaction ε σ α) := fun _ _ h => by cases h

theorem throw (h : E e) : Raises E (MonadExcept.throw e : Transaction ε σ α) := by
  intro s e' hx
  obtain rfl : e = e' := by simpa using hx
  exact h

theorem bind (hx : Raises E x) (hf : ∀ a, Raises E (f a)) : Raises E (x >>= f) := by
  intro s e h
  rcases bind_error.mp h with hxe | ⟨a, u, -, hfe⟩
  · exact hx s e hxe
  · exact hf a u e hfe

theorem get_bind {f : σ → Transaction ε σ β} (hf : ∀ r, Raises E (f r)) :
    Raises E (MonadState.get >>= f) := fun s => hf s s

theorem ite {c : Prop} [Decidable c] (hx : c → Raises E x) (hy : ¬ c → Raises E y) :
    Raises E (if c then x else y) := by
  by_cases h : c
  · simpa [h] using hx h
  · simpa [h] using hy h

theorem lift {x : Except ε α} (h : ∀ e, x = .error e → E e) :
    Raises E (liftM x : Transaction ε σ α) :=
  fun _ e hx => h e (lift_error.mp hx)

theorem modify {g : σ → σ} : Raises E (modify g : Transaction ε σ PUnit) :=
  fun _ _ hx => by cases hx

theorem zoom {ℓ : Lens τ σ} (hx : Raises E x) : Raises E (zoom ℓ x) :=
  fun _ e hx' => hx _ e (zoom_error.mp hx')

section Rows

variable {S : Schema α} {ℓ : Lens σ (Table S)} {k : ℕ} {refuse : Violation → ε}

theorem lookup {missing : ε} (h : E missing) : Raises E (lookup ℓ missing k) := by
  intro s e hx
  unfold Transaction.lookup at hx
  split at hx <;> cases hx
  exact h

theorem create {build : ℕ → α} (h : ∀ v, E (refuse v)) : Raises E (create ℓ refuse build) := by
  intro s e hx
  obtain ⟨v, -, rfl⟩ := create_error.mp hx
  exact h v

theorem write {f : α → α} (h : ∀ v, E (refuse v)) : Raises E (write ℓ refuse k f) := by
  intro s e hx
  obtain ⟨v, -, rfl⟩ := write_error.mp hx
  exact h v

end Rows

end Raises

/-- Every successful run relates the stores at its two ends; the others raise an `E`. -/
structure Keeps (R : σ → σ → Prop) (E : ε → Prop) (x : Transaction ε σ α) : Prop where
  within : Within R x
  raises : Raises E x

namespace Keeps

variable {R : σ → σ → Prop} {E : ε → Prop} {x y : Transaction ε σ α}
  {f : α → Transaction ε σ β}

/-- A transaction that keeps `R` keeps every assertion that `R` respects. -/
theorem triple {P : σ → Prop} (h : Keeps R E x) (hP : ∀ s t, R s t → P s → P t) :
    Triple P x (fun _ => P) E :=
  fun s hs => ⟨fun a t hx => hP s t (h.within s a t hx) hs, h.raises s⟩

theorem pure [Std.Refl R] (a : α) : Keeps R E (Pure.pure a) := ⟨.pure a, .pure a⟩

theorem throw {e : ε} (h : E e) : Keeps R E (MonadExcept.throw e : Transaction ε σ α) :=
  ⟨.throw e, .throw h⟩

theorem bind [IsTrans σ R] (hx : Keeps R E x) (hf : ∀ a, Keeps R E (f a)) : Keeps R E (x >>= f) :=
  ⟨.bind hx.within fun a => (hf a).within, .bind hx.raises fun a => (hf a).raises⟩

theorem throw_bind {e : ε} (h : E e) :
    Keeps R E ((MonadExcept.throw e : Transaction ε σ α) >>= f) := by
  refine ⟨fun s b t hx => ?_, fun s e' hx => ?_⟩
  · rw [bind_of_error throw_apply] at hx
    cases hx
  · rw [bind_of_error throw_apply] at hx
    exact Except.error.inj hx ▸ h

theorem get_bind {f : σ → Transaction ε σ β} (hf : ∀ r, Keeps R E (f r)) :
    Keeps R E (MonadState.get >>= f) :=
  ⟨.get_bind fun r => (hf r).within r, .get_bind fun r => (hf r).raises⟩

theorem ite {c : Prop} [Decidable c] (hx : c → Keeps R E x) (hy : ¬ c → Keeps R E y) :
    Keeps R E (if c then x else y) :=
  ⟨.ite (fun h => (hx h).within) fun h => (hy h).within,
    .ite (fun h => (hx h).raises) fun h => (hy h).raises⟩

theorem modify {g : σ → σ} (h : ∀ s, R s (g s)) :
    Keeps R E (modify g : Transaction ε σ PUnit) := by
  refine ⟨?_, .modify⟩
  rintro s _ t ⟨⟩
  exact h s

theorem zoom {Q : τ → τ → Prop} {ℓ : Lens τ σ} (hx : Keeps R E x)
    (h : ∀ s u, R (ℓ.get s) u → Q s (ℓ.set u s)) : Keeps Q E (zoom ℓ x) :=
  ⟨.zoom hx.within h, .zoom hx.raises⟩

theorem lookup {S : Schema α} {ℓ : Lens σ (Table S)} {k : ℕ} [Std.Refl R] {missing : ε}
    (h : E missing) : Keeps R E (lookup ℓ missing k) := by
  refine ⟨fun s r t hx => ?_, .lookup h⟩
  obtain ⟨-, rfl⟩ := lookup_ok.mp hx
  exact Std.Refl.refl t

end Keeps

end Civicos.Library.Transaction
