import Civicos.Library.Objects
import Mathlib.Algebra.Order.BigOperators.Group.List
import Mathlib.Algebra.Order.Ring.Int

/-!
# Rows in place of rows

What the update of one known row does, as a relation between the table before and the table after,
and what it does to a sum over the rows. Counting rows is the total of an indicator.
-/
namespace Civicos.Library.Table

variable {α : Type} {S : Schema α} {t t' : Table S} {k : ℕ} {r : α} {f : α → α} {w v : α → ℤ}
  {p : α → Bool} {l : List α}

def total (w : α → ℤ) (t : Table S) : ℤ := (t.rows.map w).sum

theorem sum_replace (hnodup : l.Pairwise fun a b => S.pk a ≠ S.pk b) (hr : r ∈ l) (r' : α) :
    ((l.map fun a => if S.pk a = S.pk r then r' else a).map w).sum =
      (l.map w).sum - w r + w r' := by
  induction l with
  | nil => cases hr
  | cons a l ih =>
    obtain ⟨hhead, htail⟩ := List.pairwise_cons.mp hnodup
    rw [List.map_cons, List.map_cons, List.sum_cons, List.map_cons, List.sum_cons]
    rcases List.mem_cons.mp hr with rfl | hr
    · have hsame : l.map (fun a => if S.pk a = S.pk r then r' else a) = l := by
        refine (List.map_congr_left fun b hb => ?_).trans (List.map_id l)
        exact if_neg (hhead b hb).symm
      rw [hsame, if_pos rfl]
      omega
    · rw [ih htail hr, if_neg (hhead r hr)]
      omega

theorem total_insert (h : t.insert r = .ok t') : total w t' = total w t + w r := by
  unfold total
  rw [(insert_ok.mp h).2, List.map_append, List.sum_append, List.map_singleton,
    List.sum_singleton]

theorem total_update (h : t.update k f = .ok t') (hg : t.get k = some r) :
    total w t' = total w t - w r + w (f r) := by
  obtain ⟨-, hrows⟩ := (update_ok hg).mp h
  obtain ⟨hr, rfl⟩ := get_eq_some.mp hg
  unfold total
  rw [hrows]
  exact sum_replace (t.apart.imp fun hab => hab.1) hr (f r)

theorem total_nonneg (h : ∀ a ∈ t.rows, 0 ≤ w a) : 0 ≤ total w t :=
  List.sum_nonneg fun x hx => by
    obtain ⟨a, ha, rfl⟩ := List.mem_map.mp hx
    exact h a ha

/-- Summing a selection is summing a weight that is zero elsewhere. -/
theorem sum_filter (p : α → Bool) (w : α → ℤ) (l : List α) :
    ((l.filter p).map w).sum = (l.map fun a => if p a then w a else 0).sum := by
  induction l with
  | nil => rfl
  | cons a l ih =>
    rw [List.map_cons, List.sum_cons, List.filter_cons, ← ih]
    split
    · rw [List.map_cons, List.sum_cons]
    · rw [Int.zero_add]

/-- Counting is summing an indicator. -/
theorem total_indicator (p : α → Bool) (t : Table S) :
    total (fun a => if p a then 1 else 0) t = (t.rows.countP p : ℤ) := by
  unfold total
  induction t.rows with
  | nil => rfl
  | cons a l ih =>
    rw [List.map_cons, List.sum_cons, ih, List.countP_cons]
    split <;> omega

theorem countP_insert (h : t.insert r = .ok t') :
    t'.rows.countP p = t.rows.countP p + if p r then 1 else 0 := by
  rw [(insert_ok.mp h).2, List.countP_append, List.countP_singleton]

end Civicos.Library.Table

/-! ## One row in place of another -/

namespace Civicos.Library

namespace Table

variable {α : Type} {S : Schema α} {t t' : Table S} {k : ℕ} {r r' a : α} {f : α → α}

/-- `r'` stands in `t'` where `r` stood in `t`. -/
structure Replaced (t : Table S) (r r' : α) (t' : Table S) : Prop where
  get : t.get (S.pk r) = some r
  pk : S.pk r' = S.pk r
  update : t.update (S.pk r) (fun _ => r') = .ok t'

theorem update_const (hg : t.get k = some r) : t.update k f = t.update k fun _ => f r := by
  unfold update
  split
  next hn => simp [hg] at hn
  next a ha =>
    obtain rfl : r = a := Option.some.inj (hg.symm.trans ha)
    rfl

theorem Replaced.of_update (h : t.update k f = .ok t') (hg : t.get k = some r)
    (hpk : S.pk (f r) = S.pk r) : t.Replaced r (f r) t' := by
  obtain rfl := pk_of_get hg
  exact ⟨hg, hpk, update_const hg ▸ h⟩

theorem get_inserted (h : t.insert r = .ok t') : t'.get (S.pk r) = some r := by
  simp [get_insert h]

namespace Replaced

theorem old_mem (h : t.Replaced r r' t') : r ∈ t.rows := mem_of_get h.get

theorem get_eq (h : t.Replaced r r' t') (k : ℕ) :
    t'.get k = if S.pk r = k then some r' else t.get k :=
  get_update h.update h.get h.pk k

theorem get_new (h : t.Replaced r r' t') : t'.get (S.pk r) = some r' := by simp [h.get_eq]

theorem get_of_ne (h : t.Replaced r r' t') (hk : S.pk r ≠ k) : t'.get k = t.get k := by
  simp [h.get_eq, hk]

theorem get_isSome (h : t.Replaced r r' t') (k : ℕ) : (t'.get k).isSome = (t.get k).isSome := by
  rw [h.get_eq]
  split
  next hk => rw [← hk, h.get]; rfl
  next => rfl

theorem mem_iff (h : t.Replaced r r' t') :
    a ∈ t'.rows ↔ (a ∈ t.rows ∧ S.pk a ≠ S.pk r) ∨ a = r' :=
  mem_update h.update h.get

theorem new_mem (h : t.Replaced r r' t') : r' ∈ t'.rows := h.mem_iff.mpr (.inr rfl)

theorem total_eq {w : α → ℤ} (h : t.Replaced r r' t') : total w t' = total w t - w r + w r' :=
  total_update h.update h.get

theorem countP_eq {p : α → Bool} (h : t.Replaced r r' t') :
    t'.rows.countP p + (if p r then 1 else 0) = t.rows.countP p + if p r' then 1 else 0 := by
  have htotal := h.total_eq (w := fun a => if p a then 1 else 0)
  rw [total_indicator, total_indicator] at htotal
  split_ifs at htotal ⊢ <;> omega

theorem map_eq {β : Type} {g : α → β} (h : t.Replaced r r' t') (hg : g r' = g r) :
    t'.rows.map g = t.rows.map g :=
  map_update_of_get h.update h.get hg

end Replaced

/-! ## Rows that are never taken away -/

/-- Every row of `t` is still in `t'`, related to what it was; the others are new. -/
structure Grows (R : α → α → Prop) (t t' : Table S) : Prop where
  keeps : ∀ k r, t.get k = some r → ∃ r', t'.get k = some r' ∧ R r r'

variable {R : α → α → Prop}

theorem Grows.refl (hR : ∀ r, R r r) (t : Table S) : t.Grows R t := ⟨fun _ r h => ⟨r, h, hR r⟩⟩

theorem Grows.trans {t'' : Table S} (hR : ∀ a b c, R a b → R b c → R a c) (h : t.Grows R t')
    (g : t'.Grows R t'') : t.Grows R t'' := by
  refine ⟨fun k r hr => ?_⟩
  obtain ⟨r₁, h₁, hr₁⟩ := h.keeps k r hr
  obtain ⟨r₂, h₂, hr₂⟩ := g.keeps k r₁ h₁
  exact ⟨r₂, h₂, hR _ _ _ hr₁ hr₂⟩

theorem Grows.of_insert (hR : ∀ r, R r r) (h : t.insert r = .ok t') : t.Grows R t' :=
  ⟨fun _ a ha => ⟨a, get_of_insert h ha, hR a⟩⟩

theorem Replaced.grows (hR : ∀ r, R r r) (h : t.Replaced r r' t') (hr : R r r') :
    t.Grows R t' := by
  refine ⟨fun k a ha => ?_⟩
  by_cases hk : S.pk r = k
  · subst hk
    obtain rfl : r = a := Option.some.inj (h.get.symm.trans ha)
    exact ⟨r', h.get_new, hr⟩
  · exact ⟨a, (h.get_of_ne hk).trans ha, hR a⟩

end Table

namespace Transaction

variable {ε σ α β : Type} {S : Schema α} {ℓ : Lens σ (Table S)} {s t : σ} {r : α} {k : ℕ}
  {missing : ε} {refuse : Violation → ε} {f : α → α}

/-! ## Taking a transaction apart -/

/-- A step that is only taken under a condition. -/
theorem when_ok {c : Prop} [Decidable c] {x : Transaction ε σ Unit} {g : Unit → Transaction ε σ β}
    {b : β} (h : (if c then x >>= g else g ()) s = .ok (b, t)) :
    ∃ u, (c ∧ x s = .ok ((), u) ∨ ¬ c ∧ u = s) ∧ g () u = .ok (b, t) := by
  split at h
  next hc =>
    obtain ⟨_, u, hx, hg⟩ := bind_ok.mp h
    exact ⟨u, .inl ⟨hc, hx⟩, hg⟩
  next hc => exact ⟨s, .inr ⟨hc, rfl⟩, h⟩

theorem lookup_bind {g : α → Transaction ε σ β} {b : β} :
    (lookup ℓ missing k >>= g) s = .ok (b, t) ↔
      ∃ a, (ℓ.get s).get k = some a ∧ g a s = .ok (b, t) := by
  rw [bind_ok]
  constructor
  · rintro ⟨a, u, ha, h⟩
    obtain ⟨ha, rfl⟩ := lookup_ok.mp ha
    exact ⟨a, ha, h⟩
  · rintro ⟨a, ha, h⟩
    exact ⟨a, s, lookup_of_get ha, h⟩

theorem write_bind {g : Unit → Transaction ε σ β} {b : β} :
    (write ℓ refuse k f >>= g) s = .ok (b, t) ↔
      ∃ T, (ℓ.get s).update k f = .ok T ∧ g () (ℓ.set T s) = .ok (b, t) := by
  rw [bind_ok]
  constructor
  · rintro ⟨a, u, ha, h⟩
    obtain ⟨T, hT, rfl⟩ := write_ok.mp ha
    exact ⟨T, hT, h⟩
  · rintro ⟨T, hT, h⟩
    exact ⟨(), _, write_ok.mpr ⟨T, hT, rfl⟩, h⟩

theorem create_bind {build : ℕ → α} {g : α → Transaction ε σ β} {b : β} :
    (create ℓ refuse build >>= g) s = .ok (b, t) ↔
      ∃ T, (ℓ.get s).insert (build (ℓ.get s).next) = .ok T ∧
      g (build (ℓ.get s).next) (ℓ.set T s) = .ok (b, t) := by
  rw [bind_ok]
  constructor
  · rintro ⟨a, u, ha, h⟩
    obtain ⟨rfl, T, hT, rfl⟩ := create_ok.mp ha
    exact ⟨T, hT, h⟩
  · rintro ⟨T, hT, h⟩
    exact ⟨_, _, create_ok.mpr ⟨rfl, T, hT, rfl⟩, h⟩

theorem write_replaces {u : Unit} (h : write ℓ refuse k f s = .ok (u, t))
    (hg : (ℓ.get s).get k = some r) (hpk : S.pk (f r) = S.pk r) :
    ∃ T, (ℓ.get s).Replaced r (f r) T ∧ t = ℓ.set T s := by
  obtain ⟨T, hT, rfl⟩ := write_ok.mp h
  exact ⟨T, .of_update hT hg hpk, rfl⟩

end Transaction

end Civicos.Library
