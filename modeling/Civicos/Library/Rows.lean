import Civicos.Library.Numbered
import Civicos.Library.Replace

/-!
# Rows of numbered tables as transactions

Reading, appending, rewriting and removing rows of one numbered table of a store. `ℓ` picks the
table; what an append raises is read off the constraint that it violates.
-/
namespace Civicos.Library.Transaction

variable {ε σ α β : Type} {S : Schema α} (ℓ : Lens σ (Numbered S))

/-- Read a row that must exist. -/
def fetch (missing : ε) (k : ℕ) : Transaction ε σ α := fun s =>
  match (ℓ.get s).get k with
  | some r => .ok (r, s)
  | none => .error missing

/-- Read what must be there. -/
def ask (missing : ε) (x : σ → Option α) : Transaction ε σ α := fun s =>
  match x s with
  | some a => .ok (a, s)
  | none => .error missing

/-- A new row under the next number. -/
def append (refuse : Violation → ε) (build : ℕ → α) : Transaction ε σ α := fun s =>
  match (ℓ.get s).insert build with
  | .ok t => .ok (build (ℓ.get s).next, ℓ.set t s)
  | .error v => .error (refuse v)

/-- Rewrite the rows that satisfy `p`. -/
def rewriteRows (p : α → Bool) (f : α → α) (hf : S.Preserves f) : Transaction ε σ Unit :=
  modify fun s => ℓ.set ((ℓ.get s).rewrite p f hf) s

/-- Take the rows away that satisfy `p`. -/
def removeRows (p : α → Bool) : Transaction ε σ Unit :=
  modify fun s => ℓ.set ((ℓ.get s).keep fun r => !p r) s

variable {ℓ} {s t : σ} {r : α} {b : β} {k : ℕ} {missing : ε} {refuse : Violation → ε}
  {build : ℕ → α} {p : α → Bool} {f : α → α} {hf : S.Preserves f}

theorem fetch_of_get (h : (ℓ.get s).get k = some r) : fetch ℓ missing k s = .ok (r, s) := by
  simp only [fetch, h]

theorem fetch_of_none (h : (ℓ.get s).get k = none) : fetch ℓ missing k s = .error missing := by
  simp only [fetch, h]

/-- A check that nothing follows. -/
theorem check_ok {c : Prop} [Decidable c] {e : ε} {u : Unit} :
    (if c then throw e else pure () : Transaction ε σ Unit) s = .ok (u, t) ↔ ¬ c ∧ t = s := by
  by_cases hc : c
  · simp [hc]
  · simp [hc, eq_comm]

/-- A check that changes nothing. -/
theorem check_bind {P : Prop} {x : Transaction ε σ Unit} {g : Unit → Transaction ε σ β}
    (hx : ∀ u t, x s = .ok (u, t) ↔ P ∧ t = s) :
    (x >>= g) s = .ok (b, t) ↔ P ∧ g () s = .ok (b, t) := by
  rw [bind_ok]
  constructor
  · rintro ⟨a, u, ha, hg⟩
    obtain ⟨hP, rfl⟩ := (hx a u).mp ha
    exact ⟨hP, hg⟩
  · rintro ⟨hP, hg⟩
    exact ⟨(), s, (hx () s).mpr ⟨hP, rfl⟩, hg⟩

theorem lift_bind {x : Except ε α} {g : α → Transaction ε σ β} :
    ((liftM x : Transaction ε σ α) >>= g) s = .ok (b, t) ↔ ∃ a, x = .ok a ∧ g a s = .ok (b, t) := by
  rw [bind_ok]
  constructor
  · rintro ⟨a, u, hrun, hg⟩
    obtain ⟨hx, rfl⟩ := lift_ok.mp hrun
    exact ⟨a, hx, hg⟩
  · rintro ⟨a, hx, hg⟩
    exact ⟨a, s, lift_ok.mpr ⟨hx, rfl⟩, hg⟩

theorem fetch_ok : fetch ℓ missing k s = .ok (r, t) ↔ (ℓ.get s).get k = some r ∧ t = s := by
  cases h : (ℓ.get s).get k with
  | none => simp [fetch_of_none h]
  | some r => simp [fetch_of_get h, eq_comm]

theorem fetch_bind {g : α → Transaction ε σ β} : (fetch ℓ missing k >>= g) s = .ok (b, t) ↔
    ∃ r, (ℓ.get s).get k = some r ∧ g r s = .ok (b, t) := by
  cases h : (ℓ.get s).get k with
  | none => simp [bind_of_error (fetch_of_none h)]
  | some r => simp [bind_of_ok (fetch_of_get h)]

theorem ask_bind {x : σ → Option α} {g : α → Transaction ε σ β} :
    (ask missing x >>= g) s = .ok (b, t) ↔ ∃ a, x s = some a ∧ g a s = .ok (b, t) := by
  cases h : x s with
  | none =>
    have hrun : ask missing x s = .error missing := by simp only [ask, h]
    simp [bind_of_error hrun]
  | some a =>
    have hrun : ask missing x s = .ok (a, s) := by simp only [ask, h]
    simp [bind_of_ok hrun]

theorem append_ok : append ℓ refuse build s = .ok (r, t) ↔
    r = build (ℓ.get s).next ∧ ∃ T, (ℓ.get s).insert build = .ok T ∧ t = ℓ.set T s := by
  unfold append
  cases h : (ℓ.get s).insert build with
  | error v => simp
  | ok T => simp [eq_comm]

theorem append_error {e : ε} : append ℓ refuse build s = .error e ↔
    ∃ v, (ℓ.get s).insert build = .error v ∧ e = refuse v := by
  unfold append
  cases h : (ℓ.get s).insert build with
  | error v => simp [eq_comm]
  | ok T => simp

theorem rewriteRows_ok {u : Unit} :
    (rewriteRows ℓ p f hf : Transaction ε σ Unit) s = .ok (u, t) ↔
      t = ℓ.set ((ℓ.get s).rewrite p f hf) s := by
  simp [rewriteRows, eq_comm]

theorem removeRows_ok {u : Unit} : (removeRows ℓ p : Transaction ε σ Unit) s = .ok (u, t) ↔
    t = ℓ.set ((ℓ.get s).keep fun r => !p r) s := by
  simp [removeRows, eq_comm]

theorem rewriteRows_bind {g : Unit → Transaction ε σ β} :
    (rewriteRows ℓ p f hf >>= g) s = .ok (b, t) ↔
      g () (ℓ.set ((ℓ.get s).rewrite p f hf) s) = .ok (b, t) := Iff.rfl

theorem removeRows_bind {g : Unit → Transaction ε σ β} :
    (removeRows ℓ p >>= g) s = .ok (b, t) ↔
      g () (ℓ.set ((ℓ.get s).keep fun r => !p r) s) = .ok (b, t) := Iff.rfl

end Civicos.Library.Transaction

namespace Civicos.Library.Numbered

/-- The table with these rows, without those that are refused. -/
def seed {α : Type} {S : Schema α} (builds : List (ℕ → α)) : Numbered S :=
  builds.foldl (fun t build => (t.insert build).toOption.getD t) .empty

variable {α : Type} {S : Schema α} {t : Numbered S} {r a : α} {f : α → α} {q : α → Bool}

/-! ## One row -/

theorem rows_rewrite_row (hf : S.Preserves f) (hr : r ∈ t.rows) :
    (t.rewrite (S.pk · = S.pk r) f hf).rows =
      t.rows.map fun a => if S.pk a = S.pk r then f r else a := by
  rw [rows_rewrite]
  refine List.map_congr_left fun a ha => ?_
  simp only [decide_eq_true_eq]
  by_cases hpk : S.pk a = S.pk r
  · rw [Table.eq_of_pk ha hr hpk]
  · rw [if_neg hpk, if_neg hpk]

theorem mem_rewrite_row (hf : S.Preserves f) (hr : r ∈ t.rows) :
    a ∈ (t.rewrite (S.pk · = S.pk r) f hf).rows ↔ (a ∈ t.rows ∧ S.pk a ≠ S.pk r) ∨ a = f r := by
  rw [rows_rewrite_row hf hr, List.mem_map]
  constructor
  · rintro ⟨b, hb, rfl⟩
    by_cases hpk : S.pk b = S.pk r
    · exact .inr (if_pos hpk)
    · rw [if_neg hpk]
      exact .inl ⟨hb, hpk⟩
  · rintro (⟨ha, hpk⟩ | rfl)
    · exact ⟨a, ha, if_neg hpk⟩
    · exact ⟨r, hr, if_pos rfl⟩

theorem countP_rewrite_row (hf : S.Preserves f) (hr : r ∈ t.rows) :
    (t.rewrite (S.pk · = S.pk r) f hf).rows.countP q + (if q r then 1 else 0) =
      t.rows.countP q + if q (f r) then 1 else 0 := by
  have hsum := Table.sum_replace (w := fun a => if q a then 1 else 0)
    (t.table.apart.imp fun h => h.1) hr (f r)
  rw [← rows_rewrite_row hf hr] at hsum
  have hnew : ((t.rewrite (S.pk · = S.pk r) f hf).rows.map fun a => if q a then 1 else 0).sum =
      ((t.rewrite (S.pk · = S.pk r) f hf).rows.countP q : ℤ) := Table.total_indicator q _
  have hold : (t.rows.map fun a => if q a then 1 else 0).sum = (t.rows.countP q : ℤ) :=
    Table.total_indicator q t.table
  rw [hnew, hold] at hsum
  split_ifs at hsum ⊢ <;> omega

/-- Adding up a selection, after one row has been rewritten. -/
theorem sum_rewrite_row {w : α → ℕ} (hf : S.Preserves f) (hr : r ∈ t.rows) :
    (((t.rewrite (S.pk · = S.pk r) f hf).rows.filter q).map w).sum + (if q r then w r else 0) =
      ((t.rows.filter q).map w).sum + if q (f r) then w (f r) else 0 := by
  have hcast (l : List α) : (((l.filter q).map w).sum : ℤ) =
      (l.map fun a => if q a then (w a : ℤ) else 0).sum := by
    induction l with
    | nil => rfl
    | cons a l ih =>
      rw [List.map_cons, List.sum_cons, ← ih, List.filter_cons]
      split
      · rw [List.map_cons, List.sum_cons]
        omega
      · omega
  have hsum := Table.sum_replace (l := t.rows) (w := fun a => if q a then (w a : ℤ) else 0)
    (t.table.apart.imp fun h => h.1) hr (f r)
  rw [← rows_rewrite_row hf hr, ← hcast, ← hcast] at hsum
  split_ifs at hsum ⊢ <;> omega

/-- A row that is rewritten to one outside of a selection. -/
theorem filter_rewrite_out (hf : S.Preserves f) (hr : r ∈ t.rows) (hafter : q (f r) = false) :
    (t.rewrite (S.pk · = S.pk r) f hf).rows.filter q =
      (t.rows.filter q).filter (S.pk · ≠ S.pk r) := by
  rw [rows_rewrite_row hf hr, List.filter_map, List.filter_filter]
  have hsame : ∀ a ∈ t.rows, (q ∘ fun a => if S.pk a = S.pk r then f r else a) a =
      (decide (S.pk a ≠ S.pk r) && q a) := by
    intro a _
    by_cases hpk : S.pk a = S.pk r <;> simp [hpk, hafter]
  rw [List.filter_congr hsame]
  refine (List.map_congr_left fun a ha => if_neg ?_).trans (List.map_id _)
  simpa using (Bool.and_eq_true_iff.mp (List.mem_filter.mp ha).2).1

/-- Rows outside of a selection that are rewritten to rows outside of it. -/
theorem filter_rewrite_apart {p : α → Bool} (hf : S.Preserves f)
    (h : ∀ a ∈ t.rows, p a = true → q a = false ∧ q (f a) = false) :
    (t.rewrite p f hf).rows.filter q = t.rows.filter q := by
  rw [rows_rewrite, List.filter_map]
  have hsame : ∀ a ∈ t.rows, (q ∘ fun a => if p a then f a else a) a = q a := by
    intro a ha
    by_cases hp : p a = true <;> simp [hp, h a ha]
  rw [List.filter_congr hsame]
  refine (List.map_congr_left fun a ha => if_neg fun hp => ?_).trans (List.map_id _)
  obtain ⟨ha, hq⟩ := List.mem_filter.mp ha
  rw [(h a ha hp).1] at hq
  cases hq

theorem insert_rows {build : ℕ → α} {t' : Numbered S} (h : t.insert build = .ok t')
    (hpk : ∀ k, S.pk (build k) = k) : t'.rows = t.rows ++ [build t.next] :=
  (insert_ok h (hpk _)).1

end Civicos.Library.Numbered
