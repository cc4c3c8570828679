import Civicos.Library.Rows

/-!
# Updates of one row

An update of one row of a numbered table may touch its key columns, so that the constraints are
checked again.
-/
namespace Civicos.Library

namespace Numbered

variable {α : Type} {S : Schema α} {f : α → α} {r a : α} {k : ℕ} {t t' : Numbered S}

/-- Rewrite the row with primary key `k`; without such a row nothing changes. -/
def update (t : Numbered S) (k : ℕ) (f : α → α) : Except Violation (Numbered S) :=
  match t.get k with
  | none => .ok t
  | some _ =>
    match t.table.update k f with
    | .error v => .error v
    | .ok table => .ok {
        table
        next := max t.next table.next
        used := fun _ hr => lt_max_of_lt_right (Table.lt_next hr) }

theorem table_next_le (h : t.rows ≠ []) : t.table.next ≤ t.next := by
  have hlt : ∀ l : List ℕ, (∀ n ∈ l, n < t.next) → l ≠ [] → l.foldr max 0 < t.next := fun l => by
    induction l with
    | nil => simp
    | cons m l ih =>
      intro hall _
      obtain ⟨hm, hl⟩ := List.forall_mem_cons.mp hall
      refine max_lt hm ?_
      by_cases hnil : l = []
      · subst hnil
        exact Nat.zero_lt_of_lt hm
      · exact ih hl hnil
  exact Nat.succ_le_of_lt (hlt _ (by simpa using t.used) (by simpa using h))

@[simp] theorem update_of_none (hg : t.get k = none) : t.update k f = .ok t := by
  unfold update
  rw [hg]

/-- An update that keeps the primary key of its row. -/
theorem update_ok (h : t.update k f = .ok t') (hg : t.get k = some r) (hpk : S.pk (f r) = k) :
    (t'.rows = t.rows.map fun a => if S.pk a = k then f r else a) ∧ t'.next = t.next := by
  unfold update at h
  rw [hg] at h
  cases hu : t.table.update k f with
  | error v => simp [hu] at h
  | ok table =>
    simp only [hu, Except.ok.injEq] at h
    subst h
    have hpks : table.rows.map S.pk = t.rows.map S.pk :=
      Table.map_update_of_get hu hg (hpk.trans (Table.pk_of_get hg).symm)
    have hnext : table.next = t.table.next := by
      unfold Table.next
      rw [hpks]
    refine ⟨((Table.update_ok hg).mp hu).2, max_eq_left ?_⟩
    rw [hnext]
    exact table_next_le (List.ne_nil_of_mem (Table.mem_of_get hg))

/-- An update succeeds if the new row is valid and apart from the other rows. -/
theorem update_returns_of_apart (hg : t.get k = some r) (hv : S.Valid (f r))
    (hf : ∀ a ∈ t.rows, S.pk a ≠ k → S.Apart a (f r)) : ∃ t', t.update k f = .ok t' := by
  obtain ⟨table, htable⟩ := Table.update_returns_of_apart hg hv hf
  unfold update
  rw [hg]
  simp only [htable]
  exact ⟨_, rfl⟩

/-- Any update that keeps primary keys, whether or not there is such a row. -/
theorem update_rows (h : t.update k f = .ok t') (hpk : ∀ r, S.pk r = k → S.pk (f r) = k) :
    (t'.rows = t.rows.map fun a => if S.pk a = k then f a else a) ∧ t'.next = t.next := by
  cases hg : t.get k with
  | none =>
    rw [update_of_none hg] at h
    cases h
    refine ⟨((List.map_congr_left fun a ha => ?_).trans (List.map_id _)).symm, rfl⟩
    exact if_neg (Table.get_eq_none.mp hg a ha)
  | some r =>
    obtain ⟨hr, hk⟩ := get_eq_some.mp hg
    obtain ⟨hrows, hnext⟩ := update_ok h hg (hpk r hk)
    refine ⟨hrows.trans (List.map_congr_left fun a ha => ?_), hnext⟩
    by_cases hak : S.pk a = k
    · obtain rfl := Table.eq_of_pk ha hr (hak.trans hk.symm)
      rfl
    · rw [if_neg hak, if_neg hak]

/-! ## Refusals -/

/-- An insert is refused if and only if the new row violates a constraint. -/
theorem insert_cases (t : Numbered S) (build : ℕ → α) (hpk : S.pk (build t.next) = t.next) :
    ((S.violation t.rows (build t.next)).isSome = true ∧ ∃ v, t.insert build = .error v) ∨
      (S.violation t.rows (build t.next)).isSome = false ∧
        ∃ t', t.insert build = .ok t' ∧ t'.rows = t.rows ++ [build t.next] := by
  cases hinsert : t.insert build with
  | ok t' =>
    obtain ⟨hrows, -, htable⟩ := insert_ok hinsert hpk
    have hnone := Schema.violation_eq_none.mpr (Table.insert_ok.mp htable).1
    exact .inr ⟨by rw [hnone]; rfl, t', rfl, hrows⟩
  | error v =>
    refine .inl ⟨?_, v, rfl⟩
    unfold insert at hinsert
    split at hinsert
    next w hw => rw [Table.insert_error hw, Option.isSome_some]
    next => cases hinsert

/-- An update is refused if and only if the new row violates a constraint next to the others. -/
theorem update_cases (hg : t.get k = some r) (hpk : S.pk (f r) = k) :
    ((S.violation (t.rows.filter (S.pk · ≠ k)) (f r)).isSome = true ∧
        ∃ v, t.update k f = .error v) ∨
      (S.violation (t.rows.filter (S.pk · ≠ k)) (f r)).isSome = false ∧
        ∃ t', t.update k f = .ok t' ∧
          t'.rows = t.rows.map fun a => if S.pk a = k then f r else a := by
  cases hv : S.violation (t.rows.filter (S.pk · ≠ k)) (f r) with
  | some v =>
    refine .inl ⟨rfl, v, ?_⟩
    have htable : t.table.update k f = .error v := by
      unfold Table.update
      split
      next hn => simp [hg] at hn
      next r' hr' =>
        obtain rfl : r = r' := Option.some.inj (hg.symm.trans hr')
        split
        next c hc => rw [Option.some.inj (hc.symm.trans hv)]
        next hc => cases hc.symm.trans hv
    unfold update
    rw [hg]
    simp only [htable]
  | none =>
    refine .inr ⟨rfl, ?_⟩
    obtain ⟨hvalid, hapart⟩ := Schema.violation_eq_none.mp hv
    obtain ⟨T, hT⟩ := Table.update_returns_of_apart hg hvalid fun a ha hak =>
      hapart a (List.mem_filter.mpr ⟨ha, by simpa using hak⟩)
    have hupdate : ∃ t', t.update k f = .ok t' := by
      unfold update
      rw [hg]
      simp only [hT]
      exact ⟨_, rfl⟩
    obtain ⟨t', ht'⟩ := hupdate
    exact ⟨t', ht', (update_ok ht' hg hpk).1⟩

end Numbered

namespace Transaction

variable {ε σ α β : Type} {S : Schema α} (ℓ : Lens σ (Numbered S))

/-- Rewrite one row under the constraints. -/
def updateRow (refuse : Violation → ε) (k : ℕ) (f : α → α) : Transaction ε σ Unit := fun s =>
  match (ℓ.get s).update k f with
  | .ok t => .ok ((), ℓ.set t s)
  | .error v => .error (refuse v)

variable {ℓ} {s t : σ} {b : β} {k : ℕ} {refuse : Violation → ε} {f : α → α}

theorem updateRow_ok {u : Unit} : updateRow ℓ refuse k f s = .ok (u, t) ↔
    ∃ T, (ℓ.get s).update k f = .ok T ∧ t = ℓ.set T s := by
  unfold updateRow
  cases h : (ℓ.get s).update k f with
  | error v => simp
  | ok T => simp [eq_comm]

theorem updateRow_error {e : ε} : updateRow ℓ refuse k f s = .error e ↔
    ∃ v, (ℓ.get s).update k f = .error v ∧ e = refuse v := by
  unfold updateRow
  cases h : (ℓ.get s).update k f with
  | error v => simp [eq_comm]
  | ok T => simp

theorem updateRow_bind {g : Unit → Transaction ε σ β} :
    (updateRow ℓ refuse k f >>= g) s = .ok (b, t) ↔
      ∃ T, (ℓ.get s).update k f = .ok T ∧ g () (ℓ.set T s) = .ok (b, t) := by
  rw [bind_ok]
  constructor
  · rintro ⟨u, v, hrun, hg⟩
    obtain ⟨T, hT, rfl⟩ := updateRow_ok.mp hrun
    exact ⟨T, hT, hg⟩
  · rintro ⟨T, hT, hg⟩
    exact ⟨(), _, updateRow_ok.mpr ⟨T, hT, rfl⟩, hg⟩

end Transaction

end Civicos.Library
