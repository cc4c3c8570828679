import Civicos.Library.Table

/-!
# Rows as transactions

Reading, creating and rewriting rows of one table of a store. `ℓ` picks the table.
-/
namespace Civicos.Library.Transaction

variable {ε σ α : Type} {S : Schema α} (ℓ : Lens σ (Table S))

/-- Read a row that must exist. -/
def lookup (missing : ε) (k : ℕ) : Transaction ε σ α := fun s =>
  match (ℓ.get s).get k with
  | some r => .ok (r, s)
  | none => .error missing

/-- Insert the row built from the next primary key. -/
def create (refuse : Violation → ε) (build : ℕ → α) : Transaction ε σ α := fun s =>
  match (ℓ.get s).insert (build (ℓ.get s).next) with
  | .ok t => .ok (build (ℓ.get s).next, ℓ.set t s)
  | .error c => .error (refuse c)

/-- Rewrite one row. -/
def write (refuse : Violation → ε) (k : ℕ) (f : α → α) : Transaction ε σ Unit := fun s =>
  match (ℓ.get s).update k f with
  | .ok t => .ok ((), ℓ.set t s)
  | .error c => .error (refuse c)

variable {ℓ} {s t : σ} {r : α} {k : ℕ} {missing : ε} {refuse : Violation → ε} {build : ℕ → α}
  {f : α → α}

theorem lookup_ok :
    lookup ℓ missing k s = .ok (r, t) ↔ (ℓ.get s).get k = some r ∧ t = s := by
  unfold lookup
  cases h : (ℓ.get s).get k with
  | none => simp
  | some r' => simp [eq_comm]

theorem lookup_of_get (h : (ℓ.get s).get k = some r) : lookup ℓ missing k s = .ok (r, s) :=
  lookup_ok.mpr ⟨h, rfl⟩

theorem create_ok : create ℓ refuse build s = .ok (r, t) ↔
    r = build (ℓ.get s).next ∧ ∃ T, (ℓ.get s).insert r = .ok T ∧ t = ℓ.set T s := by
  unfold create
  cases h : (ℓ.get s).insert (build (ℓ.get s).next) with
  | error c =>
    simp only [reduceCtorEq, false_iff, not_and, not_exists]
    rintro rfl T
    simp [h]
  | ok T =>
    simp only [Except.ok.injEq, Prod.mk.injEq]
    constructor
    · rintro ⟨rfl, rfl⟩
      exact ⟨rfl, T, h, rfl⟩
    · rintro ⟨rfl, T', hT', rfl⟩
      rw [h, Except.ok.injEq] at hT'
      exact ⟨rfl, hT' ▸ rfl⟩

theorem create_error {e : ε} : create ℓ refuse build s = .error e ↔
    ∃ v, (ℓ.get s).insert (build (ℓ.get s).next) = .error v ∧ e = refuse v := by
  unfold create
  cases h : (ℓ.get s).insert (build (ℓ.get s).next) with
  | error v => simp [eq_comm]
  | ok T => simp

theorem write_ok {u : Unit} : write ℓ refuse k f s = .ok (u, t) ↔
    ∃ T, (ℓ.get s).update k f = .ok T ∧ t = ℓ.set T s := by
  unfold write
  cases h : (ℓ.get s).update k f with
  | error c => simp
  | ok T => simp [eq_comm]

/-- A valid new row is only refused for a value that another row holds. -/
theorem create_clash {e : ε} (h : create ℓ refuse build s = .error e)
    (hv : S.Valid (build (ℓ.get s).next)) (hpk : S.pk (build (ℓ.get s).next) = (ℓ.get s).next) :
    ∃ i ∈ S.indexes, e = refuse (.unique i.name) ∧
      ∃ a ∈ (ℓ.get s).rows, i.Clash a (build (ℓ.get s).next) := by
  obtain ⟨v, hins, rfl⟩ := create_error.mp h
  rcases Table.violated hins fun a ha => by
      rw [hpk]
      exact Nat.ne_of_lt (Table.lt_next ha) with
    ⟨c, hc, hfails, -⟩ | ⟨-, i, hi, rfl, hclash⟩
  · rw [hv c hc] at hfails
    cases hfails
  · exact ⟨i, hi, rfl, hclash⟩

theorem write_error {e : ε} : write ℓ refuse k f s = .error e ↔
    ∃ v, (ℓ.get s).update k f = .error v ∧ e = refuse v := by
  unfold write
  cases h : (ℓ.get s).update k f with
  | error v => simp [eq_comm]
  | ok T => simp

/-- A new row only has to pass its own checks and the unique indexes. -/
theorem create_returns (hpk : S.pk (build (ℓ.get s).next) = (ℓ.get s).next) :
    Returns (create ℓ refuse build) s ↔ S.Valid (build (ℓ.get s).next) ∧
      ∀ a ∈ (ℓ.get s).rows, ∀ i ∈ S.indexes, ¬ i.Clash a (build (ℓ.get s).next) := by
  constructor
  · rintro ⟨⟨r, t⟩, h⟩
    obtain ⟨rfl, T, hins, -⟩ := create_ok.mp h
    obtain ⟨⟨hv, hap⟩, -⟩ := Table.insert_ok.mp hins
    exact ⟨hv, fun a ha => (hap a ha).2⟩
  · rintro ⟨hv, hap⟩
    have hapart : ∀ a ∈ (ℓ.get s).rows, S.Apart a (build (ℓ.get s).next) := fun a ha =>
      ⟨by rw [hpk]; exact Nat.ne_of_lt (Table.lt_next ha), hap a ha⟩
    obtain ⟨T, hT⟩ : ∃ T, (ℓ.get s).insert (build (ℓ.get s).next) = .ok T :=
      Table.insert_returns hv hapart
    exact ⟨_, create_ok.mpr ⟨rfl, T, hT, rfl⟩⟩

/-- Rewriting a row without touching its key columns only has to pass the row checks. -/
theorem write_returns (hg : (ℓ.get s).get k = some r) (hv : S.Valid (f r))
    (hpk : S.pk (f r) = S.pk r) (hf : ∀ i ∈ S.indexes, i.key (f r) = i.key r) :
    Returns (write ℓ refuse k f) s := by
  obtain ⟨T, hT⟩ := Table.update_returns hg hv hpk hf
  exact ⟨_, write_ok (u := ()).mpr ⟨T, hT, rfl⟩⟩

end Civicos.Library.Transaction
