import Civicos.Library.Table

/-!
# Numbered tables

A table whose primary keys are handed out by a sequence: a key is never used again, also after its
row is gone. Rows can be rewritten and taken away many at a time.
-/
namespace Civicos.Library

variable {α : Type} {S : Schema α} {f g : α → α} {p q : α → Bool} {r r' a : α} {k n : ℕ}

/-- Rewriting a row by `f` touches no key column and breaks no constraint. -/
structure Schema.Preserves (S : Schema α) (f : α → α) : Prop where
  pk : ∀ r, S.pk (f r) = S.pk r
  key : ∀ i ∈ S.indexes, ∀ r, i.key (f r) = i.key r
  valid : ∀ r, S.Valid r → S.Valid (f r)

namespace Schema.Preserves

theorem apart (hf : S.Preserves f) (h : S.Apart r r') : S.Apart (f r) (f r') := by
  refine ⟨?_, fun i hi hclash => h.2 i hi ?_⟩
  · rw [hf.pk, hf.pk]
    exact h.1
  · simpa only [Index.Clash, hf.key i hi] using hclash

theorem when (hf : S.Preserves f) (p : α → Bool) :
    S.Preserves fun r => if p r then f r else r where
  pk r := by
    split
    · exact hf.pk r
    · rfl
  key i hi r := by
    split
    · exact hf.key i hi r
    · rfl
  valid r hr := by
    split
    · exact hf.valid r hr
    · exact hr

end Schema.Preserves

structure Numbered (S : Schema α) where
  table : Table S
  next : ℕ
  used : ∀ r ∈ table.rows, S.pk r < next

namespace Numbered

variable {t t' : Numbered S}

def empty : Numbered S := ⟨.empty, 1, by simp [Table.empty]⟩

instance : Inhabited (Numbered S) := ⟨empty⟩

abbrev rows (t : Numbered S) : List α := t.table.rows

abbrev get (t : Numbered S) (k : ℕ) : Option α := t.table.get k

/-- A row under the next number. -/
def insert (t : Numbered S) (build : ℕ → α) : Except Violation (Numbered S) :=
  match h : t.table.insert (build t.next) with
  | .error v => .error v
  | .ok table => .ok {
      table
      next := max t.next (S.pk (build t.next)) + 1
      used := by
        intro r hr
        rw [Table.mem_insert h] at hr
        obtain hr | rfl := hr
        · have := t.used r hr
          omega
        · omega }

/-- Rewrite the rows that satisfy `p`. -/
def rewrite (t : Numbered S) (p : α → Bool) (f : α → α) (hf : S.Preserves f) : Numbered S where
  table := {
    rows := t.rows.map fun r => if p r then f r else r
    valid := by
      intro r hr
      obtain ⟨a, ha, rfl⟩ := List.mem_map.mp hr
      exact (hf.when p).valid a (t.table.valid a ha)
    apart := List.pairwise_map.mpr (t.table.apart.imp fun h => (hf.when p).apart h) }
  next := t.next
  used := by
    intro r hr
    obtain ⟨a, ha, rfl⟩ := List.mem_map.mp hr
    rw [(hf.when p).pk]
    exact t.used a ha

/-- Take the rows away that do not satisfy `p`. -/
def keep (t : Numbered S) (p : α → Bool) : Numbered S where
  table := {
    rows := t.rows.filter p
    valid := fun r hr => t.table.valid r ((List.mem_filter.mp hr).1)
    apart := t.table.apart.filter p }
  next := t.next
  used := fun r hr => t.used r ((List.mem_filter.mp hr).1)

theorem get_eq_some : t.get k = some r ↔ r ∈ t.rows ∧ S.pk r = k := Table.get_eq_some

@[ext] theorem ext (hrows : t.rows = t'.rows) (hnext : t.next = t'.next) : t = t' := by
  obtain ⟨table, next, used⟩ := t
  obtain ⟨table', next', used'⟩ := t'
  obtain rfl : table = table' := Table.ext hrows
  obtain rfl : next = next' := hnext
  rfl

/-! ## Inserts -/

section Insert

variable {build : ℕ → α}

theorem insert_ok (h : t.insert build = .ok t') (hpk : S.pk (build t.next) = t.next) :
    t'.rows = t.rows ++ [build t.next] ∧ t'.next = t.next + 1 ∧
      t.table.insert (build t.next) = .ok t'.table := by
  unfold insert at h
  split at h
  next => cases h
  next table hinsert =>
    cases h
    exact ⟨(Table.insert_ok.mp hinsert).2, by simp [hpk], hinsert⟩

theorem get_insert (h : t.insert build = .ok t') (hpk : S.pk (build t.next) = t.next) (k : ℕ) :
    t'.get k = if t.next = k then some (build t.next) else t.get k := by
  have hinsert := (insert_ok h hpk).2.2
  rw [Numbered.get, Table.get_insert hinsert, hpk]

theorem get_inserted (h : t.insert build = .ok t') (hpk : S.pk (build t.next) = t.next) :
    t'.get t.next = some (build t.next) := by
  rw [get_insert h hpk, if_pos rfl]

/-- A row that passes the checks and the unique indexes is accepted. -/
theorem insert_returns (hpk : S.pk (build t.next) = t.next) :
    (∃ t', t.insert build = .ok t') ↔ S.Valid (build t.next) ∧
      ∀ a ∈ t.rows, ∀ i ∈ S.indexes, ¬ i.Clash a (build t.next) := by
  constructor
  · rintro ⟨t', h⟩
    obtain ⟨⟨hv, hap⟩, -⟩ := Table.insert_ok.mp (insert_ok h hpk).2.2
    exact ⟨hv, fun a ha => (hap a ha).2⟩
  · rintro ⟨hv, hap⟩
    obtain ⟨T, hT⟩ := Table.insert_returns hv fun a ha =>
      ⟨by rw [hpk]; exact Nat.ne_of_lt (t.used a ha), hap a ha⟩
    unfold insert
    split
    next hv =>
      rw [hT] at hv
      cases hv
    next => exact ⟨_, rfl⟩

theorem get_next : t.get t.next = none :=
  Table.get_eq_none.mpr fun r hr => Nat.ne_of_lt (t.used r hr)

end Insert

/-! ## Many rows at a time -/

section Rewrite

variable {hf : S.Preserves f}

@[simp] theorem rows_rewrite :
    (t.rewrite p f hf).rows = t.rows.map fun r => if p r then f r else r := rfl

@[simp] theorem next_rewrite : (t.rewrite p f hf).next = t.next := rfl

theorem mem_rewrite : a ∈ (t.rewrite p f hf).rows ↔
    ∃ r ∈ t.rows, (if p r then f r else r) = a := by simp

theorem get_rewrite (k : ℕ) :
    (t.rewrite p f hf).get k = (t.get k).map fun r => if p r then f r else r := by
  simp only [Numbered.get, Table.get, rewrite, List.find?_map]
  congr 2
  funext r
  simp [Function.comp, (hf.when p).pk]

theorem map_rewrite {β : Type} {c : α → β} (h : ∀ r, c (f r) = c r) :
    (t.rewrite p f hf).rows.map c = t.rows.map c := by
  rw [rows_rewrite, List.map_map]
  refine List.map_congr_left fun r _ => ?_
  simp only [Function.comp]
  split
  · exact h r
  · rfl

end Rewrite

@[simp] theorem rows_keep : (t.keep p).rows = t.rows.filter p := rfl

/-- Rows that are taken away afterwards need not be rewritten. -/
theorem keep_rewrite (hf : S.Preserves f) (hp : ∀ r ∈ t.rows, q r = true → p r = false)
    (hpf : ∀ r, p (f r) = p r) : (t.rewrite q f hf).keep p = t.keep p := by
  refine Numbered.ext ?_ rfl
  rw [rows_keep, rows_rewrite, rows_keep, List.filter_map]
  have hsame : (p ∘ fun r => if q r then f r else r) = p := by
    funext r
    simp only [Function.comp]
    split
    · exact hpf r
    · rfl
  rw [hsame]
  refine (List.map_congr_left fun r hr => ?_).trans (List.map_id _)
  obtain ⟨hr, hkept⟩ := List.mem_filter.mp hr
  split
  next hq =>
    rw [hp r hr hq] at hkept
    cases hkept
  next => rfl

theorem rewrite_congr {hf : S.Preserves f} {hg : S.Preserves g} (hpq : ∀ r ∈ t.rows, p r = q r)
    (hfg : ∀ r ∈ t.rows, q r = true → f r = g r) : t.rewrite p f hf = t.rewrite q g hg := by
  refine Numbered.ext (List.map_congr_left fun r hr => ?_) rfl
  rw [hpq r hr]
  split
  next hq => exact hfg r hr hq
  next => rfl

/-- Rewriting no row changes nothing. -/
theorem rewrite_of_none {hf : S.Preserves f} (h : ∀ r ∈ t.rows, p r = false) :
    t.rewrite p f hf = t := by
  refine Numbered.ext ((List.map_congr_left fun r hr => ?_).trans (List.map_id _)) rfl
  rw [if_neg (by simp [h r hr])]
  rfl

theorem get_keep : (t.keep p).get k = (t.get k).filter p := by
  ext r
  rw [Option.filter_eq_some_iff, get_eq_some, get_eq_some, rows_keep, List.mem_filter]
  exact and_right_comm

end Numbered

end Civicos.Library
