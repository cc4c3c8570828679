import Civicos.Library.Transaction
import Mathlib.Data.List.Pairwise

/-!
# Tables under constraints

A table holds its rows in insertion order together with a proof that each of them satisfies
the row constraints and that no two of them share the primary key or a value of a unique
index. Inserts and updates check the constraints and fail with the violated one, so a table
that breaks a constraint cannot be built.
-/
namespace Civicos.Library

/-- A unique index. Rows with key `none` are outside of it: a null column, or a row that the
condition of a partial index leaves out. -/
structure Index (α : Type) where
  name : String
  Key : Type
  [dec : DecidableEq Key]
  key : α → Option Key

namespace Index

variable {α : Type} {i : Index α} {a b c : α}

def Clash (i : Index α) (a b : α) : Prop := i.key a ≠ none ∧ i.key a = i.key b

instance : Decidable (i.Clash a b) :=
  have := i.dec
  inferInstanceAs (Decidable (_ ∧ _))

theorem Clash.symm (h : i.Clash a b) : i.Clash b a := ⟨h.2 ▸ h.1, h.2.symm⟩

end Index

inductive Violation where
  | unique (index : String)
  | check (name : String)
  | width (column : String)
deriving DecidableEq, Repr

/-- A constraint on single rows, with the violation that it reports. -/
structure Check (α : Type) where
  violation : Violation
  holds : α → Bool

/-- Text columns of bounded width. -/
def Check.width {α : Type} (column : String) (n : ℕ) (text : α → String) : Check α :=
  ⟨.width column, fun r => (text r).length ≤ n⟩

structure Schema (α : Type) where
  pk : α → ℕ
  indexes : List (Index α) := []
  checks : List (Check α) := []

namespace Schema

variable {α : Type} {S : Schema α} {a b r : α} {rows : List α}

def Valid (S : Schema α) (r : α) : Prop := ∀ c ∈ S.checks, c.holds r = true

def Apart (S : Schema α) (a b : α) : Prop :=
  S.pk a ≠ S.pk b ∧ ∀ i ∈ S.indexes, ¬ i.Clash a b

instance : Decidable (S.Valid r) := inferInstanceAs (Decidable (∀ c ∈ S.checks, _))

instance : Decidable (S.Apart a b) := inferInstanceAs (Decidable (_ ∧ _))

theorem Apart.symm (h : S.Apart a b) : S.Apart b a :=
  ⟨h.1.symm, fun i hi hc => h.2 i hi hc.symm⟩

instance : Std.Symm S.Apart := ⟨fun _ _ => Apart.symm⟩

/-- The first violation of `r` next to `rows`. -/
def violation (S : Schema α) (rows : List α) (r : α) : Option Violation :=
  match S.checks.find? fun c => !c.holds r with
  | some c => some c.violation
  | none =>
    if rows.any fun a => S.pk a = S.pk r then some (.unique "pkey")
    else (S.indexes.find? fun i => rows.any fun a => i.Clash a r).map fun i => .unique i.name

theorem violation_eq_none :
    S.violation rows r = none ↔ S.Valid r ∧ ∀ a ∈ rows, S.Apart a r := by
  unfold violation Apart Valid
  split
  next c hc =>
    simp only [reduceCtorEq, false_iff, not_and]
    intro hv
    have h := List.find?_some hc
    simp [hv c (List.mem_of_find?_eq_some hc)] at h
  next hc =>
    have hv : ∀ c ∈ S.checks, c.holds r = true := by simpa using hc
    split
    next h =>
      simp only [List.any_eq_true, decide_eq_true_eq] at h
      obtain ⟨a, ha, hk⟩ := h
      simp only [reduceCtorEq, false_iff]
      exact fun hall => (hall.2 a ha).1 hk
    next h =>
      simp only [List.any_eq_true, decide_eq_true_eq, not_exists, not_and] at h
      simp only [Option.map_eq_none_iff, List.find?_eq_none, List.any_eq_true, decide_eq_true_eq,
        not_exists, not_and]
      exact ⟨fun hc => ⟨hv, fun a ha => ⟨h a ha, fun i hi => hc i hi a ha⟩⟩,
        fun hall i hi a ha => (hall.2 a ha).2 i hi⟩

end Schema

structure Table {α : Type} (S : Schema α) where
  rows : List α
  valid : ∀ r ∈ rows, S.Valid r
  apart : rows.Pairwise S.Apart

namespace Table

variable {α : Type} {S : Schema α} {t t' : Table S} {k k' : ℕ} {r r' a b : α} {f : α → α}

def empty : Table S := ⟨[], by simp, .nil⟩

instance : Inhabited (Table S) := ⟨empty⟩

instance [DecidableEq α] : DecidableEq (Table S) := fun t t' =>
  decidable_of_iff (t.rows = t'.rows) (by cases t; cases t'; simp)

/-- A primary key that no row has. -/
def next (t : Table S) : ℕ := (t.rows.map S.pk).foldr max 0 + 1

def get (t : Table S) (k : ℕ) : Option α := t.rows.find? (S.pk · = k)

def insert (t : Table S) (r : α) : Except Violation (Table S) :=
  match h : S.violation t.rows r with
  | some c => .error c
  | none => .ok {
      rows := t.rows ++ [r]
      valid := by
        simpa [or_imp, forall_and] using ⟨t.valid, (Schema.violation_eq_none.mp h).1⟩
      apart := by
        refine List.pairwise_append.mpr ⟨t.apart, List.pairwise_singleton _ _, ?_⟩
        simpa using (Schema.violation_eq_none.mp h).2 }

/-- Rewrite the row with primary key `k`; without such a row nothing changes. -/
def update (t : Table S) (k : ℕ) (f : α → α) : Except Violation (Table S) :=
  match t.get k with
  | none => .ok t
  | some r =>
    match h : S.violation (t.rows.filter (S.pk · ≠ k)) (f r) with
    | some c => .error c
    | none => .ok {
        rows := t.rows.map fun a => if S.pk a = k then f r else a
        valid := by
          intro a ha
          obtain ⟨b, hb, rfl⟩ := List.mem_map.mp ha
          split
          · exact (Schema.violation_eq_none.mp h).1
          · exact t.valid b hb
        apart := by
          have hr := (Schema.violation_eq_none.mp h).2
          simp only [ne_eq, decide_not, List.mem_filter, Bool.not_eq_eq_eq_not, Bool.not_true,
            decide_eq_false_iff_not, and_imp] at hr
          refine List.pairwise_map.mpr (t.apart.imp_of_mem fun {a b} ha hb hab => ?_)
          by_cases hak : S.pk a = k <;> by_cases hbk : S.pk b = k
          · exact absurd (hak.trans hbk.symm) hab.1
          · simpa [hak, hbk] using (hr b hb hbk).symm
          · simpa [hak, hbk] using hr a ha hak
          · simpa [hak, hbk] using hab }

@[ext] theorem ext (h : t.rows = t'.rows) : t = t' := by
  cases t
  cases t'
  simpa using h

/-! ## Lookup -/

theorem mem_of_get (h : t.get k = some r) : r ∈ t.rows := List.mem_of_find?_eq_some h

theorem pk_of_get (h : t.get k = some r) : S.pk r = k := by simpa using List.find?_some h

theorem get_eq_none : t.get k = none ↔ ∀ r ∈ t.rows, S.pk r ≠ k := by simp [get]

theorem apart_of_ne (ha : a ∈ t.rows) (hb : b ∈ t.rows) (h : a ≠ b) : S.Apart a b :=
  t.apart.forall ha hb h

theorem eq_of_pk (ha : a ∈ t.rows) (hb : b ∈ t.rows) (h : S.pk a = S.pk b) : a = b :=
  by_contra fun hne => (apart_of_ne ha hb hne).1 h

/-- Two rows that agree on a column of a unique index are one row. -/
theorem eq_of_clash {i : Index α} (hi : i ∈ S.indexes) (ha : a ∈ t.rows) (hb : b ∈ t.rows)
    (h : i.Clash a b) : a = b :=
  by_contra fun hne => (apart_of_ne ha hb hne).2 i hi h

/-- Looking a row up by a column of a unique index. -/
theorem find?_eq_some {i : Index α} (hi : i ∈ S.indexes) {p : α → Bool} (k : i.Key)
    (hp : ∀ r, p r = true ↔ i.key r = some k) :
    t.rows.find? p = some r ↔ r ∈ t.rows ∧ i.key r = some k := by
  constructor
  · intro h
    exact ⟨List.mem_of_find?_eq_some h, (hp r).mp (List.find?_some h)⟩
  · rintro ⟨hr, hk⟩
    cases hf : t.rows.find? p with
    | none => exact absurd ((hp r).mpr hk) (List.find?_eq_none.mp hf r hr)
    | some a =>
      have ha : i.key a = some k := (hp a).mp (List.find?_some hf)
      have hclash : i.Clash a r := ⟨by simp [ha], ha.trans hk.symm⟩
      rw [eq_of_clash hi (List.mem_of_find?_eq_some hf) hr hclash]

/-- At most one row has a key of a unique index. -/
theorem countP_key {i : Index α} (hi : i ∈ S.indexes) {p : α → Bool} (k : i.Key)
    (hp : ∀ r, p r = true ↔ i.key r = some k) :
    t.rows.countP p = if t.rows.any p then 1 else 0 := by
  have hall : ∀ r ∈ t.rows.filter p, i.key r = some k := fun r hr =>
    (hp r).mp (List.mem_filter.mp hr).2
  have hapart := t.apart.filter p
  have hany : t.rows.any p = true ↔ t.rows.filter p ≠ [] := by
    simp [List.filter_eq_nil_iff]
  rw [List.countP_eq_length_filter]
  cases hrows : t.rows.filter p with
  | nil => rw [if_neg (by simp [hany, hrows])]; rfl
  | cons a rest =>
    rw [if_pos (by simp [hany, hrows])]
    rw [hrows] at hall hapart
    cases rest with
    | nil => rfl
    | cons b rest =>
      have ha := hall a (by simp)
      have hb := hall b (by simp)
      have hab := (List.pairwise_cons.mp hapart).1 b (by simp)
      exact absurd ⟨by simp [ha], ha.trans hb.symm⟩ (hab.2 i hi)

/-- The rows with a value of a unique index -/
theorem filter_key {i : Index α} {k : i.Key} {p : α → Bool} (hi : i ∈ S.indexes) (hr : r ∈ t.rows)
    (hk : i.key r = some k) (hp : ∀ a, p a = true ↔ i.key a = some k) : t.rows.filter p = [r] := by
  have hmem : r ∈ t.rows.filter p := List.mem_filter.mpr ⟨hr, (hp r).mpr hk⟩
  have hcount := countP_key (t := t) hi k hp
  rw [if_pos (List.any_eq_true.mpr ⟨r, hr, (hp r).mpr hk⟩), List.countP_eq_length_filter] at hcount
  obtain ⟨a, ha⟩ := List.length_eq_one_iff.mp hcount
  rw [ha, List.mem_singleton] at hmem
  rw [ha, hmem]

theorem get_eq_some : t.get k = some r ↔ r ∈ t.rows ∧ S.pk r = k := by
  refine ⟨fun h => ⟨mem_of_get h, pk_of_get h⟩, fun ⟨hr, hk⟩ => ?_⟩
  cases hg : t.get k with
  | none => exact absurd hk (get_eq_none.mp hg r hr)
  | some s => rw [eq_of_pk hr (mem_of_get hg) (hk.trans (pk_of_get hg).symm)]

theorem lt_next (h : r ∈ t.rows) : S.pk r < t.next := by
  have hle : ∀ l : List ℕ, ∀ k ∈ l, k ≤ l.foldr max 0 := fun l => by
    induction l with
    | nil => simp
    | cons m l ih =>
      simp only [List.mem_cons, List.foldr_cons, forall_eq_or_imp]
      exact ⟨Nat.le_max_left _ _, fun k hk => Nat.le_trans (ih k hk) (Nat.le_max_right _ _)⟩
  exact Nat.lt_succ_of_le (hle _ _ (List.mem_map_of_mem h))

theorem nodup_pk (t : Table S) : (t.rows.map S.pk).Nodup :=
  List.pairwise_map.mpr (t.apart.imp fun hapart => hapart.1)

/-- Lists of rows that the same lookup finds agree when their keys do. -/
theorem eq_of_keys {get : ℕ → Option α} {pk : α → ℕ} {rs rs' : List α}
    (hkeys : rs.map pk = rs'.map pk) (hrs : ∀ r ∈ rs, get (pk r) = some r)
    (hrs' : ∀ r ∈ rs', get (pk r) = some r) : rs = rs' := by
  have hself : ∀ rs : List α, (∀ r ∈ rs, get (pk r) = some r) →
      rs = (rs.map pk).filterMap get := fun rs hrs => by
    induction rs with
    | nil => rfl
    | cons r rs ih =>
      rw [List.map_cons, List.filterMap_cons, hrs r (.head _)]
      exact congrArg (r :: ·) (ih fun a ha => hrs a (.tail _ ha))
  rw [hself rs hrs, hself rs' hrs', hkeys]

/-- A table is determined by its primary keys and the lookups. -/
theorem ext_get (hpk : t'.rows.map S.pk = t.rows.map S.pk) (hget : ∀ k, t'.get k = t.get k) :
    t' = t :=
  ext (eq_of_keys hpk (fun _ hr => (hget _).symm.trans (get_eq_some.mpr ⟨hr, rfl⟩))
    fun _ hr => get_eq_some.mpr ⟨hr, rfl⟩)

@[simp] theorem get_next : t.get t.next = none :=
  get_eq_none.mpr fun _ hr => Nat.ne_of_lt (lt_next hr)

/-! ## Inserts -/

theorem insert_ok : t.insert r = .ok t' ↔
    (S.Valid r ∧ ∀ a ∈ t.rows, S.Apart a r) ∧ t'.rows = t.rows ++ [r] := by
  unfold insert
  split
  next c h =>
    simp only [reduceCtorEq, false_iff, not_and]
    intro hall
    rw [Schema.violation_eq_none.mpr hall] at h
    cases h
  next h =>
    rw [Except.ok.injEq]
    exact ⟨fun hr => ⟨Schema.violation_eq_none.mp h, hr ▸ rfl⟩, fun hr => ext hr.2.symm⟩

theorem mem_insert (h : t.insert r = .ok t') : a ∈ t'.rows ↔ a ∈ t.rows ∨ a = r := by
  rw [(insert_ok.mp h).2, List.mem_append, List.mem_singleton]

theorem insert_returns (hv : S.Valid r) (hap : ∀ a ∈ t.rows, S.Apart a r) :
    ∃ t', t.insert r = .ok t' := by
  unfold insert
  split
  next c h =>
    rw [Schema.violation_eq_none.mpr ⟨hv, hap⟩] at h
    cases h
  next => exact ⟨_, rfl⟩

theorem get_insert (h : t.insert r = .ok t') (k : ℕ) :
    t'.get k = if S.pk r = k then some r else t.get k := by
  obtain ⟨hap, hrows⟩ := insert_ok.mp h
  split
  next hk => exact get_eq_some.mpr ⟨by simp [hrows], hk⟩
  next hk => simp [get, hrows, hk]

theorem get_of_insert (h : t.insert r = .ok t') (hg : t.get k = some a) : t'.get k = some a := by
  obtain ⟨ha, hk⟩ := get_eq_some.mp hg
  exact get_eq_some.mpr ⟨by simp [(insert_ok.mp h).2, ha], hk⟩

theorem insert_error {v : Violation} (h : t.insert r = .error v) :
    S.violation t.rows r = some v := by
  unfold insert at h
  split at h
  next c hc => exact hc.trans (congrArg some (Except.error.inj h))
  next => cases h

/-- The violation of an insert under a fresh primary key names the broken constraint. -/
theorem violated {v : Violation} (h : t.insert r = .error v) (hpk : ∀ a ∈ t.rows, S.pk a ≠ S.pk r) :
    (∃ c ∈ S.checks, c.holds r = false ∧ v = c.violation) ∨
      (S.Valid r ∧ ∃ i ∈ S.indexes, v = .unique i.name ∧ ∃ a ∈ t.rows, i.Clash a r) := by
  have hv := insert_error h
  unfold Schema.violation at hv
  split at hv
  next c hc =>
    have hfails : c.holds r = false := by simpa using List.find?_some hc
    exact .inl ⟨c, List.mem_of_find?_eq_some hc, hfails, (Option.some.inj hv).symm⟩
  next hc =>
    rw [if_neg (by simpa using hpk)] at hv
    obtain ⟨i, hi, rfl⟩ := Option.map_eq_some_iff.mp hv
    have hvalid : S.Valid r := by simpa [Schema.Valid] using hc
    have hclash := List.find?_some hi
    simp only [List.any_eq_true, decide_eq_true_eq] at hclash
    exact .inr ⟨hvalid, i, List.mem_of_find?_eq_some hi, rfl, hclash⟩

/-! ## Updates -/

theorem update_of_none (h : t.get k = none) : t.update k f = .ok t := by
  unfold update
  split
  next => rfl
  next hg => simp [h] at hg

theorem update_ok (hg : t.get k = some r) : t.update k f = .ok t' ↔
    (S.Valid (f r) ∧ ∀ a ∈ t.rows, S.pk a ≠ k → S.Apart a (f r)) ∧
      t'.rows = t.rows.map fun a => if S.pk a = k then f r else a := by
  unfold update
  split
  next hn => simp [hg] at hn
  next r' hr' =>
    obtain rfl : r = r' := Option.some.inj (hg.symm.trans hr')
    split
    next c h =>
      simp only [reduceCtorEq, false_iff, not_and]
      intro hall
      rw [Schema.violation_eq_none.mpr (by simpa using hall)] at h
      cases h
    next h =>
      have hap := Schema.violation_eq_none.mp h
      simp only [ne_eq, decide_not, List.mem_filter, Bool.not_eq_eq_eq_not, Bool.not_true,
        decide_eq_false_iff_not, and_imp] at hap
      rw [Except.ok.injEq]
      exact ⟨fun hr => ⟨hap, hr ▸ rfl⟩, fun hr => ext hr.2.symm⟩

theorem get_update (h : t.update k f = .ok t') (hg : t.get k = some r) (hpk : S.pk (f r) = k)
    (k' : ℕ) : t'.get k' = if k = k' then some (f r) else t.get k' := by
  obtain ⟨-, hrows⟩ := (update_ok hg).mp h
  obtain ⟨hr, hk⟩ := get_eq_some.mp hg
  split
  next hkk =>
    subst hkk
    exact get_eq_some.mpr ⟨hrows ▸ List.mem_map.mpr ⟨r, hr, by simp [hk]⟩, hpk⟩
  next hne =>
    ext a
    rw [get_eq_some, get_eq_some, hrows, List.mem_map]
    constructor
    · rintro ⟨⟨b, hb, rfl⟩, rfl⟩
      by_cases hbk : S.pk b = k
      · simp [hbk, hpk] at hne
      · simp [hbk, hb]
    · rintro ⟨ha, rfl⟩
      exact ⟨⟨a, ha, by simp [Ne.symm hne]⟩, rfl⟩

/-- An update leaves the other rows alone, also when there is no row to update. -/
theorem get_update_of_ne (h : t.update k f = .ok t') (hf : ∀ r, S.pk (f r) = S.pk r)
    (hne : k ≠ k') :
    t'.get k' = t.get k' := by
  cases hr : t.get k with
  | none =>
    rw [update_of_none hr, Except.ok.injEq] at h
    rw [h]
  | some r => rw [get_update h hr ((hf r).trans (pk_of_get hr)), if_neg hne]

theorem mem_update (h : t.update k f = .ok t') (hg : t.get k = some r) :
    a ∈ t'.rows ↔ (a ∈ t.rows ∧ S.pk a ≠ k) ∨ a = f r := by
  obtain ⟨-, hrows⟩ := (update_ok hg).mp h
  obtain ⟨hr, hk⟩ := get_eq_some.mp hg
  rw [hrows, List.mem_map]
  constructor
  · rintro ⟨b, hb, rfl⟩
    by_cases hbk : S.pk b = k
    · exact .inr (by simp [hbk])
    · exact .inl (by simp [hbk, hb])
  · rintro (⟨ha, hak⟩ | rfl)
    · exact ⟨a, ha, by simp [hak]⟩
    · exact ⟨r, hr, by simp [hk]⟩

/-- An update succeeds if the new row is valid and apart from the other rows. -/
theorem update_returns_of_apart (hg : t.get k = some r) (hv : S.Valid (f r))
    (hf : ∀ a ∈ t.rows, S.pk a ≠ k → S.Apart a (f r)) : ∃ t', t.update k f = .ok t' := by
  have hap : ∀ a ∈ t.rows.filter (S.pk · ≠ k), S.Apart a (f r) := by
    intro a ha
    simp only [ne_eq, decide_not, List.mem_filter, Bool.not_eq_eq_eq_not, Bool.not_true,
      decide_eq_false_iff_not] at ha
    exact hf a ha.1 ha.2
  unfold update
  split
  next hn => exact ⟨t, rfl⟩
  next r' hr' =>
    obtain rfl : r = r' := Option.some.inj (hg.symm.trans hr')
    split
    next c h =>
      rw [Schema.violation_eq_none.mpr ⟨hv, hap⟩] at h
      cases h
    next h => exact ⟨_, rfl⟩

/-- An update that keeps the key columns of its row succeeds. -/
theorem update_returns (hg : t.get k = some r) (hv : S.Valid (f r)) (hpk : S.pk (f r) = S.pk r)
    (hf : ∀ i ∈ S.indexes, i.key (f r) = i.key r) : ∃ t', t.update k f = .ok t' := by
  obtain ⟨hr, hk⟩ := get_eq_some.mp hg
  refine update_returns_of_apart hg hv fun a ha hak => ?_
  have har := apart_of_ne ha hr fun h => hak (h ▸ hk)
  exact ⟨hpk ▸ har.1, fun i hi hc => har.2 i hi ⟨hc.1, hc.2.trans (hf i hi)⟩⟩

/-- What an update of a row by a valid row violates. -/
theorem update_error {v : Violation} (h : t.update k f = .error v) (hg : t.get k = some r)
    (hv : S.Valid (f r)) (hpk : S.pk (f r) = S.pk r) :
    ∃ i ∈ S.indexes, v = .unique i.name ∧ ∃ a ∈ t.rows, S.pk a ≠ k ∧ i.Clash a (f r) := by
  unfold update at h
  split at h
  next => cases h
  next r' hr' =>
    obtain rfl : r = r' := Option.some.inj (hg.symm.trans hr')
    split at h
    next c hc =>
      cases h
      unfold Schema.violation at hc
      split at hc
      next d hd =>
        have hfails : d.holds (f r) = false := by simpa using List.find?_some hd
        rw [hv d (List.mem_of_find?_eq_some hd)] at hfails
        cases hfails
      next =>
        rw [if_neg (by simp [hpk, pk_of_get hg])] at hc
        obtain ⟨i, hi, rfl⟩ := Option.map_eq_some_iff.mp hc
        have hclash := List.find?_some hi
        simp only [List.any_eq_true, List.mem_filter, decide_eq_true_eq] at hclash
        obtain ⟨a, ⟨ha, hak⟩, hclash⟩ := hclash
        exact ⟨i, List.mem_of_find?_eq_some hi, rfl, a, ha, by simpa using hak, hclash⟩
    next => cases h

theorem map_update_of_get {β : Type} {g : α → β} (h : t.update k f = .ok t') (hr : t.get k = some r)
    (hg : g (f r) = g r) : t'.rows.map g = t.rows.map g := by
  obtain ⟨-, hrows⟩ := (update_ok hr).mp h
  rw [hrows, List.map_map]
  refine List.map_congr_left fun a ha => ?_
  by_cases hak : S.pk a = k
  · rw [eq_of_pk ha (mem_of_get hr) (hak.trans (pk_of_get hr).symm)]
    simp [pk_of_get hr, hg]
  · simp [hak]

theorem map_update {β : Type} {g : α → β} (h : t.update k f = .ok t') (hg : ∀ a, g (f a) = g a) :
    t'.rows.map g = t.rows.map g := by
  cases hr : t.get k with
  | none =>
    rw [update_of_none hr, Except.ok.injEq] at h
    rw [h]
  | some r => exact map_update_of_get h hr (hg r)

end Table

end Civicos.Library
