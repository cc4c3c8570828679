import Mathlib.Algebra.BigOperators.Group.Finset.Basic
import Mathlib.Algebra.GroupWithZero.Nat
import Mathlib.Algebra.Order.BigOperators.Group.Finset
import Mathlib.Algebra.Order.BigOperators.Group.List
import Mathlib.Data.List.Sort

/-!
# Grouping rows

`GROUP BY` with `ORDER BY`: one group for each key that some row has. The groups are apart, together
they are the rows, and so the sums over the groups add up to the sum over the rows. The keys of a
dictionary that is filled row by row are apart as well, but a key that comes again replaces its
value. Distinct values are those that come for the first time.
-/
namespace Civicos.Library

section Groups

variable {α κ M : Type*} [DecidableEq κ] {key : α → κ} {le : κ → κ → Prop} [DecidableRel le]
  {l : List α} {g : κ × List α} {a : α} {k : κ}

/-- The rows of each key -/
def groupBy (key : α → κ) (le : κ → κ → Prop) [DecidableRel le] (l : List α) :
    List (κ × List α) :=
  ((l.map key).dedup.insertionSort le).map fun k => (k, l.filter (key · = k))

theorem mem_groupBy : g ∈ groupBy key le l ↔
    g.1 ∈ l.map key ∧ g.2 = l.filter (key · = g.1) := by
  constructor
  · intro hg
    obtain ⟨k, hk, rfl⟩ := List.mem_map.mp hg
    exact ⟨by simpa using hk, rfl⟩
  · intro ⟨hk, hrows⟩
    refine List.mem_map.mpr ⟨g.1, by simpa using hk, ?_⟩
    rw [← hrows]

variable (key le l) in
theorem groupBy_nodup : ((groupBy key le l).map (·.1)).Nodup := by
  have hkeys : (groupBy key le l).map (·.1) = (l.map key).dedup.insertionSort le := by
    simp [groupBy, Function.comp_def]
  rw [hkeys]
  exact (List.perm_insertionSort le _).nodup_iff.mpr (List.nodup_dedup _)

theorem exists_group (ha : a ∈ l) : (key a, l.filter (key · = key a)) ∈ groupBy key le l :=
  mem_groupBy.mpr ⟨List.mem_map_of_mem ha, rfl⟩

variable [AddCommMonoid M] (w : α → M)

theorem sum_map_filter (p : α → Bool) (l : List α) :
    ((l.filter p).map w).sum = (l.map fun a => if p a then w a else 0).sum := by
  induction l with
  | nil => rfl
  | cons a l ih =>
    rw [List.map_cons, List.sum_cons, ← ih]
    by_cases h : p a = true <;> simp [h]

variable (key l) in
/-- Distinct keys pick out disjoint parts of the rows. -/
theorem sum_keys {ks : List κ} (hks : ks.Nodup) :
    (ks.map fun k => ((l.filter (key · = k)).map w).sum).sum =
      ((l.filter (key · ∈ ks)).map w).sum := by
  induction ks with
  | nil => simp
  | cons k ks ih =>
    obtain ⟨hk, hks⟩ := List.nodup_cons.mp hks
    rw [List.map_cons, List.sum_cons, ih hks]
    simp only [sum_map_filter]
    rw [← List.sum_map_add]
    refine congrArg List.sum (List.map_congr_left fun a _ => ?_)
    by_cases h : key a = k
    · simp [h, hk]
    · simp [h]

variable (key le l) in
theorem sum_groupBy : ((groupBy key le l).map fun g => (g.2.map w).sum).sum = (l.map w).sum := by
  have hnodup : ((l.map key).dedup.insertionSort le).Nodup :=
    (List.perm_insertionSort le _).nodup_iff.mpr (List.nodup_dedup _)
  have hall : l.filter (fun a => key a ∈ (l.map key).dedup.insertionSort le) = l := by
    refine List.filter_eq_self.mpr fun a ha => ?_
    simpa using ⟨a, ha, rfl⟩
  have hsum := sum_keys key l w hnodup
  rw [hall] at hsum
  simpa [groupBy, Function.comp_def] using hsum

variable (key le l) in
/-- The groups whose keys have a property are the rows whose keys have it. -/
theorem sum_groupBy_filter (p : κ → Bool) :
    (((groupBy key le l).filter fun g => p g.1).map fun g => (g.2.map w).sum).sum =
      ((l.filter fun a => p (key a)).map w).sum := by
  have hnodup : (((l.map key).dedup.insertionSort le).filter p).Nodup :=
    ((List.perm_insertionSort le _).nodup_iff.mpr (List.nodup_dedup _)).filter p
  have hrows : l.filter (fun a => key a ∈ ((l.map key).dedup.insertionSort le).filter p) =
      l.filter fun a => p (key a) := by
    refine List.filter_congr fun a ha => ?_
    have hkey : key a ∈ (l.map key).dedup.insertionSort le := by simpa using ⟨a, ha, rfl⟩
    simp [List.mem_filter, hkey]
  have hsum := sum_keys key l w hnodup
  rw [hrows] at hsum
  rw [← hsum, groupBy, List.filter_map, List.map_map]
  rfl

end Groups

section Weights

variable {α M : Type*} [AddCommMonoid M] [PartialOrder M] [IsOrderedCancelAddMonoid M] {l : List α}
  {f g w : α → M} {p : α → Bool}

theorem sum_map_eq_iff_of_le (hle : ∀ a ∈ l, f a ≤ g a) :
    (l.map f).sum = (l.map g).sum ↔ ∀ a ∈ l, f a = g a := by
  induction l with
  | nil => simp
  | cons a l ih =>
    obtain ⟨ha, hl⟩ := List.forall_mem_cons.mp hle
    have hsum : (l.map f).sum ≤ (l.map g).sum := List.sum_le_sum hl
    rw [List.map_cons, List.map_cons, List.sum_cons, List.sum_cons,
      add_eq_add_iff_eq_and_eq ha hsum, ih hl, List.forall_mem_cons]

/-- A part of the rows weighs as much as all of them only if it is all of them. -/
theorem sum_filter_eq_iff (hpos : ∀ a ∈ l, 0 < w a) :
    ((l.filter p).map w).sum = (l.map w).sum ↔ ∀ a ∈ l, p a = true := by
  rw [sum_map_filter, sum_map_eq_iff_of_le]
  · refine forall₂_congr fun a ha => ?_
    by_cases h : p a = true
    · simp [h]
    · simp [h, (hpos a ha).ne]
  · intro a ha
    split
    · exact le_rfl
    · exact (hpos a ha).le

end Weights

section Distinct

variable {α β κ : Type*} [DecidableEq κ] [DecidableEq β] {key : α → κ} {le : κ → κ → Prop}
  [DecidableRel le] {l : List α}

/-- `COUNT(DISTINCT …)` -/
def countDistinct (f : α → β) (l : List α) : ℕ := (l.map f).toFinset.card

variable (key le l) in
/-- A value counts once in each group that has it. -/
theorem sum_countDistinct (f : α → β) :
    ((groupBy key le l).map fun g => countDistinct f g.2).sum =
      countDistinct (fun a => (key a, f a)) l := by
  have hnodup : ((l.map key).dedup.insertionSort le).Nodup :=
    (List.perm_insertionSort le _).nodup_iff.mpr (List.nodup_dedup _)
  have hkeys : ∀ p ∈ (l.map fun a => (key a, f a)).toFinset,
      p.1 ∈ ((l.map key).dedup.insertionSort le).toFinset := by
    intro p hp
    obtain ⟨a, ha, rfl⟩ := List.mem_map.mp (List.mem_toFinset.mp hp)
    simpa using ⟨a, ha, rfl⟩
  rw [countDistinct, Finset.card_eq_sum_card_fiberwise hkeys, List.sum_toFinset _ hnodup, groupBy,
    List.map_map]
  refine congrArg List.sum (List.map_congr_left fun k _ => ?_)
  have hfibre : (l.map fun a => (key a, f a)).toFinset.filter (·.1 = k) =
      ((l.filter (key · = k)).map f).toFinset.image (k, ·) := by
    ext ⟨k', b⟩
    simp only [Finset.mem_filter, List.mem_toFinset, List.mem_map, Finset.mem_image,
      List.mem_filter]
    grind
  rw [hfibre, Finset.card_image_of_injective _ (Prod.mk_right_injective k)]
  rfl

/-- It counts once in all exactly when it is in one group. -/
theorem countDistinct_pair_eq_iff (f : α → β) :
    countDistinct (fun a => (key a, f a)) l = countDistinct f l ↔
      ∀ a ∈ l, ∀ b ∈ l, f a = f b → key a = key b := by
  have himage : (l.map f).toFinset = (l.map fun a => (key a, f a)).toFinset.image (·.2) := by
    ext b
    simp
  unfold countDistinct
  rw [himage, eq_comm, Finset.card_image_iff]
  constructor
  · intro hinj a ha b hb heq
    have hmem : ∀ c ∈ l, (key c, f c) ∈ (l.map fun a => (key a, f a)).toFinset := by
      intro c hc
      simpa using ⟨c, hc, rfl, rfl⟩
    exact congrArg Prod.fst (hinj (hmem a ha) (hmem b hb) heq)
  · intro hsame p hp q hq heq
    obtain ⟨a, ha, rfl⟩ := List.mem_map.mp (List.mem_toFinset.mp hp)
    obtain ⟨b, hb, rfl⟩ := List.mem_map.mp (List.mem_toFinset.mp hq)
    exact Prod.ext (hsame a ha b hb heq) heq

end Distinct

/-! ## Dictionaries -/

section Assign

variable {α β κ : Type*} [DecidableEq κ] {d : List (κ × β)} {k : κ} {b : β} {e : κ × β}

/-- `d[k] = b` -/
def assign (d : List (κ × β)) (k : κ) (b : β) : List (κ × β) :=
  if k ∈ d.map (·.1) then d.map fun e => if e.1 = k then (k, b) else e else d ++ [(k, b)]

theorem mem_assign (he : e ∈ assign d k b) : e ∈ d ∨ e = (k, b) := by
  unfold assign at he
  split at he
  next =>
    obtain ⟨e', he', rfl⟩ := List.mem_map.mp he
    split
    next => exact .inr rfl
    next => exact .inl he'
  next => simpa using he

variable (key : α → κ) (value : α → β)

/-- The dictionary that a loop over rows fills -/
def assignAll (rows : List α) (d : List (κ × β)) : List (κ × β) :=
  rows.foldl (fun d row => assign d (key row) (value row)) d

/-- Every value was assigned by some row. -/
theorem mem_assignAll {rows : List α} (he : e ∈ assignAll key value rows d) :
    e ∈ d ∨ ∃ row ∈ rows, e = (key row, value row) := by
  induction rows generalizing d with
  | nil => exact .inl he
  | cons row rows ih =>
    rcases ih he with hd | ⟨row', hrow', heq⟩
    · rcases mem_assign hd with hd | heq
      · exact .inl hd
      · exact .inr ⟨row, .head _, heq⟩
    · exact .inr ⟨row', .tail _ hrow', heq⟩

/-- Where no key comes twice, nothing is replaced. -/
theorem assignAll_of_nodup {rows : List α} (hnodup : (d.map (·.1) ++ rows.map key).Nodup) :
    assignAll key value rows d = d ++ rows.map fun row => (key row, value row) := by
  induction rows generalizing d with
  | nil => simp [assignAll]
  | cons row rows ih =>
    have hfresh : key row ∉ d.map (·.1) := by grind
    have hstep : assign d (key row) (value row) = d ++ [(key row, value row)] := if_neg hfresh
    change assignAll key value rows (assign d (key row) (value row)) = _
    rw [hstep, ih]
    · simp
    · simpa using hnodup

end Assign

/-! ## Lookups -/

section Lookup

variable {α κ β : Type} [DecidableEq κ] {key : α → κ} {value : α → Option β} {l : List α} {a : α}
  {k : κ}

theorem lookup_filterMap_of_notMem (hk : k ∉ l.map key) :
    (l.filterMap fun a => (value a).map fun b => (key a, b)).lookup k = none := by
  refine List.lookup_eq_none_iff.mpr fun e he => ?_
  obtain ⟨a, ha, heq⟩ := List.mem_filterMap.mp he
  obtain ⟨b, -, rfl⟩ := Option.map_eq_some_iff.mp heq
  have hne : k ≠ key a := fun h => hk (h ▸ List.mem_map_of_mem ha)
  simpa using hne

/-- Under distinct keys, each finds what was put under it. -/
theorem lookup_filterMap (hkeys : (l.map key).Nodup) (ha : a ∈ l) :
    (l.filterMap fun a => (value a).map fun b => (key a, b)).lookup (key a) = value a := by
  induction l with
  | nil => cases ha
  | cons a' l ih =>
    obtain ⟨hnew, hkeys⟩ := List.nodup_cons.mp hkeys
    rcases List.mem_cons.mp ha with rfl | ha
    · cases hvalue : value a with
      | none =>
        rw [List.filterMap_cons_none (by rw [hvalue]; rfl)]
        exact lookup_filterMap_of_notMem hnew
      | some b =>
        rw [List.filterMap_cons_some (by rw [hvalue]; rfl)]
        exact List.lookup_cons_self
    · have hdiff : key a ≠ key a' := fun h => hnew (h ▸ List.mem_map_of_mem ha)
      have hne : (key a == key a') = false := by simpa using hdiff
      cases hvalue : value a' with
      | none =>
        rw [List.filterMap_cons_none (by rw [hvalue]; rfl)]
        exact ih hkeys ha
      | some b =>
        rw [List.filterMap_cons_some (by rw [hvalue]; rfl), List.lookup_cons, hne]
        exact ih hkeys ha

theorem lookup_filter (p : κ → Bool) (d : List (κ × β)) (k : κ) :
    (d.filter fun e => p e.1).lookup k = if p k then d.lookup k else none := by
  induction d with
  | nil => split <;> rfl
  | cons e d ih =>
    obtain ⟨j, b⟩ := e
    rw [List.filter_cons]
    by_cases hk : k = j
    · subst hk
      cases hp : p k with
      | false => simp [ih, hp]
      | true => simp
    · have hne : (k == j) = false := by simpa using hk
      split
      · rw [List.lookup_cons, List.lookup_cons, hne, ih]
      · rw [ih, List.lookup_cons, hne]

end Lookup

section Distinct

variable {α : Type*} [DecidableEq α] {l : List α}

theorem eraseDups_concat (l : List α) (a : α) :
    (l ++ [a]).eraseDups = l.eraseDups ++ if a ∈ l then [] else [a] := by
  rw [List.eraseDups_append]
  by_cases ha : a ∈ l <;> simp [List.removeAll, List.eraseDups_cons, ha]

theorem nodup_eraseDups (l : List α) : l.eraseDups.Nodup := by
  induction l using List.reverseRecOn with
  | nil => exact .nil
  | append_singleton l a ih =>
    rw [eraseDups_concat]
    by_cases ha : a ∈ l
    · simpa [ha] using ih
    · simp only [ha, if_false]
      refine List.nodup_append'.mpr ⟨ih, List.nodup_singleton a, ?_⟩
      simpa [List.disjoint_singleton] using ha

theorem eraseDups_eq_self_iff : l.eraseDups = l ↔ l.Nodup := by
  constructor
  · intro h
    exact h ▸ nodup_eraseDups l
  · intro h
    induction l using List.reverseRecOn with
    | nil => rfl
    | append_singleton l a ih =>
      obtain ⟨hl, -, hdisjoint⟩ := List.nodup_append'.mp h
      have ha : a ∉ l := fun hmem => hdisjoint hmem (List.mem_singleton.mpr rfl)
      rw [eraseDups_concat, ih hl, if_neg ha]

end Distinct

end Civicos.Library
