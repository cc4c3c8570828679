import Mathlib.Data.List.Induction
import Mathlib.Data.List.Nodup
import Mathlib.Data.List.Chain
import Mathlib.Logic.Relation
import Mathlib.Order.Basic

/-!
# Chains

In a chain of hashes each element of a list names the hash of the one before it, the first one a
given start. In a list of linked rows each row but the last names its successor, the next row of the
list; rows with a successor are related to it by `R`.
-/
namespace Civicos.Library

variable {α β : Type*} {parent hash : α → β} {b : β} {a : α} {l m : List α}

def Chained (parent hash : α → β) : β → List α → Prop
  | _, [] => True
  | b, a :: l => parent a = b ∧ Chained parent hash (hash a) l

/-- What the next element has to name -/
def tip (hash : α → β) : β → List α → β
  | b, [] => b
  | _, a :: l => tip hash (hash a) l

instance Chained.decidable [DecidableEq β] :
    (b : β) → (l : List α) → Decidable (Chained parent hash b l)
  | _, [] => inferInstanceAs (Decidable True)
  | _, a :: l =>
    have : Decidable (Chained parent hash (hash a) l) := Chained.decidable (hash a) l
    inferInstanceAs (Decidable (_ ∧ _))

theorem tip_eq (b : β) (l : List α) : tip hash b l = (l.getLast?.map hash).getD b := by
  induction l generalizing b with
  | nil => rfl
  | cons a l ih =>
    rw [tip, ih]
    cases l with
    | nil => rfl
    | cons c l => simp [List.getLast?_eq_some_getLast]

theorem tip_append : tip hash b (l ++ m) = tip hash (tip hash b l) m := by
  induction l generalizing b with
  | nil => rfl
  | cons a l ih => exact ih

namespace Chained

theorem append :
    Chained parent hash b (l ++ m) ↔
      Chained parent hash b l ∧ Chained parent hash (tip hash b l) m := by
  induction l generalizing b with
  | nil => simp [Chained, tip]
  | cons a l ih =>
    rw [List.cons_append, Chained, Chained, tip, ih]
    exact and_assoc.symm

/-- One more element names the last one. -/
theorem concat : Chained parent hash b (l ++ [a]) ↔
    Chained parent hash b l ∧ parent a = tip hash b l := by
  rw [append]
  simp [Chained]

/-- Where hashes rank above what they were made from, later elements name higher ones. -/
theorem rank_le {rank : β → ℕ} (hrank : ∀ a, rank (parent a) < rank (hash a))
    (h : Chained parent hash b l) : ∀ a ∈ l, rank b ≤ rank (parent a) := by
  induction l generalizing b with
  | nil => simp
  | cons a l ih =>
    obtain ⟨rfl, hrest⟩ := h
    intro c hc
    rcases List.mem_cons.mp hc with rfl | hc
    · exact Nat.le_refl _
    · exact Nat.le_trans (Nat.le_of_lt (hrank a)) (ih hrest c hc)

/-- So no two elements name the same. -/
theorem nodup {rank : β → ℕ} (hrank : ∀ a, rank (parent a) < rank (hash a))
    (h : Chained parent hash b l) : (l.map parent).Nodup := by
  induction l generalizing b with
  | nil => simp
  | cons a l ih =>
    obtain ⟨rfl, hrest⟩ := h
    rw [List.map_cons, List.nodup_cons]
    refine ⟨fun hmem => ?_, ih hrest⟩
    obtain ⟨c, hc, hsame⟩ := List.mem_map.mp hmem
    have hle := rank_le hrank hrest c hc
    rw [hsame] at hle
    exact absurd (hrank a) (Nat.not_lt.mpr hle)

/-- What the elements name, and what they are named by, is one sequence. -/
theorem shift (h : Chained parent hash b l) :
    b :: l.map hash = l.map parent ++ [tip hash b l] := by
  induction l generalizing b with
  | nil => rfl
  | cons a l ih =>
    obtain ⟨rfl, hrest⟩ := h
    rw [List.map_cons, List.map_cons, tip, ih hrest, List.cons_append]

/-- Where equal hashes are made from equal parents and none is the start, no hash comes twice. -/
theorem nodup_hash (hinj : ∀ a ∈ l, ∀ c ∈ l, hash a = hash c → parent a = parent c)
    (hne : ∀ a ∈ l, hash a ≠ b) (h : Chained parent hash b l) : (b :: l.map hash).Nodup := by
  induction l using List.reverseRecOn with
  | nil => simp
  | append_singleton l a ih =>
    obtain ⟨hl, ha⟩ := concat.mp h
    have hearlier := ih (fun c hc e he => hinj c (by simp [hc]) e (by simp [he]))
      (fun c hc => hne c (by simp [hc])) hl
    have htip : tip hash b l ∉ l.map parent := by
      rw [shift hl] at hearlier
      grind
    have hfresh : hash a ∉ b :: l.map hash := by
      intro hmem
      rcases List.mem_cons.mp hmem with heq | hmem
      · exact hne a (by simp) heq
      · obtain ⟨c, hc, hsame⟩ := List.mem_map.mp hmem
        apply htip
        rw [← ha, hinj a (by simp) c (by simp [hc]) hsame.symm]
        exact List.mem_map_of_mem hc
    rw [List.map_append, ← List.cons_append]
    exact List.nodup_append.mpr ⟨hearlier, List.nodup_singleton _, by grind⟩

theorem nodup_parent (hinj : ∀ a ∈ l, ∀ c ∈ l, hash a = hash c → parent a = parent c)
    (hne : ∀ a ∈ l, hash a ≠ b) (h : Chained parent hash b l) : (l.map parent).Nodup := by
  have hnodup := nodup_hash hinj hne h
  rw [shift h] at hnodup
  exact (List.nodup_append.mp hnodup).1

end Chained

end Civicos.Library

/-! ## Linked rows and lineages -/

namespace Civicos.Library

variable {α : Type*} {R : α → α → Prop} {next : α → Option ℕ} {l : List α} {a p n : α}

structure Linked (R : α → α → Prop) (next : α → Option ℕ) (l : List α) : Prop where
  chain : l.IsChain R
  last : ∀ a ∈ l.getLast?, next a = none

namespace Linked

theorem nil : Linked R next [] := ⟨.nil, by simp⟩

theorem single (h : next n = none) : Linked R next [n] := ⟨.singleton n, by simpa using h⟩

/-- The last row, with a successor now, and that successor. -/
theorem snoc (h : Linked R next (l ++ [a])) (hbefore : ∀ b, R b a → R b p) (hlink : R p n)
    (hn : next n = none) : Linked R next (l ++ [p] ++ [n]) := by
  refine ⟨List.isChain_append.mpr ⟨?_, .singleton n, ?_⟩, by simpa using hn⟩
  · obtain ⟨hl, -, hjoin⟩ := List.isChain_append.mp h.chain
    refine List.isChain_append.mpr ⟨hl, .singleton p, fun b hb x hx => ?_⟩
    rw [List.head?_cons, Option.mem_some_iff] at hx
    subst hx
    exact hbefore b (hjoin b hb a (by simp))
  · intro b hb x hx
    rw [List.getLast?_concat, Option.mem_some_iff] at hb
    rw [List.head?_cons, Option.mem_some_iff] at hx
    subst hb hx
    exact hlink

theorem map {f : α → α} (h : Linked R next l) (hR : ∀ a b, R a b → R (f a) (f b))
    (hnext : ∀ a, next (f a) = next a) : Linked R next (l.map f) := by
  refine ⟨List.isChain_map_of_isChain f hR h.chain, fun a ha => ?_⟩
  rw [List.getLast?_map, Option.mem_def, Option.map_eq_some_iff] at ha
  obtain ⟨b, hb, rfl⟩ := ha
  rw [hnext]
  exact h.last b hb

/-- The successor of a row is in the list. -/
theorem exists_next (h : Linked R next l) (ha : a ∈ l) (hnext : next a ≠ none) :
    ∃ b ∈ l, R a b := by
  induction l with
  | nil => cases ha
  | cons c l ih =>
    cases l with
    | nil =>
      obtain rfl := List.mem_singleton.mp ha
      exact absurd (h.last a (by simp)) hnext
    | cons b l =>
      obtain ⟨hcb, hrest⟩ := List.isChain_cons_cons.mp h.chain
      rcases List.mem_cons.mp ha with rfl | ha
      · exact ⟨b, by simp, hcb⟩
      · have hlast : Linked R next (b :: l) := ⟨hrest, fun c hc => h.last c (by
          rw [List.getLast?_cons_cons]
          exact hc)⟩
        obtain ⟨d, hd, had⟩ := ih hlast ha
        exact ⟨d, List.mem_cons_of_mem c hd, had⟩

/-- Only the last row has no successor. -/
theorem filter_isNone (h : Linked R next l) (hR : ∀ a b, R a b → (next a).isSome = true) :
    l.filter (fun a => (next a).isNone) = l.getLast?.toList := by
  induction l with
  | nil => rfl
  | cons a l ih =>
    cases l with
    | nil =>
      have ha := h.last a (by simp)
      simp [ha]
    | cons b l =>
      obtain ⟨hab, hrest⟩ := List.isChain_cons_cons.mp h.chain
      have hlast : Linked R next (b :: l) := ⟨hrest, fun c hc => h.last c (by
        rw [List.getLast?_cons_cons]
        exact hc)⟩
      have ha := hR a b hab
      rw [List.filter_cons_of_neg (by simp [Option.isSome_iff_ne_none.mp ha]), ih hlast,
        List.getLast?_cons_cons]

/-- So there is exactly one such row, if there are rows at all. -/
theorem exists_unique_last (h : Linked R next l) (hR : ∀ a b, R a b → (next a).isSome = true)
    (hne : l ≠ []) : ∃ a ∈ l, next a = none ∧ ∀ b ∈ l, next b = none → b = a := by
  obtain ⟨a, ha⟩ : ∃ a, l.getLast? = some a := ⟨_, List.getLast?_eq_some_getLast hne⟩
  refine ⟨a, List.mem_of_getLast? ha, h.last a ha, fun b hb hnone => ?_⟩
  have hmem : b ∈ l.filter (fun a => (next a).isNone) :=
    List.mem_filter.mpr ⟨hb, by simp [hnone]⟩
  rw [h.filter_isNone hR, ha] at hmem
  simpa using hmem

end Linked

end Civicos.Library

/-!
## Lineages

`R a b` says that `b` came in the place of `a`. Where everything has at most one successor and at
most one predecessor, what is connected forms a line, and only its last element has no successor.
-/
namespace Civicos.Library.Lineage

open Relation

variable {α : Type*} {R : α → α → Prop} {r : α → ℕ} {p : α → Prop} {a b : α}

theorem rank_lt (hrank : ∀ a b, R a b → r a < r b) (h : TransGen R a b) : r a < r b := by
  induction h with
  | single h => exact hrank _ _ h
  | tail _ hstep ih => exact Nat.lt_trans ih (hrank _ _ hstep)

theorem acyclic (hrank : ∀ a b, R a b → r a < r b) (a : α) : ¬ TransGen R a a := fun h =>
  Nat.lt_irrefl _ (rank_lt hrank h)

/-- Connected elements stand in one line. -/
theorem comparable (hright : Relator.RightUnique R) (hleft : Relator.LeftUnique R)
    (h : EqvGen R a b) : ReflTransGen R a b ∨ ReflTransGen R b a := by
  induction h with
  | rel a b h => exact .inl (.single h)
  | refl a => exact .inl .refl
  | symm a b _ ih => exact ih.symm
  | trans a b c _ _ ihab ihbc =>
    rcases ihab with hab | hba <;> rcases ihbc with hbc | hcb
    · exact .inl (hab.trans hbc)
    · have hswap : Relator.RightUnique (Function.swap R) := fun x y z hy hz => hleft hy hz
      have htotal := ReflTransGen.total_of_right_unique hswap (reflTransGen_swap.mpr hab)
        (reflTransGen_swap.mpr hcb)
      exact htotal.symm.imp reflTransGen_swap.mp reflTransGen_swap.mp
    · exact ReflTransGen.total_of_right_unique hright hba hbc
    · exact .inr (hcb.trans hba)

/-- A line has only one element of a kind that is never replaced. -/
theorem eq_of_last (hright : Relator.RightUnique R) (hleft : Relator.LeftUnique R)
    (hlast : ∀ a b, p a → ¬ R a b) (h : EqvGen R a b) (ha : p a) (hb : p b) : a = b := by
  have hstuck : ∀ {a b}, p a → ReflTransGen R a b → a = b := fun ha h => by
    rcases h.cases_head with rfl | ⟨c, hac, -⟩
    · rfl
    · exact absurd hac (hlast _ _ ha)
  rcases comparable hright hleft h with h | h
  · exact hstuck ha h
  · exact (hstuck hb h).symm

end Civicos.Library.Lineage
