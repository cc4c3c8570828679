import Mathlib.Data.List.Basic
import Mathlib.Data.List.Infix

/-!
# Texts

Printed numbers, separators and markers; and regular expressions as a backtracking matcher reads
them: of two alternatives the first is tried first, and a repetition takes as much as it can. A
cursor is the character before the position and the text behind it.
-/
namespace Civicos.Library

/-- `str.isspace` -/
def Text.isSpace (c : Char) : Bool :=
  c.toNat ∈ [0x20, 0x85, 0xa0, 0x1680, 0x2028, 0x2029, 0x202f, 0x205f, 0x3000] ||
    (9 ≤ c.toNat && c.toNat ≤ 13) || (28 ≤ c.toNat && c.toNat ≤ 31) ||
    (0x2000 ≤ c.toNat && c.toNat ≤ 0x200a)

/-- `str.strip` -/
def Text.strip (s : List Char) : List Char :=
  ((s.dropWhile isSpace).reverse.dropWhile isSpace).reverse

/-- A printed number has nothing but digits. -/
theorem notMem_toString {c : Char} (hc : c.isDigit = false) (n : ℕ) : c ∉ (toString n).toList := by
  intro h
  have hdigit : c.isDigit := Nat.isDigit_of_mem_toDigits (b := 10) (n := n) (by decide)
    (by decide) (by rwa [← Nat.toList_repr])
  exact absurd hdigit (by simp [hc])

/-- Texts without a separator are read off at the first one. -/
theorem append_separator_inj {α : Type} {c : α} {x y u v : List α} (hx : c ∉ x) (hy : c ∉ y)
    (h : x ++ c :: u = y ++ c :: v) : x = y ∧ u = v := by
  induction x generalizing y with
  | nil =>
    cases y with
    | nil => exact ⟨rfl, List.tail_eq_of_cons_eq h⟩
    | cons a y => exact absurd (List.head_eq_of_cons_eq h ▸ List.mem_cons_self) hy
  | cons a x ih =>
    cases y with
    | nil => exact absurd (List.head_eq_of_cons_eq h ▸ List.mem_cons_self) hx
    | cons b y =>
      simp only [List.mem_cons, not_or] at hx hy
      simp only [List.cons_append, List.cons.injEq] at h
      obtain ⟨rfl, rfl⟩ := ih hx.2 hy.2 h.2
      exact ⟨by rw [h.1], rfl⟩

/-- A marker whose first letter does not come again starts in no other place of itself. -/
theorem infix_append_iff {α : Type} {a : α} {q s t : List α} (ha : a ∉ s) :
    a :: q <:+: s ++ t ↔ a :: q <:+: t := by
  induction s with
  | nil => rfl
  | cons b s ih =>
    simp only [List.mem_cons, not_or] at ha
    simp [List.infix_cons_iff, ha.1, ih ha.2]

/-- Nor does it reach a letter that it does not have. -/
theorem infix_concat {α : Type} {c : α} {p s : List α} (hp : p ≠ []) (hc : c ∉ p) :
    p <:+: s ++ [c] ↔ p <:+: s := by
  refine ⟨fun h => ?_, fun h => h.trans ⟨[], [c], rfl⟩⟩
  rcases List.infix_concat_iff.mp h with h | h
  · rcases List.suffix_concat_iff.mp h with rfl | ⟨t, rfl, _⟩
    · exact absurd rfl hp
    · simp at hc
  · exact h

/-- `str.rfind` -/
def rfind {α : Type} [DecidableEq α] (p : List α) : List α → Option ℕ
  | [] => if p = [] then some 0 else none
  | a :: s => ((rfind p s).map (· + 1)).or (if p <+: a :: s then some 0 else none)

section Rfind

variable {α : Type} [DecidableEq α] {p q s v : List α} {a : α} {i : ℕ}

theorem rfind_eq_none : rfind p s = none ↔ ¬ p <:+: s := by
  induction s with
  | nil => simp [rfind]
  | cons a s ih => simp [rfind, List.infix_cons_iff, ih, and_comm]

theorem rfind_append (h : rfind p s = some i) (u : List α) :
    rfind p (u ++ s) = some (u.length + i) := by
  induction u with
  | nil => simpa using h
  | cons a u ih =>
    simp only [List.cons_append, rfind, ih, Option.map_some, Option.some_or, List.length_cons,
      Option.some.injEq]
    omega

/-- The last marker is the one with no other after it. -/
theorem rfind_marker (ha : a ∉ q) (hv : ¬ a :: q <:+: v) (u : List α) :
    rfind (a :: q) (u ++ (a :: q ++ v)) = some u.length := by
  refine rfind_append (i := 0) ?_ u
  have hnone : rfind (a :: q) (q ++ v) = none :=
    rfind_eq_none.mpr ((infix_append_iff ha).not.mpr hv)
  simp [rfind, hnone]

theorem rfind_ok (h : rfind (a :: q) s = some i) :
    ∃ u v, s = u ++ (a :: q ++ v) ∧ u.length = i ∧ ¬ a :: q <:+: v := by
  induction s generalizing i with
  | nil => simp [rfind] at h
  | cons b s ih =>
    cases hs : rfind (a :: q) s with
    | some j =>
      obtain ⟨u, v, rfl, rfl, hv⟩ := ih hs
      refine ⟨b :: u, v, rfl, ?_, hv⟩
      simpa only [rfind, hs, Option.map_some, Option.some_or, Option.some.injEq,
        List.length_cons] using h
    | none =>
      simp only [rfind, hs, Option.map_none, Option.none_or, Option.ite_none_right_eq_some,
        Option.some.injEq] at h
      obtain ⟨⟨v, hv⟩, rfl⟩ := h
      refine ⟨[], v, hv.symm, rfl, fun hin => rfind_eq_none.mp hs ?_⟩
      rw [← List.tail_eq_of_cons_eq hv]
      exact hin.trans (List.suffix_append ..).isInfix

end Rfind

end Civicos.Library

/-! ## Patterns -/

namespace Civicos.Library

/-- The character before a position, and the text behind it -/
abbrev Cursor := Option Char × List Char

inductive Pattern where
  | empty
  | one (p : Char → Bool)
  | cat (a b : Pattern)
  | alt (a b : Pattern)
  /-- A position between a character of a word and one that is none -/
  | boundary (word : Char → Bool)

namespace Pattern

/-- The positions at which a match can end, in the order in which they are tried -/
def ends : Pattern → Cursor → List Cursor
  | empty, s => [s]
  | one _, (_, []) => []
  | one p, (_, c :: cs) => if p c then [(some c, cs)] else []
  | cat a b, s => (a.ends s).flatMap b.ends
  | alt a b, s => a.ends s ++ b.ends s
  | boundary word, s => if s.1.any word = s.2.head?.any word then [] else [s]

/-- A character -/
def char (c : Char) : Pattern := one (· = c)

/-- One pattern after the other -/
def seq (ps : List Pattern) : Pattern := ps.foldr cat empty

/-- The first pattern that matches; none of no patterns -/
def any (ps : List Pattern) : Pattern := ps.foldr alt (one fun _ => false)

def optional (a : Pattern) : Pattern := alt a empty

/-- At most `more` times, as often as possible -/
def upTo (a : Pattern) : ℕ → Pattern
  | 0 => empty
  | more + 1 => optional (cat a (a.upTo more))

/-- `least` to `least + more` times, as often as possible -/
def times (a : Pattern) (least more : ℕ) : Pattern :=
  match least with
  | 0 => a.upTo more
  | least + 1 => cat a (a.times least more)

/-- Replace the matches from left to right, for patterns that match at least one character; `n` is
the length of the text. -/
def subFrom (a : Pattern) (repl : List Char) : ℕ → Cursor → List Char
  | n + 1, (prev, c :: cs) =>
    match (a.ends (prev, c :: cs)).head? with
    | some t => repl ++ subFrom a repl n t
    | none => c :: subFrom a repl n (some c, cs)
  | _, (_, cs) => cs

/-- `re.sub` -/
def sub (a : Pattern) (repl text : String) : String :=
  String.ofList (subFrom a repl.toList text.toList.length (none, text.toList))

example : (times (one Char.isDigit) 1 1).sub "n" "a123b" = "annb" := by decide +kernel

end Pattern

end Civicos.Library
