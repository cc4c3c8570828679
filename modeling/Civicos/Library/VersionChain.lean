import Mathlib.Data.Set.Insert
import Mathlib.Order.Basic

/-!
# Version chains

A version names the first version of its chain, or is the first itself. A set of versions of which
some are marked as the latest is intact when each chain has its first version, exactly one latest
version, and that one carries the highest of its numbers, which are all different.
-/
namespace Civicos.Library

structure Version where
  id : ℕ
  root : Option ℕ
  number : ℕ
deriving DecidableEq

namespace Version

/-- The first version of the chain. -/
def chain (v : Version) : ℕ := v.root.getD v.id

/-- `V` are the versions, `L` those that are marked as the latest. -/
structure Intact (V L : Set Version) : Prop where
  sub : L ⊆ V
  ids : ∀ a ∈ V, ∀ b ∈ V, a.id = b.id → a = b
  rooted : ∀ a ∈ V, ∃ r ∈ V, r.id = a.chain ∧ r.root = none ∧ r.number = 1
  lead : ∀ a ∈ V, ∃ l ∈ L, l.chain = a.chain
  one : ∀ a ∈ L, ∀ b ∈ L, a.chain = b.chain → a = b
  apart : ∀ a ∈ V, ∀ b ∈ V, a.chain = b.chain → a.number = b.number → a = b
  highest : ∀ a ∈ L, ∀ b ∈ V, a.chain = b.chain → b.number ≤ a.number

namespace Intact

variable {V L W : Set Version} {a b l n p r : Version}

theorem empty : Intact ∅ ∅ := by
  constructor <;> simp

/-- The first version of a chain that another version belongs to is there. -/
theorem chain_ne (h : Intact V L) (hnew : ∀ a ∈ V, a.id < n.id) (ha : a ∈ V) : a.chain ≠ n.id := by
  obtain ⟨r, hr, hid, -⟩ := h.rooted a ha
  have hlt := hnew r hr
  omega

theorem ids_insert (h : Intact V L) (hnew : ∀ a ∈ V, a.id < n.id) :
    ∀ a ∈ insert n V, ∀ b ∈ insert n V, a.id = b.id → a = b := by
  rintro a (rfl | ha) b (rfl | hb) hid
  · rfl
  · exact absurd hid (Nat.ne_of_gt (hnew b hb))
  · exact absurd hid (Nat.ne_of_lt (hnew a ha))
  · exact h.ids a ha b hb hid

/-- A chain of one. -/
theorem insert_first (h : Intact V L) (hnew : ∀ a ∈ V, a.id < n.id) (hroot : n.root = none)
    (hnumber : n.number = 1) : Intact (insert n V) (insert n L) where
  sub := Set.insert_subset_insert h.sub
  ids := h.ids_insert hnew
  rooted := by
    rintro a (rfl | ha)
    · exact ⟨a, .inl rfl, by simp [chain, hroot], hroot, hnumber⟩
    · obtain ⟨r, hr, hrest⟩ := h.rooted a ha
      exact ⟨r, .inr hr, hrest⟩
  lead := by
    rintro a (rfl | ha)
    · exact ⟨a, .inl rfl, rfl⟩
    · obtain ⟨l, hl, hchain⟩ := h.lead a ha
      exact ⟨l, .inr hl, hchain⟩
  one := by
    have hn : n.chain = n.id := by simp [chain, hroot]
    rintro a (rfl | ha) b (rfl | hb) hchain
    · rfl
    · exact absurd (hchain.symm.trans hn) (h.chain_ne hnew (h.sub hb))
    · exact absurd (hchain.trans hn) (h.chain_ne hnew (h.sub ha))
    · exact h.one a ha b hb hchain
  apart := by
    have hn : n.chain = n.id := by simp [chain, hroot]
    rintro a (rfl | ha) b (rfl | hb) hchain hsame
    · rfl
    · exact absurd (hchain.symm.trans hn) (h.chain_ne hnew hb)
    · exact absurd (hchain.trans hn) (h.chain_ne hnew ha)
    · exact h.apart a ha b hb hchain hsame
  highest := by
    have hn : n.chain = n.id := by simp [chain, hroot]
    rintro a (rfl | ha) b (rfl | hb) hchain
    · exact le_refl _
    · exact absurd (hchain.symm.trans hn) (h.chain_ne hnew hb)
    · exact absurd (hchain.trans hn) (h.chain_ne hnew (h.sub ha))
    · exact h.highest a ha b hb hchain

/-- A new version gets the next number, and the mark of the version that was the latest. -/
theorem insert_next (h : Intact V L) (hnew : ∀ a ∈ V, a.id < n.id) (hl : l ∈ L)
    (hroot : n.root = some l.chain) (hnumber : n.number = l.number + 1) :
    Intact (insert n V) (insert n (L \ {l})) := by
  have hn : n.chain = l.chain := by simp [chain, hroot]
  have hbelow (a : Version) (ha : a ∈ V) (hchain : a.chain = n.chain) : a.number < n.number := by
    have hle := h.highest l hl a ha (hn.symm.trans hchain.symm)
    omega
  refine ⟨Set.insert_subset_insert (fun a ha => h.sub ha.1), h.ids_insert hnew, ?_, ?_, ?_, ?_,
    ?_⟩
  · rintro a (rfl | ha)
    · obtain ⟨r, hr, hid, hrest⟩ := h.rooted l (h.sub hl)
      exact ⟨r, .inr hr, hid.trans hn.symm, hrest⟩
    · obtain ⟨r, hr, hrest⟩ := h.rooted a ha
      exact ⟨r, .inr hr, hrest⟩
  · rintro a (rfl | ha)
    · exact ⟨a, .inl rfl, rfl⟩
    · obtain ⟨m, hm, hchain⟩ := h.lead a ha
      by_cases hml : m = l
      · exact ⟨n, .inl rfl, hn.trans (hml ▸ hchain)⟩
      · exact ⟨m, .inr ⟨hm, hml⟩, hchain⟩
  · -- Another latest version is of another chain.
    have hother (a : Version) (ha : a ∈ L \ {l}) : a.chain ≠ n.chain := fun hchain =>
      ha.2 (h.one a ha.1 l hl (hchain.trans hn))
    rintro a (rfl | ha) b (rfl | hb) hchain
    · rfl
    · exact absurd hchain.symm (hother b hb)
    · exact absurd hchain (hother a ha)
    · exact h.one a ha.1 b hb.1 hchain
  · rintro a (rfl | ha) b (rfl | hb) hchain hsame
    · rfl
    · exact absurd hsame (Nat.ne_of_gt (hbelow b hb hchain.symm))
    · exact absurd hsame (Nat.ne_of_lt (hbelow a ha hchain))
    · exact h.apart a ha b hb hchain hsame
  · rintro a (rfl | ha) b (rfl | hb) hchain
    · exact le_refl _
    · exact Nat.le_of_lt (hbelow b hb hchain.symm)
    · exact absurd (h.one a ha.1 l hl (hchain.trans hn)) ha.2
    · exact h.highest a ha.1 b hb hchain

/-- Versions may go when no version that stays names one of them as its first, and when none of them
is the latest of a chain that stays. -/
theorem inter (h : Intact V L) (hroots : ∀ a ∈ V, a ∈ W → ∀ r ∈ V, a.root = some r.id → r ∈ W)
    (hlatest : ∀ a ∈ V, a ∈ W → ∀ l ∈ L, l.chain = a.chain → l ∈ W) :
    Intact (V ∩ W) (L ∩ W) where
  sub := Set.inter_subset_inter_left W h.sub
  ids a ha b hb := h.ids a ha.1 b hb.1
  rooted a ha := by
    obtain ⟨r, hr, hid, hrest⟩ := h.rooted a ha.1
    cases hroot : a.root with
    | none =>
      obtain rfl : r = a := h.ids r hr a ha.1 (by simpa [chain, hroot] using hid)
      exact ⟨r, ha, hid, hrest⟩
    | some i =>
      have hname : a.root = some r.id := by simp [hid, chain, hroot]
      exact ⟨r, ⟨hr, hroots a ha.1 ha.2 r hr hname⟩, hid, hrest⟩
  lead a ha := by
    obtain ⟨l, hl, hchain⟩ := h.lead a ha.1
    exact ⟨l, ⟨hl, hlatest a ha.1 ha.2 l hl hchain⟩, hchain⟩
  one a ha b hb := h.one a ha.1 b hb.1
  apart a ha b hb := h.apart a ha.1 b hb.1
  highest a ha b hb := h.highest a ha.1 b hb.1

/-- The latest version is taken back, and the one before it is the latest again. -/
theorem withdraw (h : Intact V L) (hn : n ∈ L) (hp : p ∈ V) (hchain : p.chain = n.chain)
    (hroot : n.root.isSome = true) (hnumber : n.number = p.number + 1) :
    Intact (V \ {n}) (insert p (L \ {n})) := by
  have hpn : p ≠ n := by
    rintro rfl
    omega
  have hbelow (a : Version) (ha : a ∈ V) (hne : a ≠ n) (hsame : a.chain = n.chain) :
      a.number ≤ p.number := by
    have hle := h.highest n hn a ha hsame.symm
    have hdiffer : a.number ≠ n.number := fun hnum => hne (h.apart a ha n (h.sub hn) hsame hnum)
    omega
  have hother (a : Version) (ha : a ∈ L \ {n}) : a.chain ≠ n.chain := fun hsame =>
    ha.2 (h.one a ha.1 n hn hsame)
  refine ⟨?_, fun a ha b hb => h.ids a ha.1 b hb.1, ?_, ?_, ?_,
    fun a ha b hb => h.apart a ha.1 b hb.1, ?_⟩
  · rintro a (rfl | ha)
    · exact ⟨hp, hpn⟩
    · exact ⟨h.sub ha.1, ha.2⟩
  · rintro a ⟨ha, -⟩
    obtain ⟨r, hr, hid, hrnone, hrnumber⟩ := h.rooted a ha
    refine ⟨r, ⟨hr, ?_⟩, hid, hrnone, hrnumber⟩
    rintro rfl
    rw [hrnone] at hroot
    cases hroot
  · rintro a ⟨ha, -⟩
    obtain ⟨l, hl, hlchain⟩ := h.lead a ha
    by_cases hln : l = n
    · exact ⟨p, .inl rfl, hchain.trans (hln ▸ hlchain)⟩
    · exact ⟨l, .inr ⟨hl, hln⟩, hlchain⟩
  · rintro a (rfl | ha) b (rfl | hb) hsame
    · rfl
    · exact absurd (hsame.symm.trans hchain) (hother b hb)
    · exact absurd (hsame.trans hchain) (hother a ha)
    · exact h.one a ha.1 b hb.1 hsame
  · rintro a (rfl | ha) b ⟨hb, hbn⟩ hsame
    · exact hbelow b hb hbn (hsame.symm.trans hchain)
    · exact h.highest a ha.1 b hb hsame

end Intact

end Version

end Civicos.Library
