import Civicos.Library.Pool

/-!
# Rows under locks

Transactions over the rows of a table and a log. A transaction reads what is committed, locks rows
that nobody else has locked, and writes new versions of rows that it has locked; the others see them
when it commits. A transaction that stops before that has written nothing.

The rule `invariant` asks of the assertion about a transaction that it depends on the rows that the
transaction has locked and on nothing else that is written.
-/
namespace Civicos.Library

/-- The committed rows under their keys, and the log -/
structure Shared (κ ρ η : Type*) where
  row : κ → Option ρ
  log : List η

/-- New versions of rows, and entries for the log -/
structure Writes (κ ρ η : Type*) where
  versions : List (κ × ρ)
  entries : List η

/-- A kind of transaction: the rows that it has locked, how it goes on, and what it commits. New
rows come with entries of the log. -/
structure Locking (κ ρ η φ ε : Type*) where
  Init : Shared κ ρ η → Prop
  entry : φ → Bool
  stopped : φ
  held : φ → List κ
  advance : Shared κ ρ η → φ → ε → Option φ
  commit : φ → Option (Writes κ ρ η × φ)
  admits : ρ → List η → Bool
  entry_free : ∀ p, entry p = true → held p = []
  stopped_free : held stopped = []
  commit_free : ∀ p w q, commit p = some (w, q) → held q = []
  commit_held : ∀ p w q, commit p = some (w, q) → ∀ v ∈ w.versions, v.1 ∈ held p

namespace Shared

variable {κ ρ η : Type*} [DecidableEq κ] {s : Shared κ ρ η} {w : Writes κ ρ η} {k : κ} {r : ρ}

def apply (s : Shared κ ρ η) (w : Writes κ ρ η) : Shared κ ρ η where
  row k := (w.versions.lookup k).or (s.row k)
  log := s.log ++ w.entries

theorem apply_row_of_notMem (h : ∀ v ∈ w.versions, v.1 ≠ k) : (s.apply w).row k = s.row k := by
  have hnone : w.versions.lookup k = none := by
    rw [List.lookup_eq_none_iff]
    intro v hv
    simpa using (h v hv).symm
  simp [apply, hnone]

theorem apply_row_of_mem (h : (k, r) ∈ w.versions) (hnodup : (w.versions.map (·.1)).Nodup) :
    (s.apply w).row k = some r := by
  have hsome : w.versions.lookup k = some r := by
    generalize w.versions = versions at h hnodup
    induction versions with
    | nil => cases h
    | cons v versions ih =>
      obtain ⟨hhead, htail⟩ := List.nodup_cons.mp hnodup
      rcases List.mem_cons.mp h with rfl | h
      · simp
      · have hne : k ≠ v.1 := fun heq => hhead (List.mem_map.mpr ⟨_, h, heq⟩)
        rw [List.lookup_cons, beq_false_of_ne hne]
        exact ih h htail
  simp [apply, hsome]

end Shared

namespace Locking

structure State (κ ρ η φ : Type*) where
  shared : Shared κ ρ η
  sessions : List φ

inductive Label (κ ρ η φ ε : Type*) where
  | begin (p : φ)
  | advance (i : ℕ) (e : ε)
  | commit (i : ℕ)
  | stop (i : ℕ)
  | add (k : κ) (r : ρ) (entries : List η)

variable {κ ρ η φ ε : Type*} [DecidableEq κ] {P : Locking κ ρ η φ ε} {s t : State κ ρ η φ}
  {i : ℕ} {e : ε} {p q : φ} {w : Writes κ ρ η}

/-- The new locks of `q` are on rows that nobody has locked. -/
def Grants (P : Locking κ ρ η φ ε) (sessions : List φ) (p q : φ) : Prop :=
  ∀ k ∈ P.held q, k ∈ P.held p ∨ ∀ r ∈ sessions, k ∉ P.held r

instance (sessions : List φ) (p q : φ) : Decidable (P.Grants sessions p q) :=
  inferInstanceAs (Decidable (∀ k ∈ P.held q, k ∈ P.held p ∨ ∀ r ∈ sessions, k ∉ P.held r))

def step (P : Locking κ ρ η φ ε) (s : State κ ρ η φ) :
    Label κ ρ η φ ε → Option (State κ ρ η φ)
  | .begin p => if P.entry p then some { s with sessions := s.sessions ++ [p] } else none
  | .advance i e => (s.sessions[i]?).bind fun p => (P.advance s.shared p e).bind fun q =>
      if P.Grants s.sessions p q then some { s with sessions := s.sessions.set i q } else none
  | .commit i => (s.sessions[i]?).bind fun p =>
      (P.commit p).map fun c => ⟨s.shared.apply c.1, s.sessions.set i c.2⟩
  | .stop i => some { s with sessions := s.sessions.set i P.stopped }
  | .add k r entries =>
      if (s.shared.row k).isNone && P.admits r entries then
        some { s with shared := s.shared.apply ⟨[(k, r)], entries⟩ }
      else none

def machine (P : Locking κ ρ η φ ε) : Machine (State κ ρ η φ) (Label κ ρ η φ ε) where
  Init s := P.Init s.shared ∧ s.sessions = []
  step := P.step

/-- Everything a step can do -/
theorem step_cases {l : Label κ ρ η φ ε} (h : P.machine.step s l = some t) :
    (∃ p, l = .begin p ∧ P.entry p = true ∧ t = ⟨s.shared, s.sessions ++ [p]⟩) ∨
    (∃ i e p q, l = .advance i e ∧ s.sessions[i]? = some p ∧ P.advance s.shared p e = some q ∧
      P.Grants s.sessions p q ∧ t = ⟨s.shared, s.sessions.set i q⟩) ∨
    (∃ i p w q, l = .commit i ∧ s.sessions[i]? = some p ∧ P.commit p = some (w, q) ∧
      t = ⟨s.shared.apply w, s.sessions.set i q⟩) ∨
    (∃ i, l = .stop i ∧ t = ⟨s.shared, s.sessions.set i P.stopped⟩) ∨
    (∃ k r entries, l = .add k r entries ∧ s.shared.row k = none ∧ P.admits r entries = true ∧
      t = ⟨s.shared.apply ⟨[(k, r)], entries⟩, s.sessions⟩) := by
  cases l with
  | begin p =>
    simp only [machine, step, Option.ite_none_right_eq_some, Option.some.injEq] at h
    exact .inl ⟨p, rfl, h.1, h.2.symm⟩
  | advance i e =>
    obtain ⟨p, hp, h⟩ := Option.bind_eq_some_iff.mp h
    obtain ⟨q, hq, h⟩ := Option.bind_eq_some_iff.mp h
    simp only [Option.ite_none_right_eq_some, Option.some.injEq] at h
    exact .inr (.inl ⟨i, e, p, q, rfl, hp, hq, h.1, h.2.symm⟩)
  | commit i =>
    obtain ⟨p, hp, h⟩ := Option.bind_eq_some_iff.mp h
    obtain ⟨⟨w, q⟩, hcommit, rfl⟩ := Option.map_eq_some_iff.mp h
    exact .inr (.inr (.inl ⟨i, p, w, q, rfl, hp, hcommit, rfl⟩))
  | stop i =>
    simp only [machine, step, Option.some.injEq] at h
    exact .inr (.inr (.inr (.inl ⟨i, rfl, h.symm⟩)))
  | add k r entries =>
    simp only [machine, step, Option.ite_none_right_eq_some, Option.some.injEq,
      Bool.and_eq_true, Option.isNone_iff_eq_none] at h
    exact .inr (.inr (.inr (.inr ⟨k, r, entries, rfl, h.1.1, h.1.2, h.2.symm⟩)))

/-! ## Locks are exclusive -/

/-- Whether a transaction has locked a row -/
def holds (P : Locking κ ρ η φ ε) (k : κ) (p : φ) : Option Unit :=
  if k ∈ P.held p then some () else none

theorem holds_eq {k : κ} {u : Unit} : P.holds k p = some u ↔ k ∈ P.held p := by
  simp [holds]

theorem holds_of_free {k : κ} (h : P.held p = []) : P.holds k p = none := by
  simp [holds, h]

/-- No row is locked by two transactions. -/
def Exclusive (P : Locking κ ρ η φ ε) (sessions : List φ) : Prop :=
  ∀ k, Program.HeldOnce (P.holds k) sessions

theorem Exclusive.set_free (h : P.Exclusive s.sessions) (hq : P.held q = []) :
    P.Exclusive (s.sessions.set i q) := by
  intro k
  refine (h k).set fun j r u _ _ _ hheld => ?_
  cases (holds_of_free hq).symm.trans hheld

theorem exclusive_step {l : Label κ ρ η φ ε} (h : P.Exclusive s.sessions)
    (hstep : P.machine.step s l = some t) : P.Exclusive t.sessions := by
  obtain ⟨p, -, hp, rfl⟩ | ⟨i, e, p, q, -, hp, -, hgrants, rfl⟩ | ⟨i, p, w, q, -, -, hcommit, rfl⟩ |
    ⟨i, -, rfl⟩ | ⟨k, r, entries, -, -, -, rfl⟩ := step_cases hstep
  · exact fun k => (h k).append (holds_of_free (P.entry_free p hp))
  · refine fun k => (h k).set fun j r u hij hr hheld hnew => ?_
    rcases hgrants k (holds_eq.mp hnew) with hold | hfree
    · exact hij (h k j i r p u hr hp hheld (holds_eq.mpr hold))
    · exact hfree r (List.mem_of_getElem? hr) (holds_eq.mp hheld)
  · exact h.set_free (P.commit_free p w q hcommit)
  · exact h.set_free P.stopped_free
  · exact h

/-- Two transactions that have locked the same row are one. -/
theorem Exclusive.eq {j : ℕ} {k : κ} (h : P.Exclusive s.sessions) (hp : s.sessions[i]? = some p)
    (hq : s.sessions[j]? = some q) (hi : k ∈ P.held p) (hj : k ∈ P.held q) : i = j :=
  h k i j p q () hp hq (holds_eq.mpr hi) (holds_eq.mpr hj)

/-! ## The invariant rule -/

/-- `I` is kept on what is committed and `J` for every transaction. -/
theorem invariant {I : Shared κ ρ η → Prop} {J : Shared κ ρ η → φ → Prop}
    (start : ∀ st, P.Init st → I st)
    (entry : ∀ st p, P.entry p = true → J st p)
    (stopped : ∀ st, J st P.stopped)
    (exist : ∀ st p k, J st p → k ∈ P.held p → st.row k ≠ none)
    (frame : ∀ st st' p, J st p → (∀ k ∈ P.held p, st'.row k = st.row k) → J st' p)
    (advance : ∀ st p e q, J st p → P.advance st p e = some q → J st q)
    (commit : ∀ st p w q, I st → J st p → P.commit p = some (w, q) →
      I (st.apply w) ∧ J (st.apply w) q)
    (add : ∀ st k r entries, I st → st.row k = none → P.admits r entries = true →
      I (st.apply ⟨[(k, r)], entries⟩))
    (h : P.machine.Reachable s) :
    (I s.shared ∧ ∀ p ∈ s.sessions, J s.shared p) ∧ P.Exclusive s.sessions := by
  refine h.invariant (I := fun s =>
    (I s.shared ∧ ∀ p ∈ s.sessions, J s.shared p) ∧ P.Exclusive s.sessions)
    (fun s₀ h₀ => ⟨⟨start _ h₀.1, by simp [h₀.2]⟩, by simp [Exclusive, Program.HeldOnce, h₀.2]⟩) ?_
  rintro u l v - ⟨⟨hI, hJ⟩, hexclusive⟩ hstep
  refine ⟨?_, exclusive_step hexclusive hstep⟩
  obtain ⟨p, -, hp, rfl⟩ | ⟨i, e, p, q, -, hp, hadvance, -, rfl⟩ |
    ⟨i, p, w, q, -, hp, hcommit, rfl⟩ | ⟨i, -, rfl⟩ | ⟨k, r, entries, -, hnone, hadmits, rfl⟩ :=
    step_cases hstep
  · refine ⟨hI, fun q hq => ?_⟩
    rcases List.mem_append.mp hq with hq | hq
    · exact hJ q hq
    · obtain rfl := List.mem_singleton.mp hq
      exact entry _ q hp
  · refine ⟨hI, fun r hr => ?_⟩
    rcases List.mem_or_eq_of_mem_set hr with hr | rfl
    · exact hJ r hr
    · exact advance _ p e _ (hJ p (List.mem_of_getElem? hp)) hadvance
  · obtain ⟨hI', hq⟩ := commit _ p w q hI (hJ p (List.mem_of_getElem? hp)) hcommit
    refine ⟨hI', fun r hr => ?_⟩
    obtain ⟨j, hj⟩ := List.getElem?_of_mem hr
    rcases Program.getElem?_set_cases hj with ⟨-, rfl⟩ | ⟨hji, hj⟩
    · exact hq
    · refine frame _ _ r (hJ r (List.mem_of_getElem? hj)) fun k hk => ?_
      refine Shared.apply_row_of_notMem fun v hv hkey => hji ?_
      exact hexclusive.eq hj hp hk (hkey ▸ P.commit_held p w q hcommit v hv)
  · refine ⟨hI, fun r hr => ?_⟩
    rcases List.mem_or_eq_of_mem_set hr with hr | rfl
    · exact hJ r hr
    · exact stopped _
  · refine ⟨add _ k r entries hI hnone hadmits, fun q hq => ?_⟩
    refine frame _ _ q (hJ q hq) fun k' hk' => ?_
    refine Shared.apply_row_of_notMem fun v hv hkey => ?_
    obtain rfl := List.mem_singleton.mp hv
    exact exist _ q k' (hJ q hq) hk' (hkey ▸ hnone)

/-- What is committed in a step is what one transaction has written, or a new row. -/
theorem shared_cases {l : Label κ ρ η φ ε} (h : P.machine.step s l = some t) :
    t.shared = s.shared ∨
    (∃ p w q, p ∈ s.sessions ∧ P.commit p = some (w, q) ∧ t.shared = s.shared.apply w) ∨
    ∃ k r entries, s.shared.row k = none ∧ P.admits r entries = true ∧
      t.shared = s.shared.apply ⟨[(k, r)], entries⟩ := by
  obtain ⟨p, -, -, rfl⟩ | ⟨i, e, p, q, -, -, -, -, rfl⟩ | ⟨i, p, w, q, -, hp, hcommit, rfl⟩ |
    ⟨i, -, rfl⟩ | ⟨k, r, entries, -, hnone, hadmits, rfl⟩ := step_cases h
  · exact .inl rfl
  · exact .inl rfl
  · exact .inr (.inl ⟨p, w, q, List.mem_of_getElem? hp, hcommit, rfl⟩)
  · exact .inl rfl
  · exact .inr (.inr ⟨k, r, entries, hnone, hadmits, rfl⟩)

/-- Following one transaction: an assertion about it that it keeps itself, and that no step of the
others breaks. -/
theorem followed {K : Shared κ ρ η → φ → Prop} (hs : P.machine.Reachable s)
    (hp : s.sessions[i]? = some p) (hK : K s.shared p)
    (others : ∀ u l v q, P.machine.Reachable u → P.machine.step u l = some v → K u.shared q →
      K v.shared q)
    (advance : ∀ u e p q, P.machine.Reachable u → p ∈ u.sessions → K u.shared p →
      P.advance u.shared p e = some q → K u.shared q)
    (commit : ∀ u p w q, P.machine.Reachable u → p ∈ u.sessions → K u.shared p →
      P.commit p = some (w, q) → K (u.shared.apply w) q)
    (stopped : ∀ st, K st P.stopped) (h : P.machine.Later s t) :
    ∃ q, t.sessions[i]? = some q ∧ K t.shared q := by
  refine h.induct (I := fun t => ∃ q, t.sessions[i]? = some q ∧ K t.shared q) ⟨p, hp, hK⟩ ?_
  rintro u l v hu ⟨q, hq, hK⟩ hstep
  have hreach := hs.later hu
  have hsame := others u l v q hreach hstep hK
  have hlt := (List.getElem?_eq_some_iff.mp hq).1
  obtain ⟨r, -, -, rfl⟩ | ⟨j, e, r, r', -, hr, hadvance, -, rfl⟩ |
    ⟨j, r, w, r', -, hr, hcommit, rfl⟩ | ⟨j, -, rfl⟩ | ⟨k, r, entries, -, -, -, rfl⟩ :=
    step_cases hstep
  · exact ⟨q, by rw [List.getElem?_append_left hlt, hq], hsame⟩
  · by_cases hij : j = i
    · subst hij
      obtain rfl : q = r := Option.some.inj (hq.symm.trans hr)
      exact ⟨r', by simp [hlt],
        advance u e q r' hreach (List.mem_of_getElem? hq) hK hadvance⟩
    · exact ⟨q, by rw [List.getElem?_set_ne hij, hq], hsame⟩
  · by_cases hij : j = i
    · subst hij
      obtain rfl : q = r := Option.some.inj (hq.symm.trans hr)
      exact ⟨r', by simp [hlt], commit u q w r' hreach (List.mem_of_getElem? hq) hK hcommit⟩
    · exact ⟨q, by rw [List.getElem?_set_ne hij, hq], hsame⟩
  · by_cases hij : j = i
    · subst hij
      exact ⟨P.stopped, by simp [hlt], stopped _⟩
    · exact ⟨q, by rw [List.getElem?_set_ne hij, hq], hsame⟩
  · exact ⟨q, hq, hsame⟩

end Locking

end Civicos.Library
