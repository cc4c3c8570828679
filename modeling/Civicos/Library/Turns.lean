import Civicos.Library.Pool

/-!
# Workers that take turns

In some runs a worker that enters a critical stretch finds no other worker in one. The store then
meets its invariant whenever nobody has the turn; whoever has it may break the invariant, and keeps
an assertion of its own until it gives the turn back.
-/
namespace Civicos.Library.Program

open Pool

variable {σ φ ε η : Type*} {P : Program σ φ ε η} {busy : φ → Bool} {admits : σ → φ → Prop}
  {frail : φ → Bool}

/-- A worker takes the turn when nobody has it and the store admits it, and with the turn it only
dies where it may. -/
def Turns (busy : φ → Bool) (admits : σ → φ → Prop) (frail : φ → Bool) (s : State σ φ) :
    Label φ ε η → Prop
  | .act i _ => ∀ p ∈ s.workers[i]?, busy p = false →
      (∀ q ∈ s.workers, busy q = false) ∧ admits s.store p
  | .die i => ∀ p ∈ s.workers[i]?, busy p = true → frail p = true
  | _ => True

instance [∀ st p, Decidable (admits st p)] (s : State σ φ) :
    (l : Label φ ε η) → Decidable (Turns busy admits frail s l)
  | .act i _ => inferInstanceAs (Decidable (∀ p ∈ s.workers[i]?, _))
  | .die i => inferInstanceAs (Decidable (∀ p ∈ s.workers[i]?, _))
  | .spawn _ | .env _ => inferInstanceAs (Decidable True)

/-- Nobody has the turn and the store meets `I`, or one worker has it and keeps `J`. -/
def OneTurn (busy : φ → Bool) (I : σ → Prop) (J : σ → φ → Prop) (s : State σ φ) : Prop :=
  ((∀ q ∈ s.workers, busy q = false) ∧ I s.store) ∨
    ∃ (i : ℕ) (p : φ), s.workers[i]? = some p ∧ busy p = true ∧ J s.store p ∧
      ∀ (j : ℕ) (q : φ), j ≠ i → s.workers[j]? = some q → busy q = false

variable {I : σ → Prop} {J : σ → φ → Prop} {s : State σ φ} {p q : φ} {st : σ} {i : ℕ}

theorem OneTurn.frame (h : OneTurn busy I J s) (hI : I s.store → I st)
    (hJ : ∀ p, J s.store p → J st p) : OneTurn busy I J ⟨st, s.workers⟩ := by
  rcases h with ⟨hfree, hs⟩ | ⟨i, p, hp, hbusy, hs, hothers⟩
  · exact .inl ⟨hfree, hI hs⟩
  · exact .inr ⟨i, p, hp, hbusy, hJ p hs, hothers⟩

theorem OneTurn.spawn (h : OneTurn busy I J s) (hp : busy p = false) :
    OneTurn busy I J ⟨s.store, s.workers ++ [p]⟩ := by
  rcases h with ⟨hfree, hs⟩ | ⟨i, q, hq, hbusy, hs, hothers⟩
  · refine .inl ⟨fun r hr => ?_, hs⟩
    rcases List.mem_append.mp hr with hr | hr
    · exact hfree r hr
    · exact List.mem_singleton.mp hr ▸ hp
  · refine .inr ⟨i, q, ?_, hbusy, hs, fun j r hji hr => ?_⟩
    · exact (List.getElem?_append_left (List.getElem?_eq_some_iff.mp hq).1).trans hq
    · rcases List.mem_append.mp (List.mem_of_getElem? hr) with hmem | hmem
      · by_cases hj : j < s.workers.length
        · rw [List.getElem?_append_left hj] at hr
          exact hothers j r hji hr
        · rw [List.getElem?_append_right (not_lt.mp hj)] at hr
          exact List.mem_singleton.mp (List.mem_of_getElem? hr) ▸ hp
      · exact List.mem_singleton.mp hmem ▸ hp

/-- The worker `i`, with or without the turn, goes on as `q`, and nobody else has the turn. -/
theorem OneTurn.set (hp : s.workers[i]? = some p)
    (hothers : ∀ (j : ℕ) (r : φ), j ≠ i → s.workers[j]? = some r → busy r = false)
    (hq : if busy q then J st q else I st) : OneTurn busy I J ⟨st, s.workers.set i q⟩ := by
  have hself : (s.workers.set i q)[i]? = some q :=
    List.getElem?_set_self (List.getElem?_eq_some_iff.mp hp).1
  have hset (j : ℕ) (r : φ) (hji : j ≠ i) (hr : (s.workers.set i q)[j]? = some r) :
      busy r = false := by
    rw [List.getElem?_set_ne (Ne.symm hji)] at hr
    exact hothers j r hji hr
  by_cases hbusy : busy q = true
  · rw [if_pos hbusy] at hq
    exact .inr ⟨i, q, hself, hbusy, hq, hset⟩
  · rw [if_neg hbusy] at hq
    refine .inl ⟨fun r hr => ?_, hq⟩
    obtain ⟨j, hj⟩ := List.getElem?_of_mem hr
    by_cases hji : j = i
    · subst hji
      exact Option.some.inj (hself.symm.trans hj) ▸ Bool.eq_false_of_not_eq_true hbusy
    · exact hset j r hji hj

/-- Runs in which the workers take turns. -/
theorem one_turn [∀ st p, Decidable (admits st p)]
    (start : ∀ st, P.Init st → I st)
    (entry : ∀ p, P.entry p = true → busy p = false)
    (halted : busy P.halted = false)
    (act : ∀ st p e st' q, (if busy p then J st p else I st ∧ admits st p) →
      P.act st p e = some (st', q) → if busy q then J st' q else I st')
    (die : ∀ st p, busy p = true → frail p = true → J st p → I st)
    (env : ∀ st x st', P.env st x = some st' → (I st → I st') ∧ ∀ p, J st p → J st' p)
    (h : (P.machine.under (Turns busy admits frail)).Reachable s) : OneTurn busy I J s := by
  refine h.invariant (I := OneTurn busy I J)
    (fun s₀ h₀ => .inl ⟨by simp [h₀.2], start _ h₀.1⟩) ?_
  intro u l v _ hu hstep
  obtain ⟨hturn, hstep⟩ := Machine.under_step.mp hstep
  obtain ⟨p, -, hp, rfl⟩ | ⟨i, e, p, st, q, rfl, hp, hact, rfl⟩ | ⟨i, rfl, rfl⟩ |
    ⟨x, st, -, henv, rfl⟩ := step_cases hstep
  · exact hu.spawn (entry p hp)
  · by_cases hbusy : busy p = true
    · rcases hu with ⟨hfree, -⟩ | ⟨k, r, hr, -, hJ, hothers⟩
      · have hnot := hfree p (List.mem_of_getElem? hp)
        rw [hbusy] at hnot
        cases hnot
      · have hik : i = k := by
          by_contra hne
          have hnot := hothers i p hne hp
          rw [hbusy] at hnot
          cases hnot
        subst hik
        obtain rfl : p = r := Option.some.inj (hp.symm.trans hr)
        exact .set hp hothers (act _ p e st q (by rw [if_pos hbusy]; exact hJ) hact)
    · obtain ⟨hfree, hadmits⟩ := hturn p hp (Bool.eq_false_of_not_eq_true hbusy)
      rcases hu with ⟨-, hI⟩ | ⟨k, r, hr, hbusyr, -⟩
      · refine .set hp (fun j r _ hr => hfree r (List.mem_of_getElem? hr)) ?_
        exact act _ p e st q (by rw [if_neg hbusy]; exact ⟨hI, hadmits⟩) hact
      · have hnot := hfree r (List.mem_of_getElem? hr)
        rw [hbusyr] at hnot
        cases hnot
  · cases hp : u.workers[i]? with
    | none =>
      rw [List.set_eq_of_length_le (List.getElem?_eq_none_iff.mp hp)]
      exact hu
    | some p =>
      rcases hu with ⟨hfree, hI⟩ | ⟨k, r, hr, hbusyr, hJ, hothers⟩
      · refine .set hp (fun j r _ hr => hfree r (List.mem_of_getElem? hr)) ?_
        rw [if_neg (by simp [halted])]
        exact hI
      · by_cases hik : i = k
        · subst hik
          obtain rfl : p = r := Option.some.inj (hp.symm.trans hr)
          refine .set hp hothers ?_
          rw [if_neg (by simp [halted])]
          exact die _ p hbusyr (hturn p hp hbusyr) hJ
        · refine .inr ⟨k, r, (List.getElem?_set_ne hik).trans hr, hbusyr, hJ, fun j w hjk hw => ?_⟩
          by_cases hji : j = i
          · subst hji
            rw [List.getElem?_set_self (List.getElem?_eq_some_iff.mp hp).1] at hw
            exact Option.some.inj hw ▸ halted
          · rw [List.getElem?_set_ne (Ne.symm hji)] at hw
            exact hothers j w hjk hw
  · exact hu.frame (env _ x st henv).1 (env _ x st henv).2

end Civicos.Library.Program
