import Civicos.Consent.Steps

/-!
# Configuration updates

A request saves every column of the instance that it has loaded before its transaction. The column
that one request has named survives the requests for other columns as long as none of them has
loaded its instance before and saves it after.
-/
namespace Civicos.Consent

open Library Library.Transaction

section Effects

variable {F : Type} {M : Model F} {c d : Config} {row loaded : Columns F}
  {edit : Edit F} {l : List (ℕ × (F → Option Value))} {k n : ℕ} {f : F} {v : Value}

/-- What the last of these requests that names a column has written to it. -/
def written (l : List (ℕ × (F → Option Value))) (k : ℕ) (f : F) : Option Value :=
  (l.filterMap fun w => if w.1 = k then w.2 f else none).getLast?

theorem written_append (g : F → Option Value) :
    written (l ++ [(n, g)]) k f = (if n = k then g f else none).or (written l k f) := by
  unfold written
  rw [List.filterMap_append, List.getLast?_append]
  congr 1
  cases h : if n = k then g f else none <;> simp [List.filterMap, h]

variable [DecidableEq F]

theorem written_edit : written (l ++ edit.writes M n) k f =
    (if n = k then (edit.named M).lookup f else none).or (written l k f) := by
  cases edit with
  | put data => exact written_append _
  | delete =>
    change written (l ++ [_, _]) k f = _
    rw [List.append_cons l, written_append, written_append]
    simp [Edit.named]

namespace Model

/-- The final rows have what the last request for each column has written. -/
def Effects (M : Model F) (c : Config) : Prop :=
  ∀ row ∈ (M.table.get c).rows, ∀ f v, written (M.writes.get c) row.pk f = some v → row.value f = v

/-- The columns that a request does not name still are as it has loaded them. -/
def fresh (M : Model F) (loaded : Columns F) (edit : Edit F) (c : Config) : Bool :=
  ((M.table.get c).get loaded.pk).all fun row => M.fields.all fun f =>
    ((edit.named M).lookup f).isSome || row.value f = loaded.value f

/-- What a block does to one of the two tables. -/
inductive Step (M : Model F) (saves : Columns F → Edit F → Prop) (c d : Config) : Prop where
  | kept (hrows : M.table.get d = M.table.get c) (hwrites : M.writes.get d = M.writes.get c)
  | created (row : Columns F) (hpk : row.pk = (M.table.get c).next)
      (hrows : (M.table.get d).rows = (M.table.get c).rows ++ [row])
      (hwrites : M.writes.get d = M.writes.get c ++ [(row.pk, fun f => some (row.value f))])
  | saved (loaded : Columns F) (edit : Edit F) (hsaves : saves loaded edit)
      (hrows : (M.table.get d).rows =
        replaced (loaded.assign (edit.named M)) (M.table.get c).rows)
      (hwrites : M.writes.get d = M.writes.get c ++ edit.writes M loaded.pk)

theorem Effects.step {saves : Columns F → Edit F → Prop} (hc : M.Effects c)
    (h : M.Step saves c d) (hfresh : ∀ loaded edit, saves loaded edit →
      M.fresh loaded edit c = true) : M.Effects d := by
  cases h with
  | kept hrows hwrites =>
    unfold Effects
    rw [hrows, hwrites]
    exact hc
  | created row hpk hrows hwrites =>
    intro a ha f v hv
    rw [hwrites, written_append] at hv
    rw [hrows] at ha
    rcases List.mem_append.mp ha with ha | ha
    · have hlt : a.pk < (M.table.get c).next := by
        have hused := (M.table.get c).used a ha
        rwa [M.pk_eq] at hused
      rw [if_neg (by omega), Option.none_or] at hv
      exact hc a ha f v hv
    · obtain rfl := List.mem_singleton.mp ha
      rw [if_pos rfl, Option.some_or] at hv
      exact Option.some.inj hv
  | saved loaded edit hsaves hrows hwrites =>
    intro a ha f v hv
    rw [hwrites, written_edit] at hv
    rw [hrows] at ha
    obtain ⟨b, hb, rfl⟩ := List.mem_map.mp ha
    rw [Columns.pk_assign] at hv ⊢
    by_cases hpk : b.pk = loaded.pk
    · rw [if_pos hpk] at hv ⊢
      rw [Columns.pk_assign, if_pos rfl] at hv
      change ((edit.named M).lookup f).getD (loaded.value f) = v
      cases hnamed : (edit.named M).lookup f with
      | some w =>
        rw [hnamed, Option.some_or] at hv
        exact Option.some.inj hv
      | none =>
        rw [hnamed, Option.none_or] at hv
        have hget : (M.table.get c).get loaded.pk = some b :=
          Numbered.get_eq_some.mpr ⟨hb, (M.pk_eq b).trans hpk⟩
        have hsame := hfresh loaded edit hsaves
        rw [fresh, hget, Option.all_some, List.all_eq_true] at hsame
        have hcolumn := hsame f (M.mem_fields f)
        rw [hnamed, Option.isSome_none, Bool.false_or, decide_eq_true_eq] at hcolumn
        rw [Option.getD_none, ← hcolumn]
        exact hc b hb f v (by rwa [hpk])
    · rw [if_neg hpk] at hv ⊢
      rw [if_neg fun h => hpk h.symm, Option.none_or] at hv
      exact hc b hb f v hv

end Model

end Effects

/-! ## Blocks -/

variable {s t : Store} {p q : Worker}

/-- What a block does to the policies. -/
theorem ConfigStep.policies (h : ConfigStep s t p) : policyModel.Step
    (fun loaded edit => ∃ actor, p = .savingPolicy loaded edit actor) s.config t.config := by
  cases h with
  | kept _ hconfig => exact .kept (by rw [hconfig]) (by rw [hconfig])
  | createdPolicy hpk hconfigured => exact .created _ hpk hconfigured.rows hconfigured.writes
  | savedPolicy hconfigured => exact .saved _ _ ⟨_, rfl⟩ hconfigured.rows hconfigured.writes
  | createdAgreement _ hconfigured | savedAgreement hconfigured =>
    have hrows := congrArg policyModel.table.get hconfigured.config
    have hwrites := congrArg policyModel.writes.get hconfigured.config
    exact .kept hrows hwrites

/-- What a block does to the data agreements. -/
theorem ConfigStep.agreements (h : ConfigStep s t p) : categoryModel.Step
    (fun loaded edit => ∃ actor, p = .savingCategory loaded edit actor) s.config t.config := by
  cases h with
  | kept _ hconfig => exact .kept (by rw [hconfig]) (by rw [hconfig])
  | createdAgreement hpk hconfigured => exact .created _ hpk hconfigured.rows hconfigured.writes
  | savedAgreement hconfigured => exact .saved _ _ ⟨_, rfl⟩ hconfigured.rows hconfigured.writes
  | createdPolicy _ hconfigured | savedPolicy hconfigured =>
    have hrows := congrArg categoryModel.table.get hconfigured.config
    have hwrites := congrArg categoryModel.writes.get hconfigured.config
    exact .kept hrows hwrites

/-- The condition on a step: what a request saves without naming it is what it has loaded. -/
def Current (s : Pool.State Store Worker) : Label → Bool
  | .act i _ =>
    match s.workers[i]? with
    | some (.savingPolicy loaded edit _) => policyModel.fresh loaded edit s.store.config
    | some (.savingCategory loaded edit _) => categoryModel.fresh loaded edit s.store.config
    | _ => true
  | _ => true

/-- In every run whose steps meet the condition, each column of a policy and of a data agreement is
what the last committed request that names it has written: of two requests for different columns
both are in effect, whatever their order, and what has been deactivated stays so until a request
names the column again. -/
theorem updates_in_effect {s : Pool.State Store Worker}
    (h : (consent.machine.under fun s l => Current s l = true).Reachable s) :
    policyModel.Effects s.store.config ∧ categoryModel.Effects s.store.config := by
  refine (Program.invariant_under (J := fun _ _ => True)
    (I := fun st => policyModel.Effects st.config ∧ categoryModel.Effects st.config)
    ?_ (fun _ _ _ _ => trivial) (fun _ _ => trivial) ?_ ?_ h).1
  · rintro st ⟨-, -, -, -, hpolicies, hagreements⟩
    constructor
    · intro row _ f v hv
      change written st.config.policyWrites row.pk f = some v at hv
      rw [hpolicies] at hv
      cases hv
    · intro row _ f v hv
      change written st.config.categoryWrites row.pk f = some v at hv
      rw [hagreements] at hv
      cases hv
  · intro s i p e st q hcurrent hs _ hp hact
    have hstep := (act_does hact).configStep
    refine ⟨⟨hs.1.step hstep.policies ?_, hs.2.step hstep.agreements ?_⟩, trivial,
      fun _ _ _ _ => trivial⟩
    · rintro loaded edit ⟨actor, rfl⟩
      simpa only [Current, hp] using hcurrent
    · rintro loaded edit ⟨actor, rfl⟩
      simpa only [Current, hp] using hcurrent
  · intro s x st _ hs _ henv
    obtain rfl := Option.some.inj henv
    exact ⟨hs, fun _ _ => trivial⟩

/-! ## A deactivated agreement -/

/-- One request changes the name of an agreement, after another one has deactivated it. -/
def renamed : List Label :=
  [.spawn (.calling (.createDataAgreement [(.slug, .str "news")] none)), .act 0 (),
    .spawn (.editingCategory 1 .delete none), .act 1 (), .act 1 (),
    .spawn (.editingCategory 1 (.put [(.nameEn, .str "News")]) none), .act 2 (), .act 2 ()]

/-- The same, but the first one has loaded the agreement before. -/
def overwritten : List Label :=
  [.spawn (.calling (.createDataAgreement [(.slug, .str "news")] none)), .act 0 (),
    .spawn (.editingCategory 1 (.put [(.nameEn, .str "News")]) none), .act 1 (),
    .spawn (.editingCategory 1 .delete none), .act 2 (), .act 2 (), .act 1 ()]

theorem renamed_in_effect :
    let s := (consent.machine.under fun s l => Current s l = true).final start renamed
    policyModel.Effects s.store.config ∧ categoryModel.Effects s.store.config ∧
      (agreement s).isActive = false ∧ (agreement s).value .nameEn = .str "News" := by
  intro s
  obtain ⟨hpolicies, hagreements⟩ :=
    updates_in_effect (.final (M := consent.machine.under _) start_init renamed)
  exact ⟨hpolicies, hagreements, by decide +kernel, by decide +kernel⟩

/-- The agreement is active again, although no request has named that column since. -/
theorem overwritten_active : ∃ s, consent.machine.Reachable s ∧
    ¬ categoryModel.Effects s.store.config := by
  refine ⟨consent.machine.final start overwritten, .final start_init overwritten, fun h => ?_⟩
  have hagreement : (consent.machine.final start overwritten).store.categories.get 1 =
      some (agreement (consent.machine.final start overwritten)) := rfl
  have hactive := h _ (Numbered.get_eq_some.mp hagreement).1 .isActive (.bool false)
    (by decide +kernel)
  revert hactive
  decide +kernel

end Civicos.Consent
