import Civicos.Consent.Steps
import Civicos.Library.Chained

/-!
# Chains of revisions

The revisions of an object are linked in the order in which they have been made. Exactly one of
them is the head; it describes the current row of a policy or an agreement. A revision that has not
been redacted has the hash of what it says.
-/
namespace Civicos.Consent

open Library Library.Transaction

variable {s t : Store} {S T : Numbered ConsentRevision.schema} {rev r a : ConsentRevision}
  {schemaName : SchemaName} {objectId : ℕ} {rows : List ConsentRevision}

/-- `b` is the next revision after `a`. -/
def Follows (a b : ConsentRevision) : Prop :=
  a.pk < b.pk ∧ a.successor = some b.pk ∧ b.predecessorHash = a.serializedHash

/-- `redact_pii` has taken the citizen out. -/
def ConsentRevision.isRedacted (r : ConsentRevision) : Bool :=
  r.schemaName = .consentRecord && r.authorizedByIndividual.isNone

/-- The revisions of each object are one chain, and their hashes are right. -/
structure Chained (rows : List ConsentRevision) : Prop where
  linked : ∀ schemaName objectId, Linked Follows (·.successor) (chainOf schemaName objectId rows)
  hash : ∀ r ∈ rows, r.isRedacted = false → r.serializedHash = r.serializedSnapshot.computeHash

/-! ## One more revision -/

theorem Follows.isSome (h : Follows a r) : a.successor.isSome = true := by
  rw [h.2.1]
  rfl

theorem latestOf_eq (h : Linked Follows (·.successor) (chainOf schemaName objectId rows)) :
    latestOf schemaName objectId rows = (chainOf schemaName objectId rows).getLast? := by
  unfold latestOf
  rw [h.filter_isNone fun _ _ => Follows.isSome]
  cases (chainOf schemaName objectId rows).getLast? <;> simp [newest, later]

theorem chainOf_link {prev : Option ConsentRevision} {n : ℕ} :
    chainOf schemaName objectId (link prev n rows) =
      link prev n (chainOf schemaName objectId rows) := by
  unfold chainOf link
  rw [List.filter_map]
  congr 1
  refine List.filter_congr fun r _ => ?_
  simp only [Function.comp]
  split <;> rfl

theorem mem_chainOf : r ∈ chainOf schemaName objectId rows ↔
    r ∈ rows ∧ r.schemaName = schemaName ∧ r.objectId = objectId := by
  simp [chainOf, ConsentRevision.of]

/-- The other objects keep their chains. -/
theorem Created.chainOf_other (h : Created S T rev)
    (hother : ¬ (rev.schemaName = schemaName ∧ rev.objectId = objectId)) :
    chainOf schemaName objectId T.rows = chainOf schemaName objectId S.rows := by
  rw [h.rows]
  unfold chainOf
  rw [List.filter_append]
  change chainOf schemaName objectId (link _ _ S.rows) ++ _ = _
  rw [chainOf_link, List.filter_cons_of_neg (by simpa [ConsentRevision.of] using hother),
    List.filter_nil, List.append_nil]
  refine (List.map_congr_left fun r hr => if_neg fun hprev => hother ?_).trans (List.map_id _)
  obtain ⟨hr, hschema, hobject⟩ := mem_chainOf.mp hr
  obtain ⟨p, hp, hpk⟩ := (Option.any_eq_true _ _).mp hprev
  obtain ⟨hp, hof, -⟩ := latestOf_mem hp
  obtain rfl : p = r := Table.eq_of_pk hp hr (of_decide_eq_true hpk)
  obtain ⟨hpschema, hpobject⟩ := of_decide_eq_true hof
  exact ⟨hpschema.symm.trans hschema, hpobject.symm.trans hobject⟩

theorem lt_last {l : List ConsentRevision} (h : Linked Follows (·.successor) (l ++ [a]))
    (hr : r ∈ l) : r.pk < a.pk := by
  have hpairwise : (l ++ [a]).Pairwise fun x y => x.pk < y.pk :=
    List.isChain_iff_pairwise.mp (h.chain.imp fun _ _ hxy => hxy.1)
  exact (List.pairwise_append.mp hpairwise).2.2 r hr a (by simp)

/-- Its own object has one more revision at the end. -/
theorem Created.linked (h : Created S T rev)
    (hS : Linked Follows (·.successor) (chainOf rev.schemaName rev.objectId S.rows)) :
    Linked Follows (·.successor) (chainOf rev.schemaName rev.objectId T.rows) := by
  have hrows : chainOf rev.schemaName rev.objectId T.rows =
      link (latestOf rev.schemaName rev.objectId S.rows) rev.pk
        (chainOf rev.schemaName rev.objectId S.rows) ++ [rev] := by
    rw [h.rows, ← chainOf_link]
    unfold chainOf
    rw [List.filter_append, List.filter_cons_of_pos (by simp [ConsentRevision.of]), List.filter_nil]
  rw [hrows]
  have hpredecessor := h.predecessorHash
  rw [latestOf_eq hS] at hpredecessor ⊢
  rcases List.eq_nil_or_concat (chainOf rev.schemaName rev.objectId S.rows) with hnil | ⟨l, a, hl⟩
  · rw [hnil]
    exact .single h.successor
  rw [List.concat_eq_append] at hl
  rw [hl] at hS hpredecessor ⊢
  rw [List.getLast?_concat] at hpredecessor ⊢
  have hlt : a.pk < rev.pk := by
    rw [h.pk]
    exact S.used a (mem_chainOf.mp (hl ▸ List.mem_append_right l (List.mem_singleton.mpr rfl))).1
  have hlink : link (some a) rev.pk (l ++ [a]) = l ++ [a.withSuccessor rev.pk] := by
    unfold link
    rw [List.map_append]
    congr 1
    · refine (List.map_congr_left fun r hr => if_neg fun hpk => ?_).trans (List.map_id _)
      have hne := (lt_last hS hr).ne'
      exact hne (of_decide_eq_true hpk)
    · exact congrArg (List.cons · []) (if_pos (decide_eq_true rfl))
  rw [hlink]
  exact hS.snoc (fun b hb => ⟨hb.1, hb.2.1, hb.2.2⟩) ⟨hlt, rfl, hpredecessor⟩ h.successor

theorem Created.mem (h : Created S T rev) (hr : r ∈ T.rows) :
    r = rev ∨ ∃ a ∈ S.rows, r = a ∨ r = a.withSuccessor rev.pk := by
  rw [h.rows] at hr
  rcases List.mem_append.mp hr with hr | hr
  · obtain ⟨a, ha, rfl⟩ := List.mem_map.mp hr
    refine .inr ⟨a, ha, ?_⟩
    split
    · exact .inr rfl
    · exact .inl rfl
  · exact .inl (List.mem_singleton.mp hr)

theorem Chained.created (hS : Chained S.rows) (h : Created S T rev) : Chained T.rows := by
  refine ⟨fun schemaName objectId => ?_, fun r hr hkept => ?_⟩
  · by_cases hsame : rev.schemaName = schemaName ∧ rev.objectId = objectId
    · obtain ⟨rfl, rfl⟩ := hsame
      exact h.linked (hS.linked rev.schemaName rev.objectId)
    · rw [h.chainOf_other hsame]
      exact hS.linked schemaName objectId
  · obtain rfl | ⟨a, ha, rfl | rfl⟩ := h.mem hr
    · exact h.hash
    · exact hS.hash r ha hkept
    · exact hS.hash a ha hkept

theorem Chained.extended {l : List Statement} (hS : Chained S.rows) (h : Extended S l T) :
    Chained T.rows := by
  induction h with
  | nil => exact hS
  | snoc _ hcreated ih => exact ih.created hcreated

theorem chainOf_rewrite {p : ConsentRevision → Bool} : chainOf schemaName objectId
    (rows.map fun r => if p r then r.redacted else r) =
      (chainOf schemaName objectId rows).map fun r => if p r then r.redacted else r := by
  unfold chainOf
  rw [List.filter_map]
  congr 1
  refine List.filter_congr fun r _ => ?_
  simp only [Function.comp]
  split <;> rfl

/-- Redacting leaves the links and the hashes alone. -/
theorem Chained.redacted {p : ConsentRevision → Bool} (hrows : Chained rows)
    (hp : ∀ r, p r = true → r.schemaName = .consentRecord) :
    Chained (rows.map fun r => if p r then r.redacted else r) := by
  have hpk : ∀ r, (if p r then r.redacted else r).pk = r.pk := fun r => by split <;> rfl
  have hsuccessor : ∀ r, (if p r then r.redacted else r).successor = r.successor := fun r => by
    split <;> rfl
  have hhash : ∀ r, (if p r then r.redacted else r).serializedHash = r.serializedHash :=
    fun r => by split <;> rfl
  have hpredecessor : ∀ r, (if p r then r.redacted else r).predecessorHash = r.predecessorHash :=
    fun r => by split <;> rfl
  refine ⟨fun schemaName objectId => ?_, fun r hr hkept => ?_⟩
  · rw [chainOf_rewrite]
    refine (hrows.linked schemaName objectId).map (fun a b hab => ?_) hsuccessor
    unfold Follows
    rw [hpk, hpk, hsuccessor, hpredecessor, hhash]
    exact hab
  · obtain ⟨a, ha, rfl⟩ := List.mem_map.mp hr
    by_cases hredacted : p a = true
    · rw [if_pos hredacted] at hkept
      have hschema := hp a hredacted
      simp [ConsentRevision.isRedacted, ConsentRevision.redacted, hschema] at hkept
    · rw [if_neg hredacted] at hkept ⊢
      exact hrows.hash a ha hkept

/-! ## Heads -/

/-- A head is a statement that has been written, or it has been a head before. -/
theorem Extended.head {l : List Statement} (h : Extended S l T) (hr : r ∈ T.rows)
    (hhead : r.successor = none) : r ∈ S.rows ∨ r.statement ∈ l := by
  induction h generalizing r with
  | nil => exact .inl hr
  | snoc _ hcreated ih =>
    obtain rfl | ⟨a, ha, rfl | rfl⟩ := hcreated.mem hr
    · exact .inr (List.mem_append_right _ (List.mem_singleton.mpr rfl))
    · exact (ih ha hhead).imp_right (List.mem_append_left _)
    · cases hhead

theorem Extended.single {x : Statement} (h : Extended S [x] T) :
    ∃ rev, Created S T rev ∧ rev.statement = x := by
  generalize hl : [x] = l at h
  cases h with
  | nil => cases hl
  | snoc h hcreated =>
    next l T rev =>
    obtain rfl : l = [] := by
      cases l with
      | nil => rfl
      | cons y l => simp at hl
    obtain rfl : x = rev.statement := by simpa using hl
    generalize hnil : ([] : List Statement) = m at h
    cases h with
    | nil => exact ⟨rev, hcreated, rfl⟩
    | snoc => simp at hnil

theorem Chained.eq_of_head {b : ConsentRevision} (h : Chained rows) (ha : a ∈ rows) (hb : b ∈ rows)
    (hschema : a.schemaName = b.schemaName) (hobject : a.objectId = b.objectId)
    (hahead : a.successor = none) (hbhead : b.successor = none) : a = b := by
  have hachain := mem_chainOf.mpr ⟨ha, hschema, hobject⟩
  have hbchain := mem_chainOf.mpr ⟨hb, rfl, rfl⟩
  obtain ⟨c, -, -, hunique⟩ := (h.linked b.schemaName b.objectId).exists_unique_last
    (fun _ _ => Follows.isSome) (List.ne_nil_of_mem hbchain)
  exact (hunique a hachain hahead).trans (hunique b hbchain hbhead).symm

/-- Nothing is taken out of a chain. -/
theorem Extended.chainOf_ne {l : List Statement} (h : Extended S l T)
    (hne : chainOf schemaName objectId S.rows ≠ []) :
    chainOf schemaName objectId T.rows ≠ [] := by
  induction h with
  | nil => exact hne
  | snoc _ hcreated ih =>
    rw [hcreated.rows]
    unfold chainOf
    rw [List.filter_append]
    change chainOf schemaName objectId (link _ _ _) ++ _ ≠ []
    rw [chainOf_link]
    exact List.append_ne_nil_of_left_ne_nil (fun hnil => ih (List.map_eq_nil_iff.mp hnil)) _

section Heads

variable {F : Type} {M : Model F} {row : Columns F}

/-- The head of an object says what its row is, and what has been written has a head. -/
structure Model.Described (M : Model F) (s : Store) : Prop where
  head : ∀ row ∈ (M.table.get s.config).rows, ∀ r ∈ s.revisions.rows,
    r.schemaName = M.schemaName → r.objectId = row.pk → r.successor = none →
    r.serializedSnapshot.objectData = M.snapshot row
  written : ∀ w ∈ M.writes.get s.config, chainOf M.schemaName w.1 s.revisions.rows ≠ []

theorem Model.Described.configured {action : AuditAction} {actor : Option ℕ}
    {new : List (Columns F)} {noted : List (ℕ × (F → Option Value))} (hs : M.Described s)
    (h : Configured M row action actor new noted s t) (hchained : Chained t.revisions.rows)
    (hnew : ∀ x ∈ new, x = row ∨ x ∈ (M.table.get s.config).rows ∧ x.pk ≠ row.pk)
    (hnoted : ∀ w ∈ noted, w.1 = row.pk) : M.Described t := by
  obtain ⟨rev, hcreated, hstatement⟩ := h.revisions.single
  have hrevschema : rev.schemaName = M.schemaName := congrArg Statement.schemaName hstatement
  have hrevobject : rev.objectId = row.pk := congrArg Statement.objectId hstatement
  have hrev : rev ∈ t.revisions.rows := by
    rw [hcreated.rows]
    exact List.mem_append_right _ (List.mem_singleton.mpr rfl)
  refine ⟨fun x hx r hr hschema hobject hhead => ?_, fun w hw => ?_⟩
  · rw [h.rows] at hx
    rcases hnew x hx with rfl | ⟨hx, hne⟩
    · obtain rfl := hchained.eq_of_head hr hrev (hschema.trans hrevschema.symm)
        (hobject.trans hrevobject.symm) hhead hcreated.successor
      exact congrArg (fun x => x.snapshot.objectData) hstatement
    · rcases h.revisions.head hr hhead with hold | hwritten
      · exact hs.head x hx r hold hschema hobject hhead
      · have hrow := congrArg Statement.objectId (List.mem_singleton.mp hwritten)
        exact absurd (hobject.symm.trans hrow) hne
  · rw [h.writes] at hw
    rcases List.mem_append.mp hw with hw | hw
    · exact h.revisions.chainOf_ne (hs.written w hw)
    · exact List.ne_nil_of_mem
        (mem_chainOf.mpr ⟨hrev, hrevschema, hrevobject.trans (hnoted w hw).symm⟩)

theorem Model.Described.other {l : List Statement} (hs : M.Described s)
    (hrows : M.table.get t.config = M.table.get s.config)
    (hwrites : M.writes.get t.config = M.writes.get s.config)
    (h : Extended s.revisions l t.revisions) (hl : ∀ x ∈ l, x.schemaName ≠ M.schemaName) :
    M.Described t := by
  refine ⟨fun x hx r hr hschema hobject hhead => ?_, fun w hw => ?_⟩
  · rw [hrows] at hx
    rcases h.head hr hhead with hold | hwritten
    · exact hs.head x hx r hold hschema hobject hhead
    · exact absurd hschema (hl _ hwritten)
  · rw [hwrites] at hw
    exact h.chainOf_ne (hs.written w hw)

theorem Model.Described.redacted {p : ConsentRevision → Bool} (hs : M.Described s)
    (hrows : M.table.get t.config = M.table.get s.config)
    (hwrites : M.writes.get t.config = M.writes.get s.config)
    (h : t.revisions.rows = s.revisions.rows.map fun r => if p r then r.redacted else r)
    (hp : ∀ r, p r = true → r.schemaName ≠ M.schemaName) : M.Described t := by
  refine ⟨fun x hx r hr hschema hobject hhead => ?_, fun w hw => ?_⟩
  · rw [hrows] at hx
    rw [h] at hr
    obtain ⟨a, ha, rfl⟩ := List.mem_map.mp hr
    by_cases hredacted : p a = true
    · rw [if_pos hredacted] at hschema
      exact absurd hschema (hp a hredacted)
    · rw [if_neg hredacted] at hschema hobject hhead ⊢
      exact hs.head x hx a ha hschema hobject hhead
  · rw [hwrites] at hw
    rw [h, chainOf_rewrite]
    exact fun hnil => hs.written w hw (List.map_eq_nil_iff.mp hnil)

end Heads

/-! ## Blocks -/

/-- Every chain is in order, and its head says what the row is. -/
structure Store.Chains (s : Store) : Prop where
  chained : Chained s.revisions.rows
  policies : policyModel.Described s
  agreements : categoryModel.Described s

/-- A block that writes about records and signatures only. -/
theorem Store.Chains.recorded {l : List Statement} (hs : s.Chains) (hconfig : t.config = s.config)
    (h : Extended s.revisions l t.revisions)
    (hl : ∀ x ∈ l, x.schemaName = .consentRecord ∨ x.schemaName = .consentSignature) :
    t.Chains := by
  refine ⟨hs.chained.extended h,
    hs.policies.other (by rw [hconfig]) (by rw [hconfig]) h fun x hx hpolicy => ?_,
    hs.agreements.other (by rw [hconfig]) (by rw [hconfig]) h fun x hx hagreement => ?_⟩
  · rcases hl x hx with hrecord | hsignature
    · cases hrecord.symm.trans hpolicy
    · cases hsignature.symm.trans hpolicy
  · rcases hl x hx with hrecord | hsignature
    · cases hrecord.symm.trans hagreement
    · cases hsignature.symm.trans hagreement

theorem Store.Chains.kept (hs : s.Chains) (hconfig : t.config = s.config)
    (hrevisions : t.revisions = s.revisions) : t.Chains := by
  refine hs.recorded (l := []) hconfig ?_ fun _ hx => by cases hx
  rw [hrevisions]
  exact .nil

theorem mem_replaced {F : Type} {row x : Columns F} {l : List (Columns F)}
    (hx : x ∈ replaced row l) : x = row ∨ x ∈ l ∧ x.pk ≠ row.pk := by
  obtain ⟨a, ha, rfl⟩ := List.mem_map.mp hx
  by_cases hpk : a.pk = row.pk
  · exact .inl (if_pos hpk)
  · rw [if_neg hpk]
    exact .inr ⟨ha, hpk⟩

theorem eq_of_writes {F : Type} [DecidableEq F] {M : Model F} {edit : Edit F} {k : ℕ}
    {w : ℕ × (F → Option Value)} (hw : w ∈ edit.writes M k) : w.1 = k := by
  cases edit with
  | put data => rw [List.mem_singleton.mp hw]
  | delete =>
    rcases List.mem_cons.mp hw with rfl | hw
    · rfl
    · rw [List.mem_singleton.mp hw]

theorem mem_created {F : Type} {M : Model F} {row x : Columns F} {c : Config}
    (hpk : row.pk = (M.table.get c).next) (hx : x ∈ (M.table.get c).rows ++ [row]) :
    x = row ∨ x ∈ (M.table.get c).rows ∧ x.pk ≠ row.pk := by
  rcases List.mem_append.mp hx with hx | hx
  · have hused := (M.table.get c).used x hx
    rw [M.pk_eq] at hused
    exact .inr ⟨hx, by omega⟩
  · exact .inl (List.mem_singleton.mp hx)

theorem Store.Chains.policy {row : ConsentPolicy} {action : AuditAction} {actor : Option ℕ}
    {new : List ConsentPolicy} {noted : List (ℕ × (PolicyField → Option Value))} (hs : s.Chains)
    (h : Configured policyModel row action actor new noted s t)
    (hnew : ∀ x ∈ new, x = row ∨ x ∈ s.policies.rows ∧ x.pk ≠ row.pk)
    (hnoted : ∀ w ∈ noted, w.1 = row.pk) : t.Chains := by
  have hchained := hs.chained.extended h.revisions
  have hrows := congrArg categoryModel.table.get h.config
  have hwrites := congrArg categoryModel.writes.get h.config
  refine ⟨hchained, hs.policies.configured h hchained hnew hnoted,
    hs.agreements.other hrows hwrites h.revisions fun x hx => ?_⟩
  obtain rfl := List.mem_singleton.mp hx
  exact fun hschema => by cases hschema

theorem Store.Chains.agreement {row : ConsentCategory} {action : AuditAction} {actor : Option ℕ}
    {new : List ConsentCategory} {noted : List (ℕ × (CategoryField → Option Value))}
    (hs : s.Chains) (h : Configured categoryModel row action actor new noted s t)
    (hnew : ∀ x ∈ new, x = row ∨ x ∈ s.categories.rows ∧ x.pk ≠ row.pk)
    (hnoted : ∀ w ∈ noted, w.1 = row.pk) : t.Chains := by
  have hchained := hs.chained.extended h.revisions
  have hrows := congrArg policyModel.table.get h.config
  have hwrites := congrArg policyModel.writes.get h.config
  refine ⟨hchained, hs.policies.other hrows hwrites h.revisions fun x hx => ?_,
    hs.agreements.configured h hchained hnew hnoted⟩
  obtain rfl := List.mem_singleton.mp hx
  exact fun hschema => by cases hschema

theorem Store.Chains.erased {listed collected : List ℕ} (hs : s.Chains)
    (h : Erased listed collected s t) : t.Chains := by
  have hconfig := congrArg Store.config h.frame
  have hrevisions := congrArg (fun s => s.revisions.rows) h.frame
  have hschema : ∀ r : ConsentRevision,
      decide (r.schemaName = .consentRecord ∧ r.objectId ∈ listed) = true →
        r.schemaName = .consentRecord := fun r hr => (of_decide_eq_true hr).1
  refine ⟨?_, ?_, ?_⟩
  · rw [hrevisions]
    exact hs.chained.redacted hschema
  · refine hs.policies.redacted (congrArg policyModel.table.get hconfig)
      (congrArg policyModel.writes.get hconfig) hrevisions fun r hr => ?_
    rw [hschema r hr]
    exact fun hpolicy => by cases hpolicy
  · refine hs.agreements.redacted (congrArg categoryModel.table.get hconfig)
      (congrArg categoryModel.writes.get hconfig) hrevisions fun r hr => ?_
    rw [hschema r hr]
    exact fun hagreement => by cases hagreement

theorem Worker.Does.chains {p q : Worker} (h : Worker.Does s p t q) (hs : s.Chains) :
    t.Chains := by
  cases h with
  | granted hgranted =>
    have hconfig := congrArg Store.config hgranted.frame
    refine hs.recorded hconfig hgranted.revisions fun x hx => .inl ?_
    rcases List.mem_cons.mp hx with rfl | hx
    · rfl
    · rw [List.mem_singleton.mp hx]
      rfl
  | revoked _ hwithdrawn =>
    have hconfig := congrArg Store.config hwithdrawn.frame
    refine hs.recorded hconfig hwithdrawn.revisions fun x hx => .inl ?_
    rw [List.mem_singleton.mp hx]
    rfl
  | created => exact hs.kept rfl rfl
  | attached hattached =>
    rcases hattached.rest with ⟨-, hframe⟩ | ⟨-, hframe, hrevisions⟩
    · have hconfig := congrArg Store.config hframe
      have hkept := congrArg Store.revisions hframe
      exact hs.kept hconfig hkept
    · have hconfig := congrArg Store.config hframe
      refine hs.recorded hconfig hrevisions fun x hx => .inl ?_
      rw [List.mem_singleton.mp hx]
      rfl
  | updated hupdated =>
    have hconfig := congrArg Store.config hupdated.frame
    refine hs.recorded hconfig hupdated.revisions fun x hx => .inr ?_
    rw [List.mem_singleton.mp hx]
    rfl
  | createdPolicy hrow _ hconfigured =>
    exact hs.policy hconfigured (fun x hx => mem_created (M := policyModel) (by rw [hrow]; rfl) hx)
      fun w hw => by rw [List.mem_singleton.mp hw]
  | createdAgreement hrow _ hconfigured =>
    exact hs.agreement hconfigured
      (fun x hx => mem_created (M := categoryModel) (by rw [hrow]; rfl) hx)
      fun w hw => by rw [List.mem_singleton.mp hw]
  | savedPolicy _ hconfigured =>
    exact hs.policy hconfigured (fun x hx => mem_replaced hx) fun w hw => eq_of_writes hw
  | savedAgreement _ hconfigured =>
    exact hs.agreement hconfigured (fun x hx => mem_replaced hx) fun w hw => eq_of_writes hw
  | erased herased => exact hs.erased herased
  | _ => exact hs

theorem chains_of_reachable {s : Pool.State Store Worker} (h : consent.machine.Reachable s) :
    s.store.Chains := by
  refine Program.store_invariant (P := consent) (I := Store.Chains) ?_
    (fun st p e st' p' hs hact => (act_does hact).chains hs) ?_ h
  · rintro st ⟨hrevisions, -, -, -, hpolicies, hagreements⟩
    have hnone : ∀ r, r ∉ st.revisions.rows := fun r => by
      rw [hrevisions]
      exact List.not_mem_nil
    refine ⟨⟨fun schemaName objectId => ?_, fun r hr => absurd hr (hnone r)⟩,
      ⟨fun _ _ r hr => absurd hr (hnone r), fun w hw => ?_⟩,
      ⟨fun _ _ r hr => absurd hr (hnone r), fun w hw => ?_⟩⟩
    · rw [hrevisions]
      exact .nil
    · change w ∈ st.config.policyWrites at hw
      rw [hpolicies] at hw
      cases hw
    · change w ∈ st.config.categoryWrites at hw
      rw [hagreements] at hw
      cases hw
  · rintro st time st' hs henv
    obtain rfl := Option.some.inj henv
    exact ⟨hs.chained, ⟨hs.policies.head, hs.policies.written⟩,
      ⟨hs.agreements.head, hs.agreements.written⟩⟩

end Civicos.Consent
