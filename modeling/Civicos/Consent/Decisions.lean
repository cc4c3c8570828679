import Civicos.Consent.Chains
import Civicos.Consent.Verification

/-!
# Decisions

The status of a record and the state of its signature move together. Each change of a status has its
entry in the audit log and its revision. The last decision in the log is what `has_consent` answers,
but for the entries of `update_signature`, which borrow the action of a grant.
-/
namespace Civicos.Consent

open Library Library.Transaction

variable {s t : Store} {r a : ConsentRecord} {e : ConsentAuditEntry} {x : Statement}
  {c : ConsentCategory} {citizen category : ℕ} {p q : Worker}

namespace ConsentRecord

/-- Status and state fit. -/
def Settled (r : ConsentRecord) : Prop :=
  (r.status = .pending ∧ r.state = .unsigned) ∨ (r.status = .granted ∧ r.state = .signed) ∨
    (r.status = .withdrawn ∧ r.state = .revoked)

end ConsentRecord

/-- The action in the log that stands for a change to this status -/
def Status.action : Status → Option AuditAction
  | pending => none
  | granted => some .granted
  | withdrawn => some .withdrawn

namespace ConsentAuditEntry

/-- An entry of `update_signature` -/
def updates (e : ConsentAuditEntry) : Bool :=
  match e.details with
  | .signatureUpdated _ => true
  | _ => false

/-- A granted or withdrawn entry -/
def decides (e : ConsentAuditEntry) : Bool := e.action = .granted || e.action = .withdrawn

/-- A granted or withdrawn entry for a record -/
def decidesOn (citizen category : ℕ) (e : ConsentAuditEntry) : Bool :=
  e.decides && e.citizen = some citizen && e.category = some category

end ConsentAuditEntry

namespace Store

/-- The entries of decisions -/
def decisions (s : Store) : List ConsentAuditEntry :=
  s.audit.filter fun e => e.decides && !e.updates

/-- The last decision in the log -/
def lastDecision (citizen category : ℕ) (s : Store) : Option AuditAction :=
  ((s.decisions.filter (·.decidesOn citizen category)).getLast?).map (·.action)

/-- `has_consent` answers what the last decision says; if there is none, whether the agreement is
required. -/
def Agrees (citizen : ℕ) (c : ConsentCategory) (s : Store) : Prop :=
  ∀ slug, c.value .slug = .str slug →
    s.hasConsent citizen slug = (s.lastDecision citizen c.pk).elim c.isRequired (· = .granted)

/-- A record that is not there yet is pending. -/
def statusOf (k : ℕ) (s : Store) : Status := (s.records.get k).elim .pending (·.status)

/-- The revisions of records in `t` that are not in `s` -/
def written (s t : Store) : List Statement :=
  ((t.revisions.rows.filter (s.revisions.next ≤ ·.pk)).map (·.statement)).filter
    (·.schemaName = .consentRecord)

end Store

/-- A revision about the record with its status -/
def Statement.tells (r : ConsentRecord) (x : Statement) : Bool :=
  x.objectId = r.pk && x.snapshot.objectData.lookup "status" = some (.str r.status.value)

/-- No record changes its status, or one does, with one entry and one revision. -/
inductive Recorded (s t : Store) : Prop where
  | unchanged (hstatus : ∀ a ∈ t.records.rows, a.status = s.statusOf a.pk)
      (hdecisions : t.decisions = s.decisions) (hwritten : s.written t = [])
  | changed (r : ConsentRecord) (e : ConsentAuditEntry) (hr : r ∈ t.records.rows)
      (hstatus : r.status ≠ s.statusOf r.pk)
      (hothers : ∀ a ∈ t.records.rows, a.pk ≠ r.pk → a.status = s.statusOf a.pk)
      (haudit : t.audit = s.audit ++ [e]) (hentry : e.decidesOn r.citizen r.category = true)
      (haction : some e.action = r.status.action)
      (hwritten : ∀ x ∈ s.written t, x.objectId = r.pk)
      (honce : (s.written t).countP (·.tells r) = 1)

/-! ## What is added to the log and to the revisions -/

theorem decisions_append {l : List ConsentAuditEntry} (h : t.audit = s.audit ++ l) :
    t.decisions = s.decisions ++ l.filter fun e => e.decides && !e.updates := by
  unfold Store.decisions
  rw [h, List.filter_append]

theorem decisions_eq (h : t.audit = s.audit) : t.decisions = s.decisions := by
  unfold Store.decisions
  rw [h]

theorem lastDecision_eq (h : t.decisions = s.decisions) :
    t.lastDecision citizen category = s.lastDecision citizen category := by
  unfold Store.lastDecision
  rw [h]

theorem lastDecision_decided (h : t.audit = s.audit ++ [e]) (hdecides : e.decides = true)
    (hupdates : e.updates = false) : t.lastDecision citizen category =
      if e.citizen = some citizen ∧ e.category = some category then some e.action
      else s.lastDecision citizen category := by
  unfold Store.lastDecision
  rw [decisions_append h, List.filter_append]
  by_cases hof : e.citizen = some citizen ∧ e.category = some category
  · simp [ConsentAuditEntry.decidesOn, hdecides, hupdates, hof]
  · rw [if_neg hof]
    have hother : e.decidesOn citizen category = false := by
      simp only [ConsentAuditEntry.decidesOn, hdecides, Bool.true_and, Bool.and_eq_false_iff,
        decide_eq_false_iff_not]
      exact not_and_or.mp hof
    simp [hdecides, hupdates, hother]

theorem added_link {prev : Option ConsentRevision} {k n : ℕ} {rows : List ConsentRevision} :
    ((link prev n rows).filter (k ≤ ·.pk)).map (·.statement) =
      (rows.filter (k ≤ ·.pk)).map (·.statement) := by
  unfold link
  rw [List.filter_map, List.map_map]
  congr 1
  · funext rev
    simp only [Function.comp]
    split <;> rfl
  · refine List.filter_congr fun rev _ => ?_
    simp only [Function.comp]
    split <;> rfl

/-- The revisions that have been added are the statements that have been written. -/
theorem Extended.added {S T : Numbered ConsentRevision.schema} {l : List Statement}
    (h : Extended S l T) : S.next ≤ T.next ∧
      (T.rows.filter (S.next ≤ ·.pk)).map (·.statement) = l := by
  induction h with
  | nil =>
    refine ⟨le_rfl, ?_⟩
    rw [List.filter_eq_nil_iff.mpr fun rev hrev => ?_, List.map_nil]
    have hused := S.used rev hrev
    change rev.pk < S.next at hused
    simp [hused]
  | snoc _ hcreated ih =>
    obtain ⟨hle, hold⟩ := ih
    refine ⟨by rw [hcreated.next]; omega, ?_⟩
    have hnew := hcreated.pk
    rw [hcreated.rows, List.filter_append, List.map_append, added_link, hold,
      List.filter_cons_of_pos (by simpa [hnew] using hle)]
    rfl

theorem written_extended {l : List Statement} (h : Extended s.revisions l t.revisions) :
    s.written t = l.filter (·.schemaName = .consentRecord) := by
  unfold Store.written
  rw [h.added.2]

theorem written_kept (h : t.revisions = s.revisions) : s.written t = [] := by
  have hnil : Extended s.revisions [] t.revisions := by
    rw [h]
    exact .nil
  rw [written_extended hnil, List.filter_nil]

theorem written_erased {listed collected : List ℕ} (h : Erased listed collected s t) :
    s.written t = [] := by
  have hnone : t.revisions.rows.filter (s.revisions.next ≤ ·.pk) = [] := by
    refine List.filter_eq_nil_iff.mpr fun rev hrev => ?_
    rw [h.frame] at hrev
    obtain ⟨a, ha, rfl⟩ := List.mem_map.mp hrev
    have hused := s.revisions.used a ha
    change a.pk < s.revisions.next at hused
    rw [decide_eq_true_eq]
    split
    · exact Nat.not_le.mpr hused
    · exact Nat.not_le.mpr hused
  unfold Store.written
  rw [hnone]
  rfl

/-! ## One change of a status -/

theorem statusOf_of_mem (hr : r ∈ s.records.rows) : s.statusOf r.pk = r.status := by
  unfold Store.statusOf
  have hget : s.records.get r.pk = some r := Numbered.get_eq_some.mpr ⟨hr, rfl⟩
  rw [hget]
  rfl

theorem statusOf_next : s.statusOf s.records.next = .pending := by
  unfold Store.statusOf
  rw [Numbered.get_next]
  rfl

theorem Recorded.kept (hrecords : t.records = s.records) (hdecisions : t.decisions = s.decisions)
    (hwritten : s.written t = []) : Recorded s t := by
  refine .unchanged (fun a ha => ?_) hdecisions hwritten
  rw [hrecords] at ha
  exact (statusOf_of_mem ha).symm

/-- One record gets another status. -/
theorem Recorded.decided {d : Decision} (hr : r ∈ s.records.rows)
    (hrecords : t.records = s.records.rewrite (·.pk = r.pk) (.withDecision fun _ => d)
      (ConsentRecord.preserves _)) (hstatus : d.status ≠ r.status)
    (haudit : t.audit = s.audit ++ [e]) (hentry : e.decidesOn r.citizen r.category = true)
    (haction : some e.action = d.status.action) (h : Extended s.revisions [x] t.revisions)
    (hschema : x.schemaName = .consentRecord)
    (htells : x.tells (r.withDecision fun _ => d) = true) : Recorded s t := by
  have hwritten : s.written t = [x] := by
    rw [written_extended h, List.filter_cons_of_pos (by simp [hschema]), List.filter_nil]
  refine .changed (r.withDecision fun _ => d) e ?_ ?_ (fun a ha hne => ?_) haudit hentry haction
    (fun y hy => ?_) ?_
  · rw [hrecords]
    exact List.mem_map.mpr ⟨r, hr, if_pos (decide_eq_true rfl)⟩
  · change d.status ≠ s.statusOf r.pk
    rwa [statusOf_of_mem hr]
  · rw [hrecords] at ha
    obtain ⟨b, hb, rfl⟩ := List.mem_map.mp ha
    by_cases hpk : b.pk = r.pk
    · rw [if_pos (decide_eq_true hpk)] at hne
      exact absurd hpk hne
    · rw [if_neg (by simpa using hpk)]
      exact (statusOf_of_mem hb).symm
  · rw [hwritten] at hy
    obtain rfl := List.mem_singleton.mp hy
    simp only [Statement.tells, Bool.and_eq_true, decide_eq_true_eq] at htells
    exact htells.1
  · rw [hwritten, List.countP_singleton, if_pos htells]

theorem Recorded.granted {g : Grant} {seen : Option ℕ} (h : Granted g seen s t) :
    Recorded s t := by
  have hr : g.signed s.now s.records.next ∈ t.records.rows := by simp [h.records]
  have haudit := congrArg Store.audit h.frame
  refine .changed (g.signed s.now s.records.next) g.entry hr ?_ (fun a ha hne => ?_) haudit ?_ rfl
    (fun y hy => ?_) ?_
  · change Status.granted ≠ s.statusOf s.records.next
    rw [statusOf_next]
    decide
  · rw [h.records] at ha
    rcases List.mem_append.mp ha with ha | ha
    · obtain ⟨b, hb, rfl⟩ := List.mem_map.mp ha
      rw [pk_archive, statusOf_of_mem hb, toDecision_archive]
    · obtain rfl := List.mem_singleton.mp ha
      exact absurd rfl hne
  · simp [ConsentAuditEntry.decidesOn, ConsentAuditEntry.decides, Grant.entry, Grant.signed,
      Grant.record]
  · rw [written_extended h.revisions] at hy
    have hy := (List.mem_filter.mp hy).1
    simp only [List.mem_cons, List.not_mem_nil, or_false] at hy
    rcases hy with rfl | rfl <;> rfl
  · rw [written_extended h.revisions]
    simp [Statement.tells, Statement.of, ConsentRecord.snapshot, Grant.signed, Grant.record,
      List.lookup_cons, Status.value]

theorem Worker.Does.recorded (h : Worker.Does s p t q) (hs : ∀ r ∈ s.records.rows, r.Settled) :
    Recorded s t := by
  cases h with
  | granted hgranted => exact .granted hgranted
  | revoked record hwithdrawn =>
    next call category r =>
    have hrecords := congrArg Store.records hwithdrawn.frame
    have haudit := congrArg Store.audit hwithdrawn.frame
    obtain ⟨hcitizen, hcategory, -⟩ := currentOf_iff.mp hwithdrawn.current
    refine .decided hwithdrawn.mem hrecords ?_ haudit ?_ rfl hwithdrawn.revisions rfl ?_
    · rw [hwithdrawn.granted]
      intro hstatus
      cases hstatus
    · simp [ConsentAuditEntry.decidesOn, ConsentAuditEntry.decides, hcitizen, hcategory]
    · simp [Statement.tells, Statement.of, ConsentRecord.withDecision, ConsentRecord.snapshot,
        List.lookup_cons]
  | created hfree hrows hnext =>
    next citizen category T =>
    refine .unchanged (fun a ha => ?_) rfl (written_kept rfl)
    change a ∈ T.rows at ha
    rw [hrows] at ha
    rcases List.mem_append.mp ha with ha | ha
    · exact (statusOf_of_mem ha).symm
    · obtain rfl := List.mem_singleton.mp ha
      exact statusOf_next.symm
  | attached hattached =>
    next user q caller r =>
    rcases hattached.rest with ⟨-, hframe⟩ | ⟨hunsigned, hframe, hextended⟩
    · have hrecords := congrArg Store.records hframe
      have haudit := congrArg Store.audit hframe
      have hrevisions := congrArg Store.revisions hframe
      exact .kept hrecords (decisions_eq haudit) (written_kept hrevisions)
    · have hrecords := congrArg Store.records hframe
      have haudit := congrArg Store.audit hframe
      refine .decided hattached.mem hrecords (fun hstatus => ?_) haudit ?_ rfl hextended rfl ?_
      · have hstatus : r.status = .granted := hstatus.symm
        rcases hs r hattached.mem with ⟨h, -⟩ | ⟨-, h⟩ | ⟨h, -⟩
        · cases h.symm.trans hstatus
        · exact hunsigned h
        · cases h.symm.trans hstatus
      · simp [ConsentAuditEntry.decidesOn, ConsentAuditEntry.decides, attachedEntry]
      · simp [Statement.tells, Statement.of, ConsentRecord.withDecision, ConsentRecord.snapshot,
          List.lookup_cons]
  | updated hupdated =>
    have hrecords := congrArg Store.records hupdated.frame
    have haudit := congrArg Store.audit hupdated.frame
    refine .kept hrecords ?_ ?_
    · rw [decisions_append haudit]
      simp [ConsentAuditEntry.decides, ConsentAuditEntry.updates]
    · rw [written_extended hupdated.revisions]
      rfl
  | createdPolicy _ _ hconfigured | createdAgreement _ _ hconfigured | savedPolicy _ hconfigured
    | savedAgreement _ hconfigured =>
    have hrecords := congrArg Store.records hconfigured.frame
    have haudit := congrArg Store.audit hconfigured.frame
    refine .kept hrecords ?_ ?_
    · rw [decisions_append haudit]
      simp [ConsentAuditEntry.decides, policyModel, categoryModel]
    · rw [written_extended hconfigured.revisions]
      rfl
  | erased herased =>
    obtain ⟨l, haudit, hl⟩ := herased.audit
    refine .unchanged (fun a ha => ?_) ?_ (written_erased herased)
    · rw [herased.frame] at ha
      exact (statusOf_of_mem (List.mem_filter.mp ha).1).symm
    · rw [decisions_append haudit, List.filter_eq_nil_iff.mpr fun entry hentry => ?_,
        List.append_nil]
      rcases hl entry hentry with haction | haction <;>
        simp [ConsentAuditEntry.decides, haction]
  | _ => exact .kept rfl rfl (written_kept rfl)

/-! ## Status and state -/

theorem settled_decided {d : Decision} (hs : ∀ r ∈ s.records.rows, r.Settled)
    (hr : r ∈ s.records.rows)
    (hrecords : t.records = s.records.rewrite (·.pk = r.pk) (.withDecision fun _ => d)
      (ConsentRecord.preserves _))
    (hd : (d.status = .granted ∧ d.state = .signed) ∨ d.status = .withdrawn ∧ d.state = .revoked) :
    ∀ a ∈ t.records.rows, a.Settled := by
  intro a ha
  rw [hrecords] at ha
  rcases (Numbered.mem_rewrite_row (ConsentRecord.preserves _) hr).mp ha with ⟨ha, -⟩ | rfl
  · exact hs a ha
  · exact .inr hd

theorem RecordStep.settled (h : RecordStep s t p) (hs : ∀ r ∈ s.records.rows, r.Settled) :
    ∀ r ∈ t.records.rows, r.Settled := by
  cases h with
  | kept _ hrecords =>
    rw [hrecords]
    exact hs
  | granted hgranted =>
    intro r hr
    rw [hgranted.records] at hr
    rcases List.mem_append.mp hr with hr | hr
    · obtain ⟨a, ha, rfl⟩ := List.mem_map.mp hr
      unfold ConsentRecord.Settled
      rw [toDecision_archive]
      exact hs a ha
    · obtain rfl := List.mem_singleton.mp hr
      exact .inr (.inl ⟨rfl, rfl⟩)
  | created _ hrows _ =>
    intro r hr
    rw [hrows] at hr
    rcases List.mem_append.mp hr with hr | hr
    · exact hs r hr
    · obtain rfl := List.mem_singleton.mp hr
      exact .inl ⟨rfl, rfl⟩
  | revoked hwithdrawn =>
    have hrecords := congrArg Store.records hwithdrawn.frame
    exact settled_decided hs hwithdrawn.mem hrecords (.inr ⟨rfl, rfl⟩)
  | signed hattached _ hrecords =>
    exact settled_decided hs hattached.mem hrecords (.inl ⟨rfl, rfl⟩)
  | erased herased =>
    intro r hr
    rw [herased.frame] at hr
    exact hs r (List.mem_filter.mp hr).1

/-! ## The last decision -/

/-- An agreement that is not required -/
def Store.Optional (category : ℕ) (s : Store) : Prop :=
  ∃ c ∈ s.categories.rows, c.pk = category ∧ c.isRequired = false

/-- The last decision of a citizen on an agreement is a grant exactly when the citizen consents, and
only an agreement that is not required is withdrawn from. -/
structure Decided (s : Store) : Prop where
  granted : ∀ citizen category, s.lastDecision citizen category = some .granted ↔
    ∃ a ∈ s.records.rows, a.citizen = citizen ∧ a.category = category ∧ a.Consents
  withdrawn : ∀ citizen category, s.lastDecision citizen category = some .withdrawn →
    s.Optional category

/-- The record that a signature signs -/
def Store.signable (user record : ℕ) (q : SignatureRequest) (s : Store) : Option ConsentRecord :=
  (s.records.get record).filter fun r => q.signature ≠ "" && q.verificationSignedBy ≠ "" &&
    r.citizen = user && (s.signatureOf r.pk).isNone && r.state ≠ .signed

/-- The condition on a block: a signature signs a record that is current, or whose citizen consents
anyway; nobody is forgotten; no agreement becomes required. -/
def Direct (s : Store) : Worker → Bool
  | .calling (.attachSignature user record q _) => (s.signable user record q).all fun r =>
      r.isCurrent || s.records.rows.any fun a => decide (a.Shares r) && decide a.Consents
  | .erasing .. => false
  | .savingCategory loaded edit _ =>
    !ConsentCategory.isRequired (loaded.assign (edit.named categoryModel)) ||
      (s.categoryOf loaded.pk).any (·.isRequired)
  | _ => true

theorem lastDecision_cases (citizen category : ℕ) (s : Store) :
    s.lastDecision citizen category = none ∨ s.lastDecision citizen category = some .granted ∨
      s.lastDecision citizen category = some .withdrawn := by
  unfold Store.lastDecision
  cases hlast : (s.decisions.filter (·.decidesOn citizen category)).getLast? with
  | none => exact .inl rfl
  | some e =>
    have hdecides := (List.mem_filter.mp (List.mem_filter.mp (List.mem_of_getLast? hlast)).1).2
    simp only [ConsentAuditEntry.decides, Bool.and_eq_true, Bool.or_eq_true,
      decide_eq_true_eq] at hdecides
    rcases hdecides.1 with haction | haction
    · exact .inr (.inl (congrArg some haction))
    · exact .inr (.inr (congrArg some haction))

theorem Decided.agrees (h : Decided s) (hc : c ∈ s.categories.rows) (hactive : c.isActive = true)
    (citizen : ℕ) : s.Agrees citizen c := by
  intro slug hslug
  have hgranted := h.granted citizen c.pk
  by_cases hrequired : c.isRequired = true
  · have hconsent : s.hasConsent citizen slug = true := by
      unfold Store.hasConsent
      rw [activeCategory_eq_some.mpr ⟨hc, hslug, hactive⟩]
      simp [hrequired]
    rcases lastDecision_cases citizen c.pk s with hlast | hlast | hlast
    · simp [hconsent, hlast, hrequired]
    · simp [hconsent, hlast]
    · obtain ⟨d, hd, hpk, hoptional⟩ := h.withdrawn citizen c.pk hlast
      obtain rfl : d = c := Table.eq_of_pk hd hc hpk
      rw [hrequired] at hoptional
      cases hoptional
  · rw [Bool.not_eq_true] at hrequired
    have hconsent : s.hasConsent citizen slug = true ↔ _ := hasConsent_iff hc hslug hrequired
    have hnone : s.lastDecision citizen c.pk ≠ some .granted → s.hasConsent citizen slug = false :=
      fun hlast => Bool.eq_false_iff.mpr fun hhas => hlast (hgranted.mpr (hconsent.mp hhas).2)
    rcases lastDecision_cases citizen c.pk s with hlast | hlast | hlast
    · simp [hnone (by simp [hlast]), hlast, hrequired]
    · simp [hconsent.mpr ⟨hactive, hgranted.mp hlast⟩, hlast]
    · simp [hnone (by simp [hlast]), hlast]

theorem Decided.kept (hs : Decided s) (hdecisions : t.decisions = s.decisions)
    (hrecords : ∀ a : ConsentRecord, a.Consents → (a ∈ t.records.rows ↔ a ∈ s.records.rows))
    (hoptional : ∀ k, s.Optional k → t.Optional k) : Decided t := by
  refine ⟨fun citizen category => ?_, fun citizen category hlast => ?_⟩
  · rw [lastDecision_eq hdecisions, hs.granted]
    constructor
    · rintro ⟨a, ha, hcitizen, hcategory, hconsents⟩
      exact ⟨a, (hrecords a hconsents).mpr ha, hcitizen, hcategory, hconsents⟩
    · rintro ⟨a, ha, hcitizen, hcategory, hconsents⟩
      exact ⟨a, (hrecords a hconsents).mp ha, hcitizen, hcategory, hconsents⟩
  · rw [lastDecision_eq hdecisions] at hlast
    exact hoptional _ (hs.withdrawn citizen category hlast)

/-- A decision about a citizen and a category that leaves the others alone. -/
theorem Decided.decided (hs : Decided s) (haudit : t.audit = s.audit ++ [e])
    (hentry : e.decidesOn citizen category = true) (hupdates : e.updates = false)
    (hothers : ∀ a : ConsentRecord, a.Consents → ¬ (a.citizen = citizen ∧ a.category = category) →
      (a ∈ t.records.rows ↔ a ∈ s.records.rows))
    (hself : e.action = .granted ↔
      ∃ a ∈ t.records.rows, a.citizen = citizen ∧ a.category = category ∧ a.Consents)
    (hwithdrawn : e.action = .withdrawn → s.Optional category)
    (hoptional : ∀ k, s.Optional k → t.Optional k) : Decided t := by
  simp only [ConsentAuditEntry.decidesOn, Bool.and_eq_true, decide_eq_true_eq] at hentry
  obtain ⟨⟨hdecides, hcitizen⟩, hcategory⟩ := hentry
  have hlast : t.lastDecision citizen category = some e.action := by
    rw [lastDecision_decided haudit hdecides hupdates, if_pos ⟨hcitizen, hcategory⟩]
  have hkept : ∀ x k, ¬ (citizen = x ∧ category = k) →
      t.lastDecision x k = s.lastDecision x k := fun x k hne => by
    rw [lastDecision_decided haudit hdecides hupdates, if_neg fun h => hne ?_]
    exact ⟨Option.some.inj (hcitizen.symm.trans h.1), Option.some.inj (hcategory.symm.trans h.2)⟩
  refine ⟨fun x k => ?_, fun x k hwithdrew => ?_⟩
  · by_cases hsame : citizen = x ∧ category = k
    · obtain ⟨rfl, rfl⟩ := hsame
      rw [hlast, Option.some.injEq]
      exact hself
    · rw [hkept x k hsame, hs.granted]
      constructor
      · rintro ⟨a, ha, rfl, rfl, hconsents⟩
        exact ⟨a, (hothers a hconsents fun h => hsame ⟨h.1.symm, h.2.symm⟩).mpr ha, rfl, rfl,
          hconsents⟩
      · rintro ⟨a, ha, rfl, rfl, hconsents⟩
        exact ⟨a, (hothers a hconsents fun h => hsame ⟨h.1.symm, h.2.symm⟩).mp ha, rfl, rfl,
          hconsents⟩
  · by_cases hsame : citizen = x ∧ category = k
    · obtain ⟨rfl, rfl⟩ := hsame
      rw [hlast, Option.some.injEq] at hwithdrew
      exact hoptional _ (hwithdrawn hwithdrew)
    · rw [hkept x k hsame] at hwithdrew
      exact hoptional _ (hs.withdrawn x k hwithdrew)

theorem Decided.grants {g : Grant} {seen : Option ℕ} (hs : Decided s) (h : Granted g seen s t)
    (hoptional : ∀ k, s.Optional k → t.Optional k) : Decided t := by
  have haudit := congrArg Store.audit h.frame
  have hentry : g.entry.decidesOn g.citizen g.category = true := by
    simp [ConsentAuditEntry.decidesOn, ConsentAuditEntry.decides, Grant.entry]
  refine hs.decided haudit hentry rfl
    (fun a hconsents hother => ?_) ⟨fun _ => ?_, fun _ => rfl⟩ (fun hwithdrew => ?_) hoptional
  · rw [h.records, List.mem_append]
    constructor
    · rintro (ha | ha)
      · obtain ⟨b, hb, rfl⟩ := List.mem_map.mp ha
        by_cases hseen : seen = some b.pk ∧ b.currentOf g.citizen g.category = true
        · have hnow := hconsents.1
          rw [Grant.archive, if_pos hseen] at hnow
          cases hnow
        · rw [Grant.archive, if_neg hseen]
          exact hb
      · obtain rfl := List.mem_singleton.mp ha
        exact absurd ⟨rfl, rfl⟩ hother
    · intro ha
      refine .inl (List.mem_map.mpr ⟨a, ha, if_neg fun hseen => hother ?_⟩)
      obtain ⟨hcitizen, hcategory, -⟩ := currentOf_iff.mp hseen.2
      exact ⟨hcitizen, hcategory⟩
  · exact ⟨g.signed s.now s.records.next, by simp [h.records], rfl, rfl, rfl, rfl, rfl⟩
  · cases hwithdrew

/-- One record is decided upon. -/
theorem Decided.record {d : Decision} (hs : Decided s) (hr : r ∈ s.records.rows)
    (hrecords : t.records = s.records.rewrite (·.pk = r.pk) (.withDecision fun _ => d)
      (ConsentRecord.preserves _))
    (haudit : t.audit = s.audit ++ [e]) (hentry : e.decidesOn r.citizen r.category = true)
    (hupdates : e.updates = false)
    (hself : e.action = .granted ↔ (r.withDecision fun _ => d).Consents ∨
      ∃ a ∈ s.records.rows, a.pk ≠ r.pk ∧ a.Shares r ∧ a.Consents)
    (hwithdrawn : e.action = .withdrawn → s.Optional r.category)
    (hoptional : ∀ k, s.Optional k → t.Optional k) : Decided t := by
  have hmem : ∀ a, a ∈ t.records.rows ↔ (a ∈ s.records.rows ∧ a.pk ≠ r.pk) ∨
      a = r.withDecision fun _ => d := fun a => by
    rw [hrecords]
    exact Numbered.mem_rewrite_row (ConsentRecord.preserves _) hr
  refine hs.decided haudit hentry hupdates (fun a _ hother => ?_) (hself.trans ⟨?_, ?_⟩) hwithdrawn
    hoptional
  · rw [hmem]
    constructor
    · rintro (⟨ha, -⟩ | rfl)
      · exact ha
      · exact absurd ⟨rfl, rfl⟩ hother
    · intro ha
      refine .inl ⟨ha, fun hpk => hother ?_⟩
      obtain rfl : a = r := Table.eq_of_pk ha hr hpk
      exact ⟨rfl, rfl⟩
  · rintro (hconsents | ⟨a, ha, hne, hshares, hconsents⟩)
    · exact ⟨_, (hmem _).mpr (.inr rfl), rfl, rfl, hconsents⟩
    · exact ⟨a, (hmem a).mpr (.inl ⟨ha, hne⟩), hshares.1, hshares.2, hconsents⟩
  · rintro ⟨a, ha, hcitizen, hcategory, hconsents⟩
    rcases (hmem a).mp ha with ⟨ha, hne⟩ | rfl
    · exact .inr ⟨a, ha, hne, ⟨hcitizen, hcategory⟩, hconsents⟩
    · exact .inl hconsents

/-! ## Requests -/

namespace Worker

/-- A withdrawal has looked at the agreement. -/
def Revocable (s : Store) : Worker → Prop
  | revoking _ category _ => s.Optional category
  | _ => True

theorem Revocable.step {w : Worker} (hw : w.Revocable s)
    (hoptional : ∀ k, s.Optional k → t.Optional k) : w.Revocable t := by
  cases w with
  | revoking call category seen => exact hoptional category hw
  | _ => trivial

theorem revocable_of_entry (h : p.entry = true) : p.Revocable s := by
  cases p with
  | revoking => cases h
  | _ => trivial

theorem Does.next_revocable (h : Does s p t q) : q.Revocable t := by
  cases h with
  | revocable hactive hrequired => exact ⟨_, (activeCategory_eq_some.mp hactive).1, rfl, hrequired⟩
  | _ => trivial

theorem Does.optional (h : Does s p t q) (hp : Direct s p = true) (k : ℕ)
    (hk : s.Optional k) : t.Optional k := by
  obtain ⟨c, hc, rfl, hrequired⟩ := hk
  have hsame : t.categories = s.categories → t.Optional c.pk := fun hcategories =>
    ⟨c, hcategories ▸ hc, rfl, hrequired⟩
  cases h.configStep with
  | kept _ hconfig => exact hsame (congrArg Config.categories hconfig)
  | createdPolicy _ hconfigured | savedPolicy hconfigured =>
    have hcategories := congrArg Config.categories hconfigured.config
    exact hsame hcategories
  | createdAgreement _ hconfigured =>
    exact ⟨c, hconfigured.rows ▸ List.mem_append_left _ hc, rfl, hrequired⟩
  | savedAgreement hconfigured =>
    next loaded edit actor =>
    by_cases hsaved : c.pk = loaded.pk
    · refine ⟨loaded.assign (edit.named categoryModel), ?_, hsaved.symm, ?_⟩
      · exact hconfigured.rows ▸ List.mem_map.mpr ⟨c, hc, if_pos hsaved⟩
      · have hget : s.categoryOf loaded.pk = some c :=
          Numbered.get_eq_some.mpr ⟨hc, hsaved⟩
        simpa [Direct, hget, hrequired] using hp
    · exact ⟨c, hconfigured.rows ▸ List.mem_map.mpr ⟨c, hc, if_neg hsaved⟩, rfl, hrequired⟩

theorem Does.decided (h : Does s p t q) (hp : p.Revocable s) (hcondition : Direct s p = true)
    (hs : Decided s) : Decided t := by
  have hoptional := h.optional hcondition
  cases h with
  | granted hgranted => exact hs.grants hgranted hoptional
  | revoked record hwithdrawn =>
    next call category r =>
    have hrecords := congrArg Store.records hwithdrawn.frame
    have haudit := congrArg Store.audit hwithdrawn.frame
    obtain ⟨hcitizen, hcategory, hnow⟩ := currentOf_iff.mp hwithdrawn.current
    refine hs.record hwithdrawn.mem hrecords haudit ?_ rfl ⟨fun haction => ?_, ?_⟩ (fun _ => ?_)
      hoptional
    · simp [ConsentAuditEntry.decidesOn, ConsentAuditEntry.decides, hcitizen, hcategory]
    · cases haction
    · rintro (hconsents | ⟨a, ha, hne, hshares, hconsents⟩)
      · cases hconsents.2.1
      · refine absurd (congrArg ConsentRecord.pk ?_) hne
        exact eq_of_current ha hwithdrawn.mem hshares.1 hshares.2 hconsents.1 hnow
    · rw [hcategory]
      exact hp
  | created hfree hrows hnext =>
    next citizen category T =>
    refine hs.kept rfl (fun a hconsents => ?_) hoptional
    change a ∈ T.rows ↔ _
    rw [hrows, List.mem_append, List.mem_singleton]
    refine ⟨fun ha => ha.resolve_right ?_, .inl⟩
    rintro rfl
    cases hconsents.2.1
  | attached hattached =>
    next user q caller r =>
    rcases hattached.rest with ⟨-, hframe⟩ | ⟨hunsigned, hframe, -⟩
    · have hrecords := congrArg Store.records hframe
      have haudit := congrArg Store.audit hframe
      exact hs.kept (decisions_eq haudit) (fun a _ => by rw [hrecords]) hoptional
    · have hrecords := congrArg Store.records hframe
      have haudit := congrArg Store.audit hframe
      have hsignable : s.signable user r.pk q = some r := by
        refine Option.filter_eq_some_iff.mpr ⟨Numbered.get_eq_some.mpr ⟨hattached.mem, rfl⟩, ?_⟩
        simp [hattached.given, hattached.citizen, hattached.unsigned, hunsigned]
      refine hs.record hattached.mem hrecords haudit ?_ rfl ⟨fun _ => ?_, fun _ => rfl⟩
        (fun haction => by cases haction) hoptional
      · simp [ConsentAuditEntry.decidesOn, ConsentAuditEntry.decides, attachedEntry]
      · simp only [Direct, hsignable, Option.all_some, Bool.or_eq_true, List.any_eq_true,
          Bool.and_eq_true, decide_eq_true_eq] at hcondition
        rcases hcondition with hnow | ⟨a, ha, hshares, hconsents⟩
        · exact .inl ⟨hnow, rfl, rfl⟩
        · refine .inr ⟨a, ha, fun hpk => hunsigned ?_, hshares, hconsents⟩
          obtain rfl : a = r := Table.eq_of_pk ha hattached.mem hpk
          exact hconsents.2.2
  | updated hupdated =>
    have hrecords := congrArg Store.records hupdated.frame
    have haudit := congrArg Store.audit hupdated.frame
    refine hs.kept ?_ (fun a _ => by rw [hrecords]) hoptional
    rw [decisions_append haudit]
    simp [ConsentAuditEntry.decides, ConsentAuditEntry.updates]
  | createdPolicy _ _ hconfigured | createdAgreement _ _ hconfigured | savedPolicy _ hconfigured
    | savedAgreement _ hconfigured =>
    have hrecords := congrArg Store.records hconfigured.frame
    have haudit := congrArg Store.audit hconfigured.frame
    refine hs.kept ?_ (fun a _ => by rw [hrecords]) hoptional
    rw [decisions_append haudit]
    simp [ConsentAuditEntry.decides, policyModel, categoryModel]
  | erased => cases hcondition
  | _ => exact hs.kept rfl (fun _ _ => Iff.rfl) hoptional

end Worker

/-! ## Runs -/

/-- The condition on a step. -/
def Straight (s : Pool.State Store Worker) : Label → Bool
  | .act i _ => (s.workers[i]?).all (Direct s.store)
  | _ => true

theorem settled_of_reachable {s : Pool.State Store Worker} (h : consent.machine.Reachable s) :
    ∀ r ∈ s.store.records.rows, r.Settled := by
  refine Program.store_invariant (P := consent) (I := fun st => ∀ r ∈ st.records.rows, r.Settled)
    ?_ (fun st p e st' p' hs hact => (act_does hact).recordStep.settled hs) ?_ h
  · rintro st ⟨-, hrecords, -⟩ r hr
    rw [hrecords] at hr
    cases hr
  · rintro st time st' hs henv
    obtain rfl := Option.some.inj henv
    exact hs

theorem decided_of_reachable {s : Pool.State Store Worker}
    (h : (consent.machine.under fun s l => Straight s l = true).Reachable s) : Decided s.store := by
  refine (Program.invariant_under (I := Decided) (J := fun st p => p.Revocable st)
    ?_ (fun _ _ _ hentry => Worker.revocable_of_entry hentry) (fun _ _ => trivial) ?_ ?_ h).1
  · rintro st ⟨-, hrecords, -, haudit, -⟩
    have hnone : ∀ citizen category, st.lastDecision citizen category = none := fun x k => by
      unfold Store.lastDecision Store.decisions
      rw [haudit]
      rfl
    refine ⟨fun x k => ⟨fun hlast => ?_, ?_⟩, fun x k hlast => ?_⟩
    · rw [hnone] at hlast
      cases hlast
    · rintro ⟨a, ha, -⟩
      rw [hrecords] at ha
      cases ha
    · rw [hnone] at hlast
      cases hlast
  · intro s i p e st q hstraight hs hrevocable hp hact
    have hdoes := act_does hact
    have hcondition : Direct s.store p = true := by
      simpa [Straight, hp] using hstraight
    have hp' := hrevocable p (List.mem_of_getElem? hp)
    exact ⟨hdoes.decided hp' hcondition hs, hdoes.next_revocable, fun j w _ hw =>
      (hrevocable w (List.mem_of_getElem? hw)).step (hdoes.optional hcondition)⟩
  · rintro s x st - hs hrevocable henv
    obtain rfl := Option.some.inj henv
    exact ⟨⟨hs.granted, hs.withdrawn⟩, fun w hw => (hrevocable w hw).step fun _ => id⟩

/-- In every reachable state the status and the state of every record fit. Every step changes the
status of no record, or that of one, with one entry in the log and one revision that says so. In a
run whose steps meet the condition, the last decision on an active agreement is what `has_consent`
answers. -/
theorem decisions_recorded {s : Pool.State Store Worker} (h : consent.machine.Reachable s) :
    (∀ r ∈ s.store.records.rows, r.Settled) ∧
    (∀ l t, consent.machine.step s l = some t → Recorded s.store t.store) ∧
    ((consent.machine.under fun s l => Straight s l = true).Reachable s →
      ∀ citizen, ∀ c ∈ s.store.categories.rows, c.isActive = true → s.store.Agrees citizen c) := by
  have hsettled := settled_of_reachable h
  refine ⟨hsettled, fun l t hstep => ?_, fun hstraight citizen c hc hactive =>
    (decided_of_reachable hstraight).agrees hc hactive citizen⟩
  have hkept : ∀ st : Store, st.records = s.store.records → st.audit = s.store.audit →
      st.revisions = s.store.revisions → Recorded s.store st := fun st hrecords haudit hrevisions =>
    .kept hrecords (decisions_eq haudit) (written_kept hrevisions)
  obtain ⟨p, -, -, rfl⟩ | ⟨i, e, p, st, q, -, -, hact, rfl⟩ | ⟨i, -, rfl⟩ |
    ⟨time, st, -, henv, rfl⟩ := Program.step_cases hstep
  · exact hkept _ rfl rfl rfl
  · exact (act_does hact).recorded hsettled
  · exact hkept _ rfl rfl rfl
  · obtain rfl := Option.some.inj henv
    exact hkept _ rfl rfl rfl

theorem consented_recorded :
    let s := (consent.machine.under fun s l => Straight s l = true).final start consented
    s.store.Agrees 5 (agreement s) ∧ s.store.lastDecision 5 1 = some .granted := by
  intro s
  have hstraight : (consent.machine.under fun s l => Straight s l = true).Reachable s :=
    .final (M := consent.machine.under _) start_init consented
  have hagreement : s.store.categories.get 1 = some (agreement s) := rfl
  obtain ⟨-, -, hagrees⟩ := decisions_recorded hstraight.of_under
  refine ⟨hagrees hstraight 5 _ (Numbered.get_eq_some.mp hagreement).1 ?_, ?_⟩
  · decide +kernel
  · decide +kernel

/-! ## A signature that is updated after a withdrawal -/

/-- A citizen consents, withdraws and then updates the signature. -/
def updatedLater : List Label :=
  consented ++ [.spawn (.withdrawing { citizen := 5, categorySlug := "news" }), .act 2 (),
    .act 2 (), .spawn (.calling (.updateSignature 5 1 [(.signature, .str "s")] {})), .act 3 ()]

/-- The last granted or withdrawn entry of the citizen says that the consent is granted. -/
theorem updatedLater_granted : ∃ s citizen c slug, consent.machine.Reachable s ∧
    c ∈ s.store.categories.rows ∧ c.value .slug = .str slug ∧
    ((s.store.audit.filter (·.decidesOn citizen c.pk)).getLast?).map (·.action) = some .granted ∧
    s.store.hasConsent citizen slug = false := by
  have hagreement : (consent.machine.final start updatedLater).store.categories.get 1 =
      some (agreement (consent.machine.final start updatedLater)) := rfl
  refine ⟨consent.machine.final start updatedLater, 5, _, "news", .final start_init updatedLater,
    (Numbered.get_eq_some.mp hagreement).1, ?_, ?_, ?_⟩
  · decide +kernel
  · decide +kernel
  · decide +kernel

end Civicos.Consent
