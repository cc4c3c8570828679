import Civicos.Consent.Chains
import Civicos.Library.Text

/-!
# Erasure

What is left in the revisions of a citizen's records and signatures when the citizen has been
forgotten. The revisions of the records that the first query has found are redacted. Those of
signatures are not, nor are those of a record that only the second query has found.
-/
namespace Civicos.Consent

open Library Library.Transaction

variable {s t : Store} {r : ConsentRecord} {sig : ConsentSignature} {rev : ConsentRevision}
  {x : Statement} {citizen : ℕ} {listed collected : List ℕ} {p q : Worker}

/-- The fields of a signature that identify an individual -/
def personalFields : List String :=
  ["payload", "signature", "verificationPayload", "verificationSignedBy"]

namespace Statement

/-- Who has written it, or what it says, gives the citizen away. -/
def Names (citizen : ℕ) (x : Statement) : Prop :=
  x.authorizedByIndividual = some citizen ∨
    x.snapshot.authorizedByIndividual = some (toString citizen) ∨
    ("individual", .str (toString citizen)) ∈ x.snapshot.objectData ∨
    ∃ f ∈ x.snapshot.objectData, f.1 ∈ personalFields

instance (citizen : ℕ) (x : Statement) : Decidable (x.Names citizen) :=
  inferInstanceAs (Decidable (_ ∨ _ ∨ _ ∨ _))

/-- Every revision of a record or a signature has been written in the name of the citizen, unless
it has been redacted. -/
structure Attributed (s : Store) (x : Statement) : Prop where
  record_lt : x.schemaName = .consentRecord → x.objectId < s.records.next
  plain : x.schemaName = .consentRecord → ∀ f ∈ x.snapshot.objectData, f.1 ∉ personalFields
  record : x.schemaName = .consentRecord →
    (x.authorizedByIndividual = none ∧ ∀ citizen, ¬ x.Names citizen) ∨
      ∀ r ∈ s.records.rows, r.pk = x.objectId → x.authorizedByIndividual = some r.citizen
  signature_lt : x.schemaName = .consentSignature → x.objectId < s.signatures.next
  signature : x.schemaName = .consentSignature → ∀ sig ∈ s.signatures.rows, sig.pk = x.objectId →
    ∀ r ∈ s.records.rows, r.pk = sig.consentRecord → x.authorizedByIndividual = some r.citizen

end Statement

structure Store.Attributed (s : Store) : Prop where
  revisions : ∀ rev ∈ s.revisions.rows, rev.statement.Attributed s
  signatures : ∀ sig ∈ s.signatures.rows, sig.consentRecord < s.records.next

/-! ## Redaction -/

theorem toString_ne_redacted (n : ℕ) : toString n ≠ "[REDACTED]" := by
  intro h
  have hmem : '[' ∈ (toString n).toList := by
    rw [h]
    decide
  exact notMem_toString rfl n hmem

theorem keys_redacted {f : String × Value} (hf : f ∈ rev.redacted.serializedSnapshot.objectData) :
    ∃ g ∈ rev.serializedSnapshot.objectData, g.1 = f.1 := by
  obtain ⟨g, hg, rfl⟩ := List.mem_map.mp hf
  refine ⟨g, hg, ?_⟩
  split <;> rfl

/-- Nobody is left in a redacted revision of a record. -/
theorem not_names_redacted
    (hplain : ∀ f ∈ rev.serializedSnapshot.objectData, f.1 ∉ personalFields) (citizen : ℕ) :
    ¬ rev.redacted.statement.Names citizen := by
  rintro (hauthor | hindividual | hobject | ⟨f, hf, hpersonal⟩)
  · cases hauthor
  · obtain ⟨_, -, htext⟩ := Option.map_eq_some_iff.mp hindividual
    exact toString_ne_redacted citizen htext.symm
  · obtain ⟨g, -, hg⟩ := List.mem_map.mp hobject
    split at hg
    · exact toString_ne_redacted citizen (Value.str.inj (Prod.mk.inj hg).2).symm
    · next hkept =>
      subst hg
      exact hkept ⟨rfl, by simp⟩
  · obtain ⟨g, hg, hkey⟩ := keys_redacted hf
    exact hplain g hg (hkey ▸ hpersonal)

/-! ## Blocks -/

/-- What a block does to the signatures. -/
structure SignatureStep (s t : Store) : Prop where
  next_le : s.signatures.next ≤ t.signatures.next
  rows : ∀ sig ∈ t.signatures.rows,
    (∃ a ∈ s.signatures.rows, a.pk = sig.pk ∧ a.consentRecord = sig.consentRecord) ∨
      (sig.pk = s.signatures.next ∧ sig.consentRecord < t.records.next)

theorem SignatureStep.kept (h : t.signatures = s.signatures) : SignatureStep s t := by
  refine ⟨by rw [h], fun sig hsig => .inl ⟨sig, ?_, rfl, rfl⟩⟩
  rwa [← h]

theorem SignatureStep.added (h : t.signatures.rows = s.signatures.rows ++ [sig])
    (hpk : sig.pk = s.signatures.next) (hrecord : sig.consentRecord < t.records.next) :
    SignatureStep s t := by
  refine ⟨?_, fun a ha => ?_⟩
  · have hmem : sig ∈ t.signatures.rows := by simp [h]
    have hused := t.signatures.used sig hmem
    change sig.pk < t.signatures.next at hused
    omega
  · rw [h] at ha
    rcases List.mem_append.mp ha with ha | ha
    · exact .inl ⟨a, ha, rfl, rfl⟩
    · obtain rfl := List.mem_singleton.mp ha
      exact .inr ⟨hpk, hrecord⟩

theorem Worker.Does.signatureStep (h : Worker.Does s p t q) : SignatureStep s t := by
  cases h with
  | granted hgranted =>
    refine .added hgranted.signatures rfl ?_
    rw [hgranted.next]
    exact Nat.lt_succ_self _
  | revoked _ hwithdrawn =>
    have hsignatures := congrArg Store.signatures hwithdrawn.frame
    exact .kept hsignatures
  | attached hattached =>
    have hrecord := s.records.used _ hattached.mem
    refine .added hattached.signatures rfl ?_
    rcases hattached.rest with ⟨-, hframe⟩ | ⟨-, hframe, -⟩
    · rw [hframe]
      exact hrecord
    · rw [hframe]
      exact hrecord
  | updated hupdated =>
    rw [hupdated.frame]
    refine ⟨le_rfl, fun a ha => ?_⟩
    obtain ⟨b, hb, rfl⟩ := List.mem_map.mp ha
    refine .inl ⟨b, hb, ?_⟩
    split <;> exact ⟨rfl, rfl⟩
  | createdPolicy _ _ hconfigured | createdAgreement _ _ hconfigured | savedPolicy _ hconfigured
    | savedAgreement _ hconfigured =>
    have hsignatures := congrArg Store.signatures hconfigured.frame
    exact .kept hsignatures
  | erased herased =>
    rw [herased.frame]
    exact ⟨le_rfl, fun a ha => .inl ⟨a, (List.mem_filter.mp ha).1, rfl, rfl⟩⟩
  | _ => exact .kept rfl

/-- A statement that has been attributed stays so. -/
theorem Statement.Attributed.step (hx : x.Attributed s)
    (hs : ∀ sig ∈ s.signatures.rows, sig.consentRecord < s.records.next)
    (hrecords : RecordStep s t p) (hsignatures : SignatureStep s t) : x.Attributed t := by
  refine ⟨fun hschema => (hx.record_lt hschema).trans_le hrecords.next_le, hx.plain,
    fun hschema => (hx.record hschema).imp_right fun hauthor r hr hpk => ?_,
    fun hschema => (hx.signature_lt hschema).trans_le hsignatures.next_le,
    fun hschema sig hsig hpk r hr hrecord => ?_⟩
  · obtain ⟨a, ha, hapk, hshares⟩ := hrecords.origin hr (hpk ▸ hx.record_lt hschema)
    rw [← hshares.1]
    exact hauthor a ha (hapk.trans hpk)
  · have hlt := hx.signature_lt hschema
    rcases hsignatures.rows sig hsig with ⟨b, hb, hbpk, hbrecord⟩ | ⟨hnew, -⟩
    · obtain ⟨a, ha, hapk, hshares⟩ :=
        hrecords.origin hr (hrecord ▸ hbrecord ▸ hs b hb)
      rw [← hshares.1]
      exact hx.signature hschema b hb (hbpk.trans hpk) a ha
        (hapk.trans (hrecord.trans hbrecord.symm))
    · omega

/-- The statement about a record that is there. -/
theorem attributed_of_record (hr : r ∈ t.records.rows) (hschema : x.schemaName = .consentRecord)
    (hobject : x.objectId = r.pk) (hauthor : x.authorizedByIndividual = some r.citizen)
    (hplain : ∀ f ∈ x.snapshot.objectData, f.1 ∉ personalFields) : x.Attributed t := by
  refine ⟨fun _ => hobject ▸ t.records.used r hr, fun _ => hplain, fun _ => .inr fun a ha hpk => ?_,
    fun hsignature => ?_, fun hsignature => ?_⟩
  · obtain rfl : a = r := Table.eq_of_pk ha hr (hpk.trans hobject)
    exact hauthor
  · cases hschema.symm.trans hsignature
  · cases hschema.symm.trans hsignature

/-- The statement about a signature whose record is there. -/
theorem attributed_of_signature (hsig : sig ∈ t.signatures.rows) (hr : r ∈ t.records.rows)
    (hschema : x.schemaName = .consentSignature) (hobject : x.objectId = sig.pk)
    (hrecord : sig.consentRecord = r.pk) (hauthor : x.authorizedByIndividual = some r.citizen) :
    x.Attributed t := by
  refine ⟨fun h => ?_, fun h => ?_, fun h => ?_, fun _ => hobject ▸ t.signatures.used sig hsig,
    fun _ b hb hpk a ha hbrecord => ?_⟩
  · cases hschema.symm.trans h
  · cases hschema.symm.trans h
  · cases hschema.symm.trans h
  · obtain rfl : b = sig := Table.eq_of_pk hb hsig (hpk.trans hobject)
    obtain rfl : a = r := Table.eq_of_pk ha hr (hbrecord.trans hrecord)
    exact hauthor

/-- What has been written is one of the statements, or it has been there before. -/
theorem Extended.statement {S T : Numbered ConsentRevision.schema} {l : List Statement}
    (h : Extended S l T) (hrev : rev ∈ T.rows) :
    rev.statement ∈ l ∨ ∃ a ∈ S.rows, a.statement = rev.statement := by
  induction h generalizing rev with
  | nil => exact .inr ⟨rev, hrev, rfl⟩
  | snoc _ hcreated ih =>
    obtain rfl | ⟨a, ha, rfl | rfl⟩ := hcreated.mem hrev
    · exact .inl (by simp)
    · exact (ih ha).imp_left (List.mem_append_left _)
    · exact (ih ha).imp_left (List.mem_append_left _)

theorem Store.Attributed.extended {l : List Statement} (hs : s.Attributed)
    (hdoes : Worker.Does s p t q) (h : Extended s.revisions l t.revisions)
    (hl : ∀ x ∈ l, x.Attributed t) : t.Attributed := by
  refine ⟨fun rev hrev => ?_, fun sig hsig => ?_⟩
  · rcases h.statement hrev with hnew | ⟨a, ha, hsame⟩
    · exact hl _ hnew
    · rw [← hsame]
      exact (hs.revisions a ha).step hs.signatures hdoes.recordStep hdoes.signatureStep
  · rcases hdoes.signatureStep.rows sig hsig with ⟨a, ha, -, hrecord⟩ | ⟨-, hlt⟩
    · rw [← hrecord]
      exact (hs.signatures a ha).trans_le hdoes.recordStep.next_le
    · exact hlt

theorem attributed_of_other (hrecord : x.schemaName ≠ .consentRecord)
    (hsignature : x.schemaName ≠ .consentSignature) : x.Attributed t :=
  ⟨fun h => absurd h hrecord, fun h => absurd h hrecord, fun h => absurd h hrecord,
    fun h => absurd h hsignature, fun h => absurd h hsignature⟩

theorem Statement.Attributed.redacted (hrev : rev.statement.Attributed s)
    (hschema : rev.schemaName = .consentRecord) : rev.redacted.statement.Attributed s := by
  refine ⟨hrev.record_lt, fun _ f hf => ?_, fun _ => .inl ⟨rfl, ?_⟩, fun h => ?_, fun h => ?_⟩
  · obtain ⟨g, hg, hkey⟩ := keys_redacted hf
    exact hkey ▸ hrev.plain hschema g hg
  · exact not_names_redacted (hrev.plain hschema)
  · cases hschema.symm.trans h
  · cases hschema.symm.trans h

theorem Store.Attributed.erased (hs : s.Attributed) (hdoes : Worker.Does s p t q)
    (h : Erased listed collected s t) : t.Attributed := by
  have hstep : ∀ x : Statement, x.Attributed s → x.Attributed t := fun x hx =>
    hx.step hs.signatures hdoes.recordStep hdoes.signatureStep
  refine ⟨fun rev hrev => ?_, fun sig hsig => ?_⟩
  · rw [h.frame] at hrev
    obtain ⟨a, ha, rfl⟩ := List.mem_map.mp hrev
    by_cases hlisted : a.schemaName = .consentRecord ∧ a.objectId ∈ listed
    · rw [if_pos (decide_eq_true hlisted)]
      exact hstep _ ((hs.revisions a ha).redacted hlisted.1)
    · rw [if_neg (by simpa using hlisted)]
      exact hstep _ (hs.revisions a ha)
  · rw [h.frame] at hsig ⊢
    exact hs.signatures sig (List.mem_filter.mp hsig).1

theorem Store.Attributed.configured (hs : s.Attributed) (hdoes : Worker.Does s p t q)
    (h : Extended s.revisions [x] t.revisions) (hrecord : x.schemaName ≠ .consentRecord)
    (hsignature : x.schemaName ≠ .consentSignature) : t.Attributed := by
  refine hs.extended hdoes h fun y hy => ?_
  obtain rfl := List.mem_singleton.mp hy
  exact attributed_of_other hrecord hsignature

theorem plain_snapshot (r : ConsentRecord) : ∀ f ∈ r.snapshot, f.1 ∉ personalFields := by
  intro f hf
  simp only [ConsentRecord.snapshot, List.mem_cons, List.not_mem_nil, or_false] at hf
  rcases hf with rfl | rfl | rfl | rfl | rfl | rfl | rfl | rfl | rfl | rfl <;>
    simp [personalFields]

theorem Worker.Does.attributed (h : Worker.Does s p t q) (hs : s.Attributed) : t.Attributed := by
  have hdoes := h
  have hrevisions : t.revisions = s.revisions → t.Attributed := fun hsame =>
    hs.extended hdoes (l := []) (by rw [hsame]; exact .nil) fun x hx => by cases hx
  cases h with
  | granted hgranted =>
    next g seen =>
    have hr : g.signed s.now s.records.next ∈ t.records.rows := by simp [hgranted.records]
    refine hs.extended hdoes hgranted.revisions fun x hx => ?_
    simp only [List.mem_cons, List.not_mem_nil, or_false] at hx
    rcases hx with rfl | rfl
    · exact attributed_of_record hr rfl rfl rfl (plain_snapshot _)
    · exact attributed_of_record hr rfl rfl rfl (plain_snapshot _)
  | revoked record hwithdrawn =>
    next call category r =>
    have hr : r.withDecision (fun _ => Consent.revoking s.now call.caller r) ∈ t.records.rows := by
      rw [hwithdrawn.frame]
      exact List.mem_map.mpr ⟨r, hwithdrawn.mem, if_pos (decide_eq_true rfl)⟩
    refine hs.extended hdoes hwithdrawn.revisions fun x hx => ?_
    obtain rfl := List.mem_singleton.mp hx
    have hcitizen := (currentOf_iff.mp hwithdrawn.current).1
    exact attributed_of_record hr rfl rfl (congrArg some hcitizen.symm) (plain_snapshot _)
  | attached hattached =>
    next user q caller r =>
    rcases hattached.rest with ⟨-, hframe⟩ | ⟨-, hframe, hextended⟩
    · have hsame := congrArg Store.revisions hframe
      exact hrevisions hsame
    · have hr : r.withDecision (fun _ => attaching caller r) ∈ t.records.rows := by
        rw [hframe]
        exact List.mem_map.mpr ⟨r, hattached.mem, if_pos (decide_eq_true rfl)⟩
      refine hs.extended hdoes hextended fun x hx => ?_
      obtain rfl := List.mem_singleton.mp hx
      refine attributed_of_record hr rfl rfl rfl fun f hf => ?_
      rcases List.mem_append.mp hf with hf | hf
      · exact plain_snapshot _ f hf
      · simp only [List.mem_cons, List.not_mem_nil, or_false] at hf
        rcases hf with rfl | rfl <;> simp [personalFields]
  | updated hupdated =>
    next user data caller r sig =>
    have hfound := List.find?_some hupdated.signature
    have hmem := List.mem_of_find?_eq_some hupdated.signature
    have hr : r ∈ t.records.rows := by
      rw [hupdated.frame]
      exact hupdated.mem
    have hsig : sig.withColumns (signatureColumns data) ∈ t.signatures.rows := by
      rw [hupdated.frame]
      exact List.mem_map.mpr ⟨sig, hmem, if_pos (decide_eq_true rfl)⟩
    refine hs.extended hdoes hupdated.revisions fun x hx => ?_
    obtain rfl := List.mem_singleton.mp hx
    exact attributed_of_signature hsig hr rfl rfl (of_decide_eq_true hfound) rfl
  | erased herased => exact hs.erased hdoes herased
  | createdPolicy _ _ hconfigured | createdAgreement _ _ hconfigured | savedPolicy _ hconfigured
    | savedAgreement _ hconfigured =>
    exact hs.configured hdoes hconfigured.revisions (fun h => by cases h) fun h => by cases h
  | _ => exact hrevisions rfl

/-! ## Erasing -/

/-- The revision is about the record or its signature. -/
def ConsentRevision.Concerns (s : Store) (r : ConsentRecord) (rev : ConsentRevision) : Prop :=
  rev.of .consentRecord r.pk = true ∨
    ∃ sig ∈ s.signatures.rows, sig.consentRecord = r.pk ∧ rev.of .consentSignature sig.pk = true

instance (s : Store) (r : ConsentRecord) (rev : ConsentRevision) : Decidable (rev.Concerns s r) :=
  inferInstanceAs (Decidable (_ ∨ ∃ sig ∈ _, _ ∧ _))

/-- The condition on the state in which the records are deleted: no signature of such a record has
been updated, and what is said of a record that the first query has not found is redacted already.
-/
structure Reached (listed collected : List ℕ) (s : Store) : Prop where
  signatures : ∀ r ∈ s.records.rows, r.pk ∈ collected → ∀ sig ∈ s.signatures.rows,
    sig.consentRecord = r.pk → chainOf .consentSignature sig.pk s.revisions.rows = []
  records : ∀ r ∈ s.records.rows, r.pk ∈ collected → r.pk ∉ listed →
    ∀ rev ∈ chainOf .consentRecord r.pk s.revisions.rows, rev.isRedacted = true

/-- What is to be deleted belongs to the citizen who is to be forgotten. -/
def Worker.Owns (s : Store) : Worker → Prop
  | .erasing citizen _ _ _ collected => ∀ k ∈ collected, k < s.records.next ∧
      ∀ r ∈ s.records.rows, r.pk = k → r.citizen = citizen
  | _ => True

theorem Worker.Owns.step {w : Worker} (hw : w.Owns s) (h : RecordStep s t p) : w.Owns t := by
  cases w with
  | erasing citizen caller slugs listed collected =>
    intro k hk
    obtain ⟨hlt, howner⟩ := hw k hk
    refine ⟨hlt.trans_le h.next_le, fun r hr hpk => ?_⟩
    obtain ⟨a, ha, hapk, hshares⟩ := h.origin hr (hpk ▸ hlt)
    rw [← hshares.1]
    exact howner a ha (hapk.trans hpk)
  | _ => trivial

theorem Worker.owns_of_entry (h : p.entry = true) : p.Owns s := by
  cases p with
  | erasing => cases h
  | _ => trivial

theorem Worker.Does.owns (h : Worker.Does s p t q) : q.Owns t := by
  cases h with
  | collected citizen caller slugs listed =>
    intro k hk
    obtain ⟨r, hr, rfl⟩ := List.mem_map.mp hk
    obtain ⟨hr, hforgettable⟩ := List.mem_filter.mp hr
    refine ⟨s.records.used r hr, fun a ha hpk => ?_⟩
    obtain rfl : a = r := Table.eq_of_pk ha hr hpk
    simp only [Bool.and_eq_true, decide_eq_true_eq] at hforgettable
    exact hforgettable.1
  | _ => trivial

/-- The invariants of a run -/
theorem attributed_of_reachable {s : Pool.State Store Worker} (h : consent.machine.Reachable s) :
    s.store.Attributed ∧ ∀ p ∈ s.workers, p.Owns s.store := by
  refine Program.invariant (P := consent) (I := Store.Attributed) (J := fun st p => p.Owns st)
    ?_ (fun _ _ _ hentry => Worker.owns_of_entry hentry) (fun _ _ => trivial) ?_ ?_ h
  · rintro st ⟨hrevisions, -, hsignatures, -⟩
    refine ⟨fun rev hrev => ?_, fun sig hsig => ?_⟩
    · rw [hrevisions] at hrev
      cases hrev
    · rw [hsignatures] at hsig
      cases hsig
  · intro st p e st' p' hs _ hact
    have hdoes := act_does hact
    exact ⟨hdoes.attributed hs, hdoes.owns, fun w hw => hw.step hdoes.recordStep⟩
  · intro st time st' hs henv
    obtain rfl := Option.some.inj henv
    have hrecords : RecordStep st { st with now := st.now + time } .dead := .kept _ rfl
    have hsignatures : SignatureStep st { st with now := st.now + time } := .kept rfl
    exact ⟨⟨fun rev hrev => (hs.revisions rev hrev).step hs.signatures hrecords hsignatures,
      hs.signatures⟩, fun w hw => hw.step hrecords⟩

theorem rewritten (h : Erased listed collected s t) (hrev : rev ∈ s.revisions.rows) :
    (if rev.schemaName = .consentRecord ∧ rev.objectId ∈ listed then rev.redacted else rev) ∈
      t.revisions.rows := by
  rw [h.frame]
  refine List.mem_map.mpr ⟨rev, hrev, ?_⟩
  simp only [decide_eq_true_eq]

theorem of_iff {schemaName : SchemaName} {k : ℕ} :
    rev.of schemaName k = true ↔ rev.schemaName = schemaName ∧ rev.objectId = k := by
  simp [ConsentRevision.of]

/-- When the records are deleted, nobody is left in a revision about them or their signatures if
and only if the condition holds. -/
theorem Erased.names_iff (h : Erased listed collected s t) (hs : s.Attributed)
    (howner : ∀ r ∈ s.records.rows, r.pk ∈ collected → r.citizen = citizen) :
    (∀ r ∈ s.records.rows, r.pk ∈ collected → ∀ rev ∈ t.revisions.rows, rev.Concerns s r →
      ¬ rev.statement.Names citizen) ↔ Reached listed collected s := by
  constructor
  · intro hclean
    refine ⟨fun r hr htaken sig hsig hrecord => ?_, fun r hr htaken hlisted rev hrev => ?_⟩
    · by_contra hne
      obtain ⟨rev, hrev⟩ := List.exists_mem_of_ne_nil _ hne
      obtain ⟨hrev, hschema, hobject⟩ := mem_chainOf.mp hrev
      have hkept := rewritten h hrev
      rw [if_neg fun hredacted => by cases hschema.symm.trans hredacted.1] at hkept
      refine hclean r hr htaken rev hkept
        (.inr ⟨sig, hsig, hrecord, of_iff.mpr ⟨hschema, hobject⟩⟩) (.inl ?_)
      rw [← howner r hr htaken]
      exact (hs.revisions rev hrev).signature hschema sig hsig hobject.symm r hr hrecord.symm
    · obtain ⟨hrev, hschema, hobject⟩ := mem_chainOf.mp hrev
      have hkept := rewritten h hrev
      rw [if_neg fun hredacted => hlisted (hobject ▸ hredacted.2)] at hkept
      rcases (hs.revisions rev hrev).record hschema with ⟨hnone, -⟩ | hauthor
      · have hnone : rev.authorizedByIndividual = none := hnone
        simp [ConsentRevision.isRedacted, hschema, hnone]
      · have hconcerns : rev.Concerns s r := .inl (of_iff.mpr ⟨hschema, hobject⟩)
        refine absurd (.inl ?_) (hclean r hr htaken rev hkept hconcerns)
        rw [← howner r hr htaken]
        exact hauthor r hr hobject.symm
  · intro hreached r hr htaken rev hrev hconcerns
    rw [h.frame] at hrev
    obtain ⟨a, ha, rfl⟩ := List.mem_map.mp hrev
    by_cases hlisted : a.schemaName = .consentRecord ∧ a.objectId ∈ listed
    · rw [if_pos (decide_eq_true hlisted)]
      exact not_names_redacted ((hs.revisions a ha).plain hlisted.1) citizen
    · rw [if_neg (by simpa using hlisted)] at hconcerns ⊢
      rcases hconcerns with hof | ⟨sig, hsig, hrecord, hof⟩
      · obtain ⟨hschema, hobject⟩ := of_iff.mp hof
        have hredacted := hreached.records r hr htaken (fun hin => hlisted ⟨hschema, hobject ▸ hin⟩)
          a (mem_chainOf.mpr ⟨ha, hschema, hobject⟩)
        have hnone : a.authorizedByIndividual = none := by
          simpa [ConsentRevision.isRedacted, hschema] using hredacted
        rcases (hs.revisions a ha).record hschema with ⟨-, hclean⟩ | hauthor
        · exact hclean citizen
        · cases hnone.symm.trans (hauthor r hr hobject.symm)
      · have hnil := hreached.signatures r hr htaken sig hsig hrecord
        have hmem := mem_chainOf.mpr ⟨ha, of_iff.mp hof⟩
        rw [hnil] at hmem
        cases hmem

/-- In every reachable state, when a request to forget a citizen has deleted the records, no
revision about one of them or about its signature names the citizen if and only if none of the
signatures had ever been updated and what was said of the records that the first query has not found
had been redacted. -/
theorem forgotten_iff {s t : Pool.State Store Worker} {i : ℕ} {caller : Caller} {slugs : List Value}
    (h : consent.machine.Reachable s)
    (hp : s.workers[i]? = some (.erasing citizen caller slugs listed collected))
    (hstep : consent.machine.step s (.act i ()) = some t)
    (hreturned : t.workers[i]? = some (.returned none)) :
    (∀ r ∈ s.store.records.rows, r.pk ∈ collected → ∀ rev ∈ t.store.revisions.rows,
      rev.Concerns s.store r → ¬ rev.statement.Names citizen) ↔
    Reached listed collected s.store := by
  obtain ⟨hs, howns⟩ := attributed_of_reachable h
  have howner := howns _ (List.mem_of_getElem? hp)
  obtain ⟨st, q, hact, hst, hq⟩ := Program.step_act hp hstep
  obtain rfl : q = .returned none := Option.some.inj (hq.symm.trans hreturned)
  rw [hst]
  have hdoes := act_does (p := .erasing citizen caller slugs listed collected) hact
  cases hdoes with
  | erased herased =>
    exact herased.names_iff hs fun r hr htaken => (howner r.pk htaken).2 r hr rfl

/-! ## Two citizens who are forgotten -/

/-- A citizen consents to something that can be forgotten. -/
def forgettableGrant : List Label :=
  [.spawn (.calling (.createDataAgreement [(.slug, .str "news"), (.forgettable, .bool true)] none)),
    .act 0 (), .spawn (.granting { citizen := 5, categorySlug := "news" }), .act 1 (), .act 1 (),
    .act 1 ()]

/-- The citizen wants to be forgotten. -/
def forgets : List Label :=
  forgettableGrant ++ [.spawn (.forgetting 5 {}), .act 2 (), .act 2 ()]

/-- The same, but the citizen has updated the signature before. -/
def forgetsSigned : List Label :=
  forgettableGrant ++ [.spawn (.calling
    (.updateSignature 5 1 [(.verificationSignedBy, .str "citizen@example.org")] {})), .act 2 (),
    .spawn (.forgetting 5 {}), .act 3 (), .act 3 ()]

theorem forgets_clean :
    let s := consent.machine.final start forgets
    let t := consent.machine.final start (forgets ++ [.act 2 ()])
    ∀ r ∈ s.store.records.rows, r.pk ∈ [1] → ∀ rev ∈ t.store.revisions.rows,
      rev.Concerns s.store r → ¬ rev.statement.Names 5 := by
  intro s t
  have hp : s.workers[2]? = some (.erasing 5 {} [.str "news"] [1] [1]) := rfl
  have hstep : consent.machine.step s (.act 2 ()) = some t := rfl
  have hreturned : t.workers[2]? = some (.returned none) := rfl
  refine (forgotten_iff (.final start_init forgets) hp hstep hreturned).mpr ⟨?_, ?_⟩
  · decide +kernel
  · decide +kernel

/-- The revision of the signature still names the citizen. -/
theorem forgetsSigned_named : ∃ s t i citizen caller slugs listed collected,
    consent.machine.Reachable s ∧
    s.workers[i]? = some (.erasing citizen caller slugs listed collected) ∧
    consent.machine.step s (.act i ()) = some t ∧ t.workers[i]? = some (.returned none) ∧
    ∃ r ∈ s.store.records.rows, r.pk ∈ collected ∧ ∃ rev ∈ t.store.revisions.rows,
      rev.Concerns s.store r ∧ rev.statement.Names citizen := by
  refine ⟨consent.machine.final start forgetsSigned,
    consent.machine.final start (forgetsSigned ++ [.act 3 ()]), 3, 5, {}, [.str "news"], [1], [1],
    .final start_init forgetsSigned, ?_, ?_, ?_, ?_⟩
  · rfl
  · rfl
  · rfl
  · decide +kernel

end Civicos.Consent
