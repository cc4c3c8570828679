import Civicos.Consent.System

/-!
# Steps of the consent system

What each transaction does when it returns, and from that everything a block can do.
-/
namespace Civicos.Consent

open Library Library.Transaction
open Documents (Instant)

variable {s t : Store} {r a : ConsentRecord} {g : Grant} {seen : Option ℕ} {u : Unit}

/-! ## What a revision says -/

/-- A revision without its place in the chain. -/
structure Statement where
  schemaName : SchemaName
  objectId : ℕ
  snapshot : Snapshot
  authorizedByIndividual : Option ℕ
deriving DecidableEq

def ConsentRevision.statement (r : ConsentRevision) : Statement :=
  ⟨r.schemaName, r.objectId, r.serializedSnapshot, r.authorizedByIndividual⟩

/-- What `create_for` makes of a snapshot. -/
def Statement.of (now : Instant) (schemaName : SchemaName) (objectId : ℕ)
    (snapshot : List (String × Value)) (authorizedBy : Option ℕ) (authorizedByOther : String) :
    Statement where
  schemaName
  objectId
  snapshot := {
    objectData := snapshot
    schemaName
    objectId
    timestamp := now
    authorizedByIndividual := authorizedBy.map toString
    authorizedByOther }
  authorizedByIndividual := authorizedBy

/-- `create_for` has written these statements, one after another. -/
inductive Extended (S : Numbered ConsentRevision.schema) :
    List Statement → Numbered ConsentRevision.schema → Prop where
  | nil : Extended S [] S
  | snoc {l : List Statement} {T U : Numbered ConsentRevision.schema} {rev : ConsentRevision}
      (h : Extended S l T) (hcreated : Created T U rev) : Extended S (l ++ [rev.statement]) U

theorem Extended.trans {S T U : Numbered ConsentRevision.schema} {l m : List Statement}
    (h : Extended S l T) (g : Extended T m U) : Extended S (l ++ m) U := by
  induction g with
  | nil => rwa [List.append_nil]
  | snoc _ hcreated ih =>
    rw [← List.append_assoc]
    exact ih.snoc hcreated

theorem createFor_extended {schemaName : SchemaName} {objectId : ℕ}
    {snapshot : List (String × Value)} {authorizedBy : Option ℕ} {authorizedByOther : String}
    {rev : ConsentRevision}
    (h : createFor schemaName objectId snapshot authorizedBy authorizedByOther s = .ok (rev, t)) :
    rev.pk = s.revisions.next ∧ ∃ T, t = { s with revisions := T } ∧ Extended s.revisions
      [.of s.now schemaName objectId snapshot authorizedBy authorizedByOther] T := by
  obtain ⟨rfl, T, rfl, hcreated⟩ := createFor_created h
  exact ⟨rfl, T, rfl, Extended.nil.snoc hcreated⟩

theorem writeAudit_ok {entry : ConsentAuditEntry} :
    writeAudit entry s = .ok (u, t) ↔ t = { s with audit := s.audit ++ [entry] } := by
  simp [writeAudit, eq_comm]

theorem writeAudit_bind {α : Type} {entry : ConsentAuditEntry} {k : Unit → Tx α} {b : α} :
    (writeAudit entry >>= k) s = .ok (b, t) ↔
      k () { s with audit := s.audit ++ [entry] } = .ok (b, t) := Iff.rfl

theorem saveRecord_bind {α : Type} {record : ℕ} {f : ConsentRecord → Decision} {k : Unit → Tx α}
    {b : α} : (saveRecord record f >>= k) s = .ok (b, t) ↔
      k () { s with
        records := s.records.rewrite (·.pk = record) (.withDecision f) (ConsentRecord.preserves f) }
        = .ok (b, t) := Iff.rfl

/-! ## Records -/

/-- At most one record of a citizen and a category is current. -/
theorem eq_of_current (hr : r ∈ s.records.rows) (ha : a ∈ s.records.rows)
    (hcitizen : r.citizen = a.citizen) (hcategory : r.category = a.category)
    (hrcurrent : r.isCurrent = true) (hacurrent : a.isCurrent = true) : r = a := by
  have hclash : ConsentRecord.currentUnique.Clash r a := by
    constructor
    · simp [ConsentRecord.currentUnique, hrcurrent]
    · simp [ConsentRecord.currentUnique, hrcurrent, hacurrent, hcitizen, hcategory]
  exact Table.eq_of_clash (List.mem_singleton.mpr rfl) hr ha hclash

/-- An insert of a current record succeeds when there is no other, or changes nothing. -/
theorem insertCurrent_ok {build : ℕ → ConsentRecord} {res : Option ConsentRecord}
    (h : insertCurrent build s = .ok (res, t)) (hpk : ∀ k, (build k).pk = k)
    (hcurrent : ∀ k, (build k).isCurrent = true) :
    (res = none ∧ t = s ∧ ∃ a ∈ s.records.rows, a.isCurrent = true ∧
      a.citizen = (build s.records.next).citizen ∧ a.category = (build s.records.next).category) ∨
    (res = some (build s.records.next) ∧ (∀ a ∈ s.records.rows, a.isCurrent = true →
      a.citizen = (build s.records.next).citizen → a.category ≠ (build s.records.next).category) ∧
      ∃ T, t = { s with records := T } ∧ T.rows = s.records.rows ++ [build s.records.next] ∧
        T.next = s.records.next + 1) := by
  unfold insertCurrent append at h
  cases hinsert : s.records.insert build with
  | ok T =>
    simp only [Store.recordTable, hinsert, Except.ok.injEq, Prod.mk.injEq] at h
    obtain ⟨rfl, rfl⟩ := h
    obtain ⟨hrows, hnext, -⟩ := Numbered.insert_ok hinsert (hpk _)
    refine .inr ⟨rfl, fun a ha hacurrent hcitizen hcategory => ?_, T, rfl, hrows, hnext⟩
    obtain ⟨-, hapart⟩ := (Numbered.insert_returns (hpk _)).mp ⟨T, hinsert⟩
    refine hapart a ha _ (List.mem_singleton.mpr rfl) ⟨?_, ?_⟩
    · simp [ConsentRecord.currentUnique, hacurrent]
    · simp [ConsentRecord.currentUnique, hacurrent, hcurrent, hcitizen, hcategory]
  | error v =>
    simp only [Store.recordTable, hinsert] at h
    split at h
    · simp only [Except.ok.injEq, Prod.mk.injEq] at h
      obtain ⟨rfl, rfl⟩ := h
      refine .inl ⟨rfl, rfl, ?_⟩
      by_contra hnone
      have hreturns : ∃ T, s.records.insert build = .ok T := (Numbered.insert_returns (hpk _)).mpr
        ⟨fun c hc => (by cases hc), fun a ha i hi hclash => hnone ?_⟩
      · rw [hinsert] at hreturns
        obtain ⟨_, hT⟩ := hreturns
        cases hT
      · obtain rfl := List.mem_singleton.mp hi
        obtain ⟨hne, heq⟩ := hclash
        have hacurrent : a.isCurrent = true := by
          by_contra hfalse
          exact hne (by simp [ConsentRecord.currentUnique, hfalse])
        simp only [ConsentRecord.currentUnique, hacurrent, hcurrent, ↓reduceIte,
          Option.some.injEq, Prod.mk.injEq] at heq
        exact ⟨a, ha, hacurrent, heq.1, heq.2⟩
    · cases h

/-! ## Grants -/

namespace Grant

def archive (g : Grant) (seen : Option ℕ) (r : ConsentRecord) : ConsentRecord :=
  if seen = some r.pk ∧ r.currentOf g.citizen g.category = true then r.archived else r

/-- The record of a grant once it is signed. -/
def signed (g : Grant) (now : Instant) (pk : ℕ) : ConsentRecord :=
  { g.record pk with
    status := .granted
    state := .signed
    grantedAt := some now }

def entry (g : Grant) : ConsentAuditEntry where
  citizen := some g.citizen
  actor := some g.citizen
  action := .granted
  category := some g.category
  actorIp := g.caller.actorIp
  details := .decided g.categorySlug g.caller.source

end Grant

/-- A grant that has won. -/
structure Granted (g : Grant) (seen : Option ℕ) (s t : Store) : Prop where
  free : ∀ r ∈ s.records.rows, r.currentOf g.citizen g.category = true → seen = some r.pk
  frame : t = { s with
    records := t.records
    signatures := t.signatures
    revisions := t.revisions
    audit := s.audit ++ [g.entry] }
  records : t.records.rows =
    s.records.rows.map (g.archive seen) ++ [g.signed s.now s.records.next]
  next : t.records.next = s.records.next + 1
  signatures : t.signatures.rows =
    s.signatures.rows ++ [g.signature s.records.next s.now s.signatures.next]
  revisions : Extended s.revisions
    [.of s.now .consentRecord s.records.next (g.record s.records.next).snapshot (some g.citizen) "",
      .of s.now .consentRecord s.records.next (g.signed s.now s.records.next).snapshot
        (some g.citizen) ""] t.revisions

theorem map_archive (h : ∀ r ∈ s.records.rows, seen ≠ some r.pk) :
    s.records.rows.map (g.archive seen) = s.records.rows := by
  refine (List.map_congr_left fun r hr => ?_).trans (List.map_id _)
  simp [Grant.archive, h r hr]

theorem archiveSeen_ok (h : archiveSeen g seen s = .ok (u, t)) : ∃ T, t = { s with records := T } ∧
    T.rows = s.records.rows.map (g.archive seen) ∧ T.next = s.records.next := by
  cases seen with
  | none =>
    obtain ⟨-, rfl⟩ := pure_ok.mp h
    exact ⟨t.records, rfl, (map_archive fun _ _ => by simp).symm, rfl⟩
  | some k =>
    obtain ⟨T, hT, rfl⟩ := updateRow_ok.mp h
    refine ⟨T, rfl, ?_⟩
    change s.records.update k _ = .ok T at hT
    cases hget : s.records.get k with
    | none =>
      rw [Numbered.update_of_none hget] at hT
      cases hT
      refine ⟨(map_archive fun r hr hk => ?_).symm, rfl⟩
      exact Table.get_eq_none.mp hget r hr (Option.some.inj hk).symm
    | some a =>
      obtain ⟨ha, rfl⟩ := Numbered.get_eq_some.mp hget
      obtain ⟨hrows, hnext⟩ := Numbered.update_ok hT hget (by split <;> rfl)
      refine ⟨hrows.trans (List.map_congr_left fun r hr => ?_), hnext⟩
      by_cases hpk : r.pk = a.pk
      · obtain rfl := Table.eq_of_pk hr ha hpk
        simp [Grant.archive, ConsentRecord.schema]
      · simp [Grant.archive, ConsentRecord.schema, hpk, Ne.symm hpk]

/-- Signing a record -/
def signing (now : Instant) (r : ConsentRecord) : Decision :=
  { r with
    status := .granted
    state := .signed
    grantedAt := some now }

theorem sign_ok (h : sign g r s = .ok (u, t)) :
    t = { s with
      records := s.records.rewrite (·.pk = r.pk) (.withDecision fun _ => signing s.now r)
        (ConsentRecord.preserves _)
      signatures := t.signatures
      revisions := t.revisions
      audit := s.audit ++ [g.entry] } ∧
    t.signatures.rows = s.signatures.rows ++ [g.signature r.pk s.now s.signatures.next] ∧
    Extended s.revisions
      [.of s.now .consentRecord r.pk r.snapshot (some g.citizen) "",
        .of s.now .consentRecord r.pk (r.withDecision (signing s.now)).snapshot
          (some g.citizen) ""] t.revisions := by
  unfold sign at h
  obtain ⟨_, _, hrev, h⟩ := bind_ok.mp h
  obtain ⟨-, V, rfl, hV⟩ := createFor_extended hrev
  obtain ⟨_, _, ⟨⟩, h⟩ := bind_ok.mp h
  have h := writeAudit_bind.mp (saveRecord_bind.mp h)
  obtain ⟨_, _, hsig, h⟩ := bind_ok.mp h
  obtain ⟨-, S, hS, rfl⟩ := append_ok.mp hsig
  have hrows := (Numbered.insert_ok hS rfl).1
  obtain ⟨_, _, hrev, h⟩ := bind_ok.mp h
  obtain ⟨-, rfl⟩ := pure_ok.mp h
  obtain ⟨-, V', rfl, hV'⟩ := createFor_extended hrev
  exact ⟨rfl, hrows, hV.trans hV'⟩

theorem currentOf_iff {citizen category : ℕ} : r.currentOf citizen category = true ↔
    r.citizen = citizen ∧ r.category = category ∧ r.isCurrent = true := by
  simp [ConsentRecord.currentOf]

/-- What the archiving statement leaves alone it has not seen. -/
theorem archive_eq (hr : r.currentOf g.citizen g.category = true)
    (h : (g.archive seen r).isCurrent = true) : g.archive seen r = r ∧ seen ≠ some r.pk := by
  by_cases hseen : seen = some r.pk
  · simp [Grant.archive, hseen, hr, ConsentRecord.archived] at h
  · exact ⟨by simp [Grant.archive, hseen], hseen⟩

@[simp] theorem pk_archive : (g.archive seen r).pk = r.pk := by
  unfold Grant.archive
  split <;> rfl

@[simp] theorem citizen_archive : (g.archive seen r).citizen = r.citizen := by
  unfold Grant.archive
  split <;> rfl

@[simp] theorem category_archive : (g.archive seen r).category = r.category := by
  unfold Grant.archive
  split <;> rfl

@[simp] theorem toDecision_archive : (g.archive seen r).toDecision = r.toDecision := by
  unfold Grant.archive
  split <;> rfl

theorem isCurrent_of_archive (h : (g.archive seen r).isCurrent = true) : r.isCurrent = true := by
  unfold Grant.archive at h
  split at h
  · cases h
  · exact h

theorem writeGrant_ok {res : Option ℕ} (h : writeGrant g seen s = .ok (res, t)) :
    (res = none ∧ t = s ∧ ∃ a ∈ s.records.rows, a.currentOf g.citizen g.category = true) ∨
      (res = some s.records.next ∧ Granted g seen s t) := by
  unfold writeGrant at h
  obtain ⟨_, _, harchive, h⟩ := bind_ok.mp h
  obtain ⟨T, rfl, hrows, hnext⟩ := archiveSeen_ok harchive
  obtain ⟨inserted, u, hinsert, h⟩ := bind_ok.mp h
  rcases insertCurrent_ok hinsert (fun _ => rfl) (fun _ => rfl) with
    ⟨rfl, rfl, a, ha, hcurrent, hcitizen, hcategory⟩ | ⟨rfl, hfree, T', rfl, hrows', hnext'⟩
  · obtain ⟨rfl, rfl⟩ := pure_ok.mp h
    -- The row in the way is current in the snapshot too, so that nothing has been archived.
    change a ∈ T.rows at ha
    rw [hrows] at ha
    obtain ⟨b, hb, rfl⟩ := List.mem_map.mp ha
    rw [citizen_archive] at hcitizen
    rw [category_archive] at hcategory
    have hbcurrent : b.currentOf g.citizen g.category = true :=
      currentOf_iff.mpr ⟨hcitizen, hcategory, isCurrent_of_archive hcurrent⟩
    have hunseen := (archive_eq hbcurrent hcurrent).2
    have hsame : T = s.records := by
      refine Numbered.ext (hrows.trans ?_) hnext
      refine (List.map_congr_left fun r hr => ?_).trans (List.map_id _)
      by_cases hrcurrent : r.currentOf g.citizen g.category = true
      · obtain ⟨hrcitizen, hrcategory, hrnow⟩ := currentOf_iff.mp hrcurrent
        obtain ⟨hbcitizen, hbcategory, hbnow⟩ := currentOf_iff.mp hbcurrent
        obtain rfl := eq_of_current hr hb (hrcitizen.trans hbcitizen.symm)
          (hrcategory.trans hbcategory.symm) hrnow hbnow
        simp [Grant.archive, hunseen]
      · simp [Grant.archive, hrcurrent]
    exact .inl ⟨rfl, by rw [hsame], b, hb, hbcurrent⟩
  · obtain ⟨_, v, hsign, h⟩ := bind_ok.mp h
    obtain ⟨rfl, rfl⟩ := pure_ok.mp h
    obtain ⟨hframe, hsignatures, hrevisions⟩ := sign_ok hsign
    change T'.rows = T.rows ++ [g.record T.next] at hrows'
    refine .inr ⟨congrArg some hnext, ?_, ?_, ?_, ?_, ?_, ?_⟩
    · intro r hr hcurrent
      by_contra hunseen
      have hsame : g.archive seen r = r := by simp [Grant.archive, hunseen]
      have hmem : r ∈ T.rows := hrows ▸ List.mem_map.mpr ⟨r, hr, hsame⟩
      obtain ⟨hcitizen, hcategory, hnow⟩ := currentOf_iff.mp hcurrent
      exact hfree r hmem hnow hcitizen hcategory
    · rw [hframe]
    · rw [hframe]
      change T'.rows.map _ = _
      rw [hrows', List.map_append, List.map_singleton, hrows, hnext]
      congr 1
      · refine (List.map_congr_left fun r hr => ?_).trans (List.map_id _)
        obtain ⟨a, ha, rfl⟩ := List.mem_map.mp hr
        have hold : (g.archive seen a).pk ≠ s.records.next := by
          rw [pk_archive]
          exact Nat.ne_of_lt (s.records.used a ha)
        exact if_neg (by simpa [Grant.record] using hold)
      · exact congrArg (List.cons · []) (if_pos (decide_eq_true rfl))
    · rw [hframe]
      exact hnext'.trans (congrArg (· + 1) hnext)
    · rw [hsignatures]
      exact congrArg (fun k => s.signatures.rows ++ [g.signature k s.now s.signatures.next]) hnext
    · rw [← hnext]
      exact hrevisions

/-! ## Withdrawals -/

/-- Withdrawing a record -/
def revoking (now : Instant) (caller : Caller) (r : ConsentRecord) : Decision :=
  { r with
    status := .withdrawn
    state := .revoked
    withdrawnAt := some now
    actorIp := caller.actorIp
    source := caller.source }

structure Withdrawn (call : WithdrawCall) (category : ℕ) (r : ConsentRecord) (s t : Store) :
    Prop where
  mem : r ∈ s.records.rows
  current : r.currentOf call.citizen category = true
  granted : r.status = .granted
  frame : t = { s with
    records := s.records.rewrite (·.pk = r.pk) (.withDecision fun _ => revoking s.now call.caller r)
      (ConsentRecord.preserves _)
    revisions := t.revisions
    audit := s.audit ++ [{
      citizen := some call.citizen
      actor := some call.citizen
      action := .withdrawn
      category := some category
      actorIp := call.caller.actorIp
      details := .decided call.categorySlug call.caller.source }] }
  revisions : Extended s.revisions [.of s.now .consentRecord r.pk
    (r.withDecision (revoking s.now call.caller)).snapshot (some call.citizen) ""] t.revisions

theorem locked_mem {k : Option ℕ} {filter : ConsentRecord → Bool}
    (h : (k.bind s.records.get).filter filter = some r) :
    r ∈ s.records.rows ∧ k = some r.pk ∧ filter r = true := by
  obtain ⟨hget, hfilter⟩ := Option.filter_eq_some_iff.mp h
  obtain ⟨k, rfl, hget⟩ := Option.bind_eq_some_iff.mp hget
  obtain ⟨hr, rfl⟩ := Numbered.get_eq_some.mp hget
  exact ⟨hr, rfl, hfilter⟩

theorem writeWithdrawal_ok {call : WithdrawCall} {category res : ℕ}
    (h : writeWithdrawal call category seen s = .ok (res, t)) :
    t = s ∨ ∃ r, seen = some r.pk ∧ Withdrawn call category r s t := by
  obtain ⟨r, hlocked, h⟩ := ask_bind.mp h
  obtain ⟨hr, hseen, hcurrent⟩ := locked_mem hlocked
  obtain ⟨hpending, h⟩ := guard_ok h
  by_cases hgranted : r.status = .granted
  · rw [if_neg (not_not.mpr hgranted)] at h
    obtain ⟨_, _, ⟨⟩, h⟩ := bind_ok.mp h
    have h := saveRecord_bind.mp h
    obtain ⟨_, _, hrev, h⟩ := bind_ok.mp h
    obtain ⟨-, V, rfl, hV⟩ := createFor_extended hrev
    have h := writeAudit_bind.mp h
    obtain ⟨-, rfl⟩ := pure_ok.mp h
    exact .inr ⟨r, hseen, hr, hcurrent, hgranted, rfl, hV⟩
  · rw [if_pos hgranted] at h
    exact .inl (pure_ok.mp h).2

/-! ## Signatures -/

/-- Signing a record by a signature -/
def attaching (caller : Caller) (r : ConsentRecord) : Decision :=
  { r with
    status := .granted
    state := .signed
    actorIp := caller.actorIp
    source := caller.source }

/-- The entry of a signature that has signed a record. -/
def attachedEntry (q : SignatureRequest) (caller : Caller) (r : ConsentRecord) (revision : ℕ) :
    ConsentAuditEntry where
  citizen := some r.citizen
  actor := some r.citizen
  action := .granted
  category := some r.category
  actorIp := caller.actorIp
  details := .signatureAttached q.verificationType revision

/-- A signature for a record that had none. -/
structure Attached (user : ℕ) (q : SignatureRequest) (caller : Caller) (r : ConsentRecord)
    (s t : Store) : Prop where
  mem : r ∈ s.records.rows
  citizen : r.citizen = user
  unsigned : s.signatureOf r.pk = none
  given : q.signature ≠ "" ∧ q.verificationSignedBy ≠ ""
  signatures : t.signatures.rows = s.signatures.rows ++ [q.row r s.now s.signatures.next]
  rest : (r.state = .signed ∧ t = { s with signatures := t.signatures }) ∨
    (r.state ≠ .signed ∧ t = { s with
      records := s.records.rewrite (·.pk = r.pk) (.withDecision fun _ => attaching caller r)
        (ConsentRecord.preserves _)
      signatures := t.signatures
      revisions := t.revisions
      audit := s.audit ++ [attachedEntry q caller r s.revisions.next] } ∧
    Extended s.revisions [.of s.now .consentRecord r.pk
      ((r.withDecision (attaching caller)).snapshot ++ [("previousState", .str r.state.value),
        ("transitionedBy", .str "signature")]) (some r.citizen) ""] t.revisions)

theorem recordFor_bind {α : Type} {user record : ℕ} {k : ConsentRecord → Tx α} {b : α} :
    (recordFor user record >>= k) s = .ok (b, t) ↔
      ∃ r, (r ∈ s.records.rows ∧ r.pk = record ∧ r.citizen = user) ∧ k r s = .ok (b, t) := by
  unfold recordFor
  rw [ask_bind]
  refine exists_congr fun r => and_congr_left fun _ => ?_
  rw [Option.filter_eq_some_iff, Numbered.get_eq_some, decide_eq_true_eq, and_assoc]
  exact Iff.rfl

theorem attachSignature_ok {user record : ℕ} {q : SignatureRequest} {caller : Caller}
    (h : attachSignature user record q caller s = .ok (u, t)) :
    ∃ r, r.pk = record ∧ Attached user q caller r s t := by
  obtain ⟨r, ⟨hr, hpk, hcitizen⟩, h⟩ := recordFor_bind.mp h
  obtain ⟨_, _, ⟨⟩, h⟩ := bind_ok.mp h
  obtain ⟨hunsigned, h⟩ := guard_ok h
  obtain ⟨hsignature, h⟩ := guard_ok h
  obtain ⟨hby, h⟩ := guard_ok h
  obtain ⟨_, _, hsig, h⟩ := bind_ok.mp h
  obtain ⟨-, S, hS, rfl⟩ := append_ok.mp hsig
  have hrows := (Numbered.insert_ok hS rfl).1
  have hnone : s.signatureOf r.pk = none := Option.not_isSome_iff_eq_none.mp hunsigned
  by_cases hsigned : r.state = .signed
  · rw [if_pos hsigned] at h
    obtain ⟨-, rfl⟩ := pure_ok.mp h
    exact ⟨r, hpk, hr, hcitizen, hnone, ⟨hsignature, hby⟩, hrows, .inl ⟨hsigned, rfl⟩⟩
  · rw [if_neg hsigned] at h
    have h := saveRecord_bind.mp h
    obtain ⟨rev, _, hrev, h⟩ := bind_ok.mp h
    obtain ⟨hrevpk, V, rfl, hV⟩ := createFor_extended hrev
    obtain rfl := writeAudit_ok.mp h
    refine ⟨r, hpk, hr, hcitizen, hnone, ⟨hsignature, hby⟩, hrows, .inr ⟨hsigned, ?_, hV⟩⟩
    rw [hrevpk]
    rfl

/-- A signature is changed. -/
structure Updated (user : ℕ) (data : List (SignatureField × Value)) (caller : Caller)
    (r : ConsentRecord) (sig : ConsentSignature) (s t : Store) : Prop where
  mem : r ∈ s.records.rows
  citizen : r.citizen = user
  signature : s.signatureOf r.pk = some sig
  frame : t = { s with
    signatures := s.signatures.rewrite (·.pk = sig.pk) (.withColumns (signatureColumns data))
      (ConsentSignature.preserves _)
    revisions := t.revisions
    audit := s.audit ++ [{
      citizen := some r.citizen
      actor := some r.citizen
      action := .granted
      category := some r.category
      actorIp := caller.actorIp
      details := .signatureUpdated s.revisions.next }] }
  revisions : Extended s.revisions [.of s.now .consentSignature sig.pk
    (sig.withColumns (signatureColumns data)).snapshot (some r.citizen) ""] t.revisions

theorem updateSignature_ok {user record : ℕ} {data : List (SignatureField × Value)}
    {caller : Caller}
    (h : updateSignature user record data caller s = .ok (u, t)) :
    ∃ r sig, r.pk = record ∧ Updated user data caller r sig s t := by
  obtain ⟨r, ⟨hr, hpk, hcitizen⟩, h⟩ := recordFor_bind.mp h
  obtain ⟨sig, hsig, h⟩ := ask_bind.mp h
  have h := rewriteRows_bind.mp h
  obtain ⟨rev, _, hrev, h⟩ := bind_ok.mp h
  obtain ⟨hrevpk, V, rfl, hV⟩ := createFor_extended hrev
  obtain rfl := writeAudit_ok.mp h
  refine ⟨r, sig, hpk, hr, hcitizen, hsig, ?_, hV⟩
  rw [hrevpk]
  rfl

/-! ## Erasure -/

/-- Records are erased with their signatures, and their revisions redacted. -/
structure Erased (listed collected : List ℕ) (s t : Store) : Prop where
  audit : ∃ l, t.audit = s.audit ++ l ∧
    ∀ entry ∈ l, entry.action = .rtbfRequested ∨ entry.action = .rtbfCompleted
  frame : t = { s with
    records := s.records.keep fun r => !decide (r.pk ∈ collected)
    signatures := s.signatures.keep fun sig => !decide (sig.consentRecord ∈ collected)
    revisions := s.revisions.rewrite
      (fun r => decide (r.schemaName = .consentRecord ∧ r.objectId ∈ listed)) .redacted
      ConsentRevision.preserves_redacted
    audit := t.audit }

theorem erase_ok {citizen : ℕ} {caller : Caller} {slugs : List Value} {listed collected : List ℕ}
    (h : erase citizen caller slugs listed collected s = .ok (u, t)) :
    Erased listed collected s t := by
  have h := removeRows_bind.mp h
  have h := removeRows_bind.mp h
  have h := rewriteRows_bind.mp h
  obtain ⟨_, _, ⟨⟩, h⟩ := bind_ok.mp h
  have h := writeAudit_bind.mp h
  by_cases hslugs : slugs = []
  · rw [if_pos hslugs] at h
    obtain ⟨-, rfl⟩ := pure_ok.mp h
    refine ⟨⟨_, rfl, fun entry hentry => ?_⟩, rfl⟩
    obtain rfl := List.mem_singleton.mp hentry
    exact .inl rfl
  · rw [if_neg hslugs] at h
    obtain rfl := writeAudit_ok.mp h
    refine ⟨⟨_, List.append_assoc .., fun entry hentry => ?_⟩, rfl⟩
    rcases List.mem_append.mp hentry with hrequested | hcompleted
    · obtain rfl := List.mem_singleton.mp hrequested
      exact .inl rfl
    · obtain rfl := List.mem_singleton.mp hcompleted
      exact .inr rfl

/-! ## Policies and data agreements -/

section Configuration

variable {F : Type} {M : Model F} {row loaded : Columns F} {action : AuditAction} {actor : Option ℕ}
  {data : List (F × Value)} {rows : List (Columns F)} {noted : List (ℕ × (F → Option Value))}

/-- A write that leaves these rows, with the revision and the entry for `row`, after which `noted`
is on record. -/
structure Configured (M : Model F) (row : Columns F) (action : AuditAction) (actor : Option ℕ)
    (rows : List (Columns F)) (noted : List (ℕ × (F → Option Value))) (s t : Store) : Prop where
  rows : (M.table.get t.config).rows = rows
  config : t.config = M.writes.set (M.writes.get s.config ++ noted)
    (M.table.set (M.table.get t.config) s.config)
  frame : t = { s with
    config := t.config
    revisions := t.revisions
    audit := s.audit ++ [M.entry action actor row s.revisions.next] }
  revisions : Extended s.revisions
    [.of s.now M.schemaName row.pk (M.snapshot row) none (authorOf actor)] t.revisions

theorem Configured.writes (h : Configured M row action actor rows noted s t) :
    M.writes.get t.config = M.writes.get s.config ++ noted := by
  rw [h.config, M.writes.get_set]

theorem Configured.intro {T : Numbered M.schema} {V : Numbered ConsentRevision.schema}
    (hrows : T.rows = rows) (ht : t = { s with
      config := M.writes.set (M.writes.get s.config ++ noted) (M.table.set T s.config)
      revisions := V
      audit := s.audit ++ [M.entry action actor row s.revisions.next] })
    (hrevisions : Extended s.revisions
      [.of s.now M.schemaName row.pk (M.snapshot row) none (authorOf actor)] V) :
    Configured M row action actor rows noted s t := by
  subst ht
  have hT : M.table.get (M.writes.set (M.writes.get s.config ++ noted) (M.table.set T s.config)) =
      T := by rw [M.table_writes, M.table.get_set]
  exact ⟨by rw [hT, hrows], by rw [hT], rfl, hrevisions⟩

theorem Model.record_ok (h : M.record action row actor s = .ok (u, t)) :
    ∃ V, t = { s with
      revisions := V
      audit := s.audit ++ [M.entry action actor row s.revisions.next] } ∧
    Extended s.revisions
      [.of s.now M.schemaName row.pk (M.snapshot row) none (authorOf actor)] V := by
  obtain ⟨rev, _, hrev, h⟩ := bind_ok.mp h
  obtain ⟨hpk, V, rfl, hV⟩ := createFor_extended hrev
  obtain rfl := writeAudit_ok.mp h
  exact ⟨V, by rw [hpk], hV⟩

theorem Model.table_set {T : Numbered M.schema} {l : List (ℕ × (F → Option Value))} {c : Config} :
    M.table.get (M.writes.set l (M.table.set T c)) = T := by
  rw [M.table_writes, M.table.get_set]

/-- The rows once an instance is saved. -/
def replaced (row : Columns F) (rows : List (Columns F)) : List (Columns F) :=
  rows.map fun a => if a.pk = row.pk then row else a

theorem replaced_replaced {f : Columns F → Columns F} {row : Columns F} {l : List (Columns F)}
    (hf : ∀ a, (f a).pk = a.pk) :
    replaced row (l.map fun a => if a.pk = row.pk then f a else a) = replaced row l := by
  unfold replaced
  rw [List.map_map]
  refine List.map_congr_left fun a _ => ?_
  by_cases ha : a.pk = row.pk
  · simp [ha, hf]
  · simp [ha]

/-- Writes on top of earlier ones. -/
theorem Model.set_set {T T' : Numbered M.schema} {l l' : List (ℕ × (F → Option Value))}
    {c : Config} : M.writes.set l' (M.table.set T' (M.writes.set l (M.table.set T c))) =
      M.writes.set l' (M.table.set T' c) := by
  rw [M.set_comm, M.table.set_set, M.writes.set_set]

variable [DecidableEq F]

theorem Model.create_ok (h : M.create data actor s = .ok (u, t)) :
    ∃ row, row = Columns.assign data ⟨(M.table.get s.config).next, M.default⟩ ∧
      (M.table.get t.config).next = (M.table.get s.config).next + 1 ∧
      Configured M row M.created actor ((M.table.get s.config).rows ++ [row])
        [(row.pk, fun f => some (row.value f))] s t := by
  obtain ⟨row, _, happend, h⟩ := bind_ok.mp h
  obtain ⟨rfl, T, hT, rfl⟩ := append_ok.mp happend
  obtain ⟨hrows, hnext, -⟩ := Numbered.insert_ok hT (M.pk_eq _)
  obtain ⟨_, v, hrecord, h⟩ := bind_ok.mp h
  obtain ⟨V, rfl, hV⟩ := Model.record_ok hrecord
  obtain ⟨-, rfl⟩ := h
  refine ⟨_, rfl, ?_, .intro hrows ?_ hV⟩
  · change (M.table.get (M.writes.set _ (M.table.set T s.config))).next = _
    rw [M.table_writes, M.table.get_set]
    exact hnext
  · rw [← M.writes_table T s.config]
    rfl

theorem Model.update_ok (h : M.update loaded data actor s = .ok (u, t)) :
    (M.table.get t.config).next = (M.table.get s.config).next ∧
    Configured M (loaded.assign data) M.updated actor
      (replaced (loaded.assign data) (M.table.get s.config).rows)
      [(loaded.pk, fun f => data.lookup f)] s t := by
  obtain ⟨T, hT, h⟩ := updateRow_bind.mp h
  obtain ⟨hrows, hnext⟩ := Numbered.update_rows hT fun _ _ => M.pk_eq _
  simp only [M.pk_eq] at hrows
  obtain ⟨_, v, hrecord, h⟩ := bind_ok.mp h
  obtain ⟨V, rfl, hV⟩ := Model.record_ok hrecord
  obtain ⟨-, rfl⟩ := h
  refine ⟨(congrArg Numbered.next M.table_set).trans hnext, .intro (T := T) hrows ?_ hV⟩
  rw [← M.writes_table T s.config]
  rfl

/-- The columns that a request puts on record, write by write. -/
def Edit.writes (M : Model F) (k : ℕ) : Edit F → List (ℕ × (F → Option Value))
  | put data => [(k, fun f => data.lookup f)]
  | delete => [(k, fun f => [(M.isActive, Value.bool false)].lookup f), (k, fun _ => none)]

theorem Model.save_ok {edit : Edit F} (h : M.save loaded actor edit s = .ok (u, t)) :
    (M.table.get t.config).next = (M.table.get s.config).next ∧
    Configured M (loaded.assign (edit.named M)) M.updated actor
      (replaced (loaded.assign (edit.named M)) (M.table.get s.config).rows)
      (edit.writes M loaded.pk) s t := by
  cases edit with
  | put data => exact Model.update_ok h
  | delete =>
    obtain ⟨T, hT, h⟩ := updateRow_bind.mp h
    obtain ⟨hrows, hnext⟩ := Numbered.update_rows hT fun a hk => by
      rw [M.pk_eq] at hk ⊢
      exact hk
    simp only [M.pk_eq] at hrows
    obtain ⟨_, v, hnote, h⟩ := bind_ok.mp h
    obtain ⟨-, rfl⟩ := hnote
    obtain ⟨hnext', hupdate⟩ := Model.update_ok h
    have htable : ∀ l, M.table.get (M.writes.set l (M.table.set T s.config)) = T :=
      fun l => M.table_set
    refine ⟨hnext'.trans ((congrArg Numbered.next (htable _)).trans hnext), ⟨?_, ?_, ?_, ?_⟩⟩
    · refine hupdate.rows.trans ?_
      change replaced _ (M.table.get (M.writes.set _ (M.table.set T s.config))).rows = _
      rw [htable, hrows]
      exact replaced_replaced fun _ => rfl
    · refine hupdate.config.trans ?_
      change M.writes.set (M.writes.get (M.writes.set _ (M.table.set T s.config)) ++ _)
        (M.table.set _ (M.writes.set _ (M.table.set T s.config))) = _
      rw [M.set_set, M.writes.get_set, List.append_assoc]
      change M.writes.set (M.writes.get (M.table.set T s.config) ++ _) _ = _
      rw [M.writes_table]
      rfl
    · exact hupdate.frame
    · exact hupdate.revisions

end Configuration

/-! ## Blocks -/

theorem next_cases {α : Type} {x : Tx α} {k : α → Worker} {q : Worker}
    (h : Worker.next x k s = some (t, q)) :
    (∃ a, x s = .ok (a, t) ∧ q = k a) ∨ (∃ e, t = s ∧ q = .raised e) := by
  unfold Worker.next commit at h
  cases hx : x s with
  | ok r =>
    simp only [hx, Option.some.injEq, Prod.mk.injEq] at h
    exact .inl ⟨r.1, by rw [← h.1], h.2.symm⟩
  | error e =>
    simp only [hx, Option.some.injEq, Prod.mk.injEq] at h
    exact .inr ⟨e, h.1.symm, h.2.symm⟩

theorem loadPolicy_ok {policy : ℕ} {edit : Edit PolicyField} {row : ConsentPolicy}
    (h : loadPolicy policy edit s = .ok (row, t)) :
    t = s ∧ row ∈ s.policies.rows ∧ row.pk = policy := by
  obtain ⟨a, hget, hrest⟩ := fetch_bind.mp h
  obtain ⟨ha, hpk⟩ := Numbered.get_eq_some.mp hget
  cases edit with
  | put data =>
    obtain ⟨rfl, rfl⟩ := pure_ok.mp hrest
    exact ⟨rfl, ha, hpk⟩
  | delete =>
    obtain ⟨_, _, ⟨⟩, hrest⟩ := bind_ok.mp hrest
    obtain ⟨-, hrest⟩ := guard_ok hrest
    obtain ⟨rfl, rfl⟩ := pure_ok.mp hrest
    exact ⟨rfl, ha, hpk⟩

/-- A grant that has found its category and its revision. -/
structure Opened (s : Store) (call : GrantCall) (g : Grant) (category : ConsentCategory) :
    Prop where
  active : s.activeCategory call.categorySlug = some category
  asked : g.toGrantCall = call
  found : g.category = category.pk
  bound : ∀ k, call.revision = some k → g.bound.map (·.1) = some k

theorem openGrant_ok {call : GrantCall} (h : openGrant call s = .ok (g, t)) :
    t = s ∧ ∃ category, Opened s call g category := by
  obtain ⟨category, hactive, h⟩ := ask_bind.mp h
  cases hrevision : call.revision with
  | none =>
    simp only [hrevision] at h
    obtain ⟨_, _, ⟨⟩, h⟩ := bind_ok.mp h
    obtain ⟨rfl, rfl⟩ := pure_ok.mp h
    exact ⟨rfl, category, hactive, rfl, rfl, fun k hk => by rw [hrevision] at hk; cases hk⟩
  | some k =>
    simp only [hrevision] at h
    obtain ⟨rev, hrev, h⟩ := ask_bind.mp h
    obtain ⟨rfl, rfl⟩ := pure_ok.mp h
    obtain ⟨hget, -⟩ := Option.filter_eq_some_iff.mp hrev
    refine ⟨rfl, category, hactive, rfl, rfl, fun n hn => ?_⟩
    rw [hrevision] at hn
    rw [← hn]
    exact congrArg some (Numbered.get_eq_some.mp hget).2

theorem openWithdrawal_ok {call : WithdrawCall} {category : ℕ}
    (h : openWithdrawal call s = .ok (category, t)) :
    t = s ∧ ∃ c, s.activeCategory call.categorySlug = some c ∧ c.isRequired = false ∧
      c.pk = category := by
  obtain ⟨c, hactive, h⟩ := ask_bind.mp h
  obtain ⟨hrequired, h⟩ := guard_ok h
  obtain ⟨rfl, rfl⟩ := pure_ok.mp h
  exact ⟨rfl, c, hactive, Bool.eq_false_iff.mpr hrequired, rfl⟩

namespace Worker

/-- Everything that a block can do. -/
inductive Does (s : Store) : Worker → Store → Worker → Prop where
  | refused (p : Worker) (e : ConsentError) : Does s p s (raised e)
  | opened {call : GrantCall} {g : Grant} {category : ConsentCategory}
      (hopened : Opened s call g category) :
      Does s (granting call) s (matching g ((s.records.rows.find? g.granted).map (·.pk)))
  | matched {g : Grant} {seen : Option ℕ} {r : ConsentRecord}
      (hlocked : locked seen g.granted s = some r) :
      Does s (matching g seen) s (returned (some r.pk))
  | unmatched (g : Grant) (seen : Option ℕ) :
      Does s (matching g seen) s (writing g ((s.current g.citizen g.category).map (·.pk)))
  | granted {g : Grant} {seen : Option ℕ} {t : Store} (hgranted : Granted g seen s t) :
      Does s (writing g seen) t (returned (some s.records.next))
  | lost (g : Grant) (seen : Option ℕ) : Does s (writing g seen) s (losing g)
  | reread (g : Grant) :
      Does s (losing g) s (winning g ((s.current g.citizen g.category).map (·.pk)))
  | won {g : Grant} {seen : Option ℕ} {r : ConsentRecord}
      (hlocked : locked seen (·.currentOf g.citizen g.category) s = some r) :
      Does s (winning g seen) s (returned (some r.pk))
  | revocable {call : WithdrawCall} {c : ConsentCategory}
      (hactive : s.activeCategory call.categorySlug = some c) (hrequired : c.isRequired = false) :
      Does s (withdrawing call) s
        (revoking call c.pk ((s.current call.citizen c.pk).map (·.pk)))
  | unrevoked (call : WithdrawCall) (category : ℕ) (seen : Option ℕ) (record : ℕ) :
      Does s (revoking call category seen) s (returned (some record))
  | revoked {call : WithdrawCall} {category : ℕ} {r : ConsentRecord} {t : Store} (record : ℕ)
      (hwithdrawn : Withdrawn call category r s t) :
      Does s (revoking call category (some r.pk)) t (returned (some record))
  | found {citizen category : ℕ} {r : ConsentRecord}
      (hcurrent : s.current citizen category = some r) :
      Does s (obtaining citizen category) s (returned (some r.pk))
  | missing {citizen category : ℕ} (hnone : s.current citizen category = none) :
      Does s (obtaining citizen category) s (creating citizen category)
  | created {citizen category : ℕ} {T : Numbered ConsentRecord.schema}
      (hfree : ∀ r ∈ s.records.rows, r.currentOf citizen category = false)
      (hrows : T.rows = s.records.rows ++ [{ pk := s.records.next, citizen, category }])
      (hnext : T.next = s.records.next + 1) :
      Does s (creating citizen category) { s with records := T } (returned (some s.records.next))
  | raced (citizen category : ℕ) :
      Does s (creating citizen category) s (reobtaining citizen category)
  | refound {citizen category : ℕ} {r : ConsentRecord}
      (hcurrent : s.current citizen category = some r) :
      Does s (reobtaining citizen category) s (returned (some r.pk))
  | attached {user : ℕ} {q : SignatureRequest} {caller : Caller} {r : ConsentRecord} {t : Store}
      (hattached : Attached user q caller r s t) :
      Does s (calling (.attachSignature user r.pk q caller)) t (returned none)
  | updated {user : ℕ} {data : List (SignatureField × Value)} {caller : Caller} {r : ConsentRecord}
      {sig : ConsentSignature} {t : Store} (hupdated : Updated user data caller r sig s t) :
      Does s (calling (.updateSignature user r.pk data caller)) t (returned none)
  | createdPolicy {data : List (PolicyField × Value)} {actor : Option ℕ} {row : ConsentPolicy}
      {t : Store} (hrow : row = Columns.assign data ⟨s.policies.next, ConsentPolicy.default⟩)
      (hnext : t.policies.next = s.policies.next + 1)
      (hconfigured : Configured policyModel row .policyCreated actor (s.policies.rows ++ [row])
        [(row.pk, fun f => some (row.value f))] s t) :
      Does s (calling (.createPolicy data actor)) t (returned none)
  | createdAgreement {data : List (CategoryField × Value)} {actor : Option ℕ}
      {row : ConsentCategory} {t : Store}
      (hrow : row = Columns.assign data ⟨s.categories.next, ConsentCategory.default⟩)
      (hnext : t.categories.next = s.categories.next + 1)
      (hconfigured : Configured categoryModel row .dataAgreementCreated actor
        (s.categories.rows ++ [row]) [(row.pk, fun f => some (row.value f))] s t) :
      Does s (calling (.createDataAgreement data actor)) t (returned none)
  | listed (citizen : ℕ) (caller : Caller) (slugs : List Value) :
      Does s (forgetting citizen caller) s
        (collecting citizen caller slugs ((s.forgettableRecords citizen).map (·.pk)))
  | collected (citizen : ℕ) (caller : Caller) (slugs : List Value) (listed : List ℕ) :
      Does s (collecting citizen caller slugs listed) s
        (erasing citizen caller slugs listed ((s.forgettableRecords citizen).map (·.pk)))
  | erased {citizen : ℕ} {caller : Caller} {slugs : List Value} {listed collected : List ℕ}
      {t : Store} (herased : Erased listed collected s t) :
      Does s (erasing citizen caller slugs listed collected) t (returned none)
  | loadedPolicy {policy : ConsentPolicy} (edit : Edit PolicyField) (actor : Option ℕ)
      (hget : policy ∈ s.policies.rows) :
      Does s (editingPolicy policy.pk edit actor) s (savingPolicy policy edit actor)
  | savedPolicy {loaded : ConsentPolicy} {edit : Edit PolicyField} {actor : Option ℕ} {t : Store}
      (hnext : t.policies.next = s.policies.next)
      (hconfigured : Configured policyModel (loaded.assign (edit.named policyModel)) .policyUpdated
        actor (replaced (loaded.assign (edit.named policyModel)) s.policies.rows)
        (edit.writes policyModel loaded.pk) s t) :
      Does s (savingPolicy loaded edit actor) t (returned none)
  | loadedAgreement {category : ConsentCategory} (edit : Edit CategoryField) (actor : Option ℕ)
      (hget : category ∈ s.categories.rows) :
      Does s (editingCategory category.pk edit actor) s (savingCategory category edit actor)
  | savedAgreement {loaded : ConsentCategory} {edit : Edit CategoryField} {actor : Option ℕ}
      {t : Store} (hnext : t.categories.next = s.categories.next)
      (hconfigured : Configured categoryModel (loaded.assign (edit.named categoryModel))
        .dataAgreementUpdated actor
        (replaced (loaded.assign (edit.named categoryModel)) s.categories.rows)
        (edit.writes categoryModel loaded.pk) s t) :
      Does s (savingCategory loaded edit actor) t (returned none)

end Worker

open Worker in
theorem act_does {p q : Worker} (h : p.act s = some (t, q)) : Does s p t q := by
  cases p with
  | granting call =>
    obtain ⟨g, hopen, rfl⟩ | ⟨e, rfl, rfl⟩ := next_cases h
    · obtain ⟨rfl, category, hopened⟩ := openGrant_ok hopen
      exact .opened hopened
    · exact .refused _ e
  | matching g seen =>
    simp only [Worker.act] at h
    split at h
    next r hlocked =>
      obtain ⟨rfl, rfl⟩ := Prod.mk.inj (Option.some.inj h)
      exact .matched hlocked
    next =>
      obtain ⟨rfl, rfl⟩ := Prod.mk.inj (Option.some.inj h)
      exact .unmatched g seen
  | writing g seen =>
    obtain ⟨res, hwrite, rfl⟩ | ⟨e, rfl, rfl⟩ := next_cases h
    · obtain ⟨rfl, rfl, -⟩ | ⟨rfl, hgranted⟩ := writeGrant_ok hwrite
      · exact .lost g seen
      · exact .granted hgranted
    · exact .refused _ e
  | losing g =>
    obtain ⟨rfl, rfl⟩ := Prod.mk.inj (Option.some.inj h)
    exact .reread g
  | winning g seen =>
    simp only [Worker.act] at h
    split at h
    next r hlocked =>
      obtain ⟨rfl, rfl⟩ := Prod.mk.inj (Option.some.inj h)
      exact .won hlocked
    next =>
      obtain ⟨rfl, rfl⟩ := Prod.mk.inj (Option.some.inj h)
      exact .refused _ _
  | withdrawing call =>
    obtain ⟨category, hopen, rfl⟩ | ⟨e, rfl, rfl⟩ := next_cases h
    · obtain ⟨rfl, c, hactive, hrequired, rfl⟩ := openWithdrawal_ok hopen
      exact .revocable hactive hrequired
    · exact .refused _ e
  | revoking call category seen =>
    obtain ⟨res, hwrite, rfl⟩ | ⟨e, rfl, rfl⟩ := next_cases h
    · obtain rfl | ⟨r, rfl, hwithdrawn⟩ := writeWithdrawal_ok hwrite
      · exact .unrevoked call category seen res
      · exact .revoked res hwithdrawn
    · exact .refused _ e
  | obtaining citizen category =>
    simp only [Worker.act] at h
    split at h
    next r hcurrent =>
      obtain ⟨rfl, rfl⟩ := Prod.mk.inj (Option.some.inj h)
      exact .found hcurrent
    next hnone =>
      obtain ⟨rfl, rfl⟩ := Prod.mk.inj (Option.some.inj h)
      exact .missing hnone
  | creating citizen category =>
    obtain ⟨created, hinsert, rfl⟩ | ⟨e, rfl, rfl⟩ := next_cases h
    · obtain ⟨rfl, rfl, -⟩ | ⟨rfl, hfree, T, rfl, hrows, hnext⟩ :=
        insertCurrent_ok hinsert (fun _ => rfl) (fun _ => rfl)
      · exact .raced citizen category
      · refine .created (fun r hr => ?_) hrows hnext
        rw [Bool.eq_false_iff]
        intro hcurrent
        obtain ⟨hcitizen, hcategory, hnow⟩ := currentOf_iff.mp hcurrent
        exact hfree r hr hnow hcitizen hcategory
    · exact .refused _ e
  | reobtaining citizen category =>
    simp only [Worker.act] at h
    split at h
    next r hcurrent =>
      obtain ⟨rfl, rfl⟩ := Prod.mk.inj (Option.some.inj h)
      exact .refound hcurrent
    next =>
      obtain ⟨rfl, rfl⟩ := Prod.mk.inj (Option.some.inj h)
      exact .refused _ _
  | calling op =>
    obtain ⟨_, hrun, rfl⟩ | ⟨e, rfl, rfl⟩ := next_cases h
    · cases op with
      | attachSignature user record q caller =>
        obtain ⟨r, rfl, hattached⟩ := attachSignature_ok hrun
        exact .attached hattached
      | updateSignature user record data caller =>
        obtain ⟨r, sig, rfl, hupdated⟩ := updateSignature_ok hrun
        exact .updated hupdated
      | createPolicy data actor =>
        obtain ⟨row, hrow, hnext, hconfigured⟩ := Model.create_ok hrun
        exact .createdPolicy hrow hnext hconfigured
      | createDataAgreement data actor =>
        obtain ⟨row, hrow, hnext, hconfigured⟩ := Model.create_ok hrun
        exact .createdAgreement hrow hnext hconfigured
    · exact .refused _ e
  | forgetting citizen caller =>
    obtain ⟨rfl, rfl⟩ := Prod.mk.inj (Option.some.inj h)
    exact .listed citizen caller _
  | collecting citizen caller slugs listed =>
    obtain ⟨rfl, rfl⟩ := Prod.mk.inj (Option.some.inj h)
    exact .collected citizen caller slugs listed
  | erasing citizen caller slugs listed collected =>
    obtain ⟨_, herase, rfl⟩ | ⟨e, rfl, rfl⟩ := next_cases h
    · exact .erased (erase_ok herase)
    · exact .refused _ e
  | editingPolicy policy edit actor =>
    obtain ⟨row, hload, rfl⟩ | ⟨e, rfl, rfl⟩ := next_cases h
    · obtain ⟨rfl, hrow, rfl⟩ := loadPolicy_ok hload
      exact .loadedPolicy edit actor hrow
    · exact .refused _ e
  | savingPolicy loaded edit actor =>
    obtain ⟨_, hsave, rfl⟩ | ⟨e, rfl, rfl⟩ := next_cases h
    · obtain ⟨hnext, hconfigured⟩ := Model.save_ok hsave
      exact .savedPolicy hnext hconfigured
    · exact .refused _ e
  | editingCategory category edit actor =>
    obtain ⟨row, hload, rfl⟩ | ⟨e, rfl, rfl⟩ := next_cases h
    · obtain ⟨hget, rfl⟩ := fetch_ok.mp hload
      obtain ⟨hrow, rfl⟩ := Numbered.get_eq_some.mp hget
      exact .loadedAgreement edit actor hrow
    · exact .refused _ e
  | savingCategory loaded edit actor =>
    obtain ⟨_, hsave, rfl⟩ | ⟨e, rfl, rfl⟩ := next_cases h
    · obtain ⟨hnext, hconfigured⟩ := Model.save_ok hsave
      exact .savedAgreement hnext hconfigured
    · exact .refused _ e
  | returned | raised | dead => cases h

/-! ## Records and configuration over blocks -/

/-- What a block does to the records. -/
inductive RecordStep (s t : Store) : Worker → Prop where
  | kept (p : Worker) (hrecords : t.records = s.records) : RecordStep s t p
  | granted {g : Grant} {seen : Option ℕ} (hgranted : Granted g seen s t) :
      RecordStep s t (.writing g seen)
  | created {citizen category : ℕ}
      (hfree : ∀ r ∈ s.records.rows, r.currentOf citizen category = false)
      (hrows : t.records.rows = s.records.rows ++ [{ pk := s.records.next, citizen, category }])
      (hnext : t.records.next = s.records.next + 1) : RecordStep s t (.creating citizen category)
  | revoked {call : WithdrawCall} {category : ℕ} {r : ConsentRecord}
      (hwithdrawn : Withdrawn call category r s t) :
      RecordStep s t (.revoking call category (some r.pk))
  | signed {user : ℕ} {q : SignatureRequest} {caller : Caller} {r : ConsentRecord}
      (hattached : Attached user q caller r s t) (hunsigned : r.state ≠ .signed)
      (hrecords : t.records = s.records.rewrite (·.pk = r.pk)
        (.withDecision fun _ => attaching caller r) (ConsentRecord.preserves _)) :
      RecordStep s t (.calling (.attachSignature user r.pk q caller))
  | erased {citizen : ℕ} {caller : Caller} {slugs : List Value} {listed collected : List ℕ}
      (herased : Erased listed collected s t) :
      RecordStep s t (.erasing citizen caller slugs listed collected)

theorem Worker.Does.recordStep {p q : Worker} (h : Worker.Does s p t q) : RecordStep s t p := by
  cases h with
  | granted hgranted => exact .granted hgranted
  | revoked record hwithdrawn => exact .revoked hwithdrawn
  | created hfree hrows hnext => exact .created hfree hrows hnext
  | attached hattached =>
    rcases hattached.rest with ⟨-, hframe⟩ | ⟨hunsigned, hframe, -⟩
    · have hrecords := congrArg Store.records hframe
      exact .kept _ hrecords
    · have hrecords := congrArg Store.records hframe
      exact .signed hattached hunsigned hrecords
  | updated hupdated =>
    have hrecords := congrArg Store.records hupdated.frame
    exact .kept _ hrecords
  | createdPolicy _ _ hconfigured | createdAgreement _ _ hconfigured | savedPolicy _ hconfigured
    | savedAgreement _ hconfigured =>
    have hrecords := congrArg Store.records hconfigured.frame
    exact .kept _ hrecords
  | erased herased => exact .erased herased
  | _ => exact .kept _ rfl

namespace ConsentRecord

/-- The same citizen and the same category -/
def Shares (a r : ConsentRecord) : Prop := a.citizen = r.citizen ∧ a.category = r.category

instance (a r : ConsentRecord) : Decidable (a.Shares r) := inferInstanceAs (Decidable (_ ∧ _))

end ConsentRecord

theorem RecordStep.next_le {p : Worker} (h : RecordStep s t p) :
    s.records.next ≤ t.records.next := by
  cases h with
  | kept _ hrecords => rw [hrecords]
  | granted hgranted => rw [hgranted.next]; omega
  | created _ _ hnext => rw [hnext]; omega
  | revoked hwithdrawn => rw [hwithdrawn.frame]; exact le_rfl
  | signed _ _ hrecords => rw [hrecords]; exact le_rfl
  | erased herased => rw [herased.frame]; exact le_rfl

/-- The records that have been there before are about what they have been about. -/
theorem RecordStep.origin {p : Worker} (h : RecordStep s t p) (hr : r ∈ t.records.rows)
    (hpk : r.pk < s.records.next) : ∃ a ∈ s.records.rows, a.pk = r.pk ∧ a.Shares r := by
  cases h with
  | kept _ hrecords => exact ⟨r, hrecords ▸ hr, rfl, rfl, rfl⟩
  | granted hgranted =>
    rw [hgranted.records] at hr
    rcases List.mem_append.mp hr with hr | hr
    · obtain ⟨a, ha, rfl⟩ := List.mem_map.mp hr
      exact ⟨a, ha, pk_archive.symm, citizen_archive.symm, category_archive.symm⟩
    · obtain rfl := List.mem_singleton.mp hr
      exact absurd hpk (Nat.lt_irrefl _)
  | created _ hrows _ =>
    rw [hrows] at hr
    rcases List.mem_append.mp hr with hr | hr
    · exact ⟨r, hr, rfl, rfl, rfl⟩
    · obtain rfl := List.mem_singleton.mp hr
      exact absurd hpk (Nat.lt_irrefl _)
  | revoked hwithdrawn =>
    rw [hwithdrawn.frame] at hr
    obtain ⟨a, ha, rfl⟩ := List.mem_map.mp hr
    refine ⟨a, ha, ?_⟩
    split <;> exact ⟨rfl, rfl, rfl⟩
  | signed _ _ hrecords =>
    rw [hrecords] at hr
    obtain ⟨a, ha, rfl⟩ := List.mem_map.mp hr
    refine ⟨a, ha, ?_⟩
    split <;> exact ⟨rfl, rfl, rfl⟩
  | erased herased =>
    rw [herased.frame] at hr
    exact ⟨r, (List.mem_filter.mp hr).1, rfl, rfl, rfl⟩

/-- What a block does to the configuration. -/
inductive ConfigStep (s t : Store) : Worker → Prop where
  | kept (p : Worker) (hconfig : t.config = s.config) : ConfigStep s t p
  | createdPolicy {data : List (PolicyField × Value)} {actor : Option ℕ} {row : ConsentPolicy}
      (hpk : row.pk = s.policies.next)
      (hconfigured : Configured policyModel row .policyCreated actor (s.policies.rows ++ [row])
        [(row.pk, fun f => some (row.value f))] s t) :
      ConfigStep s t (.calling (.createPolicy data actor))
  | createdAgreement {data : List (CategoryField × Value)} {actor : Option ℕ}
      {row : ConsentCategory} (hpk : row.pk = s.categories.next)
      (hconfigured : Configured categoryModel row .dataAgreementCreated actor
        (s.categories.rows ++ [row]) [(row.pk, fun f => some (row.value f))] s t) :
      ConfigStep s t (.calling (.createDataAgreement data actor))
  | savedPolicy {loaded : ConsentPolicy} {edit : Edit PolicyField} {actor : Option ℕ}
      (hconfigured : Configured policyModel (loaded.assign (edit.named policyModel)) .policyUpdated
        actor (replaced (loaded.assign (edit.named policyModel)) s.policies.rows)
        (edit.writes policyModel loaded.pk) s t) :
      ConfigStep s t (.savingPolicy loaded edit actor)
  | savedAgreement {loaded : ConsentCategory} {edit : Edit CategoryField} {actor : Option ℕ}
      (hconfigured : Configured categoryModel (loaded.assign (edit.named categoryModel))
        .dataAgreementUpdated actor
        (replaced (loaded.assign (edit.named categoryModel)) s.categories.rows)
        (edit.writes categoryModel loaded.pk) s t) :
      ConfigStep s t (.savingCategory loaded edit actor)

theorem Worker.Does.configStep {p q : Worker} (h : Worker.Does s p t q) : ConfigStep s t p := by
  cases h with
  | granted hgranted =>
    have hconfig := congrArg Store.config hgranted.frame
    exact .kept _ hconfig
  | revoked _ hwithdrawn =>
    have hconfig := congrArg Store.config hwithdrawn.frame
    exact .kept _ hconfig
  | attached hattached =>
    rcases hattached.rest with ⟨-, hframe⟩ | ⟨-, hframe, -⟩ <;>
      · have hconfig := congrArg Store.config hframe
        exact .kept _ hconfig
  | updated hupdated =>
    have hconfig := congrArg Store.config hupdated.frame
    exact .kept _ hconfig
  | createdPolicy hrow _ hconfigured => exact .createdPolicy (by rw [hrow]; rfl) hconfigured
  | createdAgreement hrow _ hconfigured => exact .createdAgreement (by rw [hrow]; rfl) hconfigured
  | savedPolicy _ hconfigured => exact .savedPolicy hconfigured
  | savedAgreement _ hconfigured => exact .savedAgreement hconfigured
  | erased herased =>
    have hconfig := congrArg Store.config herased.frame
    exact .kept _ hconfig
  | _ => exact .kept _ rfl

end Civicos.Consent
