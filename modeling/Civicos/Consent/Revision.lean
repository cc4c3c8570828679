import Civicos.Consent.Store

/-!
# Consent: the chain of revisions

`create_for` appends a revision to the chain of its object, and `redact_pii` takes the citizen out
of one.
-/
namespace Civicos.Consent

open Library Library.Transaction

def later (best : Option ConsentRevision) (r : ConsentRevision) : Option ConsentRevision :=
  if best.all (·.timestamp < r.timestamp) then some r else best

/-- `.order_by("-timestamp").first()` -/
def newest (revisions : List ConsentRevision) : Option ConsentRevision :=
  revisions.foldl later none

/-- The revisions of an object -/
def chainOf (schemaName : SchemaName) (objectId : ℕ) (rows : List ConsentRevision) :
    List ConsentRevision :=
  rows.filter (·.of schemaName objectId)

/-- The revision of an object that has no successor yet. -/
def latestOf (schemaName : SchemaName) (objectId : ℕ) (rows : List ConsentRevision) :
    Option ConsentRevision :=
  newest ((chainOf schemaName objectId rows).filter (·.successor.isNone))

namespace Store

def latestRevision (schemaName : SchemaName) (objectId : ℕ) (s : Store) : Option ConsentRevision :=
  latestOf schemaName objectId s.revisions.rows

/-- The revision that `create_for` makes of a snapshot. -/
def revisionFor (schemaName : SchemaName) (objectId : ℕ) (snapshot : List (String × Value))
    (authorizedBy : Option ℕ) (authorizedByOther : String) (s : Store) (pk : ℕ) :
    ConsentRevision :=
  let envelope : Snapshot := {
    objectData := snapshot
    schemaName
    objectId
    timestamp := s.now
    authorizedByIndividual := authorizedBy.map toString
    authorizedByOther }
  { pk
    schemaName
    objectId
    serializedSnapshot := envelope
    serializedHash := envelope.computeHash
    timestamp := s.now
    authorizedByIndividual := authorizedBy
    authorizedByOther
    predecessorHash := (s.latestRevision schemaName objectId).elim "" (·.serializedHash) }

end Store

namespace ConsentRevision

def withSuccessor (n : ℕ) (r : ConsentRevision) : ConsentRevision := { r with successor := some n }

/-- `redact_pii` -/
def redacted (r : ConsentRevision) : ConsentRevision :=
  let snapshot := r.serializedSnapshot
  { r with
    serializedSnapshot := { snapshot with
      authorizedByIndividual := snapshot.authorizedByIndividual.map fun _ => "[REDACTED]"
      objectData := snapshot.objectData.map fun f =>
        if f.1 = "individual" ∧ f.2 ≠ .null then (f.1, .str "[REDACTED]") else f }
    authorizedByIndividual := none }

theorem preserves_redacted : schema.Preserves redacted where
  pk _ := rfl
  key i hi r := by
    obtain rfl := List.mem_singleton.mp hi
    rfl
  valid _ _ c hc := by cases hc

end ConsentRevision

def createFor (schemaName : SchemaName) (objectId : ℕ) (snapshot : List (String × Value))
    (authorizedBy : Option ℕ) (authorizedByOther : String) : Tx ConsentRevision := do
  let s ← get
  let prev := s.latestRevision schemaName objectId
  let rev ← append Store.revisionTable .ofViolation
    (s.revisionFor schemaName objectId snapshot authorizedBy authorizedByOther)
  match prev with
  | none => return rev
  | some p =>
    updateRow Store.revisionTable .ofViolation p.pk (·.withSuccessor rev.pk)
    return rev

/-! ## What `create_for` does -/

section

variable {s t : Store} {schemaName : SchemaName} {objectId n : ℕ} {snapshot : List (String × Value)}
  {authorizedBy : Option ℕ} {authorizedByOther : String} {r rev prev : ConsentRevision}

/-- The rows with the successor of the last one. -/
def link (prev : Option ConsentRevision) (n : ℕ) (rows : List ConsentRevision) :
    List ConsentRevision :=
  rows.map fun r => if prev.any (·.pk = r.pk) then r.withSuccessor n else r

theorem link_none (rows : List ConsentRevision) : link none n rows = rows := by
  simp [link]

theorem newest_mem {rs : List ConsentRevision} (h : newest rs = some r) : r ∈ rs := by
  have hfold : ∀ (rs : List ConsentRevision) (best : Option ConsentRevision),
      rs.foldl later best = some r → best = some r ∨ r ∈ rs := fun rs => by
    induction rs with
    | nil => exact fun best h => .inl h
    | cons a rs ih =>
      intro best h
      rcases ih _ h with hstep | hr
      · unfold later at hstep
        split at hstep
        · exact .inr (List.mem_cons.mpr (.inl (Option.some.inj hstep).symm))
        · exact .inl hstep
      · exact .inr (List.mem_cons_of_mem a hr)
  exact (hfold rs none h).resolve_left (by simp)

theorem latestOf_mem {rows : List ConsentRevision}
    (h : latestOf schemaName objectId rows = some r) :
    r ∈ rows ∧ r.of schemaName objectId = true ∧ r.successor = none := by
  obtain ⟨hr, hopen⟩ := List.mem_filter.mp (newest_mem h)
  obtain ⟨hr, hof⟩ := List.mem_filter.mp hr
  exact ⟨hr, hof, Option.isNone_iff_eq_none.mp hopen⟩

theorem createFor_ok
    (h : createFor schemaName objectId snapshot authorizedBy authorizedByOther s = .ok (rev, t)) :
    rev = s.revisionFor schemaName objectId snapshot authorizedBy authorizedByOther
      s.revisions.next ∧ ∃ T, t = { s with revisions := T } ∧ T.next = s.revisions.next + 1 ∧
        T.rows = link (s.latestRevision schemaName objectId) rev.pk s.revisions.rows ++ [rev] := by
  unfold createFor at h
  obtain ⟨_, _, ⟨⟩, h⟩ := bind_ok.mp h
  obtain ⟨r, u, happend, h⟩ := bind_ok.mp h
  obtain ⟨rfl, T, hT, rfl⟩ := append_ok.mp happend
  obtain ⟨hrows, hnext, -⟩ := Numbered.insert_ok hT rfl
  simp only [Store.revisionTable] at hT hrows hnext h ⊢
  generalize hrev : s.revisionFor schemaName objectId snapshot authorizedBy authorizedByOther
    s.revisions.next = new at *
  have hnew : new.pk = s.revisions.next := hrev ▸ rfl
  cases hprev : s.latestRevision schemaName objectId with
  | none =>
    simp only [hprev] at h
    obtain ⟨rfl, rfl⟩ := pure_ok.mp h
    exact ⟨rfl, T, rfl, hnext, by rw [link_none, hrows]⟩
  | some p =>
    simp only [hprev] at h
    obtain ⟨T', hT', h⟩ := updateRow_bind.mp h
    obtain ⟨rfl, rfl⟩ := pure_ok.mp h
    obtain ⟨hp, -⟩ := latestOf_mem hprev
    have hget : T.get p.pk = some p :=
      Numbered.get_eq_some.mpr ⟨hrows ▸ List.mem_append_left _ hp, rfl⟩
    obtain ⟨hrows', hnext'⟩ := Numbered.update_ok hT' hget rfl
    refine ⟨rfl, T', rfl, hnext'.trans hnext, ?_⟩
    have hother : rev.pk ≠ p.pk := hnew ▸ Nat.ne_of_gt (s.revisions.used p hp)
    rw [hrows', hrows, List.map_append, List.map_singleton, link]
    congr 1
    · refine List.map_congr_left fun r hr => ?_
      by_cases hpk : r.pk = p.pk
      · obtain rfl := Table.eq_of_pk hr hp hpk
        simp [ConsentRevision.schema]
      · simp [ConsentRevision.schema, hpk, Ne.symm hpk]
    · simp [ConsentRevision.schema, hother]

/-- A revision has been put at the end of the chain of its object. -/
structure Created (S T : Numbered ConsentRevision.schema) (rev : ConsentRevision) : Prop where
  pk : rev.pk = S.next
  next : T.next = S.next + 1
  rows : T.rows = link (latestOf rev.schemaName rev.objectId S.rows) rev.pk S.rows ++ [rev]
  predecessorHash : rev.predecessorHash =
    (latestOf rev.schemaName rev.objectId S.rows).elim "" (·.serializedHash)
  successor : rev.successor = none
  hash : rev.serializedHash = rev.serializedSnapshot.computeHash

theorem createFor_created
    (h : createFor schemaName objectId snapshot authorizedBy authorizedByOther s = .ok (rev, t)) :
    rev = s.revisionFor schemaName objectId snapshot authorizedBy authorizedByOther
      s.revisions.next ∧ ∃ T, t = { s with revisions := T } ∧ Created s.revisions T rev := by
  obtain ⟨rfl, T, rfl, hnext, hrows⟩ := createFor_ok h
  exact ⟨rfl, T, rfl, rfl, hnext, hrows, rfl, rfl, rfl⟩

end

end Civicos.Consent
