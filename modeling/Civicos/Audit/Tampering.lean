import Civicos.Audit.ChainIntegrity

/-!
# Tampering

What the verification notices of a change that somebody makes to the stored rows: the hash is over
eight columns, and each entry is tied to the one before it.
-/
namespace Civicos.Audit

open Library

/-! ## What is hashed -/

structure Payload where
  eventType : String
  outcome : String
  actorId : Option String
  actorIp : Option String
  resourceType : String
  resourceId : String
  eventDetail : String
  prevHash : String
deriving DecidableEq, Repr

def Draft.payload (d : Draft) (prevHash : String) : Payload where
  eventType := d.eventType
  outcome := d.outcome
  actorId := d.actorId
  actorIp := d.actorIp
  resourceType := d.resourceType
  resourceId := d.resourceId
  eventDetail := dumps d.eventDetail
  prevHash

def AuditLogEntry.payload (e : AuditLogEntry) : Payload := e.toDraft.payload e.prevHash

variable {s t : Log} {e e' f : AuditLogEntry} {d d' : Draft} {prevHash prevHash' expected : String}
  {batchSize : ℕ} {first second rest : List AuditLogEntry}

theorem computeHash_congr (h : d.payload prevHash = d'.payload prevHash') :
    d.computeHash prevHash = d'.computeHash prevHash' := by
  simp only [Draft.payload, Payload.mk.injEq] at h
  obtain ⟨htype, houtcome, hactor, hip, hresource, hid, hdetail, hprev⟩ := h
  unfold Draft.computeHash
  rw [htype, houtcome, hactor, hip, hresource, hid, hdetail, hprev]

/-- No two payloads of these rows have the same hash. -/
def CollisionFree (rows : List AuditLogEntry) : Prop := ∀ e ∈ rows, ∀ e' ∈ rows,
  e.computeHash e.prevHash = e'.computeHash e'.prevHash → e.payload = e'.payload

instance (rows : List AuditLogEntry) : Decidable (CollisionFree rows) :=
  inferInstanceAs (Decidable (∀ e ∈ rows, ∀ e' ∈ rows, _))

/-! ## What can be done to the rows -/

/-- Other columns in one row, one row less, or two rows in each other's place; the hashes stay as
they are stored. -/
inductive Tampering where
  | change (i : ℕ) (content : Draft) (timestamp : Instant)
  | delete (i : ℕ)
  | swap (i j : ℕ)

namespace Tampering

def apply (s : Log) : Tampering → Log
  | change i content timestamp => s.modify i fun e => { e with toDraft := content, timestamp }
  | delete i => s.eraseIdx i
  | swap i j =>
    match s[i]?, s[j]? with
    | some e, some f => (s.set j { e with id := f.id }).set i { f with id := e.id }
    | _, _ => s

/-- Something changes, and what is deleted is not the last entry. -/
def Proper (s : Log) : Tampering → Prop
  | change i content timestamp => ∃ e ∈ s[i]?, (content, timestamp) ≠ (e.toDraft, e.timestamp)
  | delete i => i + 1 < s.length
  | swap i j => i < j ∧ j < s.length

/-- Whether a change is one of a column that is hashed -/
def Hashed (s : Log) : Tampering → Prop
  | change i content _ => ∃ e ∈ s[i]?, content.payload e.prevHash ≠ e.payload
  | delete _ => True
  | swap _ _ => True

end Tampering

/-! ## What the verification reports -/

namespace ChainVerificationResult

variable {r : ChainVerificationResult}

/-- The result is in order exactly when nothing is listed. -/
def Consistent (r : ChainVerificationResult) : Prop := r.ok = true ↔ r.violations = []

theorem Consistent.addViolation (r : ChainVerificationResult) (entryId : ℕ) (reason : String) :
    (r.addViolation entryId reason).Consistent := by
  simp [Consistent, ChainVerificationResult.addViolation]

theorem Consistent.check (h : r.Consistent) : (r.check expected e).Consistent := by
  unfold ChainVerificationResult.check
  dsimp only
  split
  · split
    · exact .addViolation _ _ _
    · exact .addViolation _ _ _
  · split
    · exact .addViolation _ _ _
    · exact h

theorem Consistent.checkAll (h : r.Consistent) : (r.checkAll expected rest).1.Consistent := by
  induction rest generalizing r expected with
  | nil => exact h
  | cons e rest ih => exact ih h.check

theorem Consistent.batches {fuel : ℕ} (h : r.Consistent) :
    (batches batchSize fuel r expected rest).Consistent := by
  induction fuel generalizing r expected rest with
  | zero => exact h
  | succ fuel ih =>
    rw [ChainVerificationResult.batches]
    split
    next => exact h
    next => exact ih h.checkAll

end ChainVerificationResult

theorem violations_eq_nil (hsize : 0 < batchSize) :
    (verifyChain s none none batchSize).violations = [] ↔ Intact "" s := by
  have hstart : ({} : ChainVerificationResult).Consistent := iff_of_true rfl rfl
  have hok : (verifyChain s none none batchSize).ok = true ↔
      (verifyChain s none none batchSize).violations = [] := hstart.batches
  rw [← verifyChain_clean hsize, ChainVerificationResult.Clean, hok, and_self]

/-! ## Whole chains -/

namespace Intact

theorem link (h : Intact expected (first ++ e :: rest)) :
    e.prevHash = tip (·.entryHash) expected first :=
  (Intact.cons.mp (Intact.append.mp h).2).1.1

/-- Another row with the same links -/
theorem replace (h : Intact expected (first ++ e :: rest)) (hprev : e'.prevHash = e.prevHash)
    (hhash : e'.entryHash = e.entryHash) : Intact expected (first ++ e' :: rest) ↔ e'.Genuine := by
  obtain ⟨hfirst, hrow⟩ := Intact.append.mp h
  obtain ⟨⟨hlink, -⟩, hrest⟩ := Intact.cons.mp hrow
  rw [Intact.append, Intact.cons, hprev, hhash]
  simp [hfirst, hlink, hrest]

theorem split (h : Intact expected s) {i : ℕ} (hi : i < s.length) :
    Intact expected (s.take i ++ s[i] :: s.drop (i + 1)) := by
  rw [← List.drop_eq_getElem_cons hi, List.take_append_drop]
  exact h

/-- In a whole chain no two entries name the same one. -/
theorem nodup_prevHash (h : Intact "" s) (hfree : CollisionFree s) :
    (s.map (·.prevHash)).Nodup := by
  apply Chained.nodup_parent _ _ h.chained
  · intro e he e' he' hsame
    rw [h.genuine e he, h.genuine e' he'] at hsame
    exact congrArg Payload.prevHash (hfree e he e' he' hsame)
  · intro e he
    rw [h.genuine e he]
    exact sha256_ne_empty _

/-- An entry does not fit in the place of an earlier one. -/
theorem not_displaced (h : Intact "" s) (hnodup : (s.map (·.prevHash)).Nodup) {i j : ℕ}
    (hij : i < j) (hj : j < s.length) (hprev : f.prevHash = s[j].prevHash) :
    ¬ Intact "" (s.take i ++ f :: rest) := by
  intro htampered
  have hi : i < s.length := hij.trans hj
  have hsame : s[i].prevHash = s[j].prevHash := by
    rw [(h.split hi).link, ← hprev, htampered.link]
  have hi' : i < (s.map (·.prevHash)).length := by simpa
  have hj' : j < (s.map (·.prevHash)).length := by simpa
  have hget : (s.map (·.prevHash))[i] = (s.map (·.prevHash))[j] := by simpa using hsame
  exact hij.ne (hnodup.getElem_inj_iff.mp hget)

end Intact

/-! ## Tampering with a whole chain -/

/-- The verification reports a violation exactly when a column that is hashed has changed, an entry
has gone that is not the last, or two have changed places. -/
theorem tampering_reported_iff (hsize : 0 < batchSize)
    (hclean : (verifyChain s none none batchSize).violations = []) (x : Tampering)
    (hproper : x.Proper s) (hfree : CollisionFree (s ++ x.apply s)) :
    (verifyChain (x.apply s) none none batchSize).violations ≠ [] ↔ x.Hashed s := by
  rw [violations_eq_nil hsize] at hclean
  rw [ne_eq, violations_eq_nil hsize]
  have hnodup := hclean.nodup_prevHash fun e he e' he' =>
    hfree e (List.mem_append_left _ he) e' (List.mem_append_left _ he')
  cases x with
  | change i content timestamp =>
    obtain ⟨e, he, -⟩ := hproper
    obtain ⟨hi, rfl⟩ := List.getElem?_eq_some_iff.mp he
    have hrows : (Tampering.change i content timestamp).apply s =
        s.take i ++ { s[i] with toDraft := content, timestamp } :: s.drop (i + 1) :=
      List.modify_eq_take_cons_drop hi
    have hgenuine : Intact "" ((Tampering.change i content timestamp).apply s) ↔
        AuditLogEntry.Genuine { s[i] with toDraft := content, timestamp } := by
      rw [hrows]
      exact (hclean.split hi).replace rfl rfl
    have hstored : s[i].entryHash = s[i].computeHash s[i].prevHash :=
      hclean.genuine _ (List.getElem_mem hi)
    rw [hgenuine]
    constructor
    · intro hnot
      refine ⟨s[i], he, fun hsame => hnot (hstored.trans ?_)⟩
      exact computeHash_congr hsame.symm
    · rintro ⟨e, he', hne⟩ hgen
      obtain rfl := Option.some.inj (he.symm.trans he')
      have hfresh : { s[i] with toDraft := content, timestamp } ∈
          s ++ (Tampering.change i content timestamp).apply s := by
        rw [hrows]
        simp
      exact hne (hfree _ hfresh _ (List.mem_append_left _ (List.getElem_mem hi))
        (hgen.symm.trans hstored))
  | delete i =>
    refine iff_of_true ?_ trivial
    have hi : i + 1 < s.length := hproper
    have hrows : (Tampering.delete i).apply s =
        s.take i ++ s[i + 1] :: s.drop (i + 1 + 1) := by
      rw [← List.drop_eq_getElem_cons hi]
      exact List.eraseIdx_eq_take_drop_succ s i
    rw [hrows]
    exact hclean.not_displaced hnodup (Nat.lt_succ_self i) hi rfl
  | swap i j =>
    refine iff_of_true ?_ trivial
    obtain ⟨hij, hj⟩ := hproper
    have hi : i < s.length := hij.trans hj
    have hrows : (Tampering.swap i j).apply s = s.take i ++ { s[j] with id := s[i].id } ::
        (s.set j { s[i] with id := s[j].id }).drop (i + 1) := by
      unfold Tampering.apply
      simp only [List.getElem?_eq_getElem hi, List.getElem?_eq_getElem hj]
      rw [List.set_eq_take_append_cons_drop, if_pos (by simpa), List.take_set_of_le hij.le]
    rw [hrows]
    exact hclean.not_displaced hnodup hij hj rfl

section Example

private def viewedBy (actor : String) : Draft where
  eventType := "data.viewed"
  actorId := some actor
  actorEmail := "ana@example.org"

/-- A log of one entry -/
private def viewedOnce : Log := [{
  toDraft := viewedBy "7"
  id := 1
  timestamp := 100
  prevHash := ""
  entryHash := (viewedBy "7").computeHash "" }]

private theorem viewedOnce_whole : (verifyChain viewedOnce none none 500).violations = [] :=
  (violations_eq_nil (by decide)).mpr ⟨⟨rfl, trivial⟩, by simp [viewedOnce, AuditLogEntry.Genuine]⟩

theorem actor_change_reported : (verifyChain ((Tampering.change 0 (viewedBy "8") 100).apply
    viewedOnce) none none 500).violations ≠ [] := by
  have hproper : (Tampering.change 0 (viewedBy "8") 100).Proper viewedOnce :=
    ⟨_, rfl, by decide⟩
  have hdiffer : (viewedBy "7").computeHash "" ≠ (viewedBy "8").computeHash "" := by
    decide +kernel
  have hrows : ∀ e ∈ viewedOnce ++ (Tampering.change 0 (viewedBy "8") 100).apply viewedOnce,
      e.prevHash = "" ∧ (e.toDraft = viewedBy "7" ∨ e.toDraft = viewedBy "8") := by decide
  have hfree : CollisionFree (viewedOnce ++ (Tampering.change 0 (viewedBy "8") 100).apply
      viewedOnce) := by
    intro e he e' he' hsame
    obtain ⟨hprev, hdraft⟩ := hrows e he
    obtain ⟨hprev', hdraft'⟩ := hrows e' he'
    unfold AuditLogEntry.payload
    rw [hprev, hprev'] at hsame ⊢
    rcases hdraft with hdraft | hdraft <;> rcases hdraft' with hdraft' | hdraft' <;>
      rw [hdraft, hdraft'] at hsame ⊢
    · exact absurd hsame hdiffer
    · exact absurd hsame.symm hdiffer
  exact (tampering_reported_iff (by decide) viewedOnce_whole _ hproper hfree).mpr
    ⟨_, rfl, by decide⟩

/-- Another address of the actor, and another time -/
private def redated : Tampering :=
  .change 0 { viewedBy "7" with actorEmail := "bo@example.org" } 200

/-- The e-mail address and the time are not hashed. -/
theorem redated_unnoticed : (verifyChain viewedOnce none none 500).violations = [] ∧
    redated.Proper viewedOnce ∧ CollisionFree (viewedOnce ++ redated.apply viewedOnce) ∧
      (verifyChain (redated.apply viewedOnce) none none 500).violations = [] := by
  refine ⟨viewedOnce_whole, ⟨_, rfl, by decide⟩, ?_, ?_⟩
  · intro e he e' he' _
    have hall : ∀ e ∈ viewedOnce ++ redated.apply viewedOnce,
        e.payload = (viewedBy "7").payload "" := by decide
    rw [hall e he, hall e' he']
  · refine (violations_eq_nil (by decide)).mpr ⟨⟨rfl, trivial⟩, ?_⟩
    intro e he
    obtain rfl := List.mem_singleton.mp he
    exact computeHash_congr rfl

end Example

end Civicos.Audit
