import Civicos.Audit.Log

/-!
# The chain over all writers

The verification finds nothing as long as every writer finds the last entry and the database gives
back what has been hashed.
-/
namespace Civicos.Audit

open Library

variable {p : Platform} {s t : Log} {l : Step} {e : AuditLogEntry} {expected : String}
  {rows : List AuditLogEntry} {r : ChainVerificationResult} {batchSize fuel : ℕ}

/-! ## Verification -/

/-- Whether the hash of a row is that of its columns -/
def AuditLogEntry.Genuine (e : AuditLogEntry) : Prop := e.entryHash = e.computeHash e.prevHash

/-- Rows after an entry with the hash `expected` -/
structure Intact (expected : String) (rows : List AuditLogEntry) : Prop where
  chained : Chained (·.prevHash) (·.entryHash) expected rows
  genuine : ∀ e ∈ rows, e.Genuine

theorem Intact.nil : Intact expected [] := ⟨trivial, by simp⟩

theorem Intact.append {first second : List AuditLogEntry} :
    Intact expected (first ++ second) ↔
      Intact expected first ∧ Intact (tip (·.entryHash) expected first) second := by
  constructor
  · rintro ⟨hchained, hgenuine⟩
    obtain ⟨hfirst, hsecond⟩ := Chained.append.mp hchained
    exact ⟨⟨hfirst, fun e he => hgenuine e (List.mem_append_left _ he)⟩,
      hsecond, fun e he => hgenuine e (List.mem_append_right _ he)⟩
  · rintro ⟨⟨hfirst, hgfirst⟩, hsecond, hgsecond⟩
    refine ⟨Chained.append.mpr ⟨hfirst, hsecond⟩, fun e he => ?_⟩
    exact (List.mem_append.mp he).elim (hgfirst e) (hgsecond e)

theorem Intact.cons : Intact expected (e :: rows) ↔
    (e.prevHash = expected ∧ e.Genuine) ∧ Intact e.entryHash rows := by
  constructor
  · rintro ⟨⟨hprev, hchained⟩, hgenuine⟩
    obtain ⟨hhash, hrest⟩ := List.forall_mem_cons.mp hgenuine
    exact ⟨⟨hprev, hhash⟩, hchained, hrest⟩
  · rintro ⟨⟨hprev, hhash⟩, hchained, hrest⟩
    exact ⟨⟨hprev, hchained⟩, List.forall_mem_cons.mpr ⟨hhash, hrest⟩⟩

namespace ChainVerificationResult

/-- A result without violations -/
def Clean (r : ChainVerificationResult) : Prop := r.ok = true ∧ r.violations = []

theorem check_counts : (r.check expected e).entriesChecked = r.entriesChecked + 1 := by
  unfold check addViolation
  dsimp only
  split <;> split <;> rfl

theorem check_clean : (r.check expected e).Clean ↔
    r.Clean ∧ e.prevHash = expected ∧ e.Genuine := by
  unfold check addViolation AuditLogEntry.Genuine Clean
  dsimp only
  by_cases hhash : e.entryHash = e.computeHash e.prevHash
  · by_cases hprev : e.prevHash = expected <;> simp [hhash, hprev]
  · by_cases hprev : e.prevHash = expected <;> simp [hhash]

theorem checkAll_spec (r : ChainVerificationResult) (expected : String)
    (rows : List AuditLogEntry) : (r.checkAll expected rows).2 = tip (·.entryHash) expected rows ∧
    (r.checkAll expected rows).1.entriesChecked = r.entriesChecked + rows.length ∧
      ((r.checkAll expected rows).1.Clean ↔ r.Clean ∧ Intact expected rows) := by
  induction rows generalizing r expected with
  | nil => exact ⟨rfl, rfl, (and_iff_left .nil).symm⟩
  | cons e rows ih =>
    obtain ⟨hexpected, hcount, hclean⟩ := ih (r.check expected e) e.entryHash
    refine ⟨hexpected, ?_, ?_⟩
    · rw [checkAll, hcount, check_counts, List.length_cons]
      omega
    · rw [checkAll, hclean, check_clean, Intact.cons]
      exact and_assoc

theorem checkAll_append {first second : List AuditLogEntry} :
    r.checkAll expected (first ++ second) =
    (r.checkAll expected first).1.checkAll (r.checkAll expected first).2 second := by
  induction first generalizing r expected with
  | nil => rfl
  | cons e first ih => exact ih

/-- Every batch is a part of the rows, and a shorter rest follows it: together they are one pass. -/
theorem batches_eq (hsize : 0 < batchSize) (hfuel : rows.length < fuel) :
    batches batchSize fuel r expected rows = (r.checkAll expected rows).1 := by
  induction fuel generalizing r expected rows with
  | zero => omega
  | succ fuel ih =>
    rw [batches]
    split
    next hnil =>
      have hempty : rows = [] := by
        cases rows with
        | nil => rfl
        | cons e rows => simp [Nat.ne_of_gt hsize] at hnil
      subst hempty
      rfl
    next hsome =>
      have hlength := congrArg List.length (List.take_append_drop batchSize rows)
      rw [List.length_append] at hlength
      have hpositive : 0 < (rows.take batchSize).length := List.length_pos_iff.mpr hsome
      dsimp only
      rw [ih (by omega), ← checkAll_append, List.take_append_drop]

theorem batches_spec (hsize : 0 < batchSize) (hfuel : rows.length < fuel) :
    (batches batchSize fuel r expected rows).entriesChecked = r.entriesChecked + rows.length ∧
      ((batches batchSize fuel r expected rows).Clean ↔ r.Clean ∧ Intact expected rows) := by
  rw [batches_eq hsize hfuel]
  exact (r.checkAll_spec expected rows).2

end ChainVerificationResult

theorem verifyChain_eq : verifyChain s none none batchSize =
    ChainVerificationResult.batches batchSize (s.length + 1) {} "" s := by
  unfold verifyChain
  have hall : (s.filter fun e =>
      Option.all (· ≤ e.id) none && Option.all (e.id ≤ ·) none) = s := by simp
  rw [hall]

/-- The verification finds no violation exactly in a whole chain. -/
theorem verifyChain_clean (hsize : 0 < batchSize) :
    (verifyChain s none none batchSize).Clean ↔ Intact "" s := by
  rw [verifyChain_eq, (ChainVerificationResult.batches_spec hsize (Nat.lt_succ_self _)).2]
  exact and_iff_right ⟨rfl, rfl⟩

theorem verifyChain_counts (hsize : 0 < batchSize) :
    (verifyChain s none none batchSize).entriesChecked = s.length := by
  rw [verifyChain_eq, (ChainVerificationResult.batches_spec hsize (Nat.lt_succ_self _)).1]
  exact Nat.zero_add _

/-! ## Writers -/

theorem find?_id (hids : s.Pairwise (·.id < ·.id)) (he : e ∈ s) :
    s.find? (·.id = e.id) = some e := by
  induction s with
  | nil => cases he
  | cons a s ih =>
    obtain ⟨ha, hs⟩ := List.pairwise_cons.mp hids
    rcases List.mem_cons.mp he with rfl | he
    · simp
    · have hlt := ha e he
      rw [List.find?_cons_of_neg (by simpa using hlt.ne), ih hs he]

/-- The hash of the last entry is what the next one has to name. -/
theorem hashOf_last (hids : s.Pairwise (·.id < ·.id)) :
    hashOf s (s.getLast?.map (·.id)) = tip (·.entryHash) "" s := by
  rw [tip_eq, hashOf]
  cases hlast : s.getLast? with
  | none => rfl
  | some e =>
    have he := List.mem_of_getLast? hlast
    simp [find?_id hids he]

theorem lt_nextId (hids : s.Pairwise (·.id < ·.id)) (he : e ∈ s) : e.id < nextId s := by
  unfold nextId
  cases hlast : s.getLast? with
  | none =>
    rw [List.getLast?_eq_none_iff] at hlast
    subst hlast
    cases he
  | some a =>
    obtain ⟨m, rfl⟩ := List.getLast?_eq_some_iff.mp hlast
    rw [Option.map_some, Option.getD_some]
    rcases List.mem_append.mp he with hm | ha
    · have hlt := (List.pairwise_append.mp hids).2.2 e hm a (by simp)
      omega
    · obtain rfl := List.mem_singleton.mp ha
      exact Nat.lt_succ_self _

/-- The condition: a writer finds the last entry, or none on an empty table, and the database gives
back the address and the text of the details as they have been hashed. -/
def Continues (p : Platform) (s : Log) (l : Step) : Prop :=
  l.fails = true ∨ l.found = s.getLast?.map (·.id) ∧
    p.storedIp (l.draft p).actorIp = (l.draft p).actorIp ∧
      dumps (p.storedDetail (l.draft p).eventDetail) = dumps (l.draft p).eventDetail

instance : Decidable (Continues p s l) := inferInstanceAs (Decidable (_ ∨ _ ∧ _ ∧ _))

theorem entry_genuine (hip : p.storedIp (l.draft p).actorIp = (l.draft p).actorIp)
    (hdetail : dumps (p.storedDetail (l.draft p).eventDetail) = dumps (l.draft p).eventDetail) :
    (l.entry p s).Genuine := by
  simp only [AuditLogEntry.Genuine, Step.entry, Platform.save, Draft.computeHash]
  rw [hip, hdetail]

theorem step_intact (hids : s.Pairwise (·.id < ·.id)) (hs : Intact "" s)
    (hc : Continues p s l) (hstep : l.run p s = some t) :
    t.Pairwise (·.id < ·.id) ∧ Intact "" t := by
  unfold Step.run at hstep
  split at hstep
  next =>
    cases hstep
    exact ⟨hids, hs⟩
  next hlives =>
    split at hstep
    next =>
      cases hstep
      obtain ⟨hfound, hip, hdetail⟩ := hc.resolve_left hlives
      refine ⟨List.pairwise_append.mpr ⟨hids, List.pairwise_singleton _ _, ?_⟩, ?_⟩
      · intro e he a ha
        obtain rfl := List.mem_singleton.mp ha
        exact Nat.lt_add_right _ (lt_nextId hids he)
      · refine Intact.append.mpr ⟨hs, ⟨⟨?_, trivial⟩, ?_⟩⟩
        · change hashOf s l.found = _
          rw [hfound, hashOf_last hids]
        · intro e he
          obtain rfl := List.mem_singleton.mp he
          exact entry_genuine hip hdetail
    next => cases hstep

theorem intact_of_reachable (h : ((log p).under (Continues p)).Reachable s) :
    s.Pairwise (·.id < ·.id) ∧ Intact "" s := by
  refine h.invariant (I := fun s => s.Pairwise (·.id < ·.id) ∧ Intact "" s) ?_ ?_
  · rintro s rfl
    exact ⟨.nil, .nil⟩
  · rintro s l t - ⟨hids, hs⟩ hstep
    obtain ⟨hc, hstep⟩ := Machine.under_step.mp hstep
    exact step_intact hids hs hc hstep

/-- After any run of writers that continue the chain, the verification reports no violation. -/
theorem chain_verified (hsize : 0 < batchSize)
    (h : ((log p).under (Continues p)).Reachable s) :
    verifyChain s none none batchSize =
      { ok := true
        entriesChecked := s.length
        violations := [] } := by
  have hclean := (verifyChain_clean hsize).mpr (intact_of_reachable h).2
  have hcounts : (verifyChain s none none batchSize).entriesChecked = s.length :=
    verifyChain_counts hsize
  obtain ⟨hok, hnone⟩ := hclean
  rw [← hok, ← hcounts, ← hnone]

section Example

/-- A database that keeps everything but the empty address -/
private def plain : Platform where
  maskAddress := some
  storedAddress := id
  storedDetail := id

private def viewed : Step where
  writer := .recordEvent {
    eventType := "data.viewed"
    actorId := some "7"
    eventDetail := [("page", .int 3)] }
  timestamp := 100

/-- A view, and a request of the same user -/
private def twoViews : List Step := [viewed, {
  writer := .recordEventFromRequest {
      user := some ⟨"7", "ana@example.org"⟩
      auditContext := some ⟨some "7", "10.0.0.1", "curl", "r-1"⟩ }
    "data.viewed" "success" none "documents.Document" "12" none none []
  timestamp := 100
  found := some 1 }]

private def viewedTwice : Log := ((log plain).under (Continues plain)).final [] twoViews

theorem chain_verified_views : verifyChain viewedTwice none none 500 =
    { ok := true
      entriesChecked := 2
      violations := [] } := by
  have hreachable : ((log plain).under (Continues plain)).Reachable viewedTwice :=
    Machine.Reachable.final (M := (log plain).under (Continues plain)) rfl twoViews
  have hlength : viewedTwice.length = 2 := rfl
  rw [chain_verified (by decide) hreachable, hlength]

private def status : Step where
  writer := .portal 4 "workflow.submission.received" (some "7") []
  timestamp := 200

/-- A view, and the first status of a service request -/
private def viewAndStatus : Log := (log plain).final [] [viewed, status]

/-- The entry of the portal names no entry. -/
theorem portal_breaks : (log plain).Reachable viewAndStatus ∧
    ¬ (verifyChain viewAndStatus none none 500).Clean := by
  refine ⟨Machine.Reachable.final (M := log plain) rfl _, fun hclean => ?_⟩
  have hrows : viewAndStatus =
      [viewed.entry plain [], status.entry plain [viewed.entry plain []]] := rfl
  have hchained := ((verifyChain_clean (by decide)).mp hclean).chained
  rw [hrows] at hchained
  exact sha256_ne_empty _ hchained.2.1.symm

end Example

end Civicos.Audit
