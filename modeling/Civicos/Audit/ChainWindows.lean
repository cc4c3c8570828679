import Civicos.Audit.ChainIntegrity

/-!
# Windows of the chain

The walk expects an empty hash before the first row of every window, and so before a row that has
another one in front of it.
-/
namespace Civicos.Audit

open Library

variable {s rows first rest : Log} {e : AuditLogEntry} {expected : String} {v : Violation}
  {r : ChainVerificationResult} {batchSize fuel : ℕ} {startId endId : Option ℕ}

/-! ## One pass -/

/-- What is reported about one row -/
def faultsOf (expected : String) (e : AuditLogEntry) : List Violation :=
  (({} : ChainVerificationResult).check expected e).violations

/-- What one pass over the rows reports -/
def findings : String → Log → List Violation
  | _, [] => []
  | expected, e :: rows => faultsOf expected e ++ findings e.entryHash rows

theorem faultsOf_eq_nil : faultsOf expected e = [] ↔ e.prevHash = expected ∧ e.Genuine := by
  unfold faultsOf ChainVerificationResult.check ChainVerificationResult.addViolation
    AuditLogEntry.Genuine
  dsimp only
  by_cases hhash : e.entryHash = e.computeHash e.prevHash
  · by_cases hprev : e.prevHash = expected <;> simp [hhash, hprev]
  · by_cases hprev : e.prevHash = expected <;> simp [hhash]

theorem entryId_of_faultsOf (h : v ∈ faultsOf expected e) : v.entryId = e.id := by
  unfold faultsOf ChainVerificationResult.check ChainVerificationResult.addViolation at h
  dsimp only at h
  split at h <;> split at h <;> grind

theorem mem_findings : v ∈ findings expected rows ↔ ∃ first e rest,
    rows = first ++ e :: rest ∧ v ∈ faultsOf (tip (·.entryHash) expected first) e := by
  induction rows generalizing expected with
  | nil => simp [findings]
  | cons a rows ih =>
    rw [findings, List.mem_append, ih]
    constructor
    · rintro (hhead | ⟨first, e, rest, rfl, hv⟩)
      · exact ⟨[], a, rows, rfl, hhead⟩
      · exact ⟨a :: first, e, rest, rfl, hv⟩
    · rintro ⟨_ | ⟨b, first⟩, e, rest, heq, hv⟩
      · cases heq
        exact .inl hv
      · cases heq
        exact .inr ⟨first, e, rest, rfl, hv⟩

namespace ChainVerificationResult

theorem check_violations :
    (r.check expected e).violations = r.violations ++ faultsOf expected e := by
  unfold faultsOf check addViolation
  dsimp only
  split <;> split <;> simp

theorem checkAll_violations :
    (r.checkAll expected rows).1.violations = r.violations ++ findings expected rows := by
  induction rows generalizing r expected with
  | nil => simp [checkAll, findings]
  | cons e rows ih => rw [checkAll, ih, check_violations, findings, List.append_assoc]

end ChainVerificationResult

/-! ## The row before -/

/-- The rows that a verification is about -/
def window (s : Log) (startId endId : Option ℕ) : Log :=
  s.filter fun e => startId.all (· ≤ e.id) && endId.all (e.id ≤ ·)

/-- The hash that is stored in the row before a row, empty for the first row of all -/
def hashBefore (s : Log) (e : AuditLogEntry) : String :=
  tip (·.entryHash) "" (s.filter (·.id < e.id))

/-- The row has been tampered with, or does not name the row before it. -/
def Faulty (s : Log) (e : AuditLogEntry) : Prop := ¬ e.Genuine ∨ e.prevHash ≠ hashBefore s e

/-- The result is that of one pass over the rows, and reports just the faulty ones. -/
structure Localises (s rows : Log) (result : ChainVerificationResult) : Prop where
  once : ∃ expected, result = (({} : ChainVerificationResult).checkAll expected rows).1
  count : result.entriesChecked = rows.length
  reported : ∀ e ∈ rows, (∃ v ∈ result.violations, v.entryId = e.id) ↔ Faulty s e
  others : ∀ v ∈ result.violations, ∃ e ∈ rows, v.entryId = e.id

theorem filter_not_append_filter {α : Type} {q : α → Bool} {l : List α}
    (h : l.Pairwise fun a b => q a → q b) : (l.filter fun a => !q a) ++ l.filter q = l := by
  induction l with
  | nil => rfl
  | cons a l ih =>
    obtain ⟨ha, hl⟩ := List.pairwise_cons.mp h
    cases hq : q a with
    | false => simp [hq, ih hl]
    | true =>
      have hall : ∀ b ∈ l, q b = true := fun b hb => ha b hb hq
      have hnone : l.filter (fun b => !q b) = [] := by simpa using hall
      rw [List.filter_cons_of_neg (by simp [hq]), List.filter_cons_of_pos hq, hnone,
        List.filter_eq_self.mpr hall, List.nil_append]

theorem filter_lt (hids : rows.Pairwise (·.id < ·.id)) (hrows : rows = first ++ e :: rest) :
    rows.filter (·.id < e.id) = first := by
  rw [hrows] at hids ⊢
  obtain ⟨-, hlater, hcross⟩ := List.pairwise_append.mp hids
  obtain ⟨hrest, -⟩ := List.pairwise_cons.mp hlater
  rw [List.filter_append, List.filter_eq_self.mpr, List.filter_eq_nil_iff.mpr, List.append_nil]
  · intro a ha
    rcases List.mem_cons.mp ha with rfl | ha
    · simp
    · simpa using (hrest a ha).le
  · intro a ha
    simpa using hcross a ha e (.head _)

/-- In the order of the identifiers, what is before a row of a window is what is before the window,
and then the rows of the window that are in front of it. -/
theorem filter_before (hids : s.Pairwise (·.id < ·.id))
    (hrows : window s startId endId = first ++ e :: rest) :
    s.filter (·.id < e.id) = (s.filter fun a => !startId.all (· ≤ a.id)) ++ first := by
  have he : e ∈ window s startId endId := by simp [hrows]
  obtain ⟨hmem, hin⟩ := List.mem_filter.mp he
  obtain ⟨hstart, hend⟩ := Bool.and_eq_true_iff.mp hin
  have hsplit := filter_not_append_filter (q := fun a => startId.all (· ≤ a.id))
    (l := s.filter (·.id < e.id)) (by
      refine (hids.filter _).imp fun hlt => ?_
      cases startId with
      | none => simp
      | some i => simpa using fun hi => hi.trans hlt.le)
  have hbefore : (s.filter (·.id < e.id)).filter (fun a => !startId.all (· ≤ a.id)) =
      s.filter fun a => !startId.all (· ≤ a.id) := by
    rw [List.filter_filter]
    refine List.filter_congr fun a _ => ?_
    cases startId with
    | none => simp
    | some i =>
      simp only [Option.all_some, decide_eq_true_eq] at hstart
      by_cases hi : i ≤ a.id
      · simp [hi]
      · simpa [hi] using (Nat.lt_of_not_le hi).trans_le hstart
  have hinside : (s.filter (·.id < e.id)).filter (fun a => startId.all (· ≤ a.id)) =
      (window s startId endId).filter (·.id < e.id) := by
    unfold window
    rw [List.filter_filter, List.filter_filter]
    refine List.filter_congr fun a _ => ?_
    by_cases hlt : a.id < e.id
    · cases endId with
      | none => simp [hlt]
      | some i =>
        simp only [Option.all_some, decide_eq_true_eq] at hend
        simp [hlt, hlt.le.trans hend]
    · simp [hlt]
  have hwindow : (window s startId endId).Pairwise (·.id < ·.id) := hids.filter _
  rw [← hsplit, hbefore, hinside, filter_lt hwindow hrows]

theorem hashBefore_eq (hids : s.Pairwise (·.id < ·.id))
    (hrows : window s startId endId = first ++ e :: rest) : hashBefore s e =
      tip (·.entryHash)
        (tip (·.entryHash) "" (s.filter fun a => !startId.all (· ≤ a.id))) first := by
  unfold hashBefore
  rw [filter_before hids hrows, tip_append]

/-! ## What is reported -/

theorem verifyChain_pass (hsize : 0 < batchSize) : verifyChain s startId endId batchSize =
    (({} : ChainVerificationResult).checkAll "" (window s startId endId)).1 :=
  ChainVerificationResult.batches_eq hsize (Nat.lt_succ_self _)

theorem verifyChain_violations (hsize : 0 < batchSize) :
    (verifyChain s startId endId batchSize).violations = findings "" (window s startId endId) := by
  rw [verifyChain_pass hsize, ChainVerificationResult.checkAll_violations]
  rfl

/-- A row is reported exactly when it has been tampered with, or does not name the row before it in
the window. -/
theorem reported_iff (hids : s.Pairwise (·.id < ·.id)) (hsize : 0 < batchSize)
    (hrows : window s startId endId = first ++ e :: rest) :
    (∃ v ∈ (verifyChain s startId endId batchSize).violations, v.entryId = e.id) ↔
      ¬ (e.prevHash = tip (·.entryHash) "" first ∧ e.Genuine) := by
  rw [verifyChain_violations hsize, ← faultsOf_eq_nil]
  have hwindow : (window s startId endId).Pairwise (·.id < ·.id) := hids.filter _
  constructor
  · rintro ⟨v, hv, hid⟩ hnone
    obtain ⟨first', e', rest', hrows', hv⟩ := mem_findings.mp hv
    have hsame : first' = first := by
      rw [← filter_lt hwindow hrows, ← filter_lt hwindow hrows', ← hid, entryId_of_faultsOf hv]
    rw [hsame, hrows] at hrows'
    obtain ⟨rfl, -⟩ := List.cons_eq_cons.mp (List.append_cancel_left hrows')
    rw [hsame, hnone] at hv
    cases hv
  · intro hsome
    obtain ⟨v, hv⟩ := List.exists_mem_of_ne_nil _ hsome
    exact ⟨v, mem_findings.mpr ⟨first, e, rest, hrows, hv⟩, entryId_of_faultsOf hv⟩

theorem faulty_iff : Faulty s e ↔ ¬ (e.prevHash = hashBefore s e ∧ e.Genuine) := by
  unfold Faulty
  rw [not_and_or, or_comm]

/-- The condition: the first row of the window names no row exactly if there is none before it, as
long as its hash is that of its columns. -/
def StartsRight (s rows : Log) : Prop :=
  ∀ e ∈ rows.head?, e.Genuine → (e.prevHash = "" ↔ e.prevHash = hashBefore s e)

/-- The verification localises the faults exactly when the window starts where an empty hash is
expected. -/
theorem verifyChain_localises_iff (hids : s.Pairwise (·.id < ·.id)) (hsize : 0 < batchSize) :
    Localises s (window s startId endId) (verifyChain s startId endId batchSize) ↔
      StartsRight s (window s startId endId) := by
  constructor
  · intro hlocal e he hgenuine
    obtain ⟨rest, hrows⟩ : ∃ rest, window s startId endId = [] ++ e :: rest :=
      ⟨_, List.eq_cons_of_mem_head? he⟩
    have hiff := hlocal.reported e (List.mem_of_mem_head? he)
    rw [reported_iff hids hsize hrows, faulty_iff, not_iff_not] at hiff
    simpa [tip, hgenuine] using hiff
  · intro hstart
    refine ⟨⟨"", verifyChain_pass hsize⟩, ?_, fun e he => ?_, fun v hv => ?_⟩
    · rw [verifyChain_pass hsize, (ChainVerificationResult.checkAll_spec ..).2.1]
      exact Nat.zero_add _
    · obtain ⟨first, rest, hrows⟩ := List.append_of_mem he
      rw [reported_iff hids hsize hrows, faulty_iff, not_iff_not]
      refine and_congr_left fun hgenuine => ?_
      cases first with
      | nil => exact hstart e (by simp [hrows]) hgenuine
      | cons a first =>
        -- Behind the first row of the window, what is before the window does not matter.
        rw [hashBefore_eq hids hrows]
        rfl
    · rw [verifyChain_violations hsize] at hv
      obtain ⟨first, e, rest, hrows, hv⟩ := mem_findings.mp hv
      exact ⟨e, by simp [hrows], entryId_of_faultsOf hv⟩

section Example

private def verbatim : Platform where
  maskAddress := some
  storedAddress := id
  storedDetail := id

private def login (found : Option ℕ) : Step where
  writer := .recordEvent {
    eventType := "auth.login"
    actorId := some "7" }
  timestamp := 100
  found

/-- Two logins, both written as they should be -/
private def twoLogins : Log := (log verbatim).final [] [login none, login (some 1)]

private def firstLogin : AuditLogEntry := (login none).entry verbatim []

private def secondLogin : AuditLogEntry := (login (some 1)).entry verbatim [firstLogin]

private theorem twoLogins_eq : twoLogins = [firstLogin, secondLogin] := rfl

private theorem twoLogins_ordered : twoLogins.Pairwise (·.id < ·.id) := by
  rw [twoLogins_eq]
  simp only [List.pairwise_cons, List.mem_singleton, forall_eq, List.not_mem_nil]
  exact ⟨Nat.lt_succ_self 1, by simp⟩

/-- The whole log is a window in which the faults are found. -/
theorem twoLogins_localised :
    Localises twoLogins (window twoLogins none none) (verifyChain twoLogins none none 1) := by
  refine (verifyChain_localises_iff twoLogins_ordered (by decide)).mpr ?_
  intro e he _
  cases (he : some firstLogin = some e)
  exact ⟨fun _ => rfl, fun _ => rfl⟩

/-- From the second row on, a whole chain has a violation. -/
theorem second_login_reported :
    (log verbatim).Reachable twoLogins ∧ (verifyChain twoLogins none none 500).Clean ∧
      (∃ v ∈ (verifyChain twoLogins (some 2) none 500).violations, v.entryId = 2) ∧
      ¬ Faulty twoLogins secondLogin ∧
      ¬ Localises twoLogins (window twoLogins (some 2) none)
        (verifyChain twoLogins (some 2) none 500) := by
  have hwindow : window twoLogins (some 2) none = [] ++ secondLogin :: [] := rfl
  have hbefore : secondLogin.prevHash = hashBefore twoLogins secondLogin := rfl
  have hgenuine : secondLogin.Genuine := entry_genuine rfl rfl
  have hnamed : secondLogin.prevHash ≠ "" := sha256_ne_empty _
  have hreported : ∃ v ∈ (verifyChain twoLogins (some 2) none 500).violations, v.entryId = 2 :=
    (reported_iff twoLogins_ordered (by decide) hwindow).mpr fun h => hnamed h.1
  have hsound : ¬ Faulty twoLogins secondLogin := fun h => faulty_iff.mp h ⟨hbefore, hgenuine⟩
  have hintact : Intact "" twoLogins := by
    rw [twoLogins_eq, Intact.cons, Intact.cons]
    exact ⟨⟨rfl, entry_genuine rfl rfl⟩, ⟨rfl, hgenuine⟩, .nil⟩
  refine ⟨Machine.Reachable.final (M := log verbatim) rfl _,
    (verifyChain_clean (by decide)).mpr hintact, hreported, hsound, fun hlocal => ?_⟩
  exact hsound ((hlocal.reported secondLogin (by simp [hwindow])).mp hreported)

end Example

end Civicos.Audit
