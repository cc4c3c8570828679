import Civicos.Library.RowLocks
import Civicos.Workflows.History

/-!
# Deadlines of work items

Any number of `check_sla_breaches` tasks run while staff work on the same items. A task locks the
items that it marks, passes over those that are locked, and reads of each what was last committed.
-/
namespace Civicos.Workflows

open Library Library.Transaction

/-! ## The table and the task -/

structure ItemRow where
  item : WorkItem
  updatedAt : Instant
deriving DecidableEq, Repr

/-- A row of the history with its item -/
abbrev Entry := ℕ × WorkItemHistory

abbrev Board := Shared ℕ ItemRow Entry

abbrev BoardWrites := Writes ℕ ItemRow Entry

namespace ItemRow

/-- The query of `check_sla_breaches` -/
def isBreached (now : Instant) (r : ItemRow) : Bool :=
  r.item.dueAt.any (· < now) && r.item.slaBreachedAt.isNone && !r.item.status.terminal

/-- `update(sla_breached_at=now, updated_at=now)` -/
def mark (now : Instant) (r : ItemRow) : ItemRow where
  item := { r.item with slaBreachedAt := some now }
  updatedAt := now

end ItemRow

/-- The row of the history for an item that the task has loaded -/
def slaEntry (breached : ℕ × ItemRow) : Entry :=
  (breached.1, {
    action := .slaBreached
    actor := none
    notes := "SLA deadline " ++ (breached.2.item.dueAt.map minuteText).getD "" ++
      " UTC passed without resolution." })

def markBreached (now : Instant) (breached : List (ℕ × ItemRow)) (s : Board) : BoardWrites where
  versions := breached.filterMap fun b => (s.row b.1).map fun r => (b.1, r.mark now)
  entries := breached.map slaEntry

/-- A service with the instance `i`, on the row as it is now; `updated_at` is set by the save. -/
def serve (op : Operation) (pk : ℕ) (i : WorkItem) (now : Instant) (r : ItemRow) :
    Except WorkflowError BoardWrites :=
  match op.run i { now, item := r.item } with
  | .ok (_, t) => .ok ⟨[(pk, ⟨t.item, now⟩)], t.history.map (pk, ·)⟩
  | .error e => .error e

/-- A request of staff before and after it has loaded the item, and a task with its reading of the
clock and the items that it has locked. -/
inductive Session where
  | called (op : Operation) (pk : ℕ)
  | loaded (op : Operation) (pk : ℕ) (i : WorkItem)
  | sweeping (now : Instant) (breached : List (ℕ × ItemRow))
  | marked (now : Instant) (w : BoardWrites)
  | saved (w : BoardWrites)
  | returned
  | raised (e : WorkflowError)
  | dead

/-- The query of a task comes to the next row, or the session goes on. -/
inductive Turn where
  | lock (pk : ℕ)
  | proceed (now : Instant)
deriving DecidableEq, Repr

namespace Session

def entry : Session → Bool
  | called _ _ => true
  | sweeping _ breached => breached.isEmpty
  | _ => false

def held : Session → List ℕ
  | sweeping _ breached => breached.map (·.1)
  | marked _ w | saved w => w.versions.map (·.1)
  | _ => []

def advance (s : Board) : Session → Turn → Option Session
  | called op pk, .proceed _ => (s.row pk).map fun r => loaded op pk r.item
  | loaded op pk i, .proceed now => (s.row pk).map fun r =>
    match serve op pk i now r with
    | .ok w => saved w
    | .error e => raised e
  | sweeping now breached, .lock pk => (s.row pk).bind fun r =>
    if r.isBreached now && pk ∉ breached.map (·.1) then
      some (sweeping now (breached ++ [(pk, r)]))
    else none
  | sweeping now breached, .proceed _ => some (marked now (markBreached now breached s))
  | _, _ => none

def commit : Session → Option (BoardWrites × Session)
  | marked _ w | saved w => some (w, returned)
  | _ => none

theorem commit_cases {p q : Session} {w : BoardWrites} (h : p.commit = some (w, q)) :
    ((∃ now, p = marked now w) ∨ p = saved w) ∧ q = returned := by
  cases p with
  | marked now w' =>
    cases h
    exact ⟨.inl ⟨now, rfl⟩, rfl⟩
  | saved w' =>
    cases h
    exact ⟨.inr rfl, rfl⟩
  | _ => cases h

end Session

/-- Tasks and requests on a table in which no deadline has been noted yet. New items come with at
most the row of the history that notes their creation. -/
def slaQueue : Locking ℕ ItemRow Entry Session Turn where
  Init s := (∀ pk r, s.row pk = some r → r.item.slaBreachedAt = none) ∧
    ∀ e ∈ s.log, e.2.action ≠ .slaBreached
  entry := Session.entry
  stopped := .dead
  held := Session.held
  advance := Session.advance
  commit := Session.commit
  admits r entries := r.item.slaBreachedAt.isNone && r.item.status = .pending &&
    entries.all (·.2.action = .created)
  entry_free p h := by
    cases p with
    | called op pk => rfl
    | sweeping now breached => simpa [Session.entry, Session.held] using h
    | _ => cases h
  stopped_free := rfl
  commit_free p w q h := by
    obtain ⟨-, rfl⟩ := Session.commit_cases h
    rfl
  commit_held p w q h v hv := by
    obtain ⟨⟨now, rfl⟩ | rfl, -⟩ := Session.commit_cases h <;> exact List.mem_map_of_mem hv

/-! ## What is kept -/

section Invariant

variable {s : Board} {w : BoardWrites} {pk : ℕ} {now : Instant} {r : ItemRow}

/-- `sla_breached_at` of an item -/
def breachedAt (s : Board) (pk : ℕ) : Option Instant := (s.row pk).bind (·.item.slaBreachedAt)

/-- The `sla_breached` rows in the history of an item -/
def breaches (pk : ℕ) (log : List Entry) : ℕ :=
  log.countP fun e => e.1 = pk && e.2.action = .slaBreached

/-- The history notes each deadline that has been missed. -/
def Noted (s : Board) : Prop :=
  ∀ pk, breaches pk s.log = if (breachedAt s pk).isSome then 1 else 0

/-- Each version of a row keeps its mark and adds nothing to the history about it, or adds the mark
and one row of the history. -/
structure Marks (s : Board) (w : BoardWrites) : Prop where
  nodup : (w.versions.map (·.1)).Nodup
  own : ∀ pk, pk ∉ w.versions.map (·.1) → breaches pk w.entries = 0
  version : ∀ v ∈ w.versions, ∃ r, s.row v.1 = some r ∧
    (v.2.item.slaBreachedAt = r.item.slaBreachedAt ∧ breaches v.1 w.entries = 0 ∨
      r.item.slaBreachedAt = none ∧ v.2.item.slaBreachedAt ≠ none ∧ breaches v.1 w.entries = 1)

/-- What a session relies on -/
def Relies (s : Board) : Session → Prop
  | .sweeping now breached => (breached.map (·.1)).Nodup ∧
      ∀ b ∈ breached, s.row b.1 = some b.2 ∧ b.2.isBreached now = true
  | .marked now w => Marks s w ∧
      ∀ v ∈ w.versions, ∃ r, s.row v.1 = some r ∧ r.isBreached now = true ∧ v.2 = r.mark now
  | .saved w => Marks s w
  | _ => True

theorem breachedAt_of_row (h : s.row pk = some r) : breachedAt s pk = r.item.slaBreachedAt := by
  simp [breachedAt, h]

theorem breaches_append (log entries : List Entry) :
    breaches pk (log ++ entries) = breaches pk log + breaches pk entries := List.countP_append

theorem breaches_eq_zero {log : List Entry} (h : ∀ e ∈ log, e.2.action ≠ .slaBreached) :
    breaches pk log = 0 := by
  rw [breaches, List.countP_eq_zero]
  intro e he
  simp [h e he]

/-- The history of the items that a task has loaded -/
theorem breaches_slaEntry (breached : List (ℕ × ItemRow)) :
    breaches pk (breached.map slaEntry) = (breached.map (·.1)).count pk := by
  rw [breaches, List.countP_map, List.count, List.countP_map]
  refine List.countP_congr fun b _ => ?_
  simp only [Function.comp, slaEntry, decide_true, Bool.and_true, beq_iff_eq]
  exact decide_eq_true_iff

theorem Marks.congr {s' : Board} (h : Marks s w)
    (hrow : ∀ pk ∈ w.versions.map (·.1), s'.row pk = s.row pk) : Marks s' w := by
  refine ⟨h.nodup, h.own, fun v hv => ?_⟩
  rw [hrow v.1 (List.mem_map_of_mem hv)]
  exact h.version v hv

theorem Marks.breachedAt_of_notMem (h : pk ∉ w.versions.map (·.1)) :
    breachedAt (s.apply w) pk = breachedAt s pk := by
  have hrow : (s.apply w).row pk = s.row pk :=
    Shared.apply_row_of_notMem fun v hv hkey => h (hkey ▸ List.mem_map_of_mem hv)
  simp [breachedAt, hrow]

theorem Marks.breachedAt_of_mem (h : Marks s w) {v : ℕ × ItemRow} (hv : v ∈ w.versions) :
    breachedAt (s.apply w) v.1 = v.2.item.slaBreachedAt := by
  simp [breachedAt, Shared.apply_row_of_mem hv h.nodup]

/-- Committing keeps the history in step with the marks. -/
theorem Marks.noted (h : Marks s w) (hs : Noted s) : Noted (s.apply w) := by
  intro pk
  have hlog : breaches pk (s.apply w).log = breaches pk s.log + breaches pk w.entries :=
    breaches_append _ _
  rw [hlog, hs pk]
  by_cases hpk : pk ∈ w.versions.map (·.1)
  · obtain ⟨v, hv, rfl⟩ := List.mem_map.mp hpk
    obtain ⟨r, hr, ⟨hsame, hnone⟩ | ⟨hbefore, hafter, hone⟩⟩ := h.version v hv
    · rw [h.breachedAt_of_mem hv, breachedAt_of_row hr, hsame, hnone, add_zero]
    · rw [h.breachedAt_of_mem hv, breachedAt_of_row hr, hbefore, hone,
        Option.isSome_iff_ne_none.mpr hafter]
      rfl
  · simp [Marks.breachedAt_of_notMem hpk, h.own pk hpk]

/-- A mark stays. -/
theorem Marks.keeps (h : Marks s w) {c : Instant} (hc : breachedAt s pk = some c) :
    breachedAt (s.apply w) pk = some c := by
  by_cases hpk : pk ∈ w.versions.map (·.1)
  · obtain ⟨v, hv, rfl⟩ := List.mem_map.mp hpk
    obtain ⟨r, hr, ⟨hsame, -⟩ | ⟨hbefore, -⟩⟩ := h.version v hv
    · rw [h.breachedAt_of_mem hv, hsame, ← hc, breachedAt_of_row hr]
    · rw [breachedAt_of_row hr, hbefore] at hc
      cases hc
  · rw [Marks.breachedAt_of_notMem hpk, hc]

/-- The services of staff leave the mark alone. -/
theorem serve_marks {op : Operation} {i : WorkItem} (hr : s.row pk = some r)
    (h : serve op pk i now r = .ok w) : Marks s w := by
  unfold serve at h
  split at h
  next u t hrun =>
    cases h
    have hsame : t.item.slaBreachedAt = r.item.slaBreachedAt ∧
        ∀ row ∈ t.history, row.action ≠ .slaBreached := by
      cases run_change hrun with
      | claim _ ht | assign ht | updateStatus _ ht | escalate _ ht =>
        subst ht
        simp
    have hzero (pk' : ℕ) : breaches pk' (t.history.map (pk, ·)) = 0 := by
      refine breaches_eq_zero fun e he => ?_
      obtain ⟨row, hrow, rfl⟩ := List.mem_map.mp he
      exact hsame.2 row hrow
    refine ⟨List.pairwise_singleton _ pk, fun pk' _ => hzero pk', fun v hv => ?_⟩
    obtain rfl := List.mem_singleton.mp hv
    exact ⟨r, hr, .inl ⟨hsame.1, hzero pk⟩⟩
  next => cases h

theorem isBreached_unmarked (h : r.isBreached now = true) : r.item.slaBreachedAt = none := by
  simp only [ItemRow.isBreached, Bool.and_eq_true, Option.isNone_iff_eq_none] at h
  exact h.1.2

/-- What a task has locked it marks. -/
theorem markBreached_versions {breached : List (ℕ × ItemRow)}
    (h : ∀ b ∈ breached, s.row b.1 = some b.2) :
    (markBreached now breached s).versions = breached.map fun b => (b.1, b.2.mark now) := by
  have hsome : ∀ b ∈ breached, (s.row b.1).map (fun r => (b.1, r.mark now)) =
      some (b.1, b.2.mark now) := by
    intro b hb
    simp [h b hb]
  exact (List.filterMap_congr hsome).trans (congrFun List.filterMap_eq_map' breached)

theorem markBreached_relies {breached : List (ℕ × ItemRow)}
    (h : Relies s (.sweeping now breached)) :
    Relies s (.marked now (markBreached now breached s)) := by
  obtain ⟨hnodup, hrows⟩ := h
  have hversions := @markBreached_versions s now breached fun b hb => (hrows b hb).1
  have hkeys : (markBreached now breached s).versions.map (·.1) = breached.map (·.1) := by
    rw [hversions, List.map_map]
    rfl
  have hentries (pk : ℕ) :
      breaches pk (markBreached now breached s).entries = (breached.map (·.1)).count pk :=
    breaches_slaEntry breached
  refine ⟨⟨hkeys ▸ hnodup, fun pk hpk => ?_, fun v hv => ?_⟩, fun v hv => ?_⟩
  · rw [hentries, List.count_eq_zero]
    exact hkeys ▸ hpk
  · rw [hversions] at hv
    obtain ⟨b, hb, rfl⟩ := List.mem_map.mp hv
    obtain ⟨hrow, hbreached⟩ := hrows b hb
    refine ⟨b.2, hrow, .inr ⟨isBreached_unmarked hbreached, Option.some_ne_none _, ?_⟩⟩
    rw [hentries]
    rw [hnodup.count, if_pos (List.mem_map_of_mem hb)]
  · rw [hversions] at hv
    obtain ⟨b, hb, rfl⟩ := List.mem_map.mp hv
    exact ⟨b.2, (hrows b hb).1, (hrows b hb).2, rfl⟩

end Invariant

/-! ## Every run -/

section Runs

variable {b b' : Board} {p q : Session} {e : Turn} {w : BoardWrites} {pk : ℕ} {now c : Instant}
  {r : ItemRow} {entries : List Entry}

theorem Relies.marks (h : Relies b p) (hcommit : p.commit = some (w, q)) : Marks b w := by
  obtain ⟨⟨now, rfl⟩ | rfl, -⟩ := Session.commit_cases hcommit
  · exact h.1
  · exact h

theorem Relies.exists_row (h : Relies b p) (hpk : pk ∈ p.held) : b.row pk ≠ none := by
  cases p with
  | sweeping now breached =>
    obtain ⟨v, hv, rfl⟩ := List.mem_map.mp hpk
    exact fun hnone => Option.some_ne_none _ ((h.2 v hv).1.symm.trans hnone)
  | marked now w =>
    obtain ⟨v, hv, rfl⟩ := List.mem_map.mp hpk
    obtain ⟨r, hr, -⟩ := h.1.version v hv
    exact fun hnone => Option.some_ne_none _ (hr.symm.trans hnone)
  | saved w =>
    obtain ⟨v, hv, rfl⟩ := List.mem_map.mp hpk
    obtain ⟨r, hr, -⟩ := h.version v hv
    exact fun hnone => Option.some_ne_none _ (hr.symm.trans hnone)
  | _ => cases hpk

/-- A session relies on the rows that it has locked. -/
theorem Relies.frame (h : Relies b p) (hrow : ∀ pk ∈ p.held, b'.row pk = b.row pk) :
    Relies b' p := by
  cases p with
  | sweeping now breached =>
    refine ⟨h.1, fun v hv => ?_⟩
    rw [hrow v.1 (List.mem_map_of_mem hv)]
    exact h.2 v hv
  | marked now w =>
    refine ⟨h.1.congr hrow, fun v hv => ?_⟩
    rw [hrow v.1 (List.mem_map_of_mem hv)]
    exact h.2 v hv
  | saved w => exact Marks.congr h hrow
  | _ => trivial

theorem Relies.advance (h : Relies b p) (hadvance : p.advance b e = some q) : Relies b q := by
  cases p with
  | called op pk =>
    cases e with
    | lock pk => cases hadvance
    | proceed now =>
      obtain ⟨r, -, rfl⟩ := Option.map_eq_some_iff.mp hadvance
      trivial
  | loaded op pk i =>
    cases e with
    | lock pk => cases hadvance
    | proceed now =>
      obtain ⟨r, hr, rfl⟩ := Option.map_eq_some_iff.mp hadvance
      split
      next hserve => exact serve_marks hr hserve
      next => trivial
  | sweeping now breached =>
    cases e with
    | lock pk =>
      obtain ⟨r, hr, hlock⟩ := Option.bind_eq_some_iff.mp hadvance
      simp only [Option.ite_none_right_eq_some, Option.some.injEq, Bool.and_eq_true,
        decide_eq_true_eq] at hlock
      obtain ⟨⟨hbreached, hfresh⟩, rfl⟩ := hlock
      constructor
      · rw [List.map_append, List.map_singleton]
        refine List.nodup_append.mpr ⟨h.1, List.pairwise_singleton _ _, fun k hk k' hk' heq => ?_⟩
        obtain rfl := List.mem_singleton.mp hk'
        exact hfresh (heq.symm ▸ hk)
      · intro v hv
        rcases List.mem_append.mp hv with hv | hv
        · exact h.2 v hv
        · obtain rfl := List.mem_singleton.mp hv
          exact ⟨hr, hbreached⟩
    | proceed now' =>
      cases hadvance
      exact markBreached_relies h
  | _ => cases hadvance

theorem breachedAt_add (hnone : b.row pk = none) (hnew : r.item.slaBreachedAt = none) (pk' : ℕ) :
    breachedAt (b.apply ⟨[(pk, r)], entries⟩) pk' = breachedAt b pk' := by
  by_cases hpk : pk' = pk
  · subst hpk
    have hrow : (b.apply ⟨[(pk', r)], entries⟩).row pk' = some r :=
      Shared.apply_row_of_mem (List.mem_singleton_self _) (List.pairwise_singleton _ _)
    rw [breachedAt_of_row hrow, hnew, breachedAt, hnone]
    rfl
  · refine Marks.breachedAt_of_notMem fun hmem => hpk ?_
    simpa using hmem

theorem admits_new (h : slaQueue.admits r entries = true) :
    r.item.slaBreachedAt = none ∧ ∀ e ∈ entries, e.2.action ≠ .slaBreached := by
  simp only [slaQueue, Bool.and_eq_true, Option.isNone_iff_eq_none, List.all_eq_true,
    decide_eq_true_eq] at h
  refine ⟨h.1.1, fun e he hbreach => ?_⟩
  cases (h.2 e he).symm.trans hbreach

theorem Noted.add (h : Noted b) (hnone : b.row pk = none)
    (hadmits : slaQueue.admits r entries = true) : Noted (b.apply ⟨[(pk, r)], entries⟩) := by
  obtain ⟨hnew, hentries⟩ := admits_new hadmits
  intro pk'
  rw [breachedAt_add hnone hnew, ← h pk']
  exact (breaches_append _ _).trans (by rw [breaches_eq_zero hentries, add_zero])

variable {s t : Locking.State ℕ ItemRow Entry Session}

theorem slaQueue_invariant (h : slaQueue.machine.Reachable s) :
    (Noted s.shared ∧ ∀ p ∈ s.sessions, Relies s.shared p) ∧ slaQueue.Exclusive s.sessions := by
  refine Locking.invariant (fun st hst pk => ?_) (fun st p hp => ?_) (fun _ => trivial)
    (fun st p k hp hk => hp.exists_row hk) (fun st st' p hp hrow => hp.frame hrow)
    (fun st p e q hp hadvance => hp.advance hadvance) (fun st p w q hI hp hcommit => ?_)
    (fun st k r entries hI hnone hadmits => hI.add hnone hadmits) h
  · obtain ⟨hrows, hlog⟩ := hst
    rw [breaches_eq_zero hlog]
    cases hrow : st.row pk with
    | none => simp [breachedAt, hrow]
    | some r => simp [breachedAt_of_row hrow, hrows pk r hrow]
  · cases p with
    | called op pk => trivial
    | sweeping now breached =>
      obtain rfl : breached = [] := List.isEmpty_iff.mp hp
      simp [Relies]
    | _ => cases hp
  · have hmarks := hp.marks hcommit
    obtain ⟨-, rfl⟩ := Session.commit_cases hcommit
    exact ⟨hmarks.noted hI, trivial⟩

/-- No step takes a mark back or changes it. -/
theorem breachedAt_step {l : Locking.Label ℕ ItemRow Entry Session Turn}
    (h : slaQueue.machine.Reachable s) (hstep : slaQueue.machine.step s l = some t)
    (hc : breachedAt s.shared pk = some c) : breachedAt t.shared pk = some c := by
  rcases Locking.shared_cases hstep with hsame | ⟨p, w, q, hp, hcommit, hshared⟩ |
    ⟨k, r, entries, hnone, hadmits, hshared⟩
  · rw [hsame, hc]
  · rw [hshared]
    exact (((slaQueue_invariant h).1.2 p hp).marks hcommit).keeps hc
  · rw [hshared, breachedAt_add hnone (admits_new hadmits).1, hc]

theorem breachedAt_later (h : slaQueue.machine.Reachable s) (hlater : slaQueue.machine.Later s t)
    (hc : breachedAt s.shared pk = some c) : breachedAt t.shared pk = some c :=
  hlater.induct hc fun _ _ _ hu hmark hstep => breachedAt_step (h.later hu) hstep hmark

/-- A task that has locked the item, until it returns or stops -/
def Marking (now : Instant) (pk : ℕ) (b : Board) : Session → Prop
  | .sweeping now' breached => now' = now ∧ pk ∈ breached.map (·.1)
  | .marked now' w => now' = now ∧ pk ∈ w.versions.map (·.1)
  | .returned => breachedAt b pk = some now
  | .dead => True
  | _ => False

theorem Marking.advance (hb : Relies b p) (h : Marking now pk b p)
    (hadvance : p.advance b e = some q) : Marking now pk b q := by
  cases p with
  | sweeping now' breached =>
    obtain ⟨rfl, hpk⟩ := h
    cases e with
    | lock pk' =>
      obtain ⟨r, -, hlock⟩ := Option.bind_eq_some_iff.mp hadvance
      simp only [Option.ite_none_right_eq_some, Option.some.injEq] at hlock
      obtain ⟨-, rfl⟩ := hlock
      refine ⟨rfl, ?_⟩
      rw [List.map_append]
      exact List.mem_append_left _ hpk
    | proceed now'' =>
      cases hadvance
      refine ⟨rfl, ?_⟩
      rw [markBreached_versions fun v hv => (hb.2 v hv).1, List.map_map]
      exact hpk
  | _ => first | exact h.elim | cases hadvance

theorem Marking.commit (hb : Relies b p) (h : Marking now pk b p)
    (hcommit : p.commit = some (w, q)) : Marking now pk (b.apply w) q := by
  have hmarks := hb.marks hcommit
  obtain ⟨⟨now', rfl⟩ | rfl, rfl⟩ := Session.commit_cases hcommit
  · obtain ⟨rfl, hpk⟩ := h
    obtain ⟨v, hv, rfl⟩ := List.mem_map.mp hpk
    obtain ⟨r, -, -, hmark⟩ := hb.2 v hv
    refine (hmarks.breachedAt_of_mem hv).trans ?_
    rw [hmark]
    rfl
  · exact h.elim

theorem marking_later {i : ℕ} (h : slaQueue.machine.Reachable s)
    (hlater : slaQueue.machine.Later s t) (hp : s.sessions[i]? = some p)
    (hmarking : Marking now pk s.shared p) :
    ∃ q, t.sessions[i]? = some q ∧ Marking now pk t.shared q := by
  refine Locking.followed h hp hmarking (fun u l v q hu hstep hq => ?_)
    (fun u e p q hu hp hK hadvance => ?_) (fun u p w q hu hp hK hcommit => ?_)
    (fun _ => trivial) hlater
  · cases q with
    | returned => exact breachedAt_step hu hstep hq
    | _ => exact hq
  · exact hK.advance ((slaQueue_invariant hu).1.2 p hp) hadvance
  · exact hK.commit ((slaQueue_invariant hu).1.2 p hp) hcommit

/-- The commit of a task changes two columns of the items that it has locked. -/
theorem commit_marks {i : ℕ} (h : slaQueue.machine.Reachable s)
    (hp : s.sessions[i]? = some (.marked now w))
    (hstep : slaQueue.machine.step s (.commit i) = some t) (pk : ℕ) :
    t.shared.row pk =
      if pk ∈ w.versions.map (·.1) then (s.shared.row pk).map (·.mark now)
      else s.shared.row pk := by
  obtain ⟨hmarks, hmarked⟩ : Relies s.shared (.marked now w) :=
    (slaQueue_invariant h).1.2 _ (List.mem_of_getElem? hp)
  obtain ⟨p, hp', hcommit⟩ := Option.bind_eq_some_iff.mp hstep
  obtain rfl : Session.marked now w = p := Option.some.inj (hp.symm.trans hp')
  obtain ⟨_, ⟨⟩, rfl⟩ := Option.map_eq_some_iff.mp hcommit
  split
  next hpk =>
    obtain ⟨v, hv, rfl⟩ := List.mem_map.mp hpk
    obtain ⟨r, hr, -, hmark⟩ := hmarked v hv
    rw [hr, Option.map_some, ← hmark]
    exact Shared.apply_row_of_mem hv hmarks.nodup
  next hpk =>
    exact Shared.apply_row_of_notMem fun v hv hkey => hpk (hkey ▸ List.mem_map_of_mem hv)

/-- The history of an item has one row for its mark and none without it, and a mark stays. What a
task has locked is overdue and open, and marked once the task has returned; of these items, as they
were last committed, the task changes the mark and the time of the last change. -/
theorem sla_marked_once (h : slaQueue.machine.Reachable s) :
    (∀ pk, breaches pk s.shared.log = if (breachedAt s.shared pk).isSome then 1 else 0) ∧
    (∀ t, slaQueue.machine.Later s t → ∀ pk c, breachedAt s.shared pk = some c →
      breachedAt t.shared pk = some c) ∧
    (∀ (i : ℕ) now breached, s.sessions[i]? = some (Session.sweeping now breached) → ∀ v ∈ breached,
      s.shared.row v.1 = some v.2 ∧ v.2.isBreached now = true ∧
        ∀ t, slaQueue.machine.Later s t → t.sessions[i]? = some Session.returned →
          breachedAt t.shared v.1 = some now ∧ breaches v.1 t.shared.log = 1) ∧
    ∀ (i : ℕ) now w t, s.sessions[i]? = some (Session.marked now w) →
      slaQueue.machine.step s (.commit i) = some t → ∀ pk,
        t.shared.row pk =
          if pk ∈ w.versions.map (·.1) then (s.shared.row pk).map (·.mark now)
          else s.shared.row pk := by
  refine ⟨(slaQueue_invariant h).1.1, fun t hlater pk c => breachedAt_later h hlater,
    fun i now breached hp v hv => ?_, fun i now w t hp hstep => commit_marks h hp hstep⟩
  obtain ⟨-, hrows⟩ : Relies s.shared (.sweeping now breached) :=
    (slaQueue_invariant h).1.2 _ (List.mem_of_getElem? hp)
  obtain ⟨hrow, hbreached⟩ := hrows v hv
  refine ⟨hrow, hbreached, fun t hlater hreturned => ?_⟩
  obtain ⟨q, hq, hmarking⟩ := marking_later h hlater hp ⟨rfl, List.mem_map_of_mem hv⟩
  obtain rfl : Session.returned = q := Option.some.inj (hreturned.symm.trans hq)
  have hmark : breachedAt t.shared v.1 = some now := hmarking
  refine ⟨hmark, ?_⟩
  rw [(slaQueue_invariant (h.later hlater)).1.1 v.1, hmark]
  rfl

end Runs

/-! ## A task with an old reading of the clock -/

/-- An item that was due at ten -/
def overdueBoard : Board where
  row pk := if pk = 1 then some ⟨{
    title := "Review"
    dueAt := some 10 }, 0⟩ else none
  log := []

/-- A task reads the clock at twenty. The item is taken up at thirty, and then the task locks it. -/
def overtaken : List (Locking.Label ℕ ItemRow Entry Session Turn) :=
  [.begin (.sweeping 20 []), .begin (.called (.updateStatus "in_progress" ⟨7, true, "Ana"⟩ "") 1),
    .advance 1 (.proceed 29), .advance 1 (.proceed 30), .commit 1, .advance 0 (.lock 1),
    .advance 0 (.proceed 31)]

theorem overdueBoard_init : slaQueue.machine.Init ⟨overdueBoard, []⟩ := by
  refine ⟨⟨fun pk r hr => ?_, by simp [overdueBoard]⟩, rfl⟩
  simp only [overdueBoard, Option.ite_none_right_eq_some, Option.some.injEq] at hr
  rw [← hr.2]

/-- In the run above the task marks the item once. -/
theorem overtaken_marked_once :
    (∀ pk, breaches pk
      (slaQueue.machine.final ⟨overdueBoard, []⟩ (overtaken ++ [.commit 0])).shared.log =
        if (breachedAt
          (slaQueue.machine.final ⟨overdueBoard, []⟩ (overtaken ++ [.commit 0])).shared pk).isSome
        then 1 else 0) ∧
    breachedAt (slaQueue.machine.final ⟨overdueBoard, []⟩ (overtaken ++ [.commit 0])).shared 1 =
      some 20 :=
  ⟨(sla_marked_once (.final overdueBoard_init _)).1, by decide +kernel⟩

/-- It takes the time of the last change, which another session has committed meanwhile, back from
thirty to twenty. -/
theorem later_change_overwritten :
    slaQueue.machine.Reachable (slaQueue.machine.final ⟨overdueBoard, []⟩ overtaken) ∧
    (slaQueue.machine.run ⟨overdueBoard, []⟩ overtaken).map
      (fun s => (s.shared.row 1).map fun r => (r.item.status, r.updatedAt)) =
        some (some (.inProgress, 30)) ∧
    (slaQueue.machine.run ⟨overdueBoard, []⟩ (overtaken ++ [.commit 0])).map
      (fun s => (s.shared.row 1).map fun r => (r.item.status, r.updatedAt)) =
        some (some (.inProgress, 20)) :=
  ⟨.final overdueBoard_init overtaken, by decide +kernel, by decide +kernel⟩

end Civicos.Workflows
