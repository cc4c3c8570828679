import Civicos.Payments.BatchSystem

/-!
# Batch leases fence

The lease of every batch moves as a fence does, a delivery with a stale handle writes nothing,
and a decision is recorded once, together with its audit entry.
-/
namespace Civicos.Payments

open Library Library.Transaction Session

/-- The audit entries of a decision. -/
def BulkStore.decisionAudits (db : BulkStore) (decision : Uuid) : List AuditEntry :=
  db.ledger.audits.filter fun e =>
    e.objectType = "batch_decision" ∧ e.objectPk = toString decision

/-- No decision has two audit entries, and none has one before it is recorded. -/
def BulkStore.Audited (db : BulkStore) : Prop :=
  ∀ pk, (db.decisionAudits pk).length ≤ 1 ∧
    (db.decisions.get pk = none → db.decisionAudits pk = [])

/-- What one transaction can do to decisions and their audit entries. -/
inductive Files (db db' : BulkStore) : Prop where
  | nothing (decisions : db'.decisions = db.decisions)
      (audits : ∀ pk, db'.decisionAudits pk = db.decisionAudits pk)
  | decision (batch : BulkPaymentBatch) (d : GovStackBatchDecision) (pk : d.pk = db.decisions.next)
      (decisions : db.decisions.insert d = .ok db'.decisions)
      (audits : ∀ k, db'.decisionAudits k =
        db.decisionAudits k ++ if k = d.pk then [BulkTask.decisionEntry batch d] else [])

namespace BulkStore

variable {db db' : BulkStore}

theorem decisionAudits_of_appends {P : AuditEntry → Prop} (h : db.ledger.Appends P db'.ledger)
    (hP : ∀ e, P e → e.ForeignToDecisions) (pk : Uuid) :
    db'.decisionAudits pk = db.decisionAudits pk := by
  obtain ⟨new, happ, hnew⟩ := h
  have hnil :
      new.filter (fun e => e.objectType = "batch_decision" ∧ e.objectPk = toString pk) = [] := by
    refine List.filter_eq_nil_iff.mpr fun e he => ?_
    have hne := hP e (hnew e he)
    simp only [AuditEntry.ForeignToDecisions] at hne
    simp [hne]
  rw [decisionAudits, happ, List.filter_append, hnil, List.append_nil, decisionAudits]

theorem foreign_of_aboutAttempt {e : AuditEntry} (h : e.AboutAttempt) : e.ForeignToDecisions := by
  rw [AuditEntry.ForeignToDecisions, h]
  decide

theorem Audited.of_files (h : db.Audited) (hf : Files db db') : db'.Audited := by
  cases hf with
  | nothing decisions audits =>
    intro pk
    rw [audits, decisions]
    exact h pk
  | decision batch d hpk decisions audits =>
    intro k
    have hget := Table.get_insert decisions k
    rw [audits]
    by_cases hk : k = d.pk
    · have hnone : db.decisions.get k = none := by
        rw [hk, hpk]
        exact Table.get_next
      rw [(h k).2 hnone, if_pos hk]
      refine ⟨Nat.le_refl 1, fun hn => ?_⟩
      rw [hget, if_pos (show GovStackBatchDecision.schema.pk d = k from hk.symm)] at hn
      cases hn
    · rw [if_neg hk, List.append_nil]
      refine ⟨(h k).1, fun hn => (h k).2 ?_⟩
      rwa [hget, if_neg (show ¬ GovStackBatchDecision.schema.pk d = k from fun h => hk h.symm)]
        at hn

end BulkStore

/-! ## Every transaction respects the fence and files properly -/

/-- What a transaction does to leases, decisions and their audit entries. -/
structure Respects (db db' : BulkStore) : Prop where
  moves : ∀ b, Lease.Moves (db.fence b) (db'.fence b)
  files : Files db db'

namespace Respects

variable {db db' : BulkStore} {s t : Session} {handle : BatchLeaseHandle}

theorem refl (db : BulkStore) : Respects db db := ⟨fun _ => .refl, .nothing rfl fun _ => rfl⟩

theorem of_works {P : Uuid → Prop} (h : Works P s t) :
    Respects s.toBulkStore t.toBulkStore where
  moves := h.moves
  files := .nothing h.decisions
    (BulkStore.decisionAudits_of_appends h.trails fun _ => BulkStore.foreign_of_aboutAttempt)

theorem of_renews (h : BatchLeaseService.Renews s t) : Respects s.toBulkStore t.toBulkStore :=
  of_works (P := fun _ => False) (.of_renews h)

/-- The audit entries about decisions that `Works` leaves alone. -/
theorem audits_of_works {P : Uuid → Prop} (h : Works P s t) (k : Uuid) :
    t.decisionAudits k = s.decisionAudits k :=
  BulkStore.decisionAudits_of_appends h.trails (fun _ => BulkStore.foreign_of_aboutAttempt) k

theorem audits_audited (batch : BulkPaymentBatch) (d : GovStackBatchDecision) (k : Uuid) :
    (audited s (BulkTask.decisionEntry batch d)).decisionAudits k =
      s.decisionAudits k ++ if k = d.pk then [BulkTask.decisionEntry batch d] else [] := by
  have hkey : toString d.pk = toString k ↔ k = d.pk := toString_uuid_inj.trans eq_comm
  simp only [audited, BulkStore.decisionAudits, List.filter_append, List.filter_cons,
    List.filter_nil, BulkTask.decisionEntry, hkey, true_and, decide_eq_true_eq]

/-- A new decision comes with exactly one audit entry, a replayed one with none. -/
theorem of_processed {settings : BulkSettings} {b : BulkPaymentBatch} {items : List ChildItem}
    {d : GovStackBatchDecision} {created : Bool} {u v w : Session}
    (h : BulkTask.Processed settings handle b s t items d created u v w) :
    Respects s.toBulkStore t.toBulkStore := by
  obtain ⟨hsu, -, hdecide, hproject, hrecord⟩ := h
  obtain ⟨u', huu', hv, hdecides⟩ := BulkTask.decide_ok hdecide
  obtain ⟨-, w', generatedAt, hvw', -, hw⟩ := BulkTask.projectDecision_ok hproject
  have hsu' : Works _ s u' := hsu.trans (huu' _)
  have hvw : ∀ k, Lease.Moves (v.fence k) (w.fence k) ∧
      w.decisionAudits k = v.decisionAudits k := by
    intro k
    rw [hw]
    exact ⟨(hvw' fun _ => False).moves k, audits_of_works (hvw' fun _ => False) k⟩
  have hsw : ∀ k, Lease.Moves (s.fence k) (w.fence k) ∧
      w.decisionAudits k = s.decisionAudits k := by
    intro k
    obtain ⟨hmoves, haudits⟩ := hvw k
    rw [hv] at hmoves haudits
    exact ⟨(hsu'.moves k).trans hmoves, haudits.trans (audits_of_works hsu' k)⟩
  have hdecisions : w.decisions = v.decisions := by
    rw [hw]
    exact (hvw' fun _ => False).decisions
  have hrecord := BulkTask.record_ok hrecord
  cases created with
  | false =>
    obtain rfl : t = w := hrecord
    exact ⟨fun k => (hsw k).1,
      .nothing (hdecisions.trans (hdecides.of_replayed.trans hsu.decisions)) fun k => (hsw k).2⟩
  | true =>
    obtain ⟨hd, hinsert⟩ := hdecides.of_created
    obtain ⟨x, hwx, hxt⟩ := hrecord
    have ht : t.decisions = v.decisions :=
      ((hxt fun _ => False).decisions.trans (hwx fun _ => False).decisions).trans hdecisions
    refine ⟨fun k => ((hsw k).1.trans ((hwx fun _ => False).moves k)).trans
      ((hxt fun _ => False).moves k), .decision b d ?_ ?_ fun k => ?_⟩
    · rw [hd, hsu.decisions]
      rfl
    · rw [ht, ← hsu.decisions]
      exact hinsert
    · rw [audits_of_works (hxt fun _ => False), audits_audited,
        audits_of_works (hwx fun _ => False),
        (hsw k).2]

end Respects

/-! ## Deliveries -/

namespace BulkWorker

variable {db db' : BulkStore} {p q : BulkWorker} {c : BulkChoice} {batch : Uuid} {token : String}
  {handle : BatchLeaseHandle} {clock : List Instant}

theorem act_respects (h : act db p c = some (db', q)) : Respects db db' := by
  obtain ⟨rest, hrenews⟩ | ⟨batch, handle, t, rfl, rfl, hok⟩ := act_cases h
  · exact .of_renews hrenews
  · obtain ⟨b, -, -, hb⟩ := BulkTask.processBatch_ok hok
    split at hb
    · obtain ⟨items, d, created, v, w, x, hprocessed⟩ := hb
      exact .of_processed hprocessed
    · exact .of_works (hb fun _ => False)

/-- A delivery whose handle is stale when its transaction starts writes nothing. -/
theorem act_stale (hp : p = process batch handle ∨ p = release handle)
    (hstale : ¬ db.Owns handle (c.clock.headD 0)) (h : act db p c = some (db', q)) : db' = db := by
  rcases hp with rfl | rfl
  · cases h
    obtain hsame | ⟨u, t, hok, -⟩ :=
      commitAt_cases (BulkTask.processBatch c.settings batch handle) c.clock db
    · exact hsame
    · obtain ⟨b, -, howns, -⟩ := BulkTask.processBatch_ok hok
      exact absurd howns hstale
  · cases h
    obtain hsame | ⟨u, t, hok, -⟩ := commitAt_cases (BatchLeaseService.release handle) c.clock db
    · exact hsame
    · exact absurd (BatchLeaseService.release_ok hok).1 hstale

end BulkWorker

theorem BulkWriter.write_respects {db db' : BulkStore} {x : BulkWriter}
    (h : x.write db = some db') : Respects db db' := by
  cases x with
  | receiveBatch requestId sourceBbId batchId instructions callbackUrl correlationId =>
    cases h
    obtain hsame | ⟨b, t, hok, ht⟩ := BulkWorker.commitAt_cases
      (GovStackBulkPaymentService.receiveBatch requestId sourceBbId batchId instructions callbackUrl
        correlationId) [] db
    · rw [hsame]
      exact .refl db
    · rw [ht]
      obtain ⟨-, -, -, -, -, entry, hentry, hframe⟩ :=
        GovStackBulkPaymentService.receiveBatch_ok hok
      rw [hframe]
      refine ⟨fun _ => .refl, .nothing rfl (BulkStore.decisionAudits_of_appends
        (P := AuditEntry.ForeignToDecisions) ⟨[entry], rfl, ?_⟩ fun _ => id)⟩
      simp [AuditEntry.ForeignToDecisions, hentry]
  | beneficiaries rows =>
    cases h
    exact ⟨fun _ => .refl, .nothing rfl fun _ => rfl⟩
  | ledger l =>
    simp only [write, Option.ite_none_right_eq_some, Option.some.injEq] at h
    obtain ⟨happends, rfl⟩ := h
    exact ⟨fun _ => .refl, .nothing rfl (BulkStore.decisionAudits_of_appends happends fun _ => id)⟩

/-! ## Runs -/

theorem step_respects {s t : Pool.State BulkStore BulkWorker}
    {label : Pool.Label BulkWorker BulkChoice BulkWriter}
    (h : bulk.machine.step s label = some t) : Respects s.store t.store := by
  obtain ⟨p, -, -, rfl⟩ | ⟨i, c, p, st, q, -, -, hact, rfl⟩ | ⟨i, -, rfl⟩ |
    ⟨x, st, -, henv, rfl⟩ := Program.step_cases h
  · exact .refl _
  · exact BulkWorker.act_respects hact
  · exact .refl _
  · exact BulkWriter.write_respects henv

theorem later_moves {s t : Pool.State BulkStore BulkWorker} (h : bulk.machine.Later s t)
    (batch : Uuid) : Lease.Moves (s.store.fence batch) (t.store.fence batch) :=
  h.induct (I := fun t => Lease.Moves (s.store.fence batch) (t.store.fence batch)) .refl
    fun _ _ _ _ ih hstep => ih.trans ((step_respects hstep).moves batch)

theorem audited_of_reachable {s : Pool.State BulkStore BulkWorker}
    (h : bulk.machine.Reachable s) : s.store.Audited := by
  refine h.invariant (I := fun s => s.store.Audited) (fun s₀ h₀ pk => ?_)
    fun _ _ _ _ ih hstep => ih.of_files (step_respects hstep).files
  obtain ⟨⟨-, -, -, -, hforeign⟩, -⟩ := h₀
  have hnil : s₀.store.decisionAudits pk = [] := by
    refine List.filter_eq_nil_iff.mpr fun e he => ?_
    have hne := hforeign e he
    simp only [AuditEntry.ForeignToDecisions] at hne
    simp [hne]
  rw [hnil]
  exact ⟨Nat.zero_le 1, fun _ => rfl⟩

/-- Over every interleaving of deliveries: one handle is valid at a time; every change of hands
raises the generation, and so does every admission on an expired lease; a superseded handle is
never valid again; a delivery with a stale handle changes nothing; there is one decision for each
fingerprint and one audit entry for each decision. -/
theorem batch_lease_fences {s : Pool.State BulkStore BulkWorker} (h : bulk.machine.Reachable s) :
    (∀ now h₁ h₂, s.store.Owns h₁ now → s.store.Owns h₂ now → h₁.batchId = h₂.batchId → h₁ = h₂) ∧
    (∀ t, bulk.machine.Later s t → ∀ batch l, s.store.fence batch = some l →
      ∃ l', t.store.fence batch = some l' ∧ l'.Succeeds l) ∧
    (∀ t, bulk.machine.Later s t → ∀ handle l, s.store.fence handle.batchId = some l →
      l.handle ≠ handle.fence → handle.generation ≤ l.handle.generation →
      ∀ now, ¬ t.store.Owns handle now) ∧
    (∀ t i c batch token b handle, s.workers[i]? = some (.admitDelivery batch token) →
      bulk.machine.step s (.act i c) = some t → t.workers[i]? = some (.process b handle) →
      BatchLeaseService.Admitted (s.store.fence batch) handle (c.clock.headD 0)) ∧
    (∀ t i c p batch handle, s.workers[i]? = some p →
      p = .process batch handle ∨ p = .release handle →
      ¬ s.store.Owns handle (c.clock.headD 0) → bulk.machine.step s (.act i c) = some t →
      t.store = s.store) ∧
    (∀ d₁ ∈ s.store.decisions.rows, ∀ d₂ ∈ s.store.decisions.rows, d₁.batch = d₂.batch →
      d₁.fingerprint = d₂.fingerprint → d₁ = d₂) ∧
    ∀ pk, (s.store.decisionAudits pk).length ≤ 1 := by
  refine ⟨?_, ?_, ?_, ?_, ?_, ?_, fun pk => (audited_of_reachable h pk).1⟩
  · rintro now h₁ h₂ ⟨l₁, hl₁, ha₁⟩ ⟨l₂, hl₂, ha₂⟩ hbatch
    rw [hbatch, hl₂, Option.some.injEq] at hl₁
    subst hl₁
    have hfence := ha₁.unique ha₂
    cases h₁
    cases h₂
    simp_all [BatchLeaseHandle.fence]
  · intro t ht batch l hl
    have hmoves := later_moves ht batch
    rw [hl] at hmoves
    exact hmoves.succeeds
  · rintro t ht handle l hl hne hle now ⟨l', hl', hadmits⟩
    have hmoves := later_moves ht handle.batchId
    rw [hl, hl'] at hmoves
    exact hmoves.not_admits hne hle hadmits
  · intro t i c batch token b handle hp hstep hq
    obtain ⟨st, q, hact, -, hq'⟩ := Program.step_act hp hstep
    obtain rfl : BulkWorker.process b handle = q := Option.some.inj (hq.symm.trans hq')
    have hact' : BulkWorker.admission batch token c.clock s.store = (st, .process b handle) := by
      simpa [bulk, BulkWorker.act] using hact
    exact ((BulkWorker.admission_cases batch token c.clock s.store).2 b handle
      (congrArg Prod.snd hact')).2.2.2
  · intro t i c p batch handle hp hcases hstale hstep
    obtain ⟨st, q, hact, ht, -⟩ := Program.step_act hp hstep
    rw [ht]
    exact BulkWorker.act_stale hcases hstale hact
  · intro d₁ hd₁ d₂ hd₂ hbatch hdigest
    exact Table.eq_of_clash (i := GovStackBatchDecision.batchFingerprint) (.head _) hd₁ hd₂
      ⟨Option.some_ne_none _, by simp [GovStackBatchDecision.batchFingerprint, hbatch, hdigest]⟩

/-- A delivery is paused after its admission; its lease runs out and another one takes over. -/
def overtaken : Pool.State BulkStore BulkWorker :=
  bulk.machine.final ⟨{}, []⟩ [
    .env (.receiveBatch "r" "s" "b" [⟨"i", "p", 100, "CAD"⟩] "" ""),
    .spawn (.admitDelivery 1 "first"), .act 0 ⟨[0, 0], ⟨false, ⟨"0.25", fun _ _ => false⟩, false⟩⟩,
    .spawn (.admitDelivery 1 "second"),
    .act 1 ⟨[minutes 6, minutes 6], ⟨false, ⟨"0.25", fun _ _ => false⟩, false⟩⟩]

theorem overtaken_reachable : bulk.machine.Reachable overtaken :=
  Machine.Reachable.final (M := bulk.machine) ⟨⟨rfl, rfl, rfl, rfl, by simp⟩, rfl⟩ _

theorem batch_lease_fences_overtaken :
    overtaken.workers = [.process 1 ⟨1, "first", 1⟩, .process 1 ⟨1, "second", 2⟩] ∧
      ∀ c t, c.clock = [minutes 7] → bulk.machine.step overtaken (.act 0 c) = some t →
        t.store = overtaken.store := by
  have hworkers : overtaken.workers = [.process 1 ⟨1, "first", 1⟩, .process 1 ⟨1, "second", 2⟩] ∧
      ¬ overtaken.store.Owns ⟨1, "first", 1⟩ (minutes 7) := by decide +kernel
  refine ⟨hworkers.1, fun c t hclock hstep => ?_⟩
  refine (batch_lease_fences overtaken_reachable).2.2.2.2.1 t 0 c _ 1 ⟨1, "first", 1⟩ ?_ (.inl rfl)
    ?_ hstep
  · rw [hworkers.1]
    rfl
  · rw [hclock]
    exact hworkers.2

end Civicos.Payments
