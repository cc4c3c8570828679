import Civicos.Payments.BatchApart
import Civicos.Library.Grouping

/-!
# The callbacks of batch decisions

A decision is new when its inputs are, a callback when its payload is. The payload of a decision
carries nothing of it but the action, so that a batch announces each action once.
-/
namespace Civicos.Payments

open Library Library.Transaction Session PaymentLifecycleService

/-! ## Announcements -/

/-- `decision.outcome_action.upper()` with the identity of its batch -/
def announcementPayload (b : BatchView) (action : OutcomeAction) : Json :=
  [("RequestID", .str b.requestId), ("BatchID", .str b.batchId),
    ("Status", .str (BulkTask.actionText action))]

def announcementHash (b : BatchView) (action : OutcomeAction) : Digest Json :=
  fingerprint (announcementPayload b action)

/-- No other task sends a payload with these three keys. -/
def isAnnouncement : Digest Json → Bool
  | .sha256 [("RequestID", _), ("BatchID", _), ("Status", _)] => true
  | _ => false

/-- The payload names the batch. -/
def BatchView.announcedBy (b : BatchView) : Digest Json → Bool
  | .sha256 [("RequestID", r), ("BatchID", c), ("Status", _)] =>
    r = .str b.requestId ∧ c = .str b.batchId
  | _ => false

/-- The announcements that were enqueued, each with its attempt -/
def Ledger.announcements (l : Ledger) : List (Uuid × Digest Json) :=
  (l.callbacks.rows.map fun d => (d.attempt, d.payloadHash)).filter fun p => isAnnouncement p.2

namespace BulkStore

/-- The announcements of a batch, in the order in which they were enqueued -/
def announcementsOf (db : BulkStore) (b : BatchView) : List (Digest Json) :=
  (db.ledger.announcements.map Prod.snd).filter fun h => b.announcedBy h

/-- What the decisions on a batch would announce, in the order in which they were recorded -/
def decisionsOf (db : BulkStore) (b : BatchView) : List (Digest Json) :=
  (db.decisions.rows.filter fun d => d.batch = b.pk).map fun d => announcementHash b d.outcomeAction

end BulkStore

variable {b c : BatchView} {action action' : OutcomeAction}

theorem isAnnouncement_hash (b : BatchView) (action : OutcomeAction) :
    isAnnouncement (announcementHash b action) = true := rfl

theorem announcedBy_hash : b.announcedBy (announcementHash c action) = true ↔
    c.requestId = b.requestId ∧ c.batchId = b.batchId := by
  simp [BatchView.announcedBy, announcementHash, announcementPayload, fingerprint]

theorem actionText_inj (h : BulkTask.actionText action = BulkTask.actionText action') :
    action = action' := by
  revert h
  cases action <;> cases action' <;> decide

theorem announcementHash_inj :
    announcementHash b action = announcementHash b action' ↔ action = action' := by
  refine ⟨fun h => ?_, congrArg _⟩
  simp only [announcementHash, announcementPayload, fingerprint, Digest.sha256.injEq,
    List.cons.injEq, Prod.mk.injEq, Value.str.injEq] at h
  exact actionText_inj h.2.2.1.2

/-! ## What announces nothing -/

namespace Ledger

/-- No callback is enqueued, and attempts keep their keys. -/
structure Mute (l l' : Ledger) : Prop where
  callbacks : l'.callbacks = l.callbacks
  attempts : ∀ a ∈ l.attempts.rows, ∃ a' ∈ l'.attempts.rows, a'.pk = a.pk ∧ a'.scopeKey = a.scopeKey

namespace Mute

variable {l l' : Ledger}

instance : Std.Refl Mute := ⟨fun _ => ⟨rfl, fun a ha => ⟨a, ha, rfl, rfl⟩⟩⟩

instance : IsTrans Ledger Mute where
  trans _ _ _ h h' := by
    refine ⟨h'.callbacks.trans h.callbacks, fun a ha => ?_⟩
    obtain ⟨a₁, ha₁, hpk₁, hkey₁⟩ := h.attempts a ha
    obtain ⟨a₂, ha₂, hpk₂, hkey₂⟩ := h'.attempts a₁ ha₁
    exact ⟨a₂, ha₂, hpk₂.trans hpk₁, hkey₂.trans hkey₁⟩

theorem of_grown {new : List PaymentAttempt} (hcallbacks : l'.callbacks = l.callbacks)
    (hrows : l'.attempts.rows = l.attempts.rows ++ new) : Mute l l' := by
  refine ⟨hcallbacks, fun a ha => ⟨a, ?_, rfl, rfl⟩⟩
  rw [hrows]
  exact List.mem_append_left _ ha

theorem of_views (hcallbacks : l'.callbacks = l.callbacks)
    (hviews : l'.attempts.rows.map PaymentAttempt.view = l.attempts.rows.map PaymentAttempt.view) :
    Mute l l' := by
  refine ⟨hcallbacks, fun a ha => ?_⟩
  have hmem : a.view ∈ l'.attempts.rows.map PaymentAttempt.view := hviews ▸ List.mem_map_of_mem ha
  obtain ⟨a', ha', hsame⟩ := List.mem_map.mp hmem
  exact ⟨a', ha', congrArg AttemptView.pk hsame, congrArg AttemptView.key hsame⟩

theorem getLocked (pk : Uuid) : Within Mute (PaymentAttempt.getLocked pk) := by
  intro l a l' h
  obtain ⟨-, rfl⟩ := PaymentAttempt.getLocked_ok.mp h
  exact Std.Refl.refl l'

theorem applyOutcome (pk : Uuid) (outcome : PaymentOutcome) (now : Instant) :
    Within Mute (PaymentLifecycleService.applyOutcome pk outcome now) := by
  intro l a l' h
  obtain ⟨a₀, hget, ⟨-, -, rfl⟩ | ⟨-, -, due, T, audits, rfl, hupdate, rfl⟩⟩ := applyOutcome_ok h
  · exact Std.Refl.refl l'
  · exact of_views rfl (Table.map_update_of_get hupdate hget rfl)

theorem getOrCreateAttempt (tenantId operation requestId : String) (payload : Json)
    (defaults : PaymentAttempt.Defaults) (auditCreated : Bool) : Within Mute
      (PaymentLifecycleService.getOrCreateAttempt tenantId operation requestId payload defaults
        auditCreated) := by
  rintro l ⟨a, created⟩ l' h
  obtain ⟨-, rfl, -⟩ | ⟨-, -, -, T, hinsert, rfl⟩ := getOrCreateAttempt_ok h
  · exact Std.Refl.refl l'
  · exact of_grown rfl (Table.insert_ok.mp hinsert).2

end Mute

end Ledger

/-- Nothing is announced, and batches keep what they are announced by. -/
structure Session.Silent (s t : Session) : Prop where
  ledger : s.ledger.Mute t.ledger
  batches : t.batches.rows.map BulkPaymentBatch.view = s.batches.rows.map BulkPaymentBatch.view

/-- Besides nothing is decided. -/
structure Session.Undecided (s t : Session) : Prop extends Session.Silent s t where
  decisions : t.decisions = s.decisions

namespace Session.Undecided

variable {s t : Session} {handle : BatchLeaseHandle}

instance : Std.Refl Silent := ⟨fun _ => ⟨Std.Refl.refl _, rfl⟩⟩

instance : Std.Refl Undecided := ⟨fun _ => ⟨Std.Refl.refl _, rfl⟩⟩

instance : IsTrans Session Silent where
  trans _ _ _ h h' := ⟨IsTrans.trans _ _ _ h.ledger h'.ledger, h'.batches.trans h.batches⟩

instance : IsTrans Session Undecided where
  trans _ _ _ h h' :=
    ⟨IsTrans.trans _ _ _ h.toSilent h'.toSilent, h'.decisions.trans h.decisions⟩

theorem of_renews (h : BatchLeaseService.Renews s t) : Undecided s t := by
  rw [h.frame]
  exact ⟨⟨Std.Refl.refl s.ledger, rfl⟩, rfl⟩

theorem timezoneNow : Within Undecided Session.timezoneNow := by
  rintro s _ _ ⟨⟩
  exact of_renews ⟨rfl, fun _ => .refl⟩

theorem assertCurrentOwner : Within Undecided (BatchLeaseService.assertCurrentOwner handle) :=
  fun _ _ _ h => of_renews (BatchLeaseService.assertCurrentOwner_ok h).2

theorem heartbeat : Within Undecided (BatchLeaseService.heartbeat handle) :=
  fun _ _ _ h => of_renews (BatchLeaseService.heartbeat_ok h).2

theorem zoom {α : Type} {x : Tx α} (hx : Within Ledger.Mute x) :
    Within Undecided (Transaction.zoom ledgerPart x) :=
  hx.zoom fun _ _ hl => ⟨⟨hl, rfl⟩, rfl⟩

theorem lookup {α : Type} {S : Schema α} {ℓ : Lens Session (Table S)} (e : PaymentError) (k : ℕ) :
    Within Undecided (Transaction.lookup ℓ e k) := by
  intro s a t h
  obtain ⟨-, rfl⟩ := lookup_ok.mp h
  exact Std.Refl.refl t

theorem writeInstruction (k : ℕ) (f : CreditInstruction → CreditInstruction) :
    Within Undecided (write instructionTable PaymentError.ofViolation k f) := by
  intro s u t h
  obtain ⟨T, -, rfl⟩ := write_ok.mp h
  exact ⟨⟨Std.Refl.refl s.ledger, rfl⟩, rfl⟩

end Session.Undecided

namespace BulkTask

variable {settings : BulkSettings} {batch : BulkPaymentBatch} {handle : BatchLeaseHandle}
  {s t : Session}

/-! ### The loop over the instructions -/

theorem applyFenced_undecided (attempt : Uuid) (outcome : PaymentOutcome) :
    Within Undecided (applyFenced handle attempt outcome) :=
  .bind Undecided.assertCurrentOwner fun _ => .bind Undecided.timezoneNow fun _ =>
    .bind (Undecided.zoom (Ledger.Mute.applyOutcome _ _ _)) fun _ => .pure _

theorem recordBulkInstructionLifecycle_undecided (i : CreditInstruction) (found : Bool) :
    Within Undecided (recordBulkInstructionLifecycle settings batch i found handle) := by
  refine .bind Undecided.assertCurrentOwner fun _ =>
    .bind (Undecided.zoom (Ledger.Mute.getOrCreateAttempt _ _ _ _ _ _)) fun r => ?_
  obtain ⟨attempt, created⟩ := r
  refine .ite (fun _ => .ite (fun _ => ?_) fun _ => ?_) fun _ => ?_
  · exact .bind Undecided.assertCurrentOwner fun _ => .pure _
  · exact .bind (applyFenced_undecided _ _) fun _ => .pure _
  · exact .bind (applyFenced_undecided _ _) fun _ => .pure _

theorem bindCreditInstructionAttempt_undecided (pk attempt : Uuid) :
    Within Undecided (bindCreditInstructionAttempt pk attempt) := by
  refine .bind (Undecided.lookup _ _) fun i => .bind (Undecided.zoom (Ledger.Mute.getLocked _))
    fun a => .bind (Undecided.lookup _ _) fun b => ?_
  refine .ite (fun _ => .throw_bind _) fun _ => ?_
  cases i.paymentAttempt with
  | none => exact .bind (Undecided.writeInstruction _ _) fun _ => .pure _
  | some pk => exact .ite (fun _ => .throw_bind _) fun _ => .pure _

theorem bind_undecided (i : CreditInstruction) :
    Within Undecided (bind settings batch handle i) := by
  unfold bind
  cases i.paymentAttempt with
  | some pk => exact .pure _
  | none =>
    exact .get fun s => .bind (recordBulkInstructionLifecycle_undecided _ _) fun _ =>
      .bind Undecided.assertCurrentOwner fun _ => bindCreditInstructionAttempt_undecided _ _

theorem materialize_undecided (pk : Uuid) :
    Within Undecided (materializeCreditInstructionFinality pk) := by
  refine .bind (Undecided.lookup _ _) fun i => .bind (Undecided.lookup _ _) fun b => ?_
  cases i.paymentAttempt with
  | none => exact .pure _
  | some pk =>
    exact .bind (Undecided.zoom (Ledger.Mute.getLocked _)) fun _ => .get fun _ => .pure _

theorem saveStatus_undecided (pk : Uuid) (status : InstructionStatus) (failureReason : String) :
    Within Undecided (saveStatus handle pk status failureReason) :=
  .bind Undecided.assertCurrentOwner fun _ => Undecided.writeInstruction _ _

theorem project_undecided (tally : Tally) (i : CreditInstruction)
    (finality : AuthoritativeChildFinality) :
    Within Undecided (project handle tally i finality) := by
  have hsave {c : Prop} [Decidable c] {status : InstructionStatus} {text : String} {r : Tally} :
      Within Undecided (do
        if c then saveStatus handle i.pk status text
        return r) :=
    .ite (fun _ => .bind (saveStatus_undecided _ _ _) fun _ => .pure _) fun _ => .pure _
  exact .ite (fun _ => hsave) fun _ => .ite (fun _ => hsave) fun _ => .get fun _ => hsave

theorem processInstruction_undecided (tally : Tally) (i : CreditInstruction) :
    Within Undecided (processInstruction settings batch handle tally i) := by
  refine .bind Undecided.heartbeat fun _ => .bind Undecided.assertCurrentOwner fun _ =>
    .ite (fun _ => .pure _) fun _ => .bind (bind_undecided i) fun j =>
      .bind (materialize_undecided _) fun _ => project_undecided _ _ _

theorem processInstructions_undecided (is : List CreditInstruction) (tally : Tally) :
    Within Undecided (processInstructions settings batch handle is tally) := by
  induction is generalizing tally with
  | nil => exact .pure _
  | cons i is ih => exact .bind (processInstruction_undecided _ _) fun tally => ih tally

/-! ### The decision and its projection -/

theorem createOrReplay_silent (pk : Uuid) (fingerprint : Digest DecisionInputs)
    (row : Uuid → GovStackBatchDecision) :
    Within Silent (BatchDecisionService.createOrReplay pk fingerprint row) := by
  refine exceptIntegrityError_within (.bind ?_ fun _ => .pure _) (.get fun s => ?_)
  · intro s d t h
    obtain ⟨-, T, -, rfl⟩ := create_ok.mp h
    exact ⟨Std.Refl.refl s.ledger, rfl⟩
  · cases s.decisionFor pk fingerprint with
    | some d => exact .pure _
    | none => exact .throw _

theorem decide_silent (pk : Uuid) (items : List ChildItem) (threshold : Threshold)
    (returnFunds : Bool) :
    Within Silent (BatchDecisionService.decide pk handle items threshold returnFunds) := by
  have hassert : Within Silent (BatchLeaseService.assertCurrentOwner handle) :=
    Undecided.assertCurrentOwner.mono fun _ _ h => h.toSilent
  unfold BatchDecisionService.decide
  refine .ite (fun _ => .throw_bind _) fun _ => .bind hassert fun _ => .get fun s => ?_
  split
  · exact .throw _
  split
  · exact .pure _
  · exact createOrReplay_silent _ _ _

theorem projectDecision_undecided (pk : Uuid) (tally : Tally) (d : GovStackBatchDecision) :
    Within Undecided (projectDecision pk handle tally d) := by
  unfold projectDecision
  refine .ite (fun _ => .throw_bind _) fun _ =>
    .bind (.ite (fun _ => .bind Undecided.timezoneNow fun _ => .pure _) fun _ => .pure _) fun _ =>
      .bind Undecided.assertCurrentOwner fun _ => ?_
  intro s u t h
  obtain ⟨T, hupdate, rfl⟩ := write_ok.mp h
  exact ⟨⟨Std.Refl.refl s.ledger, Table.map_update hupdate fun _ => rfl⟩, rfl⟩

/-! ### The announcement -/

/-- The callback of a decision was enqueued for this attempt, or its payload had been before. -/
structure Announces (batch : BatchView) (action : OutcomeAction) (attempt : Uuid) (s t : Session) :
    Prop where
  batches : t.batches.rows.map BulkPaymentBatch.view = s.batches.rows.map BulkPaymentBatch.view
  attempts : ∀ a ∈ s.ledger.attempts.rows,
    ∃ a' ∈ t.ledger.attempts.rows, a'.pk = a.pk ∧ a'.scopeKey = a.scopeKey
  own : ∃ a ∈ t.ledger.attempts.rows,
    a.pk = attempt ∧ a.scopeKey = announceKey batch.requestId batch.batchId
  enqueued : (t.ledger.callbacks = s.ledger.callbacks ∧ ∃ d ∈ s.ledger.callbacks.rows,
      d.attempt = attempt ∧ d.payloadHash = announcementHash batch action) ∨
    ∃ d, t.ledger.callbacks.rows = s.ledger.callbacks.rows ++ [d] ∧ d.attempt = attempt ∧
      d.payloadHash = announcementHash batch action ∧ ∀ e ∈ s.ledger.callbacks.rows,
        e.attempt = attempt → e.payloadHash ≠ announcementHash batch action

theorem Announces.after {batch : BatchView} {action : OutcomeAction} {attempt : Uuid} {u : Session}
    (h : Announces batch action attempt u t) (hs : Silent s u) :
    Announces batch action attempt s t := by
  refine ⟨h.batches.trans hs.batches, fun a ha => ?_, h.own, ?_⟩
  · obtain ⟨a₁, ha₁, hpk₁, hkey₁⟩ := hs.ledger.attempts a ha
    obtain ⟨a₂, ha₂, hpk₂, hkey₂⟩ := h.attempts a₁ ha₁
    exact ⟨a₂, ha₂, hpk₂.trans hpk₁, hkey₂.trans hkey₁⟩
  · rw [← hs.ledger.callbacks]
    exact h.enqueued

theorem mem_of_getOrCreateAttempt {l l' : Ledger} {a : PaymentAttempt} {created auditCreated : Bool}
    {tenantId operation requestId : String} {payload : Json} {defaults : PaymentAttempt.Defaults}
    (h : getOrCreateAttempt tenantId operation requestId payload defaults auditCreated l =
      .ok ((a, created), l')) :
    a ∈ l'.attempts.rows ∧ a.scopeKey = attemptKey tenantId operation requestId := by
  obtain ⟨-, rfl, hrow, hkey, -⟩ | ⟨-, rfl, -, T, hinsert, rfl⟩ := getOrCreateAttempt_ok h
  · exact ⟨hrow, hkey⟩
  · refine ⟨?_, rfl⟩
    simp [(Table.insert_ok.mp hinsert).2]

theorem announce_ok {d : GovStackBatchDecision} {u : Unit}
    (h : announce batch handle d s = .ok (u, t)) : t.decisions = s.decisions ∧
      ∃ attempt, Announces batch.view d.outcomeAction attempt s t := by
  obtain ⟨_, s₁, hassert, h₁⟩ := bind_ok.mp h
  obtain ⟨⟨a, created⟩, s₂, hattempt, h₂⟩ := bind_ok.mp h₁
  obtain ⟨_, s₃, hassert', h₃⟩ := bind_ok.mp h₂
  obtain ⟨now, s₄, hnow, h₄⟩ := bind_ok.mp h₃
  obtain ⟨⟨row, fresh⟩, s₅, hqueue, hreturn⟩ := bind_ok.mp h₄
  obtain ⟨-, rfl⟩ := pure_ok.mp hreturn
  have h₀₁ : Undecided s s₁ := Undecided.assertCurrentOwner _ _ _ hassert
  have h₁₂ : Undecided s₁ s₂ :=
    Undecided.zoom (Ledger.Mute.getOrCreateAttempt _ _ _ _ _ _) _ _ _ hattempt
  have h₂₃ : Undecided s₂ s₃ := Undecided.assertCurrentOwner _ _ _ hassert'
  have h₃₄ : Undecided s₃ s₄ := Undecided.timezoneNow _ _ _ hnow
  have hlater : Undecided s₂ s₄ := IsTrans.trans _ _ _ h₂₃ h₃₄
  have hquiet : Undecided s s₄ := IsTrans.trans _ _ _ (IsTrans.trans _ _ _ h₀₁ h₁₂) hlater
  obtain ⟨a', ha', hpk, hkey⟩ : ∃ a' ∈ s₄.ledger.attempts.rows, a'.pk = a.pk ∧
      a'.scopeKey = announceKey batch.requestId batch.batchId := by
    obtain ⟨l, hl, rfl⟩ := zoom_ok.mp hattempt
    obtain ⟨hrow, hkey⟩ := mem_of_getOrCreateAttempt hl
    obtain ⟨a', ha', hpk', hkey'⟩ := hlater.ledger.attempts a hrow
    exact ⟨a', ha', hpk', hkey'.trans hkey⟩
  obtain ⟨l, hl, rfl⟩ := zoom_ok.mp hqueue
  obtain ⟨d', created', l', hrun, hcases⟩ := queueCallback_ok a batch.callbackUrl
    (announcementPayload batch.view d.outcomeAction) now s₄.ledger
  obtain ⟨⟨rfl, rfl⟩, rfl⟩ : (d' = row ∧ created' = fresh) ∧ l' = l := by
    have hsame := hrun.symm.trans hl
    simpa using hsame
  refine ⟨hquiet.decisions, a.pk, ?_⟩
  rcases hcases with ⟨-, rfl, hrow, hattempt', hhash⟩ | ⟨-, rfl, T, hinsert, rfl⟩
  · refine ⟨hquiet.batches, hquiet.ledger.attempts, ⟨a', ha', hpk, hkey⟩, .inl ?_⟩
    exact ⟨hquiet.ledger.callbacks, d', hquiet.ledger.callbacks ▸ hrow, hattempt', hhash⟩
  · obtain ⟨⟨-, hapart⟩, hrows⟩ := Table.insert_ok.mp hinsert
    rw [hquiet.ledger.callbacks] at hrows hapart
    refine ⟨hquiet.batches, hquiet.ledger.attempts, ⟨a', ha', hpk, hkey⟩, .inr ?_⟩
    refine ⟨_, hrows, rfl, rfl, fun e he hown hhash => ?_⟩
    refine (hapart e he).2 CallbackDelivery.attemptPayload (by simp [CallbackDelivery.schema]) ?_
    refine ⟨by simp [CallbackDelivery.attemptPayload], ?_⟩
    simp only [CallbackDelivery.attemptPayload, hown, hhash]
    rfl

/-! ### The transaction -/

/-- A processed batch is as decided as before, or a new decision was recorded and announced. -/
inductive Outcome (batch : BatchView) (s t : Session) : Prop where
  | unchanged (quiet : Undecided s t)
  | decided (d : GovStackBatchDecision) (own : d.batch = batch.pk)
      (decisions : t.decisions.rows = s.decisions.rows ++ [d])
      (silent : batch.announced = false → Silent s t)
      (announces : batch.announced = true → ∃ attempt,
        Announces batch d.outcomeAction attempt s t)

/-- A new decision is recorded and, if somebody waits for it, announced. -/
theorem record_outcome {d : GovStackBatchDecision} {u : Unit}
    (h : record batch handle d true s = .ok (u, t)) : t.decisions = s.decisions ∧
      (batch.view.announced = false → Silent s t) ∧
      (batch.view.announced = true →
        ∃ attempt, Announces batch.view d.outcomeAction attempt s t) := by
  obtain ⟨_, s₁, hassert, h₁⟩ := bind_ok.mp h
  obtain ⟨_, s₂, haudit, h₂⟩ := bind_ok.mp h₁
  have h₀₁ : Undecided s s₁ := Undecided.assertCurrentOwner _ _ _ hassert
  have h₁₂ : Undecided s₁ s₂ := by
    cases haudit
    exact ⟨⟨⟨rfl, fun a ha => ⟨a, ha, rfl, rfl⟩⟩, rfl⟩, rfl⟩
  have h₀₂ : Undecided s s₂ := IsTrans.trans _ _ _ h₀₁ h₁₂
  split at h₂
  next hurl =>
    obtain ⟨hdecisions, attempt, hannounces⟩ := announce_ok h₂
    refine ⟨hdecisions.trans h₀₂.decisions, fun hsilent => ?_, fun _ => ⟨attempt, ?_⟩⟩
    · exact absurd hurl (of_decide_eq_false hsilent)
    · exact hannounces.after h₀₂.toSilent
  next hurl =>
    obtain ⟨-, rfl⟩ := pure_ok.mp h₂
    exact ⟨h₀₂.decisions, fun _ => h₀₂.toSilent, fun hloud => absurd (of_decide_eq_true hloud) hurl⟩

theorem processBatch_outcome {pk : Uuid} {x : Unit}
    (h : processBatch settings pk handle s = .ok (x, t)) :
    ∃ b, s.batches.get pk = some b ∧ Outcome b.view s t := by
  obtain ⟨b, s₀, hlock, h₁⟩ := bind_ok.mp h
  obtain ⟨rfl, hb⟩ := lockBatch_ok hlock
  obtain rfl : b.pk = pk := Table.pk_of_get hb
  obtain ⟨_, s₁, hassert, h₂⟩ := bind_ok.mp h₁
  refine ⟨b, hb, ?_⟩
  have h₀₁ : Undecided s₀ s₁ := Undecided.assertCurrentOwner _ _ _ hassert
  split at h₂
  next =>
    obtain ⟨_, s₂, hheart, h₃⟩ := bind_ok.mp h₂
    obtain ⟨_, _, hget, h₄⟩ := bind_ok.mp h₃
    cases hget
    obtain ⟨tally, s₃, hloop, h₅⟩ := bind_ok.mp h₄
    obtain ⟨_, s₄, hassert', h₆⟩ := bind_ok.mp h₅
    obtain ⟨⟨d, created⟩, s₅, hdecide, h₇⟩ := bind_ok.mp h₆
    obtain ⟨_, s₆, hproject, hrecord⟩ := bind_ok.mp h₇
    have h₁₂ : Undecided s₁ s₂ := Undecided.heartbeat _ _ _ hheart
    have h₂₃ : Undecided s₂ s₃ := processInstructions_undecided _ _ _ _ _ hloop
    have h₃₄ : Undecided s₃ s₄ := Undecided.assertCurrentOwner _ _ _ hassert'
    have h₀₄ : Undecided s₀ s₄ :=
      IsTrans.trans _ _ _ (IsTrans.trans _ _ _ h₀₁ h₁₂) (IsTrans.trans _ _ _ h₂₃ h₃₄)
    have h₄₅ : Silent s₄ s₅ := decide_silent _ _ _ _ _ _ _ hdecide
    have h₅₆ : Undecided s₅ s₆ := projectDecision_undecided _ _ _ _ _ _ hproject
    obtain ⟨u, -, -, hdecides⟩ := decide_ok hdecide
    have h₀₆ : Silent s₀ s₆ :=
      IsTrans.trans _ _ _ h₀₄.toSilent (IsTrans.trans _ _ _ h₄₅ h₅₆.toSilent)
    cases created with
    | false =>
      obtain ⟨-, rfl⟩ := pure_ok.mp hrecord
      have hsame : s₅.decisions = s₄.decisions := hdecides.of_replayed
      exact .unchanged ⟨h₀₆, h₅₆.decisions.trans (hsame.trans h₀₄.decisions)⟩
    | true =>
      obtain ⟨hd, hinsert⟩ := hdecides.of_created
      obtain ⟨hdecisions, hsilent, hannounces⟩ := record_outcome hrecord
      refine .decided d (hd ▸ rfl) ?_ (fun hquiet => ?_) fun hloud => ?_
      · rw [hdecisions, h₅₆.decisions, (Table.insert_ok.mp hinsert).2, h₀₄.decisions]
      · exact IsTrans.trans _ _ _ h₀₆ (hsilent hquiet)
      · obtain ⟨attempt, h⟩ := hannounces hloud
        exact ⟨attempt, h.after h₀₆⟩
  next =>
    obtain ⟨-, rfl⟩ := pure_ok.mp h₂
    exact .unchanged h₀₁

end BulkTask

/-! ## The system -/

/-- As `writeApart`; nobody else enqueues announcements. -/
def BulkWriter.writeUnannounced (db : BulkStore) : BulkWriter → Option BulkStore
  | ledger l =>
    if l.announcements = db.ledger.announcements then (ledger l).writeApart db else none
  | x => x.write db

/-- As `bulk`, from a ledger without announcements. -/
def bulkAnnouncing : Program BulkStore BulkWorker BulkChoice BulkWriter where
  Init db := bulk.Init db ∧ db.ledger.announcements = []
  entry := bulk.entry
  halted := bulk.halted
  act := bulk.act
  env := BulkWriter.writeUnannounced

namespace BulkStore

/-- A batch has announced the distinct payloads of its decisions, through its own attempt. -/
structure Heard (db : BulkStore) : Prop where
  known : ∀ d ∈ db.decisions.rows, ∃ b ∈ db.view.batches, b.pk = d.batch
  told : ∀ p ∈ db.ledger.announcements, ∃ b ∈ db.view.batches, b.announcedBy p.2 = true ∧
    ∃ a ∈ db.ledger.attempts.rows, a.pk = p.1 ∧ a.scopeKey = announceKey b.requestId b.batchId
  heard : ∀ b ∈ db.view.batches, b.announced = true →
    db.announcementsOf b = (db.decisionsOf b).eraseDups

variable {db : BulkStore} {b c : BatchView} {digest : Digest Json} {action : OutcomeAction}

theorem eq_of_view_pk (hb : b ∈ db.view.batches) (hc : c ∈ db.view.batches) (h : b.pk = c.pk) :
    b = c := by
  obtain ⟨x, hx, rfl⟩ := List.mem_map.mp hb
  obtain ⟨y, hy, rfl⟩ := List.mem_map.mp hc
  exact congrArg _ (Table.eq_of_pk hx hy h)

theorem eq_of_view_batchId (hb : b ∈ db.view.batches) (hc : c ∈ db.view.batches)
    (h : b.batchId = c.batchId) : b = c := by
  obtain ⟨x, hx, rfl⟩ := List.mem_map.mp hb
  obtain ⟨y, hy, rfl⟩ := List.mem_map.mp hc
  refine congrArg _ (Table.eq_of_clash (i := BulkPaymentBatch.uniqueBatchId) ?_ hx hy ⟨?_, ?_⟩)
  · simp [BulkPaymentBatch.schema]
  · simp [BulkPaymentBatch.uniqueBatchId]
  · exact congrArg some h

theorem mem_announcements {attempt : Uuid} : (attempt, digest) ∈ db.ledger.announcements ↔
    isAnnouncement digest = true ∧
      ∃ d ∈ db.ledger.callbacks.rows, d.attempt = attempt ∧ d.payloadHash = digest := by
  simp only [Ledger.announcements, List.mem_filter, List.mem_map, Prod.mk.injEq]
  exact and_comm

theorem mem_announcementsOf : digest ∈ db.announcementsOf b ↔
    b.announcedBy digest = true ∧ ∃ attempt, (attempt, digest) ∈ db.ledger.announcements := by
  simp [announcementsOf, and_comm]

theorem mem_decisionsOf : announcementHash b action ∈ db.decisionsOf b ↔
    ∃ e ∈ db.decisions.rows, e.batch = b.pk ∧ e.outcomeAction = action := by
  simp [decisionsOf, announcementHash_inj, and_assoc]

end BulkStore

theorem announcedBy_unique {b c : BatchView} {digest : Digest Json}
    (hb : b.announcedBy digest = true) (hc : c.announcedBy digest = true) :
    b.requestId = c.requestId ∧ b.batchId = c.batchId := by
  unfold BatchView.announcedBy at hb hc
  split at hb
  · simp only [decide_eq_true_eq] at hb hc
    obtain ⟨rfl, rfl⟩ := hb
    simpa using hc
  · cases hb

/-! ## What is heard of a batch -/

open BulkTask BulkStore

section Heard

variable {s t : Session} {batch b : BatchView} {d : GovStackBatchDecision} {attempt : Uuid}
  {action : OutcomeAction}

theorem Session.Silent.announcements (h : Silent s t) :
    t.ledger.announcements = s.ledger.announcements := by
  unfold Ledger.announcements
  rw [h.ledger.callbacks]

theorem Session.Silent.view_batches (h : Silent s t) :
    t.toBulkStore.view.batches = s.toBulkStore.view.batches := h.batches

/-- What was told is still told when attempts and batches stay. -/
theorem BulkStore.Heard.told_of_silent (hs : s.Heard) (h : Silent s t) :
    ∀ p ∈ t.ledger.announcements, ∃ b ∈ t.view.batches, b.announcedBy p.2 = true ∧
      ∃ a ∈ t.ledger.attempts.rows,
        a.pk = p.1 ∧ a.scopeKey = announceKey b.requestId b.batchId := by
  intro p hp
  rw [h.announcements] at hp
  obtain ⟨b, hb, hby, a, ha, hpk, hkey⟩ := hs.told p hp
  obtain ⟨a', ha', hpk', hkey'⟩ := h.ledger.attempts a ha
  exact ⟨b, h.view_batches ▸ hb, hby, a', ha', hpk'.trans hpk, hkey'.trans hkey⟩

theorem BulkStore.Heard.of_undecided (hs : s.Heard) (h : Undecided s t) : t.Heard := by
  refine ⟨fun d hd => ?_, hs.told_of_silent h.toSilent, fun b hb hloud => ?_⟩
  · rw [h.decisions] at hd
    obtain ⟨b, hb, hpk⟩ := hs.known d hd
    exact ⟨b, h.view_batches ▸ hb, hpk⟩
  · rw [h.view_batches] at hb
    have heard := hs.heard b hb hloud
    simp only [announcementsOf, decisionsOf, h.toSilent.announcements, h.decisions] at heard ⊢
    exact heard

theorem decisionsOf_concat (hdecisions : t.decisions.rows = s.decisions.rows ++ [d]) :
    t.decisionsOf b = s.decisionsOf b ++
      if d.batch = b.pk then [announcementHash b d.outcomeAction] else [] := by
  unfold decisionsOf
  by_cases hd : d.batch = b.pk <;> simp [hdecisions, hd]

/-- A new decision is known when its batch is. -/
theorem BulkStore.Heard.known_of_decided (hs : s.Heard) (hbatch : batch ∈ s.view.batches)
    (hviews : t.view.batches = s.view.batches) (hown : d.batch = batch.pk)
    (hdecisions : t.decisions.rows = s.decisions.rows ++ [d]) :
    ∀ e ∈ t.decisions.rows, ∃ b ∈ t.view.batches, b.pk = e.batch := by
  intro e he
  rw [hdecisions, List.mem_append, List.mem_singleton] at he
  rw [hviews]
  rcases he with hold | rfl
  · exact hs.known e hold
  · exact ⟨batch, hbatch, hown.symm⟩

/-- A decision on a batch that nobody waits for -/
theorem BulkStore.Heard.of_quiet (hs : s.Heard) (hbatch : batch ∈ s.view.batches)
    (hquiet : batch.announced = false) (h : Silent s t) (hown : d.batch = batch.pk)
    (hdecisions : t.decisions.rows = s.decisions.rows ++ [d]) : t.Heard := by
  refine ⟨hs.known_of_decided hbatch h.view_batches hown hdecisions, hs.told_of_silent h,
    fun b hb hloud => ?_⟩
  rw [h.view_batches] at hb
  have hother : d.batch ≠ b.pk := by
    intro hsame
    rw [eq_of_view_pk hb hbatch (hsame.symm.trans hown), hquiet] at hloud
    cases hloud
  rw [decisionsOf_concat hdecisions, if_neg hother, List.append_nil, ← hs.heard b hb hloud]
  simp only [announcementsOf, h.announcements]

/-- Whether a payload is enqueued depends on the earlier decisions. -/
theorem BulkStore.Heard.enqueued_iff (hs : s.Heard) (hbatch : batch ∈ s.view.batches)
    (hloud : batch.announced = true) (h : Announces batch action attempt s t) :
    (∃ e ∈ s.ledger.callbacks.rows, e.attempt = attempt ∧
      e.payloadHash = announcementHash batch action) ↔
      announcementHash batch action ∈ s.decisionsOf batch := by
  rw [← List.mem_eraseDups, ← hs.heard batch hbatch hloud, mem_announcementsOf]
  constructor
  · intro hrow
    exact ⟨announcedBy_hash.mpr ⟨rfl, rfl⟩, attempt, mem_announcements.mpr
      ⟨isAnnouncement_hash batch action, hrow⟩⟩
  · rintro ⟨hby, other, hmem⟩
    obtain ⟨b, -, hby', a, ha, hpk, hkey⟩ := hs.told _ hmem
    obtain ⟨hrequest, hid⟩ := announcedBy_unique hby' hby
    -- both attempts bear the key of the batch
    obtain ⟨a', ha', hpk', hkey'⟩ := h.attempts a ha
    obtain ⟨x, hx, hxpk, hxkey⟩ := h.own
    have hsame : a' = x := by
      refine Table.eq_of_clash (i := PaymentAttempt.scopeRequest) ?_ ha' hx ⟨?_, ?_⟩
      · simp [PaymentAttempt.schema]
      · simp [PaymentAttempt.scopeRequest]
      · rw [hkey, hrequest, hid] at hkey'
        exact congrArg some (hkey'.trans hxkey.symm)
    have hattempt : other = attempt := by
      rw [← hxpk, ← hsame, hpk']
      exact hpk.symm
    exact hattempt ▸ (mem_announcements.mp hmem).2

/-- The payload is enqueued unless a decision had it before. -/
theorem BulkStore.Heard.announcements_of_announces (hs : s.Heard)
    (hbatch : batch ∈ s.view.batches) (hloud : batch.announced = true)
    (h : Announces batch action attempt s t) : t.ledger.announcements = s.ledger.announcements ++
      if announcementHash batch action ∈ s.decisionsOf batch then []
      else [(attempt, announcementHash batch action)] := by
  have hiff := hs.enqueued_iff hbatch hloud h
  rcases h.enqueued with ⟨hsame, hrow⟩ | ⟨e, hrows, hattempt, hhash, hnew⟩
  · rw [if_pos (hiff.mp hrow), List.append_nil]
    simp only [Ledger.announcements, hsame]
  · have hnone : announcementHash batch action ∉ s.decisionsOf batch := by
      intro hmem
      obtain ⟨e, he, hown, hsame⟩ := hiff.mpr hmem
      exact hnew e he hown hsame
    rw [if_neg hnone]
    simp only [Ledger.announcements, hrows, List.map_append, List.filter_append, List.map_cons,
      List.map_nil, hattempt, hhash]
    rfl

theorem announcementsOf_announces (hs : s.Heard) (hbatch : batch ∈ s.view.batches)
    (hloud : batch.announced = true) (h : Announces batch action attempt s t)
    (hb : b ∈ s.view.batches) : t.announcementsOf b = s.announcementsOf b ++
      if b = batch ∧ announcementHash batch action ∉ s.decisionsOf batch then
        [announcementHash batch action] else [] := by
  have hnames : b.announcedBy (announcementHash batch action) = decide (b = batch) := by
    rw [Bool.eq_iff_iff, announcedBy_hash, decide_eq_true_iff]
    constructor
    · intro hid
      exact eq_of_view_batchId hb hbatch hid.2.symm
    · rintro rfl
      exact ⟨rfl, rfl⟩
  simp only [announcementsOf, hs.announcements_of_announces hbatch hloud h, List.map_append,
    List.filter_append]
  by_cases hold : announcementHash batch action ∈ s.decisionsOf batch
  · simp [hold]
  · by_cases hsame : b = batch
    · simp [hold, hsame, announcedBy_hash]
    · simp [hold, hnames, hsame]

/-- A decision that somebody waits for -/
theorem BulkStore.Heard.of_announces (hs : s.Heard) (hbatch : batch ∈ s.view.batches)
    (hloud : batch.announced = true) (h : Announces batch d.outcomeAction attempt s t)
    (hown : d.batch = batch.pk) (hdecisions : t.decisions.rows = s.decisions.rows ++ [d]) :
    t.Heard := by
  have hviews : t.view.batches = s.view.batches := h.batches
  refine ⟨hs.known_of_decided hbatch hviews hown hdecisions, fun p hp => ?_, fun b hb hb' => ?_⟩
  · rw [hs.announcements_of_announces hbatch hloud h, List.mem_append] at hp
    rcases hp with hold | hnew
    · obtain ⟨b, hb, hby, a, ha, hpk, hkey⟩ := hs.told p hold
      obtain ⟨a', ha', hpk', hkey'⟩ := h.attempts a ha
      exact ⟨b, hviews ▸ hb, hby, a', ha', hpk'.trans hpk, hkey'.trans hkey⟩
    · split at hnew
      · cases hnew
      · obtain rfl := List.mem_singleton.mp hnew
        exact ⟨batch, hviews ▸ hbatch, announcedBy_hash.mpr ⟨rfl, rfl⟩, h.own⟩
  · rw [hviews] at hb
    rw [announcementsOf_announces hs hbatch hloud h hb, decisionsOf_concat hdecisions,
      hs.heard b hb hb']
    by_cases hsame : b = batch
    · subst hsame
      rw [if_pos hown, eraseDups_concat]
      by_cases hold : announcementHash b d.outcomeAction ∈ s.decisionsOf b <;> simp [hold]
    · have hother : d.batch ≠ b.pk := fun hpk =>
        hsame (eq_of_view_pk hb hbatch (hpk.symm.trans hown))
      rw [if_neg hother, if_neg (fun hboth => hsame hboth.1), List.append_nil, List.append_nil]

theorem BulkStore.Heard.of_outcome (hs : s.Heard) (hbatch : batch ∈ s.view.batches)
    (h : Outcome batch s t) : t.Heard := by
  cases h with
  | unchanged quiet => exact hs.of_undecided quiet
  | decided d own decisions silent announces =>
    cases hloud : batch.announced with
    | false => exact hs.of_quiet hbatch hloud (silent hloud) own decisions
    | true =>
      obtain ⟨attempt, h⟩ := announces hloud
      exact hs.of_announces hbatch hloud h own decisions

end Heard

/-! ## Runs -/

section Runs

variable {db db' : BulkStore}

theorem BulkWorker.act_heard {p q : BulkWorker} {c : BulkChoice} (h : act db p c = some (db', q))
    (hdb : db.Heard) : db'.Heard := by
  obtain ⟨rest, hrenews⟩ | ⟨pk, handle, t, rfl, rfl, hok⟩ := act_cases h
  · exact Heard.of_undecided (s := ⟨db, c.clock⟩) (t := ⟨db', rest⟩) hdb (.of_renews hrenews)
  · obtain ⟨b, hb, houtcome⟩ := processBatch_outcome hok
    exact Heard.of_outcome (s := ⟨db, c.clock⟩) hdb (List.mem_map_of_mem (Table.mem_of_get hb))
      houtcome

/-- Nobody has heard of a batch that is new. -/
theorem heard_of_received {s t : Session} {b : BulkPaymentBatch}
    {requestId sourceBbId batchId callbackUrl correlationId : String}
    {items : List GovStackBulkPaymentService.InstructionItem} (hs : s.Heard)
    (h : GovStackBulkPaymentService.receiveBatch requestId sourceBbId batchId items callbackUrl
      correlationId s = .ok (b, t)) : t.Heard := by
  obtain ⟨hpk, -, -, hinsert, -, entry, -, hframe⟩ :=
    GovStackBulkPaymentService.receiveBatch_ok h
  have hdecisions : t.decisions = s.decisions := congrArg (·.decisions) hframe
  have hledger : t.ledger.announcements = s.ledger.announcements :=
    congrArg (·.ledger.announcements) hframe
  have hattempts : t.ledger.attempts = s.ledger.attempts := congrArg (·.ledger.attempts) hframe
  have hviews : t.view.batches = s.view.batches ++ [b.view] := by
    simp [BulkStore.view, (Table.insert_ok.mp hinsert).2]
  have hold (c : BatchView) (hc : c ∈ s.view.batches) : c ∈ t.view.batches ∧ c.pk ≠ b.view.pk := by
    obtain ⟨x, hx, rfl⟩ := List.mem_map.mp hc
    exact ⟨hviews ▸ List.mem_append_left _ hc, (hpk ▸ Table.lt_next hx).ne⟩
  refine ⟨fun d hd => ?_, fun p hp => ?_, fun c hc hloud => ?_⟩
  · rw [hdecisions] at hd
    obtain ⟨c, hc, hown⟩ := hs.known d hd
    exact ⟨c, (hold c hc).1, hown⟩
  · rw [hledger] at hp
    obtain ⟨c, hc, hby, ha⟩ := hs.told p hp
    exact ⟨c, (hold c hc).1, hby, hattempts ▸ ha⟩
  · simp only [announcementsOf, decisionsOf, hledger, hdecisions]
    rcases List.mem_append.mp (hviews ▸ hc) with hc | hc
    · exact hs.heard c hc hloud
    obtain rfl := List.mem_singleton.mp hc
    have hnone : s.announcementsOf b.view = [] := by
      refine List.eq_nil_iff_forall_not_mem.mpr fun digest hmem => ?_
      obtain ⟨hby, attempt, hrow⟩ := mem_announcementsOf.mp hmem
      obtain ⟨c', hc', hby', -⟩ := hs.told _ hrow
      obtain ⟨hin, hne⟩ := hold c' hc'
      have hid := (announcedBy_unique hby' hby).2
      have hnew : b.view ∈ t.view.batches := hviews ▸ List.mem_append_right _ hc
      exact hne (congrArg BatchView.pk (eq_of_view_batchId hin hnew hid))
    have hundecided : s.decisionsOf b.view = [] := by
      refine List.map_eq_nil_iff.mpr (List.filter_eq_nil_iff.mpr fun d hd hown => ?_)
      obtain ⟨c', hc', hpk'⟩ := hs.known d hd
      exact (hold c' hc').2 (hpk'.trans (of_decide_eq_true hown))
    exact hnone.trans (congrArg List.eraseDups hundecided).symm

theorem BulkWriter.writeUnannounced_heard {x : BulkWriter} (h : x.writeUnannounced db = some db')
    (hdb : db.Heard) : db'.Heard := by
  cases x with
  | receiveBatch requestId sourceBbId batchId instructions callbackUrl correlationId =>
    cases h
    obtain hsame | ⟨b, t, hok, ht⟩ := BulkWorker.commitAt_cases
      (GovStackBulkPaymentService.receiveBatch requestId sourceBbId batchId instructions callbackUrl
        correlationId) [] db
    · rw [hsame]
      exact hdb
    · rw [ht]
      exact heard_of_received (s := ⟨db, []⟩) hdb hok
  | beneficiaries rows =>
    cases h
    exact ⟨hdb.known, hdb.told, hdb.heard⟩
  | ledger l =>
    simp only [writeUnannounced, writeApart, write, Option.ite_none_right_eq_some,
      Option.some.injEq] at h
    obtain ⟨hannouncements, hattempts, -, rfl⟩ := h
    refine ⟨hdb.known, fun p hp => ?_, fun b hb hloud => ?_⟩
    · obtain ⟨b, hb, hby, a, ha, hpk, hkey⟩ := hdb.told p (hannouncements ▸ hp)
      have hbulk : a.view ∈ l.bulkAttempts := by
        have hoperation : a.operation = operationBulkCallback :=
          (congrArg (·.2.1) hkey).trans (announceKey_operation _ _)
        rw [hattempts]
        exact List.mem_filter.mpr ⟨List.mem_map_of_mem ha, by
          simp [AttemptView.isBulk, PaymentAttempt.view, PaymentAttempt.scopeKey, hoperation]⟩
      obtain ⟨a', ha', hsame⟩ := List.mem_map.mp (List.mem_of_mem_filter hbulk)
      have hpk' : a'.pk = a.pk := congrArg AttemptView.pk hsame
      have hkey' : a'.scopeKey = a.scopeKey := congrArg AttemptView.key hsame
      exact ⟨b, hb, hby, a', ha', hpk'.trans hpk, hkey'.trans hkey⟩
    · have heard := hdb.heard b hb hloud
      simp only [announcementsOf, hannouncements] at heard ⊢
      exact heard

theorem heard_of_reachable {s : Pool.State BulkStore BulkWorker}
    (h : bulkAnnouncing.machine.Reachable s) : s.store.Heard := by
  refine h.invariant (I := fun s => s.store.Heard) ?_ fun u l v _ ih hstep => ?_
  · rintro s₀ ⟨⟨⟨hbatches, -, -, hdecisions, -⟩, hannouncements⟩, -⟩
    refine ⟨?_, ?_, ?_⟩
    · simp [hdecisions, Table.empty]
    · simp [hannouncements]
    · simp [BulkStore.view, hbatches, Table.empty]
  · obtain ⟨p, -, -, rfl⟩ | ⟨i, c, p, st, q, -, -, hact, rfl⟩ | ⟨i, -, rfl⟩ |
      ⟨x, st, -, henv, rfl⟩ := Program.step_cases hstep
    · exact ih
    · exact BulkWorker.act_heard hact ih
    · exact ih
    · exact BulkWriter.writeUnannounced_heard henv ih

/-- The decisions on a batch are announced, each by a callback of its own, exactly when no two of
them have the same action. A new decision is announced exactly when no earlier decision on its
batch has its action, and without a new decision nothing is. -/
theorem decisions_announced {s : Pool.State BulkStore BulkWorker}
    (h : bulkAnnouncing.machine.Reachable s) {b : BulkPaymentBatch} (hb : b ∈ s.store.batches.rows)
    (hurl : b.callbackUrl ≠ "") :
    (s.store.announcementsOf b.view = s.store.decisionsOf b.view ↔
      ((s.store.decisions.rows.filter (·.batch = b.pk)).map (·.outcomeAction)).Nodup) ∧
    ∀ settings handle clock t,
      BulkTask.processBatch settings b.pk handle ⟨s.store, clock⟩ = .ok ((), t) →
        (t.decisions = s.store.decisions → t.ledger.callbacks = s.store.ledger.callbacks) ∧
        ∀ d, t.decisions.rows = s.store.decisions.rows ++ [d] →
          ((∃ row, t.ledger.callbacks.rows = s.store.ledger.callbacks.rows ++ [row] ∧
              row.payloadHash = announcementHash b.view d.outcomeAction) ↔
            ∀ e ∈ s.store.decisions.rows, e.batch = b.pk → e.outcomeAction ≠ d.outcomeAction) := by
  have hs := heard_of_reachable h
  have hview : b.view ∈ s.store.view.batches := List.mem_map_of_mem hb
  have hloud : b.view.announced = true := decide_eq_true hurl
  refine ⟨?_, fun settings handle clock t ht => ?_⟩
  · rw [hs.heard b.view hview hloud, eraseDups_eq_self_iff]
    have hinj : Function.Injective (announcementHash b.view) := fun _ _ => announcementHash_inj.mp
    rw [← List.nodup_map_iff hinj, List.map_map]
    rfl
  obtain ⟨b', hb', houtcome⟩ := processBatch_outcome ht
  obtain rfl : b' = b := Table.eq_of_pk (Table.mem_of_get hb') hb (Table.pk_of_get hb')
  cases houtcome with
  | unchanged quiet =>
    refine ⟨fun _ => quiet.ledger.callbacks, fun d hd => ?_⟩
    have hsame : t.decisions.rows = s.store.decisions.rows := congrArg Table.rows quiet.decisions
    simp [hsame] at hd
  | decided d own decisions silent announces =>
    obtain ⟨attempt, hannounces⟩ := announces hloud
    refine ⟨fun hsame => ?_, fun d' hd' => ?_⟩
    · have hrows : s.store.decisions.rows ++ [d] = s.store.decisions.rows := by
        rw [← decisions, hsame]
      simp at hrows
    obtain rfl : d = d' := by
      have hrows := decisions.symm.trans hd'
      simpa using hrows
    have hiff := Heard.enqueued_iff (s := ⟨s.store, clock⟩) hs hview hloud hannounces
    rw [mem_decisionsOf] at hiff
    constructor
    · rintro ⟨row, hrows, hhash⟩ e he hown hsame
      obtain ⟨hcallbacks, -⟩ | ⟨d, -, -, -, hnew⟩ := hannounces.enqueued
      · rw [hcallbacks] at hrows
        simp at hrows
      · obtain ⟨x, hx, hattempt, hhash⟩ := hiff.mpr ⟨e, he, hown, hsame⟩
        exact hnew x hx hattempt hhash
    · intro hfirst
      obtain ⟨-, hrow⟩ | ⟨row, hrows, -, hhash, -⟩ := hannounces.enqueued
      · obtain ⟨e, he, hown, hsame⟩ := hiff.mp hrow
        exact absurd hsame (hfirst e he hown)
      · exact ⟨row, hrows, hhash⟩

end Runs

/-- A batch of two instructions, of which neither is final when it is decided on -/
def underReview : Pool.State BulkStore BulkWorker :=
  bulkAnnouncing.machine.final ⟨{}, []⟩ [
    .env (.receiveBatch "r" "s" "b" [⟨"i", "p", 100, "CAD"⟩, ⟨"j", "p", 200, "CAD"⟩]
      "https://s.example/status" ""),
    .env (.beneficiaries [⟨"p", true⟩]),
    .spawn (.admitDelivery 1 "w"), .act 0 quickChoice, .act 0 quickChoice, .act 0 quickChoice]

/-- The provider settles the first instruction, and the batch is decided on again. -/
def stillUnderReview : Pool.State BulkStore BulkWorker :=
  bulkAnnouncing.machine.final underReview [
    .env (.ledger (commit settlement underReview.store.ledger).2), .spawn (.admitDelivery 1 "w"),
    .act 1 quickChoice, .act 1 quickChoice]

/-- The batch after so much of it has been settled -/
def reviewedBatch (completedAmount : Cents) : BulkPaymentBatch where
  pk := 1
  requestId := "r"
  sourceBbId := "s"
  batchId := "b"
  status := .processing
  callbackUrl := "https://s.example/status"
  totalAmount := some 300
  completedAmount := completedAmount

theorem underReview_reachable : bulkAnnouncing.machine.Reachable underReview :=
  .final (M := bulkAnnouncing.machine) ⟨⟨⟨rfl, rfl, rfl, rfl, List.forall_mem_nil _⟩, rfl⟩, rfl⟩ _

theorem decisions_announced_first :
    underReview.store.announcementsOf (reviewedBatch 0).view =
      underReview.store.decisionsOf (reviewedBatch 0).view ∧
    underReview.store.decisions.rows.map (·.outcomeAction) = [.review] := by
  have hreachable := underReview_reachable
  have hiff := (decisions_announced hreachable (b := reviewedBatch 0) (by decide +kernel)
    (by decide)).1
  exact ⟨hiff.mpr (by decide +kernel), by decide +kernel⟩

/-- The second decision has other inputs and the same action: only one callback goes out. -/
theorem second_review_unannounced :
    bulkAnnouncing.machine.Reachable stillUnderReview ∧
      reviewedBatch 100 ∈ stillUnderReview.store.batches.rows ∧
      (stillUnderReview.store.decisions.rows.map fun d => (d.batch, d.outcomeAction)) =
        [(1, .review), (1, .review)] ∧
      (stillUnderReview.store.decisions.rows.map (·.fingerprint)).Nodup ∧
      stillUnderReview.store.ledger.callbacks.rows.length = 1 :=
  ⟨underReview_reachable.later (Machine.Later.final _ _), by decide +kernel, by decide +kernel,
    by decide +kernel, by decide +kernel⟩

end Civicos.Payments
