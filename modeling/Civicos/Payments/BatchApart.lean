import Civicos.Payments.Attempts
import Civicos.Payments.BatchOutcome
import Civicos.Library.Triple

/-!
# Batches do not collide

The key of an instruction's attempt joins the caller's request id and instruction id. The view of
a store is what the keys are made of: as long as no two accepted batches share a key, processing
gives every instruction an attempt of its own.
-/
namespace Civicos.Payments

open Library Library.Transaction Session PaymentLifecycleService

/-! ## The view -/

/-- The columns of a batch that keys are made of; `announced` if it has a callback. -/
structure BatchView where
  pk : Uuid
  requestId : String
  batchId : String
  announced : Bool
deriving DecidableEq

/-- An instruction with its binding; `untouched` is lost when it is bound. -/
structure InstructionView where
  pk : Uuid
  batch : Uuid
  instructionId : String
  amount : Cents
  currency : String
  attempt : Option Uuid
  untouched : Bool
deriving DecidableEq

/-- What binding leaves as it was. -/
def InstructionView.identity (i : InstructionView) : Uuid × Uuid × String × Cents × String :=
  (i.pk, i.batch, i.instructionId, i.amount, i.currency)

structure AttemptView where
  pk : Uuid
  key : String × String × String
  fingerprint : Digest Json
  amount : Option Cents
  currency : String
deriving DecidableEq

def BulkPaymentBatch.view (b : BulkPaymentBatch) : BatchView where
  pk := b.pk
  requestId := b.requestId
  batchId := b.batchId
  announced := b.callbackUrl ≠ ""

def CreditInstruction.view (i : CreditInstruction) : InstructionView where
  pk := i.pk
  batch := i.batch
  instructionId := i.instructionId
  amount := i.amount
  currency := i.currency
  attempt := i.paymentAttempt
  untouched := i.paymentAttempt = none ∧ i.status = .pending

def PaymentAttempt.view (a : PaymentAttempt) : AttemptView :=
  ⟨a.pk, a.scopeKey, a.payloadFingerprint, a.amount, a.currency⟩

def operationBulkCallback : String := "g2p_bulk_callback"

/-- The attempts of the bulk task. -/
def AttemptView.isBulk (a : AttemptView) : Bool :=
  a.key.2.1 = operationBulkInstruction ∨ a.key.2.1 = operationBulkCallback

def Ledger.bulkAttempts (l : Ledger) : List AttemptView :=
  (l.attempts.rows.map PaymentAttempt.view).filter (·.isBulk)

structure BulkView where
  batches : List BatchView
  instructions : List InstructionView
  attempts : List AttemptView
deriving DecidableEq

def BulkStore.view (db : BulkStore) : BulkView where
  batches := db.batches.rows.map BulkPaymentBatch.view
  instructions := db.instructions.rows.map CreditInstruction.view
  attempts := db.ledger.bulkAttempts

/-! ## Keys -/

def instructionKey (requestId instructionId : String) : String × String × String :=
  attemptKey "" operationBulkInstruction (requestId ++ ":" ++ instructionId)

def announceKey (requestId batchId : String) : String × String × String :=
  attemptKey "" operationBulkCallback ("callback:" ++ requestId ++ ":" ++ batchId)

/-- What the attempt of an instruction is made for. -/
def instructionPayload (batch instruction : Uuid) (amount : Cents) (currency : String) : Json :=
  [("batch_pk", .str (toString batch)), ("instruction_pk", .str (toString instruction)),
    ("amount", .str (decimalText amount)), ("currency", .str currency)]

def announcePayload (requestId batchId : String) : Json :=
  [("RequestID", .str requestId), ("BatchID", .str batchId)]

/-- The attempt is made for this instruction of this batch. -/
structure AttemptView.Records (a : AttemptView) (b : BatchView) (i : InstructionView) : Prop where
  key : a.key = instructionKey b.requestId i.instructionId
  fingerprint : a.fingerprint = .sha256 (instructionPayload i.batch i.pk i.amount i.currency)
  amount : a.amount = some i.amount
  currency : a.currency = i.currency

structure AttemptView.Announces (a : AttemptView) (b : BatchView) : Prop where
  announced : b.announced = true
  key : a.key = announceKey b.requestId b.batchId
  fingerprint : a.fingerprint = .sha256 (announcePayload b.requestId b.batchId)

/-- The keys of the attempts that processing a batch makes. -/
def BulkView.keysOf (v : BulkView) (b : BatchView) : List (String × String × String) :=
  (v.instructions.filter (·.batch = b.pk)).map (fun i => instructionKey b.requestId i.instructionId)
    ++ if b.announced then [announceKey b.requestId b.batchId] else []

/-- No key of an accepted batch is a key of another one. -/
def BulkView.KeysApart (v : BulkView) : Prop :=
  ∀ b ∈ v.batches, ∀ c ∈ v.batches, b.pk ≠ c.pk → ∀ k ∈ v.keysOf b, k ∉ v.keysOf c

instance (v : BulkView) : Decidable v.KeysApart :=
  inferInstanceAs (Decidable (∀ b ∈ v.batches, ∀ c ∈ v.batches, b.pk ≠ c.pk →
    ∀ k ∈ v.keysOf b, k ∉ v.keysOf c))

/-- Every attempt of the task is somebody's own. -/
structure BulkView.Separate (v : BulkView) : Prop where
  keysApart : v.KeysApart
  owned : ∀ i ∈ v.instructions, ∃ b ∈ v.batches, i.batch = b.pk
  keysInBatch : ∀ b ∈ v.batches, ∀ i ∈ v.instructions, ∀ j ∈ v.instructions, i.batch = b.pk →
    j.batch = b.pk →
      instructionKey b.requestId i.instructionId = instructionKey b.requestId j.instructionId →
        i.pk = j.pk
  uniqueBatches : ∀ b ∈ v.batches, ∀ c ∈ v.batches, b.pk = c.pk → b = c
  unique : ∀ i ∈ v.instructions, ∀ j ∈ v.instructions, i.pk = j.pk → i = j
  records : ∀ a ∈ v.attempts, a.key.2.1 = operationBulkInstruction →
    ∃ b ∈ v.batches, ∃ i ∈ v.instructions, i.batch = b.pk ∧ a.Records b i
  announces : ∀ a ∈ v.attempts, a.key.2.1 = operationBulkCallback →
    ∃ b ∈ v.batches, a.Announces b
  bound : ∀ i ∈ v.instructions, ∀ pk ∈ i.attempt, ∃ a ∈ v.attempts, a.pk = pk ∧
    ∃ b ∈ v.batches, i.batch = b.pk ∧ a.Records b i
  pending : ∀ i ∈ v.instructions, i.attempt = none → i.untouched = true

theorem instructionKey_operation (requestId instructionId : String) :
    (instructionKey requestId instructionId).2.1 = operationBulkInstruction := by
  simp only [instructionKey, attemptKey]
  exact clip_of_le (by decide)

theorem announceKey_operation (requestId batchId : String) :
    (announceKey requestId batchId).2.1 = operationBulkCallback := by
  simp only [announceKey, attemptKey]
  exact clip_of_le (by decide)

/-! ## What leaves the view alone -/

/-- Not the refusal of a key that belongs to something else. -/
def PaymentError.NotConflict (e : PaymentError) : Prop :=
    ∀ message, e ≠ .idempotencyConflict message

theorem notConflict_ofViolation (v : Violation) : (PaymentError.ofViolation v).NotConflict := by
  cases v <;> exact nofun

theorem exceptIntegrityError_keeps {σ α : Type} {R : σ → σ → Prop} {E : PaymentError → Prop}
    {x handler : Transaction PaymentError σ α} (hx : Keeps R E x) (hh : Keeps R E handler) :
    Keeps R E (exceptIntegrityError x handler) := by
  refine ⟨exceptIntegrityError_within hx.within hh.within, fun s e h => ?_⟩
  unfold exceptIntegrityError at h
  split at h
  · exact hh.raises s e h
  · exact hx.raises s e h

/-- The view of a session stays. -/
def Session.Still (s t : Session) : Prop := t.toBulkStore.view = s.toBulkStore.view

namespace Session.Still

variable {s t : Session} {handle : BatchLeaseHandle}

instance : Std.Refl Still := ⟨fun _ => rfl⟩

instance : IsTrans Session Still := ⟨fun _ _ _ h h' => Eq.trans h' h⟩

theorem of_renews (h : BatchLeaseService.Renews s t) : Still s t := by
  rw [Still, h.1]
  rfl

theorem currentLocked_raises (now : Instant) :
    Raises PaymentError.NotConflict (BatchLeaseService.currentLocked handle now) := by
  refine .get_bind fun s => ?_
  cases s.leaseOf handle.batchId with
  | none => exact .throw nofun
  | some lease => exact .ite (fun _ => .bind (.throw nofun) fun _ => .pure _) fun _ => .pure _

theorem timezoneNow : Keeps Still PaymentError.NotConflict Session.timezoneNow := by
  refine ⟨?_, fun _ _ h => by cases h⟩
  rintro s _ _ ⟨⟩
  rfl

theorem assertCurrentOwner : Keeps Still PaymentError.NotConflict
    (BatchLeaseService.assertCurrentOwner handle) :=
  ⟨fun _ _ _ h => of_renews (BatchLeaseService.assertCurrentOwner_ok h).2,
    .bind timezoneNow.raises fun _ => currentLocked_raises _⟩

theorem heartbeat : Keeps Still PaymentError.NotConflict (BatchLeaseService.heartbeat handle) :=
  ⟨fun _ _ _ h => of_renews (BatchLeaseService.heartbeat_ok h).2,
    .bind timezoneNow.raises fun _ => .bind (currentLocked_raises _) fun _ =>
      .bind (.write notConflict_ofViolation) fun _ => .pure _⟩

end Session.Still

/-! ### Ledger transactions -/

/-- The attempts of the bulk task stay, up to the columns that processing changes. -/
def Ledger.SameBulk (l l' : Ledger) : Prop := l'.bulkAttempts = l.bulkAttempts

namespace Ledger.SameBulk

variable {l l' : Ledger}

instance : Std.Refl SameBulk := ⟨fun _ => rfl⟩

instance : IsTrans Ledger SameBulk := ⟨fun _ _ _ h h' => Eq.trans h' h⟩

theorem of_views (h : l'.attempts.rows.map PaymentAttempt.view =
    l.attempts.rows.map PaymentAttempt.view) : SameBulk l l' := by
  rw [SameBulk, bulkAttempts, bulkAttempts, h]

theorem getLocked (pk : Uuid) :
    Keeps SameBulk PaymentError.NotConflict (PaymentAttempt.getLocked pk) :=
  .lookup nofun

theorem schedule_raises (a : PaymentAttempt) (target : AttemptStatus) (now : Instant) :
    Raises PaymentError.NotConflict (schedule a target now) := by
  cases target with
  | retryable | uncertain | review | deadLetter => exact .bind .modify fun _ => .pure _
  | pending | settled | rejected => exact .pure _

theorem applyOutcome (pk : Uuid) (outcome : PaymentOutcome) (now : Instant) :
    Keeps SameBulk PaymentError.NotConflict
      (PaymentLifecycleService.applyOutcome pk outcome now) := by
  refine ⟨fun l b l' h => ?_, ?_⟩
  · obtain ⟨a, hget, ⟨-, -, rfl⟩ | ⟨-, -, due, T, audits, rfl, hupdate, rfl⟩⟩ := applyOutcome_ok h
    · exact Std.Refl.refl l'
    · exact of_views (Table.map_update_of_get hupdate hget rfl)
  · refine .bind (getLocked pk).raises fun a => .ite (fun _ => .pure _) fun _ =>
      .bind (.lift fun e he => ?_) fun b => .bind (schedule_raises _ _ _) fun c =>
        .bind (.write notConflict_ofViolation) fun _ => .bind .modify fun _ => .pure _
    unfold PaymentAttempt.transitionTo at he
    split at he <;> cases he
    exact nofun

theorem queueCallback (a : PaymentAttempt) (url : String) (payload : Json) (now : Instant) :
    Keeps SameBulk PaymentError.NotConflict
      (PaymentLifecycleService.queueCallback a url payload now) := by
  refine ⟨fun l r l' h => ?_, fun l e h => ?_⟩
  · obtain ⟨d, created, l₁, hqueue, hcases⟩ := queueCallback_ok a url payload now l
    rw [hqueue] at h
    cases h
    rcases hcases with ⟨-, rfl, -⟩ | ⟨-, -, T, -, rfl⟩
    · exact Std.Refl.refl l'
    · rfl
  · obtain ⟨d, created, l₁, hqueue, -⟩ := queueCallback_ok a url payload now l
    rw [hqueue] at h
    cases h

end Ledger.SameBulk

/-- A ledger transaction that keeps the identities of attempts. -/
theorem Session.Still.zoom {α : Type} {x : Tx α}
    (h : Keeps Ledger.SameBulk PaymentError.NotConflict x) :
    Keeps Still PaymentError.NotConflict (Transaction.zoom ledgerPart x) :=
  .zoom h fun _ _ hl => congrArg (BulkView.mk _ _) hl

/-! ### The other steps of the task -/

namespace BulkTask

variable {handle : BatchLeaseHandle}

theorem applyFenced_still (attempt : Uuid) (outcome : PaymentOutcome) :
    Keeps Still PaymentError.NotConflict (applyFenced handle attempt outcome) :=
  .bind Still.assertCurrentOwner fun _ => .bind Still.timezoneNow fun _ =>
    .bind (Still.zoom (Ledger.SameBulk.applyOutcome _ _ _)) fun _ => .pure _

theorem materialize_still (pk : Uuid) :
    Keeps Still PaymentError.NotConflict (materializeCreditInstructionFinality pk) := by
  refine .bind (.lookup nofun) fun i => .bind (.lookup nofun) fun b => ?_
  cases i.paymentAttempt with
  | none => exact .pure _
  | some pk =>
    exact .bind (Still.zoom (Ledger.SameBulk.getLocked pk)) fun _ => .get_bind fun _ => .pure _

theorem createOrReplay_still (batch : Uuid) (fingerprint : Digest DecisionInputs)
    (row : Uuid → GovStackBatchDecision) :
    Keeps Still PaymentError.NotConflict
      (BatchDecisionService.createOrReplay batch fingerprint row) := by
  refine exceptIntegrityError_keeps
    (.bind ⟨fun s d t h => ?_, .create notConflict_ofViolation⟩ fun _ => .pure _)
    (.get_bind fun s => ?_)
  · obtain ⟨-, T, -, rfl⟩ := create_ok.mp h
    rfl
  · cases s.decisionFor batch fingerprint with
    | some d => exact .pure _
    | none => exact .throw nofun

theorem decide_still (batch : Uuid) (items : List ChildItem) (threshold : Threshold)
    (returnFunds : Bool) : Keeps Still PaymentError.NotConflict
      (BatchDecisionService.decide batch handle items threshold returnFunds) := by
  unfold BatchDecisionService.decide
  refine .ite (fun _ => .throw_bind nofun) fun _ => ?_
  refine .bind Still.assertCurrentOwner fun _ => .get_bind fun s => ?_
  split
  · exact .throw nofun
  · split
    · exact .pure _
    · exact createOrReplay_still _ _ _

theorem projectDecision_still (batch : Uuid) (tally : Tally) (d : GovStackBatchDecision) :
    Keeps Still PaymentError.NotConflict (projectDecision batch handle tally d) := by
  unfold projectDecision
  refine .ite (fun _ => .throw_bind nofun) fun _ => .bind ?_ fun _ =>
    .bind Still.assertCurrentOwner fun _ => ⟨fun s u t h => ?_, .write notConflict_ofViolation⟩
  · exact .ite (fun _ => .bind Still.timezoneNow fun _ => .pure _) fun _ => .pure _
  · obtain ⟨T, hupdate, rfl⟩ := write_ok.mp h
    exact congrArg (BulkView.mk · _ _) (Table.map_update hupdate fun _ => rfl)

end BulkTask

/-! ## Steps of the view -/

namespace BulkView

variable {v v' : BulkView} {a : AttemptView} {b : BatchView} {i : InstructionView}

/-- The instruction is bound. -/
def Bound (v : BulkView) (pk : Uuid) : Prop :=
  ∃ x ∈ v.instructions, x.pk = pk ∧ x.attempt.isSome = true

def withAttempt (v : BulkView) (a : AttemptView) : BulkView :=
  { v with attempts := v.attempts ++ [a] }

/-- The view with one instruction bound. -/
def bindTo (v : BulkView) (pk attempt : Uuid) : BulkView :=
  { v with instructions := v.instructions.map fun x =>
      if x.pk = pk then { x with attempt := some attempt, untouched := false } else x }

theorem mem_keysOf_of_instruction (hi : i ∈ v.instructions) (hib : i.batch = b.pk) :
    instructionKey b.requestId i.instructionId ∈ v.keysOf b :=
  List.mem_append_left _ (List.mem_map.mpr ⟨i, List.mem_filter.mpr ⟨hi, decide_eq_true hib⟩, rfl⟩)

theorem mem_keysOf_of_announced (hb : b.announced = true) :
    announceKey b.requestId b.batchId ∈ v.keysOf b :=
  List.mem_append_right _ (by simp [hb])

/-- The key of an instruction leads to the attempts of no other one. -/
theorem Separate.records_of_key (h : v.Separate) (ha : a ∈ v.attempts) (hb : b ∈ v.batches)
    (hi : i ∈ v.instructions) (hib : i.batch = b.pk)
    (hkey : a.key = instructionKey b.requestId i.instructionId) : a.Records b i := by
  obtain ⟨c, hc, j, hj, hjc, hrecords⟩ :=
    h.records a ha (hkey ▸ instructionKey_operation _ _)
  have hkeys := hrecords.key.symm.trans hkey
  have hcb : c.pk = b.pk := by_contra fun hne => h.keysApart c hc b hb hne _
    (mem_keysOf_of_instruction hj hjc) (hkeys ▸ mem_keysOf_of_instruction hi hib)
  obtain rfl := h.uniqueBatches c hc b hb hcb
  obtain rfl := h.unique j hj i hi (h.keysInBatch c hc j hj i hi hjc hib hkeys)
  exact hrecords

theorem Separate.announces_of_key (h : v.Separate) (ha : a ∈ v.attempts) (hb : b ∈ v.batches)
    (hannounced : b.announced = true) (hkey : a.key = announceKey b.requestId b.batchId) :
    a.Announces b := by
  obtain ⟨c, hc, hannounces⟩ := h.announces a ha (hkey ▸ announceKey_operation _ _)
  have hpk : c.pk = b.pk := by_contra fun hne => h.keysApart c hc b hb hne _
    (mem_keysOf_of_announced hannounces.announced)
    (hannounces.key.symm.trans hkey ▸ mem_keysOf_of_announced hannounced)
  obtain rfl := h.uniqueBatches c hc b hb hpk
  exact hannounces

/-- A new attempt of an instruction, or of a batch's callback. -/
theorem Separate.withAttempt (h : v.Separate) (hb : b ∈ v.batches)
    (ha : (∃ i ∈ v.instructions, i.batch = b.pk ∧ a.Records b i) ∨ a.Announces b) :
    (v.withAttempt a).Separate := by
  refine { h with records := fun x hx hop => ?_, announces := fun x hx hop => ?_, bound := ?_ }
  · rcases List.mem_append.mp hx with hx | hx
    · exact h.records x hx hop
    · obtain rfl := List.mem_singleton.mp hx
      rcases ha with ⟨i, hi, hib, hrecords⟩ | hannounces
      · exact ⟨b, hb, i, hi, hib, hrecords⟩
      · rw [hannounces.key, announceKey_operation] at hop
        exact absurd hop (by decide)
  · rcases List.mem_append.mp hx with hx | hx
    · exact h.announces x hx hop
    · obtain rfl := List.mem_singleton.mp hx
      rcases ha with ⟨i, hi, hib, hrecords⟩ | hannounces
      · rw [hrecords.key, instructionKey_operation] at hop
        exact absurd hop (by decide)
      · exact ⟨b, hb, hannounces⟩
  · intro i hi pk hpk
    obtain ⟨x, hx, hrest⟩ := h.bound i hi pk hpk
    exact ⟨x, List.mem_append_left _ hx, hrest⟩

/-- The keys are made of what binding leaves as it was. -/
theorem keysApart_of_identities (h : v.KeysApart) (hbatches : v'.batches = v.batches)
    (hidentities : v'.instructions.map (·.identity) = v.instructions.map (·.identity)) :
    v'.KeysApart := by
  have hkeys : ∀ b : BatchView, v'.keysOf b = v.keysOf b := by
    intro b
    have hof : ∀ is : List InstructionView,
        (is.filter (·.batch = b.pk)).map (fun i => instructionKey b.requestId i.instructionId) =
          ((is.map (·.identity)).filter fun x => x.2.1 = b.pk).map fun x =>
            instructionKey b.requestId x.2.2.1 := by
      intro is
      rw [List.filter_map, List.map_map]
      rfl
    rw [keysOf, keysOf, hof, hof, hidentities]
  simpa only [KeysApart, hbatches, hkeys] using h

theorem mem_bindTo {pk attempt : Uuid} {x : InstructionView} :
    x ∈ (v.bindTo pk attempt).instructions ↔ (x ∈ v.instructions ∧ x.pk ≠ pk) ∨
      ∃ y ∈ v.instructions, y.pk = pk ∧
        x = { y with attempt := some attempt, untouched := false } := by
  simp only [bindTo, List.mem_map]
  constructor
  · rintro ⟨y, hy, rfl⟩
    by_cases hpk : y.pk = pk
    · exact .inr ⟨y, hy, hpk, by simp [hpk]⟩
    · exact .inl (by simp [hpk, hy])
  · rintro (⟨hx, hpk⟩ | ⟨y, hy, hpk, rfl⟩)
    · exact ⟨x, hx, by simp [hpk]⟩
    · exact ⟨y, hy, by simp [hpk]⟩

theorem identities_bindTo (pk attempt : Uuid) :
    (v.bindTo pk attempt).instructions.map (·.identity) = v.instructions.map (·.identity) := by
  rw [bindTo, List.map_map]
  refine List.map_congr_left fun x _ => ?_
  by_cases hpk : x.pk = pk <;> simp [hpk, InstructionView.identity]

/-- Binding an instruction to the attempt that was made for it. -/
theorem Separate.bindTo (h : v.Separate) (hb : b ∈ v.batches) (hi : i ∈ v.instructions)
    (hib : i.batch = b.pk) (ha : a ∈ v.attempts) (hrecords : a.Records b i) :
    (v.bindTo i.pk a.pk).Separate := by
  -- every instruction is, up to its binding, one of before
  have hold : ∀ x ∈ (v.bindTo i.pk a.pk).instructions, ∃ y ∈ v.instructions, y.pk = x.pk ∧
      y.batch = x.batch ∧ y.instructionId = x.instructionId := by
    intro x hx
    rcases mem_bindTo.mp hx with ⟨hx, -⟩ | ⟨y, hy, -, rfl⟩
    · exact ⟨x, hx, rfl, rfl, rfl⟩
    · exact ⟨y, hy, rfl, rfl, rfl⟩
  have hnew : ∀ y ∈ v.instructions, ∃ x ∈ (v.bindTo i.pk a.pk).instructions, x.batch = y.batch ∧
      ∀ c : BatchView, ∀ z : AttemptView, z.Records c y → z.Records c x := by
    intro y hy
    by_cases hpk : y.pk = i.pk
    · exact ⟨_, mem_bindTo.mpr (.inr ⟨y, hy, hpk, rfl⟩), rfl, fun _ _ hz =>
        ⟨hz.key, hz.fingerprint, hz.amount, hz.currency⟩⟩
    · exact ⟨y, mem_bindTo.mpr (.inl ⟨hy, hpk⟩), rfl, fun _ _ hz => hz⟩
  refine { keysApart := keysApart_of_identities h.keysApart rfl (identities_bindTo _ _)
           owned := ?_, keysInBatch := ?_, uniqueBatches := h.uniqueBatches, unique := ?_,
           records := ?_, announces := h.announces, bound := ?_, pending := ?_ }
  · intro x hx
    obtain ⟨y, hy, -, hbatch, -⟩ := hold x hx
    exact hbatch ▸ h.owned y hy
  · intro c hc x hx y hy hxc hyc hkey
    obtain ⟨x', hx', hxpk, hxb, hxid⟩ := hold x hx
    obtain ⟨y', hy', hypk, hyb, hyid⟩ := hold y hy
    rw [← hxpk, ← hypk]
    exact h.keysInBatch c hc x' hx' y' hy' (hxb.trans hxc) (hyb.trans hyc)
      (by rw [hxid, hyid, hkey])
  · intro x hx y hy hpk
    rcases mem_bindTo.mp hx with ⟨hx, hxi⟩ | ⟨x', hx', hxi, rfl⟩ <;>
      rcases mem_bindTo.mp hy with ⟨hy, hyi⟩ | ⟨y', hy', hyi, rfl⟩
    · exact h.unique x hx y hy hpk
    · exact absurd (hpk.trans hyi) hxi
    · exact absurd (hpk.symm.trans hxi) hyi
    · rw [h.unique x' hx' y' hy' hpk]
  · intro x hx hop
    obtain ⟨c, hc, y, hy, hyc, hxr⟩ := h.records x hx hop
    obtain ⟨z, hz, hzb, hzr⟩ := hnew y hy
    exact ⟨c, hc, z, hz, hzb.trans hyc, hzr c x hxr⟩
  · intro x hx pk hpk
    rcases mem_bindTo.mp hx with ⟨hx, -⟩ | ⟨y, hy, hyi, rfl⟩
    · exact h.bound x hx pk hpk
    · obtain rfl := h.unique y hy i hi hyi
      obtain rfl : a.pk = pk := by simpa using hpk
      exact ⟨a, ha, rfl, b, hb, hib,
        ⟨hrecords.key, hrecords.fingerprint, hrecords.amount, hrecords.currency⟩⟩
  · intro x hx hnone
    rcases mem_bindTo.mp hx with ⟨hx, -⟩ | ⟨y, hy, -, rfl⟩
    · exact h.pending x hx hnone
    · cases hnone

/-- What processing does to the view. -/
structure Proceeds (v v' : BulkView) : Prop where
  separate : v'.Separate
  batches : v'.batches = v.batches
  identities : v'.instructions.map (·.identity) = v.instructions.map (·.identity)
  kept : ∀ m, v.Bound m → v'.Bound m

/-- Processing one instruction binds it, if it was not, and no other. -/
structure Binds (k : Uuid) (v v' : BulkView) : Prop extends Proceeds v v' where
  others : ∀ x ∈ v.instructions, x.pk ≠ k → x ∈ v'.instructions
  bound : v'.Bound k

theorem Proceeds.refl (h : v.Separate) : Proceeds v v := ⟨h, rfl, rfl, fun _ hm => hm⟩

theorem Proceeds.trans {u : BulkView} (h : Proceeds v v') (h' : Proceeds v' u) : Proceeds v u where
  separate := h'.separate
  batches := h'.batches.trans h.batches
  identities := h'.identities.trans h.identities
  kept m hm := h'.kept m (h.kept m hm)

theorem binds_of_bindTo (h : v.Separate) (hb : b ∈ v.batches) (hi : i ∈ v.instructions)
    (hib : i.batch = b.pk) (ha : a ∈ v.attempts) (hrecords : a.Records b i) :
    Binds i.pk v (v.bindTo i.pk a.pk) := by
  refine ⟨⟨h.bindTo hb hi hib ha hrecords, rfl, identities_bindTo _ _, ?_⟩, fun x hx hne =>
    mem_bindTo.mpr (.inl ⟨hx, hne⟩), ⟨_, mem_bindTo.mpr (.inr ⟨i, hi, rfl, rfl⟩), rfl, rfl⟩⟩
  rintro m ⟨x, hx, rfl, hsome⟩
  by_cases hpk : x.pk = i.pk
  · exact ⟨_, mem_bindTo.mpr (.inr ⟨x, hx, hpk, rfl⟩), rfl, rfl⟩
  · exact ⟨x, mem_bindTo.mpr (.inl ⟨hx, hpk⟩), rfl, hsome⟩

end BulkView

open BulkView

/-! ## Triples for the task -/

/-- Every exception is allowed but a conflict. -/
abbrev Apart {α : Type} (P : BulkView → Prop) (x : BulkTx α) (Q : α → BulkView → Prop) : Prop :=
  Triple (fun s => P s.toBulkStore.view) x (fun a s => Q a s.toBulkStore.view)
    PaymentError.NotConflict

namespace Apart

variable {α β : Type} {P : BulkView → Prop} {Q : α → BulkView → Prop} {T : β → BulkView → Prop}
  {x : BulkTx α} {f : α → BulkTx β}

theorem still (h : Keeps Still PaymentError.NotConflict x) (P : BulkView → Prop) :
    Apart P x fun _ => P :=
  Keeps.triple h fun s t hst hs => by rw [hst]; exact hs

/-- Fix the view of the store before. -/
theorem fix (h : ∀ v, P v → Apart (· = v) x Q) : Apart P x Q :=
  fun s hs => h _ hs s rfl

end Apart

namespace BulkTask

variable {settings : BulkSettings} {handle : BatchLeaseHandle} {b : BulkPaymentBatch}
  {i : CreditInstruction} {v : BulkView}

/-- The attempt under a key: the one that is there, or a new one. -/
theorem getOrCreate_apart {requestId operation : String} {payload : Json}
    {defaults : PaymentAttempt.Defaults} {auditCreated : Bool}
    (hop : operation = operationBulkInstruction ∨ operation = operationBulkCallback)
    (hold : ∀ a ∈ v.attempts, a.key = attemptKey "" operation requestId →
      a.fingerprint = .sha256 payload) :
    Apart (· = v)
      (zoom ledgerPart (getOrCreateAttempt "" operation requestId payload defaults auditCreated))
      fun r v' => ∃ a : AttemptView, a.pk = r.1.pk ∧ a.key = attemptKey "" operation requestId ∧
        (v' = v ∧ a ∈ v.attempts ∨ v' = v.withAttempt a ∧ a.fingerprint = .sha256 payload ∧
          a.amount = defaults.amount ∧ a.currency = defaults.currency) := by
  have hbulk : ∀ a : PaymentAttempt, a.scopeKey = attemptKey "" operation requestId →
      a.view.isBulk = true := by
    intro a ha
    have hkey : a.view.key.2.1 = operation := by
      rw [show a.view.key = a.scopeKey from rfl, ha]
      rcases hop with rfl | rfl
      · exact instructionKey_operation requestId ""
      · exact announceKey_operation requestId ""
    simpa [AttemptView.isBulk, hkey] using hop
  refine Triple.zoom fun s hs => ⟨fun r l h => ?_, fun e h => ?_⟩
  · obtain ⟨a, created⟩ := r
    rcases getOrCreateAttempt_ok h with ⟨-, rfl, ha, hkey, -⟩ | ⟨-, hfresh, -, T, hinsert, rfl⟩
    · refine ⟨a.view, rfl, hkey, .inl ⟨hs, ?_⟩⟩
      rw [← hs]
      exact List.mem_filter.mpr ⟨List.mem_map_of_mem ha, hbulk a hkey⟩
    · have hkey : a.scopeKey = attemptKey "" operation requestId := by
        rw [hfresh]
        rfl
      refine ⟨a.view, rfl, hkey, .inr ⟨?_, by rw [hfresh]; rfl, by rw [hfresh]; rfl, by
        rw [hfresh]; rfl⟩⟩
      have hrows : T.rows = s.ledger.attempts.rows ++ [a] := (Table.insert_ok.mp hinsert).2
      rw [← hs, withAttempt]
      refine congrArg (BulkView.mk _ _) ?_
      simp only [ledgerPart, Ledger.bulkAttempts, hrows, List.map_append, List.map_cons,
        List.map_nil, List.filter_append, BulkStore.view]
      rw [List.filter_cons_of_pos (hbulk a hkey), List.filter_nil]
  · rcases getOrCreateAttempt_error h with ⟨violation, rfl⟩ | ⟨-, x, hx, hkey, hother⟩
    · exact notConflict_ofViolation violation
    · refine absurd (hold x.view ?_ hkey) hother
      rw [← hs]
      exact List.mem_filter.mpr ⟨List.mem_map_of_mem hx, hbulk x hkey⟩

/-- The attempt `pk` is made for an instruction, at most one attempt is new. -/
def Made (v : BulkView) (b : BatchView) (i : InstructionView) (pk : Uuid) (v' : BulkView) : Prop :=
  ∃ a : AttemptView, a.pk = pk ∧ a.Records b i ∧
    (v' = v ∧ a ∈ v.attempts ∨ v' = v.withAttempt a)

theorem recordBulkInstructionLifecycle_apart (hv : v.Separate) (hb : b.view ∈ v.batches)
    (hi : i.view ∈ v.instructions) (hib : i.batch = b.pk) (found : Bool) :
    Apart (· = v) (recordBulkInstructionLifecycle settings b i found handle) fun attempt =>
      Made v b.view i.view attempt.pk := by
  have hpayload : [("batch_pk", Value.str (toString b.pk)),
      ("instruction_pk", .str (toString i.pk)), ("amount", .str (decimalText i.amount)),
      ("currency", .str i.currency)] = instructionPayload i.batch i.pk i.amount i.currency := by
    rw [instructionPayload, hib]
  refine Triple.bind (Apart.still Still.assertCurrentOwner (· = v)) fun _ =>
    Triple.bind (Triple.mono (R := fun r s => Made v b.view i.view r.1.pk s.toBulkStore.view)
      (getOrCreate_apart (v := v) (.inl rfl) fun a ha hkey => ?_) (fun _ h => h) fun r s h => ?_)
      fun r => ?_
  · rw [hpayload]
    exact (hv.records_of_key ha hb hi hib hkey).fingerprint
  · obtain ⟨a, hpk, hkey, ⟨hsame, ha⟩ | ⟨hnew, hprint, hamount, hcurrency⟩⟩ := h
    · exact ⟨a, hpk, hv.records_of_key ha hb hi hib hkey, .inl ⟨hsame, ha⟩⟩
    · exact ⟨a, hpk, ⟨hkey, hpayload ▸ hprint, hamount, hcurrency⟩, .inr hnew⟩
  · obtain ⟨attempt, created⟩ := r
    refine Triple.ite (fun _ => Triple.ite (fun _ => ?_) fun _ => ?_) fun _ => ?_
    · exact Triple.bind (Apart.still Still.assertCurrentOwner _) fun _ => Triple.pure fun _ h => h
    · exact Triple.bind (Apart.still (applyFenced_still _ _) _) fun _ => Triple.pure fun _ h => h
    · exact Triple.bind (Apart.still (applyFenced_still _ _) _) fun _ => Triple.pure fun _ h => h

/-- An unbound instruction is bound to the attempt that was made for it. -/
theorem bindCreditInstructionAttempt_apart (hv : v.Separate) (hi : i.view ∈ v.instructions)
    (hunbound : i.paymentAttempt = none) (pk : Uuid) :
    Apart (· = v) (bindCreditInstructionAttempt i.pk pk) fun j v' => j.pk = i.pk ∧
      v' = v.bindTo i.pk pk := by
  -- the row that is locked is the current one
  refine Triple.bind (Triple.lookup (Q := fun j s => s.toBulkStore.view = v ∧
    s.instructions.get i.pk = some j ∧ j.paymentAttempt = none) nofun fun s j hs hget => ?_)
    fun j => ?_
  · obtain ⟨hj, hpk⟩ := Table.get_eq_some.mp hget
    have hview : j.view ∈ v.instructions := hs ▸ List.mem_map_of_mem hj
    have hsame : j.view = i.view := hv.unique j.view hview i.view hi hpk
    have hattempt : j.view.attempt = i.view.attempt := by rw [hsame]
    exact ⟨hs, hget, hattempt.trans hunbound⟩
  refine Triple.bind (Triple.zoom (Q := fun a s => a.pk = pk ∧ s.toBulkStore.view = v ∧
    s.instructions.get i.pk = some j ∧ j.paymentAttempt = none) fun s hs => ⟨fun a l h => ?_,
      fun e h => (Ledger.SameBulk.getLocked pk).raises _ e h⟩) fun a => ?_
  · obtain ⟨hget, rfl⟩ := PaymentAttempt.getLocked_ok.mp h
    exact ⟨PaymentAttempt.pk_of_attempt hget, hs⟩
  refine Triple.bind (Triple.lookup (Q := fun _ s => a.pk = pk ∧ s.toBulkStore.view = v ∧
    s.instructions.get i.pk = some j ∧ j.paymentAttempt = none) nofun
      fun s _ hs _ => hs) fun c => ?_
  refine Triple.ite (fun _ => Triple.throw_bind nofun) fun _ => ?_
  cases hj : j.paymentAttempt with
  | some k => exact fun s hs => by cases hs.2.2.2
  | none =>
    refine Triple.bind (Triple.write notConflict_ofViolation fun s T hs hupdate => ?_) fun _ =>
      Triple.pure fun _ h => h
    obtain ⟨rfl, hs, hget, -⟩ := hs
    have hpk : j.pk = i.pk := Table.pk_of_get hget
    refine ⟨hpk, ?_⟩
    rw [← hs, bindTo, ← hpk]
    refine congrArg (BulkView.mk _ · _) ?_
    rw [← hpk] at hget
    change T.rows.map CreditInstruction.view =
      (s.instructions.rows.map CreditInstruction.view).map _
    rw [((Table.update_ok hget).mp hupdate).2, List.map_map, List.map_map]
    refine List.map_congr_left fun x hx => ?_
    by_cases hxj : x.pk = j.pk
    · obtain rfl := Table.eq_of_pk hx (Table.mem_of_get hget) hxj
      simp [CreditInstruction.view, CreditInstruction.schema]
    · have hne : x.view.pk ≠ j.pk := hxj
      simp [hxj, hne, CreditInstruction.schema]

/-- An instruction leaves `bind` bound. -/
theorem bind_apart (hv : v.Separate) (hb : b.view ∈ v.batches) (hi : i.view ∈ v.instructions)
    (hib : i.batch = b.pk) :
    Apart (· = v) (bind settings b handle i) fun j v' => j.pk = i.pk ∧ v.Binds i.pk v' := by
  unfold bind
  cases hattempt : i.paymentAttempt with
  | some pk =>
    refine Triple.pure fun s hs => ⟨rfl, ?_⟩
    rw [hs]
    exact ⟨.refl hv, fun _ hx _ => hx,
      ⟨i.view, hi, rfl, by simp [CreditInstruction.view, hattempt]⟩⟩
  | none =>
    refine Triple.get_bind fun r hr => ?_
    refine Triple.mono (P := fun s => s.toBulkStore.view = v) (Triple.bind
      (recordBulkInstructionLifecycle_apart hv hb hi hib _) fun attempt => ?_)
      (fun s hs => hs ▸ hr) fun _ _ h => h
    refine Triple.bind (Apart.still Still.assertCurrentOwner _) fun _ =>
      Apart.fix (Q := fun (j : CreditInstruction) v' => j.pk = i.pk ∧ v.Binds i.pk v')
        fun v' hmade => ?_
    obtain ⟨a, hpk, hrecords, hv'⟩ := hmade
    have hsep : v'.Separate ∧ v'.batches = v.batches ∧ v'.instructions = v.instructions ∧
        a ∈ v'.attempts := by
      rcases hv' with ⟨rfl, ha⟩ | rfl
      · exact ⟨hv, rfl, rfl, ha⟩
      · exact ⟨hv.withAttempt hb (.inl ⟨i.view, hi, hib, hrecords⟩), rfl, rfl,
          List.mem_append_right _ (.head _)⟩
    obtain ⟨hv', hbatches, hinstructions, ha⟩ := hsep
    have hbinds := binds_of_bindTo hv' (hbatches ▸ hb) (hinstructions ▸ hi) hib ha hrecords
    refine Triple.mono (bindCreditInstructionAttempt_apart hv' (hinstructions ▸ hi) hattempt
      attempt.pk) (fun _ h => h) ?_
    rintro j s ⟨hj, hs⟩
    refine ⟨hj, ?_⟩
    rw [hs, ← hpk]
    exact ⟨⟨hbinds.separate, hbinds.batches.trans hbatches, hinstructions ▸ hbinds.identities,
      fun m ⟨x, hx, hm⟩ => hbinds.kept m ⟨x, hinstructions ▸ hx, hm⟩⟩, fun x hx hne =>
        hbinds.others x (hinstructions ▸ hx) hne, hbinds.bound⟩

/-- The status of a bound instruction is not in the view. -/
theorem saveStatus_apart {P : BulkView → Prop} {pk : Uuid} (hP : ∀ v, P v → v.Bound pk)
    (status : InstructionStatus) (reason : String) :
    Apart P (saveStatus handle pk status reason) fun _ => P := by
  refine Triple.bind (Apart.still Still.assertCurrentOwner P) fun _ =>
    Triple.write notConflict_ofViolation fun s T hs hupdate => ?_
  obtain ⟨x, hx, hxpk, hsome⟩ := hP _ hs
  obtain ⟨row, hrow, rfl⟩ := List.mem_map.mp hx
  have hget : s.instructions.get pk = some row := Table.get_eq_some.mpr ⟨hrow, hxpk⟩
  have hbound : row.paymentAttempt ≠ none := Option.isSome_iff_ne_none.mp hsome
  have hsame : T.rows.map CreditInstruction.view = s.instructions.rows.map CreditInstruction.view :=
    Table.map_update_of_get hupdate hget (by simp [CreditInstruction.view, hbound])
  have hview : (instructionTable.set T s).toBulkStore.view = s.toBulkStore.view :=
    congrArg (BulkView.mk _ · _) hsame
  rw [hview]
  exact hs

theorem project_apart {P : BulkView → Prop} (hP : ∀ v, P v → v.Bound i.pk) (tally : Tally)
    (finality : AuthoritativeChildFinality) :
    Apart P (project handle tally i finality) fun _ => P := by
  have hsave : ∀ status reason, Apart P (saveStatus handle i.pk status reason) fun _ => P :=
    fun status reason => saveStatus_apart hP status reason
  unfold project
  refine Triple.ite (fun _ => ?_) fun _ => Triple.ite (fun _ => ?_) fun _ => ?_
  · exact Triple.ite (fun _ => Triple.bind (hsave _ _) fun _ => Triple.pure fun _ h => h)
      fun _ => Triple.pure fun _ h => h
  · exact Triple.ite (fun _ => Triple.bind (hsave _ _) fun _ => Triple.pure fun _ h => h)
      fun _ => Triple.pure fun _ h => h
  · refine Triple.get_bind fun r hr => Triple.mono (P := fun s => P s.toBulkStore.view) ?_
      (fun s hs => hs ▸ hr) fun _ _ h => h
    exact Triple.ite (fun _ => Triple.bind (hsave _ _) fun _ => Triple.pure fun _ h => h)
      fun _ => Triple.pure fun _ h => h

theorem processInstruction_apart (hv : v.Separate) (hb : b.view ∈ v.batches)
    (hi : i.view ∈ v.instructions) (hib : i.batch = b.pk) (tally : Tally) :
    Apart (· = v) (processInstruction settings b handle tally i) fun _ => v.Binds i.pk := by
  unfold processInstruction
  refine Triple.bind (Apart.still Still.heartbeat (· = v)) fun _ =>
    Triple.bind (Apart.still Still.assertCurrentOwner (· = v)) fun _ =>
      Triple.ite (fun hhistoric => ?_) fun _ => ?_
  · -- an instruction that was never bound has no terminal status
    have huntouched := hv.pending i.view hi hhistoric.1
    have hpending : i.status = .pending := by
      simpa [CreditInstruction.view, hhistoric.1] using huntouched
    simp [hpending] at hhistoric
  · refine Triple.bind (bind_apart hv hb hi hib) fun j => ?_
    refine Triple.mono (P := fun s => v.Binds i.pk s.toBulkStore.view ∧ j.pk = i.pk) ?_
      (fun _ h => h.symm) fun _ _ h => h
    refine fun s hs => ?_
    have hrest : Apart (v.Binds i.pk) (do
        let finality ← materializeCreditInstructionFinality j.pk
        project handle tally j finality) fun _ => v.Binds i.pk :=
      Triple.bind (Apart.still (materialize_still _) _) fun finality =>
        project_apart (fun v' h => hs.2 ▸ h.bound) tally finality
    exact hrest s hs.1

theorem processInstructions_apart (items : List CreditInstruction) (hv : v.Separate)
    (hb : b.view ∈ v.batches) (hnodup : (items.map (·.pk)).Nodup)
    (hitems : ∀ i ∈ items, i.view ∈ v.instructions ∧ i.batch = b.pk) (tally : Tally) :
    Apart (· = v) (processInstructions settings b handle items tally) fun _ v' =>
      v.Proceeds v' ∧ ∀ i ∈ items, v'.Bound i.pk := by
  induction items generalizing v tally with
  | nil =>
    refine Triple.pure fun s hs => ?_
    rw [hs]
    exact ⟨.refl hv, by simp⟩
  | cons i rest ih =>
    obtain ⟨hi, hib⟩ := hitems i List.mem_cons_self
    obtain ⟨hnew, hnodup⟩ := List.nodup_cons.mp hnodup
    refine Triple.bind (processInstruction_apart hv hb hi hib tally) fun tally' =>
      Apart.fix (Q := fun (_ : Tally) v'' => v.Proceeds v'' ∧ ∀ j ∈ i :: rest, v''.Bound j.pk)
        fun v' hbinds => ?_
    -- the other instructions are as they were read
    have hrest : ∀ j ∈ rest, j.view ∈ v'.instructions ∧ j.batch = b.pk := by
      intro j hj
      obtain ⟨hview, hjb⟩ := hitems j (List.mem_cons_of_mem i hj)
      refine ⟨hbinds.others _ hview fun hpk => hnew ?_, hjb⟩
      exact List.mem_map.mpr ⟨j, hj, hpk⟩
    refine Triple.mono (ih hbinds.separate (hbinds.batches ▸ hb) hnodup hrest tally')
      (fun _ h => h) fun _ s h => ⟨hbinds.toProceeds.trans h.1, fun j hj => ?_⟩
    rcases List.mem_cons.mp hj with rfl | hj
    · exact h.1.kept _ hbinds.bound
    · exact h.2 j hj

/-! ### The decision and the batch -/

theorem announce_apart (hv : v.Separate) (hb : b.view ∈ v.batches) (hurl : b.callbackUrl ≠ "")
    (decision : GovStackBatchDecision) :
    Apart (· = v) (announce b handle decision) fun _ => v.Proceeds := by
  have hannounced : b.view.announced = true := decide_eq_true hurl
  refine Triple.bind (Apart.still Still.assertCurrentOwner (· = v)) fun _ =>
    Triple.bind (Triple.mono (R := fun _ s => v.Proceeds s.toBulkStore.view)
      (getOrCreate_apart (v := v) (.inr rfl) fun a ha hkey =>
        (hv.announces_of_key ha hb hannounced hkey).fingerprint) (fun _ h => h)
          fun r s h => ?_) fun r => ?_
  · obtain ⟨a, -, hkey, ⟨hsame, -⟩ | ⟨hnew, hprint, -, -⟩⟩ := h
    · rw [hsame]
      exact .refl hv
    · rw [hnew]
      exact ⟨hv.withAttempt hb (.inr ⟨hannounced, hkey, hprint⟩), rfl, rfl, fun _ hm => hm⟩
  · obtain ⟨attempt, created⟩ := r
    exact Triple.bind (Apart.still Still.assertCurrentOwner v.Proceeds) fun _ =>
      Triple.bind (Apart.still Still.timezoneNow v.Proceeds) fun _ =>
        Triple.bind (Apart.still (Still.zoom (Ledger.SameBulk.queueCallback _ _ _ _)) v.Proceeds)
          fun _ => Triple.pure fun _ h => h

theorem auditDecision_still (entry : AuditEntry) :
    Keeps Still PaymentError.NotConflict (Session.audit entry) := .modify fun _ => rfl

theorem record_apart (hv : v.Separate) (hb : b.view ∈ v.batches)
    (decision : GovStackBatchDecision) (created : Bool) :
    Apart (· = v) (record b handle decision created) fun _ => v.Proceeds := by
  have hdone : Apart (· = v) (pure ()) fun _ => v.Proceeds :=
    Triple.pure fun s (hs : s.toBulkStore.view = v) => by rw [hs]; exact .refl hv
  unfold record
  refine Triple.ite (fun _ => ?_) fun _ => hdone
  refine Triple.bind (Apart.still Still.assertCurrentOwner (· = v)) fun _ =>
    Triple.bind (Apart.still (auditDecision_still _) (· = v)) fun _ => ?_
  exact Triple.ite (fun hurl => announce_apart hv hb hurl decision) fun _ => hdone

/-- The rows that the task reads are the instructions of the batch. -/
theorem instructionsOf_view {db : BulkStore} (h : db.view = v) :
    ((db.instructionsOf b.pk).map (·.pk)).Nodup ∧
      (∀ i ∈ db.instructionsOf b.pk, i.view ∈ v.instructions ∧ i.batch = b.pk) ∧
      ∀ v' : BulkView, (∀ i ∈ db.instructionsOf b.pk, v'.Bound i.pk) →
        ∀ i ∈ v.instructions, i.batch = b.pk → v'.Bound i.pk := by
  obtain rfl := h
  refine ⟨nodup_instructionsOf db b.pk, fun i hi => ?_, fun v' hbound i hi hib => ?_⟩
  · obtain ⟨hi, hib⟩ := List.mem_filter.mp hi
    exact ⟨List.mem_map_of_mem hi, of_decide_eq_true hib⟩
  · obtain ⟨row, hrow, rfl⟩ := List.mem_map.mp hi
    exact hbound row (List.mem_filter.mpr ⟨hrow, decide_eq_true hib⟩)

/-- The transaction that processes a batch proceeds without a conflict and binds every
instruction of a batch that is open. -/
theorem processBatch_apart (hv : v.Separate) (pk : Uuid) (found : Option BulkPaymentBatch) :
    Triple (fun s : Session => s.toBulkStore.view = v ∧ s.batches.get pk = found)
      (processBatch settings pk handle)
      (fun _ s => v.Proceeds s.toBulkStore.view ∧ ∀ b ∈ found, processable b = true →
        ∀ i ∈ v.instructions, i.batch = pk → s.toBulkStore.view.Bound i.pk)
      PaymentError.NotConflict := by
  unfold processBatch
  refine Triple.bind (Triple.lookup (Q := fun b s => s.toBulkStore.view = v ∧ found = some b ∧
    b.pk = pk ∧ b.view ∈ v.batches) nofun fun s b hs hget => ?_) fun b => ?_
  · obtain ⟨hb, hpk⟩ := Table.get_eq_some.mp hget
    exact ⟨hs.1, hs.2.symm.trans hget, hpk, hs.1 ▸ List.mem_map_of_mem hb⟩
  intro s hs
  obtain ⟨hs, rfl, rfl, hb⟩ := hs
  let Q : BulkView → Prop := fun v' => v.Proceeds v' ∧
    ∀ i ∈ v.instructions, i.batch = b.pk → v'.Bound i.pk
  suffices hrest : Apart (· = v) _ fun _ v' => v.Proceeds v' ∧ (processable b = true → Q v') from
    ((hrest s hs).imp_left fun h a t ht => ⟨(h a t ht).1, fun c hc hopen =>
      ((h a t ht).2 (Option.mem_some.mp hc ▸ hopen)).2⟩)
  refine Triple.bind (Apart.still Still.assertCurrentOwner (· = v)) fun _ =>
    Triple.ite (fun _ => ?_) fun hclosed => ?_
  · refine Triple.bind (Apart.still Still.heartbeat (· = v)) fun _ => Triple.get_bind fun r hr => ?_
    obtain ⟨hnodup, hitems, hall⟩ := instructionsOf_view hr
    refine Triple.mono (P := fun s => s.toBulkStore.view = v) (R := fun _ s =>
      v.Proceeds s.toBulkStore.view ∧ (processable b = true → Q s.toBulkStore.view))
      (Triple.bind (Triple.mono (R := fun _ s => Q s.toBulkStore.view)
        (processInstructions_apart _ hv hb hnodup hitems {}) (fun _ h => h)
        fun tally s h => ⟨h.1, hall _ h.2⟩) fun tally => ?_)
      (fun s (hs : s = r) => hs ▸ hr) fun _ _ h => h
    refine Triple.bind (Apart.still Still.assertCurrentOwner Q) fun _ =>
      Triple.bind (Apart.still (decide_still _ _ _ _) Q) fun r => ?_
    obtain ⟨decision, created⟩ := r
    refine Triple.bind (Apart.still (projectDecision_still _ _ _) Q) fun _ =>
      Apart.fix (Q := fun _ v' => v.Proceeds v' ∧ (processable b = true → Q v')) fun u hu => ?_
    refine Triple.mono (record_apart hu.1.separate (hu.1.batches ▸ hb) decision created)
      (fun _ h => h) fun _ s h => ?_
    have hproceeds := hu.1.trans h
    exact ⟨hproceeds, fun _ => ⟨hproceeds, fun i hi hib => h.kept _ (hu.2 i hi hib)⟩⟩
  · refine Triple.pure fun t ht => ?_
    rw [ht]
    exact ⟨.refl hv, fun hopen => absurd hopen hclosed⟩

end BulkTask

/-! ## Receiving -/

theorem clip_requestIdOf {b : BulkPaymentBatch} {i : CreditInstruction}
    (hb : BulkPaymentBatch.schema.Valid b) (hi : CreditInstruction.schema.Valid i) :
    clip 100 (requestIdOf b i) = requestIdOf b i := by
  have hwidths : b.requestId.length ≤ 16 ∧ i.instructionId.length ≤ 16 := by
    simp [Schema.Valid, BulkPaymentBatch.schema, CreditInstruction.schema, Check.width] at hb hi
    exact ⟨hb.1, hi.1⟩
  apply clip_of_le
  simp only [requestIdOf, String.length_append]
  have hcolon : ":".length = 1 := rfl
  omega

/-- What the constraints of the tables give. -/
theorem BulkStore.separate_view {db : BulkStore} (keysApart : db.view.KeysApart)
    (owned : ∀ i ∈ db.view.instructions, ∃ b ∈ db.view.batches, i.batch = b.pk)
    (records : ∀ a ∈ db.view.attempts, a.key.2.1 = operationBulkInstruction →
      ∃ b ∈ db.view.batches, ∃ i ∈ db.view.instructions, i.batch = b.pk ∧ a.Records b i)
    (announces : ∀ a ∈ db.view.attempts, a.key.2.1 = operationBulkCallback →
      ∃ b ∈ db.view.batches, a.Announces b)
    (bound : ∀ i ∈ db.view.instructions, ∀ pk ∈ i.attempt, ∃ a ∈ db.view.attempts, a.pk = pk ∧
      ∃ b ∈ db.view.batches, i.batch = b.pk ∧ a.Records b i)
    (pending : ∀ i ∈ db.view.instructions, i.attempt = none → i.untouched = true) :
    db.view.Separate := by
  refine { keysApart, owned, records, announces, bound, pending
           keysInBatch := ?_, uniqueBatches := ?_, unique := ?_ }
  · intro _ hbv _ hiv _ hjv hib hjb hkey
    obtain ⟨b, hb, rfl⟩ := List.mem_map.mp hbv
    obtain ⟨i, hi, rfl⟩ := List.mem_map.mp hiv
    obtain ⟨j, hj, rfl⟩ := List.mem_map.mp hjv
    have hclip : clip 100 (requestIdOf b i) = clip 100 (requestIdOf b j) :=
      congrArg (fun k : String × String × String => k.2.2) hkey
    rw [clip_requestIdOf (db.batches.valid b hb) (db.instructions.valid i hi),
      clip_requestIdOf (db.batches.valid b hb) (db.instructions.valid j hj)] at hclip
    have hid : i.instructionId = j.instructionId := by
      simpa [requestIdOf, String.append_assoc] using hclip
    have hbatch : i.batch = j.batch := Eq.trans hib (Eq.symm hjb)
    have hclash : CreditInstruction.uniqueInBatch.Clash i j :=
      ⟨by simp [CreditInstruction.uniqueInBatch], by
        simp [CreditInstruction.uniqueInBatch, hbatch, hid]⟩
    exact congrArg CreditInstruction.pk (Table.eq_of_clash (.head _) hi hj hclash)
  · intro _ hbv _ hcv hpk
    obtain ⟨b, hb, rfl⟩ := List.mem_map.mp hbv
    obtain ⟨c, hc, rfl⟩ := List.mem_map.mp hcv
    exact congrArg BulkPaymentBatch.view (Table.eq_of_pk hb hc hpk)
  · intro _ hiv _ hjv hpk
    obtain ⟨i, hi, rfl⟩ := List.mem_map.mp hiv
    obtain ⟨j, hj, rfl⟩ := List.mem_map.mp hjv
    exact congrArg CreditInstruction.view (Table.eq_of_pk hi hj hpk)

/-- A batch is received with unbound instructions of its own. -/
theorem BulkStore.separate_of_received
    {requestId sourceBbId batchId callbackUrl correlationId : String}
    {items : List GovStackBulkPaymentService.InstructionItem} {b : BulkPaymentBatch} {s t : Session}
    (hs : s.toBulkStore.view.Separate) (ht : t.toBulkStore.view.KeysApart)
    (h : GovStackBulkPaymentService.receiveBatch requestId sourceBbId batchId items callbackUrl
      correlationId s = .ok (b, t)) : t.toBulkStore.view.Separate := by
  obtain ⟨-, -, -, hinsert, ⟨is, hrows, hnew, -⟩, entry, -, hframe⟩ :=
    GovStackBulkPaymentService.receiveBatch_ok h
  have hbatches : t.toBulkStore.view.batches = s.toBulkStore.view.batches ++ [b.view] := by
    simp [view, (Table.insert_ok.mp hinsert).2]
  have hinstructions : t.toBulkStore.view.instructions =
      s.toBulkStore.view.instructions ++ is.map CreditInstruction.view := by
    simp [view, hrows]
  have hattempts : t.toBulkStore.view.attempts = s.toBulkStore.view.attempts := by
    rw [hframe]
    rfl
  have hold : ∀ c ∈ s.toBulkStore.view.batches, c ∈ t.toBulkStore.view.batches := fun c hc =>
    hbatches ▸ List.mem_append_left _ hc
  have hcases : ∀ i ∈ t.toBulkStore.view.instructions, i ∈ s.toBulkStore.view.instructions ∨
      i.batch = b.pk ∧ i.attempt = none ∧ i.untouched = true := by
    intro i hi
    rw [hinstructions] at hi
    rcases List.mem_append.mp hi with hi | hi
    · exact .inl hi
    · obtain ⟨row, hrow, rfl⟩ := List.mem_map.mp hi
      obtain ⟨hbatch, hstatus, hunbound⟩ := hnew row hrow
      exact .inr ⟨hbatch, hunbound, by simp [CreditInstruction.view, hstatus, hunbound]⟩
  refine separate_view ht (fun i hi => ?_) (fun a ha hop => ?_) (fun a ha hop => ?_)
    (fun i hi pk hpk => ?_) fun i hi hnone => ?_
  · rcases hcases i hi with hi | ⟨hib, -⟩
    · obtain ⟨c, hc, hic⟩ := hs.owned i hi
      exact ⟨c, hold c hc, hic⟩
    · exact ⟨b.view, hbatches ▸ List.mem_append_right _ (.head _), hib⟩
  · obtain ⟨c, hc, i, hi, hrest⟩ := hs.records a (hattempts ▸ ha) hop
    exact ⟨c, hold c hc, i, hinstructions ▸ List.mem_append_left _ hi, hrest⟩
  · obtain ⟨c, hc, hannounces⟩ := hs.announces a (hattempts ▸ ha) hop
    exact ⟨c, hold c hc, hannounces⟩
  · rcases hcases i hi with hi | ⟨-, hnone, -⟩
    · obtain ⟨a, ha, hapk, c, hc, hrest⟩ := hs.bound i hi pk hpk
      exact ⟨a, hattempts ▸ ha, hapk, c, hold c hc, hrest⟩
    · rw [hnone] at hpk
      cases hpk
  · rcases hcases i hi with hi | ⟨-, -, huntouched⟩
    · exact hs.pending i hi hnone
    · exact huntouched

/-! ## The system -/

/-- The writers of `bulk`, none of which makes attempts of the bulk task. -/
def BulkWriter.writeApart (db : BulkStore) : BulkWriter → Option BulkStore
  | ledger l => if l.bulkAttempts = db.ledger.bulkAttempts then (ledger l).write db else none
  | x => x.write db

/-- As `bulk`, from a ledger without attempts of the task. -/
def bulkApart : Program BulkStore BulkWorker BulkChoice BulkWriter where
  Init db := bulk.Init db ∧ db.ledger.bulkAttempts = []
  entry := bulk.entry
  halted := bulk.halted
  act := bulk.act
  env := BulkWriter.writeApart

theorem BulkWorker.act_separate {db db' : BulkStore} {p q : BulkWorker} {c : BulkChoice}
    (h : act db p c = some (db', q)) (hdb : db.view.Separate) : db'.view.Separate := by
  obtain ⟨rest, hrenews⟩ | ⟨batch, handle, t, rfl, rfl, hok⟩ := act_cases h
  · rw [show db'.view = db.view from Still.of_renews hrenews]
    exact hdb
  · exact ((BulkTask.processBatch_apart hdb batch _ _ ⟨rfl, rfl⟩).1 _ t hok).1.separate

theorem BulkWriter.writeApart_separate {db db' : BulkStore} {x : BulkWriter}
    (h : x.writeApart db = some db') (hdb : db.view.Separate) (hkeys : db'.view.KeysApart) :
    db'.view.Separate := by
  cases x with
  | receiveBatch requestId sourceBbId batchId instructions callbackUrl correlationId =>
    cases h
    obtain hsame | ⟨b, t, hok, ht⟩ := BulkWorker.commitAt_cases
      (GovStackBulkPaymentService.receiveBatch requestId sourceBbId batchId instructions callbackUrl
        correlationId) [] db
    · rw [hsame]
      exact hdb
    · rw [ht] at hkeys ⊢
      exact BulkStore.separate_of_received (s := ⟨db, []⟩) hdb hkeys hok
  | beneficiaries rows =>
    cases h
    exact hdb
  | ledger l =>
    simp only [writeApart, write, Option.ite_none_right_eq_some, Option.some.injEq] at h
    obtain ⟨hsame, -, rfl⟩ := h
    have hview : BulkStore.view { db with ledger := l } = db.view :=
      congrArg (BulkView.mk _ _) hsame
    rw [hview]
    exact hdb

/-- Along a run in which accepted batches never share a key. -/
theorem separate_of_reachable {s : Pool.State BulkStore BulkWorker}
    (h : (bulkApart.machine.under fun s _ => s.store.view.KeysApart).Reachable s)
    (hkeys : s.store.view.KeysApart) : s.store.view.Separate := by
  refine h.invariant (I := fun s => s.store.view.KeysApart → s.store.view.Separate) ?_ ?_ hkeys
  · rintro s₀ ⟨⟨⟨hbatches, hinstructions, -⟩, hattempts⟩, -⟩ hkeys
    have hrows : s₀.store.view.instructions = [] := by
      simp [BulkStore.view, hinstructions, Table.empty]
    refine BulkStore.separate_view hkeys ?_ ?_ ?_ ?_ ?_ <;>
      simp [hrows, show s₀.store.view.attempts = [] from hattempts]
  · intro u l v _ ih hstep hkeys
    obtain ⟨hbefore, hstep⟩ := Machine.under_step.mp hstep
    have hu := ih hbefore
    obtain ⟨p, -, -, rfl⟩ | ⟨i, c, p, st, q, -, -, hact, rfl⟩ | ⟨i, -, rfl⟩ |
      ⟨x, st, -, henv, rfl⟩ := Program.step_cases hstep
    · exact hu
    · exact BulkWorker.act_separate hact hu
    · exact hu
    · exact BulkWriter.writeApart_separate henv hu hkeys

/-- The attempt was made for this instruction of this batch. -/
structure PaymentAttempt.MadeFor (a : PaymentAttempt) (b : BulkPaymentBatch)
    (i : CreditInstruction) : Prop where
  batch : i.batch = b.pk
  key : a.scopeKey = attemptKey "" operationBulkInstruction (requestIdOf b i)
  fingerprint : a.payloadFingerprint = fingerprint
    (instructionPayload b.pk i.pk i.amount i.currency)
  amount : a.amount = some i.amount
  currency : a.currency = i.currency

/-- The instruction is bound to an attempt of its own. -/
def BulkStore.HasOwnAttempt (db : BulkStore) (i : CreditInstruction) : Prop :=
  ∃ b a, db.batches.get i.batch = some b ∧ i.paymentAttempt.bind db.ledger.attempt = some a ∧
    a.MadeFor b i ∧ ∀ j ∈ db.instructions.rows, j.paymentAttempt = some a.pk → j = i

theorem BulkView.Separate.hasOwnAttempt {db : BulkStore} (h : db.view.Separate)
    {i : CreditInstruction} (hi : i ∈ db.instructions.rows) {pk : Uuid}
    (hbound : i.paymentAttempt = some pk) : db.HasOwnAttempt i := by
  obtain ⟨_, hav, rfl, _, hbv, hib, hrecords⟩ := h.bound i.view (List.mem_map_of_mem hi) pk hbound
  obtain ⟨a, ha, rfl⟩ := List.mem_map.mp (List.mem_of_mem_filter hav)
  obtain ⟨b, hb, rfl⟩ := List.mem_map.mp hbv
  have hbatch : i.batch = b.pk := hib
  refine ⟨b, a, Table.get_eq_some.mpr ⟨hb, hbatch.symm⟩, ?_, ?_, fun j hj hsame => ?_⟩
  · rw [hbound]
    exact Table.get_eq_some.mpr ⟨ha, rfl⟩
  · exact ⟨hbatch, hrecords.key, hbatch ▸ hrecords.fingerprint, hrecords.amount, hrecords.currency⟩
  · have hclash : CreditInstruction.oneToOne.Clash j i :=
      ⟨by simp [CreditInstruction.oneToOne, hsame], hsame.trans hbound.symm⟩
    exact Table.eq_of_clash (.tail _ (.head _)) hj hi hclash

/-- In every run in which accepted batches never share a key, every instruction that is bound has
an attempt of its own, and processing a batch, by any delivery at any time, meets no attempt of
another batch: it is refused no key, and leaves every instruction of an open batch with its own
attempt. -/
theorem batches_apart {s : Pool.State BulkStore BulkWorker}
    (h : (bulkApart.machine.under fun s _ => s.store.view.KeysApart).Reachable s)
    (hkeys : s.store.view.KeysApart) :
    (∀ i ∈ s.store.instructions.rows, i.paymentAttempt ≠ none → s.store.HasOwnAttempt i) ∧
    ∀ settings batch handle clock,
      (∀ message, BulkTask.processBatch settings batch handle ⟨s.store, clock⟩ ≠
        .error (.idempotencyConflict message)) ∧
      ∀ b t, s.store.batches.get batch = some b → BulkTask.processable b = true →
        BulkTask.processBatch settings batch handle ⟨s.store, clock⟩ = .ok ((), t) →
          ∀ i ∈ t.instructionsOf batch, t.HasOwnAttempt i := by
  have hseparate := separate_of_reachable h hkeys
  refine ⟨fun i hi hbound => ?_, fun settings batch handle clock => ?_⟩
  · obtain ⟨pk, hpk⟩ := Option.ne_none_iff_exists'.mp hbound
    exact hseparate.hasOwnAttempt hi hpk
  have hprocess : Triple _ (BulkTask.processBatch settings batch handle) _ _ :=
    BulkTask.processBatch_apart hseparate batch (s.store.batches.get batch)
  obtain ⟨hok, herror⟩ := hprocess ⟨s.store, clock⟩ ⟨rfl, rfl⟩
  refine ⟨fun message he => herror _ he message rfl, fun b t hb hopen ht i hi => ?_⟩
  obtain ⟨hproceeds, hall⟩ := hok () t ht
  obtain ⟨hget, hib⟩ := BulkTask.mem_instructionsOf.mp hi
  have hi' : i.view ∈ t.toBulkStore.view.instructions :=
    List.mem_map_of_mem (Table.mem_of_get hget)
  -- the instruction was there before, so it was processed
  obtain ⟨x, hx, hidentity⟩ : ∃ x ∈ s.store.view.instructions, x.identity = i.view.identity := by
    have hmem := List.mem_map_of_mem (f := InstructionView.identity) hi'
    rw [hproceeds.identities] at hmem
    obtain ⟨x, hx, hidentity⟩ := List.mem_map.mp hmem
    exact ⟨x, hx, hidentity⟩
  have hpk : x.pk = i.pk := congrArg (·.1) hidentity
  have hbatch : x.batch = i.batch := congrArg (·.2.1) hidentity
  obtain ⟨y, hy, hypk, hsome⟩ := hall b hb hopen x hx (hbatch.trans hib)
  obtain rfl := hproceeds.separate.unique y hy i.view hi' (hypk.trans hpk)
  obtain ⟨pk, hattempt⟩ := Option.isSome_iff_exists.mp hsome
  exact hproceeds.separate.hasOwnAttempt (Table.mem_of_get hget) hattempt

/-- Two batches with one instruction each; the first is processed, the second is admitted. -/
def twoBatches (requestId requestId' : String) :
    List (Pool.Label BulkWorker BulkChoice BulkWriter) := [
  .env (.receiveBatch requestId "s" "b" [⟨"i", "p", 100, "CAD"⟩] "" ""),
  .env (.receiveBatch requestId' "t" "c" [⟨"i", "q", 200, "CAD"⟩] "" ""),
  .env (.beneficiaries [⟨"p", true⟩, ⟨"q", true⟩]),
  .spawn (.admitDelivery 1 "w"), .act 0 quickChoice, .act 0 quickChoice, .act 0 quickChoice,
  .spawn (.admitDelivery 2 "w"), .act 1 quickChoice]

/-- Two batches of different requests. -/
def apartBatches : Pool.State BulkStore BulkWorker :=
  (bulkApart.machine.under fun s _ => s.store.view.KeysApart).final ⟨{}, []⟩ (twoBatches "q" "r")

/-- Two batches of one request, from different senders. -/
def sharedRequest : Pool.State BulkStore BulkWorker :=
  bulkApart.machine.final ⟨{}, []⟩ (twoBatches "r" "r")

theorem init_empty : bulkApart.machine.Init ⟨{}, []⟩ :=
  ⟨⟨⟨rfl, rfl, rfl, rfl, List.forall_mem_nil _⟩, rfl⟩, rfl⟩

theorem batches_apart_processed :
    apartBatches.store.instructions.rows.map (·.paymentAttempt) = [some 1, none] ∧
    (∀ i ∈ apartBatches.store.instructions.rows, i.paymentAttempt ≠ none →
      apartBatches.store.HasOwnAttempt i) ∧
    ∀ settings handle clock message,
      BulkTask.processBatch settings 2 handle ⟨apartBatches.store, clock⟩ ≠
        .error (.idempotencyConflict message) := by
  have hreachable := Machine.Reachable.final
    (M := bulkApart.machine.under fun s _ => s.store.view.KeysApart) (s := ⟨{}, []⟩) init_empty
    (twoBatches "q" "r")
  obtain ⟨hown, hprocess⟩ := batches_apart (s := apartBatches) hreachable (by decide +kernel)
  exact ⟨by decide +kernel, hown, fun settings handle clock message =>
    (hprocess settings 2 handle clock).1 message⟩

/-- Two batches with one request id and one instruction id give one key: the second batch is
refused because of the attempt of the first. -/
theorem batches_collide : ¬ ∀ s, bulkApart.machine.Reachable s →
    ∀ settings batch handle clock message,
      BulkTask.processBatch settings batch handle ⟨s.store, clock⟩ ≠
        .error (.idempotencyConflict message) := by
  intro hnever
  have hreachable : bulkApart.machine.Reachable sharedRequest :=
    Machine.Reachable.final (M := bulkApart.machine) (s := ⟨{}, []⟩) init_empty _
  have hconflict : (commitAt (BulkTask.processBatch quickChoice.settings 2 ⟨2, "w", 1⟩) []
      sharedRequest.store).1 =
        .error (.idempotencyConflict "idempotency key was reused with a different payload") := by
    decide +kernel
  cases hprocess : BulkTask.processBatch quickChoice.settings 2 ⟨2, "w", 1⟩
      ⟨sharedRequest.store, []⟩ with
  | ok r =>
    rw [commitAt, commit_of_ok (a := r.1) (t := r.2) hprocess] at hconflict
    cases hconflict
  | error e =>
    rw [commitAt, commit_of_error hprocess] at hconflict
    obtain rfl := Except.error.inj hconflict
    exact hnever sharedRequest hreachable _ _ _ _ _ hprocess

end Civicos.Payments
