import Civicos.Payments.Runtime

/-!
# What the operations do to the ledger

`Change` lists the ways in which one write can alter attempts, observations and execution
intents. Every operation is a sequence of changes, so an invariant only has to be checked
against the seven kinds of change.
-/
namespace Civicos.Payments

open Library Library.Transaction Relation

namespace ProviderObservation

/-- The observation is verified evidence for exactly this attempt. -/
structure Binds (o : ProviderObservation) (a : PaymentAttempt) : Prop where
  attempt : o.attempt = a.pk
  tenant : o.tenantId = a.tenantId
  amount : some o.amount = a.amount
  currency : upper o.currency = upper a.currency
  hash : o.bindingHash =
    PaymentLifecycleService.bindingHash a.tenantId a a.amount a.currency
  verified : o.verified = true

end ProviderObservation

namespace Ledger

/-- A submission of the attempt has been admitted. -/
def Marked (l : Ledger) (pk : Uuid) : Prop :=
  ∃ i, l.intentOf pk = some i ∧ i.submitStartedAt.isSome

/-- One write. `L` are the statuses that a writer may set without evidence. -/
inductive Change (L : AttemptStatus → Prop) (l l' : Ledger) : Prop where
  | quiet (attempts : l'.attempts = l.attempts) (observations : l'.observations = l.observations)
      (intents : l'.intents = l.intents)
  | mark (attempts : l'.attempts = l.attempts) (observations : l'.observations = l.observations)
      (marked : ∀ pk, l.Marked pk → l'.Marked pk)
  | insert (a : PaymentAttempt) (pending : a.status = .pending) (pk : a.pk = l.attempts.next)
      (attempts : l.attempts.insert a = .ok l'.attempts)
      (observations : l'.observations = l.observations) (intents : l'.intents = l.intents)
  | touch (a a' : PaymentAttempt) (get : l.attempt a.pk = some a)
      (identity : a'.identity = a.identity) (status : a'.status = a.status)
      (reference : a'.externalTransactionId = a.externalTransactionId)
      (attempts : l.attempts.update a.pk (fun _ => a') = .ok l'.attempts)
      (observations : l'.observations = l.observations) (intents : l'.intents = l.intents)
  | move (a a' : PaymentAttempt) (get : l.attempt a.pk = some a) (live : a.isTerminal = false)
      (identity : a'.identity = a.identity) (status : L a'.status)
      (attempts : l.attempts.update a.pk (fun _ => a') = .ok l'.attempts)
      (observations : l'.observations = l.observations) (intents : l'.intents = l.intents)
  | observe (a : PaymentAttempt) (o : ProviderObservation) (get : l.attempt a.pk = some a)
      (bound : o.attempt = a.pk) (late : o.acceptedFinality = true → a.isTerminal = true)
      (observations : l.observations.insert o = .ok l'.observations)
      (attempts : l'.attempts = l.attempts) (intents : l'.intents = l.intents)
  | settle (a a' : PaymentAttempt) (o : ProviderObservation) (get : l.attempt a.pk = some a)
      (live : a.isTerminal = false) (identity : a'.identity = a.identity) (binds : o.Binds a)
      (accepted : o.acceptedFinality = true) (status : o.outcome.final = some a'.status)
      (reference : a'.externalTransactionId = o.providerTransactionId)
      (observations : l.observations.insert o = .ok l'.observations)
      (attempts : l.attempts.update a.pk (fun _ => a') = .ok l'.attempts)
      (intents : l'.intents = l.intents)

abbrev Evolves (L : AttemptStatus → Prop) : Ledger → Ledger → Prop := ReflTransGen (Change L)

end Ledger

/-! ## Reading and writing attempts -/

namespace PaymentAttempt

variable {l l' : Ledger} {a : PaymentAttempt} {pk : Uuid} {u : Unit}

theorem getLocked_ok : getLocked pk l = .ok (a, l') ↔ l.attempt pk = some a ∧ l' = l :=
  lookup_ok

theorem save_ok : a.save l = .ok (u, l') ↔
    ∃ t, l.attempts.update a.pk (fun _ => a) = .ok t ∧ l' = { l with attempts := t } :=
  write_ok

theorem transitionTo_ok {s : AttemptStatus} {f : TransitionFields} {b : PaymentAttempt} :
    a.transitionTo s f = .ok b ↔ s ∈ a.status.allowedTransitions ∧ b = { a with
      status := s
      failureCode := f.failureCode
      failureCategory := f.failureCategory
      retryable := f.retryable
      providerAttemptId := f.providerAttemptId
      externalTransactionId := f.externalTransactionId
      lastError := f.lastError
      version := a.version + 1 } := by
  unfold transitionTo
  split
  next h => simp [h, eq_comm]
  next h => simp [h]

theorem pk_of_attempt (h : l.attempt pk = some a) : a.pk = pk := Table.pk_of_get h

/-- Stored attempts fit their columns. -/
theorem valid_of_attempt (h : l.attempt pk = some a) : schema.Valid a :=
  l.attempts.valid a (Table.mem_of_get h)

theorem tenantId_width (h : schema.Valid a) : a.tenantId.length ≤ 100 := by
  simpa [Check.width] using h (.width "tenant_id" 100 tenantId) (by simp [schema])

theorem currency_width (h : schema.Valid a) : a.currency.length ≤ 3 := by
  simpa [Check.width] using h (.width "currency" 3 currency) (by simp [schema])

end PaymentAttempt

namespace PaymentLifecycleService

variable {L : AttemptStatus → Prop} {l l' : Ledger} {a b : PaymentAttempt} {pk : Uuid}
  {now : Instant} {outcome : PaymentOutcome}

@[simp] theorem audit_apply (action : AuditAction) (details : Json) : ∃ audits,
    audit a action details l = .ok ((), { l with audits := audits }) :=
  ⟨_, rfl⟩

theorem schedule_apply (a : PaymentAttempt) (target : AttemptStatus) (now : Instant)
    (l : Ledger) : ∃ due audits, schedule a target now l =
      .ok ({ a with nextRetryAt := due }, { l with audits := audits }) := by
  cases target <;> exact ⟨_, _, rfl⟩

/-- The row that `apply_outcome` writes, up to the retry time. -/
def outcomeRow (a : PaymentAttempt) (outcome : PaymentOutcome) (due : Option Instant) :
    PaymentAttempt :=
  { a with
    status := outcome.status.toStatus
    failureCode := clip 50 outcome.code
    failureCategory := clip 30 outcome.category
    retryable := outcome.retryable
    providerAttemptId := clip 100 outcome.providerAttemptId
    externalTransactionId := clip 100 outcome.externalTransactionId
    lastError := clip 255 outcome.message
    version := a.version + 1
    attemptCount := a.attemptCount + 1
    nextRetryAt := due }

/-- A terminal attempt absorbs every outcome; otherwise the transition table decides. -/
theorem applyOutcome_ok (h : applyOutcome pk outcome now l = .ok (b, l')) :
    ∃ a, l.attempt pk = some a ∧ ((a.isTerminal = true ∧ b = a ∧ l' = l) ∨
      (a.isTerminal = false ∧ outcome.status.toStatus ∈ a.status.allowedTransitions ∧
        ∃ due t audits, b = outcomeRow a outcome due ∧
          l.attempts.update pk (fun _ => b) = .ok t ∧
          l' = { l with attempts := t, audits := audits })) := by
  unfold applyOutcome at h
  obtain ⟨a, _, hlock, h₁⟩ := bind_ok.mp h
  obtain ⟨hget, rfl⟩ := PaymentAttempt.getLocked_ok.mp hlock
  refine ⟨a, hget, ?_⟩
  split at h₁
  next hterm =>
    obtain ⟨rfl, rfl⟩ := pure_ok.mp h₁
    exact .inl ⟨hterm, rfl, rfl⟩
  next hterm =>
    obtain ⟨a₁, _, hlift, h₂⟩ := bind_ok.mp h₁
    obtain ⟨hmove, rfl⟩ := lift_ok.mp hlift
    obtain ⟨hallowed, rfl⟩ := PaymentAttempt.transitionTo_ok.mp hmove
    obtain ⟨a₂, l₂, hsched, h₃⟩ := bind_ok.mp h₂
    obtain ⟨due, audits, hs⟩ := schedule_apply _ _ _ _
    rw [hs] at hsched
    cases hsched
    obtain ⟨_, l₃, hsave, h₄⟩ := bind_ok.mp h₃
    obtain ⟨t, hupd, rfl⟩ := PaymentAttempt.save_ok.mp hsave
    cases h₄
    refine .inr ⟨by simpa using hterm, hallowed, due, t, _, rfl, ?_, rfl⟩
    rwa [show pk = a.pk from (PaymentAttempt.pk_of_attempt hget).symm]

/-! ### Observations -/

/-- The row that `record_observation` creates. -/
def observationRow (a : PaymentAttempt) (e : Evidence) (amount : Cents) (pk : Uuid) :
    ProviderObservation where
  pk := pk
  attempt := a.pk
  tenantId := clip 100 e.tenantId
  observationKind := clip 20 e.observationKind
  observationId := clip 160 e.observationId
  providerTransactionId := clip 100 e.providerTransactionId
  eventId := clip 160 e.eventId
  amount := amount
  currency := clip 3 e.currency
  outcome := e.outcome.clip 20
  verified := e.verified
  verificationMethod := clip 80 e.verificationMethod
  bindingHash := e.bindingHash.clip64
  acceptedFinality := e.exact a
  metadata := e.metadata

/-- The outcome that an exact observation applies. -/
def evidenceOutcome (e : Evidence) : PaymentOutcome where
  status := Report.outcomeStatus e.outcome
  providerAttemptId := e.providerTransactionId
  externalTransactionId := e.providerTransactionId

theorem recordObservation_ok {e : Evidence} {o : ProviderObservation}
    (hget : l.attempt a.pk = some a) (h : recordObservation a e now l = .ok (o, l')) :
    ∃ amount t, e.amount = some amount ∧
      o = observationRow a e amount l.observations.next ∧ l.observations.insert o = .ok t ∧
      if e.exact a = true ∧ a.isTerminal = false then
        ∃ b, applyOutcome a.pk (evidenceOutcome e) now { l with observations := t } = .ok (b, l')
      else ∃ audits, l' = { l with observations := t, audits := audits } := by
  unfold recordObservation at h
  obtain ⟨b, _, hlock, h₁⟩ := bind_ok.mp h
  obtain ⟨hb, rfl⟩ := PaymentAttempt.getLocked_ok.mp hlock
  obtain rfl : a = b := Option.some.inj (hget.symm.trans hb)
  cases hamount : e.amount with
  | none =>
    rw [hamount] at h₁
    cases h₁
  | some amount =>
    rw [hamount] at h₁
    obtain ⟨o', l₁, hcreate, h₂⟩ := bind_ok.mp h₁
    obtain ⟨ho, t, hins, rfl⟩ := create_ok.mp hcreate
    subst ho
    refine ⟨amount, t, rfl, ?_⟩
    by_cases hc : e.exact a = true ∧ a.isTerminal = false
    · rw [if_pos (by simpa using hc)] at h₂
      obtain ⟨b, l₂, happ, h₃⟩ := bind_ok.mp h₂
      obtain ⟨rfl, rfl⟩ := pure_ok.mp h₃
      exact ⟨rfl, hins, by rw [if_pos hc]; exact ⟨b, happ⟩⟩
    · rw [if_neg (by simpa using hc)] at h₂
      obtain ⟨_, l₂, haudit, h₃⟩ := bind_ok.mp h₂
      obtain ⟨rfl, rfl⟩ := pure_ok.mp h₃
      cases haudit
      exact ⟨rfl, hins, by rw [if_neg hc]; exact ⟨_, rfl⟩⟩

theorem Evidence.exact_iff {e : Evidence} : e.exact a = true ↔
    e.tenantId = a.tenantId ∧ e.amount = a.amount ∧ upper e.currency = upper a.currency ∧
      e.bindingHash = PaymentLifecycleService.bindingHash e.tenantId a e.amount e.currency ∧
      e.verified = true ∧ (e.outcome = .settled ∨ e.outcome = .rejected) := by
  simp [Evidence.exact]

/-- Exact evidence is stored as evidence for exactly its attempt. -/
theorem binds_of_exact {e : Evidence} {amount : Cents} (hv : PaymentAttempt.schema.Valid a)
    (ha : e.amount = some amount) (h : e.exact a = true) (pk : Uuid) :
    (observationRow a e amount pk).Binds a := by
  obtain ⟨htenant, hamount, hcurrency, hhash, hverified, -⟩ := Evidence.exact_iff.mp h
  have hwidth : e.currency.length ≤ 3 := by
    rw [← length_upper, hcurrency, length_upper]
    exact PaymentAttempt.currency_width hv
  exact {
    attempt := rfl
    tenant := by
      simp only [observationRow, htenant]
      exact clip_of_le (PaymentAttempt.tenantId_width hv)
    amount := ha ▸ hamount
    currency := by simpa only [observationRow, clip_of_le hwidth] using hcurrency
    hash := by
      simp only [observationRow, hhash, htenant, hamount]
      simp only [bindingHash, Digest.clip64, hcurrency]
    verified := hverified }

theorem final_of_exact {e : Evidence} (h : e.exact a = true) :
    (e.outcome.clip 20).final = some (evidenceOutcome e).status.toStatus := by
  obtain ⟨-, -, -, -, -, ho | ho⟩ := Evidence.exact_iff.mp h
  all_goals simp [ho, evidenceOutcome, Report.clip, Report.final, Report.outcomeStatus,
    OutcomeStatus.toStatus]

/-! ### Relations that the parts of an operation keep -/

section Parts

variable {R : Ledger → Ledger → Prop} [Std.Refl R] [IsTrans Ledger R]

theorem getOrCreateAttempt_within {tenantId operation requestId : String} {payload : Json}
    {defaults : PaymentAttempt.Defaults} {auditCreated : Bool}
    (hcreate : ∀ key operation requestId digest,
      Within R (PaymentAttempt.create key operation requestId digest defaults))
    (haudit : ∀ b action details, Within R (audit b action details)) :
    Within R (getOrCreateAttempt tenantId operation requestId payload defaults auditCreated) := by
  refine .get fun l => ?_
  split
  · exact .ite (fun _ => .throw_bind _) fun _ => .pure _
  · refine .bind (hcreate _ _ _ _) fun b => ?_
    exact .ite (fun _ => .bind (haudit _ _ _) fun _ => .pure _) fun _ => .pure _

theorem queueCallback_within {url : String} {payload : Json}
    (hcreate : ∀ build : Uuid → CallbackDelivery,
      Within R (create Ledger.callbackTable PaymentError.ofViolation build))
    (haudit : ∀ b action details, Within R (audit b action details)) :
    Within R (queueCallback a url payload now) := by
  refine .get fun l => ?_
  split
  · exact .pure _
  · exact .bind (hcreate _) fun _ => .bind (haudit _ _ _) fun _ => .pure _

end Parts

/-! ### Every operation is a sequence of changes -/

open Ledger

theorem applyOutcome_evolves (hL : L outcome.status.toStatus) :
    Within (Evolves L) (applyOutcome pk outcome now) := by
  intro l b l' h
  obtain ⟨a, hget, ⟨-, -, rfl⟩ | ⟨hlive, -, due, t, audits, rfl, hupd, rfl⟩⟩ := applyOutcome_ok h
  · exact .refl
  · obtain rfl := PaymentAttempt.pk_of_attempt hget
    exact .single (.move a (outcomeRow a outcome due) hget hlive rfl hL hupd rfl rfl)

theorem recordObservation_evolves {e : Evidence} {o : ProviderObservation}
    (hget : l.attempt a.pk = some a) (h : recordObservation a e now l = .ok (o, l')) :
    Evolves L l l' := by
  obtain ⟨amount, t, hamount, rfl, hins, h⟩ := recordObservation_ok hget h
  split at h
  next hc =>
    obtain ⟨b, happ⟩ := h
    obtain ⟨a', hget', ⟨hterm, -⟩ | ⟨-, -, due, t', audits, rfl, hupd, rfl⟩⟩ := applyOutcome_ok happ
    · obtain rfl : a = a' := Option.some.inj (hget.symm.trans hget')
      simp [hc.2] at hterm
    · obtain rfl : a = a' := Option.some.inj (hget.symm.trans hget')
      exact .single (.settle a (outcomeRow a (evidenceOutcome e) due) _ hget hc.2 rfl
        (binds_of_exact (PaymentAttempt.valid_of_attempt hget) hamount hc.1 _) hc.1
        (final_of_exact hc.1) rfl hins hupd rfl)
  next hc =>
    obtain ⟨audits, rfl⟩ := h
    refine .single (.observe a _ hget rfl (fun hacc => ?_) hins rfl rfl)
    by_contra hlive
    exact hc ⟨hacc, by simpa using hlive⟩

theorem getLocked_evolves (pk : Uuid) : Within (Evolves L) (PaymentAttempt.getLocked pk) := by
  intro l a l' h
  obtain ⟨-, rfl⟩ := PaymentAttempt.getLocked_ok.mp h
  exact .refl

theorem audit_evolves (action : AuditAction) (details : Json) :
    Within (Evolves L) (audit a action details) := by
  rintro l u l' ⟨⟩
  exact .single (.quiet rfl rfl rfl)

theorem reconcileRow_evolves (provider : Report) (source : String) :
    Within (Evolves L) (reconcileRow a provider source) := by
  intro l r l' h
  obtain ⟨-, t, -, rfl⟩ := create_ok.mp h
  exact .single (.quiet rfl rfl rfl)

theorem reconcile_evolves (provider : Report) (source : String) :
    Within (Evolves L) (reconcile a provider source) :=
  .bind (reconcileRow_evolves provider source) fun _ =>
    .bind (audit_evolves _ _) fun _ => .pure _

theorem queueCallback_evolves (url : String) (payload : Json) :
    Within (Evolves L) (queueCallback a url payload now) := by
  refine queueCallback_within (fun build => ?_) fun _ => audit_evolves
  intro l d l' h
  obtain ⟨-, t, -, rfl⟩ := create_ok.mp h
  exact .single (.quiet rfl rfl rfl)

theorem create_evolves (tenantId operation requestId : String) (digest : Digest Json)
    (defaults : PaymentAttempt.Defaults) :
    Within (Evolves L) (PaymentAttempt.create tenantId operation requestId digest defaults) := by
  intro l b l' h
  obtain ⟨rfl, t, hins, rfl⟩ := create_ok.mp h
  exact .single (.insert _ rfl rfl hins rfl rfl)

theorem getOrCreateAttempt_evolves (tenantId operation requestId : String) (payload : Json)
    (defaults : PaymentAttempt.Defaults) (auditCreated : Bool) :
    Within (Evolves L)
      (getOrCreateAttempt tenantId operation requestId payload defaults auditCreated) :=
  getOrCreateAttempt_within (fun _ _ _ _ => create_evolves _ _ _ _ _) fun _ => audit_evolves

section Runtime

variable (hL : ∀ s : AttemptStatus, s.isTerminal = false → L s)

include hL

theorem nonFinalOutcome_live (r : ProviderResult) : L (nonFinalOutcome r).status.toStatus := by
  unfold nonFinalOutcome
  split
  · exact hL _ rfl
  · split <;> exact hL _ rfl

theorem conclude_evolves (accepted : Bool) (n : ProviderResult) :
    Within (Evolves L) (conclude pk accepted n now) := by
  refine .bind (getLocked_evolves _) fun b => ?_
  have rest : Within (Evolves L) (do
      let attempt ← PaymentAttempt.getLocked pk
      let _ ← reconcile attempt (if isVerified n then finalOutcome n.outcome else .unknown) :
        Tx Unit) :=
    .bind (getLocked_evolves _) fun _ => .bind (reconcile_evolves _ _) fun _ => .pure _
  exact .ite (fun _ => .bind (applyOutcome_evolves (nonFinalOutcome_live hL n)) fun _ => rest)
    fun _ => rest

theorem recordProviderResult_evolves {result : ProviderResult} {source : String}
    {o : ProviderObservation} (hget : l.attempt a.pk = some a)
    (h : recordProviderResult a result now source l = .ok (o, l')) : Evolves L l l' := by
  obtain ⟨o', l₁, hobs, h₁⟩ := bind_ok.mp h
  obtain ⟨_, l₂, hconclude, h₂⟩ := bind_ok.mp h₁
  cases h₂
  exact (recordObservation_evolves hget hobs).trans (conclude_evolves hL _ _ _ _ _ hconclude)

end Runtime

end PaymentLifecycleService

/-! ## Execution intents -/

namespace PaymentExecutionIntent

open Ledger

variable {L : AttemptStatus → Prop} {l l' : Ledger} {i : PaymentExecutionIntent} {pk : Uuid}

/-- An attempt has one intent. -/
theorem eq_of_attempt {j : PaymentExecutionIntent} (hi : i ∈ l.intents.rows)
    (hj : j ∈ l.intents.rows) (h : i.attempt = j.attempt) : i = j :=
  Table.eq_of_clash (i := oneToOne) (.head _) hi hj ⟨Option.some_ne_none _, congrArg some h⟩

theorem intentOf_eq_some : l.intentOf pk = some i ↔ i ∈ l.intents.rows ∧ i.attempt = pk :=
  (Table.find?_eq_some (i := oneToOne) (.head _) pk (by simp [oneToOne])).trans
    (by simp [oneToOne])

theorem marked_iff :
    l.Marked pk ↔ ∃ i ∈ l.intents.rows, i.attempt = pk ∧ i.submitStartedAt.isSome = true := by
  simp only [Marked, intentOf_eq_some, and_assoc]

theorem create_evolves (a : PaymentAttempt) (scope operation requestIdentity : String)
    (digest : Digest Json) :
    Within (Evolves L) (create a scope operation requestIdentity digest) := by
  intro l i l' h
  obtain ⟨-, t, hins, rfl⟩ := create_ok.mp h
  refine .single (.mark rfl rfl fun pk hm => ?_)
  obtain ⟨j, hj, hja, hjs⟩ := marked_iff.mp hm
  exact marked_iff.mpr ⟨j, by simp [intentTable, (Table.insert_ok.mp hins).2, hj], hja, hjs⟩

/-- Saving an intent keeps its identity columns and rewrites one row. -/
theorem save_ok {u : Unit} (h : i.save l = .ok (u, l')) : ∃ j t, l.intents.get i.pk = some j ∧
    i.attempt = j.attempt ∧ l.intents.update i.pk (fun _ => i) = .ok t ∧
    l' = { l with intents := t } := by
  obtain ⟨j, _, hlook, h₁⟩ := bind_ok.mp h
  obtain ⟨hj, rfl⟩ := lookup_ok.mp hlook
  split at h₁
  · cases h₁
  next hid =>
    split at h₁
    · cases h₁
    next =>
      obtain ⟨t, hupd, rfl⟩ := write_ok.mp h₁
      exact ⟨j, t, hj, congrArg Identity.attempt (not_not.mp hid).symm, hupd, rfl⟩

theorem save_marked {u : Unit} (h : i.save l = .ok (u, l')) : l'.Marked pk ↔
    if i.attempt = pk then i.submitStartedAt.isSome = true else l.Marked pk := by
  obtain ⟨j, t, hj, hij, hupd, rfl⟩ := save_ok h
  have hmem := fun k => Table.mem_update (a := k) hupd hj
  obtain ⟨hjmem, hjpk⟩ := Table.get_eq_some.mp hj
  split
  next hpk =>
    rw [marked_iff]
    constructor
    · rintro ⟨k, hk, hka, hks⟩
      obtain ⟨hk, hne⟩ | rfl := (hmem k).mp hk
      · have hkj : k = j := eq_of_attempt hk hjmem (by rw [hka, ← hij, hpk])
        exact absurd (hkj ▸ hjpk) hne
      · exact hks
    · exact fun hs => ⟨i, (hmem i).mpr (.inr rfl), hpk, hs⟩
  next hpk =>
    rw [marked_iff, marked_iff]
    constructor
    · rintro ⟨k, hk, hka, hks⟩
      obtain ⟨hk, -⟩ | rfl := (hmem k).mp hk
      · exact ⟨k, hk, hka, hks⟩
      · exact absurd hka hpk
    · rintro ⟨k, hk, hka, hks⟩
      refine ⟨k, (hmem k).mpr (.inl ⟨hk, fun hkp => hpk ?_⟩), hka, hks⟩
      rw [hij, ← Table.eq_of_pk hk hjmem (hkp.trans hjpk.symm), hka]

/-- A save that does not take the submission marker back. -/
theorem save_evolves (h : ∀ j, l.intents.get i.pk = some j →
    j.submitStartedAt.isSome = true → i.submitStartedAt.isSome = true) {u : Unit}
    (hs : i.save l = .ok (u, l')) : Evolves L l l' := by
  obtain ⟨j, t, hj, hij, hupd, rfl⟩ := save_ok hs
  refine .single (.mark rfl rfl fun pk hm => (save_marked hs).mpr ?_)
  split
  next hpk =>
    obtain ⟨k, hk, hka, hks⟩ := marked_iff.mp hm
    have hkj : k = j := eq_of_attempt hk (Table.mem_of_get hj) (by rw [hka, ← hij, hpk])
    exact h j hj (hkj ▸ hks)
  next => exact hm

theorem reserve_within {R : Ledger → Ledger → Prop} [Std.Refl R] [IsTrans Ledger R]
    {a : PaymentAttempt} {scope operation requestIdentity : String} {payload : Json}
    (hcreate : ∀ digest, Within R (create a scope operation requestIdentity digest)) :
    Within R (reserve a scope operation requestIdentity payload) := by
  unfold reserve
  refine .bind (exceptIntegrityError_within (hcreate _) (.get fun l => ?_)) fun _ =>
    .ite (fun _ => .throw _) fun _ => .pure _
  split
  · exact .pure _
  · exact .throw _

theorem reserve_evolves (a : PaymentAttempt) (scope operation requestIdentity : String)
    (payload : Json) :
    Within (Evolves L) (reserve a scope operation requestIdentity payload) :=
  reserve_within (create_evolves _ _ _ _)

theorem recordProviderCorrelation_evolves (pk : Uuid) (correlation : String) :
    Within (Evolves L) (recordProviderCorrelation pk correlation) := by
  unfold recordProviderCorrelation
  refine .ite (fun _ => .pure _) fun _ => ?_
  intro l u l' h
  obtain ⟨i, _, hlook, h₁⟩ := bind_ok.mp h
  obtain ⟨hi, rfl⟩ := lookup_ok.mp hlook
  split at h₁
  · cases h₁
  split at h₁
  · refine save_evolves (i := _) (fun j hj hs => ?_) h₁
    obtain rfl : i = j := Option.some.inj (hi.symm.trans (Table.pk_of_get hi ▸ hj))
    exact hs
  · cases h₁
    exact .refl

end PaymentExecutionIntent

/-! ## Runtime -/

namespace ProviderRuntime

open Ledger

variable {L : AttemptStatus → Prop} {l l' : Ledger} {a : PaymentAttempt} {pk : Uuid}
  {token : String} {now : Instant} {generation : ℕ}

theorem executionIntent_ok {i : PaymentExecutionIntent} (ha : a.pk = pk)
    (h : executionIntent a (l.intentOf pk) l = .ok (i, l')) :
    Evolves L l l' ∧ l'.attempts = l.attempts ∧ l'.intentOf pk = some i ∧
      (l.Marked pk ↔ i.submitStartedAt.isSome = true) := by
  cases hi : l.intentOf pk with
  | some j =>
    rw [hi] at h
    cases h
    exact ⟨.refl, rfl, hi, by simp [Marked, hi]⟩
  | none =>
    rw [hi] at h
    simp only [executionIntent] at h
    have hevolves : Evolves L l l' := PaymentExecutionIntent.create_evolves _ _ _ _ _ _ _ _ h
    obtain ⟨rfl, t, hins, rfl⟩ := create_ok.mp h
    refine ⟨hevolves, rfl, PaymentExecutionIntent.intentOf_eq_some.mpr ⟨?_, ha⟩, ?_⟩
    · simp [intentTable, (Table.insert_ok.mp hins).2]
    · simp [Marked, hi]

/-- Only a worker that finds no submission marker is admitted to submit, and it leaves one. -/
theorem markSubmission_ok {i : PaymentExecutionIntent} {poll : Bool} {kind : SubmissionKind}
    (hi : l.intentOf pk = some i) (h : markSubmission i poll generation now l = .ok (kind, l')) :
    Evolves L l l' ∧ l'.attempts = l.attempts ∧
      (kind = .submit → i.submitStartedAt = none ∧ l'.Marked pk) := by
  unfold markSubmission at h
  split at h
  · cases h
    exact ⟨.refl, rfl, by simp⟩
  split at h
  · cases h
    exact ⟨.refl, rfl, by simp⟩
  next hnone =>
    obtain ⟨_, l₁, hsave, h₁⟩ := bind_ok.mp h
    cases h₁
    refine ⟨PaymentExecutionIntent.save_evolves (fun _ _ _ => rfl) hsave, ?_, fun _ => ?_⟩
    · obtain ⟨_, _, _, _, _, rfl⟩ := PaymentExecutionIntent.save_ok hsave
      rfl
    · refine ⟨by simpa using hnone, (PaymentExecutionIntent.save_marked hsave).mpr ?_⟩
      simp [(PaymentExecutionIntent.intentOf_eq_some.mp hi).2]

theorem resolve_ok {tenantId operation : String} {r : ProviderRegistration}
    (h : resolve tenantId operation now l = .ok (r, l')) : l' = l := by
  unfold resolve at h
  split at h
  · cases h
  · simp only [bind_apply, get_apply, Except.bind] at h
    cases hr : resolveProvider l.registrations tenantId operation now with
    | ok registration =>
      rw [hr] at h
      cases h
      rfl
    | error e =>
      rw [hr] at h
      cases e <;> cases h

/-- The row under a claim. -/
def claimed (a : PaymentAttempt) (kind : SubmissionKind) (token : String) (now : Instant) :
    PaymentAttempt :=
  { a with
    claimToken := token
    claimGeneration := a.claimGeneration + 1
    claimExpiresAt := some (now + claimTtl)
    claimHeartbeatAt := some now
    submissionIntent := .execution kind a.requestId (a.claimGeneration + 1)
    attemptCount := a.attemptCount + 1 }

/-- Either nothing changes, or the worker leaves with a claim on the row. -/
theorem submitOrPoll_ok {admission : Admission}
    (h : submitOrPoll pk token now l = .ok (admission, l')) :
    (∃ r, admission = .returned r ∧ l' = l) ∨ ∃ a call l₁ t, admission = .contact call ∧
      l.attempt pk = some a ∧ call.attempt = pk ∧ Evolves L l l₁ ∧ l₁.attempts = l.attempts ∧
      (call.kind = .submit → ¬ l.Marked pk ∧ l₁.Marked pk) ∧
      l.attempts.update pk (fun _ => claimed a call.kind token now) = .ok t ∧
      l' = { l₁ with attempts := t } := by
  unfold submitOrPoll at h
  obtain ⟨a, _, hlock, h₁⟩ := bind_ok.mp h
  obtain ⟨hget, rfl⟩ := PaymentAttempt.getLocked_ok.mp hlock
  have hpk := PaymentAttempt.pk_of_attempt hget
  split at h₁
  · cases h₁
    exact .inl ⟨_, rfl, rfl⟩
  split at h₁
  · cases h₁
    exact .inl ⟨_, rfl, rfl⟩
  obtain ⟨r, _, hresolve, h₂⟩ := bind_ok.mp h₁
  obtain rfl := resolve_ok hresolve
  obtain ⟨_, _, hl, h₃⟩ := bind_ok.mp h₂
  cases hl
  obtain ⟨i, l₁, hintent, h₄⟩ := bind_ok.mp h₃
  obtain ⟨hev₁, hat₁, hi, hmarked⟩ := executionIntent_ok (L := L) hpk hintent
  obtain ⟨kind, l₂, hmark, h₅⟩ := bind_ok.mp h₄
  obtain ⟨hev₂, hat₂, hkind⟩ := markSubmission_ok (L := L) hi hmark
  obtain ⟨_, l₃, hsave, h₆⟩ := bind_ok.mp h₅
  obtain ⟨t, hupd, rfl⟩ := PaymentAttempt.save_ok.mp hsave
  cases h₆
  refine .inr ⟨a, _, l₂, t, rfl, hget, rfl, hev₁.trans hev₂, hat₂.trans hat₁, fun hk => ?_, ?_, rfl⟩
  · obtain ⟨hnone, hm⟩ := hkind hk
    exact ⟨by rw [hmarked, hnone]; simp, hm⟩
  · rw [← hat₁, ← hat₂, ← hpk]
    exact hupd

theorem submitOrPoll_evolves : Within (Evolves L) (submitOrPoll pk token now) := by
  intro l admission l' h
  obtain ⟨-, -, rfl⟩ | ⟨a, call, l₁, t, -, hget, -, hev, hat, -, hupd, rfl⟩ :=
    submitOrPoll_ok (L := L) h
  · exact .refl
  · obtain rfl := PaymentAttempt.pk_of_attempt hget
    refine hev.tail (.touch a (claimed a call.kind token now) ?_ rfl rfl rfl ?_ rfl rfl)
    · simpa [attempt, hat] using hget
    · simpa [hat] using hupd

theorem submitOrPoll_marks {call : ProviderCall}
    (h : submitOrPoll pk token now l = .ok (.contact call, l')) :
    call.attempt = pk ∧ (call.kind = .submit → ¬ l.Marked pk ∧ l'.Marked pk) := by
  obtain ⟨r, hr, -⟩ | ⟨a, c, l₁, t, hc, -, hpk, -, -, hmark, -, rfl⟩ :=
    submitOrPoll_ok (L := fun _ => True) h
  · cases hr
  · cases hc
    exact ⟨hpk, hmark⟩

section

variable (hL : ∀ s : AttemptStatus, s.isTerminal = false → L s)

include hL

theorem statusFirstRecovery_evolves : Within (Evolves L) (statusFirstRecovery pk) := by
  intro l r l' h
  obtain ⟨a, _, hlock, h₁⟩ := bind_ok.mp h
  obtain ⟨hget, rfl⟩ := PaymentAttempt.getLocked_ok.mp hlock
  split at h₁
  · cases h₁
    exact .refl
  next hlive =>
    obtain ⟨_, l₁, hsave, h₂⟩ := bind_ok.mp h₁
    obtain ⟨t, hupd, rfl⟩ := PaymentAttempt.save_ok.mp hsave
    cases h₂
    simp only [not_or, Bool.not_eq_true] at hlive
    obtain rfl := PaymentAttempt.pk_of_attempt hget
    exact .single (.move a { a with status := .uncertain } hget hlive.1 rfl (hL _ rfl) hupd rfl rfl)

/-- The row with its claim released. -/
def released (a : PaymentAttempt) (result : ProviderResult) : PaymentAttempt :=
  { a with
    recoveryEvidence := recoveryEvidence a.recoveryEvidence result
    claimToken := ""
    claimExpiresAt := none
    claimHeartbeatAt := none
    submissionIntent := .empty }

theorem finalizeClaimedResult_evolves (result : ProviderResult) :
    Within (Evolves L) (finalizeClaimedResult pk token generation result now) := by
  intro l r l' h
  obtain ⟨a, _, hlock, h₁⟩ := bind_ok.mp h
  obtain ⟨hget, rfl⟩ := PaymentAttempt.getLocked_ok.mp hlock
  split at h₁
  · cases h₁
    exact .refl
  obtain ⟨o, l₁, hrec, h₂⟩ := bind_ok.mp h₁
  obtain rfl := PaymentAttempt.pk_of_attempt hget
  refine (PaymentLifecycleService.recordProviderResult_evolves hL hget hrec).trans ?_
  obtain ⟨b, _, hlock', h₃⟩ := bind_ok.mp h₂
  obtain ⟨hget', rfl⟩ := PaymentAttempt.getLocked_ok.mp hlock'
  obtain ⟨_, l₂, hsave, h₄⟩ := bind_ok.mp h₃
  obtain ⟨t, hupd, rfl⟩ := PaymentAttempt.save_ok.mp hsave
  cases h₄
  have hpk := PaymentAttempt.pk_of_attempt hget'
  exact .single (.touch b (released b result) (hpk ▸ hget') rfl rfl rfl hupd rfl rfl)

theorem unavailable_evolves : Within (Evolves L) (unavailable pk now) := by
  intro l r l' h
  obtain ⟨a, _, hlock, h₁⟩ := bind_ok.mp h
  obtain ⟨hget, rfl⟩ := PaymentAttempt.getLocked_ok.mp hlock
  obtain ⟨_, _, hl, h₂⟩ := bind_ok.mp h₁
  cases hl
  split at h₂
  · obtain ⟨o, l₁, hrec, h₃⟩ := bind_ok.mp h₂
    cases h₃
    obtain rfl := PaymentAttempt.pk_of_attempt hget
    exact PaymentLifecycleService.recordProviderResult_evolves hL hget hrec
  · cases h₂
    exact .refl

end

end ProviderRuntime

theorem PaymentCommandService.reserveAttempt_evolves {L : AttemptStatus → Prop}
    (tenantId callerBbId operation requestIdentity : String) (payload : Json) (command : Uuid) :
    Within (Ledger.Evolves L)
      (reserveAttempt tenantId callerBbId operation requestIdentity payload command) :=
  .bind (PaymentLifecycleService.create_evolves _ _ _ _ _) fun _ =>
    .bind (PaymentExecutionIntent.create_evolves _ _ _ _ _) fun _ => .pure _

end Civicos.Payments
