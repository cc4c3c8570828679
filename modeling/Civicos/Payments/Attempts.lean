import Civicos.Payments.Lifecycle

/-!
# Getting or creating attempts and callbacks

Both services look a row up by its unique key and create it when there is none. An attempt is
refused when its key belongs to another payload.
-/
namespace Civicos.Payments

open Library Library.Transaction

namespace PaymentAttempt

def scopeKey (a : PaymentAttempt) : String × String × String :=
    (a.tenantId, a.operation, a.requestId)

/-- The row that `create` inserts. -/
def fresh (key : String × String × String) (payload : Json) (d : Defaults) (pk : Uuid) :
    PaymentAttempt where
  pk
  tenantId := key.1
  operation := key.2.1
  requestId := key.2.2
  payloadFingerprint := PaymentLifecycleService.fingerprint payload
  amount := d.amount
  currency := d.currency
  correlationId := d.correlationId
  sourceBbId := d.sourceBbId
  submissionIntent := d.submissionIntent
  externalTransactionId := d.externalTransactionId

/-- The keyword arguments fit their columns. -/
def Defaults.Fits (d : Defaults) : Prop :=
  d.currency.length ≤ 3 ∧ d.correlationId.length ≤ 100 ∧ d.sourceBbId.length ≤ 50 ∧
    d.externalTransactionId.length ≤ 100

end PaymentAttempt

/-- The key as the attempt table stores it. -/
def cut (identity : String × String × String) : String × String × String :=
  (identity.1, clip 30 identity.2.1, clip 100 identity.2.2)

namespace Ledger

variable {l : Ledger} {a : PaymentAttempt} {d : CallbackDelivery}

theorem attemptFor_eq_some {tenantId operation requestId : String} :
    l.attemptFor tenantId operation requestId = some a ↔
      a ∈ l.attempts.rows ∧ a.scopeKey = (tenantId, operation, requestId) := by
  have h := Table.find?_eq_some (t := l.attempts) (r := a) (i := PaymentAttempt.scopeRequest)
    (p := fun x => x.tenantId = tenantId ∧ x.operation = operation ∧ x.requestId = requestId)
    (by simp [PaymentAttempt.schema]) (tenantId, operation, requestId)
    (fun x => by simp [PaymentAttempt.scopeRequest])
  rw [attemptFor, h]
  exact and_congr_right fun _ => Option.some_inj

theorem attemptFor_eq_none {tenantId operation requestId : String} :
    l.attemptFor tenantId operation requestId = none ↔
      ∀ a ∈ l.attempts.rows, a.scopeKey ≠ (tenantId, operation, requestId) := by
  simp [attemptFor, PaymentAttempt.scopeKey]

theorem delivery_eq_some {attempt : Uuid} {hash : Digest Json} :
    l.delivery attempt hash = some d ↔
      d ∈ l.callbacks.rows ∧ d.attempt = attempt ∧ d.payloadHash = hash := by
  have h := Table.find?_eq_some (t := l.callbacks) (r := d) (i := CallbackDelivery.attemptPayload)
    (p := fun x => x.attempt = attempt ∧ x.payloadHash = hash)
    (by simp [CallbackDelivery.schema]) (attempt, hash)
    (fun x => by simp [CallbackDelivery.attemptPayload])
  rw [delivery, h]
  exact and_congr_right fun _ => Option.some_inj.trans Prod.mk_inj

end Ledger

namespace PaymentLifecycleService

variable {l l' : Ledger} {a : PaymentAttempt} {tenantId operation requestId : String}
  {payload : Json} {defaults : PaymentAttempt.Defaults} {auditCreated created : Bool}

/-- The key under which a caller's attempt is stored. -/
def attemptKey (tenantId operation requestId : String) : String × String × String :=
  (clip 100 tenantId, clip 30 operation, clip 100 requestId)

/-- The entry for a new attempt. -/
def createdEntry (a : PaymentAttempt) : AuditEntry where
  action := .paymentAttemptCreated
  actorBbId := clip 50 a.sourceBbId
  objectType := "payment_attempt"
  objectPk := toString a.pk
  requestId := clip 20 a.requestId
  details := [("operation", .str a.operation)]

/-- Everything that a successful call can do. -/
theorem getOrCreateAttempt_ok
    (h : getOrCreateAttempt tenantId operation requestId payload defaults auditCreated l =
      .ok ((a, created), l')) :
    (created = false ∧ l' = l ∧ a ∈ l.attempts.rows ∧
      a.scopeKey = attemptKey tenantId operation requestId ∧
      a.payloadFingerprint = fingerprint payload) ∨
    (created = true ∧
      a = .fresh (attemptKey tenantId operation requestId) payload defaults l.attempts.next ∧
      (∀ x ∈ l.attempts.rows, x.scopeKey ≠ attemptKey tenantId operation requestId) ∧
      ∃ T, l.attempts.insert a = .ok T ∧ l' = { l with
        attempts := T
        audits := l.audits ++ if auditCreated then [createdEntry a] else [] }) := by
  unfold getOrCreateAttempt at h
  rw [bind_of_ok get_apply] at h
  cases hfind : l.attemptFor (clip 100 tenantId) (clip 30 operation) (clip 100 requestId) with
  | some existing =>
    obtain ⟨hrow, hkey⟩ := Ledger.attemptFor_eq_some.mp hfind
    simp only [hfind] at h
    split at h
    · cases h
    next hsame =>
      cases h
      exact .inl ⟨rfl, rfl, hrow, hkey, by simpa using hsame⟩
  | none =>
    simp only [hfind] at h
    obtain ⟨x, l₁, hcreate, h₁⟩ := bind_ok.mp h
    obtain ⟨rfl, T, hinsert, rfl⟩ := create_ok.mp hcreate
    refine .inr ?_
    cases auditCreated <;> cases h₁ <;>
      exact ⟨rfl, rfl, Ledger.attemptFor_eq_none.mp hfind, T, hinsert, by simp [createdEntry,
        Ledger.attemptTable]⟩

/-- A key that is free or belongs to the same payload gives an attempt. -/
theorem getOrCreateAttempt_returns (hfits : defaults.Fits)
    (hsame : ∀ x ∈ l.attempts.rows, x.scopeKey = attemptKey tenantId operation requestId →
      x.payloadFingerprint = fingerprint payload) :
    Returns (getOrCreateAttempt tenantId operation requestId payload defaults auditCreated) l := by
  unfold getOrCreateAttempt
  rw [returns_bind_of_ok get_apply]
  cases hfind : l.attemptFor (clip 100 tenantId) (clip 30 operation) (clip 100 requestId) with
  | some existing =>
    obtain ⟨hrow, hkey⟩ := Ledger.attemptFor_eq_some.mp hfind
    simp only [hsame existing hrow hkey, ne_eq, not_true_eq_false, if_false]
    exact ⟨_, rfl⟩
  | none =>
    have hcreate : Returns (PaymentAttempt.create (clip 100 tenantId) (clip 30 operation)
        (clip 100 requestId) (fingerprint payload) defaults) l := by
      refine (create_returns rfl).mpr ⟨?_, fun x hx i hi hclash => ?_⟩
      · obtain ⟨hcurrency, hcorrelation, hsource, hexternal⟩ := hfits
        simp [Schema.Valid, PaymentAttempt.schema, Check.width, length_clip_le, hcurrency,
          hcorrelation, hsource, hexternal]
      · obtain rfl := List.mem_singleton.mp hi
        exact Ledger.attemptFor_eq_none.mp hfind x hx (Option.some.inj hclash.2)
    obtain ⟨⟨x, l₁⟩, hx⟩ := hcreate
    simp only [returns_bind_of_ok hx]
    cases auditCreated <;> exact ⟨_, rfl⟩

/-- A call is refused for a constraint of the table, or for a key of another payload. -/
theorem getOrCreateAttempt_error {e : PaymentError}
    (h : getOrCreateAttempt tenantId operation requestId payload defaults auditCreated l =
      .error e) :
    (∃ v, e = .ofViolation v) ∨
      e = .idempotencyConflict "idempotency key was reused with a different payload" ∧
        ∃ x ∈ l.attempts.rows, x.scopeKey = attemptKey tenantId operation requestId ∧
          x.payloadFingerprint ≠ fingerprint payload := by
  unfold getOrCreateAttempt at h
  rw [bind_of_ok get_apply] at h
  cases hfind : l.attemptFor (clip 100 tenantId) (clip 30 operation) (clip 100 requestId) with
  | some existing =>
    obtain ⟨hrow, hkey⟩ := Ledger.attemptFor_eq_some.mp hfind
    simp only [hfind] at h
    split at h
    next hother =>
      cases h
      exact .inr ⟨rfl, existing, hrow, hkey, hother⟩
    next => cases h
  | none =>
    simp only [hfind] at h
    rcases bind_error.mp h with hcreate | ⟨a, u, -, hrest⟩
    · obtain ⟨v, -, rfl⟩ := create_error.mp hcreate
      exact .inl ⟨v, rfl⟩
    · cases auditCreated <;> cases hrest

/-! ## Callbacks -/

variable {d : CallbackDelivery} {url : String} {now : Instant}

/-- The row that `queue_callback` inserts. -/
def queuedRow (a : PaymentAttempt) (url : String) (payload : Json) (now : Instant) (pk : Uuid) :
    CallbackDelivery where
  pk
  attempt := a.pk
  payloadHash := fingerprint payload
  callbackUrl := clip 500 url
  payload
  nextAttemptAt := some now

/-- The entry for a new outbox row. -/
def queuedEntry (a : PaymentAttempt) (d : CallbackDelivery) : AuditEntry where
  action := .callbackQueued
  actorBbId := clip 50 a.sourceBbId
  objectType := "payment_attempt"
  objectPk := toString a.pk
  requestId := clip 20 a.requestId
  details := [("delivery_id", .str (toString d.pk))]

/-- A callback is always queued, once. -/
theorem queueCallback_ok (a : PaymentAttempt) (url : String) (payload : Json) (now : Instant)
    (l : Ledger) : ∃ d created l', queueCallback a url payload now l = .ok ((d, created), l') ∧
      ((created = false ∧ l' = l ∧ d ∈ l.callbacks.rows ∧ d.attempt = a.pk ∧
        d.payloadHash = fingerprint payload) ∨
      (created = true ∧ d = queuedRow a url payload now l.callbacks.next ∧
        ∃ T, l.callbacks.insert d = .ok T ∧
          l' = { l with callbacks := T, audits := l.audits ++ [queuedEntry a d] })) := by
  cases hfind : l.delivery a.pk (fingerprint payload) with
  | some d =>
    obtain ⟨hrow, hattempt, hhash⟩ := Ledger.delivery_eq_some.mp hfind
    refine ⟨d, false, l, ?_, .inl ⟨rfl, rfl, hrow, hattempt, hhash⟩⟩
    unfold queueCallback
    rw [bind_of_ok get_apply]
    simp only [hfind]
    rfl
  | none =>
    have hapart : ∀ x ∈ l.callbacks.rows,
        CallbackDelivery.schema.Apart x (queuedRow a url payload now l.callbacks.next) := by
      refine fun x hx => ⟨Nat.ne_of_lt (Table.lt_next hx), fun i hi hclash => ?_⟩
      obtain rfl := List.mem_singleton.mp hi
      obtain ⟨hattempt, hhash⟩ := Prod.mk_inj.mp (Option.some.inj hclash.2)
      have hsome : l.delivery a.pk (fingerprint payload) = some x :=
        Ledger.delivery_eq_some.mpr ⟨hx, hattempt, hhash⟩
      rw [hfind] at hsome
      cases hsome
    obtain ⟨T, hinsert⟩ := Table.insert_returns (t := l.callbacks)
      (by simp [Schema.Valid, CallbackDelivery.schema, Check.width, queuedRow, length_clip_le])
        hapart
    refine ⟨_, true, _, ?_, .inr ⟨rfl, rfl, T, hinsert, rfl⟩⟩
    have hcreate : Transaction.create Ledger.callbackTable PaymentError.ofViolation
        (queuedRow a url payload now) l =
          .ok (queuedRow a url payload now l.callbacks.next, { l with callbacks := T }) :=
      create_ok.mpr ⟨rfl, T, hinsert, rfl⟩
    unfold queueCallback
    rw [bind_of_ok get_apply]
    simp only [hfind]
    exact bind_of_ok hcreate

/-- The columns of an outbox row that no later write changes. -/
def deliveryCore (d : CallbackDelivery) : Uuid × Uuid × String × Json × Digest Json :=
  (d.pk, d.attempt, d.callbackUrl, d.payload, d.payloadHash)

/-- A row that is still open has a next attempt. -/
def Scheduled (d : CallbackDelivery) : Prop :=
  d.status.isClosed = false → ∃ t ∈ d.nextAttemptAt, isDue t d

theorem callbackProgress_scheduled (n : ℕ) (status : Option ℕ) (now : Instant) :
    (callbackProgress n status now).1.isClosed = false →
      (callbackProgress n status now).1 = .retry ∧ (callbackProgress n status now).2.1.isSome := by
  unfold callbackProgress
  split
  · simp [CallbackStatus.isClosed]
  · split <;> simp [CallbackStatus.isClosed]

/-- Recording a result rewrites one outbox row and adds at most one entry. -/
theorem recordCallbackResult_ok {pk : Uuid} {status : Option ℕ} {code : String}
    (h : recordCallbackResult pk status code now l = .ok (d, l')) :
    l' = l ∨ ∃ old new T entry, l.callbacks.get pk = some old ∧
      deliveryCore new = deliveryCore old ∧ Scheduled new ∧
      l.callbacks.update pk (fun _ => new) = .ok T ∧ entry.action ≠ .validationCompleted ∧
      l' = { l with callbacks := T, audits := l.audits ++ [entry] } := by
  unfold recordCallbackResult at h
  obtain ⟨old, l₁, hlookup, h₁⟩ := bind_ok.mp h
  obtain ⟨hold, rfl⟩ := lookup_ok.mp hlookup
  obtain ⟨a, l₂, hattempt, h₂⟩ := bind_ok.mp h₁
  obtain ⟨-, rfl⟩ := lookup_ok.mp hattempt
  split at h₂
  · exact .inl (pure_ok.mp h₂).2
  · obtain ⟨_, l₃, hwrite, h₃⟩ := bind_ok.mp h₂
    obtain ⟨T, hupdate, rfl⟩ := write_ok.mp hwrite
    cases h₃
    refine .inr ⟨old, recorded old status code now, T, _, hold, rfl, fun hopen => ?_,
      hupdate, ?_, rfl⟩
    · obtain ⟨hretry, hnext⟩ := callbackProgress_scheduled _ _ _ hopen
      obtain ⟨t, ht⟩ := Option.isSome_iff_exists.mp hnext
      exact ⟨t, ht, by simp [isDue, recorded, hretry, ht]⟩
    · unfold callbackProgress
      split
      · simp
      · split <;> simp

theorem mem_dueCallbacks : d ∈ dueCallbacks l now ↔ d ∈ l.callbacks.rows ∧ isDue now d := by
  simp [dueCallbacks]

end PaymentLifecycleService

end Civicos.Payments
