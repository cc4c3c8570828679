import Civicos.Library.Layer
import Civicos.Payments.Attempts
import Civicos.Payments.Finality
import Civicos.Payments.SubmitOnce

/-!
# Provider admission

The boundary in front of the provider runtime. A request reserves its idempotency key and creates
its attempt in one transaction; a hook after the commit hands the attempt to the broker. The
handlers are a layer over the runtime: to its workers an admission is one more writer.
-/
namespace Civicos.Payments

open Library Library.Transaction

/-! ## Requests -/

/-- The columns of a registration that only an admission reads -/
structure ProviderLabel where
  registration : Uuid
  providerName : String
  configurationVersion : String
deriving DecidableEq, Repr

structure IdempotencyLedger where
  pk : Uuid
  tenantId : String
  method : String
  path : String
  key : String
  fingerprint : Digest Json
deriving DecidableEq, Repr

namespace IdempotencyLedger

def scope (row : IdempotencyLedger) : String × String × String × String :=
  (row.tenantId, row.method, row.path, row.key)

def uniqueScope : Index IdempotencyLedger where
  name := "gs_idem_tenant_method_path_key"
  Key := String × String × String × String
  key row := some row.scope

def schema : Schema IdempotencyLedger where
  pk := pk
  indexes := [uniqueScope]
  checks := [
    .width "tenant_id" 100 tenantId,
    .width "method" 10 method,
    .width "path" 255 path,
    .width "key" 255 key]

end IdempotencyLedger

/-- The keyword arguments of `admit_provider_attempt`. An argument that is `None` is an empty text;
`payload = none` is a payload that is no dict, and an amount comes with the cents that its column
stores. `sourceBbId` is the text of that domain reference. -/
structure AdmissionCall where
  tenantId : String
  operation : String
  requestKey : String
  payload : Option Json
  amount : Option (String × Cents)
  currency : String
  sourceBbId : String := ""
  trustedTenant : String := ""
deriving DecidableEq, Repr

inductive AdmissionError where
  | admissionError (message : String)
  | database (e : PaymentError)
deriving DecidableEq, Repr

def trustedTenantId (authenticatedTenant declaredTenant : String) : Except AdmissionError String :=
  let trusted := strip authenticatedTenant
  let declared := strip declaredTenant
  if trusted = "" ∨ (declared ≠ "" ∧ declared ≠ trusted) then
    .error (.admissionError "trusted tenant identity is required")
  else .ok trusted

/-- A call whose arguments have been checked -/
structure AdmissionRequest where
  tenantId : String
  operation : String
  requestKey : String
  payload : Json
  amount : Option (String × Cents)
  currency : String
  sourceBbId : String
deriving DecidableEq, Repr

def AdmissionCall.normalize (c : AdmissionCall) : Except AdmissionError AdmissionRequest := do
  let tenantId ← trustedTenantId (orElse c.trustedTenant c.tenantId) c.tenantId
  let operation := strip c.operation
  let requestKey := strip c.requestKey
  let currency := upper (strip c.currency)
  match c.payload with
  | some payload =>
    if operation = "" ∨ requestKey = "" ∨ currency = "" then
      throw (.admissionError "operation, request key, currency, and payload are required")
    return { tenantId, operation, requestKey, payload, amount := c.amount, currency,
             sourceBbId := c.sourceBbId }
  | none => throw (.admissionError "operation, request key, currency, and payload are required")

namespace AdmissionRequest

variable (r : AdmissionRequest)

/-- What is hashed; the members of the payload stand behind those of the envelope. -/
def canonical : Json :=
  [("amount", r.amount.elim .null fun a => .str a.1), ("currency", .str r.currency),
    ("operation", .str r.operation), ("request_key", .str r.requestKey),
    ("tenant", .str r.tenantId)] ++ r.payload

/-- `_fingerprint` -/
def fingerprint : Digest Json := .sha256 r.canonical

def path : String := "provider:" ++ r.operation

def scope : String × String × String := (r.tenantId, r.operation, r.requestKey)

def defaults : PaymentAttempt.Defaults where
  amount := r.amount.map (·.2)
  currency := r.currency
  sourceBbId := clip 50 r.sourceBbId

end AdmissionRequest

/-! ## The transaction -/

structure AdmissionStore where
  idempotency : Table IdempotencyLedger.schema := .empty
  labels : List ProviderLabel := []
  /-- The messages that the broker has got -/
  queue : List Uuid := []

structure AdmissionResult where
  attempt : PaymentAttempt
  admitted : Bool
  replayed : Bool := false
  idempotencyReplayed : Bool := false
deriving DecidableEq, Repr

abbrev AdmissionTx := Transaction AdmissionError (Ledger × AdmissionStore)

namespace AdmissionStore

def idempotencyTable : Lens (Ledger × AdmissionStore) (Table IdempotencyLedger.schema) where
  get s := s.2.idempotency
  set t s := (s.1, { s.2 with idempotency := t })
  get_set _ _ := rfl
  set_get _ := rfl
  set_set _ _ _ := rfl

def label (s : AdmissionStore) (registration : Uuid) : Option ProviderLabel :=
  s.labels.find? (·.registration = registration)

/-- The row of an idempotency key -/
def reservation (s : AdmissionStore) (r : AdmissionRequest) : Option IdempotencyLedger :=
  s.idempotency.rows.find? (·.scope = (r.tenantId, "POST", r.path, r.requestKey))

/-- A registration that names its provider and the version of a configuration that is an object -/
def IsConfigured (s : AdmissionStore) (p : ProviderRegistration) : Prop :=
  ∃ l ∈ s.label p.pk, l.providerName ≠ "" ∧ l.configurationVersion ≠ "" ∧
    p.configuration.isSome = true

instance (s : AdmissionStore) (p : ProviderRegistration) : Decidable (s.IsConfigured p) :=
  inferInstanceAs (Decidable (∃ l ∈ s.label p.pk, _))

end AdmissionStore

open AdmissionStore

/-- A transaction on the ledger -/
def onLedger {α : Type} (x : Tx α) : AdmissionTx α := fun s =>
  match x s.1 with
  | .ok (a, l) => .ok (a, (l, s.2))
  | .error e => .error (.database e)

/-- The active registrations for a request -/
def Ledger.activeFor (l : Ledger) (r : AdmissionRequest) : List ProviderRegistration :=
  l.registrations.filter fun p =>
    p.tenantId = r.tenantId ∧ p.operation = r.operation ∧ p.active = true

/-- The end of an admission under a key that is reserved -/
def replayAdmission (r : AdmissionRequest) (row : IdempotencyLedger) :
    AdmissionTx AdmissionResult := do
  if row.fingerprint ≠ r.fingerprint then
    throw (.admissionError "idempotency key conflicts with existing request")
  match (← get).1.attemptFor r.tenantId r.operation r.requestKey with
  | none => throw (.admissionError "idempotency reservation has no admitted attempt")
  | some existing =>
    return { attempt := existing, admitted := true, replayed := true, idempotencyReplayed := true }

/-- The end of an admission under a new key -/
def createAdmission (r : AdmissionRequest) : AdmissionTx AdmissionResult := do
  let _ ← create idempotencyTable (fun v => .database (.ofViolation v)) fun pk =>
    { pk, tenantId := r.tenantId, method := "POST", path := r.path, key := r.requestKey,
      fingerprint := r.fingerprint }
  let attempt ← onLedger
    (PaymentAttempt.create r.tenantId r.operation r.requestKey r.fingerprint r.defaults)
  return { attempt, admitted := true }

def admitRequest (r : AdmissionRequest) : AdmissionTx AdmissionResult := do
  let (l, s) ← get
  match l.activeFor r with
  | [registration] =>
    if ¬ s.IsConfigured registration then
      throw (.admissionError "provider configuration is malformed")
    match s.reservation r with
    | some row => replayAdmission r row
    | none => createAdmission r
  | _ => throw (.admissionError "provider configuration is unavailable")

def admitProviderAttempt (c : AdmissionCall) : AdmissionTx AdmissionResult := do
  admitRequest (← liftM c.normalize)

/-! ## The handlers -/

/-- Handlers by what they do next. `committed` has the hook of its transaction ahead, `relabel` is
an operator. -/
inductive AdmissionWorker where
  | request (c : AdmissionCall)
  | committed (r : AdmissionRequest) (a : AdmissionResult)
  | answered (r : AdmissionRequest) (a : AdmissionResult)
  | refused (e : AdmissionError)
  | relabel (labels : List ProviderLabel)
  | done
deriving DecidableEq

namespace AdmissionWorker

def entry : AdmissionWorker → Bool
  | request _ => true
  | relabel _ => true
  | _ => false

def act (w : World) (s : AdmissionStore) (q : AdmissionWorker) (_ : Unit) :
    Option (World × AdmissionStore × AdmissionWorker) :=
  match q with
  | request c =>
    match c.normalize with
    | .error e => some (w, s, refused e)
    | .ok r =>
      match commit (admitRequest r) (w.ledger, s) with
      | (.ok a, (l, s')) =>
        some ({ w with ledger := l }, s', if a.replayed then answered r a else committed r a)
      | (.error e, _) => some (w, s, refused e)
  | committed r a =>
    match w.ledger.attempt a.attempt.pk with
    | some _ => some (w, { s with queue := s.queue ++ [a.attempt.pk] }, answered r a)
    | none => some (w, s, refused (.database (.doesNotExist "PaymentAttempt")))
  | relabel labels => some (w, { s with labels }, done)
  | answered .. => none
  | refused _ => none
  | done => none

end AdmissionWorker


/-! ## What an admission does -/

/-- The attempt is one for this request. -/
structure AdmissionRequest.Gets (r : AdmissionRequest) (x : PaymentAttempt) : Prop where
  scope : x.scopeKey = r.scope
  fingerprint : x.payloadFingerprint = r.fingerprint

/-- The row reserves the key of the attempt. -/
structure IdempotencyLedger.Reserves (row : IdempotencyLedger) (x : PaymentAttempt) : Prop where
  scope : row.scope = (x.tenantId, "POST", "provider:" ++ x.operation, x.requestId)
  fingerprint : row.fingerprint = x.payloadFingerprint

section Specs

variable {l l' : Ledger} {s s' : AdmissionStore} {r : AdmissionRequest} {a : AdmissionResult}
  {row : IdempotencyLedger} {x y : PaymentAttempt}

theorem scopeKey_of_identity (h : y.identity = x.identity) :
    y.scopeKey = x.scopeKey ∧ y.payloadFingerprint = x.payloadFingerprint := by
  simp only [PaymentAttempt.identity, Prod.mk.injEq] at h
  obtain ⟨-, htenant, hoperation, hrequest, hfingerprint, -, -⟩ := h
  exact ⟨by simp only [PaymentAttempt.scopeKey, htenant, hoperation, hrequest], hfingerprint⟩

theorem AdmissionRequest.Gets.of_identity (h : r.Gets x) (hid : y.identity = x.identity) :
    r.Gets y := by
  obtain ⟨hscope, hfingerprint⟩ := scopeKey_of_identity hid
  exact ⟨hscope.trans h.scope, hfingerprint.trans h.fingerprint⟩

theorem IdempotencyLedger.Reserves.of_identity (h : row.Reserves x)
    (hid : y.identity = x.identity) : row.Reserves y := by
  obtain ⟨hscope, hfingerprint⟩ := scopeKey_of_identity hid
  simp only [PaymentAttempt.scopeKey, Prod.mk.injEq] at hscope
  obtain ⟨htenant, hoperation, hrequest⟩ := hscope
  exact ⟨by rw [h.scope, htenant, hoperation, hrequest], h.fingerprint.trans hfingerprint.symm⟩

/-- The key of a request, as its row has it -/
def AdmissionRequest.key (r : AdmissionRequest) : String × String × String × String :=
  (r.tenantId, "POST", r.path, r.requestKey)

/-- The row of a request is the row of an attempt for it. -/
theorem IdempotencyLedger.Reserves.gets (h : row.Reserves x) :
    r.Gets x ↔ row.scope = r.key ∧ row.fingerprint = r.fingerprint := by
  have hscope : x.scopeKey = r.scope ↔ row.scope = r.key := by
    simp [h.scope, PaymentAttempt.scopeKey, AdmissionRequest.scope, AdmissionRequest.key,
      AdmissionRequest.path, String.append_right_inj]
  rw [← hscope, h.fingerprint]
  exact ⟨fun hg => ⟨hg.scope, hg.fingerprint⟩, fun hg => ⟨hg.1, hg.2⟩⟩

/-- One attempt has a scope. -/
theorem eq_of_scopeKey (hx : x ∈ l.attempts.rows) (hy : y ∈ l.attempts.rows)
    (h : x.scopeKey = y.scopeKey) : x = y :=
  l.attempts.eq_of_clash (i := PaymentAttempt.scopeRequest) (.head _) hx hy
    ⟨Option.some_ne_none _, congrArg some h⟩

/-- A row reserves one scope. -/
theorem IdempotencyLedger.Reserves.scopeKey_eq (hx : row.Reserves x) (hy : row.Reserves y) :
    x.scopeKey = y.scopeKey := by
  have hscope := hx.scope.symm.trans hy.scope
  simp only [Prod.mk.injEq, String.append_right_inj, true_and] at hscope
  obtain ⟨htenant, hoperation, hrequest⟩ := hscope
  rw [PaymentAttempt.scopeKey, PaymentAttempt.scopeKey, htenant, hoperation, hrequest]

/-- The two ways in which an admission succeeds -/
inductive Admits (r : AdmissionRequest) (a : AdmissionResult) (l l' : Ledger)
    (s s' : AdmissionStore) : Prop where
  | replays (replayed : a.replayed = true) (ledger : l' = l) (store : s' = s)
      (existing : a.attempt ∈ l.attempts.rows) (scope : a.attempt.scopeKey = r.scope)
      (row : IdempotencyLedger) (reserved : row ∈ s.idempotency.rows) (key : row.scope = r.key)
      (fingerprint : row.fingerprint = r.fingerprint)
  | creates (replayed : a.replayed = false)
      (attempt : PaymentAttempt.create r.tenantId r.operation r.requestKey r.fingerprint
        r.defaults l = .ok (a.attempt, l'))
      (T : Table IdempotencyLedger.schema) (store : s' = { s with idempotency := T })
      (row : IdempotencyLedger) (reserved : T.rows = s.idempotency.rows ++ [row])
      (key : row.scope = r.key) (fingerprint : row.fingerprint = r.fingerprint)

theorem onLedger_ok {α : Type} {f : Tx α} {b : α} :
    onLedger f (l, s) = .ok (b, (l', s')) ↔ f l = .ok (b, l') ∧ s' = s := by
  unfold onLedger
  cases h : f l with
  | error e => simp
  | ok p => simp [Prod.ext_iff, eq_comm, and_assoc]

theorem admitRequest_ok (h : admitRequest r (l, s) = .ok (a, (l', s'))) : Admits r a l l' s s' := by
  unfold admitRequest at h
  rw [bind_of_ok get_apply] at h
  rcases hactive : l.activeFor r with _ | ⟨registration, _ | _⟩ <;> simp only [hactive] at h
  case nil | cons.cons => cases h
  case cons.nil =>
    obtain ⟨-, h⟩ := guard_ok h
    cases hrow : s.reservation r with
    | some row =>
      have hscope : row.scope = r.key := by
        simpa [AdmissionRequest.key] using List.find?_some hrow
      simp only [hrow] at h
      unfold replayAdmission at h
      obtain ⟨hsame, h⟩ := guard_ok h
      beta_reduce at h
      rw [bind_of_ok get_apply] at h
      cases hexisting : l.attemptFor r.tenantId r.operation r.requestKey with
      | none => simp [hexisting] at h
      | some existing =>
        simp only [hexisting] at h
        cases h
        obtain ⟨hmem, hkey⟩ := Ledger.attemptFor_eq_some.mp hexisting
        exact .replays rfl rfl rfl hmem hkey row (List.mem_of_find?_eq_some hrow) hscope
          (not_not.mp hsame)
    | none =>
      simp only [hrow] at h
      unfold createAdmission at h
      obtain ⟨row, u, hcreate, h⟩ := bind_ok.mp h
      obtain ⟨rfl, T, hinsert, rfl⟩ := create_ok.mp hcreate
      obtain ⟨attempt, v, hattempt, h⟩ := bind_ok.mp h
      obtain ⟨hledger, hstore⟩ := onLedger_ok.mp hattempt
      cases h
      exact .creates rfl hledger T hstore _ (Table.insert_ok.mp hinsert).2 rfl rfl

/-- An attempt of `create` -/
theorem createAttempt_ok {t o k : String} {p : Json} {d : PaymentAttempt.Defaults}
    (h : PaymentAttempt.create t o k (.sha256 p) d l = .ok (x, l')) :
    x = .fresh (t, o, k) p d l.attempts.next ∧
      ∃ T, l.attempts.insert x = .ok T ∧ l' = { l with attempts := T } := by
  obtain ⟨rfl, T, hinsert, rfl⟩ := create_ok.mp h
  exact ⟨rfl, T, hinsert, rfl⟩

/-- To the rest of the runtime, an admission is `get_or_create_attempt` for a new key. -/
theorem createAttempt_writer {t o k : String} {p : Json} {d : PaymentAttempt.Defaults}
    (h : PaymentAttempt.create t o k (.sha256 p) d l = .ok (x, l')) :
    PaymentLifecycleService.getOrCreateAttempt t o k p d false l = .ok ((x, true), l') := by
  obtain ⟨hx, T, hinsert, -⟩ := createAttempt_ok h
  obtain ⟨⟨hvalid, hapart⟩, -⟩ := Table.insert_ok.mp hinsert
  have ht : clip 100 t = t := clip_of_le (by
    simpa [hx, PaymentAttempt.fresh, Check.width] using
      hvalid _ (List.mem_of_getElem? (i := 0) rfl))
  have ho : clip 30 o = o := clip_of_le (by
    simpa [hx, PaymentAttempt.fresh, Check.width] using
      hvalid _ (List.mem_of_getElem? (i := 3) rfl))
  have hk : clip 100 k = k := clip_of_le (by
    simpa [hx, PaymentAttempt.fresh, Check.width] using
      hvalid _ (List.mem_of_getElem? (i := 2) rfl))
  have hnone : l.attemptFor t o k = none := by
    refine Ledger.attemptFor_eq_none.mpr fun y hy hkey => ?_
    refine (hapart y hy).2 PaymentAttempt.scopeRequest (.head _) ⟨Option.some_ne_none _, ?_⟩
    exact congrArg some (hkey.trans (by rw [hx]; rfl))
  unfold PaymentLifecycleService.getOrCreateAttempt
  rw [bind_of_ok get_apply]
  simp only [ht, ho, hk, hnone]
  exact bind_of_ok h

end Specs


/-! ## The system -/

namespace AdmissionWorker

variable {w w' : World} {s s' : AdmissionStore} {q q' : AdmissionWorker} {c : Unit}

/-- What the blocks of the handlers do -/
inductive Acts (w : World) (s : AdmissionStore) :
    AdmissionWorker → World → AdmissionStore → AdmissionWorker → Prop where
  | refuses (c : AdmissionCall) (e : AdmissionError) : Acts w s (request c) w s (refused e)
  | replays (c : AdmissionCall) (r : AdmissionRequest) (a : AdmissionResult)
      (admits : Admits r a w.ledger w.ledger s s) (replayed : a.replayed = true) :
      Acts w s (request c) w s (answered r a)
  | creates (c : AdmissionCall) (r : AdmissionRequest) (a : AdmissionResult) (l' : Ledger)
      (s' : AdmissionStore) (admits : Admits r a w.ledger l' s s') (replayed : a.replayed = false) :
      Acts w s (request c) { w with ledger := l' } s' (committed r a)
  | hands (r : AdmissionRequest) (a : AdmissionResult) :
      Acts w s (committed r a) w { s with queue := s.queue ++ [a.attempt.pk] } (answered r a)
  | fails (r : AdmissionRequest) (a : AdmissionResult) (e : AdmissionError)
      (missing : w.ledger.attempt a.attempt.pk = none) : Acts w s (committed r a) w s (refused e)
  | relabels (labels : List ProviderLabel) : Acts w s (relabel labels) w { s with labels } done

theorem act_acts (h : act w s q c = some (w', s', q')) : Acts w s q w' s' q' := by
  cases q with
  | request call =>
    simp only [act] at h
    cases hr : call.normalize with
    | error e =>
      simp only [hr, Option.some.injEq, Prod.mk.injEq] at h
      obtain ⟨rfl, rfl, rfl⟩ := h
      exact .refuses call e
    | ok r =>
      simp only [hr] at h
      cases hadmit : admitRequest r (w.ledger, s) with
      | error e =>
        rw [commit_of_error hadmit] at h
        cases h
        exact .refuses call e
      | ok p =>
        obtain ⟨a, l', s''⟩ := p
        rw [commit_of_ok hadmit] at h
        have hadmits := admitRequest_ok hadmit
        cases hreplayed : a.replayed with
        | true =>
          simp only [hreplayed, if_true, Option.some.injEq, Prod.mk.injEq] at h
          obtain ⟨rfl, rfl, rfl⟩ := h
          cases hadmits with
          | replays _ hledger hstore =>
            subst hledger hstore
            exact .replays call r a (admitRequest_ok hadmit) hreplayed
          | creates hfalse => simp [hfalse] at hreplayed
        | false =>
          simp only [hreplayed, Bool.false_eq_true, if_false, Option.some.injEq, Prod.mk.injEq] at h
          obtain ⟨rfl, rfl, rfl⟩ := h
          exact .creates call r a l' s'' hadmits hreplayed
  | committed r a =>
    simp only [act] at h
    cases hget : w.ledger.attempt a.attempt.pk with
    | some x =>
      simp only [hget, Option.some.injEq, Prod.mk.injEq] at h
      obtain ⟨rfl, rfl, rfl⟩ := h
      exact .hands r a
    | none =>
      simp only [hget, Option.some.injEq, Prod.mk.injEq] at h
      obtain ⟨rfl, rfl, rfl⟩ := h
      exact .fails r a _ hget
  | relabel labels =>
    cases h
    exact .relabels labels
  | answered | refused | done => cases h

/-- On the ledger a handler does nothing that another writer does not. -/
theorem Acts.conforms (h : Acts w s q w' s' q') : w' = w ∨ ∃ x, runtime.env w x = some w' := by
  cases h with
  | creates c r a l' s' admits =>
    cases admits with
    | replays replayed' => simp_all
    | creates _ attempt =>
      refine .inr ⟨.getOrCreateAttempt r.tenantId r.operation r.requestKey r.canonical r.defaults
        false, ?_⟩
      have htransaction : Writer.transaction (.getOrCreateAttempt r.tenantId r.operation
          r.requestKey r.canonical r.defaults false) w.ledger = .ok ((), l') :=
        bind_of_ok (createAttempt_writer attempt)
      simp only [runtime, commit_of_ok htransaction]
  | _ => exact .inl rfl

end AdmissionWorker

def admission : Layer runtime AdmissionStore AdmissionWorker Unit where
  Init s := s.idempotency = .empty ∧ s.queue = []
  entry := AdmissionWorker.entry
  act := AdmissionWorker.act
  conforms h := (AdmissionWorker.act_acts h).conforms

/-- The runtime behind its boundary -/
def admissions : Program (World × AdmissionStore) (Worker ⊕ AdmissionWorker) (Choice ⊕ Unit)
    Writer :=
  runtime.extend admission

abbrev Admissions := Pool.State (World × AdmissionStore) (Worker ⊕ AdmissionWorker)

/-! ## Admission happens once -/

section Once

variable {L : AttemptStatus → Prop} {l l' : Ledger} {w w' : World} {st st' : AdmissionStore}
  {q q' : AdmissionWorker} {s t : Admissions} {x : PaymentAttempt} {pk : Uuid}

theorem Ledger.Evolves.row (h : Ledger.Evolves L l l') (hx : x ∈ l.attempts.rows) :
    ∃ y ∈ l'.attempts.rows, y.identity = x.identity := by
  obtain ⟨y, hy, hdescends⟩ := h.descends (Table.get_eq_some.mpr ⟨hx, rfl⟩)
  exact ⟨y, Table.mem_of_get hy, hdescends.1⟩

theorem env_evolves {y : Writer} (h : runtime.env w y = some w') :
    Ledger.Evolves (fun _ => True) w.ledger w'.ledger :=
  (Writer.env_evolves (fun _ _ => trivial) (by cases y <;> trivial) h).1

theorem AdmissionWorker.Acts.evolves (h : AdmissionWorker.Acts w st q w' st' q') :
    Ledger.Evolves (fun _ => True) w.ledger w'.ledger := by
  obtain rfl | ⟨y, hy⟩ := h.conforms
  · exact .refl
  · exact env_evolves hy

/-- Every reserved key has its attempt. -/
def Backed (w : World) (st : AdmissionStore) : Prop :=
  ∀ row ∈ st.idempotency.rows, ∃ x ∈ w.ledger.attempts.rows, row.Reserves x

/-- The attempt of a result is one for its request, under a key that is reserved. -/
def Results (w : World) (st : AdmissionStore) (r : AdmissionRequest) (a : AdmissionResult) : Prop :=
  ∃ x ∈ w.ledger.attempts.rows, x.pk = a.attempt.pk ∧ r.Gets x ∧
    ∃ row ∈ st.idempotency.rows, row.Reserves x

def AdmissionWorker.Told (w : World) (st : AdmissionStore) : AdmissionWorker → Prop
  | committed r a => Results w st r a
  | answered r a => Results w st r a
  | _ => True

theorem Backed.mono (h : Backed w st) (hev : Ledger.Evolves L w.ledger w'.ledger) :
    Backed w' st := by
  intro row hrow
  obtain ⟨x, hx, hreserves⟩ := h row hrow
  obtain ⟨y, hy, hid⟩ := hev.row hx
  exact ⟨y, hy, hreserves.of_identity hid⟩

theorem Results.mono {r : AdmissionRequest} {a : AdmissionResult} (h : Results w st r a)
    (hev : Ledger.Evolves L w.ledger w'.ledger)
    (hrows : ∀ row ∈ st.idempotency.rows, row ∈ st'.idempotency.rows) : Results w' st' r a := by
  obtain ⟨x, hx, hpk, hgets, row, hrow, hreserves⟩ := h
  obtain ⟨y, hy, hid⟩ := hev.row hx
  exact ⟨y, hy, (congrArg Prod.fst hid).trans hpk, hgets.of_identity hid, row, hrows row hrow,
    hreserves.of_identity hid⟩

theorem AdmissionWorker.Told.mono (h : q.Told w st) (hev : Ledger.Evolves L w.ledger w'.ledger)
    (hrows : ∀ row ∈ st.idempotency.rows, row ∈ st'.idempotency.rows) : q.Told w' st' := by
  cases q with
  | committed | answered => exact Results.mono h hev hrows
  | _ => trivial

/-- A handler takes no reserved key back. -/
theorem AdmissionWorker.Acts.rows (h : AdmissionWorker.Acts w st q w' st' q') :
    ∀ row ∈ st.idempotency.rows, row ∈ st'.idempotency.rows := by
  cases h with
  | creates c r a l' s' admits =>
    cases admits with
    | replays _ _ hstore => exact hstore ▸ fun _ h => h
    | creates _ _ T hstore row hrows =>
      subst hstore
      exact fun _ h => hrows ▸ List.mem_append_left _ h
  | _ => exact fun _ h => h

/-- What a new admission leaves -/
theorem Admits.created {r : AdmissionRequest} {a : AdmissionResult}
    (h : Admits r a l l' st st') (hnew : a.replayed = false) :
    a.attempt.pk = l.attempts.next ∧ l'.attempts.rows = l.attempts.rows ++ [a.attempt] ∧
      r.Gets a.attempt ∧ st'.queue = st.queue ∧ ∃ row, row.Reserves a.attempt ∧
        st'.idempotency.rows = st.idempotency.rows ++ [row] := by
  cases h with
  | replays hreplayed => simp [hnew] at hreplayed
  | creates _ attempt T store row reserved key fingerprint =>
    obtain ⟨hx, T', hinsert, rfl⟩ := createAttempt_ok attempt
    subst store
    have hgets : r.Gets a.attempt := by
      rw [hx]
      exact ⟨rfl, rfl⟩
    refine ⟨by rw [hx]; rfl, (Table.insert_ok.mp hinsert).2, hgets, rfl, row, ?_, reserved⟩
    rw [hx]
    exact ⟨key, fingerprint⟩

theorem AdmissionWorker.Acts.told (h : AdmissionWorker.Acts w st q w' st' q')
    (hbacked : Backed w st) (htold : q.Told w st) : Backed w' st' ∧ q'.Told w' st' := by
  cases h with
  | refuses | fails | relabels => exact ⟨hbacked, trivial⟩
  | hands => exact ⟨hbacked, htold⟩
  | replays c r a admits hreplayed =>
    refine ⟨hbacked, ?_⟩
    cases admits with
    | creates hfalse => simp [hfalse] at hreplayed
    | replays _ _ _ existing scope row reserved key fingerprint =>
      obtain ⟨x, hx, hreserves⟩ := hbacked row reserved
      have hgets : r.Gets x := hreserves.gets.mpr ⟨key, fingerprint⟩
      obtain rfl : x = a.attempt := eq_of_scopeKey hx existing (hgets.scope.trans scope.symm)
      exact ⟨_, hx, rfl, hgets, row, reserved, hreserves⟩
  | creates c r a l' s' admits hnew =>
    obtain ⟨-, hattempts, hgets, -, row, hreserves, hrows⟩ := admits.created hnew
    have hmem : a.attempt ∈ l'.attempts.rows := by simp [hattempts]
    refine ⟨fun row' hrow' => ?_, a.attempt, hmem, rfl, hgets, row, by simp [hrows], hreserves⟩
    rw [hrows, List.mem_append, List.mem_singleton] at hrow'
    rcases hrow' with hrow' | rfl
    · obtain ⟨x, hx, hx'⟩ := hbacked row' hrow'
      exact ⟨x, by simp [hattempts, hx], hx'⟩
    · exact ⟨a.attempt, hmem, hreserves⟩

theorem told_of_reachable (h : admissions.machine.Reachable s) :
    Backed s.store.1 s.store.2 ∧
      ∀ q, .inr q ∈ s.workers → q.Told s.store.1 s.store.2 := by
  refine Program.layer_invariant (P := runtime) (E := admission) (p := .execute 0 false)
    (R := fun w w' => Ledger.Evolves (fun _ => True) w.ledger w'.ledger) (K := Backed)
    (J := fun w st q => q.Told w st) rfl
    (fun u label v _ hstep => step_evolves (fun _ _ => trivial) (asks_any u label) hstep)
    (fun w st _ hst row hrow => ?_) (fun w w' st hev hbacked => ⟨hbacked.mono hev, fun q hq =>
      hq.mono hev fun _ hrow => hrow⟩) (fun w st q _ hq => ?_)
    (fun u st q c w' st' q' _ hbacked htold hact => ?_) h
  · rw [hst.1] at hrow
    cases hrow
  · cases q with
    | request | relabel => trivial
    | _ => cases hq
  · have hacts := AdmissionWorker.act_acts (c := c) hact
    obtain ⟨hbacked', htold'⟩ := hacts.told hbacked htold
    exact ⟨hbacked', htold', fun r hr => hr.mono hacts.evolves hacts.rows⟩

/-- The attempt that a handler has to hand over -/
def handsOver : Worker ⊕ AdmissionWorker → Option Uuid
  | .inr (.committed _ a) => some a.attempt.pk
  | _ => none

def created (pk : Uuid) (w : World) : ℤ := if (w.ledger.attempt pk).isSome then 1 else 0

theorem created_le_one : created pk w ≤ 1 := by
  unfold created
  split <;> decide

theorem created_mono (pk : Uuid) (h : Ledger.Evolves L w.ledger w'.ledger) :
    created pk w ≤ created pk w' := by
  unfold created
  cases hget : w.ledger.attempt pk with
  | none => simp only [Option.isSome_none, Bool.false_eq_true, if_false]; split <;> decide
  | some x =>
    obtain ⟨y, hy, -⟩ := h.descends hget
    simp [hy]

theorem AdmissionWorker.Acts.covered (h : AdmissionWorker.Acts w st q w' st' q') :
    Program.ticket handsOver pk (.inr q') + (st'.queue.count pk : ℤ) + created pk w ≤
      Program.ticket handsOver pk (.inr q) + (st.queue.count pk : ℤ) + created pk w' := by
  have hmono := created_mono pk h.evolves
  cases h with
  | refuses | relabels | replays => exact le_refl _
  | fails r a =>
    have hpos : 0 ≤ Program.ticket handsOver pk (.inr (.committed r a)) :=
      Program.ticket_nonneg _
    simp only [Program.ticket, handsOver, reduceCtorEq, if_false] at hpos ⊢
    omega
  | hands r a =>
    by_cases heq : a.attempt.pk = pk <;>
      simp [Program.ticket, handsOver, heq, add_comm]
  | creates c r a l' s' admits hnew =>
    obtain ⟨hpk, hattempts, -, hqueue, -⟩ := admits.created hnew
    simp only [Program.ticket, handsOver, hqueue]
    by_cases heq : a.attempt.pk = pk
    · have hbefore : w.ledger.attempt pk = none := by
        rw [← heq, hpk]
        exact Table.get_next
      have hafter : l'.attempt pk = some a.attempt :=
        Table.get_eq_some.mpr ⟨by simp [hattempts], heq⟩
      simp [heq, created, hbefore, hafter, add_comm]
    · simpa [heq] using hmono

/-- An attempt is with one handler or once with the broker. -/
theorem admissions_covered (pk : Uuid) (h : admissions.machine.Reachable s) :
    (s.workers.map (Program.ticket handsOver pk)).sum + (s.store.2.queue.count pk : ℤ) ≤ 1 := by
  refine (Program.layer_covered (P := runtime) (E := admission) handsOver pk
    (fun st => (st.queue.count pk : ℤ)) (fun w _ => created pk w) (fun _ => rfl) ?_ ?_ ?_
    (fun w st q c w' st' q' hact => (AdmissionWorker.act_acts (c := c) hact).covered) h).trans
    created_le_one
  · rintro w st ⟨hattempts, -⟩ ⟨-, hqueue⟩
    simp [hqueue, created, Ledger.attempt, hattempts, Table.get, Table.empty]
  · intro q hq
    cases q with
    | request | relabel => rfl
    | _ => cases hq
  · exact fun w st =>
      ⟨fun p e w' p' hp => created_mono pk (Worker.act_evolves (fun _ _ => trivial) hp),
        fun y w' hw => created_mono pk (env_evolves hw)⟩

/-- What holds however requests, handlers and workers interleave -/
structure AdmittedOnce (s : Admissions) : Prop where
  /-- Requests with one key are the same request, and get the same attempt. -/
  answered : ∀ r a r' a', .inr (.answered r a) ∈ s.workers → .inr (.answered r' a') ∈ s.workers →
    ((r.scope = r'.scope ↔ a.attempt.pk = a'.attempt.pk) ∧
      (r.scope = r'.scope → r.canonical = r'.canonical))
  backed : Backed s.store.1 s.store.2
  queued : s.store.2.queue.Nodup
  submitted : ∀ pk, (SubmitOnce.submissions pk s.store.1).length ≤ 1

/-- The boundary admits once: however requests, handlers that die, the workers of the runtime and
its other writers interleave, all requests that are answered under one key are the same request and
have the same attempt, which the broker gets at most once and the provider is asked for at most
once. -/
theorem provider_admitted_once (h : admissions.machine.Reachable s) : AdmittedOnce s := by
  obtain ⟨hbacked, htold⟩ := told_of_reachable h
  have hbase : runtime.machine.Reachable (runtime.base s) :=
    Program.reachable_base (p := .execute 0 false) rfl h
  refine ⟨fun r a r' a' hr hr' => ?_, hbacked, List.nodup_iff_count_le_one.mpr fun pk => ?_,
    fun pk => ?_⟩
  · obtain ⟨x, hx, hpk, hgets, -⟩ := htold _ hr
    obtain ⟨y, hy, hpk', hgets', -⟩ := htold _ hr'
    have hiff : r.scope = r'.scope ↔ x = y := by
      rw [← hgets.scope, ← hgets'.scope]
      exact ⟨eq_of_scopeKey hx hy, fun hxy => by rw [hxy]⟩
    rw [hiff, ← hpk, ← hpk']
    refine ⟨⟨fun hxy => by rw [hxy], fun hxy => Table.eq_of_pk hx hy hxy⟩, ?_⟩
    rintro rfl
    have hfingerprint := hgets.fingerprint.symm.trans hgets'.fingerprint
    exact Digest.sha256.inj hfingerprint
  · exact_mod_cast Program.spent_le Program.ticket_nonneg (admissions_covered pk h)
  · have hcovered := Program.spent_le (SubmitOnce.weight_nonneg pk)
      (SubmitOnce.submissions_covered pk hbase)
    have hgranted : SubmitOnce.granted pk s.store.1 ≤ 1 := by
      unfold SubmitOnce.granted
      split <;> decide
    exact_mod_cast hcovered.trans hgranted

/-- A payment that is asked for twice -/
def twice : AdmissionCall where
  tenantId := "tenant"
  operation := " g2p"
  requestKey := "r"
  payload := some []
  amount := some ("1.00", 100)
  currency := "cad"

/-- The attempt of an answer, and whether it is a replay -/
def answer : Worker ⊕ AdmissionWorker → Option (Uuid × Bool)
  | .inr (.answered _ a) => some (a.attempt.pk, a.replayed)
  | _ => none

/-- Both requests are answered, and a worker of the runtime submits the payment. -/
def admittedTwice : Admissions :=
  admissions.machine.final ⟨({ ledger := {} }, {}), []⟩ [
    .env (.configure [⟨1, "tenant", "g2p", factoryDeterministic, schemaVersion, some [], none, none,
      true⟩]),
    .spawn (.inr (.relabel [⟨1, "Bank", "1"⟩])), .act 0 (.inr ()),
    .spawn (.inr (.request twice)), .act 1 (.inr ()), .act 1 (.inr ()),
    .spawn (.inr (.request twice)), .act 2 (.inr ()),
    .spawn (.inl (.execute 1 true)), .act 3 (.inl ⟨0, "token", .raised⟩),
    .act 3 (.inl ⟨0, "token", .raised⟩), .act 3 (.inl ⟨0, "token", .raised⟩)]

theorem provider_admitted_once_twice :
    admittedTwice.workers.filterMap answer = [(1, false), (1, true)] ∧
      admittedTwice.store.2.queue = [1] ∧
      (SubmitOnce.submissions 1 admittedTwice.store.1).length = 1 ∧ AdmittedOnce admittedTwice :=
  ⟨by decide +kernel, by decide +kernel, by decide +kernel, provider_admitted_once
    (Machine.Reachable.final (M := admissions.machine)
      ⟨⟨⟨rfl, rfl, rfl, rfl⟩, rfl, rfl⟩, rfl⟩ _)⟩

end Once


/-! ## What a crash loses -/

section Lost

variable {w w' : World} {st st' : AdmissionStore} {q q' : AdmissionWorker} {s t : Admissions}
  {pk : Uuid} {i : ℕ}

/-- The attempt was admitted under a key of the boundary. -/
def Admitted (w : World) (st : AdmissionStore) (pk : Uuid) : Prop :=
  ∃ row ∈ st.idempotency.rows, ∃ x ∈ w.ledger.attempts.rows, row.Reserves x ∧ x.pk = pk

/-- A handler has the attempt to hand over. -/
def Carried (ws : List (Worker ⊕ AdmissionWorker)) (pk : Uuid) : Prop :=
  ∃ p ∈ ws, handsOver p = some pk

/-- Every admitted attempt has been handed to the broker, or will be. -/
def Kept (s : Admissions) : Prop :=
  ∀ pk, Admitted s.store.1 s.store.2 pk → pk ∈ s.store.2.queue ∨ Carried s.workers pk

/-- No handler dies between its transaction and the hook of it. -/
def Survives (s : Admissions) : Pool.Label (Worker ⊕ AdmissionWorker) (Choice ⊕ Unit) Writer → Prop
  | .die i => ∀ p ∈ s.workers[i]?, handsOver p = none
  | _ => True

instance (s : Admissions) (label : Pool.Label (Worker ⊕ AdmissionWorker) (Choice ⊕ Unit) Writer) :
    Decidable (Survives s label) :=
  match label with
  | .die i => inferInstanceAs (Decidable (∀ p ∈ s.workers[i]?, _))
  | .spawn _ | .act _ _ | .env _ => .isTrue trivial

section Carried

variable {ws : List (Worker ⊕ AdmissionWorker)} {p p' : Worker ⊕ AdmissionWorker}

theorem carried_set (pk : Uuid) (p' : Worker ⊕ AdmissionWorker) (hp : ws[i]? = some p) :
    Carried (ws.set i p') pk ∨ handsOver p = some pk ↔
      Carried ws pk ∨ handsOver p' = some pk :=
  Program.exists_mem_set hp

theorem carried_set_of_not (hp : ws[i]? = some p) (hold : handsOver p ≠ some pk)
    (hnew : handsOver p' ≠ some pk) : Carried (ws.set i p') pk ↔ Carried ws pk := by
  simpa only [hold, hnew, or_false] using carried_set pk p' hp

end Carried

/-- The runtime admits nothing at the boundary, and drops nothing that was admitted. -/
theorem admitted_evolves {L : AttemptStatus → Prop} (hbacked : Backed w st)
    (h : Ledger.Evolves L w.ledger w'.ledger) : Admitted w' st pk ↔ Admitted w st pk := by
  constructor
  · rintro ⟨row, hrow, y, hy, hreserves, rfl⟩
    obtain ⟨x, hx, hreserves'⟩ := hbacked row hrow
    obtain ⟨z, hz, hid⟩ := h.row hx
    obtain rfl : z = y :=
      eq_of_scopeKey hz hy ((hreserves'.of_identity hid).scopeKey_eq hreserves)
    exact ⟨row, hrow, x, hx, hreserves', (congrArg Prod.fst hid).symm⟩
  · rintro ⟨row, hrow, x, hx, hreserves, rfl⟩
    obtain ⟨y, hy, hid⟩ := h.row hx
    exact ⟨row, hrow, y, hy, hreserves.of_identity hid, congrArg Prod.fst hid⟩

/-- A new admission admits its attempt. -/
theorem Admits.admitted {r : AdmissionRequest} {a : AdmissionResult} {l' : Ledger}
    (h : Admits r a w.ledger l' st st') (hnew : a.replayed = false) (hbacked : Backed w st) :
    Admitted { w with ledger := l' } st' pk ↔ Admitted w st pk ∨ a.attempt.pk = pk := by
  obtain ⟨-, hattempts, -, -, row, hreserves, hrows⟩ := h.created hnew
  have hnewest : a.attempt ∈ l'.attempts.rows := by simp [hattempts]
  have hkept : ∀ x ∈ w.ledger.attempts.rows, x ∈ l'.attempts.rows := fun x hx => by
    simp [hattempts, hx]
  constructor
  · rintro ⟨row', hrow', y, hy, hreserves', rfl⟩
    rw [hrows, List.mem_append, List.mem_singleton] at hrow'
    rcases hrow' with hrow' | rfl
    · obtain ⟨x, hx, hx'⟩ := hbacked row' hrow'
      obtain rfl : x = y := eq_of_scopeKey (hkept x hx) hy (hx'.scopeKey_eq hreserves')
      exact .inl ⟨row', hrow', x, hx, hx', rfl⟩
    · exact .inr (congrArg _ (eq_of_scopeKey hnewest hy (hreserves.scopeKey_eq hreserves')))
  · rintro (⟨row', hrow', x, hx, hx', rfl⟩ | rfl)
    · exact ⟨row', by simp [hrows, hrow'], x, hkept x hx, hx', rfl⟩
    · exact ⟨row, by simp [hrows], a.attempt, hnewest, hreserves, rfl⟩

/-- What a block of a handler does to what is kept -/
theorem kept_acts (hp : s.workers[i]? = some (.inr q)) (htold : q.Told s.store.1 s.store.2)
    (h : AdmissionWorker.Acts s.store.1 s.store.2 q w' st' q')
    (hbacked : Backed s.store.1 s.store.2) :
    Kept ⟨(w', st'), s.workers.set i (.inr q')⟩ ↔ Kept s := by
  cases h with
  | refuses c e | replays c r a | relabels labels =>
    exact forall_congr' fun pk => imp_congr_right fun _ => or_congr_right
      (carried_set_of_not hp (by simp [handsOver]) (by simp [handsOver]))
  | fails r a e missing =>
    obtain ⟨x, hx, hpk, -⟩ := htold
    have hfound : s.store.1.ledger.attempt a.attempt.pk = some x :=
      Table.get_eq_some.mpr ⟨hx, hpk⟩
    simp [missing] at hfound
  | hands r a =>
    refine forall_congr' fun pk => imp_congr_right fun _ => ?_
    have hcarried := carried_set pk (.inr (.answered r a)) hp
    simp only [handsOver, Option.some.injEq, reduceCtorEq, or_false] at hcarried
    rw [← hcarried, List.mem_append, List.mem_singleton]
    tauto
  | creates c r a l' _ admits hnew =>
    obtain ⟨hpk, hattempts, -, hqueue, -⟩ := admits.created hnew
    have hcarried : ∀ pk, Carried (s.workers.set i (.inr (.committed r a))) pk ↔
        Carried s.workers pk ∨ a.attempt.pk = pk := fun pk => by
      simpa [handsOver] using carried_set pk (.inr (.committed r a)) hp
    simp only [Kept, admits.admitted hnew hbacked, hcarried, hqueue]
    refine ⟨fun h pk hadmitted => ?_, fun h pk hadmitted => ?_⟩
    · -- The new attempt was not admitted before.
      have hne : a.attempt.pk ≠ pk := by
        rintro rfl
        obtain ⟨-, -, x, hx, -, hx'⟩ := hadmitted
        exact Nat.ne_of_lt (Table.lt_next hx) (hx'.trans hpk)
      have := h pk (.inl hadmitted)
      tauto
    · rcases hadmitted with hadmitted | hpk
      · have := h pk hadmitted
        tauto
      · exact .inr (.inr hpk)

/-- With its handler, an attempt is lost: it is nowhere else. -/
theorem lost_of_die {r : AdmissionRequest} {a : AdmissionResult}
    (h : admissions.machine.Reachable s) (hp : s.workers[i]? = some (.inr (.committed r a))) :
    a.attempt.pk ∉ s.store.2.queue ∧ ¬ Carried (s.workers.set i (.inl .done)) a.attempt.pk := by
  obtain ⟨hqueue, hrest⟩ := Program.ticket_alone (admissions_covered a.attempt.pk h)
    (Int.natCast_nonneg _) hp rfl (q := .inl .done) nofun
  exact ⟨List.count_eq_zero.mp (Int.natCast_eq_zero.mp hqueue), fun ⟨p, hp, hpk⟩ => hrest p hp hpk⟩

/-- What is lost stays lost, and it is lost when its handler dies. -/
theorem kept_step {label : Pool.Label (Worker ⊕ AdmissionWorker) (Choice ⊕ Unit) Writer}
    (h : admissions.machine.Reachable s) (hstep : admissions.machine.step s label = some t) :
    Kept t ↔ Kept s ∧ Survives s label := by
  obtain ⟨hbacked, htold⟩ := told_of_reachable h
  obtain ⟨p, rfl, hp, rfl⟩ | ⟨i, e, p, st, p', rfl, hp, hact, rfl⟩ | ⟨i, rfl, rfl⟩ |
    ⟨y, st, rfl, henv, rfl⟩ := Program.step_cases hstep
  · -- A worker that starts carries nothing.
    have hnone : ∀ pk, handsOver p ≠ some pk := by
      cases p with
      | inl => nofun
      | inr q =>
        cases q with
        | committed => cases hp
        | _ => nofun
    simp [Kept, Carried, or_and_right, exists_or, hnone, Survives]
  · rcases Program.extend_act (x := s.store.2) hact with
      ⟨p', e', st', p'', rfl, rfl, hp', rfl, rfl⟩ | ⟨q, d, w', st', q', rfl, rfl, hq, rfl, rfl⟩
    · have hadmitted : ∀ pk, Admitted st' s.store.2 pk ↔ Admitted s.store.1 s.store.2 pk :=
        fun pk => admitted_evolves hbacked (Worker.act_evolves (fun _ _ => trivial) hp')
      have hcarried : ∀ pk, Carried (s.workers.set i (.inl p'')) pk ↔ Carried s.workers pk :=
        fun _ => carried_set_of_not hp nofun nofun
      simp only [Kept, hcarried, hadmitted, Survives, and_true]
    · have htold := htold q (List.mem_of_getElem? hp)
      rw [show Survives s (.act i (.inr d)) = True from rfl, and_true]
      refine kept_acts hp htold (AdmissionWorker.act_acts (c := d) hq) hbacked
  · cases hp : s.workers[i]? with
    | none => simp [Kept, Survives, hp, List.set_eq_of_length_le (List.getElem?_eq_none_iff.mp hp)]
    | some p =>
      cases hhands : handsOver p with
      | some pk =>
        refine iff_of_false (fun hkept => ?_) fun hboth => by simpa [hhands] using hboth.2 _ hp
        obtain ⟨r, a, rfl⟩ : ∃ r a, p = .inr (.committed r a) := by
          unfold handsOver at hhands
          split at hhands
          · exact ⟨_, _, rfl⟩
          · cases hhands
        obtain ⟨x, hx, hpk, -, row, hrow, hreserves⟩ := htold _ (List.mem_of_getElem? hp)
        obtain ⟨hqueue, hcarried⟩ := lost_of_die h hp
        exact (hkept _ ⟨row, hrow, x, hx, hreserves, hpk⟩).elim hqueue hcarried
      | none =>
        have hsurvives : Survives s (.die i) := by simpa [Survives, hp] using hhands
        rw [and_iff_left hsurvives]
        exact forall_congr' fun pk => imp_congr_right fun _ => or_congr_right
          (carried_set_of_not hp (by simp [hhands]) nofun)
  · have henv : (runtime.env s.store.1 y).map (fun w => (w, s.store.2)) = some st := henv
    obtain ⟨w', hw, rfl⟩ := Option.map_eq_some_iff.mp henv
    have hadmitted : ∀ pk, Admitted w' s.store.2 pk ↔ Admitted s.store.1 s.store.2 pk :=
      fun pk => admitted_evolves hbacked (env_evolves hw)
    simp only [Kept, hadmitted, Survives, and_true]

/-- From the start, every admitted attempt has reached the broker or is about to, exactly when no
handler has died between its transaction and the hook of it: a key that is asked for again is
answered, but its attempt is not handed over again. -/
theorem admissions_kept_iff
    {ls : List (Pool.Label (Worker ⊕ AdmissionWorker) (Choice ⊕ Unit) Writer)}
    (start : admissions.machine.Init s) (h : admissions.machine.run s ls = some t) :
    Kept t ↔ (admissions.machine.under Survives).run s ls = some t := by
  refine Machine.kept_iff_under_of_step (I := fun u => admissions.machine.Reachable u)
    (.start start) ?_ (fun u l v hu hstep => hu.step hstep)
    (fun u l v hu hstep => kept_step hu hstep) h
  rintro pk ⟨row, hrow, -⟩
  rw [start.1.2.1] at hrow
  cases hrow

def unused : Admissions := ⟨({ ledger := {} }, {}), []⟩

/-- A handler dies before its hook, and its caller asks again. -/
def crash : List (Pool.Label (Worker ⊕ AdmissionWorker) (Choice ⊕ Unit) Writer) :=
  [.env (.configure [⟨1, "tenant", "g2p", factoryDeterministic, schemaVersion, some [], none, none,
      true⟩]),
    .spawn (.inr (.relabel [⟨1, "Bank", "1"⟩])), .act 0 (.inr ()),
    .spawn (.inr (.request twice)), .act 1 (.inr ()), .die 1,
    .spawn (.inr (.request twice)), .act 2 (.inr ())]

theorem admissions_kept_iff_crash : ∃ t, admissions.machine.run unused crash = some t ∧
    t.workers.filterMap answer = [(1, true)] ∧ t.store.2.queue = [] ∧ ¬ Kept t := by
  cases h : admissions.machine.run unused crash with
  | none => exact absurd h (by decide +kernel)
  | some t =>
    have hfacts : ∀ u ∈ admissions.machine.run unused crash,
        u.workers.filterMap answer = [(1, true)] ∧ u.store.2.queue = [] := by decide +kernel
    obtain ⟨hanswer, hqueue⟩ := hfacts t h
    have hunder : ((admissions.machine.under Survives).run unused crash).isNone = true := by
      decide +kernel
    refine ⟨t, rfl, hanswer, hqueue, fun hkept => ?_⟩
    rw [(admissions_kept_iff ⟨⟨⟨rfl, rfl, rfl, rfl⟩, rfl, rfl⟩, rfl⟩ h).mp hkept] at hunder
    cases hunder

end Lost

end Civicos.Payments
