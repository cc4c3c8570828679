import Civicos.Library.Layer
import Civicos.Payments.PrepaymentOutcome

/-!
# From a validation result to an execution

The result of a validation reaches its caller by a callback and by a poll, and it opens the gate to
the execution. Executions are a layer over the validation system: the gate reads the requests and
writes rows of its own.
-/
namespace Civicos.Payments

open Library Library.Transaction PaymentLifecycleService

/-! ## Polling -/

structure FailedAccount where
  instructionId : String
  failureReason : String
deriving DecidableEq, Repr

structure PolledResult where
  requestId : String
  sourceBatchId : String
  numberFailedCases : ℕ
  failedAccounts : List FailedAccount
deriving DecidableEq, Repr

/-- What a record adds to the failed accounts -/
def failedAccount (pvr : PrepaymentValidationRequest) : Option FailedAccount :=
  match pvr.status with
  | .pending => none
  | .failed =>
    some ⟨pvr.instructionId, "Validation processing error. Please retry or contact support."⟩
  | .completed =>
    if pvr.beneficiaryFound = some false ∨ pvr.financialAddressValid = some false then
      some ⟨pvr.instructionId,
        if pvr.beneficiaryFound = some false then "Beneficiary not found in ID Mapper."
        else "Financial address not configured for this beneficiary."⟩
    else none

namespace PrepaymentStore

/-- The records of a request, or else of its batch -/
def polled (db : PrepaymentStore) (requestId sourceBatchId : String) :
    List PrepaymentValidationRequest :=
  match db.requests.rows.filter (·.requestId = requestId) with
  | [] => if sourceBatchId = "" then [] else db.requests.rows.filter (·.batchId = sourceBatchId)
  | records => records

def getValidationResult (db : PrepaymentStore) (requestId sourceBatchId : String) : PolledResult :=
  let failedAccounts := (db.polled requestId sourceBatchId).filterMap failedAccount
  ⟨requestId, sourceBatchId, failedAccounts.length, failedAccounts⟩

end PrepaymentStore

/-! ## The gate -/

structure PrepaymentExecution where
  pk : Uuid
  validationRequest : Uuid
  executionKey : String
deriving DecidableEq, Repr

namespace PrepaymentExecution

def oneToOne : Index PrepaymentExecution where
  name := "validation_request_id"
  Key := Uuid
  key e := some e.validationRequest

def uniqueExecutionKey : Index PrepaymentExecution where
  name := "execution_key"
  Key := String
  key e := some e.executionKey

def schema : Schema PrepaymentExecution where
  pk := pk
  indexes := [oneToOne, uniqueExecutionKey]
  checks := [.width "execution_key" 160 executionKey]

end PrepaymentExecution

/-- The classes below `PrepaymentExecutionGateError`, and what the database raises -/
inductive PrepaymentExecutionGateError where
  | prepaymentValidationNotCompleted (message : String)
  | prepaymentValidationFailed (message : String)
  | prepaymentBeneficiaryNotFound (message : String)
  | prepaymentFinancialAddressInvalid (message : String)
  | prepaymentExecutionKeyConflict (message : String)
  | database (e : PaymentError)
deriving DecidableEq, Repr

abbrev Executions := Table PrepaymentExecution.schema

abbrev GateTx := Transaction PrepaymentExecutionGateError Executions

open PrepaymentExecutionGateError

def executionTable : Lens Executions Executions where
  get t := t
  set t _ := t
  get_set _ _ := rfl
  set_get _ := rfl
  set_set _ _ _ := rfl

/-- `PrepaymentExecution.objects.create` -/
def createExecution (request : Uuid) (key : String) : GateTx PrepaymentExecution :=
  create executionTable (fun v => database (.ofViolation v)) fun pk => ⟨pk, request, key⟩

/-- The row that has the key already -/
def executionOfKey (request : Uuid) (key : String) : GateTx PrepaymentExecution := do
  match (← get).rows.find? (·.executionKey = key) with
  | none => throw (database (.doesNotExist "PrepaymentExecution"))
  | some existing =>
    if existing.validationRequest ≠ request then
      throw (prepaymentExecutionKeyConflict "execution key belongs to another validation request")
    return existing

/-- The insert of an execution; `except IntegrityError` looks for the row with its key. -/
def insertExecution (request : Uuid) (key : String) : GateTx PrepaymentExecution := fun t =>
  match createExecution request key t with
  | .error (.database (.integrityError _)) => executionOfKey request key t
  | r => r

def admitPrepaymentExecution (db : PrepaymentStore) (validationRequestId : Uuid)
    (executionKey : Option String) : GateTx PrepaymentExecution := do
  let key := strip (executionKey.getD "")
  if key = "" then
    throw (prepaymentExecutionKeyConflict "execution key is required")
  match db.requests.get validationRequestId with
  | none => throw (database (.doesNotExist "PrepaymentValidationRequest"))
  | some request =>
    if request.status = .failed then
      throw (prepaymentValidationFailed "prepayment validation failed")
    if request.status ≠ .completed then
      throw (prepaymentValidationNotCompleted "prepayment validation is not completed")
    if request.beneficiaryFound ≠ some true then
      throw (prepaymentBeneficiaryNotFound "beneficiary was not found")
    if request.financialAddressValid ≠ some true then
      throw (prepaymentFinancialAddressInvalid "financial address is invalid")
    match (← get).rows.find? (·.validationRequest = request.pk) with
    | some existing =>
      if existing.executionKey ≠ key then
        throw (prepaymentExecutionKeyConflict
          "validation request already has another execution key")
      return existing
    | none => insertExecution request.pk key

/-! ## What the gate does -/

section Gate

variable {db : PrepaymentStore} {T T' : Executions} {request : Uuid} {key : Option String}
  {e : PrepaymentExecution}

/-- The gate is open to a request. -/
def PrepaymentStore.Validated (db : PrepaymentStore) (request : Uuid) : Prop :=
  ∃ r, db.requests.get request = some r ∧ r.status = .completed ∧ r.beneficiaryFound = some true ∧
    r.financialAddressValid = some true

/-- A request and a key that are not admitted with others -/
def Executions.Fits (T : Executions) (request : Uuid) (key : String) : Prop :=
  ∀ e ∈ T.rows, e.validationRequest = request ↔ e.executionKey = key

theorem find_request : T.rows.find? (·.validationRequest = request) = some e ↔
    e ∈ T.rows ∧ e.validationRequest = request := by
  rw [Table.find?_eq_some (i := PrepaymentExecution.oneToOne) (k := request)
    (by simp [PrepaymentExecution.schema]) fun r => by simp [PrepaymentExecution.oneToOne]]
  simp [PrepaymentExecution.oneToOne]

theorem createExecution_ok {key : String} (h : createExecution request key T = .ok (e, T')) :
    e = ⟨T.next, request, key⟩ ∧ T'.rows = T.rows ++ [e] := by
  obtain ⟨rfl, T₁, hins, rfl⟩ := create_ok.mp h
  exact ⟨rfl, (Table.insert_ok.mp hins).2⟩

/-- Where the request has no execution, the row with the key is of no use. -/
theorem executionOfKey_error {key : String} (hnone : ∀ a ∈ T.rows, a.validationRequest ≠ request) :
    ¬ Returns (executionOfKey request key) T := by
  rintro ⟨⟨a, T'⟩, h⟩
  unfold executionOfKey at h
  rw [bind_of_ok get_apply] at h
  cases hfind : T.rows.find? (·.executionKey = key) with
  | none => simp [hfind] at h
  | some a =>
    simp only [hfind] at h
    exact (guard_ok h).1 (hnone a (List.mem_of_find?_eq_some hfind))

theorem insertExecution_ok {key : String} (hnone : ∀ a ∈ T.rows, a.validationRequest ≠ request)
    (h : insertExecution request key T = .ok (e, T')) :
    e = ⟨T.next, request, key⟩ ∧ T'.rows = T.rows ++ [e] := by
  unfold insertExecution at h
  split at h
  · exact absurd ⟨_, h⟩ (executionOfKey_error hnone)
  · exact createExecution_ok h

/-- A refused insert: the key is too long, or another request has it. -/
theorem insertExecution_error {key : String} {err : PrepaymentExecutionGateError}
    (hnone : ∀ a ∈ T.rows, a.validationRequest ≠ request)
    (h : insertExecution request key T = .error err) :
    err = database (.dataError "execution_key") ∨ err = prepaymentExecutionKeyConflict
      "execution key belongs to another validation request" := by
  have hcreate : ∀ err', createExecution request key T = .error err' →
      err' = database (.dataError "execution_key") ∨
        (∃ c, err' = database (.integrityError c)) ∧ ∃ a ∈ T.rows, a.executionKey = key := by
    intro err' herr
    obtain ⟨v, hins, rfl⟩ := create_error.mp herr
    rcases Table.violated hins fun a ha => Nat.ne_of_lt (Table.lt_next ha) with
      ⟨d, hd, -, rfl⟩ | ⟨-, i, hi, rfl, a, ha, hclash⟩
    · simp only [PrepaymentExecution.schema, List.mem_singleton] at hd
      subst hd
      exact .inl rfl
    · refine .inr ⟨⟨_, rfl⟩, a, ha, ?_⟩
      simp only [PrepaymentExecution.schema, List.mem_cons, List.not_mem_nil, or_false] at hi
      rcases hi with rfl | rfl
      · exact absurd (Option.some.inj hclash.2.symm).symm (hnone a ha)
      · exact Option.some.inj hclash.2
  unfold insertExecution at h
  split at h
  next c hc =>
    rcases hcreate _ hc with hwidth | ⟨-, a, ha, hak⟩
    · cases hwidth
    · refine .inr ?_
      unfold executionOfKey at h
      rw [bind_of_ok get_apply] at h
      cases hfind : T.rows.find? (·.executionKey = key) with
      | none => simp [List.find?_eq_none] at hfind; exact absurd hak (hfind a ha)
      | some b =>
        simp only [hfind] at h
        rw [if_pos (hnone b (List.mem_of_find?_eq_some hfind))] at h
        cases h
        rfl
  next hno =>
    rcases hcreate _ h with hwidth | ⟨⟨c, rfl⟩, -⟩
    · exact .inl hwidth
    · exact absurd h (hno c)

/-- An admission finds the execution of its request, or creates it. -/
theorem admit_ok (h : admitPrepaymentExecution db request key T = .ok (e, T')) :
    db.Validated request ∧ strip (key.getD "") ≠ "" ∧ e.validationRequest = request ∧
      e.executionKey = strip (key.getD "") ∧
      ((e ∈ T.rows ∧ T' = T) ∨ T'.rows = T.rows ++ [e]) := by
  unfold admitPrepaymentExecution at h
  obtain ⟨hkey, h⟩ := guard_ok h
  cases hget : db.requests.get request with
  | none => simp [hget] at h
  | some r =>
    simp only [hget] at h
    obtain ⟨-, h⟩ := guard_ok h
    obtain ⟨hstatus, h⟩ := guard_ok h
    obtain ⟨hfound, h⟩ := guard_ok h
    obtain ⟨haddress, h⟩ := guard_ok h
    have hpk : r.pk = request := Table.pk_of_get hget
    refine ⟨⟨r, hget, not_not.mp hstatus, not_not.mp hfound, not_not.mp haddress⟩, hkey, ?_⟩
    rw [bind_of_ok get_apply] at h
    cases hfind : T.rows.find? (·.validationRequest = r.pk) with
    | some existing =>
      simp only [hfind] at h
      obtain ⟨hsame, h⟩ := guard_ok h
      obtain ⟨rfl, rfl⟩ := pure_ok.mp h
      obtain ⟨hmem, hrequest⟩ := find_request.mp hfind
      exact ⟨hrequest.trans hpk, not_not.mp hsame, .inl ⟨hmem, rfl⟩⟩
    | none =>
      simp only [hfind] at h
      have hnone : ∀ a ∈ T.rows, a.validationRequest ≠ r.pk := by simpa using hfind
      obtain ⟨rfl, hrows⟩ := insertExecution_ok hnone h
      exact ⟨hpk, rfl, .inr hrows⟩

theorem eq_of_request {a : PrepaymentExecution} (ha : a ∈ T.rows) (he : e ∈ T.rows)
    (h : a.validationRequest = e.validationRequest) : a = e :=
  Table.eq_of_clash (i := PrepaymentExecution.oneToOne) (by simp [PrepaymentExecution.schema]) ha he
    ⟨by simp [PrepaymentExecution.oneToOne], congrArg some h⟩

theorem eq_of_key {a : PrepaymentExecution} (ha : a ∈ T.rows) (he : e ∈ T.rows)
    (h : a.executionKey = e.executionKey) : a = e :=
  Table.eq_of_clash (i := PrepaymentExecution.uniqueExecutionKey)
    (by simp [PrepaymentExecution.schema]) ha he
    ⟨by simp [PrepaymentExecution.uniqueExecutionKey], congrArg some h⟩

theorem fits_of_mem (he : e ∈ T.rows) : T.Fits e.validationRequest e.executionKey := fun _ ha =>
  ⟨fun h => congrArg _ (eq_of_request ha he h), fun h => congrArg _ (eq_of_key ha he h)⟩

theorem valid_iff : PrepaymentExecution.schema.Valid e ↔ e.executionKey.length ≤ 160 := by
  simp [Schema.Valid, PrepaymentExecution.schema, Check.width]

/-- A new execution needs a key that is free and not too long. -/
theorem insertExecution_returns {key : String}
    (hnone : ∀ a ∈ T.rows, a.validationRequest ≠ request) :
    Returns (insertExecution request key) T ↔
      key.length ≤ 160 ∧ ∀ a ∈ T.rows, a.executionKey ≠ key := by
  have hcreate : Returns (createExecution request key) T ↔
      key.length ≤ 160 ∧ ∀ a ∈ T.rows, a.executionKey ≠ key := by
    refine (create_returns (ℓ := executionTable) rfl).trans (and_congr valid_iff ?_)
    refine forall₂_congr fun a ha => ?_
    simp [PrepaymentExecution.schema, Index.Clash, PrepaymentExecution.oneToOne,
      PrepaymentExecution.uniqueExecutionKey, hnone a ha]
  rw [← hcreate]
  constructor
  · rintro ⟨⟨a, T'⟩, h⟩
    unfold insertExecution at h
    split at h
    · exact absurd ⟨_, h⟩ (executionOfKey_error hnone)
    · exact ⟨_, h⟩
  · rintro ⟨r, h⟩
    exact ⟨r, by simp only [insertExecution, h]⟩

/-- The gate opens exactly to validated requests, under a key of their own. -/
theorem admit_returns : Returns (admitPrepaymentExecution db request key) T ↔
    db.Validated request ∧ strip (key.getD "") ≠ "" ∧ (strip (key.getD "")).length ≤ 160 ∧
      T.Fits request (strip (key.getD "")) := by
  constructor
  · rintro ⟨⟨e, T'⟩, h⟩
    obtain ⟨hvalidated, hkey, rfl, hek, hrows⟩ := admit_ok h
    refine ⟨hvalidated, hkey, ?_⟩
    rw [← hek]
    rcases hrows with ⟨he, rfl⟩ | hrows
    · exact ⟨valid_iff.mp (T'.valid e he), fits_of_mem he⟩
    · have he : e ∈ T'.rows := by simp [hrows]
      refine ⟨valid_iff.mp (T'.valid e he), fun a ha => fits_of_mem he a ?_⟩
      rw [hrows]
      exact List.mem_append_left _ ha
  · rintro ⟨⟨r, hget, hstatus, hfound, haddress⟩, hkey, hlength, hfits⟩
    obtain rfl : r.pk = request := Table.pk_of_get hget
    unfold admitPrepaymentExecution
    refine returns_guard.mpr ⟨hkey, ?_⟩
    simp only [hget]
    refine returns_guard.mpr ⟨by simp [hstatus], returns_guard.mpr ⟨by simp [hstatus],
      returns_guard.mpr ⟨by simp [hfound], returns_guard.mpr ⟨by simp [haddress], ?_⟩⟩⟩⟩
    refine returns_get.mpr ?_
    cases hfind : T.rows.find? (·.validationRequest = r.pk) with
    | some existing =>
      obtain ⟨hmem, hrequest⟩ := find_request.mp hfind
      exact returns_guard.mpr ⟨not_not.mpr ((hfits existing hmem).mp hrequest), returns_pure⟩
    | none =>
      have hnone : ∀ a ∈ T.rows, a.validationRequest ≠ r.pk := by simpa using hfind
      exact (insertExecution_returns hnone).mpr
        ⟨hlength, fun a ha hak => hnone a ha ((hfits a ha).mpr hak)⟩

end Gate

/-! ## The gated system -/

/-- A request for an execution, and its answer -/
inductive GateWorker where
  | admission (request : Uuid) (key : Option String)
  | admitted (request : Uuid) (key : Option String) (execution : PrepaymentExecution)
  | refused (request : Uuid) (key : Option String) (e : PrepaymentExecutionGateError)
deriving DecidableEq

namespace GateWorker

def entry : GateWorker → Bool
  | admission .. => true
  | _ => false

def act (db : PrepaymentStore) (T : Executions) (w : GateWorker) (_ : Unit) :
    Option (PrepaymentStore × Executions × GateWorker) :=
  match w with
  | admission request key =>
    match commit (admitPrepaymentExecution db request key) T with
    | (.ok e, T') => some (db, T', admitted request key e)
    | (.error e, T') => some (db, T', refused request key e)
  | admitted .. => none
  | refused .. => none

theorem act_store {db db' : PrepaymentStore} {T T' : Executions} {w w' : GateWorker}
    (h : w.act db T () = some (db', T', w')) : db' = db := by
  cases w with
  | admission request key =>
    simp only [act] at h
    split at h <;> cases h <;> rfl
  | admitted | refused => cases h

end GateWorker

def gate : Layer prepayments Executions GateWorker Unit where
  Init T := T = .empty
  entry := GateWorker.entry
  act := GateWorker.act
  conforms h := .inl (GateWorker.act_store h)

def gatedPrepayments : Program (PrepaymentStore × Executions) (PrepaymentWorker ⊕ GateWorker)
    (PrepaymentChoice ⊕ Unit) PrepaymentEvent :=
  prepayments.extend gate

/-! ## Requests and their results -/

namespace PrepaymentStore

variable {db db' : PrepaymentStore} {r : PrepaymentValidationRequest}

/-- What a block or an event does to the requests -/
inductive RequestStep (db db' : PrepaymentStore) : Prop where
  | same (h : db'.requests = db.requests)
  | decided (r : PrepaymentValidationRequest) (found : Bool) (hget : db.requests.get r.pk = some r)
      (h : db.requests.update r.pk (fun row => row.decided found) = .ok db'.requests)
  | received (r : PrepaymentValidationRequest) (hfound : r.beneficiaryFound = none)
      (haddress : r.financialAddressValid = none) (h : db.requests.insert r = .ok db'.requests)

end PrepaymentStore

open PrepaymentStore

theorem commit_zoom_requests {α : Type} (x : Tx α) (db : PrepaymentStore) :
    (commit (zoom ledgerPart x) db).2.requests = db.requests := by
  cases h : x db.ledger with
  | error e => rw [commit_of_error (zoom_error.mpr h)]
  | ok r => rw [commit_withLedger (a := r.1) (l := r.2) h]; rfl

theorem PrepaymentWorker.act_requests {db db' : PrepaymentStore} {p q : PrepaymentWorker}
    {c : PrepaymentChoice} (h : p.act db c = some (db', q)) : RequestStep db db' := by
  cases p with
  | task pk =>
    simp only [PrepaymentWorker.act] at h
    cases hdecide : decideValidation pk db with
    | error e =>
      rw [commit_of_error hdecide] at h
      cases h
      exact .same rfl
    | ok o =>
      rw [commit_of_ok (a := o.1) (t := o.2) hdecide] at h
      rcases decideValidation_ok (o := o.1) (t := o.2) hdecide with ⟨ho, ht⟩ |
        ⟨r, found, T, hget, -, hupdate, ho, ht⟩
      · simp only [ho, ht, Option.some.injEq, Prod.mk.injEq] at h
        obtain ⟨rfl, rfl⟩ := h
        exact .same rfl
      · simp only [ho, ht, Option.some.injEq, Prod.mk.injEq] at h
        obtain ⟨rfl, rfl⟩ := h
        obtain rfl : r.pk = pk := Table.pk_of_get hget
        exact .decided r found hget hupdate
  | attempting r payload =>
    have hsame := commit_zoom_requests (callbackAttempt r payload) db
    simp only [PrepaymentWorker.act] at h
    split at h <;> cases h <;> exact .same (by simp_all)
  | queueing r payload a =>
    have hsame := commit_zoom_requests (queueCallback a r.callbackUrl payload c.now) db
    simp only [PrepaymentWorker.act] at h
    split at h <;> cases h <;> exact .same (by simp_all)
  | posting d =>
    have hsame := commit_zoom_requests
      (recordCallbackResult d c.post.httpStatus c.post.errorCode c.now) db
    simp only [PrepaymentWorker.act] at h
    split at h <;> cases h <;> exact .same (by simp_all)
  | replay =>
    cases h
    exact .same rfl
  | replaying due =>
    cases due with
    | nil =>
      cases h
      exact .same rfl
    | cons d due =>
      have hsame := commit_zoom_requests
        (recordCallbackResult d c.post.httpStatus c.post.errorCode c.now) db
      simp only [PrepaymentWorker.act] at h
      split at h <;> cases h <;> exact .same (by simp_all)
  | raised e => cases h
  | done => cases h
  | dead => cases h

theorem validatePrepayment_blank {c : PrepaymentCall} {db db' : PrepaymentStore}
    {r : PrepaymentValidationRequest} (h : validatePrepayment c db = .ok (r, db')) :
    r.beneficiaryFound = none ∧ r.financialAddressValid = none := by
  unfold validatePrepayment exceptIntegrityError at h
  split at h
  · cases h
  · obtain ⟨x, _, hcreate, h₁⟩ := bind_ok.mp h
    obtain ⟨hx, -⟩ := create_ok.mp hcreate
    cases h₁
    subst hx
    exact ⟨rfl, rfl⟩

theorem PrepaymentEvent.apply_requests {db db' : PrepaymentStore} {x : PrepaymentEvent}
    (h : PrepaymentEvent.apply db x = some db') : RequestStep db db' := by
  cases x with
  | receive c =>
    simp only [PrepaymentEvent.apply, Option.some.injEq] at h
    split at h
    next =>
      cases hreceive : validatePrepayment c db with
      | error e =>
        rw [commit_of_error hreceive] at h
        subst h
        exact .same rfl
      | ok p =>
        rw [commit_of_ok (a := p.1) (t := p.2) hreceive] at h
        subst h
        obtain ⟨-, -, -, T, hinsert, ht⟩ := validatePrepayment_ok (r := p.1) (t := p.2) hreceive
        obtain ⟨hfound, haddress⟩ := validatePrepayment_blank (r := p.1) hreceive
        exact .received p.1 hfound haddress (by rw [ht]; exact hinsert)
    next =>
      subst h
      exact .same rfl
  | beneficiaries rows =>
    cases h
    exact .same rfl

/-- The verdict on the address is the one on the beneficiary. -/
theorem prepayments_addressed {s : Pool.State PrepaymentStore PrepaymentWorker}
    (h : prepayments.machine.Reachable s) :
    ∀ r ∈ s.store.requests.rows, r.financialAddressValid = r.beneficiaryFound := by
  have hstep : ∀ db db', RequestStep db db' →
      (∀ r ∈ db.requests.rows, r.financialAddressValid = r.beneficiaryFound) →
      ∀ r ∈ db'.requests.rows, r.financialAddressValid = r.beneficiaryFound := by
    rintro db db' hstep ih x hx
    cases hstep with
    | same heq => exact ih x (heq ▸ hx)
    | decided r found hget hupdate =>
      rcases (Table.mem_update hupdate hget).mp hx with ⟨hx, -⟩ | rfl
      · exact ih x hx
      · rfl
    | received r hfound haddress hinsert =>
      rcases (Table.mem_insert hinsert).mp hx with hx | rfl
      · exact ih x hx
      · rw [hfound, haddress]
  refine Program.store_invariant (P := prepayments)
    (I := fun db => ∀ r ∈ db.requests.rows, r.financialAddressValid = r.beneficiaryFound) ?_ ?_ ?_ h
  · rintro db hdb
    rw [show db = {} from hdb]
    exact fun r hr => absurd hr List.not_mem_nil
  · exact fun db p c db' q ih hact => hstep db db' (PrepaymentWorker.act_requests hact) ih
  · exact fun db x db' ih henv => hstep db db' (PrepaymentEvent.apply_requests henv) ih

/-! ## The result of a validation -/

section Results

variable {db : PrepaymentStore} {r : PrepaymentValidationRequest}

/-- The account that a rejected request reports -/
def rejectedAccount (r : PrepaymentValidationRequest) : FailedAccount :=
  ⟨r.instructionId, "Beneficiary not found in ID Mapper."⟩

/-- The ways in which a result reaches the caller say the same, and the gate follows them. -/
structure ResultsAgree (db : PrepaymentStore) : Prop where
  polled : ∀ r ∈ db.requests.rows, ∀ batch,
    (db.getValidationResult r.requestId batch).failedAccounts =
      if r.status = .completed ∧ r.beneficiaryFound = some false then [rejectedAccount r] else []
  polledBatch : ∀ requestId batch, batch ≠ "" → (∀ r ∈ db.requests.rows, r.requestId ≠ requestId) →
    (db.getValidationResult requestId batch).failedAccounts =
      (db.requests.rows.filter fun r => r.batchId = batch ∧ r.status = .completed ∧
        r.beneficiaryFound = some false).map rejectedAccount
  pushed : ∀ d ∈ db.ledger.callbacks.rows, ∃ r ∈ db.requests.rows, r.status = .completed ∧
    ∀ batch, d.payload = [("RequestID", .str r.requestId), ("Source_BatchID", .str r.batchId),
      ("NumberFailedCases", .int (db.getValidationResult r.requestId batch).numberFailedCases),
      ("FailedAccounts", .strs ((db.getValidationResult r.requestId batch).failedAccounts.map
        (·.instructionId)))]
  gated : ∀ r ∈ db.requests.rows, ∀ batch, db.Validated r.pk ↔
    r.status = .completed ∧ (db.getValidationResult r.requestId batch).numberFailedCases = 0

theorem failedAccount_eq (hs : db.Sound) (hr : r ∈ db.requests.rows)
    (haddress : r.financialAddressValid = r.beneficiaryFound) :
    failedAccount r = if r.status = .completed ∧ r.beneficiaryFound = some false then
      some (rejectedAccount r) else none := by
  unfold failedAccount
  rcases hs.decided r hr with ⟨hpending, -⟩ | ⟨found, ⟨hcompleted, hfound⟩, -⟩
  · simp [hpending]
  · cases found <;> simp [hcompleted, haddress, hfound, rejectedAccount]

/-- `request_id` is unique. -/
theorem polled_eq (hr : r ∈ db.requests.rows) (batch : String) :
    db.polled r.requestId batch = [r] := by
  unfold polled
  rw [Table.filter_key (i := PrepaymentValidationRequest.uniqueRequestId) (k := r.requestId)
    (by simp [PrepaymentValidationRequest.schema]) hr rfl fun a => by
      simp [PrepaymentValidationRequest.uniqueRequestId]]

theorem failedAccounts_eq (hs : db.Sound) (hr : r ∈ db.requests.rows)
    (haddress : r.financialAddressValid = r.beneficiaryFound) (batch : String) :
    (db.getValidationResult r.requestId batch).failedAccounts =
      if r.status = .completed ∧ r.beneficiaryFound = some false then [rejectedAccount r]
      else [] := by
  simp only [getValidationResult, polled_eq hr, List.filterMap_cons, List.filterMap_nil,
    failedAccount_eq hs hr haddress]
  split <;> simp_all

theorem resultsAgree_of_sound (hs : db.Sound)
    (haddress : ∀ r ∈ db.requests.rows, r.financialAddressValid = r.beneficiaryFound) :
    ResultsAgree db := by
  have hpolled := fun r hr => failedAccounts_eq hs hr (haddress r hr)
  have hnumber : ∀ requestId batch, (db.getValidationResult requestId batch).numberFailedCases =
      (db.getValidationResult requestId batch).failedAccounts.length := fun _ _ => rfl
  refine ⟨hpolled, fun requestId batch hbatch hnone => ?_, fun d hd => ?_, fun r hr batch => ?_⟩
  · have hfilter : db.requests.rows.filter (·.requestId = requestId) = [] := by
      simpa [List.filter_eq_nil_iff] using hnone
    simp only [getValidationResult, polled, hfilter, if_neg hbatch]
    rw [← List.filterMap_eq_map, List.filterMap_filter, List.filterMap_filter]
    refine List.filterMap_congr fun r hr => ?_
    rw [failedAccount_eq hs hr (haddress r hr)]
    by_cases hb : r.batchId = batch <;> simp [hb]
  · obtain ⟨-, r, hcarries⟩ := hs.callbacks d hd
    obtain ⟨found, ⟨hcompleted, hfound⟩, hpayload⟩ := hcarries.result
    refine ⟨r, hcarries.request, hcompleted, fun batch => ?_⟩
    rw [hpayload, hnumber, hpolled r hcarries.request]
    cases found <;> simp [validationResult, hcompleted, hfound, rejectedAccount]
  · rw [hnumber, hpolled r hr]
    constructor
    · rintro ⟨x, hget, hcompleted, hfound, -⟩
      obtain rfl : x = r := Option.some.inj
        (hget.symm.trans (Table.get_eq_some.mpr ⟨hr, rfl⟩))
      exact ⟨hcompleted, by simp [hfound]⟩
    · rintro ⟨hcompleted, hzero⟩
      rcases hs.decided r hr with ⟨hpending, -⟩ | ⟨found, ⟨-, hfound⟩, -⟩
      · rw [hcompleted] at hpending
        cases hpending
      · cases found with
        | false => simp [hcompleted, hfound] at hzero
        | true =>
          exact ⟨r, Table.get_eq_some.mpr ⟨hr, rfl⟩, hcompleted, hfound,
            (haddress r hr).trans hfound⟩

end Results

/-- However validations, callbacks and replays interleave, the poll, the callback and the gate agree
on every request, and the result of a decided request does not change any more. -/
theorem validation_results_agree {s : Pool.State PrepaymentStore PrepaymentWorker}
    (h : prepayments.machine.Reachable s) :
    ResultsAgree s.store ∧ ∀ t, prepayments.machine.Later s t → ∀ r ∈ s.store.requests.rows,
      r.status = .completed → ∀ batch, t.store.getValidationResult r.requestId batch =
        s.store.getValidationResult r.requestId batch := by
  have hagree : ∀ u, prepayments.machine.Reachable u → ResultsAgree u.store := fun u hu =>
    resultsAgree_of_sound (prepayments_sound hu).1 (prepayments_addressed hu)
  refine ⟨hagree s h, fun t hlater r hr hcompleted batch => ?_⟩
  have hkept : r ∈ t.store.requests.rows :=
    hlater.induct (I := fun t => r ∈ t.store.requests.rows) hr fun u l v hu hmem hstep =>
      (prepayments_grow (h.later hu) hstep).requests r hmem hcompleted
  have haccounts := ((hagree t (h.later hlater)).polled r hkept batch).trans
    ((hagree s h).polled r hr batch).symm
  simp only [getValidationResult] at haccounts ⊢
  rw [haccounts]

theorem validation_results_agree_redelivered :
    ResultsAgree redelivered.store ∧
      (redelivered.store.getValidationResult "req-00000001" "b").numberFailedCases = 1 :=
  ⟨(validation_results_agree
    (Machine.Reachable.final (M := prepayments.machine) (s := ⟨{}, []⟩) ⟨rfl, rfl⟩ _)).1,
    by decide +kernel⟩

/-! ## Executions over whole runs -/

section Executions

variable {s t : Pool.State (PrepaymentStore × Executions) (PrepaymentWorker ⊕ GateWorker)}

/-- A verdict that opened the gate is final. -/
theorem PrepaymentStore.Validated.mono {db db' : PrepaymentStore} {request : Uuid}
    (h : db.Validated request) (hgrows : db.Grows db') : db'.Validated request := by
  obtain ⟨r, hget, hcompleted, hrest⟩ := h
  obtain ⟨hr, rfl⟩ := Table.get_eq_some.mp hget
  exact ⟨r, Table.get_eq_some.mpr ⟨hgrows.requests r hr hcompleted, rfl⟩, hcompleted, hrest⟩

/-- The refusals that do not come about: the validation task writes no such verdicts, and a lost
race for a key is answered. -/
def PrepaymentExecutionGateError.IsExcluded : PrepaymentExecutionGateError → Prop
  | prepaymentValidationFailed _ => True
  | prepaymentFinancialAddressInvalid _ => True
  | database (.integrityError _) => True
  | _ => False

/-- What a handler knows of its answer -/
def Answered (T : Executions) : GateWorker → Prop
  | .admission .. => True
  | .admitted request key e =>
    e ∈ T.rows ∧ e.validationRequest = request ∧ e.executionKey = strip (key.getD "")
  | .refused _ _ err => ¬ err.IsExcluded

theorem Answered.mono {T T' : Executions} {w : GateWorker} (h : Answered T w)
    (hrows : T.rows <+: T'.rows) : Answered T' w := by
  cases w with
  | admitted request key e => exact ⟨hrows.subset h.1, h.2⟩
  | _ => exact h

/-- A sound store refuses an admission for few reasons. -/
theorem admit_error {db : PrepaymentStore} {T : Executions} {request : Uuid} {key : Option String}
    {err : PrepaymentExecutionGateError} (hs : db.Sound)
    (haddress : ∀ r ∈ db.requests.rows, r.financialAddressValid = r.beneficiaryFound)
    (h : admitPrepaymentExecution db request key T = .error err) : ¬ err.IsExcluded := by
  unfold admitPrepaymentExecution at h
  split at h
  · cases h
    exact id
  cases hget : db.requests.get request with
  | none =>
    simp only [hget] at h
    cases h
    exact id
  | some r =>
    have hr := Table.mem_of_get hget
    simp only [hget] at h
    split at h
    next hfailed =>
      rcases hs.decided r hr with ⟨hpending, -⟩ | ⟨found, ⟨hcompleted, -⟩, -⟩
      · cases hfailed.symm.trans hpending
      · cases hfailed.symm.trans hcompleted
    split at h
    · cases h
      exact id
    split at h
    · cases h
      exact id
    next hfound =>
      rw [if_neg (by simpa [haddress r hr] using hfound), bind_of_ok get_apply] at h
      cases hfind : T.rows.find? (·.validationRequest = r.pk) with
      | some existing =>
        simp only [hfind] at h
        split at h
        · cases h
          exact id
        · cases h
      | none =>
        have hnone : ∀ a ∈ T.rows, a.validationRequest ≠ r.pk := by simpa using hfind
        simp only [hfind] at h
        rcases insertExecution_error hnone h with rfl | rfl <;> exact id

/-- What holds of every reachable state of the gated system -/
structure Gated (s : Pool.State (PrepaymentStore × Executions) (PrepaymentWorker ⊕ GateWorker)) :
    Prop where
  validated : ∀ e ∈ s.store.2.rows, s.store.1.Validated e.validationRequest
  keyed : ∀ e ∈ s.store.2.rows, e.executionKey ≠ ""
  once : ∀ e ∈ s.store.2.rows, s.store.2.Fits e.validationRequest e.executionKey
  answered : ∀ w, .inr w ∈ s.workers → Answered s.store.2 w

theorem gate_act {db : PrepaymentStore} {T T' : Executions} {w w' : GateWorker}
    {db' : PrepaymentStore} (hs : db.Sound)
    (haddress : ∀ r ∈ db.requests.rows, r.financialAddressValid = r.beneficiaryFound)
    (h : w.act db T () = some (db', T', w')) :
    T.rows <+: T'.rows ∧ Answered T' w' ∧
      ∀ e ∈ T'.rows, e ∈ T.rows ∨ db.Validated e.validationRequest ∧ e.executionKey ≠ "" := by
  cases w with
  | admitted | refused => cases h
  | admission request key =>
    simp only [GateWorker.act] at h
    cases hadmit : admitPrepaymentExecution db request key T with
    | error err =>
      rw [commit_of_error hadmit] at h
      cases h
      exact ⟨List.prefix_refl _, admit_error hs haddress hadmit, fun e he => .inl he⟩
    | ok a =>
      rw [commit_of_ok (a := a.1) (t := a.2) hadmit] at h
      cases h
      obtain ⟨hvalidated, hkey, hrequest, hek, ⟨he, hT⟩ | hrows⟩ :=
        admit_ok (e := a.1) hadmit
      · rw [hT]
        exact ⟨List.prefix_refl _, ⟨he, hrequest, hek⟩, fun e he => .inl he⟩
      · refine ⟨hrows ▸ List.prefix_append _ _, ⟨by simp [hrows], hrequest, hek⟩, fun e he => ?_⟩
        rw [hrows, List.mem_append, List.mem_singleton] at he
        rcases he with he | rfl
        · exact .inl he
        · exact .inr ⟨hrequest ▸ hvalidated, hek ▸ hkey⟩

theorem gated_of_reachable (h : gatedPrepayments.machine.Reachable s) : Gated s := by
  obtain ⟨hrows, hworkers⟩ := Program.layer_invariant (P := prepayments) (E := gate)
    (p := PrepaymentWorker.replay) (R := PrepaymentStore.Grows)
    (K := fun db T => ∀ e ∈ T.rows, db.Validated e.validationRequest ∧ e.executionKey ≠ "")
    (J := fun _ T w => Answered T w) rfl (fun _ _ _ => prepayments_grow)
    (fun db T _ hT e he => absurd he (by rw [show T = .empty from hT]; exact List.not_mem_nil))
    (fun _ _ _ hgrows hK => ⟨fun e he => ⟨(hK e he).1.mono hgrows, (hK e he).2⟩, fun _ hw => hw⟩)
    (fun _ _ w _ hw => by cases w with | admission => trivial | _ => cases hw)
    (fun u T w _ db' T' w' hu hK _ hact => by
      obtain ⟨hold, hanswered, hnew⟩ :=
        gate_act (prepayments_sound hu).1 (prepayments_addressed hu) hact
      obtain rfl := GateWorker.act_store hact
      exact ⟨fun e he => (hnew e he).elim (hK e) id, hanswered, fun _ hw => hw.mono hold⟩) h
  exact ⟨fun e he => (hrows e he).1, fun e he => (hrows e he).2, fun e he => fits_of_mem he,
    hworkers⟩

/-- A layer of admissions over the validation of prepayments: executions are admitted only for
validated requests, each under a key of its own, and never taken back; whatever the order of the
requests, two that name the same request or the same key get the same execution or a refusal. -/
theorem prepayment_execution_gated (h : gatedPrepayments.machine.Reachable s) :
    Gated s ∧
      (∀ request key e request' key' e', .inr (.admitted request key e) ∈ s.workers →
        .inr (.admitted request' key' e') ∈ s.workers →
        ((request = request' ↔ strip (key.getD "") = strip (key'.getD "")) ∧
          (request = request' ↔ e = e'))) ∧
      (∀ request key, Returns (admitPrepaymentExecution s.store.1 request key) s.store.2 ↔
        s.store.1.Validated request ∧ strip (key.getD "") ≠ "" ∧
          (strip (key.getD "")).length ≤ 160 ∧ s.store.2.Fits request (strip (key.getD ""))) ∧
      ∀ t, gatedPrepayments.machine.Later s t → s.store.2.rows <+: t.store.2.rows := by
  have hgated := gated_of_reachable h
  refine ⟨hgated, ?_, fun request key => admit_returns, fun t hlater => ?_⟩
  · intro request key e request' key' e' hw hw'
    obtain ⟨he, rfl, hkey⟩ := hgated.answered _ hw
    obtain ⟨he', rfl, hkey'⟩ := hgated.answered _ hw'
    rw [← hkey, ← hkey']
    exact ⟨⟨fun hr => congrArg _ (eq_of_request he he' hr),
        fun hk => congrArg _ (eq_of_key he he' hk)⟩,
      fun hr => eq_of_request he he' hr, fun heq => congrArg _ heq⟩
  · have : Std.Refl fun T T' : Executions => T.rows <+: T'.rows := ⟨fun _ => List.prefix_refl _⟩
    have : IsTrans Executions fun T T' => T.rows <+: T'.rows := ⟨fun _ _ _ => List.IsPrefix.trans⟩
    refine Program.layer_later (P := prepayments) (E := gate) (p := PrepaymentWorker.replay)
      (Q := fun T T' => T.rows <+: T'.rows) rfl (fun u T w d db' T' w' hu hact => ?_) h hlater
    exact (gate_act (prepayments_sound hu).1 (prepayments_addressed hu) hact).1

/-- A validated request, asked for twice under one key and once under another -/
def askedThrice : Pool.State (PrepaymentStore × Executions) (PrepaymentWorker ⊕ GateWorker) :=
  gatedPrepayments.machine.final ⟨({}, .empty), []⟩ [
    .env (.beneficiaries [⟨"p", true⟩]), .env (.receive answered),
    .spawn (.inr (.admission 1 (some "k"))), .act 0 (.inr ()),
    .spawn (.inl (.task 1)), .act 1 (.inl ⟨0, .failed ""⟩),
    .spawn (.inr (.admission 1 (some " k "))), .act 2 (.inr ()),
    .spawn (.inr (.admission 1 (some "k"))), .act 3 (.inr ()),
    .spawn (.inr (.admission 1 (some "other"))), .act 4 (.inr ())]

theorem prepayment_execution_gated_asked :
    askedThrice.store.2.rows = [⟨1, 1, "k"⟩] ∧
      askedThrice.workers.drop 2 = [.inr (.admitted 1 (some " k ") ⟨1, 1, "k"⟩),
        .inr (.admitted 1 (some "k") ⟨1, 1, "k"⟩), .inr (.refused 1 (some "other")
          (.prepaymentExecutionKeyConflict
            "validation request already has another execution key"))] ∧ Gated askedThrice :=
  ⟨by decide +kernel, by decide +kernel, (prepayment_execution_gated
    (Machine.Reachable.final (M := gatedPrepayments.machine) (s := ⟨({}, .empty), []⟩)
      ⟨⟨rfl, rfl⟩, rfl⟩ _)).1⟩

end Executions

end Civicos.Payments
