import Civicos.Payments.Attempts
import Civicos.Payments.Prepayment

/-!
# No validation result is lost

A request is decided once. As long as no worker dies between the verdict and the outbox row, the
result of every decided request waits in the outbox or is in the hands of a worker.
-/
namespace Civicos.Payments

open Library Library.Transaction PaymentLifecycleService

/-! ## Keys of callback attempts -/

/-- What stands before the first separator. -/
theorem takeWhile_separator {c : Char} {as bs : List Char} (h : c ∉ as) :
    (as ++ c :: bs).takeWhile (· ≠ c) = as := by
  rw [List.takeWhile_append_of_pos, List.takeWhile_cons_of_neg] <;> grind

theorem not_mem_of_isRequestId {s : String} (h : isRequestId s = true) : ':' ∉ s.toList := by
  simp only [isRequestId, Bool.decide_or, Bool.or_eq_true, decide_eq_true_eq] at h
  rcases h with rfl | ⟨-, hchars⟩
  · decide
  · intro hmem
    have hcolon := List.all_eq_true.mp hchars _ hmem
    revert hcolon
    decide

namespace PrepaymentValidationRequest

variable {r r' : PrepaymentValidationRequest}

def callbackKey (r : PrepaymentValidationRequest) : String × String × String :=
  attemptKey "" "g2p_prepayment_callback" (callbackRequestId r)

/-- The request has its verdict. -/
def Decided (r : PrepaymentValidationRequest) (found : Bool) : Prop :=
  r.status = .completed ∧ r.beneficiaryFound = some found

/-- The row with a verdict. -/
def decided (r : PrepaymentValidationRequest) (found : Bool) : PrepaymentValidationRequest :=
  { r with
    beneficiaryFound := some found
    financialAddressValid := some found
    status := .completed }

def completionEntry (r : PrepaymentValidationRequest) (found : Bool) : AuditEntry where
  action := .validationCompleted
  actorBbId := r.sourceBbId
  objectType := "validation"
  objectPk := toString r.pk
  requestId := r.requestId
  details := [("batch_id", .str r.batchId), ("beneficiary_found", .bool found)]

theorem length_callbackRequestId (h : schema.Valid r) : (callbackRequestId r).length ≤ 100 := by
  simp only [Schema.Valid, schema, Check.width, List.forall_mem_cons, decide_eq_true_eq] at h
  obtain ⟨hrequest, -, -, hinstruction, -⟩ := h
  have hlength :
      (callbackRequestId r).length = 10 + r.requestId.length + r.instructionId.length := by
    simp only [callbackRequestId, String.length_append]
    have h9 : "callback:".length = 9 := by decide
    have h1 : ":".length = 1 := by decide
    omega
  omega

/-- Requests with the same callback key have the same `RequestID`. -/
theorem requestId_of_callbackKey (hr : schema.Valid r) (hr' : schema.Valid r')
    (hid : isRequestId r.requestId = true) (hid' : isRequestId r'.requestId = true)
    (h : r.callbackKey = r'.callbackKey) : r.requestId = r'.requestId := by
  simp only [callbackKey, attemptKey, Prod.mk.injEq, true_and,
    clip_of_le (length_callbackRequestId hr), clip_of_le (length_callbackRequestId hr')] at h
  have hlist := congrArg String.toList h
  simp only [callbackRequestId, String.toList_append, List.append_assoc,
    List.append_cancel_left_eq] at hlist
  have hprefix := congrArg (List.takeWhile (· ≠ ':')) hlist
  rw [show ":".toList = [':'] from rfl, List.singleton_append, List.singleton_append,
    takeWhile_separator (not_mem_of_isRequestId hid),
    takeWhile_separator (not_mem_of_isRequestId hid')] at hprefix
  exact String.toList_injective hprefix

end PrepaymentValidationRequest

open PrepaymentValidationRequest

/-! ## The store -/

namespace PrepaymentStore

variable {s t : PrepaymentStore} {r : PrepaymentValidationRequest}

/-- The entries that report a verdict. -/
def verdicts (s : PrepaymentStore) : List AuditEntry :=
  s.ledger.audits.filter (·.action = .validationCompleted)

/-- The verdicts on one request. -/
def verdictsOn (s : PrepaymentStore) (pk : Uuid) : List AuditEntry :=
  s.verdicts.filter (·.objectPk = toString pk)

/-- `d` is the outbox row with the result of `r`. -/
structure Carries (s : PrepaymentStore) (d : CallbackDelivery) (r : PrepaymentValidationRequest) :
    Prop where
  request : r ∈ s.requests.rows
  result : ∃ found, r.Decided found ∧ d.payload = validationResult r found
  url : d.callbackUrl = r.callbackUrl
  hash : d.payloadHash = fingerprint d.payload
  attempt : ∃ a ∈ s.ledger.attempts.rows, d.attempt = a.pk ∧ a.scopeKey = r.callbackKey

/-- What holds between two transactions. -/
structure Sound (s : PrepaymentStore) : Prop where
  requestIds : ∀ r ∈ s.requests.rows, isRequestId r.requestId = true
  decided : ∀ r ∈ s.requests.rows, (r.status = .pending ∧ s.verdictsOn r.pk = []) ∨
    ∃ found, r.Decided found ∧ s.verdictsOn r.pk = [r.completionEntry found]
  known : ∀ e ∈ s.verdicts, ∃ r ∈ s.requests.rows, e.objectPk = toString r.pk
  attempts : ∀ a ∈ s.ledger.attempts.rows, ∃ r ∈ s.requests.rows, ∃ found, r.Decided found ∧
    a.scopeKey = r.callbackKey ∧ a.payloadFingerprint = fingerprint (validationResult r found)
  callbacks : ∀ d ∈ s.ledger.callbacks.rows, Scheduled d ∧ ∃ r, s.Carries d r

/-- What every transaction leaves to the others. -/
structure Grows (s t : PrepaymentStore) : Prop where
  requests : ∀ r ∈ s.requests.rows, r.status = .completed → r ∈ t.requests.rows
  attempts : ∀ a ∈ s.ledger.attempts.rows, a ∈ t.ledger.attempts.rows
  callbacks : ∀ d ∈ s.ledger.callbacks.rows, ∃ d' ∈ t.ledger.callbacks.rows,
    deliveryCore d' = deliveryCore d

theorem Grows.refl (s : PrepaymentStore) : s.Grows s :=
  ⟨fun _ h _ => h, fun _ h => h, fun d h => ⟨d, h, rfl⟩⟩

theorem Carries.mono {d d' : CallbackDelivery} (h : s.Carries d r) (hst : s.Grows t)
    (hd : deliveryCore d' = deliveryCore d) : t.Carries d' r := by
  simp only [deliveryCore, Prod.mk.injEq] at hd
  obtain ⟨-, hattempt, hurl, hpayload, hhash⟩ := hd
  obtain ⟨found, hdecided, hresult⟩ := h.result
  obtain ⟨a, ha, hda, hkey⟩ := h.attempt
  exact ⟨hst.requests r h.request hdecided.1, ⟨found, hdecided, hpayload.trans hresult⟩,
    hurl.trans h.url, by rw [hhash, hpayload, h.hash], a, hst.attempts a ha,
      hattempt.trans hda, hkey⟩

/-- A request and its callback attempt belong together. -/
theorem Sound.eq_of_callbackKey {r' : PrepaymentValidationRequest} (hs : s.Sound)
    (hr : r ∈ s.requests.rows) (hr' : r' ∈ s.requests.rows) (h : r.callbackKey = r'.callbackKey) :
    r = r' := by
  have hsame := requestId_of_callbackKey (s.requests.valid r hr) (s.requests.valid r' hr')
    (hs.requestIds r hr) (hs.requestIds r' hr') h
  exact Table.eq_of_clash (i := uniqueRequestId)
    (by simp [PrepaymentValidationRequest.schema]) hr hr'
    ⟨by simp [uniqueRequestId], congrArg some hsame⟩

/-- A transaction on the ledger that reports no verdict. -/
theorem Sound.of_ledger {l : Ledger} (hs : s.Sound)
    (haudits : ({ s with ledger := l } : PrepaymentStore).verdicts = s.verdicts)
    (hgrows : s.Grows { s with ledger := l })
    (hattempts : ∀ a ∈ l.attempts.rows, a ∈ s.ledger.attempts.rows ∨
      ∃ r ∈ s.requests.rows, ∃ found, r.Decided found ∧ a.scopeKey = r.callbackKey ∧
        a.payloadFingerprint = fingerprint (validationResult r found))
    (hcallbacks : ∀ d ∈ l.callbacks.rows, Scheduled d ∧
      ((∃ d' ∈ s.ledger.callbacks.rows, deliveryCore d = deliveryCore d') ∨
        ∃ r, ({ s with ledger := l } : PrepaymentStore).Carries d r)) :
    ({ s with ledger := l } : PrepaymentStore).Sound := by
  refine ⟨hs.requestIds, fun r hr => ?_, fun e he => ?_, fun a ha => ?_, fun d hd => ?_⟩
  · simpa only [verdictsOn, haudits] using hs.decided r hr
  · exact hs.known e (haudits ▸ he)
  · rcases hattempts a ha with hold | hnew
    · exact hs.attempts a hold
    · exact hnew
  · obtain ⟨hscheduled, ⟨d', hd', hcore⟩ | hnew⟩ := hcallbacks d hd
    · obtain ⟨-, r, hr⟩ := hs.callbacks d' hd'
      exact ⟨hscheduled, r, hr.mono hgrows hcore⟩
    · exact ⟨hscheduled, hnew⟩

end PrepaymentStore

open PrepaymentStore

/-! ## The transactions -/

variable {s t : PrepaymentStore} {r : PrepaymentValidationRequest}

/-- The store with the verdict on a request in it. -/
def PrepaymentStore.withVerdict (s : PrepaymentStore) (T : Table PrepaymentValidationRequest.schema)
    (r : PrepaymentValidationRequest) (found : Bool) : PrepaymentStore :=
  { s with
    requests := T
    ledger := { s.ledger with audits := s.ledger.audits ++ [r.completionEntry found] } }

theorem decideValidation_ok {pk : Uuid} {o : Option (PrepaymentValidationRequest × Json)}
    (h : decideValidation pk s = .ok (o, t)) :
    (o = none ∧ t = s) ∨ ∃ r found T, s.requests.get pk = some r ∧ r.status = .pending ∧
      s.requests.update pk (fun row => row.decided found) = .ok T ∧
      o = some (r.decided found, validationResult (r.decided found) found) ∧
      t = s.withVerdict T (r.decided found) found := by
  unfold decideValidation at h
  rw [bind_of_ok get_apply] at h
  cases hget : s.requests.get pk with
  | none =>
    simp only [hget] at h
    cases h
    exact .inl ⟨rfl, rfl⟩
  | some r =>
    simp only [hget] at h
    split at h
    · cases h
      exact .inl ⟨rfl, rfl⟩
    next hpending =>
      obtain ⟨_, s₁, hwrite, h₁⟩ := bind_ok.mp h
      obtain ⟨T, hupdate, rfl⟩ := write_ok.mp hwrite
      cases h₁
      exact .inr ⟨r, _, T, rfl, by simpa using hpending, hupdate, rfl, rfl⟩

theorem verdictsOn_withVerdict {T : Table PrepaymentValidationRequest.schema} {found : Bool}
    (pk : Uuid) : (s.withVerdict T r found).verdictsOn pk =
      s.verdictsOn pk ++ if r.pk = pk then [r.completionEntry found] else [] := by
  unfold verdictsOn verdicts withVerdict
  simp only [List.filter_append, completionEntry, decide_true, List.filter_cons_of_pos,
    List.filter_nil, List.filter_cons, toString_uuid_inj, decide_eq_true_eq]

/-- A verdict changes one pending request. -/
theorem PrepaymentStore.Sound.decide {pk : Uuid} {found : Bool}
    {T : Table PrepaymentValidationRequest.schema}
    (hs : s.Sound) (hget : s.requests.get pk = some r) (hpending : r.status = .pending)
    (hupdate : s.requests.update pk (fun row => row.decided found) = .ok T) :
    (s.withVerdict T (r.decided found) found).Sound ∧
      s.Grows (s.withVerdict T (r.decided found) found) ∧ r.decided found ∈ T.rows ∧
      ∀ x ∈ T.rows, x = r.decided found ∨ x ∈ s.requests.rows := by
  obtain ⟨hr, rfl⟩ := Table.get_eq_some.mp hget
  have hmem : ∀ x, x ∈ T.rows ↔ (x ∈ s.requests.rows ∧ x.pk ≠ r.pk) ∨ x = r.decided found :=
    fun x => Table.mem_update hupdate hget
  have hgrows : s.Grows (s.withVerdict T (r.decided found) found) := by
    refine ⟨fun x hx hcompleted => (hmem x).mpr (.inl ⟨hx, fun heq => ?_⟩), fun _ ha => ha,
      fun d hd => ⟨d, hd, rfl⟩⟩
    rw [Table.eq_of_pk hx hr heq, hpending] at hcompleted
    cases hcompleted
  have hnone : s.verdictsOn r.pk = [] := by
    rcases hs.decided r hr with ⟨-, hnone⟩ | ⟨_, ⟨hcompleted, -⟩, -⟩
    · exact hnone
    · rw [hpending] at hcompleted
      cases hcompleted
  refine ⟨⟨fun x hx => ?_, fun x hx => ?_, fun e he => ?_, fun a ha => ?_, fun d hd => ?_⟩, hgrows,
    (hmem _).mpr (.inr rfl), fun x hx => ?_⟩
  · rcases (hmem x).mp hx with ⟨hx, -⟩ | rfl
    · exact hs.requestIds x hx
    · exact hs.requestIds r hr
  · rw [verdictsOn_withVerdict]
    rcases (hmem x).mp hx with ⟨hx, hne⟩ | rfl
    · have hpk : (r.decided found).pk ≠ x.pk := Ne.symm hne
      rw [if_neg hpk, List.append_nil]
      exact hs.decided x hx
    · refine .inr ⟨found, ⟨rfl, rfl⟩, ?_⟩
      rw [if_pos rfl]
      exact congrArg (· ++ _) hnone
  · have hcases : e ∈ s.verdicts ∨ e = (r.decided found).completionEntry found := by
      simpa [verdicts, withVerdict, completionEntry] using he
    rcases hcases with he | rfl
    · obtain ⟨x, hx, hpk⟩ := hs.known e he
      by_cases hxr : x.pk = r.pk
      · exact ⟨r.decided found, (hmem _).mpr (.inr rfl), hpk.trans (congrArg toString hxr)⟩
      · exact ⟨x, (hmem x).mpr (.inl ⟨hx, hxr⟩), hpk⟩
    · exact ⟨r.decided found, (hmem _).mpr (.inr rfl), rfl⟩
  · obtain ⟨x, hx, b, hdecided, hkey⟩ := hs.attempts a ha
    exact ⟨x, hgrows.requests x hx hdecided.1, b, hdecided, hkey⟩
  · obtain ⟨hscheduled, x, hx⟩ := hs.callbacks d hd
    exact ⟨hscheduled, x, hx.mono hgrows rfl⟩
  · rcases (hmem x).mp hx with ⟨hx, -⟩ | rfl
    · exact .inr hx
    · exact .inl rfl

/-- The store after a transaction on the ledger. -/
def PrepaymentStore.withLedger (s : PrepaymentStore) (l : Ledger) : PrepaymentStore :=
  { s with ledger := l }

theorem commit_withLedger {α : Type} {x : Tx α} {a : α} {l : Ledger} (h : x s.ledger = .ok (a, l)) :
    commit (zoom ledgerPart x) s = (.ok a, s.withLedger l) :=
  commit_of_ok (zoom_ok.mpr ⟨l, h, rfl⟩)

/-- The attempt of a callback can always be had. -/
theorem PrepaymentStore.Sound.callbackAttempt {found : Bool} (hs : s.Sound)
    (hr : r ∈ s.requests.rows)
    (hdecided : r.Decided found) : ∃ a created l,
      callbackAttempt r (validationResult r found) s.ledger = .ok ((a, created), l) ∧
        (s.withLedger l).Sound ∧ s.Grows (s.withLedger l) ∧ a ∈ l.attempts.rows ∧
        a.scopeKey = r.callbackKey := by
  have hsource : r.sourceBbId.length ≤ 50 := by
    have hvalid := s.requests.valid r hr
    simp only [Schema.Valid, PrepaymentValidationRequest.schema, Check.width, List.forall_mem_cons,
      decide_eq_true_eq] at hvalid
    omega
  obtain ⟨⟨⟨a, created⟩, l⟩, h⟩ : Returns (Payments.callbackAttempt r (validationResult r found))
      s.ledger := by
    refine getOrCreateAttempt_returns ⟨by simp, by simp, hsource, by simp⟩ fun x hx hkey => ?_
    obtain ⟨r', hr', found', hdecided', hkey', hprint⟩ := hs.attempts x hx
    obtain rfl := hs.eq_of_callbackKey hr hr' (hkey.symm.trans hkey')
    obtain rfl : found = found' := Option.some.inj (hdecided.2.symm.trans hdecided'.2)
    exact hprint
  refine ⟨a, created, l, h, ?_⟩
  rcases getOrCreateAttempt_ok h with ⟨-, rfl, ha, hkey, -⟩ | ⟨-, hfresh, -, T, hinsert, rfl⟩
  · exact ⟨hs, .refl s, ha, hkey⟩
  · have hrows := (Table.insert_ok.mp hinsert).2
    have hgrows : s.Grows (s.withLedger { s.ledger with
        attempts := T, audits := s.ledger.audits ++ [createdEntry a] }) := by
      refine ⟨fun _ h _ => h, fun x hx => ?_, fun d hd => ⟨d, hd, rfl⟩⟩
      exact hrows ▸ List.mem_append_left _ hx
    have hkey : a.scopeKey = r.callbackKey := by
      rw [hfresh]
      rfl
    refine ⟨hs.of_ledger ?_ hgrows (fun x hx => ?_) fun d hd => ?_, hgrows, by simp [hrows], hkey⟩
    · simp [verdicts, createdEntry]
    · rcases List.mem_append.mp (hrows ▸ hx : x ∈ s.ledger.attempts.rows ++ [a]) with hx | hx
      · exact .inl hx
      · obtain rfl := List.mem_singleton.mp hx
        exact .inr ⟨r, hr, found, hdecided, hkey, by rw [hfresh]; rfl⟩
    · exact ⟨(hs.callbacks d hd).1, .inl ⟨d, hd, rfl⟩⟩

/-- Queueing puts the result into the outbox. -/
theorem PrepaymentStore.Sound.queueCallback {found : Bool} {a : PaymentAttempt} (hs : s.Sound)
    (hr : r ∈ s.requests.rows) (hdecided : r.Decided found) (ha : a ∈ s.ledger.attempts.rows)
    (hkey : a.scopeKey = r.callbackKey) (now : Instant) : ∃ d created l,
      queueCallback a r.callbackUrl (validationResult r found) now s.ledger =
        .ok ((d, created), l) ∧
        (s.withLedger l).Sound ∧ s.Grows (s.withLedger l) ∧ d ∈ l.callbacks.rows ∧
        (s.withLedger l).Carries d r := by
  obtain ⟨d, created, l, h, hcases⟩ :=
    queueCallback_ok a r.callbackUrl (validationResult r found) now s.ledger
  refine ⟨d, created, l, h, ?_⟩
  rcases hcases with ⟨-, rfl, hd, hattempt, hhash⟩ | ⟨-, hrow, T, hinsert, rfl⟩
  · obtain ⟨-, r', hcarries⟩ := hs.callbacks d hd
    obtain ⟨a', ha', hda', hkey'⟩ := hcarries.attempt
    obtain rfl : a' = a := Table.eq_of_pk ha' ha (hda'.symm.trans hattempt)
    obtain rfl := hs.eq_of_callbackKey hr hcarries.request (hkey.symm.trans hkey')
    exact ⟨hs, .refl s, hd, hcarries⟩
  · have hrows := (Table.insert_ok.mp hinsert).2
    have hgrows : s.Grows (s.withLedger { s.ledger with
        callbacks := T, audits := s.ledger.audits ++ [queuedEntry a d] }) := by
      refine ⟨fun _ h _ => h, fun _ h => h, fun x hx => ⟨x, ?_, rfl⟩⟩
      exact hrows ▸ List.mem_append_left _ hx
    have hurl : r.callbackUrl.length ≤ 500 := by
      have hvalid := s.requests.valid r hr
      simp only [Schema.Valid, PrepaymentValidationRequest.schema, Check.width,
        List.forall_mem_cons, decide_eq_true_eq] at hvalid
      omega
    have hcarries : (s.withLedger { s.ledger with
        callbacks := T, audits := s.ledger.audits ++ [queuedEntry a d] }).Carries d r := by
      rw [hrow]
      exact ⟨hr, ⟨found, hdecided, rfl⟩, clip_of_le hurl, rfl, a, ha, rfl, hkey⟩
    refine ⟨hs.of_ledger ?_ hgrows (fun x hx => .inl hx) fun x hx => ?_, hgrows, by simp [hrows],
      hcarries⟩
    · simp [verdicts, queuedEntry]
    · rcases List.mem_append.mp (hrows ▸ hx : x ∈ s.ledger.callbacks.rows ++ [d]) with hx | hx
      · exact ⟨(hs.callbacks x hx).1, .inl ⟨x, hx, rfl⟩⟩
      · obtain rfl := List.mem_singleton.mp hx
        refine ⟨fun _ => ⟨now, ?_⟩, .inr ⟨r, hcarries⟩⟩
        rw [hrow]
        exact ⟨rfl, by simp [isDue, queuedRow]⟩

theorem PrepaymentStore.Sound.recordCallbackResult (hs : s.Sound) (pk : Uuid) (status : Option ℕ)
    (code : String) (now : Instant) :
    ∃ o l, commit (zoom ledgerPart (recordCallbackResult pk status code now)) s =
      (o, s.withLedger l) ∧ (s.withLedger l).Sound ∧ s.Grows (s.withLedger l) := by
  cases hrecord : PaymentLifecycleService.recordCallbackResult pk status code now s.ledger with
  | error e => exact ⟨.error e, s.ledger, commit_of_error (zoom_error.mpr hrecord), hs, .refl s⟩
  | ok p =>
    obtain ⟨d, l'⟩ := p
    refine ⟨.ok d, l', commit_withLedger hrecord, ?_⟩
    rcases recordCallbackResult_ok hrecord with hsame |
      ⟨old, new, T, entry, hget, hcore, hscheduled, hupdate, hentry, hl⟩
    · rw [hsame]
      exact ⟨hs, .refl s⟩
    · rw [hl]
      obtain ⟨hold, hpk⟩ := Table.get_eq_some.mp hget
      have hmem : ∀ x, x ∈ T.rows ↔ (x ∈ s.ledger.callbacks.rows ∧ x.pk ≠ pk) ∨ x = new :=
        fun x => Table.mem_update hupdate hget
      have hgrows : s.Grows (s.withLedger { s.ledger with
          callbacks := T, audits := s.ledger.audits ++ [entry] }) := by
        refine ⟨fun _ h _ => h, fun _ h => h, fun x hx => ?_⟩
        by_cases hxpk : x.pk = pk
        · obtain rfl := Table.eq_of_pk hx hold (hxpk.trans hpk.symm)
          exact ⟨new, (hmem new).mpr (.inr rfl), hcore⟩
        · exact ⟨x, (hmem x).mpr (.inl ⟨hx, hxpk⟩), rfl⟩
      refine ⟨hs.of_ledger ?_ hgrows (fun x hx => .inl hx) fun x hx => ?_, hgrows⟩
      · simp [verdicts, hentry]
      · rcases (hmem x).mp hx with ⟨hx, -⟩ | rfl
        · exact ⟨(hs.callbacks x hx).1, .inl ⟨x, hx, rfl⟩⟩
        · exact ⟨hscheduled, .inl ⟨old, hold, hcore⟩⟩

/-- The entry for a received request. -/
def receivedEntry (r : PrepaymentValidationRequest) : AuditEntry where
  action := .validationRequested
  actorBbId := r.sourceBbId
  objectType := "validation"
  objectPk := toString r.pk
  requestId := r.requestId
  details := [("batch_id", .str r.batchId), ("source_bb_id", .str r.sourceBbId),
    ("instruction_id", .str r.instructionId)]

/-- The store with a new request in it. -/
def PrepaymentStore.withRequest (s : PrepaymentStore)
    (T : Table PrepaymentValidationRequest.schema) (r : PrepaymentValidationRequest) :
    PrepaymentStore :=
  { s with
    requests := T
    ledger := { s.ledger with audits := s.ledger.audits ++ [receivedEntry r] } }

theorem validatePrepayment_ok {c : PrepaymentCall} (h : validatePrepayment c s = .ok (r, t)) :
    r.requestId = c.requestId ∧ r.status = .pending ∧ r.pk = s.requests.next ∧
      ∃ T, s.requests.insert r = .ok T ∧ t = s.withRequest T r := by
  unfold validatePrepayment exceptIntegrityError at h
  split at h
  · cases h
  · obtain ⟨x, s₁, hcreate, h₁⟩ := bind_ok.mp h
    obtain ⟨hx, T, hinsert, rfl⟩ := create_ok.mp hcreate
    cases h₁
    subst hx
    exact ⟨rfl, rfl, rfl, T, hinsert, rfl⟩

/-- A new request waits for its verdict. -/
theorem PrepaymentStore.Sound.withRequest {T : Table PrepaymentValidationRequest.schema}
    (hs : s.Sound) (hid : isRequestId r.requestId = true) (hpending : r.status = .pending)
    (hpk : r.pk = s.requests.next) (hinsert : s.requests.insert r = .ok T) :
    (s.withRequest T r).Sound ∧ s.Grows (s.withRequest T r) ∧
      ∀ x ∈ T.rows, x = r ∨ x ∈ s.requests.rows := by
  have hrows : T.rows = s.requests.rows ++ [r] := (Table.insert_ok.mp hinsert).2
  have hmem : ∀ x, x ∈ T.rows ↔ x ∈ s.requests.rows ∨ x = r := by simp [hrows]
  have hverdicts : (s.withRequest T r).verdicts = s.verdicts := by
    simp [verdicts, PrepaymentStore.withRequest, receivedEntry]
  have hgrows : s.Grows (s.withRequest T r) :=
    ⟨fun x hx _ => (hmem x).mpr (.inl hx), fun _ ha => ha, fun d hd => ⟨d, hd, rfl⟩⟩
  refine ⟨⟨fun x hx => ?_, fun x hx => ?_, fun e he => ?_, fun a ha => ?_, fun d hd => ?_⟩, hgrows,
    fun x hx => ?_⟩
  · rcases (hmem x).mp hx with hx | rfl
    · exact hs.requestIds x hx
    · exact hid
  · simp only [verdictsOn, hverdicts]
    rcases (hmem x).mp hx with hx | rfl
    · exact hs.decided x hx
    · refine .inl ⟨hpending, List.filter_eq_nil_iff.mpr fun e he => ?_⟩
      obtain ⟨y, hy, hobject⟩ := hs.known e he
      have hlt : y.pk < s.requests.next := Table.lt_next hy
      simp only [decide_eq_true_eq, hobject, toString_uuid_inj, hpk]
      exact Nat.ne_of_lt hlt
  · obtain ⟨x, hx, hobject⟩ := hs.known e (hverdicts ▸ he)
    exact ⟨x, (hmem x).mpr (.inl hx), hobject⟩
  · obtain ⟨x, hx, hkey⟩ := hs.attempts a ha
    exact ⟨x, (hmem x).mpr (.inl hx), hkey⟩
  · obtain ⟨hscheduled, x, hx⟩ := hs.callbacks d hd
    exact ⟨hscheduled, x, hx.mono hgrows rfl⟩
  · exact ((hmem x).mp hx).symm

/-! ## Workers -/

/-- What a worker has learnt. -/
def PrepaymentStore.Knows (s : PrepaymentStore) : PrepaymentWorker → Prop
  | .attempting r payload => r ∈ s.requests.rows ∧ ∃ found, r.Decided found ∧
      payload = validationResult r found
  | .queueing r payload a => (r ∈ s.requests.rows ∧ ∃ found, r.Decided found ∧
      payload = validationResult r found) ∧ a ∈ s.ledger.attempts.rows ∧ a.scopeKey = r.callbackKey
  | _ => True

theorem PrepaymentStore.Knows.mono {p : PrepaymentWorker} (h : s.Knows p) (hst : s.Grows t) :
    t.Knows p := by
  cases p with
  | attempting r payload =>
    obtain ⟨hr, found, hdecided, hpayload⟩ := h
    exact ⟨hst.requests r hr hdecided.1, found, hdecided, hpayload⟩
  | queueing r payload a =>
    obtain ⟨⟨hr, found, hdecided, hpayload⟩, ha, hkey⟩ := h
    exact ⟨⟨hst.requests r hr hdecided.1, found, hdecided, hpayload⟩, hst.attempts a ha, hkey⟩
  | _ => trivial

/-- The request on which a worker has the verdict, until its callback is queued. -/
def PrepaymentWorker.verdict : PrepaymentWorker → Option Uuid
  | .attempting r _ => some r.pk
  | .queueing r _ _ => some r.pk
  | _ => none

/-- The request is decided, and its caller wants to know. -/
def PrepaymentStore.Due (s : PrepaymentStore) (pk : Uuid) : Prop :=
  ∃ r ∈ s.requests.rows, r.pk = pk ∧ r.status = .completed ∧ r.callbackUrl ≠ ""

/-- The result of the request is in the outbox. -/
def PrepaymentStore.Queued (s : PrepaymentStore) (pk : Uuid) : Prop :=
  ∃ d ∈ s.ledger.callbacks.rows, ∃ r, r.pk = pk ∧ s.Carries d r

theorem PrepaymentStore.Queued.mono {pk : Uuid} (h : s.Queued pk) (hst : s.Grows t) :
    t.Queued pk := by
  obtain ⟨d, hd, r, hpk, hcarries⟩ := h
  obtain ⟨d', hd', hcore⟩ := hst.callbacks d hd
  exact ⟨d', hd', r, hpk, hcarries.mono hst hcore⟩

/-- What one block of a worker does. -/
structure PrepaymentStep (s t : PrepaymentStore) (p q : PrepaymentWorker) : Prop where
  sound : t.Sound
  grows : s.Grows t
  knows : t.Knows q
  work : ∀ pk, t.Due pk → t.Queued pk ∨ q.verdict = some pk ∨ s.Due pk ∧ p.verdict ≠ some pk

theorem PrepaymentWorker.act_step {p q : PrepaymentWorker} {c : PrepaymentChoice} (hs : s.Sound)
    (hp : s.Knows p) (h : p.act s c = some (t, q)) : PrepaymentStep s t p q := by
  cases p with
  | task pk =>
    simp only [PrepaymentWorker.act] at h
    cases hdecide : decideValidation pk s with
    | error e =>
      rw [commit_of_error hdecide] at h
      cases h
      exact ⟨hs, .refl s, trivial, fun _ hdue => .inr (.inr ⟨hdue, nofun⟩)⟩
    | ok o =>
      rw [commit_of_ok (a := o.1) (t := o.2) hdecide] at h
      rcases decideValidation_ok (o := o.1) (t := o.2) hdecide with ⟨ho, ht⟩ |
        ⟨r, found, T, hget, hpending, hupdate, ho, ht⟩
      · simp only [ho, ht, Option.some.injEq, Prod.mk.injEq] at h
        obtain ⟨rfl, rfl⟩ := h
        exact ⟨hs, .refl s, trivial, fun _ hdue => .inr (.inr ⟨hdue, nofun⟩)⟩
      · simp only [ho, ht, Option.some.injEq, Prod.mk.injEq] at h
        obtain ⟨rfl, rfl⟩ := h
        obtain ⟨hsound, hgrows, hr, hothers⟩ := hs.decide hget hpending hupdate
        refine ⟨hsound, hgrows, ?_, ?_⟩
        · split
          · trivial
          · exact ⟨hr, found, ⟨rfl, rfl⟩, rfl⟩
        · rintro pk' ⟨x, hx, rfl, hcompleted, hurl⟩
          rcases hothers x hx with rfl | hx
          · rw [if_neg hurl]
            exact .inr (.inl rfl)
          · exact .inr (.inr ⟨⟨x, hx, rfl, hcompleted, hurl⟩, nofun⟩)
  | attempting r payload =>
    obtain ⟨hr, found, hdecided, rfl⟩ := hp
    obtain ⟨a, created, l, hattempt, hsound, hgrows, ha, hkey⟩ := hs.callbackAttempt hr hdecided
    simp only [PrepaymentWorker.act, commit_withLedger hattempt, Option.some.injEq,
      Prod.mk.injEq] at h
    obtain ⟨rfl, rfl⟩ := h
    refine ⟨hsound, hgrows, ⟨⟨hr, found, hdecided, rfl⟩, ha, hkey⟩, fun pk hdue => ?_⟩
    by_cases hpk : r.pk = pk
    · exact .inr (.inl (congrArg some hpk))
    · exact .inr (.inr ⟨hdue, fun hsame => hpk (Option.some.inj hsame)⟩)
  | queueing r payload a =>
    obtain ⟨⟨hr, found, hdecided, rfl⟩, ha, hkey⟩ := hp
    obtain ⟨d, created, l, hqueue, hsound, hgrows, hd, hcarries⟩ :=
      hs.queueCallback hr hdecided ha hkey c.now
    simp only [PrepaymentWorker.act, commit_withLedger hqueue, Option.some.injEq,
      Prod.mk.injEq] at h
    obtain ⟨rfl, rfl⟩ := h
    refine ⟨hsound, hgrows, trivial, fun pk hdue => ?_⟩
    by_cases hpk : r.pk = pk
    · exact .inl ⟨d, hd, r, hpk, hcarries⟩
    · exact .inr (.inr ⟨hdue, fun hsame => hpk (Option.some.inj hsame)⟩)
  | posting d =>
    obtain ⟨o, l, hcommit, hsound, hgrows⟩ :=
      hs.recordCallbackResult d c.post.httpStatus c.post.errorCode c.now
    simp only [PrepaymentWorker.act, hcommit] at h
    cases o <;> cases h <;>
      exact ⟨hsound, hgrows, trivial, fun _ hdue => .inr (.inr ⟨hdue, nofun⟩)⟩
  | replay =>
    cases h
    exact ⟨hs, .refl s, trivial, fun _ hdue => .inr (.inr ⟨hdue, nofun⟩)⟩
  | replaying due =>
    cases due with
    | nil =>
      cases h
      exact ⟨hs, .refl s, trivial, fun _ hdue => .inr (.inr ⟨hdue, nofun⟩)⟩
    | cons d due =>
      obtain ⟨o, l, hcommit, hsound, hgrows⟩ :=
        hs.recordCallbackResult d c.post.httpStatus c.post.errorCode c.now
      simp only [PrepaymentWorker.act, hcommit] at h
      cases o <;> cases h <;>
        exact ⟨hsound, hgrows, trivial, fun _ hdue => .inr (.inr ⟨hdue, nofun⟩)⟩
  | raised e => cases h
  | done => cases h
  | dead => cases h

/-- What a received request and a change of the registry do. -/
theorem PrepaymentEvent.apply_step {x : PrepaymentEvent} (hs : s.Sound)
    (h : PrepaymentEvent.apply s x = some t) :
    t.Sound ∧ s.Grows t ∧ ∀ pk, t.Due pk → s.Due pk := by
  cases x with
  | receive c =>
    simp only [PrepaymentEvent.apply, Option.some.injEq] at h
    split at h
    next hid =>
      cases hreceive : validatePrepayment c s with
      | error e =>
        rw [commit_of_error hreceive] at h
        subst h
        exact ⟨hs, .refl s, fun _ hdue => hdue⟩
      | ok p =>
        rw [commit_of_ok (a := p.1) (t := p.2) hreceive] at h
        obtain ⟨hrequest, hpending, hpk, T, hinsert, ht⟩ :=
          validatePrepayment_ok (r := p.1) (t := p.2) hreceive
        obtain ⟨hsound, hgrows, hothers⟩ := hs.withRequest (hrequest ▸ hid) hpending hpk hinsert
        obtain rfl : s.withRequest T p.1 = t := ht.symm.trans h
        refine ⟨hsound, hgrows, ?_⟩
        rintro pk ⟨r, hr, hrpk, hcompleted, hurl⟩
        rcases hothers r hr with rfl | hr
        · rw [hpending] at hcompleted
          cases hcompleted
        · exact ⟨r, hr, hrpk, hcompleted, hurl⟩
    next =>
      subst h
      exact ⟨hs, .refl s, fun _ hdue => hdue⟩
  | beneficiaries rows =>
    cases h
    exact ⟨⟨hs.requestIds, hs.decided, hs.known, hs.attempts, fun d hd =>
      ⟨(hs.callbacks d hd).1, (hs.callbacks d hd).2.imp fun r hr =>
        ⟨hr.request, hr.result, hr.url, hr.hash, hr.attempt⟩⟩⟩,
      ⟨fun _ h _ => h, fun _ h => h, fun d hd => ⟨d, hd, rfl⟩⟩, fun _ hdue => hdue⟩

/-! ## Runs -/

theorem PrepaymentStore.Sound.empty : ({} : PrepaymentStore).Sound :=
  ⟨fun _ h => absurd h List.not_mem_nil, fun _ h => absurd h List.not_mem_nil,
    fun _ h => absurd h List.not_mem_nil, fun _ h => absurd h List.not_mem_nil,
    fun _ h => absurd h List.not_mem_nil⟩

theorem prepayments_sound {s : Pool.State PrepaymentStore PrepaymentWorker}
    (h : prepayments.machine.Reachable s) :
    s.store.Sound ∧ ∀ p ∈ s.workers, s.store.Knows p := by
  refine Program.invariant (P := prepayments) (I := PrepaymentStore.Sound)
    (J := PrepaymentStore.Knows) ?_ ?_ (fun _ _ => trivial) ?_ ?_ h
  · intro db hdb
    subst hdb
    exact .empty
  · intro db p _ hp
    cases p with
    | task pk => trivial
    | replay => trivial
    | _ => cases hp
  · intro db p c db' q hdb hp hact
    have hstep := PrepaymentWorker.act_step hdb hp hact
    exact ⟨hstep.sound, hstep.knows, fun r hr => hr.mono hstep.grows⟩
  · intro db x db' hdb henv
    obtain ⟨hsound, hgrows, -⟩ := PrepaymentEvent.apply_step hdb henv
    exact ⟨hsound, fun r hr => hr.mono hgrows⟩

/-- Whatever happens, decided requests stay as they are. -/
theorem prepayments_grow {s t : Pool.State PrepaymentStore PrepaymentWorker}
    {l : Pool.Label PrepaymentWorker PrepaymentChoice PrepaymentEvent}
    (h : prepayments.machine.Reachable s) (hstep : prepayments.machine.step s l = some t) :
    s.store.Grows t.store := by
  obtain ⟨hsound, hknows⟩ := prepayments_sound h
  obtain ⟨p, -, -, rfl⟩ | ⟨i, c, p, st, q, -, hp, hact, rfl⟩ | ⟨i, -, rfl⟩ |
    ⟨x, st, -, henv, rfl⟩ := Program.step_cases hstep
  · exact .refl _
  · exact (PrepaymentWorker.act_step hsound (hknows p (List.mem_of_getElem? hp)) hact).grows
  · exact .refl _
  · exact (PrepaymentEvent.apply_step hsound henv).2.1

/-- No worker dies with a verdict whose callback is not queued. -/
def Undisturbed (s : Pool.State PrepaymentStore PrepaymentWorker) :
    Pool.Label PrepaymentWorker PrepaymentChoice PrepaymentEvent → Prop
  | .die i => s.workers[i]?.bind PrepaymentWorker.verdict = none
  | _ => True

instance (s : Pool.State PrepaymentStore PrepaymentWorker)
    (l : Pool.Label PrepaymentWorker PrepaymentChoice PrepaymentEvent) :
    Decidable (Undisturbed s l) := by
  unfold Undisturbed
  split <;> infer_instance

theorem queued_or_held {s : Pool.State PrepaymentStore PrepaymentWorker}
    (h : (prepayments.machine.under Undisturbed).Reachable s) {pk : Uuid} (hdue : s.store.Due pk) :
    s.store.Queued pk ∨ ∃ p ∈ s.workers, p.verdict = some pk := by
  refine Program.done_or_held (P := prepayments) (C := Undisturbed) PrepaymentStore.Due
    PrepaymentStore.Queued (fun p pk => p.verdict = some pk) ?_ ?_ ?_ ?_ h hdue
  · rintro db pk hdb ⟨r, hr, -⟩
    rw [show db = {} from hdb] at hr
    exact absurd hr List.not_mem_nil
  · intro s i p c db q hs _ hp hact
    obtain ⟨hsound, hknows⟩ := prepayments_sound hs.of_under
    have hstep := PrepaymentWorker.act_step hsound (hknows p (List.mem_of_getElem? hp)) hact
    exact ⟨fun pk hq => hq.mono hstep.grows, hstep.work⟩
  · intro s x db hs henv pk
    obtain ⟨-, hgrows, hdue⟩ := PrepaymentEvent.apply_step (prepayments_sound hs.of_under).1 henv
    exact ⟨fun hq => hq.mono hgrows, fun hd => .inl (hdue pk hd)⟩
  · intro s i p pk hc hp hheld
    simp only [Undisturbed, hp, Option.bind_some, hheld] at hc
    cases hc

/-- Every request is decided at most once, with one entry; a result that nobody is working on is
in the outbox, where the replay sweep finds it until it is delivered or given up. -/
structure NotLost (s : Pool.State PrepaymentStore PrepaymentWorker) : Prop where
  decided : ∀ r ∈ s.store.requests.rows, (r.status = .pending ∧ s.store.verdictsOn r.pk = []) ∨
    ∃ found, r.Decided found ∧ s.store.verdictsOn r.pk = [r.completionEntry found]
  queued : ∀ r ∈ s.store.requests.rows, r.status = .completed → r.callbackUrl ≠ "" →
    (∀ p ∈ s.workers, p.verdict ≠ some r.pk) → ∃ d ∈ s.store.ledger.callbacks.rows,
      (∃ found, r.Decided found ∧ d.payload = validationResult r found) ∧
        d.callbackUrl = r.callbackUrl ∧
        (d.status.isClosed = false → ∃ now, d ∈ dueCallbacks s.store.ledger now)

/-- In a run in which no worker dies between the verdict and the outbox row, no result is lost,
and a verdict is final. -/
theorem no_result_lost {s : Pool.State PrepaymentStore PrepaymentWorker}
    (h : (prepayments.machine.under Undisturbed).Reachable s) :
    NotLost s ∧ ∀ t, prepayments.machine.Later s t → ∀ r ∈ s.store.requests.rows,
      r.status = .completed → r ∈ t.store.requests.rows := by
  have hreachable : prepayments.machine.Reachable s := h.of_under
  obtain ⟨hsound, -⟩ := prepayments_sound hreachable
  refine ⟨⟨hsound.decided, fun r hr hcompleted hurl hidle => ?_⟩,
    fun t hlater r hr hcompleted => ?_⟩
  · rcases queued_or_held h ⟨r, hr, rfl, hcompleted, hurl⟩ with ⟨d, hd, x, hpk, hcarries⟩ |
      ⟨p, hp, hheld⟩
    · obtain rfl := Table.eq_of_pk hcarries.request hr hpk
      refine ⟨d, hd, hcarries.result, hcarries.url, fun hopen => ?_⟩
      obtain ⟨now, -, hdue⟩ := (hsound.callbacks d hd).1 hopen
      exact ⟨now, mem_dueCallbacks.mpr ⟨hd, hdue⟩⟩
    · exact absurd hheld (hidle p hp)
  · refine hlater.induct (I := fun t => r ∈ t.store.requests.rows) hr fun u l v hu hmem hstep => ?_
    exact (prepayments_grow (hreachable.later hu) hstep).requests r hmem hcompleted

/-- A request that is to be answered. -/
def answered : PrepaymentCall where
  requestId := "req-00000001"
  sourceBbId := "BB"
  batchId := "b"
  instructionId := "i"
  payeeFunctionalId := "p"
  amount := 100
  currency := "CAD"
  narration := "n"
  callbackUrl := "https://bb"

/-- Two deliveries of one message; the endpoint is down, and a replay sweep delivers. -/
def replayed : Pool.State PrepaymentStore PrepaymentWorker :=
  (prepayments.machine.under Undisturbed).final ⟨{}, []⟩ [
    .env (.receive answered), .spawn (.task 1), .spawn (.task 1), .act 0 ⟨0, .failed ""⟩,
    .act 1 ⟨0, .failed ""⟩, .act 0 ⟨0, .failed ""⟩, .act 0 ⟨0, .failed ""⟩,
    .act 0 ⟨0, .failed "Timeout"⟩, .spawn .replay, .act 2 ⟨minutes 2, .failed ""⟩,
    .act 2 ⟨minutes 2, .accepted 200⟩]

theorem no_result_lost_replayed :
    (replayed.store.ledger.callbacks.rows.map (·.status)) = [.delivered] ∧ NotLost replayed := by
  have hreachable : (prepayments.machine.under Undisturbed).Reachable replayed :=
    Machine.Reachable.final (M := prepayments.machine.under Undisturbed)
      (s := ⟨{}, []⟩) ⟨rfl, rfl⟩ _
  exact ⟨by decide +kernel, (no_result_lost hreachable).1⟩

/-- The worker dies after the verdict; the message is delivered again. -/
def redelivered : Pool.State PrepaymentStore PrepaymentWorker :=
  prepayments.machine.final ⟨{}, []⟩ [.env (.receive answered), .spawn (.task 1),
    .act 0 ⟨0, .failed ""⟩, .die 0, .spawn (.task 1), .act 1 ⟨0, .failed ""⟩]

/-- The result is lost: the second delivery finds a decided request and ends. -/
theorem result_lost : prepayments.machine.Reachable redelivered ∧
    redelivered.workers = [.dead, .done] ∧ redelivered.store.ledger.callbacks.rows = [] ∧
    ¬ NotLost redelivered := by
  have hempty : redelivered.store.ledger.callbacks.rows = [] := by decide +kernel
  refine ⟨Machine.Reachable.final (M := prepayments.machine) (s := ⟨{}, []⟩) ⟨rfl, rfl⟩ _,
    by decide +kernel, hempty, fun hkept => ?_⟩
  obtain ⟨r, hr, hcompleted, hurl, hidle⟩ : ∃ r ∈ redelivered.store.requests.rows,
      r.status = .completed ∧ r.callbackUrl ≠ "" ∧
        ∀ p ∈ redelivered.workers, p.verdict ≠ some r.pk :=
    by decide +kernel
  obtain ⟨d, hd, -⟩ := hkept.queued r hr hcompleted hurl hidle
  rw [hempty] at hd
  exact absurd hd List.not_mem_nil

end Civicos.Payments
