import Civicos.Library.Budget
import Civicos.Library.Machine
import Civicos.Payments.Attempts

/-!
# The retry ledger of callbacks

Reports on a delivery are counted until one is a success or the budget is used up, in the order in
which their transactions commit. Reports that come later, from tasks that run twice, leave the row
as it is.
-/
namespace Civicos.Payments

open Library Library.Transaction PaymentLifecycleService

/-! ## Rows as attempts on a budget -/

def CallbackStatus.phase : CallbackStatus → Phase
  | pending => .pending
  | delivered => .succeeded
  | retry => .pending
  | dead => .exhausted

def CallbackDelivery.attempts (d : CallbackDelivery) : Attempts := ⟨d.deliveryCount, d.status.phase⟩

/-- `200 <= http_status < 300` -/
def isSuccess (httpStatus : Option ℕ) : Bool := httpStatus.any fun n => 200 ≤ n ∧ n < 300

/-- The wait after a failure that is not the last -/
def backoff (deliveryCount : ℕ) : Instant := minutes (min 60 (Nat.pow 2 (min deliveryCount 6)))

namespace CallbackDelivery

variable {d : CallbackDelivery} {httpStatus : Option ℕ} {errorCode : String} {now : Instant}

theorem callbackProgress_eq (n : ℕ) : callbackProgress n httpStatus now =
    if isSuccess httpStatus then (.delivered, none, .callbackDelivered)
    else if maxCallbackAttempts ≤ n then (.dead, none, .callbackDeadLettered)
    else (.retry, some (now + backoff n), .paymentRetryScheduled) := rfl

theorem phase_eq_pending : d.status.phase = .pending ↔ d.status.isClosed = false := by
  cases d.status <;> decide

theorem attempts_recorded (hopen : d.status.isClosed = false) :
    (recorded d httpStatus errorCode now).attempts =
      d.attempts.record maxCallbackAttempts (isSuccess httpStatus) := by
  have hphase : d.attempts.phase = .pending := phase_eq_pending.mpr hopen
  unfold Attempts.record
  rw [hphase]
  simp only [attempts, recorded, callbackProgress_eq]
  cases isSuccess httpStatus with
  | true => rfl
  | false =>
    simp only [Bool.false_eq_true, if_false]
    by_cases hlast : maxCallbackAttempts ≤ d.deliveryCount + 1
    · simp only [if_pos hlast]
      exact (if_pos hlast).symm
    · simp only [if_neg hlast]
      exact (if_neg hlast).symm

theorem status_recorded_ne : (recorded d httpStatus errorCode now).status ≠ .pending := by
  simp only [recorded, callbackProgress_eq]
  split
  · simp
  · split
    · simp
    · simp

theorem phase_eq_succeeded : d.attempts.phase = .succeeded ↔ d.status = .delivered := by
  simp only [attempts]
  cases d.status <;> decide

theorem phase_eq_exhausted : d.attempts.phase = .exhausted ↔ d.status = .dead := by
  simp only [attempts]
  cases d.status <;> decide

/-- What a result does to an open row -/
structure Advanced (d e : CallbackDelivery) (httpStatus : Option ℕ) (now : Instant) : Prop where
  count : e.deliveryCount = d.deliveryCount + 1
  success : isSuccess httpStatus = true → e.status = .delivered ∧ e.nextAttemptAt = none
  last : isSuccess httpStatus = false → maxCallbackAttempts ≤ e.deliveryCount →
    e.status = .dead ∧ e.nextAttemptAt = none
  retry : isSuccess httpStatus = false → e.deliveryCount < maxCallbackAttempts →
    e.status = .retry ∧ ∃ next, e.nextAttemptAt = some next ∧
      next = now + backoff e.deliveryCount ∧ now < next

theorem backoff_pos (n : ℕ) : 0 < backoff n := by
  have hpow : 0 < Nat.pow 2 (min n 6) := Nat.pow_pos (by decide)
  exact Nat.mul_pos (Nat.lt_min.mpr ⟨by decide, hpow⟩) (by decide)

theorem advanced_recorded : d.Advanced (recorded d httpStatus errorCode now) httpStatus now where
  count := rfl
  success hsuccess := by simp [recorded, callbackProgress_eq, hsuccess]
  last hfailure hlast := by
    have hlast' : maxCallbackAttempts ≤ d.deliveryCount + 1 := hlast
    simp [recorded, callbackProgress_eq, hfailure, hlast']
  retry hfailure hleft := by
    have hleft' : ¬ maxCallbackAttempts ≤ d.deliveryCount + 1 := Nat.not_le.mpr hleft
    refine ⟨by simp [recorded, callbackProgress_eq, hfailure, hleft'], now + backoff _, ?_, rfl, ?_⟩
    · simp [recorded, callbackProgress_eq, hfailure, hleft']
    · exact Nat.lt_add_of_pos_right (backoff_pos _)

theorem valid_recorded (h : schema.Valid d) :
    schema.Valid (recorded d httpStatus errorCode now) := by
  simp only [Schema.Valid, schema, Check.width, List.forall_mem_cons, List.not_mem_nil,
    false_imp_iff, implies_true, and_true, decide_eq_true_eq] at h ⊢
  exact ⟨h.1, length_clip_le _ _⟩

end CallbackDelivery

/-! ## Steps -/

/-- A callback is queued, a result is recorded, or another transaction writes attempts, of which
none is ever deleted. -/
inductive CallbackStep where
  | queue (attempt : Uuid) (callbackUrl : String) (payload : Json) (now : Instant)
  | report (delivery : Uuid) (httpStatus : Option ℕ) (errorCode : String) (now : Instant)
  | attempts (rows : Table PaymentAttempt.schema)

def queueFor (attempt : Uuid) (callbackUrl : String) (payload : Json) (now : Instant) :
    Tx (CallbackDelivery × Bool) := do
  queueCallback (← PaymentAttempt.getLocked attempt) callbackUrl payload now

/-- No callback is queued at first. -/
def callbackLedger : Machine Ledger CallbackStep where
  Init l := l.callbacks.rows = []
  step l
    | .queue attempt callbackUrl payload now =>
      some (commit (queueFor attempt callbackUrl payload now) l).2
    | .report delivery httpStatus errorCode now =>
      some (commit (recordCallbackResult delivery httpStatus errorCode now) l).2
    | .attempts rows =>
      if ∀ a ∈ l.attempts.rows, (rows.get a.pk).isSome then some { l with attempts := rows }
      else none

/-- The results that are reported on a delivery -/
def reportsOn (pk : Uuid) (steps : List CallbackStep) : List Bool :=
  steps.flatMap fun
    | .report delivery httpStatus _ _ => if delivery = pk then [isSuccess httpStatus] else []
    | _ => []

/-- A delivery belongs to an attempt, and it is pending only before its first result. -/
structure Ledger.Orderly (l : Ledger) : Prop where
  attempt : ∀ d ∈ l.callbacks.rows, (l.attempts.get d.attempt).isSome
  fresh : ∀ d ∈ l.callbacks.rows, d.status = .pending → d.deliveryCount = 0

namespace Ledger

variable {l l' : Ledger} {pk attempt : Uuid} {d d' : CallbackDelivery} {a : PaymentAttempt}
  {httpStatus : Option ℕ} {errorCode callbackUrl : String} {payload : Json} {now : Instant}
  {step : CallbackStep} {steps : List CallbackStep}

/-- What recording a result does to the ledger. -/
inductive Reported (l : Ledger) (pk : Uuid) (httpStatus : Option ℕ) (errorCode : String)
    (now : Instant) : Ledger → Prop where
  | missing (hnone : l.callbacks.get pk = none) : Reported l pk httpStatus errorCode now l
  | closed {d : CallbackDelivery} (hd : l.callbacks.get pk = some d)
      (hclosed : d.status.isClosed = true) : Reported l pk httpStatus errorCode now l
  | counted {d : CallbackDelivery} {T : Table CallbackDelivery.schema} {entries : List AuditEntry}
      (hd : l.callbacks.get pk = some d) (hopen : d.status.isClosed = false)
      (hupdate : l.callbacks.update pk (fun _ => recorded d httpStatus errorCode now) = .ok T) :
      Reported l pk httpStatus errorCode now
        { l with callbacks := T, audits := l.audits ++ entries }

theorem Orderly.reported (hl : l.Orderly) : Reported l pk httpStatus errorCode now
    (commit (recordCallbackResult pk httpStatus errorCode now) l).2 := by
  cases hd : l.callbacks.get pk with
  | none =>
    have herror : recordCallbackResult pk httpStatus errorCode now l =
        .error (.doesNotExist "CallbackDelivery") := by
        unfold recordCallbackResult
        refine bind_of_error ?_
        unfold lookup
        rw [show Ledger.callbackTable.get l = l.callbacks from rfl, hd]
    rw [commit_of_error herror]
    exact .missing hd
  | some d =>
    obtain ⟨hrow, -⟩ := Table.get_eq_some.mp hd
    obtain ⟨a, ha⟩ := Option.isSome_iff_exists.mp (hl.attempt d hrow)
    have hlookup : lookup Ledger.callbackTable (PaymentError.doesNotExist "CallbackDelivery") pk l =
      .ok (d, l) := lookup_ok.mpr ⟨hd, rfl⟩
    have hattempt : PaymentAttempt.getLocked d.attempt l = .ok (a, l) := lookup_ok.mpr ⟨ha, rfl⟩
    cases hclosed : d.status.isClosed with
    | true =>
      have hok : recordCallbackResult pk httpStatus errorCode now l = .ok (d, l) := by
        unfold recordCallbackResult
        rw [bind_of_ok hlookup, bind_of_ok hattempt, if_pos hclosed]
        rfl
      rw [commit_of_ok hok]
      exact .closed hd hclosed
    | false =>
      obtain ⟨T, hT⟩ : ∃ T, l.callbacks.update pk
          (fun _ => recorded d httpStatus errorCode now) = .ok T :=
        Table.update_returns hd (CallbackDelivery.valid_recorded (l.callbacks.valid d hrow)) rfl
          fun i hi => by
            obtain rfl := List.mem_singleton.mp hi
            rfl
      have hwrite : write Ledger.callbackTable PaymentError.ofViolation pk
          (fun _ => recorded d httpStatus errorCode now) l = .ok ((), { l with callbacks := T }) :=
        write_ok.mpr ⟨T, hT, rfl⟩
      have hok : ∃ entry, recordCallbackResult pk httpStatus errorCode now l =
          .ok (recorded d httpStatus errorCode now,
            { l with callbacks := T, audits := l.audits ++ [entry] }) := by
        unfold recordCallbackResult
        rw [bind_of_ok hlookup, bind_of_ok hattempt, if_neg (by simp [hclosed])]
        exact ⟨_, bind_of_ok hwrite⟩
      obtain ⟨entry, hok⟩ := hok
      rw [commit_of_ok hok]
      exact .counted hd hclosed hT

/-- What a step does to the callbacks. -/
inductive Stepped (l : Ledger) : CallbackStep → Ledger → Prop where
  | queued {attempt : Uuid} {callbackUrl : String} {payload : Json} {now : Instant}
      {d : CallbackDelivery} {T : Table CallbackDelivery.schema} {entries : List AuditEntry}
      (hinsert : l.callbacks.insert d = .ok T) (hattempt : (l.attempts.get d.attempt).isSome)
      (hstatus : d.status = .pending) (hcount : d.deliveryCount = 0) :
      Stepped l (.queue attempt callbackUrl payload now)
        { l with callbacks := T, audits := l.audits ++ entries }
  | unqueued {attempt : Uuid} {callbackUrl : String} {payload : Json} {now : Instant} :
      Stepped l (.queue attempt callbackUrl payload now) l
  | reported {pk : Uuid} {httpStatus : Option ℕ} {errorCode : String} {now : Instant} {l' : Ledger}
      (h : Reported l pk httpStatus errorCode now l') :
      Stepped l (.report pk httpStatus errorCode now) l'
  | attempts {rows : Table PaymentAttempt.schema}
      (hrows : ∀ a ∈ l.attempts.rows, (rows.get a.pk).isSome) :
      Stepped l (.attempts rows) { l with attempts := rows }

theorem Orderly.stepped (hl : l.Orderly) (h : callbackLedger.step l step = some l') :
    l.Stepped step l' := by
  cases step with
  | queue attempt callbackUrl payload now =>
    obtain rfl := Option.some.inj h
    cases ha : l.attempts.get attempt with
    | none =>
      have herror : queueFor attempt callbackUrl payload now l =
          .error (PaymentError.doesNotExist "PaymentAttempt") := by
        refine bind_of_error ?_
        unfold PaymentAttempt.getLocked lookup
        rw [show Ledger.attemptTable.get l = l.attempts from rfl, ha]
      rw [commit_of_error herror]
      exact .unqueued
    | some a =>
      obtain ⟨d, created, l', hqueue, hcases⟩ := queueCallback_ok a callbackUrl payload now l
      have hattempt : PaymentAttempt.getLocked attempt l = .ok (a, l) := lookup_ok.mpr ⟨ha, rfl⟩
      have hok : queueFor attempt callbackUrl payload now l = .ok ((d, created), l') :=
        (bind_of_ok hattempt).trans hqueue
      rw [commit_of_ok hok]
      obtain ⟨-, rfl, -⟩ | ⟨-, rfl, T, hinsert, rfl⟩ := hcases
      · exact .unqueued
      · refine .queued hinsert ?_ rfl rfl
        have hpk := Table.pk_of_get ha
        simp only [queuedRow]
        rw [show a.pk = attempt from hpk, ha]
        rfl
  | report pk httpStatus errorCode now =>
    cases h
    exact .reported hl.reported
  | attempts rows =>
    obtain ⟨hrows, h⟩ := Option.ite_none_right_eq_some.mp h
    cases h
    exact .attempts hrows

theorem Stepped.orderly (h : l.Stepped step l') (hl : l.Orderly) : l'.Orderly := by
  cases h with
  | @queued attempt callbackUrl payload now d T entries hinsert hattempt hstatus hcount =>
    have hrows := (Table.insert_ok.mp hinsert).2
    constructor
    · intro x hx
      rw [hrows] at hx
      rcases List.mem_append.mp hx with hx | hx
      · exact hl.attempt x hx
      · exact List.mem_singleton.mp hx ▸ hattempt
    · intro x hx hpending
      rw [hrows] at hx
      rcases List.mem_append.mp hx with hx | hx
      · exact hl.fresh x hx hpending
      · exact List.mem_singleton.mp hx ▸ hcount
  | unqueued => exact hl
  | reported hreported =>
    cases hreported with
    | missing => exact hl
    | closed => exact hl
    | @counted d T entries hd hopen hupdate =>
      have hold := (Table.get_eq_some.mp hd).1
      constructor
      · intro x hx
        rcases (Table.mem_update hupdate hd).mp hx with ⟨hx, -⟩ | rfl
        · exact hl.attempt x hx
        · exact hl.attempt d hold
      · intro x hx hpending
        rcases (Table.mem_update hupdate hd).mp hx with ⟨hx, -⟩ | rfl
        · exact hl.fresh x hx hpending
        · exact absurd hpending CallbackDelivery.status_recorded_ne
  | attempts hrows =>
    refine ⟨fun d hd => ?_, hl.fresh⟩
    obtain ⟨a, ha⟩ := Option.isSome_iff_exists.mp (hl.attempt d hd)
    obtain ⟨hmem, hpk⟩ := Table.get_eq_some.mp ha
    have hkept := hrows a hmem
    rwa [show a.pk = d.attempt from hpk] at hkept

theorem orderly_of_reachable (h : callbackLedger.Reachable l) : l.Orderly := by
  refine h.invariant (fun l₀ h₀ => ?_) fun l step l' _ hl hstep => (hl.stepped hstep).orderly hl
  have hnone : l₀.callbacks.rows = [] := h₀
  exact ⟨by simp [hnone], by simp [hnone]⟩

/-- A row counts the results that a step reports on it. -/
theorem Stepped.row (h : l.Stepped step l') (hd : l.callbacks.get pk = some d) :
    ∃ d', l'.callbacks.get pk = some d' ∧ (d.status.isClosed = true → d' = d) ∧
      d'.attempts =
        (reportsOn pk [step]).foldl (Attempts.record maxCallbackAttempts) d.attempts := by
  cases h with
  | queued hinsert => exact ⟨d, Table.get_of_insert hinsert hd, fun _ => rfl, rfl⟩
  | unqueued => exact ⟨d, hd, fun _ => rfl, rfl⟩
  | @reported k httpStatus errorCode now l' hreported =>
    by_cases hk : k = pk
    · subst hk
      cases hreported with
      | missing hnone =>
        rw [hnone] at hd
        cases hd
      | @closed x hx hclosed =>
        obtain rfl := Option.some.inj (hx.symm.trans hd)
        refine ⟨x, hd, fun _ => rfl, ?_⟩
        have hphase : x.attempts.phase ≠ .pending := fun hpending => by
          rw [CallbackDelivery.phase_eq_pending.mp hpending] at hclosed
          cases hclosed
        simp [reportsOn, Attempts.record_of_closed hphase]
      | @counted x T entries hx hopen hupdate =>
        obtain rfl := Option.some.inj (hx.symm.trans hd)
        have hpk : x.pk = k := Table.pk_of_get hd
        refine ⟨recorded x httpStatus errorCode now, ?_, fun hclosed => ?_, ?_⟩
        · exact (Table.get_update hupdate hd hpk k).trans (if_pos rfl)
        · rw [hopen] at hclosed
          cases hclosed
        · simp [reportsOn, CallbackDelivery.attempts_recorded hopen]
    · have hsame : l'.callbacks.get pk = some d := by
        cases hreported with
        | missing => exact hd
        | closed => exact hd
        | @counted x T entries hx hopen hupdate =>
          have hpk : x.pk = k := Table.pk_of_get hx
          exact (Table.get_update hupdate hx hpk pk).trans ((if_neg hk).trans hd)
      exact ⟨d, hsame, fun _ => rfl, by simp [reportsOn, hk]⟩
  | attempts => exact ⟨d, hd, fun _ => rfl, rfl⟩

theorem run_row (h : callbackLedger.Reachable l) (hrun : callbackLedger.run l steps = some l')
    (hd : l.callbacks.get pk = some d) :
    ∃ d', l'.callbacks.get pk = some d' ∧ (d.status.isClosed = true → d' = d) ∧
      d'.attempts =
        (reportsOn pk steps).foldl (Attempts.record maxCallbackAttempts) d.attempts := by
  induction steps generalizing l d with
  | nil =>
    cases hrun
    exact ⟨d, hd, fun _ => rfl, rfl⟩
  | cons step steps ih =>
    obtain ⟨u, hstep, hrun⟩ := Option.bind_eq_some_iff.mp hrun
    obtain ⟨x, hx, hclosed, hcounted⟩ := ((orderly_of_reachable h).stepped hstep).row hd
    obtain ⟨d', hd', hclosed', hcounted'⟩ := ih (h.step hstep) hrun hx
    refine ⟨d', hd', fun hend => ?_, ?_⟩
    · obtain rfl := hclosed hend
      exact hclosed' hend
    · rw [hcounted', hcounted, ← List.foldl_append]
      simp [reportsOn]

end Ledger

/-! ## The ledger -/

/-- A delivery has at most as many counted results as its budget. It is delivered when one of the
first is a success, dead when as many as the budget are failures, and then keeps its row. The next
attempt is scheduled by a failure that is not the last, and lies behind it by the backoff. -/
theorem retry_ledger {l l' : Ledger} {steps : List CallbackStep} {pk : Uuid} {d : CallbackDelivery}
    (h : callbackLedger.Reachable l) (hrun : callbackLedger.run l steps = some l')
    (hd : l.callbacks.get pk = some d) :
    ∃ d', l'.callbacks.get pk = some d' ∧
      (d.status.isClosed = true → d' = d) ∧
      (d.status = .pending → d'.deliveryCount ≤ maxCallbackAttempts ∧
        (d'.status = .delivered ↔ true ∈ (reportsOn pk steps).take maxCallbackAttempts) ∧
        (d'.status = .dead ↔ maxCallbackAttempts ≤ (reportsOn pk steps).length ∧
          true ∉ (reportsOn pk steps).take maxCallbackAttempts)) ∧
      ∀ httpStatus errorCode now, d'.status.isClosed = false →
        ∃ e, (commit (recordCallbackResult pk httpStatus errorCode now) l').2.callbacks.get pk =
          some e ∧ d'.Advanced e httpStatus now := by
  obtain ⟨d', hd', hclosed, hcounted⟩ := Ledger.run_row h hrun hd
  refine ⟨d', hd', hclosed, fun hpending => ?_, fun httpStatus errorCode now hopen => ?_⟩
  · have hrow := (Table.get_eq_some.mp hd).1
    have hfresh : d.attempts = {} := by
      have hcount := (Ledger.orderly_of_reachable h).fresh d hrow hpending
      simp [CallbackDelivery.attempts, hcount, hpending, CallbackStatus.phase]
    rw [hfresh] at hcounted
    have hbudget : 0 < maxCallbackAttempts := by decide
    have htold := Attempts.told hbudget (reportsOn pk steps)
    rw [← hcounted] at htold
    refine ⟨htold.count_le, ?_, ?_⟩
    · rw [← htold.succeeded_iff, CallbackDelivery.phase_eq_succeeded]
    · rw [← htold.exhausted_iff, CallbackDelivery.phase_eq_exhausted]
  · have hreachable := h.later ⟨steps, hrun⟩
    have hreported : Ledger.Reported l' pk httpStatus errorCode now _ :=
      (Ledger.orderly_of_reachable hreachable).reported
    revert hreported
    generalize (commit (recordCallbackResult pk httpStatus errorCode now) l').2 = m
    intro hreported
    cases hreported with
    | missing hnone =>
      rw [hnone] at hd'
      cases hd'
    | closed hx hend =>
      obtain rfl := Option.some.inj (hx.symm.trans hd')
      rw [hopen] at hend
      cases hend
    | counted hx _ hupdate =>
      obtain rfl := Option.some.inj (hx.symm.trans hd')
      refine ⟨recorded _ httpStatus errorCode now, ?_, CallbackDelivery.advanced_recorded⟩
      have hpk := Table.pk_of_get hd'
      exact (Table.get_update hupdate hd' hpk pk).trans (if_pos rfl)

/-! ## Five failures -/

private def attemptedLedger : Ledger where
  attempts := ⟨[.fresh ("", "g2p_bulk_callback", "callback:1:1") [] {} 1], by decide, by decide⟩

private def queueOne : List CallbackStep := [.queue 1 "https://source.example/callback" [] 0]

private def failFive : List CallbackStep :=
  (List.range 5).map fun n => .report 1 none "http_500" (n + 1)

/-- The fifth failure is the last. -/
theorem five_failures : ∃ d,
    (callbackLedger.final (callbackLedger.final attemptedLedger queueOne)
        failFive).callbacks.get 1 =
      some d ∧ d.status = .dead := by
  have hrow : ∃ d, (callbackLedger.final attemptedLedger queueOne).callbacks.get 1 = some d ∧
      d.status = .pending := by decide
  obtain ⟨d, hd, hpending⟩ := hrow
  have hrun : callbackLedger.run (callbackLedger.final attemptedLedger queueOne) failFive =
      some (callbackLedger.final (callbackLedger.final attemptedLedger queueOne) failFive) :=
    Machine.run_final (by decide)
  obtain ⟨d', hd', -, hcounted, -⟩ := retry_ledger (Machine.Reachable.final rfl queueOne) hrun hd
  exact ⟨d', hd', (hcounted hpending).2.2.mpr (by decide)⟩

end Civicos.Payments
