import Civicos.Payments.Changes
import Civicos.Library.Pool

/-!
# The runtime as a system of workers

Any number of workers execute the runtime entry points and the triage tasks on one ledger,
interleaved with the transactions of every other writer. A worker is the block it executes
next; clock readings, claim tokens and adapter replies are choices of the schedule.
-/
namespace Civicos.Payments

open Library Library.Transaction

structure World where
  ledger : Ledger
  /-- Every adapter invocation so far. -/
  contacts : List ProviderCall := []

/-- `orchestrated` workers handle `ProviderUnavailable`. -/
inductive Worker where
  | execute (pk : Uuid) (orchestrated : Bool)
  | statusFirst (pk : Uuid) (orchestrated : Bool)
  | submitOrPoll (pk : Uuid) (orchestrated : Bool)
  | contact (call : ProviderCall)
  | finalize (call : ProviderCall) (result : ProviderResult)
  | unavailable (pk : Uuid)
  | triageUncertain
  | triageReconcile (queue : List PaymentAttempt)
  | triageAudit (attempt : PaymentAttempt) (reconciliation : PaymentReconciliation)
      (queue : List PaymentAttempt)
  | triageReview (attempt : PaymentAttempt) (queue : List PaymentAttempt)
  | triageRetryable
  | triageConfigure (queue : List PaymentAttempt)
  | done

structure Choice where
  now : Instant
  token : String
  reply : Reply

namespace Worker

/-- The task entry points. -/
def isEntry : Worker → Bool
  | execute .. | statusFirst .. | submitOrPoll .. | unavailable .. => true
  | triageUncertain | triageRetryable => true
  | _ => false

def unresolvedReview : PaymentOutcome where
  status := .review
  code := "UNCERTAIN_OUTCOME_REQUIRES_REVIEW"
  category := "reconciliation"
  message := "Provider outcome is unresolved; manual reconciliation is required."

def unconfiguredReview : PaymentOutcome where
  status := .review
  code := "RETRY_ADAPTER_UNCONFIGURED"
  category := "configuration"
  message := "Retry requires a configured provider adapter."

/-- `RecoverPaymentAttemptCommand.execute` reads the attempt without a lock. -/
def dispatch (l : Ledger) (pk : Uuid) (orchestrated : Bool) : Worker :=
  match l.attempt pk with
  | none => done
  | some a =>
    if a.isTerminal ∨ a.status = .review then done
    else if a.status = .uncertain then statusFirst pk orchestrated
    else submitOrPoll pk orchestrated

def afterStatusFirst (pk : Uuid) (orchestrated : Bool) :
    Except PaymentError (Option ProviderResult) → Worker
  | .ok none => submitOrPoll pk orchestrated
  | _ => done

def afterAdmission (pk : Uuid) (orchestrated : Bool) : Except PaymentError Admission → Worker
  | .ok (.contact call) => contact call
  | .error (.providerUnavailable _) => if orchestrated then unavailable pk else done
  | _ => done

def afterReply (call : ProviderCall) : Except PaymentError ProviderResult → Worker
  | .ok result => finalize call result
  | .error _ => done

/-- Go on when the block returned; an exception ends the task. -/
def andThen {α : Type} (next : α → Worker) : Except PaymentError α → Worker
  | .ok a => next a
  | .error _ => done

/-- Commit one transaction and choose the continuation from its answer. -/
def run {α : Type} (x : Tx α) (next : Except PaymentError α → Worker) (w : World) :
    World × Worker :=
  ({ w with ledger := (commit x w.ledger).2 }, next (commit x w.ledger).1)

def act (w : World) (p : Worker) (c : Choice) : Option (World × Worker) :=
  match p with
  | execute pk orchestrated => some (w, dispatch w.ledger pk orchestrated)
  | statusFirst pk orchestrated =>
    some (run (ProviderRuntime.statusFirstRecovery pk) (afterStatusFirst pk orchestrated) w)
  | submitOrPoll pk orchestrated =>
    some (run (ProviderRuntime.submitOrPoll pk c.token c.now) (afterAdmission pk orchestrated) w)
  | contact call =>
    some ({ w with contacts := w.contacts ++ [call] },
      afterReply call (ProviderRuntime.received call c.reply))
  | finalize call result =>
    some (run (ProviderRuntime.finalizeClaimedResult call.attempt call.token call.generation
      result c.now) (fun _ => done) w)
  | unavailable pk => some (run (ProviderRuntime.unavailable pk c.now) (fun _ => done) w)
  | triageUncertain =>
    some (w, triageReconcile (PaymentLifecycleService.dueUncertain w.ledger c.now))
  | triageReconcile [] => some (w, done)
  | triageReconcile (a :: queue) =>
    some (run (PaymentLifecycleService.reconcileRow a .unknown)
      (andThen fun r => triageAudit a r queue) w)
  | triageAudit a r queue =>
    some (run (PaymentLifecycleService.reconcileAudit a r)
      (andThen fun _ => triageReview a queue) w)
  | triageReview a queue =>
    some (run (PaymentLifecycleService.applyOutcome a.pk unresolvedReview c.now)
      (andThen fun _ => triageReconcile queue) w)
  | triageRetryable =>
    some (w, triageConfigure (PaymentLifecycleService.dueRetries w.ledger c.now))
  | triageConfigure [] => some (w, done)
  | triageConfigure (a :: queue) =>
    some (run (PaymentLifecycleService.applyOutcome a.pk unconfiguredReview c.now)
      (andThen fun _ => triageConfigure queue) w)
  | done => none

end Worker

/-- The transactions of the other writers of the ledger. -/
inductive Writer where
  | getOrCreateAttempt (tenantId operation requestId : String) (payload : Json)
      (defaults : PaymentAttempt.Defaults) (auditCreated : Bool)
  | reserveAttempt (tenantId callerBbId operation requestIdentity : String) (payload : Json)
      (command : Uuid)
  | reserveIntent (attempt : Uuid) (scope operation requestIdentity : String) (payload : Json)
  | recordProviderCorrelation (intent : Uuid) (correlation : String)
  | recordObservation (attempt : Uuid) (e : PaymentLifecycleService.Evidence) (now : Instant)
  | recordProviderResult (attempt : Uuid) (result : ProviderResult) (source : String)
      (now : Instant)
  | reconcile (attempt : PaymentAttempt) (providerStatus : Report) (sourceBbStatus : String)
  | applyOutcome (attempt : Uuid) (outcome : PaymentOutcome) (now : Instant)
  | queueCallback (attempt : Uuid) (url : String) (payload : Json) (now : Instant)
  | configure (registrations : List ProviderRegistration)
deriving DecidableEq

namespace Writer

open PaymentLifecycleService

def transaction : Writer → Tx Unit
  | getOrCreateAttempt tenantId operation requestId payload defaults auditCreated => do
    let _ ← PaymentLifecycleService.getOrCreateAttempt tenantId operation requestId payload
      defaults auditCreated
  | reserveAttempt tenantId callerBbId operation requestIdentity payload command => do
    let _ ← PaymentCommandService.reserveAttempt tenantId callerBbId operation requestIdentity
      payload command
  | reserveIntent attempt scope operation requestIdentity payload => do
    let attempt ← PaymentAttempt.getLocked attempt
    let _ ← PaymentExecutionIntent.reserve attempt scope operation requestIdentity payload
  | recordProviderCorrelation intent correlation =>
    PaymentExecutionIntent.recordProviderCorrelation intent correlation
  | recordObservation attempt e now => do
    let attempt ← PaymentAttempt.getLocked attempt
    let _ ← PaymentLifecycleService.recordObservation attempt e now
  | recordProviderResult attempt result source now => do
    let attempt ← PaymentAttempt.getLocked attempt
    let _ ← PaymentLifecycleService.recordProviderResult attempt result now source
  | reconcile attempt providerStatus sourceBbStatus => do
    let _ ← PaymentLifecycleService.reconcile attempt providerStatus sourceBbStatus
  | applyOutcome attempt outcome now => do
    let _ ← PaymentLifecycleService.applyOutcome attempt outcome now
  | queueCallback attempt url payload now => do
    let attempt ← PaymentAttempt.getLocked attempt
    let _ ← PaymentLifecycleService.queueCallback attempt url payload now
  | configure registrations => modify fun l => { l with registrations }

end Writer

def runtime : Program World Worker Choice Writer where
  Init w := w.ledger.attempts = .empty ∧ w.ledger.intents = .empty ∧
    w.ledger.observations = .empty ∧ w.contacts = []
  entry := Worker.isEntry
  halted := .done
  act := Worker.act
  env w x := some { w with ledger := (commit x.transaction w.ledger).2 }

/-! ## What the steps of the system do to the ledger -/

open Ledger

variable {L : AttemptStatus → Prop} {w w' : World} {p q : Worker} {c : Choice} {x : Writer}

namespace Worker

/-- No block of a worker sets a terminal status without evidence. -/
theorem act_evolves (hL : ∀ s : AttemptStatus, s.isTerminal = false → L s)
    (h : act w p c = some (w', q)) : Evolves L w.ledger w'.ledger := by
  cases p with
  | execute | contact | triageUncertain | triageRetryable => cases h; exact .refl
  | statusFirst pk o =>
    cases h
    exact (ProviderRuntime.statusFirstRecovery_evolves hL).commit w.ledger
  | submitOrPoll pk o => cases h; exact ProviderRuntime.submitOrPoll_evolves.commit w.ledger
  | finalize call result =>
    cases h
    exact (ProviderRuntime.finalizeClaimedResult_evolves hL result).commit w.ledger
  | unavailable pk => cases h; exact (ProviderRuntime.unavailable_evolves hL).commit w.ledger
  | triageReconcile queue =>
    cases queue with
    | nil => cases h; exact .refl
    | cons a queue =>
      cases h
      exact (PaymentLifecycleService.reconcileRow_evolves _ _).commit w.ledger
  | triageAudit a r queue =>
    cases h
    exact (PaymentLifecycleService.audit_evolves _ _).commit w.ledger
  | triageReview a queue =>
    cases h
    exact (PaymentLifecycleService.applyOutcome_evolves (hL _ rfl)).commit w.ledger
  | triageConfigure queue =>
    cases queue with
    | nil => cases h; exact .refl
    | cons a queue =>
      cases h
      exact (PaymentLifecycleService.applyOutcome_evolves (hL _ rfl)).commit w.ledger
  | done => cases h

end Worker

namespace Writer

/-- The statuses that a writer asks for on its own account. -/
def Asks (L : AttemptStatus → Prop) : Writer → Prop
  | applyOutcome _ outcome _ => L outcome.status.toStatus
  | _ => True

theorem transaction_evolves (hL : ∀ s : AttemptStatus, s.isTerminal = false → L s)
    (hx : x.Asks L) : Within (Evolves L) x.transaction := by
  cases x with
  | getOrCreateAttempt =>
    exact .bind (PaymentLifecycleService.getOrCreateAttempt_evolves _ _ _ _ _ _) fun _ => .pure _
  | reserveAttempt =>
    exact .bind (PaymentCommandService.reserveAttempt_evolves _ _ _ _ _ _) fun _ => .pure _
  | reserveIntent =>
    exact .bind (PaymentLifecycleService.getLocked_evolves _) fun _ =>
      .bind (PaymentExecutionIntent.reserve_evolves _ _ _ _ _) fun _ => .pure _
  | recordProviderCorrelation => exact PaymentExecutionIntent.recordProviderCorrelation_evolves _ _
  | recordObservation pk e now =>
    intro l u l' h
    obtain ⟨a, _, hlock, h₁⟩ := bind_ok.mp h
    obtain ⟨hget, rfl⟩ := PaymentAttempt.getLocked_ok.mp hlock
    obtain ⟨o, l₁, hobs, h₂⟩ := bind_ok.mp h₁
    cases h₂
    obtain rfl := PaymentAttempt.pk_of_attempt hget
    exact PaymentLifecycleService.recordObservation_evolves hget hobs
  | recordProviderResult pk result source now =>
    intro l u l' h
    obtain ⟨a, _, hlock, h₁⟩ := bind_ok.mp h
    obtain ⟨hget, rfl⟩ := PaymentAttempt.getLocked_ok.mp hlock
    obtain ⟨o, l₁, hrec, h₂⟩ := bind_ok.mp h₁
    cases h₂
    obtain rfl := PaymentAttempt.pk_of_attempt hget
    exact PaymentLifecycleService.recordProviderResult_evolves hL hget hrec
  | reconcile =>
    exact .bind (PaymentLifecycleService.reconcile_evolves _ _) fun _ => .pure _
  | applyOutcome =>
    exact .bind (PaymentLifecycleService.applyOutcome_evolves hx) fun _ => .pure _
  | queueCallback =>
    exact .bind (PaymentLifecycleService.getLocked_evolves _) fun _ =>
      .bind (PaymentLifecycleService.queueCallback_evolves _ _) fun _ => .pure _
  | configure =>
    rintro l u l' ⟨⟩
    exact .single (.quiet rfl rfl rfl)

theorem env_evolves (hL : ∀ s : AttemptStatus, s.isTerminal = false → L s) (hx : x.Asks L)
    (h : runtime.env w x = some w') :
    Evolves L w.ledger w'.ledger ∧ w'.contacts = w.contacts := by
  cases h
  exact ⟨(transaction_evolves hL hx).commit w.ledger, rfl⟩

end Writer

instance [DecidablePred L] : Decidable (x.Asks L) := by
  cases x <;> simp only [Writer.Asks] <;> infer_instance

/-- The writers of a step ask for statuses in `L` only. -/
def asks (L : AttemptStatus → Prop) (_ : Pool.State World Worker) :
    Pool.Label Worker Choice Writer → Prop
  | .env x => x.Asks L
  | _ => True

instance [DecidablePred L] (s : Pool.State World Worker) (label : Pool.Label Worker Choice Writer) :
    Decidable (asks L s label) := by
  cases label <;> simp only [asks] <;> infer_instance

theorem step_evolves (hL : ∀ s : AttemptStatus, s.isTerminal = false → L s)
    {s t : Pool.State World Worker} {label : Pool.Label Worker Choice Writer}
    (hasks : asks L s label) (h : runtime.machine.step s label = some t) :
    Evolves L s.store.ledger t.store.ledger := by
  obtain ⟨p, -, -, rfl⟩ | ⟨i, e, p, st, q, -, -, hact, rfl⟩ | ⟨i, -, rfl⟩ |
    ⟨x, st, rfl, henv, rfl⟩ := Program.step_cases h
  · exact .refl
  · exact Worker.act_evolves hL hact
  · exact .refl
  · exact (Writer.env_evolves hL hasks henv).1

theorem asks_any (s : Pool.State World Worker) (label : Pool.Label Worker Choice Writer) :
    asks (fun _ => True) s label := by
  cases label with
  | env x => cases x <;> trivial
  | _ => trivial

/-- Whatever the schedule, the ledger evolves by changes. -/
theorem later_evolves {s t : Pool.State World Worker} (h : runtime.machine.Later s t) :
    Evolves (fun _ => True) s.store.ledger t.store.ledger :=
  h.induct (I := fun t => Evolves (fun _ => True) s.store.ledger t.store.ledger) .refl
    fun u label _ _ ih hstep => ih.trans
      (step_evolves (fun _ _ => trivial) (asks_any u label) hstep)

end Civicos.Payments
