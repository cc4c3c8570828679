import Civicos.Scheduler.Materialization

/-!
# Deliveries refine the local machine

The repository-local machine of one recipient delivery works without a database, and every
transition says whether it has been made. A delivery row is mapped to this machine. A call that
takes effect on a row is one step of it, and a call that is refused leaves the row as it is.
-/
namespace Civicos.Scheduler.Local

open Payments (Uuid Digest clip)
open Appointments (Instant)

structure RecipientDelivery where
  correlationId : String
  idempotencyKey : Digest String
  recipientRef : String
  maxAttempts : ℕ := 3
  status : DeliveryStatus := .pending
  attempts : ℕ := 0
  nextAttemptAt : Instant := 0
  lastError : Option String := none
  leaseToken : Option Uuid := none
  acknowledgedAt : Option Instant := none
  history : List (String × DeliveryStatus) := []

namespace RecipientDelivery

variable {d d' : RecipientDelivery}

/-- The new status, noted in the history. -/
def enter (d : RecipientDelivery) (event : String) (status : DeliveryStatus) : RecipientDelivery :=
  { d with status, history := d.history ++ [(event, status)] }

def claim (leaseToken : Uuid) (now : Instant) (d : RecipientDelivery) : Bool × RecipientDelivery :=
  if d.status.isTerminal ∨ now < d.nextAttemptAt then (false, d)
  else
    (true, { d with leaseToken := some leaseToken, attempts := d.attempts + 1 }.enter
      "claim" .inFlight)

def succeed (leaseToken : Uuid) (d : RecipientDelivery) : Bool × RecipientDelivery :=
  if d.status ≠ .inFlight ∨ d.leaseToken ≠ some leaseToken then (false, d)
  else (true, { d with leaseToken := none, lastError := none }.enter "success" .delivered)

def fail (leaseToken : Uuid) (error : String) (now : Instant) (backoff : ℕ → Instant)
    (d : RecipientDelivery) : Bool × RecipientDelivery :=
  if d.status ≠ .inFlight ∨ d.leaseToken ≠ some leaseToken then (false, d)
  else
    let d := { d with leaseToken := none, lastError := some (clip 240 error) }
    if d.maxAttempts ≤ d.attempts then (true, d.enter "failure" .deadLetter)
    else
      (true, { d with nextAttemptAt := now + max 0 (backoff d.attempts) }.enter "failure" .retry)

def cancel (d : RecipientDelivery) : Bool × RecipientDelivery :=
  if d.status.isTerminal then (d.status = .cancelled, d)
  else (true, { d with leaseToken := none }.enter "cancel" .cancelled)

def acknowledge (now : Instant) (d : RecipientDelivery) : Bool × RecipientDelivery :=
  if d.status ≠ .delivered then (false, d)
  else (true, { d with acknowledgedAt := some now }.enter "ack" .acknowledged)

def replay (d : RecipientDelivery) : Bool × RecipientDelivery :=
  if d.status ≠ .deadLetter then (false, d)
  else (true, { d with nextAttemptAt := 0, lastError := none }.enter "replay" .retry)

end RecipientDelivery

/-- The calls of the machine. -/
inductive Call where
  | claim (leaseToken : Uuid) (now : Instant)
  | succeed (leaseToken : Uuid)
  | fail (leaseToken : Uuid) (error : String) (now : Instant) (backoff : ℕ → Instant)
  | cancel
  | acknowledge (now : Instant)
  | replay

def Call.run : Call → RecipientDelivery → Bool × RecipientDelivery
  | claim leaseToken now => RecipientDelivery.claim leaseToken now
  | succeed leaseToken => RecipientDelivery.succeed leaseToken
  | fail leaseToken error now backoff => RecipientDelivery.fail leaseToken error now backoff
  | cancel => RecipientDelivery.cancel
  | acknowledge now => RecipientDelivery.acknowledge now
  | replay => RecipientDelivery.replay

/-- The same delivery in the same state; times, errors and the history are left out. -/
structure RecipientDelivery.Agrees (d d' : RecipientDelivery) : Prop where
  idempotencyKey : d.idempotencyKey = d'.idempotencyKey
  correlationId : d.correlationId = d'.correlationId
  recipientRef : d.recipientRef = d'.recipientRef
  maxAttempts : d.maxAttempts = d'.maxAttempts
  status : d.status = d'.status
  attempts : d.attempts = d'.attempts
  leaseToken : d.leaseToken = d'.leaseToken

end Civicos.Scheduler.Local

namespace Civicos.Scheduler

open Library Library.Transaction
open Payments (Uuid Json Digest clip)
open Appointments (Instant)

variable {σ τ : State} {s t : Store} {d d' row : RecipientDelivery} {now : Instant} {k : ℕ}
  {key : Digest String} {token : Uuid} {op : Operation} {ops : List Operation} {v : Unit}

namespace RecipientDelivery

/-- The delivery of the local machine that a row stands for. -/
def toLocal (d : RecipientDelivery) : Local.RecipientDelivery where
  correlationId := d.correlationId
  idempotencyKey := d.idempotencyKey
  recipientRef := d.recipient.ref
  maxAttempts := d.maxAttempts
  status := d.status
  attempts := d.attempts
  nextAttemptAt := d.nextAttemptAt.getD 0
  lastError := if d.lastError = "" then none else some d.lastError
  leaseToken := d.leaseToken
  acknowledgedAt := d.acknowledgedAt

/-- Whether `claim` takes the row. -/
def available (now : Instant) (d : RecipientDelivery) : Bool :=
  ¬ (d.status.isTerminal ∨ d.nextAttemptAt.any (now < ·) ∨ d.leaseExpiresAt.any (now < ·))

/-- The state of a row whose schedule is fenced. -/
def cancelled (now : Instant) (d : RecipientDelivery) : RecipientDelivery :=
  d.withState fun d => { d.toDeliveryState with
    status := .cancelled
    cancelledAt := some now
    leaseToken := none
    leaseExpiresAt := none }

/-- `fail`'s pause after an attempt. -/
def pause (attempts : ℕ) : Instant := seconds (min 3600 (2 ^ min attempts 10))

end RecipientDelivery

namespace Operation

/-- The call of the local machine that an operation makes on a row, if it takes effect there: the
reaper fails an attempt by the row's own token, and without a pause. -/
def call (d : RecipientDelivery) : Operation → Option Local.Call
  | claim key _ now token =>
    if d.idempotencyKey = key ∧ d.available now then some (.claim token now) else none
  | succeed key leaseToken =>
    if d.idempotencyKey = key ∧ d.heldBy leaseToken then some (.succeed leaseToken) else none
  | fail key leaseToken errorClass now =>
    if d.idempotencyKey = key ∧ d.heldBy leaseToken then
      some (.fail leaseToken errorClass now RecipientDelivery.pause)
    else none
  | acknowledge key now =>
    if d.idempotencyKey = key ∧ d.status = .delivered then some (.acknowledge now) else none
  | replay key _ =>
    if d.idempotencyKey = key ∧ d.status = .deadLetter then some .replay else none
  | reapExpired now =>
    if d.expired now then some (.fail (d.leaseToken.getD 0) d.lastError now fun _ => 0) else none
  | _ => none

/-- What an operation makes of a row on which it takes effect. -/
def written (d : RecipientDelivery) : Operation → DeliveryState
  | claim _ leaseSeconds now token => { d.toDeliveryState with
      status := .inFlight
      attempts := d.attempts + 1
      leaseToken := some token
      leaseExpiresAt := some (now + seconds leaseSeconds) }
  | succeed _ _ => { d.toDeliveryState with
      status := .delivered
      leaseToken := none
      leaseExpiresAt := none
      lastError := "" }
  | fail _ _ errorClass now =>
    { d.failed now (now + RecipientDelivery.pause d.attempts) with
      lastError := clip 240 errorClass }
  | acknowledge _ now => { d.toDeliveryState with
      status := .acknowledged
      acknowledgedAt := some now }
  | replay _ now => { d.toDeliveryState with
      status := .retry
      nextAttemptAt := some now
      lastError := ""
      deadLetteredAt := none }
  | reapExpired now => d.failed now now
  | _ => d.toDeliveryState

/-- The calls on deliveries. -/
def isDeliveryCall : Operation → Bool
  | claim .. | succeed .. | fail .. | acknowledge .. | replay .. | reapExpired .. => true
  | _ => false

/-- A call's answer: whether it has taken effect. -/
def answer : Operation → Tx Bool
  | claim key leaseSeconds now token => do
    let claimed ← Scheduler.claim key leaseSeconds now token
    return claimed.isSome
  | succeed key leaseToken => Scheduler.succeed key leaseToken
  | fail key leaseToken errorClass now => Scheduler.fail key leaseToken errorClass now
  | acknowledge key now => Scheduler.acknowledge key now
  | replay key now => Scheduler.replay key now
  | reapExpired now => do
    let count ← Scheduler.reapExpired now
    return count ≠ 0
  | op => do
    op.perform
    return false

end Operation

/-! ## One step of the local machine -/

namespace RecipientDelivery

/-- A row in flight has a lease, and a row that has not ended has a time of its next attempt. -/
structure Sound (d : RecipientDelivery) : Prop where
  held : d.status = .inFlight → d.leaseToken.isSome = true
  due : d.status.isTerminal = false → d.nextAttemptAt.isSome = true

theorem heldBy_iff : d.heldBy token = true ↔ d.status = .inFlight ∧ d.leaseToken = some token := by
  simp [heldBy]

theorem available_iff : d.available now = true ↔ d.status.isTerminal = false ∧
    d.nextAttemptAt.any (now < ·) = false ∧ d.leaseExpiresAt.any (now < ·) = false := by
  simp [available]

theorem expired_iff : d.expired now = true ↔
    d.status = .inFlight ∧ d.leaseExpiresAt.any (· < now) = true := by
  simp [expired]

end RecipientDelivery

open RecipientDelivery (heldBy_iff available_iff expired_iff)

/-- The row after an attempt that has not delivered. -/
def RecipientDelivery.ended (now retryAt : Instant) (error : String) (d : RecipientDelivery) :
    RecipientDelivery :=
  d.withState fun d => { d.failed now retryAt with lastError := error }

theorem fail_written {errorClass : String} :
    d.withState (Operation.fail key token errorClass now).written =
      d.ended now (now + RecipientDelivery.pause d.attempts) (clip 240 errorClass) := by
  simp only [RecipientDelivery.ended, RecipientDelivery.withState, Operation.written]

theorem reap_written :
    d.withState (Operation.reapExpired now).written = d.ended now now d.lastError := by
  simp only [RecipientDelivery.ended, RecipientDelivery.withState, RecipientDelivery.failed,
    Operation.written]
  split <;> rfl

/-- Ending an attempt is the local machine's `fail`. -/
theorem ended_agrees {error error' : String} {pause : ℕ → Instant} {retryAt : Instant}
    (hflight : d.status = .inFlight) (hlease : d.leaseToken = some token) :
    ∃ p, (Local.Call.fail token error now pause).run d.toLocal = (true, p) ∧
      p.Agrees (d.ended now retryAt error').toLocal := by
  have hheld : ¬ (d.toLocal.status ≠ .inFlight ∨ d.toLocal.leaseToken ≠ some token) := by
    simp [RecipientDelivery.toLocal, hflight, hlease]
  simp only [Local.Call.run, Local.RecipientDelivery.fail, if_neg hheld]
  by_cases hspent : d.maxAttempts ≤ d.attempts
  · refine ⟨_, if_pos hspent, ?_⟩
    constructor <;> simp [Local.RecipientDelivery.enter, RecipientDelivery.toLocal,
      RecipientDelivery.ended, RecipientDelivery.withState, RecipientDelivery.failed, hspent]
  · refine ⟨_, if_neg hspent, ?_⟩
    constructor <;> simp [Local.RecipientDelivery.enter, RecipientDelivery.toLocal,
      RecipientDelivery.ended, RecipientDelivery.withState, RecipientDelivery.failed, hspent]

theorem cancelled_agrees (hlive : d.status.isTerminal = false) :
    ∃ p, Local.Call.cancel.run d.toLocal = (true, p) ∧ p.Agrees (d.cancelled now).toLocal := by
  have hopen : ¬ d.toLocal.status.isTerminal = true := by
    simp [RecipientDelivery.toLocal, hlive]
  refine ⟨_, if_neg hopen, ?_⟩
  constructor <;> rfl

/-- A call that takes effect is one step of the local machine. -/
theorem call_agrees {call : Local.Call} (hd : d.Sound) (h : op.call d = some call) :
    ∃ p, call.run d.toLocal = (true, p) ∧ p.Agrees (d.withState op.written).toLocal := by
  cases op with
  | claim key leaseSeconds now token =>
    obtain ⟨⟨-, havailable⟩, ⟨⟩⟩ := Option.ite_none_right_eq_some.mp h
    obtain ⟨hlive, hdue, -⟩ := available_iff.mp havailable
    obtain ⟨t, ht⟩ := Option.isSome_iff_exists.mp (hd.due hlive)
    have hopen : ¬ (d.toLocal.status.isTerminal = true ∨ now < d.toLocal.nextAttemptAt) := by
      simp only [ht, Option.any_some, decide_eq_false_iff_not] at hdue
      simp [RecipientDelivery.toLocal, hlive, ht, Int.not_lt.mp hdue]
    refine ⟨_, if_neg hopen, ?_⟩
    constructor <;> rfl
  | succeed key leaseToken =>
    obtain ⟨⟨-, hheld⟩, ⟨⟩⟩ := Option.ite_none_right_eq_some.mp h
    obtain ⟨hflight, hlease⟩ := heldBy_iff.mp hheld
    have hheld : ¬ (d.toLocal.status ≠ .inFlight ∨ d.toLocal.leaseToken ≠ some leaseToken) := by
      simp [RecipientDelivery.toLocal, hflight, hlease]
    refine ⟨_, if_neg hheld, ?_⟩
    constructor <;> rfl
  | fail key leaseToken errorClass now =>
    obtain ⟨⟨-, hheld⟩, ⟨⟩⟩ := Option.ite_none_right_eq_some.mp h
    obtain ⟨hflight, hlease⟩ := heldBy_iff.mp hheld
    rw [fail_written]
    exact ended_agrees hflight hlease
  | acknowledge key now =>
    obtain ⟨⟨-, hdelivered⟩, ⟨⟩⟩ := Option.ite_none_right_eq_some.mp h
    refine ⟨_, if_neg (not_not.mpr hdelivered), ?_⟩
    constructor <;> rfl
  | replay key now =>
    obtain ⟨⟨-, hdead⟩, ⟨⟩⟩ := Option.ite_none_right_eq_some.mp h
    refine ⟨_, if_neg (not_not.mpr hdead), ?_⟩
    constructor <;> rfl
  | reapExpired now =>
    obtain ⟨hexpired, ⟨⟩⟩ := Option.ite_none_right_eq_some.mp h
    have hflight := (expired_iff.mp hexpired).1
    obtain ⟨token, hlease⟩ := Option.isSome_iff_exists.mp (hd.held hflight)
    rw [reap_written, hlease]
    exact ended_agrees hflight hlease
  | _ => cases h

/-! ## What a call does -/

theorem row_of_key (hd : d ∈ s.deliveries.rows) (hrow : row ∈ s.deliveries.rows) :
    d.pk = row.pk ↔ d.idempotencyKey = row.idempotencyKey := by
  constructor
  · intro h
    rw [show d = row from Table.eq_of_pk hd hrow h]
  · intro h
    have hclash : RecipientDelivery.uniqueKey.Clash d row :=
      ⟨Option.some_ne_none _, congrArg some h⟩
    rw [Table.eq_of_clash (by simp [RecipientDelivery.schema]) hd hrow hclash]

/-- The store after a call on deliveries. -/
def Store.called (s : Store) (op : Operation) : Store :=
  { s with
    deliveries := s.deliveries.rewrite (fun d => (op.call d).isSome) (.withState op.written)
      (RecipientDelivery.preserves op.written) }

theorem called_eq_self (h : ∀ d ∈ s.deliveries.rows, op.call d = none) : s.called op = s := by
  unfold Store.called
  rw [Numbered.rewrite_of_none fun d hd => by rw [h d hd]; rfl]

/-- Updating the row that a key has found is the call on the whole table. -/
theorem called_eq_update {f : RecipientDelivery → DeliveryState} (hrow : row ∈ s.deliveries.rows)
    (hcall : ∀ d ∈ s.deliveries.rows, (op.call d).isSome = true ↔ d.pk = row.pk)
    (hf : f row = op.written row) :
      updateDeliveries (·.pk = row.pk) f s = .ok ((), s.called op) := by
  unfold updateDeliveries Store.called
  rw [modify_apply]
  congr 3
  refine Numbered.rewrite_congr (fun d hd => ?_) fun d hd hsome => ?_
  · rw [Bool.eq_iff_iff, decide_eq_true_eq]
    exact (hcall d hd).symm
  · obtain rfl : d = row := Table.eq_of_pk hd hrow ((hcall d hd).mp hsome)
    rw [RecipientDelivery.withState, hf]
    rfl

/-- A call finds the row with its key, and is refused or takes effect on that row. -/
theorem keyed_call (op : Operation) {α : Type} {c : RecipientDelivery → Prop}
    [∀ d, Decidable (c d)] {a b x : α}
    {f : RecipientDelivery → RecipientDelivery → DeliveryState}
    (hcall : ∀ d, (op.call d).isSome = true ↔ d.idempotencyKey = key ∧ ¬ c d)
    (hf : ∀ d, f d d = op.written d)
    (h : (do
      let row ← deliveryOf key
      if c row then return a
      else
        updateDeliveries (·.pk = row.pk) (f row)
        return b) s = .ok (x, t)) :
    t = s.called op ∧ x = if ∃ d ∈ s.deliveries.rows, (op.call d).isSome then b else a := by
  obtain ⟨row, -, hrow, rfl, h₁⟩ := deliveryOf_bind h
  have hsome : ∀ d ∈ s.deliveries.rows,
      (op.call d).isSome = true ↔ d.pk = row.pk ∧ ¬ c row := fun d hd => by
    rw [hcall d, ← row_of_key hd hrow]
    refine and_congr_right fun hpk => ?_
    rw [show d = row from Table.eq_of_pk hd hrow hpk]
  by_cases hc : c row
  · rw [if_pos hc] at h₁
    obtain ⟨rfl, hsame⟩ := pure_ok.mp h₁
    have hnone : ∀ d ∈ s.deliveries.rows, ¬ (op.call d).isSome = true := fun d hd h =>
      ((hsome d hd).mp h).2 hc
    refine ⟨hsame.trans (called_eq_self fun d hd => ?_).symm, (if_neg ?_).symm⟩
    · simpa using hnone d hd
    · rintro ⟨d, hd, h⟩
      exact hnone d hd h
  · rw [if_neg hc] at h₁
    obtain ⟨_, _, hupdate, h₂⟩ := bind_ok.mp h₁
    obtain ⟨rfl, rfl⟩ := pure_ok.mp h₂
    rw [called_eq_update hrow (fun d hd => (hsome d hd).trans (and_iff_left hc)) (hf row)]
      at hupdate
    cases hupdate
    exact ⟨rfl, (if_pos ⟨row, hrow, (hsome row hrow).mpr ⟨rfl, hc⟩⟩).symm⟩

/-- A call does to every row what `call` and `written` say, and answers whether it has found one
on which it takes effect. -/
theorem called_of_answer {x : Bool} (hop : op.isDeliveryCall = true)
    (h : op.answer s = .ok (x, t)) : t = s.called op ∧
      (x = true ↔ ∃ d ∈ s.deliveries.rows, (op.call d).isSome = true) := by
  cases op with
  | claim key leaseSeconds now token =>
    obtain ⟨claimed, _, h₁, h₂⟩ := bind_ok.mp h
    obtain ⟨rfl, rfl⟩ := pure_ok.mp h₂
    obtain ⟨hcalled, hanswer⟩ := keyed_call (.claim key leaseSeconds now token)
      (fun d => by simp [Operation.call, RecipientDelivery.available]) (fun _ => rfl) h₁
    refine ⟨hcalled, ?_⟩
    rw [hanswer]
    split <;> simp_all
  | succeed key leaseToken =>
    obtain ⟨hcalled, hanswer⟩ := keyed_call (.succeed key leaseToken)
      (fun d => by simp [Operation.call]) (fun _ => rfl) h
    exact ⟨hcalled, by simp [hanswer]⟩
  | fail key leaseToken errorClass now =>
    obtain ⟨hcalled, hanswer⟩ := keyed_call (.fail key leaseToken errorClass now)
      (fun d => by simp [Operation.call]) (fun _ => rfl) h
    exact ⟨hcalled, by simp [hanswer]⟩
  | acknowledge key now =>
    obtain ⟨hcalled, hanswer⟩ := keyed_call (.acknowledge key now)
      (fun d => by simp [Operation.call]) (fun _ => rfl) h
    exact ⟨hcalled, by simp [hanswer]⟩
  | replay key now =>
    obtain ⟨hcalled, hanswer⟩ := keyed_call (.replay key now)
      (fun d => by simp [Operation.call]) (fun _ => rfl) h
    exact ⟨hcalled, by simp [hanswer]⟩
  | reapExpired now =>
    obtain ⟨count, _, h₁, h₂⟩ := bind_ok.mp h
    obtain ⟨rfl, rfl⟩ := pure_ok.mp h₂
    cases h₁
    have hcall : ∀ d : RecipientDelivery,
        (Operation.call d (.reapExpired now)).isSome = d.expired now := fun d => by
      by_cases hexpired : d.expired now = true <;> simp [Operation.call, hexpired]
    refine ⟨?_, ?_⟩
    · have hrows : s.deliveries.rewrite (·.expired now) (.withState fun d => d.failed now now)
          (RecipientDelivery.preserves _) =
          s.deliveries.rewrite (fun d => (Operation.call d (.reapExpired now)).isSome)
            (.withState (Operation.reapExpired now).written) (RecipientDelivery.preserves _) :=
        Numbered.rewrite_congr (fun d _ => (hcall d).symm) fun _ _ _ => rfl
      unfold Store.called
      rw [← hrows]
    · simp only [hcall, decide_eq_true_eq, ne_eq, List.countP_eq_zero, not_forall, not_not,
        exists_prop]
  | _ => cases hop

/-! ## What the other operations do to deliveries -/

/-- A delivery as admission inserts it. -/
structure RecipientDelivery.Fresh (d : RecipientDelivery) : Prop where
  status : d.status = .pending
  attempts : d.attempts = 0
  due : d.nextAttemptAt.isSome = true

namespace Store

/-- The only new deliveries are fresh ones, under new numbers. -/
structure Enrols (s t : Store) : Prop where
  next : s.deliveries.next ≤ t.deliveries.next
  rows : ∀ d ∈ t.deliveries.rows,
    d ∈ s.deliveries.rows ∨ d.Fresh ∧ s.deliveries.next ≤ d.pk

instance : Std.Refl Enrols := ⟨fun _ => ⟨Nat.le_refl _, fun _ hd => .inl hd⟩⟩

instance : IsTrans Store Enrols where
  trans _ _ _ h h' := by
    refine ⟨Nat.le_trans h.next h'.next, fun d hd => ?_⟩
    obtain hold | ⟨hfresh, hnew⟩ := h'.rows d hd
    · exact h.rows d hold
    · exact .inr ⟨hfresh, Nat.le_trans h.next hnew⟩

/-- Deliveries that have not ended are cancelled, or deleted. -/
def Fences (s t : Store) : Prop := ∀ d' ∈ t.deliveries.rows, ∃ d ∈ s.deliveries.rows,
  d' = d ∨ d.status.isTerminal = false ∧ ∃ now, d' = d.cancelled now

instance : Std.Refl Fences := ⟨fun _ d hd => ⟨d, hd, .inl rfl⟩⟩

instance : IsTrans Store Fences where
  trans _ _ _ h h' d'' hd'' := by
    obtain ⟨d', hd', hsame | ⟨hlive, now, rfl⟩⟩ := h' d'' hd''
    · obtain rfl := hsame
      exact h d'' hd'
    · obtain ⟨d, hd, rfl | ⟨-, now', rfl⟩⟩ := h d' hd'
      · exact ⟨d', hd, .inr ⟨hlive, now, rfl⟩⟩
      · cases hlive

theorem enrols_of_eq (h : t.deliveries = s.deliveries) : Enrols s t := by
  exact ⟨by rw [h], fun _ hd => .inl (h ▸ hd)⟩

theorem fences_of_eq (h : t.deliveries = s.deliveries) : Fences s t := fun d hd =>
  ⟨d, h ▸ hd, .inl rfl⟩

end Store

open Store (Enrols Fences enrols_of_eq fences_of_eq)

section Others

variable {r : AdmissionRequest} {schedule generation : ℕ} {recipient : Recipient}
  {recipients : List Recipient}

theorem scheduleRow_same {x : AlertSchedule} (h : scheduleRow k s = .ok (x, t)) : t = s := by
  unfold scheduleRow at h
  split at h <;> cases h
  rfl

theorem newDelivery_fresh (r : AdmissionRequest) (schedule generation : ℕ) (recipient : Recipient)
    (now : Instant) (pk : ℕ) : (newDelivery r schedule generation recipient now pk).Fresh :=
  ⟨rfl, rfl, rfl⟩

theorem materializeLocked_enrols :
    Within Enrols (materializeLocked r schedule generation now recipient) := by
  refine .get_bind fun s b t h => ?_
  cases hfind : s.deliveryFor schedule generation recipient with
  | some delivery =>
    simp only [hfind] at h
    exact enrols_of_eq (by rw [(pure_ok.mp h).2])
  | none =>
    simp only [hfind] at h
    obtain ⟨delivery, m, hdelivery, h₁⟩ := bind_ok.mp h
    obtain ⟨outbox, m', houtbox, h₂⟩ := bind_ok.mp h₁
    obtain ⟨-, rfl⟩ := pure_ok.mp h₂
    obtain ⟨rfl, T, hT, rfl⟩ := add_ok hdelivery
    obtain ⟨rfl, O, hO, rfl⟩ := add_ok houtbox
    obtain ⟨hrows, hnext, -⟩ := Numbered.insert_ok hT rfl
    refine ⟨?_, fun d hd => ?_⟩
    · change _ ≤ T.next
      rw [hnext]
      exact Nat.le_succ _
    · change d ∈ T.rows at hd
      rw [hrows, List.mem_append, List.mem_singleton] at hd
      obtain hold | rfl := hd
      · exact .inl hold
      · exact .inr ⟨newDelivery_fresh _ _ _ _ _ _, Nat.le_refl _⟩

theorem materializeAll_enrols :
    Within Enrols (materializeAll r schedule generation now recipients) := by
  induction recipients with
  | nil => exact .pure _
  | cons recipient rest ih =>
    refine .bind materializeLocked_enrols fun _ => ?_
    exact .bind ih fun _ => .pure _

theorem markAdmitted_enrols {outcome : AdmissionOutcome} :
    Within Enrols (markAdmitted schedule generation outcome) := by
  rintro s v t ⟨⟩
  exact enrols_of_eq rfl

theorem scheduleRow_enrols : Within Enrols (scheduleRow k) := fun _ _ _ h =>
  enrols_of_eq (by rw [scheduleRow_same h])

theorem admitScheduleGeneration_enrols : Within Enrols (admitScheduleGeneration r now) := by
  refine .bind scheduleRow_enrols fun row => .ite (fun _ => .pure _) fun _ =>
    .ite (fun _ => .pure _) fun _ => .ite (fun _ => .ite (fun _ => .pure _) fun _ => ?_) fun _ => ?_
  · exact .bind markAdmitted_enrols fun _ => .pure _
  · refine .bind materializeAll_enrols fun _ => .ite (fun _ => .pure _) fun _ => ?_
    exact .bind markAdmitted_enrols fun _ => .pure _

theorem dispatchAlertSchedule_enrols :
    Within Enrols (dispatchAlertSchedule schedule recipients now) :=
  .bind scheduleRow_enrols fun _ => admitScheduleGeneration_enrols

theorem claimOutbox_enrols {leaseSeconds : ℤ} {owner : String} :
    Within Enrols (claimOutbox leaseSeconds owner now token) := by
  refine .get_bind fun s c t h => ?_
  cases hfind : s.outbox.rows.find? (·.claimable now) with
  | none =>
    simp only [hfind] at h
    exact enrols_of_eq (by rw [(pure_ok.mp h).2])
  | some o =>
    simp only [hfind] at h
    split at h
    · cases h
      exact enrols_of_eq rfl
    · obtain ⟨_, _, ⟨⟩, h₁⟩ := bind_ok.mp h
      cases hdelivery : s.deliveries.get o.delivery with
      | none =>
        simp only [hdelivery] at h₁
        cases h₁
      | some delivery =>
        simp only [hdelivery] at h₁
        obtain ⟨-, rfl⟩ := pure_ok.mp h₁
        exact enrols_of_eq rfl

theorem scheduleRow_fences : Within Fences (scheduleRow k) := fun _ _ _ h =>
  fences_of_eq (by rw [scheduleRow_same h])

theorem saveSchedule_fences {f : AlertSchedule → AlertSchedule}
    {hf : AlertSchedule.schema.Preserves f} : Within Fences (saveSchedule schedule f hf) := by
  rintro s v t ⟨⟩
  exact fences_of_eq rfl

theorem fenceLockedScheduleChildWork_fences :
    Within Fences (fenceLockedScheduleChildWork schedule now) := by
  rintro s n t ⟨⟩ d' hd'
  obtain ⟨d, hd, rfl⟩ := List.mem_map.mp (show d' ∈ s.deliveries.rows.map _ from hd')
  refine ⟨d, hd, ?_⟩
  split
  next hfenced =>
    simp only [RecipientDelivery.fencedBy, Bool.not_eq_true', decide_eq_true_eq] at hfenced
    exact .inr ⟨hfenced.2, now, rfl⟩
  next => exact .inl rfl

theorem fenceScheduleForModify_fences {x : AlertSchedule} :
    Within Fences (fenceScheduleForModify x now) :=
  .bind fenceLockedScheduleChildWork_fences fun _ => .bind saveSchedule_fences fun _ => .pure _

theorem cancelSchedule_fences : Within Fences (cancelSchedule schedule now) :=
  .bind scheduleRow_fences fun _ => .bind saveSchedule_fences fun _ =>
    fenceLockedScheduleChildWork_fences

theorem rearmSchedule_fences : Within Fences (rearmSchedule schedule now) :=
  .bind scheduleRow_fences fun _ => .ite (fun _ => .pure _) fun _ =>
    .bind fenceLockedScheduleChildWork_fences fun _ => .bind saveSchedule_fences fun _ => .pure _

theorem deleteSchedule_fences : Within Fences (deleteSchedule schedule now) := by
  refine .bind scheduleRow_fences fun row =>
    .bind fenceLockedScheduleChildWork_fences fun _ => .bind ?_ fun _ => .pure _
  rintro s v t ⟨⟩ d hd
  exact ⟨d, (List.mem_filter.mp hd).1, .inl rfl⟩

theorem supplied_fences {α β : Type} {value : Option α} {current : β} {check : α → Tx β}
    (hcheck : ∀ a s b t, check a s = .ok (b, t) → t = s) :
    Within Fences (supplied value current check) := fun s b t h =>
  fences_of_eq (by rw [supplied_ok (fun a => hcheck a s b t) h])

theorem alertScheduleModify_fences {c : AlertChanges} :
    Within Fences (alertScheduleModify schedule c now) := by
  refine .bind scheduleRow_fences fun row => .bind (supplied_fences fun event s b t h => ?_)
    fun slot => .bind (supplied_fences fun category s b t h => ?_) fun category =>
    .bind (supplied_fences fun _ _ _ _ => resolveMessage_ok) fun message =>
    .bind (supplied_fences fun _ _ _ _ => futureDatetime_ok) fun alertDatetime => ?_
  · obtain ⟨_, _, hresolve, hpure⟩ := bind_ok.mp h
    exact (pure_ok.mp hpure).2.trans (resolveEvent_ok hresolve)
  · obtain ⟨_, _, hvalid, hpure⟩ := bind_ok.mp h
    exact (pure_ok.mp hpure).2.trans (validateTargetCategory_ok hvalid)
  · refine .ite (fun _ => .bind fenceScheduleForModify_fences fun _ => ?_) fun _ => ?_
    · exact .bind saveSchedule_fences fun _ => .pure _
    · exact .bind saveSchedule_fences fun _ => .pure _

end Others

/-! ## What becomes of a row -/

/-- What becomes of a row: a call takes effect on it, or none does, or it is cancelled. -/
inductive RowStep (op : Operation) (d : RecipientDelivery) : RecipientDelivery → Prop
  | called {call : Local.Call} (hcall : op.call d = some call) :
    RowStep op d (d.withState op.written)
  | kept (hcall : op.call d = none) : RowStep op d d
  | cancelled {at_ : Instant} (hop : op.isDeliveryCall = false)
      (live : d.status.isTerminal = false) : RowStep op d (d.cancelled at_)

/-- Where a row comes from. -/
def Evolves (op : Operation) (s : Store) (d : RecipientDelivery) : Prop :=
  (∃ e ∈ s.deliveries.rows, RowStep op e d) ∨ d.Fresh ∧ s.deliveries.next ≤ d.pk

theorem call_of_not_isDeliveryCall (hop : op.isDeliveryCall = false) : op.call d = none := by
  cases op <;> first | rfl | cases hop

theorem evolves_of_called (h : d ∈ (s.called op).deliveries.rows) : Evolves op s d := by
  obtain ⟨e, he, rfl⟩ := List.mem_map.mp (show d ∈ s.deliveries.rows.map _ from h)
  refine .inl ⟨e, he, ?_⟩
  cases hcall : op.call e with
  | none => simpa [hcall] using RowStep.kept hcall
  | some call => simpa [hcall] using RowStep.called hcall

theorem evolves_of_eq (hop : op.isDeliveryCall = false) (h : t.deliveries = s.deliveries)
    (hd : d ∈ t.deliveries.rows) : Evolves op s d :=
  .inl ⟨d, h ▸ hd, .kept (call_of_not_isDeliveryCall hop)⟩

theorem evolves_of_enrols (hop : op.isDeliveryCall = false) (h : Enrols s t)
    (hd : d ∈ t.deliveries.rows) : Evolves op s d := by
  obtain hold | hfresh := h.rows d hd
  · exact .inl ⟨d, hold, .kept (call_of_not_isDeliveryCall hop)⟩
  · exact .inr hfresh

theorem evolves_of_fences (hop : op.isDeliveryCall = false) (h : Fences s t)
    (hd : d ∈ t.deliveries.rows) : Evolves op s d := by
  obtain ⟨e, he, rfl | ⟨hlive, now, rfl⟩⟩ := h d hd
  · exact .inl ⟨d, he, .kept (call_of_not_isDeliveryCall hop)⟩
  · exact .inl ⟨e, he, .cancelled hop hlive⟩

/-- A call is performed with the answer thrown away. -/
theorem answer_of_perform (hop : op.isDeliveryCall = true) (h : op.perform s = .ok (v, t)) :
    ∃ x, op.answer s = .ok (x, t) := by
  cases op with
  | claim key leaseSeconds now token =>
    obtain ⟨claimed, _, h₁, ⟨⟩⟩ := bind_ok.mp h
    exact ⟨_, bind_ok.mpr ⟨claimed, _, h₁, rfl⟩⟩
  | succeed key leaseToken =>
    obtain ⟨x, _, h₁, ⟨⟩⟩ := bind_ok.mp h
    exact ⟨x, h₁⟩
  | fail key leaseToken errorClass now =>
    obtain ⟨x, _, h₁, ⟨⟩⟩ := bind_ok.mp h
    exact ⟨x, h₁⟩
  | acknowledge key now =>
    obtain ⟨x, _, h₁, ⟨⟩⟩ := bind_ok.mp h
    exact ⟨x, h₁⟩
  | replay key now =>
    obtain ⟨x, _, h₁, ⟨⟩⟩ := bind_ok.mp h
    exact ⟨x, h₁⟩
  | reapExpired now =>
    obtain ⟨count, _, h₁, ⟨⟩⟩ := bind_ok.mp h
    exact ⟨_, bind_ok.mpr ⟨count, _, h₁, rfl⟩⟩
  | _ => cases hop

/-- A call whose key is that of a row is not aborted. -/
theorem keyed_ok {α : Type} {c : RecipientDelivery → Prop} [∀ d, Decidable (c d)] {a b : α}
    {f : RecipientDelivery → RecipientDelivery → DeliveryState} (hd : d ∈ s.deliveries.rows)
    (hkey : d.idempotencyKey = key) : ∃ x t, (do
      let row ← deliveryOf key
      if c row then return a
      else
        updateDeliveries (·.pk = row.pk) (f row)
        return b : Tx α) s = .ok (x, t) := by
  obtain ⟨row, hrow⟩ : ∃ row, s.deliveries.rows.find? (·.idempotencyKey = key) = some row := by
    refine Option.isSome_iff_exists.mp (List.find?_isSome.mpr ⟨d, hd, ?_⟩)
    simpa using hkey
  have hfound : deliveryOf key s = .ok (row, s) := by simp only [deliveryOf, hrow]
  rw [bind_of_ok hfound]
  split
  · exact ⟨a, s, rfl⟩
  · exact ⟨b, _, rfl⟩

theorem perform_of_call {call : Local.Call} (hd : d ∈ s.deliveries.rows)
    (hcall : op.call d = some call) : ∃ t, op.perform s = .ok ((), t) := by
  have thrown {α : Type} {m : Tx α} (h : ∃ x t, m s = .ok (x, t)) :
      ∃ t, (do let _ ← m; return () : Tx Unit) s = .ok ((), t) := by
    obtain ⟨x, t, h⟩ := h
    exact ⟨t, bind_ok.mpr ⟨x, t, h, rfl⟩⟩
  cases op with
  | claim => exact thrown (keyed_ok hd (Option.ite_none_right_eq_some.mp hcall).1.1)
  | succeed => exact thrown (keyed_ok hd (Option.ite_none_right_eq_some.mp hcall).1.1)
  | fail => exact thrown (keyed_ok hd (Option.ite_none_right_eq_some.mp hcall).1.1)
  | acknowledge => exact thrown (keyed_ok hd (Option.ite_none_right_eq_some.mp hcall).1.1)
  | replay => exact thrown (keyed_ok hd (Option.ite_none_right_eq_some.mp hcall).1.1)
  | reapExpired => exact ⟨_, rfl⟩
  | _ => cases hcall

theorem perform_called (hop : op.isDeliveryCall = true) (h : op.perform s = .ok (v, t)) :
    t = s.called op := by
  obtain ⟨x, hanswer⟩ := answer_of_perform hop h
  exact (called_of_answer hop hanswer).1

theorem perform_evolves (h : op.perform s = .ok (v, t)) (hd : d ∈ t.deliveries.rows) :
    Evolves op s d := by
  cases hop : op.isDeliveryCall with
  | true =>
    obtain rfl := perform_called hop h
    exact evolves_of_called hd
  | false =>
    cases op with
    | alertScheduleCreate c now =>
      obtain ⟨_, _, h₁, ⟨⟩⟩ := bind_ok.mp h
      obtain ⟨_, s₁, hcategory, h₂⟩ := bind_ok.mp h₁
      obtain rfl := validateTargetCategory_ok hcategory
      obtain ⟨_, s₂, hevent, h₃⟩ := bind_ok.mp h₂
      obtain rfl := resolveEvent_ok hevent
      obtain ⟨message, s₃, hmessage, h₄⟩ := bind_ok.mp h₃
      obtain rfl := resolveMessage_ok hmessage
      obtain ⟨alertDatetime, s₄, hdatetime, h₅⟩ := bind_ok.mp h₄
      obtain rfl := futureDatetime_ok hdatetime
      obtain ⟨-, T, hT, rfl⟩ := add_ok h₅
      exact evolves_of_eq rfl rfl hd
    | alertScheduleModify schedule c now =>
      obtain ⟨_, _, h₁, ⟨⟩⟩ := bind_ok.mp h
      exact evolves_of_fences hop (alertScheduleModify_fences _ _ _ h₁) hd
    | fenceScheduleForModify schedule now =>
      obtain ⟨row, hrow, h₁⟩ := scheduleRow_bind.mp h
      obtain ⟨_, _, h₂, ⟨⟩⟩ := bind_ok.mp h₁
      exact evolves_of_fences hop (fenceScheduleForModify_fences _ _ _ h₂) hd
    | cancelSchedule schedule now =>
      obtain ⟨_, _, h₁, ⟨⟩⟩ := bind_ok.mp h
      exact evolves_of_fences hop (cancelSchedule_fences _ _ _ h₁) hd
    | deleteSchedule schedule now =>
      obtain ⟨_, _, h₁, ⟨⟩⟩ := bind_ok.mp h
      exact evolves_of_fences hop (deleteSchedule_fences _ _ _ h₁) hd
    | rearmSchedule schedule now =>
      obtain ⟨_, _, h₁, ⟨⟩⟩ := bind_ok.mp h
      exact evolves_of_fences hop (rearmSchedule_fences _ _ _ h₁) hd
    | admitScheduleGeneration r now =>
      obtain ⟨_, _, h₁, ⟨⟩⟩ := bind_ok.mp h
      exact evolves_of_enrols hop (admitScheduleGeneration_enrols _ _ _ h₁) hd
    | dispatchAlertSchedule schedule recipients now =>
      obtain ⟨_, _, h₁, ⟨⟩⟩ := bind_ok.mp h
      exact evolves_of_enrols hop (dispatchAlertSchedule_enrols _ _ _ h₁) hd
    | claimOutbox leaseSeconds owner now token =>
      obtain ⟨_, _, h₁, ⟨⟩⟩ := bind_ok.mp h
      exact evolves_of_enrols hop (claimOutbox_enrols _ _ _ h₁) hd
    | markOutboxPublished outbox token generation now =>
      obtain ⟨_, _, h₁, ⟨⟩⟩ := bind_ok.mp h
      cases h₁
      exact evolves_of_eq rfl rfl hd
    | markOutboxFailed outbox token generation errorClass unknownHandoff now =>
      obtain ⟨_, _, h₁, ⟨⟩⟩ := bind_ok.mp h
      cases h₁
      exact evolves_of_eq rfl rfl hd
    | replayOutbox outbox now =>
      obtain ⟨_, _, h₁, ⟨⟩⟩ := bind_ok.mp h
      cases h₁
      exact evolves_of_eq rfl rfl hd
    | _ => cases hop

theorem RowStep.pk (h : RowStep op d d') : d'.pk = d.pk := by
  cases h <;> rfl

/-- The step of a row that is there before and after. -/
theorem perform_row (h : op.perform s = .ok (v, t)) (hd : d ∈ s.deliveries.rows)
    (hd' : d' ∈ t.deliveries.rows) (hpk : d'.pk = d.pk) : RowStep op d d' := by
  obtain ⟨e, he, hstep⟩ | ⟨-, hnew⟩ := perform_evolves h hd'
  · obtain rfl : e = d := Table.eq_of_pk he hd (hstep.pk.symm.trans hpk)
    exact hstep
  · have hused : d.pk < s.deliveries.next := s.deliveries.used d hd
    omega

/-! ## Invariants of rows -/

theorem RecipientDelivery.Fresh.sound (h : d.Fresh) : d.Sound where
  held hflight := by
    rw [h.status] at hflight
    cases hflight
  due _ := h.due

theorem ended_sound {retryAt : Instant} {error : String} : (d.ended now retryAt error).Sound := by
  unfold RecipientDelivery.ended RecipientDelivery.withState RecipientDelivery.failed
  by_cases hspent : d.maxAttempts ≤ d.attempts
  · constructor <;> simp [hspent, DeliveryStatus.isTerminal]
  · constructor <;> simp [hspent]

theorem RowStep.sound (h : RowStep op d d') (hd : d.Sound) : d'.Sound := by
  cases h with
  | kept => exact hd
  | cancelled => constructor <;> intro h <;> cases h
  | called hcall =>
    cases op with
    | claim key leaseSeconds now token =>
      obtain ⟨⟨-, havailable⟩, -⟩ := Option.ite_none_right_eq_some.mp hcall
      exact ⟨fun _ => rfl, fun _ => hd.due (available_iff.mp havailable).1⟩
    | succeed => constructor <;> intro h <;> cases h
    | fail => exact fail_written ▸ ended_sound
    | acknowledge => constructor <;> intro h <;> cases h
    | replay => exact ⟨fun h => (by cases h), fun _ => rfl⟩
    | reapExpired now =>
      rw [reap_written]
      exact ended_sound
    | _ => cases hcall

theorem reachable_sound (h : system.Reachable σ) : ∀ d ∈ σ.store.deliveries.rows, d.Sound := by
  refine h.invariant (I := fun u => ∀ d ∈ u.store.deliveries.rows, d.Sound) (fun u hu => ?_)
    fun u op w _ hu hstep => ?_
  · rw [hu.1.deliveries]
    exact fun d hd => by cases hd
  · obtain hsame | hrun := step_store hstep
    · exact hsame ▸ hu
    · intro d hd
      obtain ⟨e, he, hrow⟩ | ⟨hfresh, -⟩ := perform_evolves hrun hd
      · exact hrow.sound (hu e he)
      · exact hfresh.sound

/-! ## Leaving a state -/

/-- A row in flight ends its attempt by the holder of its lease, or by the reaper once the lease has
run out. -/
theorem RowStep.ends (h : RowStep op d d') (hflight : d.status = .inFlight)
    (hends : d'.status = .delivered ∨ d'.status = .retry ∨ d'.status = .deadLetter) :
    (∃ token, d.leaseToken = some token ∧ (op = .succeed d.idempotencyKey token ∨
      ∃ errorClass now, op = .fail d.idempotencyKey token errorClass now)) ∨
    ∃ now, op = .reapExpired now ∧ d.leaseExpiresAt.any (· < now) = true := by
  cases h with
  | kept => simp [hflight] at hends
  | cancelled => simp [RecipientDelivery.cancelled, RecipientDelivery.withState] at hends
  | called hcall =>
    cases op with
    | claim => simp [RecipientDelivery.withState, Operation.written] at hends
    | succeed key leaseToken =>
      obtain ⟨⟨rfl, hheld⟩, -⟩ := Option.ite_none_right_eq_some.mp hcall
      exact .inl ⟨leaseToken, (heldBy_iff.mp hheld).2, .inl rfl⟩
    | fail key leaseToken errorClass now =>
      obtain ⟨⟨rfl, hheld⟩, -⟩ := Option.ite_none_right_eq_some.mp hcall
      exact .inl ⟨leaseToken, (heldBy_iff.mp hheld).2, .inr ⟨errorClass, now, rfl⟩⟩
    | acknowledge key now =>
      obtain ⟨⟨-, hdelivered⟩, -⟩ := Option.ite_none_right_eq_some.mp hcall
      rw [hflight] at hdelivered
      cases hdelivered
    | replay key now =>
      obtain ⟨⟨-, hdead⟩, -⟩ := Option.ite_none_right_eq_some.mp hcall
      rw [hflight] at hdead
      cases hdead
    | reapExpired now =>
      obtain ⟨hexpired, -⟩ := Option.ite_none_right_eq_some.mp hcall
      exact .inr ⟨now, rfl, (expired_iff.mp hexpired).2⟩
    | _ => cases hcall

theorem RowStep.delivered (h : RowStep op d d') (hdelivered : d.status = .delivered) :
    d' = d ∨ d'.status = .acknowledged ∧ ∃ now, op = .acknowledge d.idempotencyKey now := by
  have hterminal : d.status.isTerminal = true := by rw [hdelivered]; rfl
  cases h with
  | kept => exact .inl rfl
  | cancelled _ live => simp [hterminal] at live
  | called hcall =>
    cases op with
    | claim key leaseSeconds now token =>
      obtain ⟨⟨-, havailable⟩, -⟩ := Option.ite_none_right_eq_some.mp hcall
      have hlive := (available_iff.mp havailable).1
      simp [hterminal] at hlive
    | acknowledge key now =>
      obtain ⟨⟨rfl, -⟩, -⟩ := Option.ite_none_right_eq_some.mp hcall
      exact .inr ⟨rfl, now, rfl⟩
    | succeed key leaseToken =>
      obtain ⟨⟨-, hheld⟩, -⟩ := Option.ite_none_right_eq_some.mp hcall
      simp [heldBy_iff, hdelivered] at hheld
    | fail key leaseToken errorClass now =>
      obtain ⟨⟨-, hheld⟩, -⟩ := Option.ite_none_right_eq_some.mp hcall
      simp [heldBy_iff, hdelivered] at hheld
    | replay key now =>
      obtain ⟨⟨-, hdead⟩, -⟩ := Option.ite_none_right_eq_some.mp hcall
      simp [hdelivered] at hdead
    | reapExpired now =>
      obtain ⟨hexpired, -⟩ := Option.ite_none_right_eq_some.mp hcall
      simp [expired_iff, hdelivered] at hexpired
    | _ => cases hcall

/-! ## The budget of attempts -/

/-- A replayed dead letter, or an expired lease taken over although the attempts are spent. -/
def Operation.overruns (d : RecipientDelivery) : Operation → Bool
  | replay key _ => d.idempotencyKey = key ∧ d.status = .deadLetter
  | claim key _ now _ => d.idempotencyKey = key ∧ d.available now ∧ d.status = .inFlight ∧
      d.maxAttempts ≤ d.attempts
  | _ => false

def budgeted (σ : State) (op : Operation) : Prop :=
  ∀ d ∈ σ.store.deliveries.rows, op.overruns d = false

instance (σ : State) (op : Operation) : Decidable (budgeted σ op) :=
  inferInstanceAs (Decidable (∀ d ∈ σ.store.deliveries.rows, _))

/-- The attempts of a row that may be tried at all, and that waits to be tried, are not spent. -/
structure RecipientDelivery.InBudget (d : RecipientDelivery) : Prop where
  le : d.attempts ≤ d.maxAttempts
  waiting : d.status = .pending ∨ d.status = .retry → d.attempts < d.maxAttempts

theorem ended_inBudget {retryAt : Instant} {error : String} (hd : d.attempts ≤ d.maxAttempts) :
    (d.ended now retryAt error).InBudget := by
  unfold RecipientDelivery.ended RecipientDelivery.withState RecipientDelivery.failed
  by_cases hspent : d.maxAttempts ≤ d.attempts
  · constructor <;> simp [hspent, hd]
  · constructor <;> simp [hspent, hd]
    omega

theorem RowStep.maxAttempts (h : RowStep op d d') : d'.maxAttempts = d.maxAttempts := by
  cases h <;> rfl

theorem RowStep.inBudget (h : RowStep op d d') (hop : op.overruns d = false) (hd : d.InBudget) :
    d'.InBudget := by
  cases h with
  | kept => exact hd
  | cancelled => exact ⟨hd.le, by rintro (h | h) <;> cases h⟩
  | called hcall =>
    cases op with
    | claim key leaseSeconds now token =>
      obtain ⟨⟨hkey, havailable⟩, -⟩ := Option.ite_none_right_eq_some.mp hcall
      have hleft : d.attempts < d.maxAttempts := by
        have hlive := (available_iff.mp havailable).1
        cases hstatus : d.status with
        | pending => exact hd.waiting (.inl hstatus)
        | retry => exact hd.waiting (.inr hstatus)
        | inFlight => simpa [Operation.overruns, hkey, havailable, hstatus] using hop
        | _ => simp [hstatus, DeliveryStatus.isTerminal] at hlive
      exact ⟨hleft, by rintro (h | h) <;> cases h⟩
    | succeed => exact ⟨hd.le, by rintro (h | h) <;> cases h⟩
    | fail => exact fail_written ▸ ended_inBudget hd.le
    | acknowledge => exact ⟨hd.le, by rintro (h | h) <;> cases h⟩
    | replay key now =>
      obtain ⟨⟨hkey, hdead⟩, -⟩ := Option.ite_none_right_eq_some.mp hcall
      simp [Operation.overruns, hkey, hdead] at hop
    | reapExpired now =>
      rw [reap_written]
      exact ended_inBudget hd.le
    | _ => cases hcall

theorem reachable_inBudget (h : (system.under budgeted).Reachable σ) :
    ∀ d ∈ σ.store.deliveries.rows, 1 ≤ d.maxAttempts → d.InBudget := by
  refine invariant_under (I := fun s => ∀ d ∈ s.deliveries.rows, 1 ≤ d.maxAttempts → d.InBudget)
    (fun s hs => ?_) (fun u op t hC hu hrun d hd hmax => ?_) h
  · rw [hs.deliveries]
    exact fun d hd => by cases hd
  · obtain ⟨e, he, hrow⟩ | ⟨hfresh, -⟩ := perform_evolves hrun hd
    · exact hrow.inBudget (hC e he) (hu e he (hrow.maxAttempts ▸ hmax))
    · have hnone : d.attempts = 0 := hfresh.attempts
      exact ⟨by omega, fun _ => by omega⟩

/-! ## Steps -/

/-- What a step makes of a row that is there before and after. -/
theorem step_row (hstep : system.step σ op = some τ) (hd : d ∈ σ.store.deliveries.rows)
    (hd' : d' ∈ τ.store.deliveries.rows) (hpk : d'.pk = d.pk) : RowStep op d d' := by
  obtain hsame | hrun := step_store hstep
  · obtain rfl : d' = d := Table.eq_of_pk (hsame ▸ hd') hd hpk
    cases hcall : op.call d' with
    | none => exact .kept hcall
    | some call =>
      -- a call that takes effect is not aborted, so that it is the transaction of this step
      obtain ⟨t, hrun⟩ := perform_of_call hd hcall
      have ht : τ.store = t := by
        obtain rfl := Option.some.inj hstep
        simp [commit_of_ok hrun]
      exact perform_row hrun hd (ht ▸ hd') rfl
  · exact perform_row hrun hd hd' hpk

theorem RowStep.refines (h : RowStep op d d') (hd : d.Sound) :
    (∀ call, op.call d = some call →
      ∃ p, call.run d.toLocal = (true, p) ∧ p.Agrees d'.toLocal) ∧
    (op.call d = none → d' = d ∨ op.isDeliveryCall = false ∧
      ∃ p, Local.Call.cancel.run d.toLocal = (true, p) ∧ p.Agrees d'.toLocal) := by
  cases h with
  | called hcall =>
    refine ⟨fun call h => ?_, fun h => ?_⟩
    · exact call_agrees hd h
    · rw [hcall] at h
      cases h
  | kept hcall =>
    refine ⟨fun call h => ?_, fun _ => .inl rfl⟩
    rw [hcall] at h
    cases h
  | cancelled hop live =>
    refine ⟨fun call h => ?_, fun _ => .inr ⟨hop, cancelled_agrees live⟩⟩
    rw [call_of_not_isDeliveryCall hop] at h
    cases h

/-- The database calls refine the local machine: a call that takes effect on a row is one step of
it, and a refused call changes nothing. A row in flight is ended by the holder of its lease, or by
the reaper once the lease has run out. -/
theorem deliveries_refine (hreach : system.Reachable σ) (hstep : system.step σ op = some τ)
    (hd : d ∈ σ.store.deliveries.rows) (hd' : d' ∈ τ.store.deliveries.rows)
    (hpk : d'.pk = d.pk) :
    (∀ call, op.call d = some call →
      ∃ p, call.run d.toLocal = (true, p) ∧ p.Agrees d'.toLocal) ∧
    (op.call d = none → d' = d ∨ op.isDeliveryCall = false ∧
      ∃ p, Local.Call.cancel.run d.toLocal = (true, p) ∧ p.Agrees d'.toLocal) ∧
    (op.isDeliveryCall = true → ∀ x t, op.answer σ.store = .ok (x, t) →
      (x = true ↔ ∃ e ∈ σ.store.deliveries.rows, (op.call e).isSome = true) ∧
      (x = false → t = σ.store)) ∧
    (d.status = .inFlight →
      d'.status = .delivered ∨ d'.status = .retry ∨ d'.status = .deadLetter →
      (∃ token, d.leaseToken = some token ∧ (op = .succeed d.idempotencyKey token ∨
        ∃ errorClass now, op = .fail d.idempotencyKey token errorClass now)) ∨
      ∃ now, op = .reapExpired now ∧ d.leaseExpiresAt.any (· < now) = true) ∧
    (d.status = .delivered → d' = d ∨
      d'.status = .acknowledged ∧ ∃ now, op = .acknowledge d.idempotencyKey now) ∧
    ((system.under budgeted).Reachable σ → 1 ≤ d.maxAttempts → d.attempts ≤ d.maxAttempts) := by
  have hrow := step_row hstep hd hd' hpk
  obtain ⟨hsteps, hstutters⟩ := hrow.refines (reachable_sound hreach d hd)
  refine ⟨hsteps, hstutters, fun hop x t hanswer => ?_, hrow.ends, hrow.delivered,
    fun hbudgeted hmax => (reachable_inBudget hbudgeted d hd hmax).le⟩
  obtain ⟨hcalled, hx⟩ := called_of_answer hop hanswer
  refine ⟨hx, fun hfalse => hcalled.trans (called_eq_self fun e he => ?_)⟩
  by_contra hsome
  have htrue := hx.mpr ⟨e, he, Option.isSome_iff_ne_none.mpr hsome⟩
  rw [hfalse] at htrue
  cases htrue

/-- The alert for one subscriber, in flight until `seconds 300` later. -/
def inFlight : RecipientDelivery :=
  { pk := 1, schedule := 1, dispatchGeneration := 1, recipient := ⟨"subscriber", "5"⟩
    idempotencyKey := recipientIdempotencyKey 1 1 ⟨"subscriber", "5"⟩
    correlationId := "scheduler:1:1", ownerKey := "schedule:1"
    status := .inFlight, attempts := 1, nextAttemptAt := some 100, leaseToken := some 7
    leaseExpiresAt := some (100 + seconds 300) }

def claimedOnce : State := system.final oneEvent [
  .alertScheduleCreate ⟨1, some 1, "", .ok 100⟩ 0,
  .dispatchAlertSchedule 1 [⟨"subscriber", "5"⟩] 100, .claim inFlight.idempotencyKey 300 100 7]

/-- The time at which the lease has run out. -/
def overdue : Operation := .reapExpired (seconds 400)

theorem overdue_refines : ∃ p,
    (Local.Call.fail 7 "" (seconds 400) fun _ => 0).run inFlight.toLocal = (true, p) ∧
      p.Agrees (inFlight.ended (seconds 400) (seconds 400) "").toLocal :=
  (deliveries_refine (σ := claimedOnce) (τ := system.final claimedOnce [overdue])
    (Machine.Reachable.final oneEvent_initial _) (show system.step _ overdue = _ from rfl)
    (d := inFlight) (by decide +kernel)
    (show inFlight.ended (seconds 400) (seconds 400) "" ∈ _ from by decide +kernel) rfl).1 _ rfl

/-- The reaper, which holds no lease, puts a row in flight back to be tried again. -/
theorem inFlight_reaped : ∃ σ : State, system.Reachable σ ∧
    σ.store.deliveries.rows.map (fun d => (d.status, d.leaseToken)) = [(.inFlight, some 7)] ∧
    (commit overdue.perform σ.store).2.deliveries.rows.map (·.status) = [.retry] :=
  ⟨claimedOnce, Machine.Reachable.final oneEvent_initial _, by decide +kernel, by decide +kernel⟩

end Civicos.Scheduler
