import Civicos.Payments.Runtime
import Civicos.Library.Pool

/-!
# Payment commands

A request reserves one command with its attempt, its execution intent and its outbox row in one
savepoint. A request that loses the race for an identity reads the winner; a commit hook publishes
the outbox row of a new command.
-/
namespace Civicos.Payments

open Library Library.Transaction

inductive CommandStatus where
  | reserved
  | dispatched
deriving DecidableEq, Repr

structure PaymentCommand where
  pk : Uuid
  tenantId : String
  callerBbId : String
  operation : String
  requestIdentity : String
  fingerprint : Digest Json
  payload : Json
  status : CommandStatus := .reserved
  attempt : Option Uuid := none
deriving DecidableEq, Repr

namespace PaymentCommand

def identityKey : Index PaymentCommand where
  name := "payment_command_identity_uniq"
  Key := String × String × String
  key c := some (c.tenantId, c.operation, c.requestIdentity)

def attemptKey : Index PaymentCommand where
  name := "payments_paymentcommand_attempt_id_key"
  Key := Uuid
  key := attempt

def schema : Schema PaymentCommand where
  pk := pk
  indexes := [identityKey, attemptKey]
  checks := [
    .width "tenant_id" 100 tenantId,
    .width "caller_bb_id" 20 callerBbId,
    .width "operation" 64 operation,
    .width "request_identity" 255 requestIdentity]

/-- The columns of the unique identity. -/
def identity (c : PaymentCommand) : String × String × String :=
  (c.tenantId, c.operation, c.requestIdentity)

end PaymentCommand

structure PaymentCommandOutbox where
  pk : Uuid
  command : Uuid
  topic : String
  payload : Json
  publishedAt : Option Instant := none
deriving DecidableEq, Repr

namespace PaymentCommandOutbox

def commandKey : Index PaymentCommandOutbox where
  name := "payments_paymentcommandoutbox_command_id_key"
  Key := Uuid
  key o := some o.command

def schema : Schema PaymentCommandOutbox where
  pk := pk
  indexes := [commandKey]
  checks := [.width "topic" 120 topic]

end PaymentCommandOutbox

structure CommandStore where
  ledger : Ledger := {}
  commands : Table PaymentCommand.schema := .empty
  outboxes : Table PaymentCommandOutbox.schema := .empty
deriving DecidableEq

abbrev CommandTx := Transaction PaymentError CommandStore

namespace CommandStore

def ledgerPart : Lens CommandStore Ledger where
  get s := s.ledger
  set l s := { s with ledger := l }
  get_set _ _ := rfl
  set_get _ := rfl
  set_set _ _ _ := rfl

def commandTable : Lens CommandStore (Table PaymentCommand.schema) where
  get s := s.commands
  set t s := { s with commands := t }
  get_set _ _ := rfl
  set_get _ := rfl
  set_set _ _ _ := rfl

def outboxTable : Lens CommandStore (Table PaymentCommandOutbox.schema) where
  get s := s.outboxes
  set t s := { s with outboxes := t }
  get_set _ _ := rfl
  set_get _ := rfl
  set_set _ _ _ := rfl

def commandFor (s : CommandStore) (identity : String × String × String) : Option PaymentCommand :=
  s.commands.rows.find? (·.identity = identity)

end CommandStore

open CommandStore

/-- The arguments of `reserve`; the payload is JSON in canonical form. -/
structure ReserveCall where
  tenantId : String
  callerBbId : String
  operation : String
  requestIdentity : String
  payload : Json
deriving DecidableEq, Repr

namespace ReserveCall

/-- The columns that the command table tells commands apart by. -/
def identity (c : ReserveCall) : String × String × String :=
  (c.tenantId, strip c.operation, strip c.requestIdentity)

def isBlank (c : ReserveCall) : Bool := strip c.operation = "" ∨ strip c.requestIdentity = ""

end ReserveCall

namespace PaymentCommandService

/-- The savepoint of `reserve`. -/
def reserveNew (c : ReserveCall) : CommandTx PaymentCommand := do
  let command ← create commandTable .ofViolation fun pk =>
    { pk
      tenantId := c.tenantId
      callerBbId := c.callerBbId
      operation := strip c.operation
      requestIdentity := strip c.requestIdentity
      fingerprint := .sha256 c.payload
      payload := c.payload }
  let attempt ← zoom ledgerPart (reserveAttempt c.tenantId c.callerBbId (strip c.operation)
    (strip c.requestIdentity) c.payload command.pk)
  write commandTable .ofViolation command.pk fun row => { row with attempt := some attempt.pk }
  let _ ← create outboxTable .ofViolation fun pk =>
    { pk
      command := command.pk
      topic := "payments.command.reserved"
      payload := [("command_id", .str (toString command.pk)),
        ("attempt_id", .str (toString attempt.pk)), ("operation", .str (strip c.operation))] }
  return { command with attempt := some attempt.pk }

/-- What `reserve` does after an `IntegrityError`. -/
def recover (c : ReserveCall) : CommandTx PaymentCommand := do
  let s ← get
  match s.commandFor c.identity with
  | none => throw (.doesNotExist "PaymentCommand")
  | some command =>
    if command.fingerprint ≠ .sha256 c.payload then
      throw (.paymentIdempotencyConflict "request identity was reused with a different payload")
    if command.attempt = none then
      throw (.paymentScopeDenied "existing payment command has no durable attempt binding")
    return command

/-- Whether a handoff may be exposed: its command names the attempt that the payload names, and
the attempt has an execution intent. -/
def publishable (s : CommandStore) (outbox : PaymentCommandOutbox) (command : PaymentCommand) :
    Bool :=
  outbox.publishedAt = none ∧ ∃ attempt ∈ command.attempt,
    outbox.payload.lookup "attempt_id" = some (.str (toString attempt)) ∧
      (s.ledger.intentOf attempt).isSome

def publish (outboxId : Uuid) (now : Instant) : CommandTx Unit := do
  let outbox ← lookup outboxTable (.doesNotExist "PaymentCommandOutbox") outboxId
  let command ← lookup commandTable (.doesNotExist "PaymentCommand") outbox.command
  let s ← get
  if publishable s outbox command then
    write outboxTable .ofViolation outbox.pk fun row => { row with publishedAt := some now }
    write commandTable .ofViolation command.pk fun row => { row with status := .dispatched }
  else return ()

end PaymentCommandService

/-! ## Requests -/

/-- Calls of `reserve`, and the commit hooks that publish. -/
inductive CommandWorker where
  | reserve (c : ReserveCall)
  | recovering (c : ReserveCall)
  | returned (c : ReserveCall) (command : Uuid) (replayed : Bool)
  | raised (c : ReserveCall) (e : PaymentError)
  | publish (outbox : Uuid)
  | done
  | dead
deriving DecidableEq

namespace CommandWorker

open PaymentCommandService

def entry : CommandWorker → Bool
  | reserve _ => true
  | publish _ => true
  | _ => false

/-- `now` is the clock reading of a publication. -/
def act (db : CommandStore) (p : CommandWorker) (now : Instant) :
    Option (CommandStore × CommandWorker) :=
  match p with
  | reserve c =>
    if c.isBlank then
      some (db, raised c (.paymentScopeDenied
        "operation and canonical request identity are required"))
    else match commit (reserveNew c) db with
      | (.ok command, db') => some (db', returned c command.pk false)
      | (.error (.integrityError _), db') => some (db', recovering c)
      | (.error e, db') => some (db', raised c e)
  | recovering c =>
    match commit (recover c) db with
    | (.ok command, db') => some (db', returned c command.pk true)
    | (.error e, db') => some (db', raised c e)
  | publish outbox => some ((commit (PaymentCommandService.publish outbox now) db).2, done)
  | returned .. => none
  | raised .. => none
  | done => none
  | dead => none

end CommandWorker

/-- Any number of calls and publications; nothing was reserved before. -/
def commands : Program CommandStore CommandWorker Instant Empty where
  Init db := db = {}
  entry := CommandWorker.entry
  halted := .dead
  act := CommandWorker.act
  env _ x := x.elim

end Civicos.Payments
