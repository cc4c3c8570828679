import Civicos.Library.Replace
import Civicos.Payments.CommandOnce

/-!
# Delivered commands

A published outbox row is delivered to a consumer. The delivery is compared with the command, the
attempt, the execution intent and the payload that the row is bound to; the first delivery that
matches is written into the row, and a commit hook hands the attempt to the orchestration.
-/
namespace Civicos.Payments

open Library Library.Transaction

/-- The columns of an outbox row that the consumer writes. -/
structure Acknowledgement where
  acknowledgedAt : Instant
  acknowledgementToken : Option String
  acknowledgementResult : Option Json
deriving DecidableEq, Repr

structure DeliveryStore where
  bound : CommandStore := {}
  /-- The acknowledgements by outbox row; rows that are not listed have empty columns. -/
  acknowledgements : List (Uuid × Acknowledgement) := []
  /-- The commands, with their attempts, that have been handed to the orchestration. -/
  scheduled : List (Uuid × String) := []
deriving DecidableEq

inductive DeliveryError where
  | invalidPaymentCommandDelivery (message : String)
  | doesNotExist (model : String)
  | dataError (column : String)
  | valueError (message : String)
deriving DecidableEq, Repr

abbrev DeliveryTx := Transaction DeliveryError DeliveryStore

namespace DeliveryStore

def commandTable : Lens DeliveryStore (Table PaymentCommand.schema) where
  get s := s.bound.commands
  set t s := { s with bound := CommandStore.commandTable.set t s.bound }
  get_set _ _ := rfl
  set_get _ := rfl
  set_set _ _ _ := rfl

def outboxTable : Lens DeliveryStore (Table PaymentCommandOutbox.schema) where
  get s := s.bound.outboxes
  set t s := { s with bound := CommandStore.outboxTable.set t s.bound }
  get_set _ _ := rfl
  set_get _ := rfl
  set_set _ _ _ := rfl

end DeliveryStore

open DeliveryStore

/-! ## Deliveries -/

/-- The entries of a delivery that the consumer reads. -/
structure Delivery where
  commandId : Option String := none
  attemptId : Option String := none
  tenantId : Option String := none
  operation : Option String := none
  fingerprint : Option (Digest Json) := none
  acknowledgementToken : Option String := none
deriving DecidableEq, Repr

/-- `_text` of a string. -/
def textOf (value : Option String) : String := strip (value.getD "")

/-- `_text` of a hash. -/
def digestOf : Option (Digest Json) → Digest Json
  | some (.text s) => .text (strip s)
  | some (.sha256 payload) => .sha256 payload
  | none => .text ""

/-- `_text` of a payload entry; what `reserve` writes into a payload is text. -/
def entryOf (payload : Json) (key : String) : String :=
  match payload.lookup key with
  | some (.str s) => strip s
  | _ => ""

namespace Delivery

def isComplete (d : Delivery) : Bool :=
  textOf d.commandId ≠ "" ∧ textOf d.attemptId ≠ "" ∧ textOf d.tenantId ≠ "" ∧
    textOf d.operation ≠ "" ∧ digestOf d.fingerprint ≠ .text ""

/-- `generated` is the new token of a delivery that brings none. -/
def token (d : Delivery) (generated : Uuid) : String :=
  orElse (textOf d.acknowledgementToken) (toString generated)

/-- The first of the bindings that the delivery does not meet. -/
def refusal (d : Delivery) (s : CommandStore) (outbox : PaymentCommandOutbox)
    (command : PaymentCommand) : Option String :=
  if outbox.topic ≠ "payments.command.reserved" ∨ toString command.pk ≠ textOf d.commandId then
    some "topic or command identity mismatch"
  else match command.attempt.bind s.ledger.attempts.get with
  | none => some "attempt identity mismatch"
  | some attempt =>
    if toString attempt.pk ≠ textOf d.attemptId then some "attempt identity mismatch"
    else if command.tenantId ≠ textOf d.tenantId ∨ attempt.tenantId ≠ textOf d.tenantId then
      some "tenant mismatch"
    else if command.operation ≠ textOf d.operation ∨
        attempt.operation ≠ clip 30 (textOf d.operation) then
      some "operation mismatch"
    else if command.fingerprint ≠ digestOf d.fingerprint ∨
        attempt.payloadFingerprint ≠ digestOf d.fingerprint then
      some "fingerprint mismatch"
    else match s.ledger.intentOf attempt.pk with
    | none => some "execution intent mismatch"
    | some intent =>
      if intent.scope ≠ textOf d.tenantId ∨ intent.operation ≠ clip 30 (textOf d.operation) ∨
          intent.payloadFingerprint ≠ digestOf d.fingerprint then
        some "execution intent mismatch"
      else if entryOf outbox.payload "command_id" ≠ textOf d.commandId ∨
          entryOf outbox.payload "attempt_id" ≠ textOf d.attemptId ∨
          entryOf outbox.payload "operation" ≠ textOf d.operation then
        some "outbox payload mismatch"
      else none

/-- What an acknowledged delivery returns. -/
def result (d : Delivery) (token : String) : Json :=
  [("acknowledged", .bool true), ("scheduled", .bool true),
    ("attempt_id", .str (textOf d.attemptId)), ("acknowledgement_token", .str token)]

end Delivery

/-- What a delivery of an acknowledged row returns. -/
def storedResult (command : PaymentCommand) (a : Acknowledgement) : Json :=
  (a.acknowledgementResult.filter (· ≠ [])).getD
    [("acknowledged", .bool true), ("scheduled", .bool false),
      ("attempt_id", .str ((command.attempt.map toString).getD "None"))]

/-- `acknowledge_reserved_command`. The second component is the commit hook: the command and the
attempt to hand over. -/
def acknowledgeReservedCommand (outboxId : Uuid) (d : Delivery) (generated : Uuid) (now : Instant) :
    DeliveryTx (Json × Option (Uuid × String)) := do
  if ¬ d.isComplete then
    throw (.invalidPaymentCommandDelivery "complete delivery identity is required")
  let outbox ← lookup outboxTable (.doesNotExist "PaymentCommandOutbox") outboxId
  let command ← lookup commandTable (.doesNotExist "PaymentCommand") outbox.command
  let s ← get
  match s.acknowledgements.lookup outbox.pk with
  | some a => return (storedResult command a, none)
  | none =>
    match d.refusal s.bound outbox command with
    | some message => throw (.invalidPaymentCommandDelivery message)
    | none =>
      if 64 < (d.token generated).length then throw (.dataError "acknowledgement_token")
      let token := d.token generated
      let written : Acknowledgement := ⟨now, some token, some (d.result token)⟩
      set { s with acknowledgements := s.acknowledgements ++ [(outbox.pk, written)] }
      return (d.result token, some (command.pk, textOf d.attemptId))

/-- The delivery that `consume_bound_command_outbox_task` makes up from the stored rows, unless
the command has no attempt. -/
def boundDelivery (outboxId : Uuid) : DeliveryTx (Option Delivery) := do
  let outbox ← lookup outboxTable (.doesNotExist "PaymentCommandOutbox") outboxId
  let command ← lookup commandTable (.doesNotExist "PaymentCommand") outbox.command
  return command.attempt.map fun attempt =>
    { commandId := some (toString command.pk)
      attemptId := some (toString attempt)
      tenantId := some command.tenantId
      operation := some command.operation
      fingerprint := some command.fingerprint }

/-! ## Consumers -/

/-- Tasks, deliveries of any content and their commit hooks, next to the requests that reserve and
publish. -/
inductive DeliveryWorker where
  | task (outbox : Option Uuid)
  | deliver (outbox : Uuid) (d : Delivery)
  | scheduling (command : Uuid) (attempt : String) (result : Json)
  | returned (result : Json)
  | raised (e : DeliveryError)
  | request (w : CommandWorker)
  | dead
deriving DecidableEq

namespace DeliveryWorker

def entry : DeliveryWorker → Bool
  | task _ => true
  | deliver _ _ => true
  | request w => w.entry
  | _ => false

/-- `now` is the clock reading of a transaction and `generated` the token it may make up. -/
def act (db : DeliveryStore) (p : DeliveryWorker) (e : Instant × Uuid) :
    Option (DeliveryStore × DeliveryWorker) :=
  match p with
  | task none => some (db, raised (.valueError "bound payment outbox ID is required"))
  | task (some outbox) =>
    match (commit (boundDelivery outbox) db).1 with
    | .ok (some d) => some (db, deliver outbox d)
    | .ok none =>
      some (db, returned [("acknowledged", .bool false), ("reason", .str "missing_attempt")])
    | .error e => some (db, raised e)
  | deliver outbox d =>
    match commit (acknowledgeReservedCommand outbox d e.2 e.1) db with
    | (.ok (result, none), db') => some (db', returned result)
    | (.ok (result, some (command, attempt)), db') => some (db', scheduling command attempt result)
    | (.error e, db') => some (db', raised e)
  | scheduling command attempt result =>
    some ({ db with scheduled := db.scheduled ++ [(command, attempt)] }, returned result)
  | request w => (w.act db.bound e.1).map fun r => ({ db with bound := r.1 }, request r.2)
  | returned _ => none
  | raised _ => none
  | dead => none

end DeliveryWorker

/-- Any number of deliveries in any order. The ledger of attempts and intents is also written by
other transactions, which may do to it what they like. -/
def deliveries : Program DeliveryStore DeliveryWorker (Instant × Uuid) Ledger where
  Init db := db = {}
  entry := DeliveryWorker.entry
  halted := .dead
  act := DeliveryWorker.act
  env db ledger := some { db with bound := { db.bound with ledger } }

/-! ## What one delivery does -/

variable {s t : DeliveryStore} {d : Delivery} {outboxId generated command : Uuid} {now : Instant}

/-- The delivery names the rows that belong together, and agrees with all of them. -/
structure Delivery.Binds (d : Delivery) (s : CommandStore) (outbox : PaymentCommandOutbox)
    (command : PaymentCommand) (attempt : PaymentAttempt) (intent : PaymentExecutionIntent) :
    Prop where
  complete : d.isComplete = true
  reserved : outbox.topic = "payments.command.reserved"
  commandNamed : outbox.command = command.pk ∧ toString command.pk = textOf d.commandId
  attemptNamed : attempt ∈ s.ledger.attempts.rows ∧ command.attempt = some attempt.pk ∧
    toString attempt.pk = textOf d.attemptId
  tenantNamed : command.tenantId = textOf d.tenantId ∧ attempt.tenantId = textOf d.tenantId
  operationNamed : command.operation = textOf d.operation ∧
    attempt.operation = clip 30 (textOf d.operation)
  fingerprintNamed : command.fingerprint = digestOf d.fingerprint ∧
    attempt.payloadFingerprint = digestOf d.fingerprint
  intentBound : intent ∈ s.ledger.intents.rows ∧ intent.attempt = attempt.pk ∧
    intent.scope = textOf d.tenantId ∧ intent.operation = clip 30 (textOf d.operation) ∧
    intent.payloadFingerprint = digestOf d.fingerprint
  payloadBound : entryOf outbox.payload "command_id" = textOf d.commandId ∧
    entryOf outbox.payload "attempt_id" = textOf d.attemptId ∧
    entryOf outbox.payload "operation" = textOf d.operation

/-- The delivery matches the stored rows. -/
def Delivery.Matches (d : Delivery) (s : CommandStore) (outboxId : Uuid) : Prop :=
  ∃ outbox ∈ s.outboxes.rows, outbox.pk = outboxId ∧
    ∃ command ∈ s.commands.rows, ∃ attempt intent, d.Binds s outbox command attempt intent

/-- A check that has not refused. -/
theorem passed {α : Type} {c : Prop} [Decidable c] {a : α} {rest : Option α}
    (h : (if c then some a else rest) = none) : ¬ c ∧ rest = none := by
  by_cases hc : c
  · rw [if_pos hc] at h
    cases h
  · exact ⟨hc, (if_neg hc).symm.trans h⟩

theorem Delivery.binds_of_refusal {s : CommandStore} {outbox : PaymentCommandOutbox}
    {command : PaymentCommand} (hcomplete : d.isComplete = true)
    (hcommand : outbox.command = command.pk) (h : d.refusal s outbox command = none) :
    ∃ attempt intent, d.Binds s outbox command attempt intent := by
  obtain ⟨htopic, h₁⟩ := passed h
  cases hattempt : command.attempt.bind s.ledger.attempts.get with
  | none => simp [hattempt] at h₁
  | some attempt =>
    simp only [hattempt] at h₁
    obtain ⟨hid, h₂⟩ := passed h₁
    obtain ⟨htenant, h₃⟩ := passed h₂
    obtain ⟨hoperation, h₄⟩ := passed h₃
    obtain ⟨hfingerprint, h₅⟩ := passed h₄
    cases hintent : s.ledger.intentOf attempt.pk with
    | none => simp [hintent] at h₅
    | some intent =>
      simp only [hintent] at h₅
      obtain ⟨hbinding, h₆⟩ := passed h₅
      obtain ⟨hpayload, -⟩ := passed h₆
      obtain ⟨pk, hpk, hget⟩ := Option.bind_eq_some_iff.mp hattempt
      obtain ⟨hmem, rfl⟩ := Table.get_eq_some.mp hget
      simp only [not_or, not_not] at htopic hid htenant hoperation hfingerprint hbinding hpayload
      exact ⟨attempt, intent, hcomplete, htopic.1, ⟨hcommand, htopic.2⟩, ⟨hmem, hpk, hid⟩, htenant,
        hoperation, hfingerprint, ⟨List.mem_of_find?_eq_some hintent,
        by simpa using List.find?_some hintent, hbinding⟩, hpayload⟩

/-- A delivery that is answered either changes nothing, or it matches the rows and is the first one
that is written into the outbox row. -/
theorem acknowledge_ok {r : Json × Option (Uuid × String)}
    (h : acknowledgeReservedCommand outboxId d generated now s = .ok (r, t)) :
    r.2 = none ∧ t = s ∨
    d.Matches s.bound outboxId ∧ ∃ outbox ∈ s.bound.outboxes.rows, ∃ a,
      r.2 = some (outbox.command, textOf d.attemptId) ∧
      s.acknowledgements.lookup outbox.pk = none ∧
      t = { s with acknowledgements := s.acknowledgements ++ [(outbox.pk, a)] } := by
  unfold acknowledgeReservedCommand at h
  obtain ⟨hcomplete, h₁⟩ := guard_ok h
  obtain ⟨outbox, hget, h₂⟩ := lookup_bind.mp h₁
  obtain ⟨houtbox, hpk⟩ := Table.get_eq_some.mp hget
  obtain ⟨command, hget, h₃⟩ := lookup_bind.mp h₂
  obtain ⟨hcommand, hcommandpk⟩ := Table.get_eq_some.mp hget
  obtain ⟨_, _, ⟨⟩, h₄⟩ := bind_ok.mp h₃
  cases hstored : s.acknowledgements.lookup outbox.pk with
  | some a =>
    simp only [hstored] at h₄
    obtain ⟨rfl, rfl⟩ := pure_ok.mp h₄
    exact .inl ⟨rfl, rfl⟩
  | none =>
    simp only [hstored] at h₄
    cases hrefusal : d.refusal s.bound outbox command with
    | some message => simp [hrefusal] at h₄
    | none =>
      simp only [hrefusal] at h₄
      obtain ⟨-, h₅⟩ := guard_ok h₄
      obtain ⟨_, _, ⟨⟩, h₆⟩ := bind_ok.mp h₅
      obtain ⟨rfl, rfl⟩ := pure_ok.mp h₆
      obtain ⟨attempt, intent, hbinds⟩ :=
        Delivery.binds_of_refusal (not_not.mp hcomplete) hcommandpk.symm hrefusal
      exact .inr ⟨⟨outbox, houtbox, hpk, command, hcommand, attempt, intent, hbinds⟩,
        outbox, houtbox,
        _, by rw [← hcommandpk]; rfl, hstored, rfl⟩

/-! ## Runs -/

/-- Outbox rows stay, with their commands. -/
def CommandStore.KeepsOutboxes (s t : CommandStore) : Prop :=
  ∀ o ∈ s.outboxes.rows, ∃ p ∈ t.outboxes.rows, p.pk = o.pk ∧ p.command = o.command

instance : Std.Refl CommandStore.KeepsOutboxes := ⟨fun _ o ho => ⟨o, ho, rfl, rfl⟩⟩

theorem publish_keepsOutboxes (outbox : Uuid) (now : Instant) :
    Within CommandStore.KeepsOutboxes (PaymentCommandService.publish outbox now) := by
  intro s u t h
  obtain ⟨o, -, h₁⟩ := lookup_bind.mp h
  obtain ⟨y, -, h₂⟩ := lookup_bind.mp h₁
  obtain ⟨_, _, ⟨⟩, h₃⟩ := bind_ok.mp h₂
  split at h₃
  · obtain ⟨_, _, houtbox, h₄⟩ := bind_ok.mp h₃
    obtain ⟨T, hT, rfl⟩ := write_ok.mp houtbox
    obtain ⟨T', hT', rfl⟩ := write_ok.mp h₄
    have hsame : T.rows.map (fun o => (o.pk, o.command)) =
        s.outboxes.rows.map fun o => (o.pk, o.command) := Table.map_update hT fun _ => rfl
    intro o ho
    obtain ⟨p, hp, hcolumns⟩ := List.mem_map.mp (hsame ▸ List.mem_map_of_mem ho)
    exact ⟨p, hp, congrArg Prod.fst hcolumns, congrArg Prod.snd hcolumns⟩
  · obtain ⟨-, rfl⟩ := pure_ok.mp h₃
    exact Std.Refl.refl _

theorem reserveNew_keepsOutboxes (c : ReserveCall) :
    Within CommandStore.KeepsOutboxes (PaymentCommandService.reserveNew c) := by
  intro s x t h
  obtain ⟨a, i, o, -, -, -, houtboxes⟩ := (reserveNew_ok h).chain
  exact fun p hp => ⟨p, (houtboxes p).mpr (.inl hp), rfl, rfl⟩

theorem recover_keepsOutboxes (c : ReserveCall) :
    Within CommandStore.KeepsOutboxes (PaymentCommandService.recover c) := by
  intro s x t h
  obtain ⟨_, _, ⟨⟩, h₁⟩ := bind_ok.mp h
  cases hfound : s.commandFor c.identity with
  | none =>
    simp only [hfound] at h₁
    cases h₁
  | some command =>
    simp only [hfound] at h₁
    obtain ⟨-, h₂⟩ := guard_ok h₁
    obtain ⟨-, h₃⟩ := guard_ok h₂
    obtain ⟨-, rfl⟩ := pure_ok.mp h₃
    exact Std.Refl.refl _

theorem CommandWorker.act_keepsOutboxes {s t : CommandStore} {p q : CommandWorker}
    (h : p.act s now = some (t, q)) : s.KeepsOutboxes t := by
  have hrefl : s.KeepsOutboxes s := Std.Refl.refl s
  cases p with
  | reserve c =>
    have hkeeps := (reserveNew_keepsOutboxes c).commit s
    simp only [CommandWorker.act] at h
    split at h
    · cases h
      exact hrefl
    · split at h <;> cases h <;> simp_all
  | recovering c =>
    have hkeeps := (recover_keepsOutboxes c).commit s
    simp only [CommandWorker.act] at h
    split at h <;> cases h <;> simp_all
  | publish outbox =>
    obtain ⟨rfl, rfl⟩ := Prod.mk.inj (Option.some.inj h)
    exact (publish_keepsOutboxes outbox now).commit s
  | returned => cases h
  | raised => cases h
  | done => cases h
  | dead => cases h

/-- An outbox row of the command has been acknowledged. -/
def DeliveryStore.Acknowledged (db : DeliveryStore) (command : Uuid) : Prop :=
  ∃ o ∈ db.bound.outboxes.rows, o.command = command ∧
    (db.acknowledgements.lookup o.pk).isSome = true

theorem DeliveryStore.Acknowledged.of_keepsOutboxes {bound : CommandStore}
    (h : s.Acknowledged command)
    (hkeeps : s.bound.KeepsOutboxes bound) :
    DeliveryStore.Acknowledged { s with bound } command := by
  obtain ⟨o, ho, hcommand, hsome⟩ := h
  obtain ⟨p, hp, hpk, hpcommand⟩ := hkeeps o ho
  exact ⟨p, hp, hpcommand.trans hcommand, hpk ▸ hsome⟩

theorem DeliveryStore.Acknowledged.append {new : List (Uuid × Acknowledgement)}
    (h : s.Acknowledged command) :
    DeliveryStore.Acknowledged { s with acknowledgements := s.acknowledgements ++ new }
      command := by
  obtain ⟨o, ho, hcommand, hsome⟩ := h
  refine ⟨o, ho, hcommand, ?_⟩
  simp [List.lookup_append, hsome]

/-- A command has one outbox row, so that no other row of it can have been acknowledged. -/
theorem not_acknowledged {o : PaymentCommandOutbox} (ho : o ∈ s.bound.outboxes.rows)
    (h : s.acknowledgements.lookup o.pk = none) : ¬ s.Acknowledged o.command := by
  rintro ⟨p, hp, hcommand, hsome⟩
  have hclash : PaymentCommandOutbox.commandKey.Clash p o :=
    ⟨Option.some_ne_none _, congrArg some hcommand⟩
  obtain rfl : p = o := Table.eq_of_clash (by simp [PaymentCommandOutbox.schema]) hp ho hclash
  rw [h] at hsome
  cases hsome

open Classical in
/-- The handoffs of a command that its outbox row admits. -/
noncomputable def DeliveryStore.admitted (command : Uuid) (db : DeliveryStore) : ℤ :=
  if db.Acknowledged command then 1 else 0

def DeliveryStore.handed (command : Uuid) (db : DeliveryStore) : ℤ :=
  (db.scheduled.map Prod.fst).count command

/-- The handoffs of a command that a worker is about to make. -/
def DeliveryWorker.hands (command : Uuid) : DeliveryWorker → ℤ
  | scheduling c _ _ => if c = command then 1 else 0
  | _ => 0

theorem DeliveryWorker.hands_nonneg (p : DeliveryWorker) : 0 ≤ p.hands command := by
  unfold hands
  split
  · split <;> decide
  · exact le_rfl

theorem admitted_mono (h : s.Acknowledged command → t.Acknowledged command) :
    s.admitted command ≤ t.admitted command := by
  unfold DeliveryStore.admitted
  by_cases hs : s.Acknowledged command
  · rw [if_pos hs, if_pos (h hs)]
  · rw [if_neg hs]
    split <;> decide

theorem act_admitted {p q : DeliveryWorker} {e : Instant × Uuid} (h : p.act s e = some (t, q)) :
    q.hands command + t.handed command + s.admitted command ≤
      p.hands command + s.handed command + t.admitted command := by
  cases p with
  | task outbox =>
    cases outbox with
    | none =>
      cases h
      exact le_rfl
    | some outbox =>
      simp only [DeliveryWorker.act] at h
      split at h <;> cases h <;> exact le_rfl
  | deliver outbox d =>
    simp only [DeliveryWorker.act] at h
    cases hrun : acknowledgeReservedCommand outbox d e.2 e.1 s with
    | error e =>
      rw [commit_of_error hrun] at h
      cases h
      exact le_rfl
    | ok r =>
      rw [commit_of_ok (a := r.1) (t := r.2) hrun] at h
      obtain ⟨⟨result, hook⟩, w⟩ := r
      obtain ⟨rfl, rfl⟩ | ⟨-, o, ho, a, rfl, hfresh, rfl⟩ := acknowledge_ok hrun
      · cases h
        exact le_rfl
      · cases h
        -- the first acknowledgement of the only row of this command admits its handoff
        have hmono : s.admitted command ≤ DeliveryStore.admitted command { s with
            acknowledgements := s.acknowledgements ++ [(o.pk, a)] } :=
          admitted_mono fun hs => hs.append
        by_cases hcommand : o.command = command
        · subst hcommand
          have hnew : DeliveryStore.Acknowledged { s with
              acknowledgements := s.acknowledgements ++ [(o.pk, a)] } o.command :=
            ⟨o, ho, rfl, by simp [List.lookup_append, hfresh]⟩
          simp only [DeliveryWorker.hands, DeliveryStore.admitted,
            DeliveryStore.handed, if_pos hnew,
            if_neg (not_acknowledged ho hfresh), ↓reduceIte]
          omega
        · simp only [DeliveryWorker.hands, if_neg hcommand]
          exact Int.add_le_add_left hmono _
  | scheduling c attempt result =>
    cases h
    have hcount : DeliveryStore.handed command
        { s with scheduled := s.scheduled ++ [(c, attempt)] } =
        s.handed command + if c = command then 1 else 0 := by
      simp [DeliveryStore.handed, List.count_singleton]
    simp only [DeliveryWorker.hands, hcount]
    exact Int.add_le_add_right (by omega) _
  | request w =>
    obtain ⟨r, hr, hmk⟩ := Option.map_eq_some_iff.mp h
    obtain ⟨rfl, rfl⟩ := Prod.mk.inj hmk
    have hmono : s.admitted command ≤ DeliveryStore.admitted command { s with bound := r.1 } :=
      admitted_mono fun hs => hs.of_keepsOutboxes (CommandWorker.act_keepsOutboxes hr)
    exact Int.add_le_add_left hmono _
  | returned => cases h
  | raised => cases h
  | dead => cases h

theorem handed_once {s : Pool.State DeliveryStore DeliveryWorker}
    (h : deliveries.machine.Reachable s) :
    (s.workers.map (DeliveryWorker.hands command)).sum + s.store.handed command ≤
      s.store.admitted command := by
  refine Program.covered (P := deliveries) (DeliveryWorker.hands command)
    (DeliveryStore.handed command) (DeliveryStore.admitted command) ?_ ?_ rfl
    DeliveryWorker.hands_nonneg ?_ ?_ h
  · rintro st rfl
    have hnone : DeliveryStore.handed command {} = 0 := rfl
    unfold DeliveryStore.admitted
    split <;> omega
  · intro p hp
    cases p <;> first | rfl | cases hp
  · intro u i p e st q _ _ hact
    exact act_admitted hact
  · intro u ledger st _ henv
    obtain rfl := Option.some.inj henv
    exact Int.add_le_add_left (admitted_mono id) _

/-- A command is handed to the orchestration at most once, and a delivery that does not match the
stored rows changes nothing and hands nothing over. -/
theorem scheduled_once {s : Pool.State DeliveryStore DeliveryWorker}
    (h : deliveries.machine.Reachable s) :
    (∀ command, (s.store.scheduled.map Prod.fst).count command ≤ 1) ∧
    ∀ i e t outbox d, s.workers[i]? = some (.deliver outbox d) →
      ¬ d.Matches s.store.bound outbox → deliveries.machine.step s (.act i e) = some t →
      t.store = s.store ∧ ∀ command attempt result,
        t.workers[i]? ≠ some (.scheduling command attempt result) := by
  refine ⟨fun command => ?_, fun i e t outbox d hi hmismatch hstep => ?_⟩
  · have honce : (s.workers.map (DeliveryWorker.hands command)).sum + s.store.handed command ≤
        s.store.admitted command := handed_once h
    have hhands : 0 ≤ (s.workers.map (DeliveryWorker.hands command)).sum := by
      refine List.sum_nonneg fun n hn => ?_
      obtain ⟨p, -, rfl⟩ := List.mem_map.mp hn
      exact DeliveryWorker.hands_nonneg p
    have hle : s.store.admitted command ≤ 1 := by
      unfold DeliveryStore.admitted
      split <;> decide
    unfold DeliveryStore.handed at honce
    omega
  · obtain ⟨st, q, hact, rfl, hq⟩ := Program.step_act hi hstep
    rw [hq]
    simp only [deliveries, DeliveryWorker.act] at hact
    cases hrun : acknowledgeReservedCommand outbox d e.2 e.1 s.store with
    | error e =>
      rw [commit_of_error hrun] at hact
      obtain ⟨hstore, rfl⟩ := Prod.mk.inj (Option.some.inj hact)
      exact ⟨hstore.symm, by simp⟩
    | ok r =>
      obtain ⟨⟨result, hook⟩, w⟩ := r
      rw [commit_of_ok hrun] at hact
      obtain ⟨rfl, rfl⟩ | ⟨hmatches, -⟩ := acknowledge_ok hrun
      · obtain ⟨hstore, rfl⟩ := Prod.mk.inj (Option.some.inj hact)
        exact ⟨hstore.symm, by simp⟩
      · exact absurd hmatches hmismatch

/-- A delivery of the first transfer in the name of another tenant. -/
def elsewhere : Delivery where
  commandId := some "1"
  attemptId := some "1"
  tenantId := some "other"
  operation := some "transfer"
  fingerprint := some (.sha256 (transferTo "r").payload)

/-- The only command of a run, delivered twice by the task and once for another tenant. -/
def deliveredTwice : Pool.State DeliveryStore DeliveryWorker :=
  deliveries.machine.final ⟨{}, []⟩ [
    .spawn (.request (.reserve (transferTo "r"))), .act 0 (0, 0),
    .spawn (.task (some 1)), .act 1 (5, 0), .act 1 (5, 77), .act 1 (5, 0),
    .spawn (.task (some 1)), .act 2 (6, 0), .act 2 (6, 78), .spawn (.deliver 1 elsewhere)]

theorem elsewhere_mismatch : ¬ elsewhere.Matches deliveredTwice.store.bound 1 := by
  rintro ⟨outbox, -, -, command, hcommand, attempt, intent, hbinds⟩
  have htenant : ∀ c ∈ deliveredTwice.store.bound.commands.rows,
      c.tenantId ≠ textOf elsewhere.tenantId := by decide +kernel
  exact htenant command hcommand hbinds.tenantNamed.1

theorem deliveredTwice_scheduled_once :
    deliveredTwice.store.scheduled = [(1, "1")] ∧
      (deliveredTwice.store.scheduled.map Prod.fst).count 1 ≤ 1 ∧
      (deliveries.machine.final deliveredTwice [.act 3 (7, 79)]).store = deliveredTwice.store := by
  have hreachable : deliveries.machine.Reachable deliveredTwice :=
    Machine.Reachable.final (M := deliveries.machine) (s := ⟨{}, []⟩) ⟨rfl, rfl⟩ _
  have honce := scheduled_once hreachable
  exact ⟨by decide +kernel, honce.1 1, (honce.2 3 (7, 79) _ 1 elsewhere (by decide +kernel)
    elsewhere_mismatch rfl).1⟩

end Civicos.Payments
