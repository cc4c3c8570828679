import Civicos.Payments.Attempts
import Civicos.Payments.Command

/-!
# Reserving a command once

A command identity passes to its attempt cut to 30 and 100 characters. As long as no two
identities of a tenant agree only after the cut, every identity gets one command with one
attempt, one intent and one outbox row, whatever the order of the calls.
-/
namespace Civicos.Payments

open Library Library.Transaction

namespace PaymentExecutionIntent

def scopeKey (i : PaymentExecutionIntent) : String × String × String :=
  (i.scope, i.operation, i.requestIdentity)

end PaymentExecutionIntent

namespace PaymentCommand

/-- The columns that are fixed when the row is reserved. -/
def core (c : PaymentCommand) :
    Uuid × (String × String × String) × Digest Json × Json × Option Uuid :=
  (c.pk, c.identity, c.fingerprint, c.payload, c.attempt)

end PaymentCommand

namespace ReserveCall

def FitsColumns (c : ReserveCall) : Prop :=
  c.tenantId.length ≤ 100 ∧ c.callerBbId.length ≤ 20 ∧
    (strip c.operation).length ≤ 64 ∧ (strip c.requestIdentity).length ≤ 255

/-- The call has an identity and fits the columns of the command table. -/
def Fits (c : ReserveCall) : Prop := c.isBlank = false ∧ c.FitsColumns

instance (c : ReserveCall) : Decidable c.Fits :=
  inferInstanceAs (Decidable (_ ∧ _ ∧ _ ∧ _ ∧ _))

end ReserveCall

namespace CommandStore

variable {s t : CommandStore} {c : ReserveCall}

/-- The attempt, the intent and the outbox row of a command. -/
structure Chain (s : CommandStore) (c : PaymentCommand) (a : PaymentAttempt)
    (i : PaymentExecutionIntent) (o : PaymentCommandOutbox) : Prop where
  attempt : a ∈ s.ledger.attempts.rows ∧ c.attempt = some a.pk
  command : a.submissionIntent = .command c.pk
  scopeKey : a.scopeKey = cut c.identity
  intent : i ∈ s.ledger.intents.rows ∧ i.attempt = a.pk ∧ i.scopeKey = a.scopeKey
  outbox : o ∈ s.outboxes.rows ∧ o.command = c.pk

/-- Commands have whole chains, and no row stands outside of a chain. -/
structure Linked (s : CommandStore) : Prop where
  digest : ∀ c ∈ s.commands.rows, c.fingerprint = .sha256 c.payload
  chain : ∀ c ∈ s.commands.rows, ∃ a i o, s.Chain c a i o
  attempts : ∀ a ∈ s.ledger.attempts.rows, ∃ c ∈ s.commands.rows, c.attempt = some a.pk
  intents : ∀ i ∈ s.ledger.intents.rows, ∃ a ∈ s.ledger.attempts.rows,
    i.attempt = a.pk ∧ i.scopeKey = a.scopeKey
  outboxes : ∀ o ∈ s.outboxes.rows, ∃ c ∈ s.commands.rows, o.command = c.pk

/-- No command has another identity that is cut to the same one. -/
def Separate (s : CommandStore) (identity : String × String × String) : Prop :=
  ∀ x ∈ s.commands.rows, cut x.identity = cut identity → x.identity = identity

instance (s : CommandStore) (identity : String × String × String) :
    Decidable (s.Separate identity) :=
  inferInstanceAs (Decidable (∀ _ ∈ _, _))

/-- A reservation: one row more in each table. -/
structure Reserves (s : CommandStore) (c : ReserveCall) (x : PaymentCommand) (t : CommandStore) :
    Prop where
  identity : x.identity = c.identity
  payload : x.payload = c.payload
  digest : x.fingerprint = .sha256 x.payload
  fresh : ∀ y ∈ s.commands.rows, y.pk ≠ x.pk
  commands : ∀ y, y ∈ t.commands.rows ↔ y ∈ s.commands.rows ∨ y = x
  chain : ∃ a i o, t.Chain x a i o ∧
    (∀ b, b ∈ t.ledger.attempts.rows ↔ b ∈ s.ledger.attempts.rows ∨ b = a) ∧
    (∀ j, j ∈ t.ledger.intents.rows ↔ j ∈ s.ledger.intents.rows ∨ j = i) ∧
    (∀ p, p ∈ t.outboxes.rows ↔ p ∈ s.outboxes.rows ∨ p = o)

theorem commandFor_eq_some {identity : String × String × String} {x : PaymentCommand} :
    s.commandFor identity = some x ↔ x ∈ s.commands.rows ∧ x.identity = identity := by
  have h := Table.find?_eq_some (t := s.commands) (r := x) (i := PaymentCommand.identityKey)
    (p := fun y => y.identity = identity) (by simp [PaymentCommand.schema]) identity
    (fun _ => decide_eq_true_iff.trans Option.some_inj.symm)
  rw [commandFor, h]
  exact and_congr_right fun _ => Option.some_inj

theorem eq_of_identity {x y : PaymentCommand} (hx : x ∈ s.commands.rows) (hy : y ∈ s.commands.rows)
    (h : x.identity = y.identity) : x = y := by
  have hfind := commandFor_eq_some.mpr ⟨hx, h⟩
  rw [commandFor_eq_some.mpr ⟨hy, rfl⟩] at hfind
  exact (Option.some.inj hfind).symm

namespace Linked

theorem of_reserves {x : PaymentCommand} (hs : s.Linked) (h : s.Reserves c x t) : t.Linked := by
  obtain ⟨a, i, o, hchain, hattempts, hintents, houtboxes⟩ := h.chain
  have hx : x ∈ t.commands.rows := (h.commands x).mpr (.inr rfl)
  refine ⟨fun y hy => ?_, fun y hy => ?_, fun b hb => ?_, fun j hj => ?_, fun p hp => ?_⟩
  · rcases (h.commands y).mp hy with hy | rfl
    · exact hs.digest y hy
    · exact h.digest
  · rcases (h.commands y).mp hy with hy | rfl
    · obtain ⟨b, j, p, hb⟩ := hs.chain y hy
      exact ⟨b, j, p, ⟨(hattempts b).mpr (.inl hb.attempt.1), hb.attempt.2⟩,
        hb.command, hb.scopeKey,
        ⟨(hintents j).mpr (.inl hb.intent.1), hb.intent.2⟩,
        ⟨(houtboxes p).mpr (.inl hb.outbox.1), hb.outbox.2⟩⟩
    · exact ⟨a, i, o, hchain⟩
  · rcases (hattempts b).mp hb with hb | rfl
    · obtain ⟨y, hy, hyb⟩ := hs.attempts b hb
      exact ⟨y, (h.commands y).mpr (.inl hy), hyb⟩
    · exact ⟨x, hx, hchain.attempt.2⟩
  · rcases (hintents j).mp hj with hj | rfl
    · obtain ⟨b, hb, hjb⟩ := hs.intents j hj
      exact ⟨b, (hattempts b).mpr (.inl hb), hjb⟩
    · exact ⟨a, hchain.attempt.1, hchain.intent.2⟩
  · rcases (houtboxes p).mp hp with hp | rfl
    · obtain ⟨y, hy, hyp⟩ := hs.outboxes p hp
      exact ⟨y, (h.commands y).mpr (.inl hy), hyp⟩
    · exact ⟨x, hx, hchain.outbox.2⟩

theorem of_scopeKey (hs : s.Linked) {b : PaymentAttempt} (hb : b ∈ s.ledger.attempts.rows) :
    ∃ y ∈ s.commands.rows, cut y.identity = b.scopeKey := by
  obtain ⟨y, hy, hyb⟩ := hs.attempts b hb
  obtain ⟨b', _, _, hchain⟩ := hs.chain y hy
  have hbb : b' = b := Table.eq_of_pk hchain.attempt.1 hb
    (Option.some.inj (hchain.attempt.2.symm.trans hyb))
  exact ⟨y, hy, hbb ▸ hchain.scopeKey.symm⟩

/-- Nothing else claims the rows of a chain. -/
theorem only {x : PaymentCommand} {a : PaymentAttempt} {i : PaymentExecutionIntent}
    {o : PaymentCommandOutbox} (hs : s.Linked) (hx : x ∈ s.commands.rows) (h : s.Chain x a i o) :
    (∀ b ∈ s.ledger.attempts.rows, b.submissionIntent = .command x.pk → b = a) ∧
      (∀ j ∈ s.ledger.intents.rows, j.attempt = a.pk → j = i) ∧
      ∀ p ∈ s.outboxes.rows, p.command = x.pk → p = o := by
  refine ⟨fun b hb hbx => ?_, fun j hj hja => ?_, fun p hp hpx => ?_⟩
  · obtain ⟨y, hy, hyb⟩ := hs.attempts b hb
    obtain ⟨b', _, _, hchain⟩ := hs.chain y hy
    have hbb : b' = b := Table.eq_of_pk hchain.attempt.1 hb
      (Option.some.inj (hchain.attempt.2.symm.trans hyb))
    subst hbb
    have hyx : y = x := by
      have hpk := hchain.command.symm.trans hbx
      exact Table.eq_of_pk hy hx (by simpa [PaymentCommand.schema] using hpk)
    subst hyx
    exact Table.eq_of_pk hb h.attempt.1 (Option.some.inj (hyb.symm.trans h.attempt.2))
  · exact Table.eq_of_clash (i := PaymentExecutionIntent.oneToOne)
      (by simp [PaymentExecutionIntent.schema])
      hj h.intent.1 ⟨by simp [PaymentExecutionIntent.oneToOne], by
        simp [PaymentExecutionIntent.oneToOne, hja, h.intent.2.1]⟩
  · exact Table.eq_of_clash (i := PaymentCommandOutbox.commandKey)
      (by simp [PaymentCommandOutbox.schema])
      hp h.outbox.1 ⟨by simp [PaymentCommandOutbox.commandKey], by
        simp [PaymentCommandOutbox.commandKey, hpx, h.outbox.2]⟩

end Linked

end CommandStore

open CommandStore PaymentCommandService

variable {s t : CommandStore} {c : ReserveCall} {x : PaymentCommand} {e : PaymentError}

/-! ## One reservation -/

theorem reserveAttempt_ok {l l' : Ledger} {tenantId callerBbId operation requestIdentity : String}
    {payload : Json} {command : Uuid} {a : PaymentAttempt}
    (h : reserveAttempt tenantId callerBbId operation requestIdentity payload command l =
      .ok (a, l')) :
    a.submissionIntent = .command command ∧
      a.scopeKey = (tenantId, clip 30 operation, clip 100 requestIdentity) ∧
      (∀ b, b ∈ l'.attempts.rows ↔ b ∈ l.attempts.rows ∨ b = a) ∧
      ∃ i : PaymentExecutionIntent, i.attempt = a.pk ∧ i.scopeKey = a.scopeKey ∧
        ∀ j, j ∈ l'.intents.rows ↔ j ∈ l.intents.rows ∨ j = i := by
  obtain ⟨a', l₁, hattempt, h₁⟩ := bind_ok.mp h
  obtain ⟨i, l₂, hintent, h₂⟩ := bind_ok.mp h₁
  obtain ⟨rfl, rfl⟩ := pure_ok.mp h₂
  obtain ⟨rfl, T, hT, rfl⟩ := create_ok.mp hattempt
  obtain ⟨rfl, T', hT', rfl⟩ := create_ok.mp hintent
  exact ⟨rfl, rfl, fun _ => Table.mem_insert hT, _, rfl, rfl, fun _ => Table.mem_insert hT'⟩

theorem reserveNew_ok (h : reserveNew c s = .ok (x, t)) : s.Reserves c x t := by
  obtain ⟨x₀, s₁, hcommand, h₁⟩ := bind_ok.mp h
  obtain ⟨a, s₂, hattempt, h₂⟩ := bind_ok.mp h₁
  obtain ⟨_, s₃, hwrite, h₃⟩ := bind_ok.mp h₂
  obtain ⟨o, s₄, houtbox, h₄⟩ := bind_ok.mp h₃
  obtain ⟨rfl, rfl⟩ := pure_ok.mp h₄
  obtain ⟨hx₀, T, hT, rfl⟩ := create_ok.mp hcommand
  obtain ⟨l, hledger, rfl⟩ := zoom_ok.mp hattempt
  obtain ⟨T', hT', rfl⟩ := write_ok.mp hwrite
  obtain ⟨rfl, T'', hT'', rfl⟩ := create_ok.mp houtbox
  obtain ⟨hintent, hscope, hattempts, i, hi, hiscope, hintents⟩ := reserveAttempt_ok hledger
  have hT' : T.update x₀.pk (fun row => { row with attempt := some a.pk }) = .ok T' := hT'
  have hget : T.get x₀.pk = some x₀ :=
    Table.get_eq_some.mpr ⟨(Table.mem_insert hT).mpr (.inr rfl), rfl⟩
  have hfresh : ∀ y ∈ s.commands.rows, y.pk ≠ x₀.pk := fun y hy =>
    ((Table.insert_ok.mp hT).1.2 y hy).1
  have hcommands : ∀ y, y ∈ T'.rows ↔
      y ∈ s.commands.rows ∨ y = { x₀ with attempt := some a.pk } := by
    intro y
    rw [Table.mem_update hT' hget, Table.mem_insert hT]
    constructor
    · rintro (⟨hy | rfl, hne⟩ | rfl)
      · exact .inl hy
      · exact absurd rfl hne
      · exact .inr rfl
    · rintro (hy | rfl)
      · exact .inl ⟨.inl hy, hfresh y hy⟩
      · exact .inr rfl
  subst hx₀
  refine ⟨rfl, rfl, rfl, hfresh, hcommands, a, i, _, ⟨⟨(hattempts a).mpr (.inr rfl), rfl⟩, hintent,
    hscope, ⟨(hintents i).mpr (.inr rfl), hi, hiscope⟩,
      (Table.mem_insert hT'').mpr (.inr rfl), rfl⟩,
    hattempts, hintents, fun _ => Table.mem_insert hT''⟩

theorem valid_command : PaymentCommand.schema.Valid x ↔ x.tenantId.length ≤ 100 ∧
    x.callerBbId.length ≤ 20 ∧ x.operation.length ≤ 64 ∧ x.requestIdentity.length ≤ 255 := by
  simp [Schema.Valid, PaymentCommand.schema, Check.width]

theorem reserveAttempt_error {tenantId callerBbId operation requestIdentity : String}
    {payload : Json} {command : Uuid} (hs : s.Linked) (htenant : tenantId.length ≤ 100)
    (hcaller : callerBbId.length ≤ 20)
    (h : reserveAttempt tenantId callerBbId operation requestIdentity payload command s.ledger =
      .error e) :
    ∃ n, e = .integrityError n ∧ ∃ y ∈ s.commands.rows,
      cut y.identity = (tenantId, clip 30 operation, clip 100 requestIdentity) := by
  have hoperation := length_clip_le 30 operation
  have hrequest := length_clip_le 100 requestIdentity
  obtain h₁ | ⟨a, l₁, hattempt, h₁⟩ := bind_error.mp h
  · obtain ⟨i, hi, rfl, b, hb, hclash⟩ := create_clash h₁ (by
      simp [Schema.Valid, PaymentAttempt.schema, Check.width]
      omega) rfl
    obtain rfl : i = PaymentAttempt.scopeRequest := List.mem_singleton.mp hi
    obtain ⟨y, hy, hcut⟩ := hs.of_scopeKey hb
    exact ⟨_, rfl, y, hy, hcut.trans (Option.some.inj hclash.2)⟩
  obtain h₂ | ⟨i, l₂, hintent, h₂⟩ := bind_error.mp h₁
  · obtain ⟨hnew, T, hT, rfl⟩ := create_ok.mp hattempt
    obtain ⟨k, hk, rfl, j, hj, hclash⟩ := create_clash h₂ (by
      simp [Schema.Valid, PaymentExecutionIntent.schema, Check.width]
      omega) rfl
    obtain ⟨b, hb, hjb, hjscope⟩ := hs.intents j hj
    refine ⟨_, rfl, ?_⟩
    rcases List.mem_cons.mp hk with rfl | hk
    · have hpk : b.pk = a.pk := hjb.symm.trans (Option.some.inj hclash.2)
      have hlt := Table.lt_next hb
      rw [hnew] at hpk
      exact absurd hpk (Nat.ne_of_lt hlt)
    · obtain rfl := List.mem_singleton.mp hk
      obtain ⟨y, hy, hcut⟩ := hs.of_scopeKey hb
      exact ⟨y, hy, (hcut.trans hjscope.symm).trans (Option.some.inj hclash.2)⟩
  · cases h₂

/-- A savepoint that fails: the call does not fit, or an identity that is cut to the same one is
already there. -/
theorem reserveNew_error (hs : s.Linked) (h : reserveNew c s = .error e) :
    (∃ column, e = .dataError column ∧ ¬ c.FitsColumns) ∨
      (c.FitsColumns ∧ ∃ n, e = .integrityError n ∧
        ∃ y ∈ s.commands.rows, cut y.identity = cut c.identity) := by
  obtain h₁ | ⟨x₀, s₁, hcommand, h₁⟩ := bind_error.mp h
  · obtain ⟨v, hins, rfl⟩ := create_error.mp h₁
    rcases Table.violated hins fun a ha => Nat.ne_of_lt (Table.lt_next ha) with
      ⟨k, hk, hfails, rfl⟩ | ⟨hvalid, i, hi, rfl, y, hy, hclash⟩
    · simp only [PaymentCommand.schema, Check.width, List.mem_cons, List.not_mem_nil,
        or_false] at hk
      refine .inl ?_
      rcases hk with rfl | rfl | rfl | rfl <;>
        exact ⟨_, rfl, fun hfits => by simp [ReserveCall.FitsColumns] at hfits hfails; omega⟩
    · refine .inr ⟨valid_command.mp hvalid, _, rfl, y, hy, ?_⟩
      rcases List.mem_cons.mp hi with rfl | hi
      · exact congrArg cut (Option.some.inj hclash.2)
      · obtain rfl := List.mem_singleton.mp hi
        exact absurd hclash.2 hclash.1
  obtain ⟨hx₀, T, hT, rfl⟩ := create_ok.mp hcommand
  have hmem (y : PaymentCommand) : y ∈ T.rows ↔ y ∈ s.commands.rows ∨ y = x₀ :=
    Table.mem_insert hT
  have hvalid : PaymentCommand.schema.Valid x₀ := (Table.insert_ok.mp hT).1.1
  have hcolumns : c.FitsColumns := by
    rw [hx₀] at hvalid
    exact valid_command.mp hvalid
  refine .inr ⟨hcolumns, ?_⟩
  obtain ⟨htenant, hcaller, -, -⟩ := valid_command.mp hvalid
  have hidentity : x₀.identity = c.identity := by rw [hx₀]; rfl
  have hpk : x₀.pk = s.commands.next := by rw [hx₀]; rfl
  obtain h₂ | ⟨a, s₂, hattempt, h₂⟩ := bind_error.mp h₁
  · rw [hx₀] at htenant hcaller
    exact reserveAttempt_error hs htenant hcaller (zoom_error.mp h₂)
  obtain ⟨l, hledger, rfl⟩ := zoom_ok.mp hattempt
  obtain h₃ | ⟨_, s₃, hwrite, h₃⟩ := bind_error.mp h₂
  · obtain ⟨v, hv, rfl⟩ := write_error.mp h₃
    have hget : T.get x₀.pk = some x₀ := Table.get_eq_some.mpr ⟨(hmem x₀).mpr (.inr rfl), rfl⟩
    obtain ⟨i, hi, rfl, y, hy, hne, hclash⟩ := Table.update_error (t := T) hv hget
      (valid_command.mpr (valid_command (x := x₀) |>.mp hvalid)) rfl
    have hys : y ∈ s.commands.rows := by
      rcases (hmem y).mp hy with hy | rfl
      · exact hy
      · exact absurd rfl hne
    refine ⟨_, rfl, y, hys, ?_⟩
    rcases List.mem_cons.mp hi with rfl | hi
    · exact congrArg cut ((Option.some.inj hclash.2).trans hidentity)
    · obtain rfl := List.mem_singleton.mp hi
      -- The attempt is new, so no other command is bound to it.
      obtain ⟨b, _, _, hchain⟩ := hs.chain y hys
      have hab : b.pk = a.pk := Option.some.inj (hchain.attempt.2.symm.trans hclash.2)
      obtain ⟨a', l₁, hnew, hrest⟩ := bind_ok.mp hledger
      obtain ⟨_, l₂, -, hreturn⟩ := bind_ok.mp hrest
      obtain ⟨rfl, -⟩ := pure_ok.mp hreturn
      obtain ⟨ha, -⟩ := create_ok.mp hnew
      rw [ha] at hab
      exact absurd hab (Nat.ne_of_lt (Table.lt_next hchain.attempt.1))
  obtain h₄ | ⟨o, s₄, houtbox, h₄⟩ := bind_error.mp h₃
  · obtain ⟨T', hT', rfl⟩ := write_ok.mp hwrite
    obtain ⟨i, hi, rfl, p, hp, hclash⟩ := create_clash h₄ (by
      simp [Schema.Valid, PaymentCommandOutbox.schema, Check.width]
      decide) rfl
    obtain rfl := List.mem_singleton.mp hi
    obtain ⟨y, hy, hpy⟩ := hs.outboxes p hp
    have hyx : y.pk = x₀.pk := hpy.symm.trans (Option.some.inj hclash.2)
    rw [hpk] at hyx
    exact absurd hyx (Nat.ne_of_lt (Table.lt_next hy))
  · cases h₄

/-! ## Publication -/

/-- What a publication leaves: statuses and times aside, the tables are as they were. -/
structure SameChains (s t : CommandStore) : Prop where
  ledger : t.ledger = s.ledger
  commands : t.commands.rows.map PaymentCommand.core = s.commands.rows.map PaymentCommand.core
  outboxes : t.outboxes.rows.map PaymentCommandOutbox.command =
    s.outboxes.rows.map PaymentCommandOutbox.command

instance : Std.Refl SameChains := ⟨fun _ => ⟨rfl, rfl, rfl⟩⟩

theorem SameChains.symm (h : SameChains s t) : SameChains t s :=
  ⟨h.ledger.symm, h.commands.symm, h.outboxes.symm⟩

theorem SameChains.command (h : SameChains s t) (hx : x ∈ s.commands.rows) :
    ∃ y ∈ t.commands.rows, y.core = x.core :=
  List.mem_map.mp (h.commands ▸ List.mem_map_of_mem hx)

theorem SameChains.outbox (h : SameChains s t) {o : PaymentCommandOutbox}
    (ho : o ∈ s.outboxes.rows) : ∃ p ∈ t.outboxes.rows, p.command = o.command :=
  List.mem_map.mp (h.outboxes ▸ List.mem_map_of_mem ho)

theorem CommandStore.Linked.of_sameChains (hs : s.Linked) (h : SameChains s t) : t.Linked := by
  refine ⟨fun y hy => ?_, fun y hy => ?_, fun a ha => ?_, fun i hi => ?_, fun p hp => ?_⟩
  · obtain ⟨x, hx, hcore⟩ := h.symm.command hy
    simp only [PaymentCommand.core, Prod.mk.injEq] at hcore
    rw [← hcore.2.2.1, ← hcore.2.2.2.1]
    exact hs.digest x hx
  · obtain ⟨x, hx, hcore⟩ := h.symm.command hy
    obtain ⟨a, i, o, hchain⟩ := hs.chain x hx
    obtain ⟨p, hp, hpo⟩ := h.outbox hchain.outbox.1
    simp only [PaymentCommand.core, Prod.mk.injEq] at hcore
    obtain ⟨hpk, hidentity, -, -, hattempt⟩ := hcore
    exact ⟨a, i, p, ⟨h.ledger ▸ hchain.attempt.1, hattempt ▸ hchain.attempt.2⟩,
      hpk ▸ hchain.command, hidentity ▸ hchain.scopeKey, h.ledger ▸ hchain.intent,
      ⟨hp, hpo.trans (hchain.outbox.2.trans hpk)⟩⟩
  · obtain ⟨x, hx, hxa⟩ := hs.attempts a (h.ledger ▸ ha)
    obtain ⟨y, hy, hcore⟩ := h.command hx
    simp only [PaymentCommand.core, Prod.mk.injEq] at hcore
    exact ⟨y, hy, hcore.2.2.2.2.trans hxa⟩
  · rw [h.ledger] at hi ⊢
    exact hs.intents i hi
  · obtain ⟨o, ho, hop⟩ := h.symm.outbox hp
    obtain ⟨x, hx, hox⟩ := hs.outboxes o ho
    obtain ⟨y, hy, hcore⟩ := h.command hx
    simp only [PaymentCommand.core, Prod.mk.injEq] at hcore
    exact ⟨y, hy, hop.symm.trans (hox.trans hcore.1.symm)⟩

theorem publish_same (outbox : Uuid) (now : Instant) :
    Within SameChains (PaymentCommandService.publish outbox now) := by
  intro s u t h
  obtain ⟨o, s₁, hlookup, h₁⟩ := bind_ok.mp h
  obtain ⟨-, rfl⟩ := lookup_ok.mp hlookup
  obtain ⟨y, s₂, hcommand, h₂⟩ := bind_ok.mp h₁
  obtain ⟨-, rfl⟩ := lookup_ok.mp hcommand
  obtain ⟨s₃, s₄, hread, h₃⟩ := bind_ok.mp h₂
  cases hread
  split at h₃
  · obtain ⟨_, s₅, houtbox, h₄⟩ := bind_ok.mp h₃
    obtain ⟨T, hT, rfl⟩ := write_ok.mp houtbox
    obtain ⟨T', hT', rfl⟩ := write_ok.mp h₄
    exact ⟨rfl, Table.map_update hT' fun _ => rfl, Table.map_update hT fun _ => rfl⟩
  · obtain ⟨-, rfl⟩ := pure_ok.mp h₃
    exact ⟨rfl, rfl, rfl⟩

/-! ## Calls -/

/-- What a call has learnt. -/
def CommandStore.Knows (s : CommandStore) : CommandWorker → Prop
  | .recovering c => ∃ x ∈ s.commands.rows, x.identity = c.identity
  | .returned c command _ => ∃ x ∈ s.commands.rows,
      x.pk = command ∧ x.identity = c.identity ∧ x.payload = c.payload
  | .raised c e => c.Fits →
      e = .paymentIdempotencyConflict "request identity was reused with a different payload" ∧
        ∃ x ∈ s.commands.rows, x.identity = c.identity ∧ x.payload ≠ c.payload
  | _ => True

/-- Commands stay, with their columns. -/
def CommandStore.Keeps (s t : CommandStore) : Prop :=
  ∀ x ∈ s.commands.rows, ∃ y ∈ t.commands.rows, y.core = x.core

theorem CommandStore.Knows.mono {p : CommandWorker} (h : s.Knows p) (hkeep : s.Keeps t) :
    t.Knows p := by
  cases p with
  | recovering c =>
    obtain ⟨x, hx, hidentity⟩ := h
    obtain ⟨y, hy, hcore⟩ := hkeep x hx
    simp only [PaymentCommand.core, Prod.mk.injEq] at hcore
    exact ⟨y, hy, hcore.2.1.trans hidentity⟩
  | returned c command replayed =>
    obtain ⟨x, hx, hpk, hidentity, hpayload⟩ := h
    obtain ⟨y, hy, hcore⟩ := hkeep x hx
    simp only [PaymentCommand.core, Prod.mk.injEq] at hcore
    exact ⟨y, hy, hcore.1.trans hpk, hcore.2.1.trans hidentity, hcore.2.2.2.1.trans hpayload⟩
  | raised c e =>
    intro hfits
    obtain ⟨he, x, hx, hidentity, hpayload⟩ := h hfits
    obtain ⟨y, hy, hcore⟩ := hkeep x hx
    simp only [PaymentCommand.core, Prod.mk.injEq] at hcore
    exact ⟨he, y, hy, hcore.2.1.trans hidentity, hcore.2.2.2.1 ▸ hpayload⟩
  | _ => trivial

/-- The recovery path: the winner is there, so it is replayed or the payloads differ. -/
theorem recover_cases (hs : s.Linked) (hx : x ∈ s.commands.rows)
    (hidentity : x.identity = c.identity) :
    (recover c s = .ok (x, s) ∧ x.payload = c.payload) ∨
      recover c s = .error (.paymentIdempotencyConflict
        "request identity was reused with a different payload") ∧ x.payload ≠ c.payload := by
  have hfind := commandFor_eq_some.mpr ⟨hx, hidentity⟩
  have hdigest := hs.digest x hx
  obtain ⟨a, _, _, hchain⟩ := hs.chain x hx
  by_cases hpayload : x.payload = c.payload
  · refine .inl ⟨?_, hpayload⟩
    unfold recover
    rw [bind_of_ok get_apply]
    simp only [hfind, hdigest, hpayload, hchain.attempt.2]
    rw [if_neg (by simp), if_neg (by simp)]
    rfl
  · refine .inr ⟨?_, hpayload⟩
    unfold recover
    rw [bind_of_ok get_apply]
    simp only [hfind, hdigest, ne_eq, Digest.sha256.injEq, hpayload, not_false_eq_true, if_true]
    rfl

/-- No identity of another command is cut to the same one when a call takes effect. -/
def Uncut (db : CommandStore) : CommandWorker → Instant → Prop
  | .reserve c, _ => c.Fits → db.Separate c.identity
  | _, _ => True

instance (db : CommandStore) (p : CommandWorker) (now : Instant) : Decidable (Uncut db p now) := by
  unfold Uncut
  cases p <;> dsimp only <;> infer_instance

/-- One block of a call or publication. -/
theorem CommandWorker.act_knows {p q : CommandWorker} {now : Instant} (hs : s.Linked)
    (hp : s.Knows p) (huncut : Uncut s p now) (h : p.act s now = some (t, q)) :
    t.Linked ∧ t.Knows q ∧ s.Keeps t ∧
      ((∃ c, q = .recovering c ∨ ∃ e, q = .raised c e) → t = s) := by
  cases p with
  | reserve c =>
    simp only [CommandWorker.act] at h
    split at h
    next hblank =>
      cases h
      exact ⟨hs, fun hfits => absurd hfits.1 (by simp [hblank]), fun x hx => ⟨x, hx, rfl⟩,
        fun _ => rfl⟩
    next hblank =>
      cases hreserve : reserveNew c s with
      | ok r =>
        rw [commit_of_ok (a := r.1) (t := r.2) hreserve] at h
        cases h
        have hreserves := reserveNew_ok (x := r.1) (t := r.2) hreserve
        exact ⟨hs.of_reserves hreserves, ⟨r.1, (hreserves.commands r.1).mpr (.inr rfl), rfl,
          hreserves.identity, hreserves.payload⟩,
          fun x hx => ⟨x, (hreserves.commands x).mpr (.inl hx), rfl⟩, by simp⟩
      | error e =>
        rw [commit_of_error hreserve] at h
        rcases reserveNew_error hs hreserve with ⟨column, rfl, hwide⟩
          | ⟨hcolumns, n, rfl, y, hy, hcut⟩
        · cases h
          exact ⟨hs, fun hfits => absurd hfits.2 hwide, fun x hx => ⟨x, hx, rfl⟩, fun _ => rfl⟩
        · cases h
          have hfits : c.Fits := ⟨by simpa using hblank, hcolumns⟩
          exact ⟨hs, ⟨y, hy, huncut hfits y hy hcut⟩, fun x hx => ⟨x, hx, rfl⟩, fun _ => rfl⟩
  | recovering c =>
    obtain ⟨x, hx, hidentity⟩ := hp
    simp only [CommandWorker.act] at h
    rcases recover_cases (c := c) hs hx hidentity with ⟨hrecover, hpayload⟩ | ⟨hrecover, hpayload⟩
    · rw [commit_of_ok hrecover] at h
      cases h
      exact ⟨hs, ⟨x, hx, rfl, hidentity, hpayload⟩, fun x hx => ⟨x, hx, rfl⟩, by simp⟩
    · rw [commit_of_error hrecover] at h
      cases h
      exact ⟨hs, fun _ => ⟨rfl, x, hx, hidentity, hpayload⟩, fun x hx => ⟨x, hx, rfl⟩, fun _ => rfl⟩
  | publish outbox =>
    simp only [CommandWorker.act, Option.some.injEq, Prod.mk.injEq] at h
    obtain ⟨rfl, rfl⟩ := h
    have hsame := (publish_same outbox now).commit s
    exact ⟨hs.of_sameChains hsame, trivial, fun x hx => hsame.command hx, by simp⟩
  | returned c command replayed => cases h
  | raised c e => cases h
  | done => cases h
  | dead => cases h

/-! ## Runs -/

theorem knows_of_reachable {s : Pool.State CommandStore CommandWorker}
    (h : (commands.under Uncut).machine.Reachable s) :
    s.store.Linked ∧ ∀ p ∈ s.workers, s.store.Knows p := by
  refine Program.invariant (P := commands.under Uncut) (I := CommandStore.Linked)
    (J := CommandStore.Knows) ?_ ?_ (fun _ _ => trivial) ?_ (fun _ x => x.elim) h
  · intro db hdb
    subst hdb
    refine ⟨fun _ hx => ?_, fun _ hx => ?_, fun _ hx => ?_, fun _ hx => ?_, fun _ hx => ?_⟩ <;>
      exact absurd hx List.not_mem_nil
  · intro db p _ hp
    cases p with
    | reserve c => trivial
    | publish o => trivial
    | _ => cases hp
  · intro db p now db' q hdb hp hact
    obtain ⟨huncut, hact⟩ := Program.under_act.mp hact
    obtain ⟨hdb', hq, hkeeps, -⟩ := CommandWorker.act_knows hdb hp huncut hact
    exact ⟨hdb', hq, fun r hr => hr.mono hkeeps⟩

/-- What the answers of the calls say about each other and about the tables. -/
structure ReservedOnce (s : Pool.State CommandStore CommandWorker) : Prop where
  /-- A returned command carries the call's identity and payload, and has one attempt, one intent
  and one outbox row. -/
  bound : ∀ c k b, .returned c k b ∈ s.workers → ∃ x ∈ s.store.commands.rows,
    x.pk = k ∧ x.identity = c.identity ∧ x.payload = c.payload ∧ ∃ a i o, s.store.Chain x a i o ∧
      (∀ a' ∈ s.store.ledger.attempts.rows, a'.submissionIntent = .command k → a' = a) ∧
      (∀ i' ∈ s.store.ledger.intents.rows, i'.attempt = a.pk → i' = i) ∧
      ∀ o' ∈ s.store.outboxes.rows, o'.command = k → o' = o
  /-- One command for one identity. -/
  same : ∀ c₁ k₁ b₁ c₂ k₂ b₂, .returned c₁ k₁ b₁ ∈ s.workers → .returned c₂ k₂ b₂ ∈ s.workers →
    (k₁ = k₂ ↔ c₁.identity = c₂.identity) ∧ (c₁.identity = c₂.identity → c₁.payload = c₂.payload)
  /-- A call that fits is only refused for another payload. -/
  refused : ∀ c e, .raised c e ∈ s.workers → c.Fits →
    e = .paymentIdempotencyConflict "request identity was reused with a different payload" ∧
      ∃ x ∈ s.store.commands.rows, x.identity = c.identity ∧ x.payload ≠ c.payload
  conflict : ∀ c₁ k₁ b₁ c₂ e, .returned c₁ k₁ b₁ ∈ s.workers → .raised c₂ e ∈ s.workers → c₂.Fits →
    c₁.identity = c₂.identity → c₁.payload ≠ c₂.payload

theorem reservedOnce_of_reachable {s : Pool.State CommandStore CommandWorker}
    (h : (commands.under Uncut).machine.Reachable s) : ReservedOnce s := by
  obtain ⟨hlinked, hknows⟩ := knows_of_reachable h
  refine ⟨fun c k b hw => ?_, fun c₁ k₁ b₁ c₂ k₂ b₂ hw₁ hw₂ => ?_, fun c e hw => hknows _ hw,
    fun c₁ k₁ b₁ c₂ e hw₁ hw₂ hfits hsame hpayload => ?_⟩
  · obtain ⟨x, hx, rfl, hidentity, hpayload⟩ := hknows _ hw
    obtain ⟨a, i, o, hchain⟩ := hlinked.chain x hx
    exact ⟨x, hx, rfl, hidentity, hpayload, a, i, o, hchain, hlinked.only hx hchain⟩
  · obtain ⟨x, hx, rfl, hidentity, hpayload⟩ := hknows _ hw₁
    obtain ⟨y, hy, rfl, hidentity', hpayload'⟩ := hknows _ hw₂
    have heq : c₁.identity = c₂.identity → x = y := fun hsame =>
      eq_of_identity hx hy (hidentity.trans (hsame.trans hidentity'.symm))
    refine ⟨⟨fun hpk => ?_, fun hsame => by rw [heq hsame]⟩, fun hsame => ?_⟩
    · obtain rfl : x = y := Table.eq_of_pk hx hy hpk
      exact hidentity.symm.trans hidentity'
    · rw [← hpayload, ← hpayload', heq hsame]
  · obtain ⟨x, hx, -, hidentity, hpayload'⟩ := hknows _ hw₁
    obtain ⟨-, y, hy, hidentity', hne⟩ := hknows _ hw₂ hfits
    obtain rfl := eq_of_identity hx hy (hidentity.trans (hsame.trans hidentity'.symm))
    exact hne (hpayload'.trans hpayload)

/-- In a run in which no two identities agree only after the cut, commands are reserved once, and
a call that raises leaves no trace. -/
theorem reserve_exactly_once {s : Pool.State CommandStore CommandWorker}
    (h : (commands.under Uncut).machine.Reachable s) :
    ReservedOnce s ∧ ∀ i now t, (commands.under Uncut).machine.step s (.act i now) = some t →
      (∃ c, t.workers[i]? = some (.recovering c) ∨ ∃ e, t.workers[i]? = some (.raised c e)) →
        t.store = s.store := by
  refine ⟨reservedOnce_of_reachable h, fun i now t hstep hq => ?_⟩
  obtain ⟨hlinked, hknows⟩ := knows_of_reachable h
  obtain ⟨p, st, q, hp, hact, rfl, hq'⟩ := Program.act_cases hstep
  obtain ⟨huncut, hact⟩ := Program.under_act.mp hact
  obtain ⟨-, -, -, hsame⟩ := CommandWorker.act_knows hlinked (hknows p (List.mem_of_getElem? hp))
    huncut hact
  exact hsame (by simpa [hq'] using hq)

/-- A transfer to a payee. -/
def transferTo (requestIdentity : String) : ReserveCall where
  tenantId := "t"
  callerBbId := "BB"
  operation := "transfer"
  requestIdentity := requestIdentity
  payload := [("amount", .int 5)]

/-- The same transfer twice, and the same identity with another amount. -/
def retried : Pool.State CommandStore CommandWorker :=
  (commands.under Uncut).machine.final ⟨{}, []⟩ [
    .spawn (.reserve (transferTo "r")), .spawn (.reserve (transferTo " r ")),
    .spawn (.reserve { transferTo "r" with payload := [("amount", .int 6)] }),
    .act 0 0, .act 1 0, .act 2 0, .spawn (.publish 1), .act 3 0, .act 1 0, .act 2 0]

theorem reserve_exactly_once_retried :
    .returned (transferTo "r") 1 false ∈ retried.workers ∧
      .returned (transferTo " r ") 1 true ∈ retried.workers ∧ ReservedOnce retried := by
  have hreachable : (commands.under Uncut).machine.Reachable retried :=
    Machine.Reachable.final (M := (commands.under Uncut).machine) (s := ⟨{}, []⟩) ⟨rfl, rfl⟩ _
  exact ⟨by decide +kernel, by decide +kernel, (reserve_exactly_once hreachable).1⟩

/-- Operations that differ after thirty characters. -/
def transferBy (channel : String) : ReserveCall :=
  { transferTo "r" with operation := "transfer-to-registered-account" ++ channel }

def cutShort : Pool.State CommandStore CommandWorker :=
  commands.machine.final ⟨{}, []⟩ [.spawn (.reserve (transferBy "-a")),
    .spawn (.reserve (transferBy "-b")), .act 0 0, .act 1 0, .act 1 0]

/-- The second command is not created. -/
theorem cut_identity_refused :
    commands.machine.Reachable cutShort ∧ (transferBy "-b").Fits ∧
      (transferBy "-a").identity ≠ (transferBy "-b").identity ∧
      (cutShort.workers = [.returned (transferBy "-a") 1 false,
        .raised (transferBy "-b") (.doesNotExist "PaymentCommand")]) ∧
      cutShort.store.commands.rows.length = 1 := by
  have hcut : (cutShort.workers = [.returned (transferBy "-a") 1 false,
      .raised (transferBy "-b") (.doesNotExist "PaymentCommand")]) ∧
        cutShort.store.commands.rows.length = 1 := by decide +kernel
  exact ⟨Machine.Reachable.final (M := commands.machine) (s := ⟨{}, []⟩) ⟨rfl, rfl⟩ _,
    by decide +kernel, by decide +kernel, hcut⟩

end Civicos.Payments
