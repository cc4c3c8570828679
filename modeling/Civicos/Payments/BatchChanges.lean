import Civicos.Payments.BatchTask
import Civicos.Payments.AuditTrail

/-!
# What the bulk task does to the store

The loop over the instructions rewrites the rows of its instructions, renews leases and lets
the ledger evolve without touching evidence. So the finality that one round finds still holds
when the decision is projected.
-/
namespace Civicos.Payments

open Library Library.Transaction Session

/-! ## Evidence of finality -/

namespace Ledger

variable {l l' : Ledger} {a : PaymentAttempt} {o : ProviderObservation} {pk : Uuid}

/-- Evidence stays and terminal attempts keep their rows. -/
structure Calm (l l' : Ledger) : Prop where
  observations : l'.observations = l.observations
  reconciliations : l'.reconciliations = l.reconciliations
  terminal : ∀ pk a, l.attempt pk = some a → a.isTerminal = true → l'.attempt pk = some a

namespace Calm

instance : Std.Refl Calm := ⟨fun _ => ⟨rfl, rfl, fun _ _ h _ => h⟩⟩

instance : IsTrans Ledger Calm where
  trans _ _ _ h h' := ⟨h'.observations.trans h.observations,
    h'.reconciliations.trans h.reconciliations,
    fun pk a ha ht => h'.terminal pk a (h.terminal pk a ha ht) ht⟩

/-- Audit entries, callbacks and the other tables are no evidence. -/
theorem of_eq (hattempts : l'.attempts = l.attempts) (hobs : l'.observations = l.observations)
    (hrec : l'.reconciliations = l.reconciliations) : Calm l l' :=
  ⟨hobs, hrec, fun pk a ha _ => by rw [attempt, hattempts]; exact ha⟩

end Calm

/-- Verified reconciled finality: the instruction is bound to an attempt of its own identity,
the attempt's only observation is accepted evidence for exactly this attempt, and every
reconciliation of the attempt matched the same outcome on both sides. -/
structure Proves (l : Ledger) (batch : BulkPaymentBatch) (i : CreditInstruction) (r : Report)
    (a : PaymentAttempt) (o : ProviderObservation) : Prop where
  bound : i.paymentAttempt = some a.pk
  stored : l.attempt a.pk = some a
  fits : a.Fits batch i
  observed : o ∈ l.observations.rows
  only : ∀ p ∈ l.observations.rows, p.attempt = a.pk → p = o
  binds : o.Binds a
  accepted : o.acceptedFinality = true
  outcome : o.outcome = r
  status : r.final = some a.status
  reconciled : ∃ c ∈ l.reconciliations.rows, c.attempt = a.pk
  matched : ∀ c ∈ l.reconciliations.rows, c.attempt = a.pk →
    c.status = .matched ∧ c.providerStatus = r ∧ r.final = some c.internalStatus

end Ledger

theorem Report.isTerminal_of_final {r : Report} {s : AttemptStatus} (h : r.final = some s) :
    s.isTerminal = true := by
  cases r <;> cases h <;> rfl

namespace PaymentLifecycleService

open Ledger

variable {l l' : Ledger} {a : PaymentAttempt} {o : ProviderObservation} {batch : BulkPaymentBatch}
  {i : CreditInstruction}

theorem mem_acceptedFinal {observations : List ProviderObservation} :
    o ∈ acceptedFinal observations ↔ o ∈ observations ∧ o.acceptedFinality = true ∧
      o.verified = true ∧ (o.outcome = .settled ∨ o.outcome = .rejected) := by
  simp [acceptedFinal]

/-- Final children have evidence. -/
theorem proves_of_final {f : AuthoritativeChildFinality} (hbound : i.paymentAttempt = some a.pk)
    (hget : l.attempt a.pk = some a) (hf : childFinality l batch i a = f) (h : f.final = true) :
    ∃ r o, (r = .settled ∨ r = .rejected) ∧ l.Proves batch i r a o ∧ f.status = r.childStatus := by
  unfold childFinality at hf
  simp only at hf
  split at hf
  · subst hf
    cases h
  next hfits =>
  split at hf
  next o ho =>
    split at hf
    · subst hf
      cases h
    next hevidence =>
    split at hf
    · subst hf
      cases h
    next hstatus =>
    split at hf
    · subst hf
      cases h
    next hrec =>
    have hmem : o ∈ acceptedFinal (l.observations.rows.filter (·.attempt = a.pk)) := by
      rw [ho]
      exact List.mem_singleton.mpr rfl
    obtain ⟨hobs, hacc, hver, hout⟩ := mem_acceptedFinal.mp hmem
    obtain ⟨hrow, hatt⟩ := List.mem_filter.mp hobs
    simp only [decide_eq_true_eq] at hatt
    rw [not_not] at hfits hstatus
    obtain ⟨-, -, hamount, hcurrency⟩ := id hfits
    simp only [ne_eq, not_or, not_not, List.any_eq_true, decide_eq_true_eq, not_exists, not_and,
      List.mem_filter, and_imp] at hevidence hrec
    obtain ⟨htenant, hoamount, hocurrency, hhash, honly⟩ := hevidence
    have hbinds : o.Binds a := {
      attempt := hatt
      tenant := htenant
      amount := by rw [hoamount, hamount]
      currency := by rw [hocurrency, hcurrency]
      hash := by rw [hhash, bindingHash, bindingHash, hcurrency, hamount]
      verified := hver }
    refine ⟨o.outcome, o, hout, ?_, by rw [← hf]⟩
    exact {
      bound := hbound
      stored := hget
      fits := hfits
      observed := hrow
      only := fun p hp hpa => Table.eq_of_pk hp hrow (honly p hp hpa)
      binds := hbinds
      accepted := hacc
      outcome := rfl
      status := hstatus
      reconciled := by
        obtain ⟨c, hc⟩ := List.exists_mem_of_ne_nil _ hrec.1
        obtain ⟨hc, hca⟩ := List.mem_filter.mp hc
        exact ⟨c, hc, by simpa using hca⟩
      matched := hrec.2 }
  · subst hf
    cases h

/-! ### The ledger operations of the task -/

theorem audit_calm (a : PaymentAttempt) (action : AuditAction) (details : Json) :
    Within Calm (audit a action details) := by
  rintro l _ _ ⟨⟩
  exact .of_eq rfl rfl rfl

theorem create_calm (tenantId operation requestId : String) (digest : Digest Json)
    (defaults : PaymentAttempt.Defaults) :
    Within Calm (PaymentAttempt.create tenantId operation requestId digest defaults) := by
  intro l b l' h
  obtain ⟨-, t, hins, rfl⟩ := create_ok.mp h
  exact ⟨rfl, rfl, fun pk a ha _ => Table.get_of_insert hins ha⟩

theorem getOrCreateAttempt_calm (tenantId operation requestId : String) (payload : Json)
    (defaults : PaymentAttempt.Defaults) (auditCreated : Bool) : Within Calm
      (getOrCreateAttempt tenantId operation requestId payload defaults auditCreated) :=
  getOrCreateAttempt_within (fun _ _ _ _ => create_calm _ _ _ _ _) audit_calm

/-- An outcome is applied to live attempts only. -/
theorem applyOutcome_calm (pk : Uuid) (outcome : PaymentOutcome) (now : Instant) :
    Within Calm (applyOutcome pk outcome now) := by
  intro l b l' h
  obtain ⟨a, hget, ⟨-, -, rfl⟩ | ⟨hlive, -, due, t, audits, rfl, hupd, rfl⟩⟩ := applyOutcome_ok h
  · exact Std.Refl.refl l'
  · refine ⟨rfl, rfl, fun k c hc hterm => ?_⟩
    have hpk : a.pk = pk := PaymentAttempt.pk_of_attempt hget
    have hk : pk ≠ k := by
      rintro rfl
      rw [hget, Option.some.injEq] at hc
      rw [← hc, hlive] at hterm
      cases hterm
    rw [attempt, Table.get_update hupd hget hpk, if_neg hk]
    exact hc

theorem queueCallback_calm (a : PaymentAttempt) (url : String) (payload : Json) (now : Instant) :
    Within Calm (queueCallback a url payload now) := by
  refine queueCallback_within (fun build => ?_) audit_calm
  intro l d l' h
  obtain ⟨-, t, -, rfl⟩ := create_ok.mp h
  exact .of_eq rfl rfl rfl

end PaymentLifecycleService

theorem Ledger.Proves.of_calm {l l' : Ledger} {batch batch' : BulkPaymentBatch}
    {i i' : CreditInstruction} {r : Report} {a : PaymentAttempt} {o : ProviderObservation}
    (h : l.Proves batch i r a o) (hcalm : l.Calm l') (hbatch : batch'.requestId = batch.requestId)
    (hi : i'.identity = i.identity) (hbound : i'.paymentAttempt = i.paymentAttempt) :
    l'.Proves batch' i' r a o := by
  simp only [CreditInstruction.identity, Prod.mk.injEq] at hi
  obtain ⟨-, -, hid, -, hamount, hcurrency⟩ := hi
  obtain ⟨hop, hreq, hfit, hcur⟩ := h.fits
  exact {
    bound := hbound.trans h.bound
    stored := hcalm.terminal _ _ h.stored (Report.isTerminal_of_final h.status)
    fits := ⟨hop, by rw [hreq, requestIdOf, requestIdOf, hbatch, hid], by rw [hfit, hamount],
      by rw [hcur, hcurrency]⟩
    observed := by rw [hcalm.observations]; exact h.observed
    only := by rw [hcalm.observations]; exact h.only
    binds := h.binds
    accepted := h.accepted
    outcome := h.outcome
    status := h.status
    reconciled := by rw [hcalm.reconciliations]; exact h.reconciled
    matched := by rw [hcalm.reconciliations]; exact h.matched }

/-- The instruction has verified reconciled finality. -/
def BulkStore.Decided (s : BulkStore) (i : CreditInstruction) (r : Report) : Prop :=
  ∃ batch a o, s.batches.get i.batch = some batch ∧ s.ledger.Proves batch i r a o

/-- The store with one more audit entry. -/
def audited (s : Session) (entry : AuditEntry) : Session :=
  { s with ledger := { s.ledger with audits := s.ledger.audits ++ [entry] } }

/-! ## One round of the loop -/

/-- What the loop does to the store while it may rewrite the instructions in `P`. -/
structure Session.Works (P : Uuid → Prop) (s t : Session) : Prop where
  batches : t.batches = s.batches
  decisions : t.decisions = s.decisions
  moves : ∀ b, Lease.Moves (s.fence b) (t.fence b)
  calm : s.ledger.Calm t.ledger
  trails : Trails s.ledger t.ledger
  others : ∀ k, ¬ P k → t.instructions.get k = s.instructions.get k
  identity : t.instructions.rows.map CreditInstruction.identity =
    s.instructions.rows.map CreditInstruction.identity

namespace Session.Works

variable {P Q : Uuid → Prop} {s t u : Session}

instance : Std.Refl (Works P) :=
  ⟨fun s => ⟨rfl, rfl, fun _ => .refl, Std.Refl.refl s.ledger, .of_eq rfl, fun _ _ => rfl, rfl⟩⟩

theorem trans (h : Works P s t) (h' : Works P t u) : Works P s u where
  batches := h'.batches.trans h.batches
  decisions := h'.decisions.trans h.decisions
  moves b := (h.moves b).trans (h'.moves b)
  calm := IsTrans.trans _ _ _ h.calm h'.calm
  trails := h.trails.trans h'.trails
  others k hk := (h'.others k hk).trans (h.others k hk)
  identity := h'.identity.trans h.identity

instance : IsTrans Session (Works P) := ⟨fun _ _ _ => trans⟩

theorem mono (h : Works P s t) (hPQ : ∀ k, P k → Q k) : Works Q s t :=
  { h with others := fun k hk => h.others k fun hp => hk (hPQ k hp) }

/-- Work that touches no instruction keeps their table. -/
theorem instructions_eq (h : Works (fun _ => False) s t) : t.instructions = s.instructions := by
  refine Table.ext_get ?_ fun k => h.others k id
  have hpks := congrArg (List.map Prod.fst) h.identity
  rw [List.map_map, List.map_map] at hpks
  exact hpks

theorem of_renews (h : BatchLeaseService.Renews s t) : Works P s t := by
  obtain ⟨hframe, hmoves⟩ := h
  refine ⟨?_, ?_, hmoves, ?_, ?_, ?_, ?_⟩
  all_goals rw [hframe]
  · exact Std.Refl.refl s.ledger
  · exact .of_eq rfl
  · exact fun _ _ => rfl

theorem heartbeat (handle : BatchLeaseHandle) :
    Within (Works P) (BatchLeaseService.heartbeat handle) :=
  fun _ _ _ h => of_renews (BatchLeaseService.heartbeat_ok h).2

theorem assertCurrentOwner (handle : BatchLeaseHandle) :
    Within (Works P) (BatchLeaseService.assertCurrentOwner handle) :=
  fun _ _ _ h => of_renews (BatchLeaseService.assertCurrentOwner_ok h).2

theorem timezoneNow : Within (Works P) Session.timezoneNow := by
  rintro s _ _ ⟨⟩
  exact of_renews ⟨rfl, fun _ => .refl⟩

theorem zoom {α : Type} {x : Tx α} (hcalm : Within Ledger.Calm x) (htrails : Within Trails x) :
    Within (Works P) (zoom ledgerPart x) := by
  intro s a t h
  obtain ⟨l, hl, rfl⟩ := zoom_ok.mp h
  exact ⟨rfl, rfl, fun _ => .refl, hcalm _ _ _ hl, htrails _ _ _ hl, fun _ _ => rfl, rfl⟩

/-- Rewriting an instruction of the loop. -/
theorem write {refuse : Violation → PaymentError} {k : Uuid}
    {f : CreditInstruction → CreditInstruction} (hk : P k) (hf : ∀ i, (f i).identity = i.identity) :
    Within (Works P) (write instructionTable refuse k f) := by
  intro s u t h
  obtain ⟨T, hupd, rfl⟩ := write_ok.mp h
  refine ⟨rfl, rfl, fun _ => .refl, Std.Refl.refl s.ledger, .of_eq rfl, fun k' hk' => ?_, ?_⟩
  · exact Table.get_update_of_ne hupd (fun i => congrArg Prod.fst (hf i)) fun heq => hk' (heq ▸ hk)
  · exact Table.map_update hupd hf

end Session.Works

namespace BulkTask

open PaymentLifecycleService

variable {P : Uuid → Prop} {settings : BulkSettings} {batch : BulkPaymentBatch}
  {handle : BatchLeaseHandle} {s t u : Session} {i j : CreditInstruction} {tally tally' : Tally}

theorem applyFenced_works (attempt : Uuid) (outcome : PaymentOutcome) :
    Within (Works P) (applyFenced handle attempt outcome) :=
  .bind (Works.assertCurrentOwner _) fun _ => .bind Works.timezoneNow fun _ =>
    .bind (Works.zoom (applyOutcome_calm _ _ _) (applyOutcome_trails _ _ _)) fun _ => .pure _

theorem recordBulkInstructionLifecycle_works (found : Bool) :
    Within (Works P) (recordBulkInstructionLifecycle settings batch i found handle) := by
  refine .bind (Works.assertCurrentOwner _) fun _ =>
    .bind (Works.zoom (getOrCreateAttempt_calm _ _ _ _ _ _) (getOrCreateAttempt_trails _ _ _ _ _ _))
      fun r => ?_
  obtain ⟨attempt, created⟩ := r
  refine .ite (fun _ => .ite (fun _ => ?_) fun _ => ?_) fun _ => ?_
  · exact .bind (Works.assertCurrentOwner _) fun _ => .pure _
  · exact .bind (applyFenced_works _ _) fun _ => .pure _
  · exact .bind (applyFenced_works _ _) fun _ => .pure _

theorem lockInstruction_ok {pk : Uuid} (h : lockInstruction pk s = .ok (i, t)) :
    t = s ∧ s.instructions.get pk = some i := by
  obtain ⟨hget, rfl⟩ := lookup_ok.mp h
  exact ⟨rfl, hget⟩

theorem lockBatch_ok {pk : Uuid} (h : lockBatch pk s = .ok (batch, t)) :
    t = s ∧ s.batches.get pk = some batch := by
  obtain ⟨hget, rfl⟩ := lookup_ok.mp h
  exact ⟨rfl, hget⟩

theorem lockAttempt_ok {pk : Uuid} {a : PaymentAttempt}
    (h : zoom ledgerPart (PaymentAttempt.getLocked pk) s = .ok (a, t)) :
    t = s ∧ s.ledger.attempt pk = some a := by
  obtain ⟨l, hl, rfl⟩ := zoom_ok.mp h
  obtain ⟨hget, rfl⟩ := PaymentAttempt.getLocked_ok.mp hl
  exact ⟨rfl, hget⟩

/-- Binding rewrites one row, in nothing but its attempt. -/
theorem bindCreditInstructionAttempt_ok {pk attempt : Uuid} (hpk : P pk)
    (h : bindCreditInstructionAttempt pk attempt s = .ok (j, t)) : Works P s t ∧
      t.instructions.get pk = some j ∧ ∃ i, s.instructions.get pk = some i ∧
        j.identity = i.identity ∧ j.status = i.status := by
  obtain ⟨i, _, hlock, h₁⟩ := bind_ok.mp h
  obtain ⟨rfl, hi⟩ := lockInstruction_ok hlock
  obtain rfl : i.pk = pk := Table.pk_of_get hi
  obtain ⟨a, _, hlockA, h₂⟩ := bind_ok.mp h₁
  obtain ⟨rfl, -⟩ := lockAttempt_ok hlockA
  obtain ⟨b, _, hlockB, h₃⟩ := bind_ok.mp h₂
  obtain ⟨rfl, -⟩ := lockBatch_ok hlockB
  split at h₃
  · cases h₃
  cases hb : i.paymentAttempt with
  | none =>
    simp only [hb] at h₃
    obtain ⟨_, v, hwrite, h₄⟩ := bind_ok.mp h₃
    cases h₄
    have hworks : Works P _ t := Works.write hpk (by intro _; rfl) _ _ _ hwrite
    obtain ⟨T, hupd, rfl⟩ := write_ok.mp hwrite
    refine ⟨hworks, ?_, i, hi, rfl, rfl⟩
    exact (Table.get_update hupd hi rfl _).trans (if_pos rfl)
  | some k =>
    simp only [hb] at h₃
    split at h₃
    · cases h₃
    · cases h₃
      exact ⟨Std.Refl.refl _, hi, j, hi, rfl, rfl⟩

/-- An instruction leaves `bind` as its current row. -/
theorem bind_works (hpk : P i.pk) (hi : s.instructions.get i.pk = some i)
    (h : bind settings batch handle i s = .ok (j, t)) : Works P s t ∧
      t.instructions.get i.pk = some j ∧ j.identity = i.identity ∧ j.status = i.status := by
  unfold bind at h
  cases hb : i.paymentAttempt with
  | some k =>
    simp only [hb] at h
    cases h
    exact ⟨Std.Refl.refl _, hi, rfl, rfl⟩
  | none =>
    simp only [hb] at h
    obtain ⟨_, _, hget, h₁⟩ := bind_ok.mp h
    cases hget
    obtain ⟨a, u, hrecord, h₂⟩ := bind_ok.mp h₁
    have hsu : Works P s u := recordBulkInstructionLifecycle_works _ _ _ _ hrecord
    obtain ⟨_, v, hassert, h₃⟩ := bind_ok.mp h₂
    have hsv : Works P s v := hsu.trans (Works.assertCurrentOwner _ _ _ _ hassert)
    have hrow : s.instructions.get i.pk = v.instructions.get i.pk := by
      have hu : Works (fun _ => False) s u := recordBulkInstructionLifecycle_works _ _ _ _ hrecord
      have hv : Works (fun _ => False) u v := Works.assertCurrentOwner _ _ _ _ hassert
      exact ((hu.trans hv).others i.pk id).symm
    obtain ⟨hvt, hj, i', hi', hid, hstatus⟩ := bindCreditInstructionAttempt_ok hpk h₃
    obtain rfl : i = i' := Option.some.inj (hi.symm.trans (hrow.trans hi'))
    exact ⟨hsv.trans hvt, hj, hid, hstatus⟩

theorem materialize_ok {pk : Uuid} {f : AuthoritativeChildFinality}
    (hi : s.instructions.get pk = some i)
    (h : materializeCreditInstructionFinality pk s = .ok (f, t)) : t = s ∧
      (f.final = true → ∃ r, (r = .settled ∨ r = .rejected) ∧ s.Decided i r ∧
        f.status = r.childStatus) := by
  obtain ⟨i', _, hlock, h₁⟩ := bind_ok.mp h
  obtain ⟨rfl, hi'⟩ := lockInstruction_ok hlock
  obtain rfl : i = i' := Option.some.inj (hi.symm.trans hi')
  obtain ⟨b, _, hlockB, h₂⟩ := bind_ok.mp h₁
  obtain ⟨rfl, hb⟩ := lockBatch_ok hlockB
  cases hbound : i.paymentAttempt with
  | none =>
    simp only [hbound] at h₂
    obtain ⟨rfl, rfl⟩ := pure_ok.mp h₂
    exact ⟨rfl, fun hfinal => by cases hfinal⟩
  | some k =>
    simp only [hbound] at h₂
    obtain ⟨a, _, hlockA, h₃⟩ := bind_ok.mp h₂
    obtain ⟨rfl, ha⟩ := lockAttempt_ok hlockA
    obtain ⟨_, _, hget, h₄⟩ := bind_ok.mp h₃
    cases hget
    obtain ⟨hf, rfl⟩ := pure_ok.mp h₄
    obtain rfl : a.pk = k := PaymentAttempt.pk_of_attempt ha
    refine ⟨rfl, fun hfinal => ?_⟩
    obtain ⟨r, o, hr, hproves, hstatus⟩ := proves_of_final hbound ha hf.symm hfinal
    exact ⟨r, hr, ⟨b, a, o, hb, hproves⟩, hstatus⟩

end BulkTask

theorem BulkStore.Decided.of_works {P : Uuid → Prop} {s t : Session} {i j : CreditInstruction}
    {r : Report} (h : s.Decided i r) (hw : Works P s t) (hid : j.identity = i.identity)
    (hbound : j.paymentAttempt = i.paymentAttempt) : t.Decided j r := by
  obtain ⟨b, a, o, hb, hproves⟩ := h
  have hbatch : j.batch = i.batch := congrArg (fun x => x.2.1) hid
  refine ⟨b, a, o, ?_, hproves.of_calm hw.calm rfl hid hbound⟩
  rw [hw.batches, hbatch]
  exact hb

/-- The item that the loop appends for an instruction speaks for its row. -/
structure Verdict (s : BulkStore) (item : ChildItem) (i : CreditInstruction) : Prop where
  id : item.id = i.pk
  amount : item.amount = i.amount
  settled : item.status = .settled → i.status = .completed ∧ s.Decided i .settled
  rejected : item.status = .rejected → i.status = .failed ∧ s.Decided i .rejected

theorem Verdict.of_works {P : Uuid → Prop} {s t : Session} {item : ChildItem}
    {i : CreditInstruction} (h : Verdict s.toBulkStore item i) (hw : Works P s t) :
    Verdict t.toBulkStore item i where
  id := h.id
  amount := h.amount
  settled hs := ⟨(h.settled hs).1, (h.settled hs).2.of_works hw rfl rfl⟩
  rejected hs := ⟨(h.rejected hs).1, (h.rejected hs).2.of_works hw rfl rfl⟩

namespace BulkTask

/-- Append an item and add its amount to the sum of its status. -/
def Tally.push (tally : Tally) (item : ChildItem) : Tally where
  items := tally.items ++ [item]
  settledAmount := tally.settledAmount + if item.status = .settled then item.amount else 0
  rejectedAmount := tally.rejectedAmount + if item.status = .rejected then item.amount else 0

open PaymentLifecycleService

variable {P : Uuid → Prop} {settings : BulkSettings} {batch : BulkPaymentBatch}
  {handle : BatchLeaseHandle} {s t u : Session} {i j : CreditInstruction} {tally tally' : Tally}

theorem saveStatus_ok {status : InstructionStatus} {reason : String} {v : Unit} (hpk : P i.pk)
    (hi : s.instructions.get i.pk = some i)
    (h : saveStatus handle i.pk status reason s = .ok (v, t)) :
    Works P s t ∧
      t.instructions.get i.pk = some { i with status := status, failureReason := reason } := by
  obtain ⟨_, u, hassert, hwrite⟩ := bind_ok.mp h
  have hsu : Works P s u := Works.assertCurrentOwner _ _ _ _ hassert
  have hsu' : Works (fun _ => False) s u := Works.assertCurrentOwner _ _ _ _ hassert
  refine ⟨hsu.trans (Works.write hpk (by intro _; rfl) _ _ _ hwrite), ?_⟩
  obtain ⟨T, hupd, rfl⟩ := write_ok.mp hwrite
  exact (Table.get_update hupd ((hsu'.others i.pk id).trans hi) rfl _).trans (if_pos rfl)

theorem nonFinalStatus_cases (l : Ledger) (i : CreditInstruction) :
    nonFinalStatus l i ≠ .settled ∧ nonFinalStatus l i ≠ .rejected := by
  unfold nonFinalStatus
  split <;> simp

/-- The status of the row is saved when it changes. -/
theorem saveWhen_ok {c : Prop} [Decidable c] {status : InstructionStatus} {reason : String}
    {x : Tally} (hpk : P i.pk) (hi : s.instructions.get i.pk = some i)
    (h : (if c then saveStatus handle i.pk status reason >>= fun _ => pure x else pure x) s =
      .ok (tally', t)) : tally' = x ∧ Works P s t ∧ ∃ j, t.instructions.get i.pk = some j ∧
      j.identity = i.identity ∧ j.paymentAttempt = i.paymentAttempt ∧
        j.status = if c then status else i.status := by
  split at h
  next hc =>
    obtain ⟨_, u, hsave, h₁⟩ := bind_ok.mp h
    obtain ⟨rfl, rfl⟩ := pure_ok.mp h₁
    obtain ⟨hworks, hj⟩ := saveStatus_ok hpk hi hsave
    exact ⟨rfl, hworks, _, hj, rfl, rfl, (if_pos hc).symm⟩
  next hc =>
    obtain ⟨rfl, rfl⟩ := pure_ok.mp h
    exact ⟨rfl, Std.Refl.refl _, i, hi, rfl, rfl, (if_neg hc).symm⟩

/-- A round appends one item, which speaks for the row that it leaves. -/
theorem project_ok {f : AuthoritativeChildFinality} (hpk : P i.pk)
    (hi : s.instructions.get i.pk = some i)
    (hf : f.final = true → ∃ r, (r = .settled ∨ r = .rejected) ∧ s.Decided i r ∧
      f.status = r.childStatus)
    (h : project handle tally i f s = .ok (tally', t)) : Works P s t ∧ ∃ item j,
      tally' = tally.push item ∧ t.instructions.get i.pk = some j ∧ j.identity = i.identity ∧
        Verdict t.toBulkStore item j := by
  have hcolumns : ∀ j : CreditInstruction, j.identity = i.identity →
      i.pk = j.pk ∧ i.amount = j.amount := fun j hid =>
    ⟨congrArg Prod.fst hid.symm, congrArg (fun x => x.2.2.2.2.1) hid.symm⟩
  unfold project at h
  split at h
  next hsettled =>
    obtain ⟨rfl, hworks, j, hj, hid, hbound, hstatus⟩ := saveWhen_ok hpk hi h
    obtain ⟨r, hr, hdecided, hr'⟩ := hf hsettled.1
    have hrs : r = .settled := by
      rcases hr with rfl | rfl
      · rfl
      · simp [hsettled.2, Report.childStatus] at hr'
    refine ⟨hworks, ⟨i.pk, .settled, i.amount⟩, j, by simp [Tally.push, Tally.append], hj, hid, ?_⟩
    obtain ⟨hpk', hamount⟩ := hcolumns j hid
    refine ⟨hpk', hamount, fun _ => ⟨?_, hrs ▸ hdecided.of_works hworks hid hbound⟩, nofun⟩
    rw [hstatus]
    split
    next => rfl
    next hc => exact not_not.mp hc
  next =>
  split at h
  next hrejected =>
    obtain ⟨rfl, hworks, j, hj, hid, hbound, hstatus⟩ := saveWhen_ok hpk hi h
    obtain ⟨r, hr, hdecided, hr'⟩ := hf hrejected.1
    have hrs : r = .rejected := by
      rcases hr with rfl | rfl
      · simp [hrejected.2, Report.childStatus] at hr'
      · rfl
    refine ⟨hworks, ⟨i.pk, .rejected, i.amount⟩, j, by simp [Tally.push, Tally.append], hj, hid, ?_⟩
    obtain ⟨hpk', hamount⟩ := hcolumns j hid
    refine ⟨hpk', hamount, nofun, fun _ => ⟨?_, hrs ▸ hdecided.of_works hworks hid hbound⟩⟩
    rw [hstatus]
    split
    next => rfl
    next hc => exact not_not.mp hc
  next =>
    obtain ⟨_, _, hget, h₁⟩ := bind_ok.mp h
    cases hget
    obtain ⟨rfl, hworks, j, hj, hid, -, -⟩ := saveWhen_ok hpk hi h₁
    obtain ⟨hns, hnr⟩ := nonFinalStatus_cases s.ledger i
    obtain ⟨hpk', hamount⟩ := hcolumns j hid
    refine ⟨hworks, ⟨i.pk, nonFinalStatus s.ledger i, i.amount⟩, j, ?_, hj, hid, ?_⟩
    · simp [Tally.push, Tally.append, hns, hnr]
    · exact ⟨hpk', hamount, fun hs => absurd hs hns, fun hr => absurd hr hnr⟩

theorem processInstruction_ok (hpk : P i.pk) (hi : s.instructions.get i.pk = some i)
    (h : processInstruction settings batch handle tally i s = .ok (tally', t)) :
    Works P s t ∧ ∃ item j, tally' = tally.push item ∧ t.instructions.get i.pk = some j ∧
      j.identity = i.identity ∧ Verdict t.toBulkStore item j := by
  obtain ⟨_, s₁, hheart, h₁⟩ := bind_ok.mp h
  obtain ⟨_, s₂, hassert, h₂⟩ := bind_ok.mp h₁
  have hfence : ∀ Q : Uuid → Prop, Works Q s s₂ := fun Q =>
    (Works.heartbeat handle _ _ _ hheart).trans (Works.assertCurrentOwner _ _ _ _ hassert)
  have hi₂ : s₂.instructions.get i.pk = some i := ((hfence fun _ => False).others i.pk id).trans hi
  split at h₂
  next =>
    obtain ⟨rfl, rfl⟩ := pure_ok.mp h₂
    refine ⟨hfence P, ⟨i.pk, .review, i.amount⟩, i, ?_, hi₂, rfl, ⟨rfl, rfl, nofun, nofun⟩⟩
    simp [Tally.push, Tally.append]
  next =>
    obtain ⟨j, s₃, hbind, h₃⟩ := bind_ok.mp h₂
    obtain ⟨hw₃, hj, hid, -⟩ := bind_works hpk hi₂ hbind
    have hjpk : j.pk = i.pk := congrArg Prod.fst hid
    obtain ⟨f, _, hmat, h₄⟩ := bind_ok.mp h₃
    rw [hjpk] at hmat
    obtain ⟨rfl, hf⟩ := materialize_ok hj hmat
    obtain ⟨hw₄, item, k, htally, hk, hid', hverdict⟩ :=
      project_ok (P := P) (hjpk ▸ hpk) (hjpk ▸ hj) hf h₄
    exact ⟨((hfence P).trans hw₃).trans hw₄, item, k, htally, hjpk ▸ hk, hid'.trans hid, hverdict⟩

/-- The loop appends one item for each instruction. -/
theorem processInstructions_ok {is : List CreditInstruction} (hnodup : (is.map (·.pk)).Nodup)
    (his : ∀ i ∈ is, s.instructions.get i.pk = some i)
    (h : processInstructions settings batch handle is tally s = .ok (tally', t)) :
    Works (· ∈ is.map (·.pk)) s t ∧ ∃ items, tally' = items.foldl Tally.push tally ∧
      List.Forall₂ (fun item i => ∃ j, t.instructions.get i.pk = some j ∧
        j.identity = i.identity ∧ Verdict t.toBulkStore item j) items is := by
  induction is generalizing s tally with
  | nil =>
    obtain ⟨rfl, rfl⟩ := pure_ok.mp h
    exact ⟨Std.Refl.refl _, [], rfl, .nil⟩
  | cons i is ih =>
    obtain ⟨tally₁, u, hround, hrest⟩ := bind_ok.mp h
    obtain ⟨hni, hnodup⟩ := List.nodup_cons.mp hnodup
    obtain ⟨hsu, item, j, rfl, hj, hid, hverdict⟩ :=
      processInstruction_ok (P := (· = i.pk)) rfl (his i (.head _)) hround
    have his' : ∀ k ∈ is, u.instructions.get k.pk = some k := by
      intro k hk
      have hne : k.pk ≠ i.pk := fun heq => hni (List.mem_map.mpr ⟨k, hk, heq⟩)
      rw [hsu.others _ hne]
      exact his k (.tail _ hk)
    obtain ⟨hut, items, rfl, hall⟩ := ih hnodup his' hrest
    refine ⟨?_, item :: items, rfl, .cons ⟨j, ?_, hid, hverdict.of_works hut⟩ hall⟩
    · refine (hsu.mono ?_).trans (hut.mono fun k hk => List.mem_cons_of_mem _ hk)
      rintro k rfl
      exact .head _
    · rw [hut.others _ hni]
      exact hj

/-! ## Decision and projection -/

open BatchDecisionService

theorem decisionFor_eq_some {db : BulkStore} {pk : Uuid} {digest : Digest DecisionInputs}
    {d : GovStackBatchDecision} (h : db.decisionFor pk digest = some d) :
    d ∈ db.decisions.rows ∧ d.batch = pk ∧ d.fingerprint = digest := by
  have hd := List.find?_some h
  simp only [decide_eq_true_eq] at hd
  exact ⟨List.mem_of_find?_eq_some h, hd⟩

/-- A decision is the stored one of its inputs, or new. -/
inductive Decides (row : Uuid → GovStackBatchDecision) (s t : BulkStore) :
    GovStackBatchDecision → Bool → Prop where
  | replayed (d : GovStackBatchDecision) (stored : d ∈ s.decisions.rows)
      (batch : d.batch = (row 0).batch) (fingerprint : d.fingerprint = (row 0).fingerprint)
      (decisions : t.decisions = s.decisions) : Decides row s t d false
  | recorded (decisions : s.decisions.insert (row s.decisions.next) = .ok t.decisions) :
      Decides row s t (row s.decisions.next) true

namespace Decides

variable {row : Uuid → GovStackBatchDecision} {db db' : BulkStore} {d : GovStackBatchDecision}

theorem of_replayed (h : Decides row db db' d false) : db'.decisions = db.decisions := by
  cases h
  assumption

theorem of_created (h : Decides row db db' d true) :
    d = row db.decisions.next ∧ db.decisions.insert d = .ok db'.decisions := by
  cases h
  exact ⟨rfl, by assumption⟩

end Decides

theorem createOrReplay_ok {b : Uuid → GovStackBatchDecision} {d : GovStackBatchDecision}
    {created : Bool}
    (h : createOrReplay (b 0).batch (b 0).fingerprint b s = .ok ((d, created), t)) :
    t = { s with decisions := t.decisions } ∧
      Decides b s.toBulkStore t.toBulkStore d created := by
  unfold createOrReplay exceptIntegrityError at h
  split at h
  · obtain ⟨_, _, hget, h₁⟩ := bind_ok.mp h
    cases hget
    cases hf : s.decisionFor (b 0).batch (b 0).fingerprint with
    | none =>
      simp only [hf] at h₁
      cases h₁
    | some existing =>
      simp only [hf] at h₁
      cases h₁
      obtain ⟨hmem, hbatch, hdigest⟩ := decisionFor_eq_some hf
      exact ⟨rfl, .replayed _ hmem hbatch hdigest rfl⟩
  · obtain ⟨d', u, hcreate, h₁⟩ := bind_ok.mp h
    obtain ⟨rfl, T, hins, rfl⟩ := create_ok.mp hcreate
    cases h₁
    exact ⟨rfl, .recorded hins⟩

theorem decide_ok {pk : Uuid} {items : List ChildItem} {threshold : Threshold} {returnFunds : Bool}
    {d : GovStackBatchDecision} {created : Bool}
    (h : BatchDecisionService.decide pk handle items threshold returnFunds s =
      .ok ((d, created), t)) :
    ∃ u, (∀ P, Works P s u) ∧ t = { u with decisions := t.decisions } ∧
      Decides (decisionRow pk handle (canonicalItems items) threshold returnFunds)
        s.toBulkStore t.toBulkStore d created := by
  unfold BatchDecisionService.decide at h
  simp only at h
  split at h
  · cases h
  obtain ⟨_, u, hassert, h₁⟩ := bind_ok.mp h
  have hsu : ∀ P, Works P s u := fun P => Works.assertCurrentOwner _ _ _ _ hassert
  have hsame : u.decisions = s.decisions := (hsu fun _ => False).decisions
  obtain ⟨_, _, hget, h₂⟩ := bind_ok.mp h₁
  cases hget
  refine ⟨u, hsu, ?_⟩
  cases hother : u.otherDecision pk handle.generation
    (decisionRow pk handle (canonicalItems items) threshold returnFunds 0).fingerprint with
  | some other =>
    simp only [hother] at h₂
    cases h₂
  | none =>
  simp only [hother] at h₂
  cases hfor : u.decisionFor pk
    (decisionRow pk handle (canonicalItems items) threshold returnFunds 0).fingerprint with
  | some existing =>
    simp only [hfor] at h₂
    cases h₂
    obtain ⟨hmem, hbatch, hdigest⟩ := decisionFor_eq_some hfor
    exact ⟨rfl, .replayed _ (hsame ▸ hmem) hbatch hdigest hsame⟩
  | none =>
    simp only [hfor] at h₂
    obtain ⟨hframe, hdecides⟩ := createOrReplay_ok
      (b := decisionRow pk handle (canonicalItems items) threshold returnFunds) h₂
    refine ⟨hframe, ?_⟩
    cases hdecides with
    | replayed _ stored batch fingerprint decisions =>
      exact .replayed _ (hsame ▸ stored) batch fingerprint (decisions.trans hsame)
    | recorded decisions =>
      rw [hsame] at decisions ⊢
      exact .recorded decisions

/-- The columns that a projection writes. -/
def projected (tally : Tally) (d : GovStackBatchDecision) (resultGeneratedAt : Option Instant)
    (row : BulkPaymentBatch) : BulkPaymentBatch :=
  { row with
    status := projectedStatus d
    completedAmount := tally.settledAmount
    failedAmount := tally.rejectedAmount
    resultGeneratedAt := resultGeneratedAt }

theorem projectDecision_ok {pk : Uuid} {d : GovStackBatchDecision} {v : Unit}
    (h : projectDecision pk handle tally d s = .ok (v, t)) :
    (d.outcomeAction.closes = true → d.nonFinalCount = 0) ∧ ∃ u generatedAt, (∀ P, Works P s u) ∧
      s.batches.update pk (projected tally d generatedAt) = .ok t.batches ∧
        t = { u with batches := t.batches } := by
  unfold projectDecision at h
  split at h
  · cases h
  next hc =>
  obtain ⟨generatedAt, u₁, hat, h₁⟩ := bind_ok.mp h
  have hsu₁ : ∀ P, Works P s u₁ := fun P =>
    Within.ite (fun _ => .bind Works.timezoneNow fun _ => .pure _) (fun _ => .pure _) _ _ _ hat
  obtain ⟨_, u₂, hassert, hwrite⟩ := bind_ok.mp h₁
  have hsu₂ : ∀ P, Works P s u₂ := fun P =>
    (hsu₁ P).trans (Works.assertCurrentOwner _ _ _ _ hassert)
  obtain ⟨T, hupd, rfl⟩ := write_ok.mp hwrite
  refine ⟨fun hcloses => by simpa [hcloses] using hc, u₂, generatedAt, hsu₂, ?_, rfl⟩
  rw [← (hsu₂ fun _ => False).batches]
  exact hupd

theorem announce_works (d : GovStackBatchDecision) :
    Within (Works P) (announce batch handle d) := by
  refine .bind (Works.assertCurrentOwner _) fun _ =>
    .bind (Works.zoom (getOrCreateAttempt_calm _ _ _ _ _ _) (getOrCreateAttempt_trails _ _ _ _ _ _))
      fun r => ?_
  obtain ⟨attempt, created⟩ := r
  exact .bind (Works.assertCurrentOwner _) fun _ => .bind Works.timezoneNow fun _ =>
    .bind (Works.zoom (queueCallback_calm _ _ _ _) (queueCallback_trails _ _ _ _)) fun _ => .pure _

/-- A new decision is audited exactly once. -/
theorem record_ok {d : GovStackBatchDecision} {created : Bool} {v : Unit}
    (h : record batch handle d created s = .ok (v, t)) :
    if created then ∃ u, (∀ P, Works P s u) ∧ ∀ P, Works P (audited u (decisionEntry batch d)) t
    else t = s := by
  unfold record at h
  cases created with
  | false =>
    obtain ⟨-, rfl⟩ := pure_ok.mp h
    rfl
  | true =>
    obtain ⟨_, u, hassert, h₁⟩ := bind_ok.mp h
    obtain ⟨_, w, haudit, h₂⟩ := bind_ok.mp h₁
    cases haudit
    refine ⟨u, fun P => Works.assertCurrentOwner _ _ _ _ hassert, fun P => ?_⟩
    split at h₂
    · exact announce_works _ _ _ _ h₂
    · obtain ⟨-, rfl⟩ := pure_ok.mp h₂
      exact Std.Refl.refl _

/-! ## The transaction as a whole -/

theorem mem_instructionsOf {db : BulkStore} {pk : Uuid} :
    i ∈ db.instructionsOf pk ↔ db.instructions.get i.pk = some i ∧ i.batch = pk := by
  rw [BulkStore.instructionsOf, List.mem_filter, decide_eq_true_eq, Table.get_eq_some]
  exact ⟨fun h => ⟨⟨h.1, rfl⟩, h.2⟩, fun h => ⟨h.1.1, h.2⟩⟩

theorem nodup_instructionsOf (db : BulkStore) (pk : Uuid) :
    ((db.instructionsOf pk).map (·.pk)).Nodup := by
  refine List.Pairwise.map _ (fun _ _ h => h) ?_
  exact (db.instructions.apart.imp fun h => h.1).filter _

/-- The items of the loop, with the sums over them. -/
def tallied (items : List ChildItem) : Tally := items.foldl Tally.push {}

@[simp] theorem tallied_nil : tallied [] = {} := rfl

theorem tallied_append (items : List ChildItem) (item : ChildItem) :
    tallied (items ++ [item]) = (tallied items).push item := by
  simp [tallied]

@[simp] theorem tallied_items (items : List ChildItem) : (tallied items).items = items := by
  induction items using List.reverseRecOn with
  | nil => rfl
  | append_singleton items item ih => rw [tallied_append, Tally.push, ih]

/-- The loop, the decision, its projection and its record, one after the other. -/
structure Processed (settings : BulkSettings) (handle : BatchLeaseHandle) (b : BulkPaymentBatch)
    (s t : Session) (items : List ChildItem) (d : GovStackBatchDecision) (created : Bool)
    (u v w : Session) : Prop where
  works : Works (· ∈ (s.instructionsOf b.pk).map (·.pk)) s u
  verdicts : List.Forall₂ (fun item i => ∃ j, u.instructions.get i.pk = some j ∧
    j.identity = i.identity ∧ Verdict u.toBulkStore item j) items (s.instructionsOf b.pk)
  decides : BatchDecisionService.decide b.pk handle items settings.failureThreshold
    settings.returnFundsEnabled u = .ok ((d, created), v)
  projects : projectDecision b.pk handle (tallied items) d v = .ok ((), w)
  records : record b handle d created w = .ok ((), t)

theorem processBatch_ok {pk : Uuid} {x : Unit}
    (h : processBatch settings pk handle s = .ok (x, t)) :
    ∃ b, s.batches.get pk = some b ∧ s.Owns handle (s.clock.headD 0) ∧
      if processable b then
        ∃ items d created u v w, Processed settings handle b s t items d created u v w
      else ∀ P, Works P s t := by
  obtain ⟨b, s₀, hlock, h₁⟩ := bind_ok.mp h
  obtain ⟨rfl, hb⟩ := lockBatch_ok hlock
  obtain rfl : b.pk = pk := Table.pk_of_get hb
  obtain ⟨_, s₁, hassert, h₂⟩ := bind_ok.mp h₁
  refine ⟨b, hb, (BatchLeaseService.assertCurrentOwner_ok hassert).1, ?_⟩
  have hs₁ : ∀ P, Works P s₀ s₁ := fun P => Works.assertCurrentOwner _ _ _ _ hassert
  split at h₂
  next hproc =>
    rw [if_pos hproc]
    obtain ⟨_, s₂, hheart, h₃⟩ := bind_ok.mp h₂
    have hs₂ : ∀ P, Works P s₀ s₂ := fun P => (hs₁ P).trans (Works.heartbeat _ _ _ _ hheart)
    obtain ⟨_, _, hget, h₄⟩ := bind_ok.mp h₃
    cases hget
    rw [BulkStore.instructionsOf, (hs₂ _).instructions_eq] at h₄
    obtain ⟨tally, s₃, hloop, h₅⟩ := bind_ok.mp h₄
    obtain ⟨hworks, items, rfl, hall⟩ := processInstructions_ok (nodup_instructionsOf _ _)
      (fun i hi => (((hs₂ fun _ => False).others i.pk id)).trans (mem_instructionsOf.mp hi).1) hloop
    obtain ⟨_, s₄, hassert', h₆⟩ := bind_ok.mp h₅
    have hs₄ : ∀ P, Works P s₃ s₄ := fun P => Works.assertCurrentOwner _ _ _ _ hassert'
    obtain ⟨⟨d, created⟩, s₅, hdecide, h₇⟩ := bind_ok.mp h₆
    obtain ⟨_, s₆, hproject, hrecord⟩ := bind_ok.mp h₇
    rw [show (items.foldl Tally.push {}).items = items from tallied_items items] at hdecide
    refine ⟨items, d, created, s₄, s₅, s₆,
      ⟨((hs₂ _).trans hworks).trans (hs₄ _), ?_, hdecide, hproject,
      hrecord⟩⟩
    refine hall.imp ?_
    rintro item i ⟨j, hj, hid, hverdict⟩
    exact ⟨j, ((hs₄ fun _ => False).others i.pk id).trans hj, hid,
      hverdict.of_works (hs₄ fun _ => False)⟩
  next hproc =>
    rw [if_neg hproc]
    obtain ⟨-, rfl⟩ := pure_ok.mp h₂
    exact hs₁

end BulkTask

/-! ## Receiving a batch -/

namespace GovStackBulkPaymentService

variable {s t : Session} {pk : Uuid} {b : BulkPaymentBatch}

/-- An instruction of `batch` to which nothing has happened yet. -/
structure Received (batch : Uuid) (i : CreditInstruction) : Prop where
  batch : i.batch = batch
  status : i.status = .pending
  unbound : i.paymentAttempt = none

theorem createInstructions_ok {items : List InstructionItem} {u : Unit}
    (h : createInstructions pk items s = .ok (u, t)) :
    t = { s with instructions := t.instructions } ∧ ∃ is : List CreditInstruction,
      t.instructions.rows = s.instructions.rows ++ is ∧ (∀ i ∈ is, Received pk i) ∧
        is.map (·.amount) = items.map (·.amount) := by
  induction items generalizing s with
  | nil =>
    obtain ⟨-, rfl⟩ := pure_ok.mp h
    exact ⟨rfl, [], by simp⟩
  | cons item items ih =>
    obtain ⟨i, s₁, hcreate, hrest⟩ := bind_ok.mp h
    obtain ⟨hi, T, hins, rfl⟩ := create_ok.mp hcreate
    obtain ⟨hframe, is, hrows, hbatch, hamounts⟩ := ih hrest
    have hrows₁ : T.rows = s.instructions.rows ++ [i] := (Table.insert_ok.mp hins).2
    refine ⟨hframe, i :: is, ?_, ?_, ?_⟩
    · rw [hrows, show (instructionTable.set T s).instructions.rows = T.rows from rfl, hrows₁,
        List.append_assoc, List.singleton_append]
    · intro j hj
      rcases List.mem_cons.mp hj with rfl | hj
      · exact hi ▸ ⟨rfl, rfl, rfl⟩
      · exact hbatch j hj
    · rw [List.map_cons, List.map_cons, hamounts, hi]

/-- A batch is received with all of its instructions, and its total is their sum. -/
theorem receiveBatch_ok {requestId sourceBbId batchId callbackUrl correlationId : String}
    {items : List InstructionItem}
    (h : receiveBatch requestId sourceBbId batchId items callbackUrl correlationId s = .ok (b, t)) :
    b.pk = s.batches.next ∧ b.status = .received ∧
      b.totalAmount = some (items.map (·.amount)).sum ∧ s.batches.insert b = .ok t.batches ∧
      (∃ is : List CreditInstruction, t.instructions.rows = s.instructions.rows ++ is ∧
        (∀ i ∈ is, Received b.pk i) ∧ is.map (·.amount) = items.map (·.amount)) ∧
      ∃ entry : AuditEntry, entry.objectType = "batch" ∧
        t = { audited s entry with batches := t.batches, instructions := t.instructions } := by
  unfold receiveBatch exceptIntegrityError at h
  split at h
  · cases h
  obtain ⟨b', s₁, hcreate, h₁⟩ := bind_ok.mp h
  obtain ⟨hb, T, hins, rfl⟩ := create_ok.mp hcreate
  obtain ⟨_, s₂, hloop, h₂⟩ := bind_ok.mp h₁
  obtain ⟨hframe, is, hrows, hbatch, hamounts⟩ := createInstructions_ok hloop
  obtain ⟨_, s₃, haudit, h₃⟩ := bind_ok.mp h₂
  cases haudit
  cases h₃
  subst hb
  refine ⟨rfl, rfl, rfl, ?_, ⟨is, hrows, hbatch, hamounts⟩, ?_⟩
  · rw [hframe]
    exact hins
  · rw [hframe]
    refine ⟨_, ?_, rfl⟩
    rfl

end GovStackBulkPaymentService

end Civicos.Payments
