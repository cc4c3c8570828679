import Civicos.Payments.RuntimeSystem

/-!
# The audit trail of the lifecycle

The trail only grows, and every entry that the lifecycle service appends is about a payment
attempt.
-/
namespace Civicos.Payments

open Library Library.Transaction

namespace Ledger

/-- Entries that satisfy `P` were appended to the trail. -/
def Appends (P : AuditEntry → Prop) (l l' : Ledger) : Prop :=
  ∃ new, l'.audits = l.audits ++ new ∧ ∀ e ∈ new, P e

namespace Appends

variable {P Q : AuditEntry → Prop} {l l' l'' : Ledger}

instance : Std.Refl (Appends P) := ⟨fun _ => ⟨[], by simp, by simp⟩⟩

instance : IsTrans Ledger (Appends P) where
  trans := by
    rintro l l' l'' ⟨new, h, hnew⟩ ⟨new', h', hnew'⟩
    refine ⟨new ++ new', by rw [h', h, List.append_assoc], fun e he => ?_⟩
    rcases List.mem_append.mp he with he | he
    · exact hnew e he
    · exact hnew' e he

theorem of_eq (h : l'.audits = l.audits) : Appends P l l' := ⟨[], by simp [h], by simp⟩

theorem trans (h : Appends P l l') (h' : Appends P l' l'') : Appends P l l'' :=
  IsTrans.trans _ _ _ h h'

instance [DecidablePred P] : Decidable (Appends P l l') :=
  decidable_of_iff (l.audits <+: l'.audits ∧ ∀ e ∈ l'.audits.drop l.audits.length, P e) (by
    constructor
    · rintro ⟨⟨new, hnew⟩, hP⟩
      rw [← hnew, List.drop_left] at hP
      exact ⟨new, hnew.symm, hP⟩
    · rintro ⟨new, hnew, hP⟩
      rw [hnew, List.drop_left]
      exact ⟨⟨new, rfl⟩, hP⟩)

end Appends

end Ledger

/-- The entry is about a payment attempt. -/
def AuditEntry.AboutAttempt (e : AuditEntry) : Prop := e.objectType = "payment_attempt"

/-- What the lifecycle service does to the trail. -/
abbrev Trails : Ledger → Ledger → Prop := Ledger.Appends AuditEntry.AboutAttempt

section Rows

variable {α : Type} {S : Schema α} {ℓ : Lens Ledger (Table S)}

/-- Reading and writing rows leaves the trail alone. -/
theorem lookup_trails (missing : PaymentError) (k : ℕ) : Within Trails (lookup ℓ missing k) := by
  intro l r l' h
  obtain ⟨-, rfl⟩ := lookup_ok.mp h
  exact .of_eq rfl

variable (hℓ : ∀ t l, (ℓ.set t l).audits = l.audits)

include hℓ

theorem create_trails (refuse : Violation → PaymentError) (build : ℕ → α) :
    Within Trails (create ℓ refuse build) := by
  intro l r l' h
  obtain ⟨-, t, -, rfl⟩ := create_ok.mp h
  exact .of_eq (hℓ t l)

theorem write_trails (refuse : Violation → PaymentError) (k : ℕ) (f : α → α) :
    Within Trails (write ℓ refuse k f) := by
  intro l u l' h
  obtain ⟨t, -, rfl⟩ := write_ok.mp h
  exact .of_eq (hℓ t l)

end Rows

theorem lift_trails {α : Type} (x : Except PaymentError α) : Within Trails (liftM x : Tx α) := by
  intro l a l' h
  obtain ⟨-, rfl⟩ := lift_ok.mp h
  exact .of_eq rfl

namespace PaymentAttempt

theorem getLocked_trails (pk : Uuid) : Within Trails (getLocked pk) := lookup_trails _ _

theorem save_trails (a : PaymentAttempt) : Within Trails a.save :=
  write_trails (fun _ _ => rfl) _ _ _

end PaymentAttempt

namespace PaymentLifecycleService

variable (a : PaymentAttempt) (pk : Uuid) (now : Instant)

theorem audit_trails (action : AuditAction) (details : Json) :
    Within Trails (audit a action details) := by
  rintro l _ _ ⟨⟩
  exact ⟨_, rfl, by simp [AuditEntry.AboutAttempt]⟩

theorem getOrCreateAttempt_trails (tenantId operation requestId : String) (payload : Json)
    (defaults : PaymentAttempt.Defaults) (auditCreated : Bool) : Within Trails
      (getOrCreateAttempt tenantId operation requestId payload defaults auditCreated) :=
  getOrCreateAttempt_within (fun _ _ _ _ => create_trails (fun _ _ => rfl) _ _) audit_trails

theorem schedule_trails (target : AttemptStatus) : Within Trails (schedule a target now) := by
  cases target with
  | retryable | uncertain | review | deadLetter =>
    exact .bind (audit_trails _ _ _) fun _ => .pure _
  | pending | settled | rejected => exact .pure _

theorem applyOutcome_trails (outcome : PaymentOutcome) :
    Within Trails (applyOutcome pk outcome now) :=
  .bind (PaymentAttempt.getLocked_trails _) fun _ => .ite (fun _ => .pure _) fun _ =>
    .bind (lift_trails _) fun _ => .bind (schedule_trails _ _ _) fun _ =>
      .bind (PaymentAttempt.save_trails _) fun _ => .bind (audit_trails _ _ _) fun _ => .pure _

theorem queueCallback_trails (url : String) (payload : Json) :
    Within Trails (queueCallback a url payload now) :=
  queueCallback_within (create_trails (fun _ _ => rfl) _) audit_trails

end PaymentLifecycleService

end Civicos.Payments
