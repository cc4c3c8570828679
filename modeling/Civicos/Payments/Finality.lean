import Civicos.Payments.RuntimeSystem

/-!
# Finality is sound and absorbing

The accepted observations of an attempt and its status determine each other: none while the
attempt is live, exactly one binding observation with the same outcome once it is terminal.
-/
namespace Civicos.Payments

open Library Library.Transaction Ledger

/-- Evidence is bound through the columns that are fixed at creation. -/
theorem ProviderObservation.Binds.of_identity {o : ProviderObservation} {a b : PaymentAttempt}
    (h : o.Binds a) (hid : b.identity = a.identity) : o.Binds b := by
  simp only [PaymentAttempt.identity, Prod.mk.injEq] at hid
  obtain ⟨hpk, htenant, -, -, -, hamount, hcurrency⟩ := hid
  exact {
    attempt := hpk ▸ h.attempt
    tenant := htenant ▸ h.tenant
    amount := hamount ▸ h.amount
    currency := hcurrency ▸ h.currency
    hash := by
      rw [h.hash]
      simp only [PaymentLifecycleService.bindingHash, hpk, htenant, hamount, hcurrency]
    verified := h.verified }

namespace Ledger

variable {L : AttemptStatus → Prop} {l l' : Ledger} {a b : PaymentAttempt} {pk : Uuid}
  {o : ProviderObservation}

/-- `o` is the evidence that the finality of `a` rests on. -/
structure Rests (a : PaymentAttempt) (o : ProviderObservation) : Prop where
  binds : o.Binds a
  outcome : o.outcome.final = some a.status
  reference : a.externalTransactionId = o.providerTransactionId

/-- The status of an attempt is what the accepted observations say. -/
structure Agrees (l : Ledger) (a : PaymentAttempt) : Prop where
  terminal : a.isTerminal = true → ∃ o, l.accepted a.pk = [o] ∧ Rests a o
  live : a.isTerminal = false → l.accepted a.pk = []

structure Sound (l : Ledger) : Prop where
  agrees : ∀ pk a, l.attempt pk = some a → l.Agrees a
  known : ∀ o ∈ l.observations.rows, ∃ a, l.attempt o.attempt = some a

theorem Agrees.of_accepted (h : l.Agrees a) (he : l'.accepted a.pk = l.accepted a.pk) :
    l'.Agrees a :=
  ⟨he ▸ h.terminal, he ▸ h.live⟩

theorem mem_accepted : o ∈ l.accepted pk ↔
    o ∈ l.observations.rows ∧ o.acceptedFinality = true ∧ o.attempt = pk := by
  simp [accepted]

theorem attempt_insert (h : l.attempts.insert a = .ok l'.attempts) (k : Uuid) :
    l'.attempt k = if a.pk = k then some a else l.attempt k :=
  Table.get_insert h k

theorem attempt_update (h : l.attempts.update a.pk (fun _ => b) = .ok l'.attempts)
    (hget : l.attempt a.pk = some a) (hid : b.identity = a.identity) (k : Uuid) :
    l'.attempt k = if a.pk = k then some b else l.attempt k :=
  Table.get_update h hget (congrArg Prod.fst hid) k

theorem accepted_insert (h : l.observations.insert o = .ok l'.observations) (k : Uuid) :
    l'.accepted k =
      l.accepted k ++ if o.acceptedFinality = true ∧ o.attempt = k then [o] else [] := by
  simp only [accepted, (Table.insert_ok.mp h).2, List.filter_append, List.filter_cons,
    List.filter_nil, decide_eq_true_eq]

/-- The partial index admits one accepted observation for each attempt. -/
theorem not_accepted_of_insert (h : l.observations.insert o = .ok l'.observations)
    (ho : o.acceptedFinality = true) : l.accepted o.attempt = [] := by
  refine List.eq_nil_iff_forall_not_mem.mpr fun p hp => ?_
  obtain ⟨hp, hacc, hatt⟩ := mem_accepted.mp hp
  refine ((Table.insert_ok.mp h).1.2 p hp).2 ProviderObservation.oneAcceptedFinality
    (.tail _ (.head _)) ⟨?_, ?_⟩
  · simp [ProviderObservation.oneAcceptedFinality, hacc]
  · simp [ProviderObservation.oneAcceptedFinality, hacc, ho, hatt]

theorem Agrees.of_touch {a' : PaymentAttempt} (h : l.Agrees a) (hid : a'.identity = a.identity)
    (hstatus : a'.status = a.status)
    (href : a'.externalTransactionId = a.externalTransactionId) : l.Agrees a' := by
  have hpk : a'.pk = a.pk := congrArg Prod.fst hid
  constructor
  · intro hterm
    obtain ⟨o, ho, hrests⟩ := h.terminal (by simpa [PaymentAttempt.isTerminal, hstatus] using hterm)
    exact ⟨o, hpk ▸ ho,
      hrests.binds.of_identity hid, hstatus ▸ hrests.outcome, href ▸ hrests.reference⟩
  · intro hlive
    exact hpk ▸ h.live (by simpa [PaymentAttempt.isTerminal, hstatus] using hlive)

theorem isTerminal_of_final {r : Report} {s : AttemptStatus} (h : r.final = some s) :
    s.isTerminal = true := by
  cases r <;> cases h <;> rfl

/-- The writes that ask for live statuses only keep finality sound. -/
theorem Change.sound (h : Change (·.isTerminal = false) l l') (hs : l.Sound) : l'.Sound := by
  cases h with
  | quiet attempts observations _ | mark attempts observations _ =>
    have ha : ∀ pk, l'.attempt pk = l.attempt pk := fun pk => by rw [attempt, attempts, attempt]
    have ho : ∀ pk, l'.accepted pk = l.accepted pk := fun pk => by
      rw [accepted, observations, accepted]
    exact ⟨fun pk a h => (hs.agrees pk a (ha pk ▸ h)).of_accepted (ho _),
      fun o h => ha o.attempt ▸ hs.known o (observations ▸ h)⟩
  | insert a pending pk attempts observations _ =>
    have ha := attempt_insert attempts
    have ho : ∀ pk, l'.accepted pk = l.accepted pk := fun pk => by
      rw [accepted, observations, accepted]
    -- No observation refers to the new row.
    have hnew : l.accepted a.pk = [] := by
      refine List.eq_nil_iff_forall_not_mem.mpr fun o hmem => ?_
      obtain ⟨hrow, -, hatt⟩ := mem_accepted.mp hmem
      obtain ⟨b, hb⟩ := hs.known o hrow
      rw [hatt, pk, attempt, Table.get_next] at hb
      cases hb
    refine ⟨fun k b hb => ?_, fun o h => ?_⟩
    · rw [ha] at hb
      split at hb
      · cases hb
        exact ⟨by simp [PaymentAttempt.isTerminal, pending, AttemptStatus.isTerminal],
          fun _ => (ho _).trans hnew⟩
      · exact (hs.agrees k b hb).of_accepted (ho _)
    · obtain ⟨b, hb⟩ := hs.known o (observations ▸ h)
      rw [ha]
      split
      · exact ⟨a, rfl⟩
      · exact ⟨b, hb⟩
  | touch a a' get identity status reference attempts observations _ =>
    have ha := attempt_update attempts get identity
    have ho : ∀ pk, l'.accepted pk = l.accepted pk := fun pk => by
      rw [accepted, observations, accepted]
    refine ⟨fun k b hb => ?_, fun o h => ?_⟩
    · rw [ha] at hb
      split at hb
      · cases hb
        exact ((hs.agrees _ _ get).of_touch identity status reference).of_accepted (ho _)
      · exact (hs.agrees k b hb).of_accepted (ho _)
    · obtain ⟨b, hb⟩ := hs.known o (observations ▸ h)
      rw [ha]
      split
      · exact ⟨a', rfl⟩
      · exact ⟨b, hb⟩
  | move a a' get live identity status attempts observations _ =>
    have ha := attempt_update attempts get identity
    have ho : ∀ pk, l'.accepted pk = l.accepted pk := fun pk => by
      rw [accepted, observations, accepted]
    have hpk : a'.pk = a.pk := congrArg Prod.fst identity
    refine ⟨fun k b hb => ?_, fun o h => ?_⟩
    · rw [ha] at hb
      split at hb
      · cases hb
        exact ⟨fun hterm => by simp [PaymentAttempt.isTerminal, status] at hterm,
          fun _ => by rw [ho, hpk, (hs.agrees _ _ get).live live]⟩
      · exact (hs.agrees k b hb).of_accepted (ho _)
    · obtain ⟨b, hb⟩ := hs.known o (observations ▸ h)
      rw [ha]
      split
      · exact ⟨a', rfl⟩
      · exact ⟨b, hb⟩
  | observe a o get bound late observations attempts _ =>
    have ha : ∀ pk, l'.attempt pk = l.attempt pk := fun pk => by rw [attempt, attempts, attempt]
    -- A late observation cannot be accepted: its attempt already has one.
    have hacc : o.acceptedFinality = false := by
      by_contra hne
      have hacc : o.acceptedFinality = true := by simpa using hne
      obtain ⟨p, hp, -⟩ := (hs.agrees _ _ get).terminal (late hacc)
      rw [← bound, not_accepted_of_insert observations hacc] at hp
      cases hp
    have ho : ∀ pk, l'.accepted pk = l.accepted pk := fun pk => by
      simp [accepted_insert observations, hacc]
    refine ⟨fun pk b h => (hs.agrees pk b (ha pk ▸ h)).of_accepted (ho _), fun p h => ?_⟩
    rw [Table.mem_insert observations] at h
    rw [ha]
    obtain h | rfl := h
    · exact hs.known p h
    · exact ⟨a, bound ▸ get⟩
  | settle a a' o get live identity binds accepted status reference observations attempts _ =>
    have ha := attempt_update attempts get identity
    have ho := accepted_insert observations
    have hpk : a'.pk = a.pk := congrArg Prod.fst identity
    refine ⟨fun k b hb => ?_, fun p h => ?_⟩
    · rw [ha] at hb
      split at hb
      · cases hb
        refine ⟨fun _ => ⟨o, ?_, binds.of_identity identity, status, reference⟩, fun hlive => ?_⟩
        · rw [ho, hpk, (hs.agrees _ _ get).live live, if_pos ⟨accepted, binds.attempt⟩]
          rfl
        · simp [PaymentAttempt.isTerminal, isTerminal_of_final status] at hlive
      next hne =>
        refine (hs.agrees k b hb).of_accepted ?_
        rw [ho, if_neg fun h => hne ?_, List.append_nil]
        rw [← binds.attempt, h.2, PaymentAttempt.pk_of_attempt hb]
    · rw [Table.mem_insert observations] at h
      rw [ha]
      split
      · exact ⟨a', rfl⟩
      next hne =>
        obtain h | rfl := h
        · exact hs.known p h
        · exact absurd binds.attempt.symm hne

theorem Evolves.sound (h : Evolves (·.isTerminal = false) l l') (hs : l.Sound) : l'.Sound := by
  induction h with
  | refl => exact hs
  | tail _ h ih => exact h.sound ih

/-! ## Terminal statuses absorb -/

/-- What survives of an attempt: its identity, and a terminal status. -/
def Descends (a b : PaymentAttempt) : Prop :=
  b.identity = a.identity ∧ (a.isTerminal = true → b.status = a.status)

theorem Change.descends (h : Change L l l') (hget : l.attempt pk = some a) :
    ∃ b, l'.attempt pk = some b ∧ Descends a b := by
  cases h with
  | quiet attempts | mark attempts | observe _ _ _ _ _ _ attempts =>
    exact ⟨a, by rw [attempt, attempts]; exact hget, rfl, fun _ => rfl⟩
  | insert b _ _ attempts =>
    exact ⟨a, Table.get_of_insert attempts hget, rfl, fun _ => rfl⟩
  | touch b b' get identity status _ attempts =>
    rw [attempt_update attempts get identity]
    split
    next hk =>
      obtain rfl : a = b := Option.some.inj (hget.symm.trans (hk ▸ get))
      exact ⟨b', rfl, identity, fun _ => status⟩
    next => exact ⟨a, hget, rfl, fun _ => rfl⟩
  | move b b' get live identity _ attempts
    | settle b b' _ get live identity _ _ _ _ _ attempts =>
    rw [attempt_update attempts get identity]
    split
    next hk =>
      obtain rfl : a = b := Option.some.inj (hget.symm.trans (hk ▸ get))
      exact ⟨b', rfl, identity, fun hterm => by simp [live] at hterm⟩
    next => exact ⟨a, hget, rfl, fun _ => rfl⟩

theorem Evolves.descends (h : Evolves L l l') (hget : l.attempt pk = some a) :
    ∃ b, l'.attempt pk = some b ∧ Descends a b := by
  induction h with
  | refl => exact ⟨a, hget, rfl, fun _ => rfl⟩
  | tail _ h ih =>
    obtain ⟨b, hb, hid, hterm⟩ := ih
    obtain ⟨c, hc, hid', hterm'⟩ := h.descends hb
    refine ⟨c, hc, hid'.trans hid, fun ht => (hterm' ?_).trans (hterm ht)⟩
    simpa [PaymentAttempt.isTerminal, hterm ht] using ht

end Ledger

/-! ## Runs of the runtime -/

/-- The system without writers that set a terminal status on their own account. -/
abbrev evidential : Machine (Pool.State World Worker) (Pool.Label Worker Choice Writer) :=
  runtime.machine.under (asks (·.isTerminal = false))

theorem sound_of_reachable {s : Pool.State World Worker} (h : evidential.Reachable s) :
    s.store.ledger.Sound := by
  refine h.invariant (I := fun s => s.store.ledger.Sound) (fun s₀ h₀ => ?_)
    fun u label v _ hu hstep => ?_
  · obtain ⟨⟨hattempts, -, hobservations, -⟩, -⟩ := h₀
    constructor
    · intro pk a ha
      rw [attempt, hattempts] at ha
      cases ha
    · intro o ho
      rw [hobservations] at ho
      cases ho
  · obtain ⟨hasks, hstep⟩ := Machine.under_step.mp hstep
    exact (step_evolves (fun _ h => h) hasks hstep).sound hu

end Civicos.Payments
