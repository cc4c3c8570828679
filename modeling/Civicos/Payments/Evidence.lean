import Civicos.Payments.Finality

/-!
# When provider evidence survives finalisation

`finalizeClaimedResult` records evidence, applies the mapped outcome and releases the claim in
one transaction: whatever raises in it rolls the evidence back. `Recordable` says exactly when
nothing does.
-/
namespace Civicos.Payments

open Library Library.Transaction Ledger

namespace PaymentLifecycleService

variable {l l' : Ledger} {a b : PaymentAttempt} {pk : Uuid} {now : Instant}
  {outcome : PaymentOutcome} {e : Evidence}

theorem outcomeRow_valid (h : PaymentAttempt.schema.Valid a) (due : Option Instant) :
    PaymentAttempt.schema.Valid (outcomeRow a outcome due) := by
  simp only [Schema.Valid, PaymentAttempt.schema, List.forall_mem_cons, Check.width,
    decide_eq_true_eq, outcomeRow, length_clip_le] at h ⊢
  tauto

theorem applyOutcome_returns (outcome : PaymentOutcome) (now : Instant)
    (hget : l.attempt pk = some a) :
    Returns (applyOutcome pk outcome now) l ↔
      a.isTerminal = true ∨ outcome.status.toStatus ∈ a.status.allowedTransitions := by
  constructor
  · rintro ⟨⟨b, l'⟩, h⟩
    obtain ⟨a', hget', ⟨hterm, -⟩ | ⟨-, hallowed, -⟩⟩ := applyOutcome_ok h
    · exact .inl (Option.some.inj (hget.symm.trans hget') ▸ hterm)
    · exact .inr (Option.some.inj (hget.symm.trans hget') ▸ hallowed)
  · intro h
    refine returns_bind.mpr ⟨a, l, PaymentAttempt.getLocked_ok.mpr ⟨hget, rfl⟩, ?_⟩
    by_cases hterm : a.isTerminal = true
    · simp [hterm]
    · rw [if_neg hterm]
      have hallowed := h.resolve_left hterm
      refine returns_bind.mpr ⟨_, l, lift_ok.mpr ⟨PaymentAttempt.transitionTo_ok.mpr
        ⟨hallowed, rfl⟩, rfl⟩, ?_⟩
      obtain ⟨due, audits, hsched⟩ := schedule_apply _ _ _ _
      refine returns_bind.mpr ⟨_, _, hsched, ?_⟩
      obtain rfl := PaymentAttempt.pk_of_attempt hget
      have hsave : Returns (outcomeRow a outcome due).save { l with audits := audits } :=
        write_returns hget (outcomeRow_valid (PaymentAttempt.valid_of_attempt hget) due) rfl
          (by simp [PaymentAttempt.schema, PaymentAttempt.scopeRequest, outcomeRow])
      obtain ⟨⟨u, l₁⟩, hsave⟩ := hsave
      exact returns_bind.mpr ⟨_, _, hsave, _, rfl⟩

theorem observationRow_valid (a : PaymentAttempt) (e : Evidence) (amount : Cents) (pk : Uuid) :
    ProviderObservation.schema.Valid (observationRow a e amount pk) := by
  simp only [Schema.Valid, ProviderObservation.schema, List.forall_mem_cons, Check.width,
    decide_eq_true_eq, observationRow, length_clip_le, true_and]
  exact fun _ h => absurd h List.not_mem_nil

theorem clip_finalOutcome (n : ℕ) (o : ProviderOutcome) :
    (finalOutcome o).clip n = finalOutcome o := by
  cases o <;> rfl

/-- The row collides with no stored observation: its identity is new, and so is the finality
that it carries. -/
theorem observationRow_apart {amount : Cents} :
    (∀ o ∈ l.observations.rows, ∀ i ∈ ProviderObservation.schema.indexes,
        ¬ i.Clash o (observationRow a e amount pk)) ↔
      (∀ o ∈ l.observations.rows, ¬ (o.observationKind = clip 20 e.observationKind ∧
        o.observationId = clip 160 e.observationId)) ∧
      (e.exact a = true → l.accepted a.pk = []) := by
  have hkind : ∀ o, ProviderObservation.kindId.Clash o (observationRow a e amount pk) ↔
      o.observationKind = clip 20 e.observationKind ∧
        o.observationId = clip 160 e.observationId := by
    simp [Index.Clash, ProviderObservation.kindId, observationRow]
  have hfinal : ∀ o, ProviderObservation.oneAcceptedFinality.Clash o
      (observationRow a e amount pk) ↔
        e.exact a = true ∧ o.acceptedFinality = true ∧ o.attempt = a.pk := by
    intro o
    cases hacc : o.acceptedFinality <;> cases hex : e.exact a <;>
      simp [Index.Clash, ProviderObservation.oneAcceptedFinality, observationRow, hacc, hex]
  simp only [ProviderObservation.schema, List.forall_mem_cons, hkind, hfinal]
  constructor
  · intro h
    refine ⟨fun o ho => (h o ho).1, fun hex => List.eq_nil_iff_forall_not_mem.mpr fun o ho => ?_⟩
    obtain ⟨ho, hacc, hatt⟩ := mem_accepted.mp ho
    exact (h o ho).2.1 ⟨hex, hacc, hatt⟩
  · rintro ⟨hid, hacc⟩ o ho
    refine ⟨hid o ho, ?_, fun _ h => absurd h List.not_mem_nil⟩
    rintro ⟨hex, hoacc, hatt⟩
    have : o ∈ l.accepted a.pk := mem_accepted.mpr ⟨ho, hoacc, hatt⟩
    rw [hacc hex] at this
    cases this

theorem recordObservation_returns (e : Evidence) (now : Instant)
    (hget : l.attempt a.pk = some a) :
    Returns (recordObservation a e now) l ↔ (∃ amount, e.amount = some amount) ∧
      (∀ o ∈ l.observations.rows, ¬ (o.observationKind = clip 20 e.observationKind ∧
        o.observationId = clip 160 e.observationId)) ∧
      (e.exact a = true → l.accepted a.pk = []) ∧
      (e.exact a = true → a.isTerminal = true ∨
        (evidenceOutcome e).status.toStatus ∈ a.status.allowedTransitions) := by
  constructor
  · rintro ⟨⟨o, l'⟩, h⟩
    obtain ⟨amount, t, hamount, rfl, hins, h⟩ := recordObservation_ok hget h
    obtain ⟨hid, hacc⟩ := observationRow_apart.mp fun o ho =>
      ((Table.insert_ok.mp hins).1.2 o ho).2
    refine ⟨⟨amount, hamount⟩, hid, hacc, fun hex => ?_⟩
    by_cases hterm : a.isTerminal = true
    · exact .inl hterm
    · rw [if_pos ⟨hex, by simpa using hterm⟩] at h
      obtain ⟨b, happ⟩ := h
      exact (applyOutcome_returns (l := { l with observations := t }) _ _ hget).mp ⟨_, happ⟩
  · rintro ⟨⟨amount, hamount⟩, hid, hacc, hmove⟩
    refine returns_bind.mpr ⟨a, l, PaymentAttempt.getLocked_ok.mpr ⟨hget, rfl⟩, ?_⟩
    rw [hamount]
    have hcreate : Returns (Transaction.create Ledger.observationTable PaymentError.ofViolation
        (observationRow a e amount)) l :=
      (create_returns rfl).mpr ⟨observationRow_valid a e amount _,
        observationRow_apart.mpr ⟨hid, hacc⟩⟩
    obtain ⟨⟨o, l₁⟩, hcreate⟩ := hcreate
    refine returns_bind.mpr ⟨o, l₁, hcreate, ?_⟩
    obtain ⟨-, t, -, rfl⟩ := create_ok.mp hcreate
    by_cases hc : e.exact a = true ∧ ¬ a.isTerminal = true
    · rw [if_pos hc]
      obtain ⟨r, happ⟩ := (applyOutcome_returns (l := { l with observations := t })
        (evidenceOutcome e) now hget).mpr (hmove hc.1)
      exact returns_bind.mpr ⟨_, _, happ, _, rfl⟩
    · rw [if_neg hc]
      exact ⟨_, rfl⟩

theorem reconcile_returns (provider : Report) (source : String) :
    Returns (reconcile a provider source) l := by
  have hrow : Returns (reconcileRow a provider source) l := by
    refine (create_returns rfl).mpr ⟨?_, fun _ _ i hi => absurd hi List.not_mem_nil⟩
    simp only [Schema.Valid, PaymentReconciliation.schema, List.forall_mem_cons, Check.width,
      decide_eq_true_eq, length_clip_le, true_and]
    exact fun _ h => absurd h List.not_mem_nil
  obtain ⟨⟨r, l₁⟩, hrow⟩ := hrow
  exact returns_bind.mpr ⟨r, l₁, hrow, _, rfl⟩

/-- The result is verified and says settled or rejected. -/
def finalizes (normalized : ProviderResult) : Bool :=
  isVerified normalized ∧
    (finalOutcome normalized.outcome = .settled ∨ finalOutcome normalized.outcome = .rejected)

/-- The status that a result asks for. -/
def target (normalized : ProviderResult) : AttemptStatus :=
  if finalizes normalized then (Report.outcomeStatus (finalOutcome normalized.outcome)).toStatus
  else (nonFinalOutcome normalized).status.toStatus

/-- The identity under which a result is recorded. -/
def recordedId (pk : Uuid) (normalized : ProviderResult) : String :=
  clip 160 (orElse normalized.identifier ("unidentified:" ++ toString pk))

theorem providerEvidence_exact (n : ProviderResult) (source : String) :
    (providerEvidence a n source).exact a = finalizes n := by
  rw [Bool.eq_iff_iff, Evidence.exact_iff]
  cases hv : isVerified n <;> simp [providerEvidence, finalizes, hv]

theorem conclude_returns (n : ProviderResult) (accepted : Bool) (hget : l.attempt pk = some a) :
    Returns (conclude pk accepted n now) l ↔ (accepted = false → a.isTerminal = true ∨
      (nonFinalOutcome n).status.toStatus ∈ a.status.allowedTransitions) := by
  have hrest : ∀ {l₁ : Ledger} {b : PaymentAttempt}, l₁.attempt pk = some b → Returns (do
      let attempt ← PaymentAttempt.getLocked pk
      let _ ← reconcile attempt (if isVerified n then finalOutcome n.outcome else .unknown) :
        Tx Unit) l₁ := by
    intro l₁ b hb
    rw [returns_bind_of_ok (PaymentAttempt.getLocked_ok.mpr ⟨hb, rfl⟩)]
    obtain ⟨⟨r, l₂⟩, hrec⟩ := reconcile_returns (a := b) (l := l₁)
      (if isVerified n then finalOutcome n.outcome else .unknown) ""
    exact returns_bind.mpr ⟨r, l₂, hrec, _, rfl⟩
  unfold conclude
  rw [returns_bind_of_ok (PaymentAttempt.getLocked_ok.mpr ⟨hget, rfl⟩)]
  have happ := applyOutcome_returns (nonFinalOutcome n) now hget
  rw [← PaymentAttempt.pk_of_attempt hget] at happ
  by_cases hc : ¬ accepted = true ∧ ¬ a.isTerminal = true
  · rw [if_pos hc, returns_bind]
    simp only [Bool.not_eq_true] at hc
    simp only [hc, Bool.false_eq_true, false_or, forall_const]
    simp only [hc, Bool.false_eq_true, false_or] at happ
    rw [← happ]
    constructor
    · rintro ⟨b, l₁, hb, -⟩
      exact ⟨_, hb⟩
    · rintro ⟨⟨b, l₁⟩, hb⟩
      obtain ⟨c, hc', -⟩ :=
        (applyOutcome_evolves (L := fun _ => True) trivial _ _ _ hb).descends hget
      exact ⟨b, l₁, hb, hrest hc'⟩
  · rw [if_neg hc]
    simp only [hrest hget, true_iff]
    intro hacc
    simp only [hacc, Bool.false_eq_true, not_false_eq_true, true_and, not_not] at hc
    exact .inl hc

theorem recordProviderResult_returns (result : ProviderResult) (now : Instant) (source : String)
    (hget : l.attempt a.pk = some a) :
    Returns (recordProviderResult a result now source) l ↔ (∃ amount, a.amount = some amount) ∧
      (∀ o ∈ l.observations.rows, ¬ (o.observationKind = clip 20 source ∧
        o.observationId = recordedId a.pk (normalizeResult result))) ∧
      (finalizes (normalizeResult result) = true → l.accepted a.pk = []) ∧
      (a.isTerminal = true ∨ target (normalizeResult result) ∈ a.status.allowedTransitions) := by
  generalize hn : normalizeResult result = n
  have hobs := recordObservation_returns (providerEvidence a n source) now hget
  simp only [providerEvidence_exact] at hobs
  -- After an observation without finality the attempt is as it was.
  have hconclude : ∀ o l₁, recordObservation a (providerEvidence a n source) now l = .ok (o, l₁) →
      (Returns (conclude a.pk o.acceptedFinality n now) l₁ ↔ (finalizes n = false →
        a.isTerminal = true ∨
          (nonFinalOutcome n).status.toStatus ∈ a.status.allowedTransitions)) := by
    intro o l₁ ho
    obtain ⟨b, hb, -⟩ := (recordObservation_evolves (L := fun _ => True) hget ho).descends hget
    rw [conclude_returns n _ hb]
    obtain ⟨amount, t, -, rfl, -, hstate⟩ := recordObservation_ok hget ho
    simp only [observationRow, providerEvidence_exact] at hstate ⊢
    refine imp_congr_right fun hfin => ?_
    rw [if_neg (by simp [hfin])] at hstate
    obtain ⟨audits, rfl⟩ := hstate
    rw [Option.some.inj (hget.symm.trans hb)]
  have hsplit : Returns (recordProviderResult a result now source) l ↔
      Returns (recordObservation a (providerEvidence a n source) now) l ∧ (finalizes n = false →
        a.isTerminal = true ∨
          (nonFinalOutcome n).status.toStatus ∈ a.status.allowedTransitions) := by
    unfold recordProviderResult
    rw [hn, returns_bind]
    constructor
    · rintro ⟨o, l₁, ho, hrest⟩
      obtain ⟨u, l₂, hu, -⟩ := returns_bind.mp hrest
      exact ⟨⟨_, ho⟩, (hconclude o l₁ ho).mp ⟨_, hu⟩⟩
    · rintro ⟨⟨⟨o, l₁⟩, ho⟩, hmove⟩
      obtain ⟨⟨u, l₂⟩, hu⟩ := (hconclude o l₁ ho).mpr hmove
      exact ⟨o, l₁, ho, returns_bind.mpr ⟨u, l₂, hu, _, rfl⟩⟩
  rw [hsplit, hobs]
  have hid : clip 160 (providerEvidence a n source).observationId = recordedId a.pk n := rfl
  simp only [hid, and_assoc]
  refine and_congr Iff.rfl (and_congr Iff.rfl (and_congr Iff.rfl ?_))
  cases hfin : finalizes n <;> simp [target, hfin, evidenceOutcome, providerEvidence]

end PaymentLifecycleService

/-! ## Observations are append-only -/

namespace Ledger

variable {L : AttemptStatus → Prop} {l l' : Ledger} {o : ProviderObservation}

theorem Change.observation (h : Change L l l') (ho : o ∈ l.observations.rows) :
    o ∈ l'.observations.rows := by
  cases h with
  | quiet _ observations | mark _ observations | insert _ _ _ _ observations
    | touch _ _ _ _ _ _ _ observations | move _ _ _ _ _ _ _ observations =>
    exact observations ▸ ho
  | observe _ _ _ _ _ observations | settle _ _ _ _ _ _ _ _ _ _ observations =>
    rw [(Table.insert_ok.mp observations).2]
    exact List.mem_append_left _ ho

theorem Evolves.observation (h : Evolves L l l') (ho : o ∈ l.observations.rows) :
    o ∈ l'.observations.rows := by
  induction h with
  | refl => exact ho
  | tail _ h ih => exact h.observation ih

/-- One row for each observation identity. -/
theorem eq_of_observationId {p : ProviderObservation} (ho : o ∈ l.observations.rows)
    (hp : p ∈ l.observations.rows) (hkind : o.observationKind = p.observationKind)
    (hid : o.observationId = p.observationId) : o = p :=
  Table.eq_of_clash (i := ProviderObservation.kindId) (.head _) ho hp
    ⟨Option.some_ne_none _, by simp [ProviderObservation.kindId, hkind, hid]⟩

end Ledger

/-! ## Finalisation -/

namespace ProviderRuntime

open PaymentLifecycleService

variable {l l' : Ledger} {a : PaymentAttempt} {pk : Uuid} {token : String} {generation : ℕ}
  {result : ProviderResult} {now : Instant}

theorem clip_kindProvider :
    clip 20 ProviderObservation.kindProvider = ProviderObservation.kindProvider :=
  clip_of_le (by decide)

/-- When a result can be recorded for an attempt: the attempt has an amount, the identity of
the result is new, a final result finds no accepted finality, and the transition table has a
way from the attempt's status to the mapped one. -/
structure Recordable (l : Ledger) (a : PaymentAttempt) (result : ProviderResult) : Prop where
  amount : a.amount ≠ none
  fresh : ∀ o ∈ l.observations.rows, ¬ (o.observationKind = ProviderObservation.kindProvider ∧
    o.observationId = recordedId a.pk (normalizeResult result))
  single : finalizes (normalizeResult result) = true → l.accepted a.pk = []
  transition : a.isTerminal = true ∨
    target (normalizeResult result) ∈ a.status.allowedTransitions

theorem released_valid (h : PaymentAttempt.schema.Valid a) (result : ProviderResult) :
    PaymentAttempt.schema.Valid (released a result) := by
  simp only [Schema.Valid, PaymentAttempt.schema, List.forall_mem_cons, Check.width,
    decide_eq_true_eq, released] at h ⊢
  simp only [String.length_empty, Nat.zero_le, true_and]
  tauto

theorem finalizeClaimedResult_returns (result : ProviderResult) (now : Instant)
    (hget : l.attempt pk = some a) (htoken : a.claimToken = token)
    (hgeneration : a.claimGeneration = generation) :
    Returns (finalizeClaimedResult pk token generation result now) l ↔ Recordable l a result := by
  obtain rfl := PaymentAttempt.pk_of_attempt hget
  have hrec := recordProviderResult_returns result now ProviderObservation.kindProvider hget
  rw [clip_kindProvider, ← Option.ne_none_iff_exists'] at hrec
  have hiff : Returns (finalizeClaimedResult a.pk token generation result now) l ↔
      Returns (recordProviderResult a result now) l := by
    unfold finalizeClaimedResult
    rw [returns_bind_of_ok (PaymentAttempt.getLocked_ok.mpr ⟨hget, rfl⟩),
      if_neg (by simp [htoken, hgeneration]), returns_bind]
    constructor
    · rintro ⟨o, l₁, ho, -⟩
      exact ⟨_, ho⟩
    · rintro ⟨⟨o, l₁⟩, ho⟩
      refine ⟨o, l₁, ho, ?_⟩
      obtain ⟨b, hb, -⟩ :=
        (recordProviderResult_evolves (L := fun _ => True) (fun _ _ => trivial) hget ho).descends
          hget
      rw [returns_bind_of_ok (PaymentAttempt.getLocked_ok.mpr ⟨hb, rfl⟩)]
      have hsave : Returns (released b result).save l₁ :=
        write_returns (r := b) (by rw [released, PaymentAttempt.pk_of_attempt hb]; exact hb)
          (released_valid (PaymentAttempt.valid_of_attempt hb) result) rfl
          (by simp [PaymentAttempt.schema, PaymentAttempt.scopeRequest, released])
      obtain ⟨⟨u, l₂⟩, hsave⟩ := hsave
      exact returns_bind.mpr ⟨u, l₂, hsave, _, rfl⟩
  rw [hiff, hrec]
  constructor
  · rintro ⟨amount, fresh, single, transition⟩
    exact ⟨amount, fresh, single, transition⟩
  · exact fun h => ⟨h.amount, h.fresh, h.single, h.transition⟩

/-- The observation row of a result. -/
def RecordedAs (o : ProviderObservation) (pk : Uuid) (result : ProviderResult) : Prop :=
  o.attempt = pk ∧ o.observationKind = ProviderObservation.kindProvider ∧
    o.observationId = recordedId pk (normalizeResult result) ∧
    o.outcome = finalOutcome result.outcome ∧ o.verified = isVerified (normalizeResult result)

theorem finalizeClaimedResult_records {r : ProviderResult} (hget : l.attempt pk = some a)
    (htoken : a.claimToken = token) (hgeneration : a.claimGeneration = generation)
    (h : finalizeClaimedResult pk token generation result now l = .ok (r, l')) :
    (∃ b, l'.attempt pk = some b ∧ b.claimToken = "" ∧ b.claimExpiresAt = none) ∧
      ∃ o ∈ l'.observations.rows, RecordedAs o pk result := by
  obtain rfl := PaymentAttempt.pk_of_attempt hget
  unfold finalizeClaimedResult at h
  rw [bind_of_ok (PaymentAttempt.getLocked_ok.mpr ⟨hget, rfl⟩),
    if_neg (by simp [htoken, hgeneration])] at h
  obtain ⟨o, l₁, hrec, h₂⟩ := bind_ok.mp h
  obtain ⟨b, _, hlock, h₃⟩ := bind_ok.mp h₂
  obtain ⟨hb, rfl⟩ := PaymentAttempt.getLocked_ok.mp hlock
  obtain ⟨_, l₂, hsave, h₄⟩ := bind_ok.mp h₃
  obtain ⟨t, hupd, rfl⟩ := PaymentAttempt.save_ok.mp hsave
  cases h₄
  have hpk : b.pk = a.pk := PaymentAttempt.pk_of_attempt hb
  refine ⟨⟨released b result, ?_, rfl, rfl⟩, ?_⟩
  · exact (Table.get_update hupd (hpk ▸ hb) rfl a.pk).trans (if_pos hpk)
  · obtain ⟨o', l₃, hobs, h₅⟩ := bind_ok.mp hrec
    obtain ⟨_, l₄, hconclude, h₆⟩ := bind_ok.mp h₅
    cases h₆
    obtain ⟨amount, t', -, rfl, hins, hstate⟩ := recordObservation_ok hget hobs
    have hmem : observationRow a (providerEvidence a (normalizeResult result)
        ProviderObservation.kindProvider) amount l.observations.next ∈ l₃.observations.rows := by
      have hrow : l₃.observations.rows = t'.rows := by
        split at hstate
        · obtain ⟨c, happ⟩ := hstate
          obtain ⟨_, -, ⟨-, -, rfl⟩ | ⟨-, -, _, _, _, -, -, rfl⟩⟩ := applyOutcome_ok happ <;> rfl
        · obtain ⟨audits, rfl⟩ := hstate
          rfl
      rw [hrow, (Table.insert_ok.mp hins).2]
      exact List.mem_append_right _ (List.mem_singleton_self _)
    refine ⟨_, (conclude_evolves (L := fun _ => True) (fun _ _ => trivial) _ _ _ _ _
      hconclude).observation hmem, rfl, ?_, ?_, ?_, rfl⟩
    · simp only [observationRow, providerEvidence, clip_kindProvider]
    · simp only [observationRow, providerEvidence, recordedId]
    · exact clip_finalOutcome 20 result.outcome

/-! ## Runs of the runtime -/

/-- The worker that finalises a claim returns, the claim is released, and now and in every later
state exactly one row carries the identity of the result, with what the result says. -/
def Survives (s : Pool.State World Worker) (pk : Uuid) (token : String) (generation : ℕ)
    (result : ProviderResult) (now : Instant) : Prop :=
  ∃ r l', finalizeClaimedResult pk token generation result now s.store.ledger = .ok (r, l') ∧
    (∃ b, l'.attempt pk = some b ∧ b.claimToken = "" ∧ b.claimExpiresAt = none) ∧
    ∃ o, RecordedAs o pk result ∧ ∀ workers t,
      runtime.machine.Later ⟨{ s.store with ledger := l' }, workers⟩ t →
      ∀ p, p ∈ t.store.ledger.observations.rows ∧
        p.observationKind = ProviderObservation.kindProvider ∧
        p.observationId = recordedId pk (normalizeResult result) ↔ p = o

/-- For every reachable state, current claim and provider result: the evidence survives
finalisation exactly when it is recordable. -/
theorem evidence_survives_iff {s : Pool.State World Worker} (_ : runtime.machine.Reachable s)
    (hget : s.store.ledger.attempt pk = some a) (htoken : a.claimToken = token)
    (hgeneration : a.claimGeneration = generation) (result : ProviderResult) (now : Instant) :
    Survives s pk token generation result now ↔ Recordable s.store.ledger a result := by
  rw [← finalizeClaimedResult_returns result now hget htoken hgeneration]
  constructor
  · rintro ⟨r, l', h, -⟩
    exact ⟨_, h⟩
  · rintro ⟨⟨r, l'⟩, h⟩
    obtain ⟨hreleased, o, ho, hrecorded⟩ := finalizeClaimedResult_records hget htoken hgeneration h
    refine ⟨r, l', h, hreleased, o, hrecorded, fun workers t ht p => ⟨?_, ?_⟩⟩
    · rintro ⟨hp, hkind, hid⟩
      have ho' := (later_evolves ht).observation ho
      exact eq_of_observationId hp ho' (hkind.trans hrecorded.2.1.symm)
        (hid.trans hrecorded.2.2.1.symm)
    · rintro rfl
      exact ⟨(later_evolves ht).observation ho, hrecorded.2.1, hrecorded.2.2.1⟩

def timeout : Reply := .result { outcome := .timeout, code := "T", message := "timeout" }

/-- A submission timed out, and another worker has polled and holds the answer. -/
def pollSchedule : List (Pool.Label Worker Choice Writer) :=
  [.env (.getOrCreateAttempt "t" "g2p" "r" [] { amount := some 100 } true),
    .spawn (.submitOrPoll 1 true), .act 0 ⟨0, "a", timeout⟩, .act 0 ⟨0, "a", timeout⟩,
    .act 0 ⟨0, "a", timeout⟩,
    .spawn (.statusFirst 1 true), .act 1 ⟨minutes 6, "b", timeout⟩,
    .act 1 ⟨minutes 6, "b", timeout⟩]

def configured : Pool.State World Worker :=
  ⟨{ ledger := { registrations := [
    ⟨1, "t", "g2p", factoryDeterministic, schemaVersion, some [], none, none, true⟩] } }, []⟩

def polling : Pool.State World Worker := runtime.machine.final configured pollSchedule

/-- Triage finds the uncertain attempt due and moves it to review meanwhile. -/
def triagedMeanwhile : Pool.State World Worker :=
  runtime.machine.final configured (pollSchedule ++ [
    .spawn .triageUncertain, .act 2 ⟨minutes 6, "", timeout⟩, .act 2 ⟨minutes 6, "", timeout⟩,
    .act 2 ⟨minutes 6, "", timeout⟩, .act 2 ⟨minutes 6, "", timeout⟩])

/-- The verified answer to the poll. -/
def settledAnswer : ProviderResult where
  outcome := .settled
  externalTransactionId := "transaction"
  observationId := "observation"
  verified := true
  verificationMethod := "signature"

theorem reachable_of_schedule (schedule : List (Pool.Label Worker Choice Writer)) :
    runtime.machine.Reachable (runtime.machine.final configured schedule) :=
  .final (M := runtime.machine) ⟨⟨rfl, rfl, rfl, rfl⟩, rfl⟩ _

theorem evidence_survives_iff_polling : Survives polling 1 "b" 2 settledAnswer (minutes 7) := by
  have hrow : (polling.store.ledger.attempt 1).map
      (fun a => (a.pk, a.claimToken, a.claimGeneration, a.amount, a.status)) =
        some (1, "b", 2, some 100, .uncertain) ∧
      (polling.store.ledger.observations.rows.map (·.observationId)) = ["unidentified:1"] ∧
      polling.store.ledger.accepted 1 = [] := by decide +kernel
  obtain ⟨hrow, hids, haccepted⟩ := hrow
  obtain ⟨a, h, ha⟩ := Option.map_eq_some_iff.mp hrow
  simp only [Prod.mk.injEq] at ha
  obtain ⟨hpk, htoken, hgeneration, hamount, hstatus⟩ := ha
  refine (evidence_survives_iff (s := polling) (reachable_of_schedule pollSchedule) h htoken
    hgeneration settledAnswer (minutes 7)).mpr ⟨by simp [hamount], ?_, fun _ => ?_, .inr ?_⟩
  · rintro o ho ⟨-, hid⟩
    have hmem := List.mem_map_of_mem (f := (·.observationId)) ho
    rw [hids, hid, hpk] at hmem
    revert hmem
    decide +kernel
  · rw [hpk, haccepted]
  · rw [hstatus]
    decide +kernel

/-- The claim is current, the answer is verified and settled, and finalisation raises. -/
theorem evidence_lost :
    runtime.machine.Reachable triagedMeanwhile ∧
      (triagedMeanwhile.store.ledger.attempt 1).map
        (fun a => (a.claimToken, a.claimGeneration, a.status)) = some ("b", 2, .review) ∧
      ¬ Survives triagedMeanwhile 1 "b" 2 settledAnswer (minutes 7) ∧
      commit (finalizeClaimedResult 1 "b" 2 settledAnswer (minutes 7))
        triagedMeanwhile.store.ledger =
        (.error (.invalidPaymentTransition "invalid payment transition review -> settled"),
          triagedMeanwhile.store.ledger) := by
  have hraises : finalizeClaimedResult 1 "b" 2 settledAnswer (minutes 7)
      triagedMeanwhile.store.ledger =
        .error (.invalidPaymentTransition "invalid payment transition review -> settled") := by
    decide +kernel
  refine ⟨reachable_of_schedule _, by decide +kernel, ?_, commit_of_error hraises⟩
  rintro ⟨r, l', h, -⟩
  rw [hraises] at h
  cases h

end ProviderRuntime

end Civicos.Payments
