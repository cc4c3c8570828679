import Civicos.Library.Scan
import Civicos.Scheduler.Runtime

/-!
# The publisher of the outbox

`publish_scheduler_outbox` claims one row after the other, hands its delivery to the broker and
reports what has become of it, until a claim returns nothing. A claim also returns nothing when it
has given up a spent row, so the run may end with rows that can still be claimed.
-/
namespace Civicos.Scheduler

open Library Library.Transaction
open Payments (Uuid Json Digest clip)
open Appointments (Instant)

/-- What `delay` does -/
inductive Handoff where
  | accepted
  | timedOut (errorClass : String)
  | refused (errorClass : String)
deriving DecidableEq, Repr

/-- One turn of the loop: the token that is drawn, and the handoff -/
structure BrokerTurn where
  token : Uuid
  handoff : Handoff

def publisherLeaseSeconds : ℤ := 60

def publisherOwner : String := "scheduler-publisher"

/-- Whether the row was published -/
def reportHandoff (c : OutboxClaim) (now : Instant) : Handoff → Tx Bool
  | .accepted => markOutboxPublished c.outbox c.token c.generation now
  | .timedOut errorClass => do
    let _ ← markOutboxFailed c.outbox c.token c.generation errorClass true now
    return false
  | .refused errorClass => do
    let _ ← markOutboxFailed c.outbox c.token c.generation errorClass false now
    return false

/-- The loop from turn `i` on. It has not ended when the fuel runs out. -/
def publishLoop (now : Instant) (broker : ℕ → BrokerTurn) :
    (fuel i published : ℕ) → Store → Option (Except SchedulerError ℕ × Store)
  | 0, _, _, _ => none
  | fuel + 1, i, published, s =>
    match commit (claimOutbox publisherLeaseSeconds publisherOwner now (broker i).token) s with
    | (.error e, s) => some (.error e, s)
    | (.ok none, s) => some (.ok published, s)
    | (.ok (some c), s) =>
      match commit (reportHandoff c now (broker i).handoff) s with
      | (.error e, s) => some (.error e, s)
      | (.ok marked, s) =>
        publishLoop now broker fuel (i + 1) (if marked then published + 1 else published) s

/-- `publish_scheduler_outbox` while the clock stands at `now`: the number of published rows -/
def publishSchedulerOutbox (now : Instant) (broker : ℕ → BrokerTurn) (fuel : ℕ) (s : Store) :
    Option (Except SchedulerError ℕ × Store) := publishLoop now broker fuel 0 0 s

/-- A fresh claim returns nothing and changes nothing. -/
def Store.Drained (s : Store) (now : Instant) : Prop :=
  ∀ token, claimOutbox publisherLeaseSeconds publisherOwner now token s = .ok (none, s)

/-- The row has used up its attempts. -/
def PublisherPolicy.spent (p : PublisherPolicy) (o : SchedulerOutbox) : Bool :=
  p.maxAttempts ≤ o.publishAttempts

/-- The attempts that are left to a row -/
def PublisherPolicy.attemptsLeft (p : PublisherPolicy) (o : SchedulerOutbox) : ℕ :=
  (p.maxAttempts - o.publishAttempts).toNat

variable {s t : Store} {now : Instant} {row o : SchedulerOutbox} {pre post : List SchedulerOutbox}
  {token : Uuid}

/-- A rewrite that only concerns one row of the outbox -/
theorem rewrite_rows {T : Numbered SchedulerOutbox.schema} {p : SchedulerOutbox → Bool}
    {f : SchedulerOutbox → OutboxState} (hrows : T.rows = pre ++ row :: post) (hp : p row = true)
    (hpk : ∀ o, p o = true → o.pk = row.pk) :
    (T.rewrite p (.withState f) (SchedulerOutbox.preserves f)).rows =
      pre ++ row.withState f :: post := by
  have hapart : (pre ++ row :: post).Pairwise SchedulerOutbox.schema.Apart := hrows ▸ T.table.apart
  obtain ⟨-, hrow, hpre⟩ := List.pairwise_append.mp hapart
  have hother (l : List SchedulerOutbox) (hl : ∀ o ∈ l, o.pk ≠ row.pk) :
      (l.map fun o => if p o then o.withState f else o) = l := by
    refine (List.map_congr_left fun o ho => ?_).trans (List.map_id' l)
    exact if_neg fun h => hl o ho (hpk o h)
  rw [Numbered.rows_rewrite, hrows, List.map_append, List.map_cons, if_pos hp,
    hother pre fun o ho => (hpre o ho row (.head _)).1,
    hother post fun o ho => ((List.pairwise_cons.mp hrow).1 o ho).1.symm]

/-! ## One turn -/

/-- A turn has left all but one row as they were. -/
structure Store.Replaces (s : Store) (pre : List SchedulerOutbox) (o : SchedulerOutbox)
    (post : List SchedulerOutbox) (t : Store) : Prop where
  policy : t.policy = s.policy
  deliveries : t.deliveries = s.deliveries
  rows : t.outbox.rows = pre ++ o :: post

abbrev First (s : Store) (now : Instant) := FirstReady (·.claimable now) s.outbox.rows

/-- What giving a row up writes -/
def SchedulerOutbox.givenUp (now : Instant) (o : SchedulerOutbox) : OutboxState :=
  { o.withoutLease with
    publisherState := .exhausted
    exhaustedAt := some now
    publisherStateChangedAt := some now }

/-- What a claim of `row` writes -/
def SchedulerOutbox.taken (row : SchedulerOutbox) (token : Uuid) (now : Instant)
    (o : SchedulerOutbox) : OutboxState :=
  { o.toOutboxState with
    publisherGeneration := row.publisherGeneration + 1
    publisherToken := some token
    publisherOwner := clip 120 publisherOwner
    publisherLeaseExpiresAt := some (now + seconds publisherLeaseSeconds)
    publishAttempts := row.publishAttempts + 1
    publisherState := .claimed
    publisherStateChangedAt := some now }

theorem updateOutbox_replaces {p : SchedulerOutbox → Bool} {f : SchedulerOutbox → OutboxState}
    (hrows : s.outbox.rows = pre ++ row :: post) (hp : p row = true)
    (hpk : ∀ o, p o = true → o.pk = row.pk) :
    ∃ t, updateOutbox p f s = .ok ((), t) ∧ s.Replaces pre (row.withState f) post t :=
  ⟨_, rfl, rfl, rfl, rewrite_rows hrows hp hpk⟩

/-- A spent row is given up. -/
theorem claimOutbox_retires (token : Uuid) (h : First s now pre row post)
    (hspent : s.policy.spent row = true) :
    ∃ t, claimOutbox publisherLeaseSeconds publisherOwner now token s = .ok (none, t) ∧
      s.Replaces pre (row.withState (·.givenUp now)) post t := by
  have hfind := find?_eq_some_iff_firstReady.mpr ⟨pre, post, h⟩
  have hmax : s.policy.maxAttempts ≤ row.publishAttempts := of_decide_eq_true hspent
  obtain ⟨t, hupdate, hreplaces⟩ := updateOutbox_replaces (f := (·.givenUp now)) h.split
    (p := fun o => o.pk = row.pk) (decide_eq_true rfl) fun _ => of_decide_eq_true
  refine ⟨t, ?_, hreplaces⟩
  unfold claimOutbox
  rw [bind_of_ok get_apply]
  simp only [hfind, hmax, if_true]
  exact bind_of_ok hupdate

theorem not_claimable_givenUp (row : SchedulerOutbox) (now : Instant) :
    (row.withState (·.givenUp now)).claimable now = false := by
  simp [SchedulerOutbox.claimable, SchedulerOutbox.withState, SchedulerOutbox.givenUp,
    OutboxState.withoutLease]

/-- Another row is claimed. -/
theorem claimOutbox_claims (token : Uuid) (h : First s now pre row post)
    (hleft : s.policy.spent row = false)
    {d : RecipientDelivery} (hd : s.deliveries.get row.delivery = some d) :
    ∃ t, claimOutbox publisherLeaseSeconds publisherOwner now token s =
      .ok (some ⟨row.pk, d.idempotencyKey, token, row.publisherGeneration + 1⟩, t) ∧
        s.Replaces pre (row.withState (row.taken token now)) post t := by
  have hfind := find?_eq_some_iff_firstReady.mpr ⟨pre, post, h⟩
  have hmax : ¬ s.policy.maxAttempts ≤ row.publishAttempts := of_decide_eq_false hleft
  obtain ⟨t, hupdate, hreplaces⟩ := updateOutbox_replaces (f := row.taken token now) h.split
    (p := fun o => o.pk = row.pk) (decide_eq_true rfl) fun _ => of_decide_eq_true
  refine ⟨t, ?_, hreplaces⟩
  unfold claimOutbox
  rw [bind_of_ok get_apply]
  simp only [hfind, hmax, if_false, hd]
  exact bind_of_ok hupdate

theorem claimedBy_taken (hopen : row.isOpen = true) :
    (row.withState (row.taken token now)).claimedBy row.pk token (row.publisherGeneration + 1) =
      true := by
  simp only [SchedulerOutbox.isOpen, decide_eq_true_eq] at hopen
  simp [SchedulerOutbox.claimedBy, SchedulerOutbox.withState, SchedulerOutbox.taken,
    SchedulerOutbox.isOpen, hopen]

/-- A row whose publication has failed is claimable again only with attempts left. -/
theorem not_spent_failed {errorClass : String} {unknownHandoff : Bool}
    (h : (row.withState fun o => o.failed s.policy errorClass unknownHandoff now).claimable now =
      true) :
    s.policy.spent row = false ∧ (row.withState fun o =>
      o.failed s.policy errorClass unknownHandoff now).publishAttempts = row.publishAttempts := by
  by_cases hmax : s.policy.maxAttempts ≤ row.publishAttempts
  · simp [SchedulerOutbox.claimable, SchedulerOutbox.withState, SchedulerOutbox.failed, hmax] at h
  · refine ⟨decide_eq_false hmax, ?_⟩
    simp [SchedulerOutbox.withState, SchedulerOutbox.failed, hmax, OutboxState.withoutLease]

/-- What has become of a claimed row is reported. -/
theorem reportHandoff_replaces (now : Instant) {c : OutboxClaim} (handoff : Handoff)
    (hrows : s.outbox.rows = pre ++ row :: post)
    (hheld : row.claimedBy c.outbox c.token c.generation = true) :
    ∃ marked f t, reportHandoff c now handoff s = .ok (marked, t) ∧
      s.Replaces pre (row.withState f) post t ∧ ((row.withState f).claimable now = true →
        s.policy.spent row = false ∧ (row.withState f).publishAttempts = row.publishAttempts) := by
  have hpk (o : SchedulerOutbox) (ho : o.claimedBy c.outbox c.token c.generation = true) :
      o.pk = row.pk := by
    simp only [SchedulerOutbox.claimedBy, decide_eq_true_eq] at ho hheld
    exact ho.1.trans hheld.1.symm
  cases handoff with
  | accepted =>
    refine ⟨_, _, _, rfl, ⟨rfl, rfl, rewrite_rows hrows hheld hpk⟩, fun hclaimable => ?_⟩
    simp [SchedulerOutbox.claimable, SchedulerOutbox.isOpen, SchedulerOutbox.withState]
      at hclaimable
  | timedOut errorClass =>
    exact ⟨_, _, _, rfl, ⟨rfl, rfl, rewrite_rows hrows hheld hpk⟩, not_spent_failed⟩
  | refused errorClass =>
    exact ⟨_, _, _, rfl, ⟨rfl, rfl, rewrite_rows hrows hheld hpk⟩, not_spent_failed⟩

/-! ## The run -/

/-- Every outbox row has its delivery, as the foreign key demands. -/
def Store.Referenced (s : Store) : Prop :=
  ∀ o ∈ s.outbox.rows, (s.deliveries.get o.delivery).isSome = true

instance (s : Store) : Decidable s.Referenced :=
  inferInstanceAs (Decidable (∀ o ∈ s.outbox.rows, _))

/-- No claimable row comes after a claimable row that is spent. -/
def Store.Unblocked (s : Store) (now : Instant) : Prop :=
  Library.Unblocked (·.claimable now) s.policy.spent s.outbox.rows

theorem drained_iff : s.Drained now ↔ ∀ o ∈ s.outbox.rows, o.claimable now = false := by
  constructor
  · intro h
    by_contra hsome
    obtain ⟨row, hfind⟩ : ∃ row, s.outbox.rows.find? (·.claimable now) = some row := by
      rw [← Option.isSome_iff_exists, List.find?_isSome]
      simpa using hsome
    obtain ⟨pre, post, hfirst⟩ := find?_eq_some_iff_firstReady.mp hfind
    cases hspent : s.policy.spent row with
    | true =>
      obtain ⟨t, hclaim, hreplaces⟩ := claimOutbox_retires 0 hfirst hspent
      rw [h 0] at hclaim
      cases hclaim
      have hrow : row = row.withState (·.givenUp now) := by
        have hrows := hfirst.split.symm.trans hreplaces.rows
        simpa using hrows
      have hidle := not_claimable_givenUp row now
      rw [← hrow, hfirst.ready] at hidle
      cases hidle
    | false =>
      have hmax : ¬ s.policy.maxAttempts ≤ row.publishAttempts := of_decide_eq_false hspent
      have hclaim := h 0
      cases hd : s.deliveries.get row.delivery with
      | some d =>
        obtain ⟨t, hclaim', -⟩ := claimOutbox_claims 0 hfirst hspent hd
        rw [hclaim] at hclaim'
        cases hclaim'
      | none =>
        unfold claimOutbox at hclaim
        rw [bind_of_ok get_apply] at hclaim
        simp only [hfind, hmax, if_false, hd] at hclaim
        cases hclaim
  · intro h token
    have hfind : s.outbox.rows.find? (·.claimable now) = none := by simpa using h
    unfold claimOutbox
    rw [bind_of_ok get_apply]
    simp only [hfind]
    rfl

theorem Store.Replaces.trans {u : Store} {o' : SchedulerOutbox} (h : s.Replaces pre o post u)
    (g : u.Replaces pre o' post t) : s.Replaces pre o' post t :=
  ⟨g.policy.trans h.policy, g.deliveries.trans h.deliveries, g.rows⟩

/-- The store keeps its references when a turn rewrites a row. -/
theorem Store.Replaces.referenced (row : SchedulerOutbox) (h : s.Replaces pre o post t)
    (hdelivery : o.delivery = row.delivery) (hrows : s.outbox.rows = pre ++ row :: post)
    (hs : s.Referenced) : t.Referenced := by
  intro x hx
  rw [h.deliveries]
  rw [h.rows, List.mem_append, List.mem_cons] at hx
  have hold : x ∈ pre ∨ x ∈ post → (s.deliveries.get x.delivery).isSome = true := by
    intro hx
    apply hs
    simp only [hrows, List.mem_append, List.mem_cons]
    tauto
  rcases hx with hx | rfl | hx
  · exact hold (.inl hx)
  · rw [hdelivery]
    exact hs row (by simp [hrows])
  · exact hold (.inr hx)

/-- The turn finds nothing, gives a spent row up, or serves a row and goes on. -/
theorem publishLoop_turn (hs : s.Referenced) (broker : ℕ → BrokerTurn) (i published : ℕ) :
    (∃ t, (∀ fuel, publishLoop now broker (fuel + 1) i published s = some (.ok published, t)) ∧
      (t.Drained now ↔ s.Unblocked now)) ∨
    ∃ t published', (∀ fuel, publishLoop now broker (fuel + 1) i published s =
        publishLoop now broker fuel (i + 1) published' t) ∧
      t.Referenced ∧ (t.Unblocked now ↔ s.Unblocked now) ∧
      workOf (·.claimable now) t.policy.attemptsLeft t.outbox.rows <
        workOf (·.claimable now) s.policy.attemptsLeft s.outbox.rows := by
  cases hfind : s.outbox.rows.find? (·.claimable now) with
  | none =>
    have hidle : ∀ o ∈ s.outbox.rows, o.claimable now = false := by simpa using hfind
    have hdrained := drained_iff.mpr hidle
    refine .inl ⟨s, fun fuel => ?_, iff_of_true hdrained (unblocked_of_idle hidle)⟩
    simp only [publishLoop, commit_of_ok (hdrained _)]
  | some row =>
    obtain ⟨pre, post, hfirst⟩ := find?_eq_some_iff_firstReady.mp hfind
    cases hspent : s.policy.spent row with
    | true =>
      obtain ⟨t, hclaim, hreplaces⟩ :=
        claimOutbox_retires (broker i).token hfirst hspent
      refine .inl ⟨t, fun fuel => ?_, ?_⟩
      · simp only [publishLoop, commit_of_ok hclaim]
      · rw [drained_iff, hreplaces.rows]
        exact hfirst.retired hspent (not_claimable_givenUp row now)
    | false =>
      obtain ⟨d, hd⟩ := Option.isSome_iff_exists.mp (hs row (List.mem_of_find?_eq_some hfind))
      obtain ⟨u, hclaim, hclaimed⟩ :=
        claimOutbox_claims (broker i).token hfirst hspent hd
      have hopen : row.isOpen = true := by
        have hready := hfirst.ready
        simp only [SchedulerOutbox.claimable, decide_eq_true_eq] at hready
        exact hready.1
      obtain ⟨marked, f, t, hreport, hreported, hagain⟩ := reportHandoff_replaces now
        (c := ⟨row.pk, d.idempotencyKey, (broker i).token, row.publisherGeneration + 1⟩)
        (broker i).handoff hclaimed.rows (claimedBy_taken hopen)
      have hserved := hclaimed.trans hreported
      have hleft : ¬ s.policy.maxAttempts ≤ row.publishAttempts := of_decide_eq_false hspent
      rw [hclaimed.policy] at hagain
      refine .inr ⟨t, if marked then published + 1 else published, fun fuel => ?_,
        hserved.referenced row rfl hfirst.split hs, ?_, ?_⟩
      · simp only [publishLoop, commit_of_ok hclaim, commit_of_ok hreport]
      · rw [Store.Unblocked, hserved.rows, hserved.policy]
        refine hfirst.served hspent fun hready => ?_
        obtain ⟨hnot, hsame⟩ := hagain hready
        simp only [PublisherPolicy.spent, hsame]
        exact hnot
      · rw [hserved.rows, hserved.policy]
        refine hfirst.workOf_lt ?_
        split
        next hready =>
          obtain ⟨-, hsame⟩ := hagain hready
          have hattempts : ((row.withState (row.taken (broker i).token now)).withState
              f).publishAttempts = row.publishAttempts + 1 := hsame
          simp only [PublisherPolicy.attemptsLeft, hattempts]
          omega
        next =>
          simp only [PublisherPolicy.attemptsLeft]
          omega

/-- The loop ends, and drains the outbox if nothing blocks it. -/
theorem publishLoop_ends (now : Instant) (hs : s.Referenced) (broker : ℕ → BrokerTurn)
    (i published : ℕ) :
    ∃ n t, (∀ fuel, workOf (·.claimable now) s.policy.attemptsLeft s.outbox.rows < fuel →
      publishLoop now broker fuel i published s = some (.ok n, t)) ∧
      (t.Drained now ↔ s.Unblocked now) := by
  induction hwork : workOf (·.claimable now) s.policy.attemptsLeft s.outbox.rows using
    Nat.strong_induction_on generalizing s i published with
  | _ work ih =>
    rcases publishLoop_turn hs broker i published with
      ⟨t, hrun, hdrained⟩ | ⟨t, published', hrun, ht, hsame, hlt⟩
    · refine ⟨published, t, fun fuel hfuel => ?_, hdrained⟩
      obtain ⟨fuel, rfl⟩ := Nat.exists_eq_succ_of_ne_zero (Nat.ne_zero_of_lt hfuel)
      exact hrun fuel
    · obtain ⟨n, u, hend, hdrained⟩ := ih _ (hwork ▸ hlt) ht (i + 1) published' rfl
      refine ⟨n, u, fun fuel hfuel => ?_, hdrained.trans hsame⟩
      obtain ⟨fuel, rfl⟩ := Nat.exists_eq_succ_of_ne_zero (Nat.ne_zero_of_lt hfuel)
      rw [hrun fuel]
      exact hend fuel (by omega)

/-- A run of the publisher ends; then no row is claimable exactly when, before it, no claimable
row came after a claimable row that had used up its attempts. -/
theorem publisher_drains (hs : s.Referenced) (now : Instant) (broker : ℕ → BrokerTurn) :
    ∃ fuel n t, (∀ more, publishSchedulerOutbox now broker (fuel + more) s = some (.ok n, t)) ∧
      (t.Drained now ↔ s.outbox.rows.Pairwise fun a b =>
        a.claimable now = true → s.policy.maxAttempts ≤ a.publishAttempts →
          b.claimable now = false) := by
  obtain ⟨n, t, hrun, hdrained⟩ := publishLoop_ends now hs broker 0 0
  refine ⟨_, n, t, fun more => hrun _ (Nat.lt_add_right more (Nat.lt_succ_self _)),
    hdrained.trans ?_⟩
  simp only [Store.Unblocked, Library.Unblocked, PublisherPolicy.spent, decide_eq_true_eq]

/-- The delivery to a subscriber -/
def alertFor (pk : ℕ) (ref : String) : RecipientDelivery where
  pk := pk
  schedule := 1
  dispatchGeneration := 1
  recipient := ⟨"subscriber", ref⟩
  idempotencyKey := recipientIdempotencyKey 1 1 ⟨"subscriber", ref⟩
  correlationId := ""
  ownerKey := ""

/-- The outbox row that the first delivery has got -/
def pendingRow (pk : ℕ) : SchedulerOutbox where
  availableAt := 0
  pk := pk
  delivery := pk

/-- Its third publisher has claimed the row and died. -/
def crashedRow (pk : ℕ) : SchedulerOutbox := { pendingRow pk with
  publishAttempts := 3
  publisherState := .claimed
  publisherGeneration := 3
  publisherToken := some 7
  publisherOwner := publisherOwner
  publisherLeaseExpiresAt := some 60 }

def crashedLast : Store where
  deliveries := ⟨⟨[alertFor 1 "a", alertFor 2 "b"], by decide, by decide⟩, 3, by decide⟩
  outbox := ⟨⟨[pendingRow 1, crashedRow 2], by decide, by decide⟩, 3, by decide⟩

def crashedFirst : Store where
  deliveries := ⟨⟨[alertFor 1 "a", alertFor 2 "b"], by decide, by decide⟩, 3, by decide⟩
  outbox := ⟨⟨[crashedRow 1, pendingRow 2], by decide, by decide⟩, 3, by decide⟩

/-- A broker that accepts everything -/
def acceptingBroker : ℕ → BrokerTurn := fun i => ⟨i, .accepted⟩

theorem publisher_drains_crashedLast : ∃ fuel n t,
    (∀ more, publishSchedulerOutbox 61 acceptingBroker (fuel + more) crashedLast =
      some (.ok n, t)) ∧ t.Drained 61 := by
  obtain ⟨fuel, n, t, hrun, hdrained⟩ :=
    publisher_drains (s := crashedLast) (by decide) 61 acceptingBroker
  exact ⟨fuel, n, t, hrun, hdrained.mpr (by decide)⟩

/-- The run ends when it has given the first row up, and the second can still be claimed. -/
theorem pending_row_left :
    (publishSchedulerOutbox 61 acceptingBroker 1 crashedFirst).map (fun r =>
      (r.1, r.2.outbox.rows.map fun o => (o.publisherState, o.claimable 61))) =
        some (.ok 0, [(.exhausted, false), (.pending, true)]) := by
  rfl

end Civicos.Scheduler
