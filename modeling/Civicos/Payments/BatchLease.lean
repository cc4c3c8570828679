import Civicos.Payments.Batch

/-!
# Batch leases

Owner-token and generation fencing of the bulk worker, and what each operation does to the
lease of a batch.
-/
namespace Civicos.Payments

open Library Library.Transaction

structure BatchLeaseHandle where
  batchId : Uuid
  ownerToken : String
  generation : ℕ
deriving DecidableEq, Repr

/-- The handle as a fence. -/
def BatchLeaseHandle.fence (h : BatchLeaseHandle) : Handle String := ⟨h.ownerToken, h.generation⟩

/-- The handle owns the unexpired lease of its batch. -/
def BulkStore.Owns (s : BulkStore) (h : BatchLeaseHandle) (now : Instant) : Prop :=
  ∃ l, s.fence h.batchId = some l ∧ l.Admits h.fence now

instance (s : BulkStore) (h : BatchLeaseHandle) (now : Instant) : Decidable (s.Owns h now) :=
  decidable_of_iff (∃ l ∈ s.fence h.batchId, l.Admits h.fence now) (by simp [BulkStore.Owns])

namespace BatchLeaseService

open Session

def defaultBatchLeaseTtl : Instant := minutes 5

def acquire (batch : Uuid) (ownerToken : String) : BulkTx (Option BatchLeaseHandle) := do
  if ownerToken = "" then
    throw (.valueError "owner_token is required")
  let currentTime ← timezoneNow
  let lockedBatch ← lookup batchTable (.doesNotExist "BulkPaymentBatch") batch
  let session ← get
  match session.leaseOf lockedBatch.pk with
  | none =>
    let lease ← create leaseTable .ofViolation fun pk =>
      { pk
        batch := lockedBatch.pk
        ownerToken
        generation := 1
        expiresAt := currentTime + defaultBatchLeaseTtl }
    return some ⟨lockedBatch.pk, ownerToken, lease.generation⟩
  | some lease =>
    if lease.ownerToken = ownerToken ∧ currentTime < lease.expiresAt then
      return some ⟨lockedBatch.pk, ownerToken, lease.generation⟩
    else if lease.expiresAt ≤ currentTime then
      write leaseTable .ofViolation lease.pk fun row => { row with
        ownerToken
        generation := lease.generation + 1
        expiresAt := currentTime + defaultBatchLeaseTtl }
      return some ⟨lockedBatch.pk, ownerToken, lease.generation + 1⟩
    else
      return none

def currentLocked (handle : BatchLeaseHandle) (currentTime : Instant) : BulkTx BatchLease := do
  let session ← get
  match session.leaseOf handle.batchId with
  | none => throw (.batchLeaseOwnershipLost "batch lease no longer exists")
  | some lease =>
    if lease.ownerToken ≠ handle.ownerToken ∨ lease.generation ≠ handle.generation ∨
        lease.expiresAt ≤ currentTime then
      throw (.batchLeaseOwnershipLost "batch lease owner, generation, or expiry is stale")
    return lease

def assertCurrentOwner (handle : BatchLeaseHandle) : BulkTx BatchLease := do
  currentLocked handle (← timezoneNow)

def setExpiry (lease : BatchLease) (expiresAt : Instant) : BulkTx Unit :=
  write leaseTable .ofViolation lease.pk fun row => { row with expiresAt }

def heartbeat (handle : BatchLeaseHandle) : BulkTx BatchLeaseHandle := do
  let currentTime ← timezoneNow
  let lease ← currentLocked handle currentTime
  setExpiry lease (currentTime + defaultBatchLeaseTtl)
  return handle

def release (handle : BatchLeaseHandle) : BulkTx Unit := do
  let currentTime ← timezoneNow
  let lease ← currentLocked handle currentTime
  setExpiry lease currentTime

/-! ## What the operations do -/

variable {s t : Session} {handle : BatchLeaseHandle} {now : Instant} {lease : BatchLease}
  {batch : Uuid}

/-- A batch has one lease. -/
theorem leaseOf_eq_some {db : BulkStore} :
    db.leaseOf batch = some lease ↔ lease ∈ db.leases.rows ∧ lease.batch = batch :=
  (Table.find?_eq_some (i := BatchLease.oneToOne) (.head _) batch
    (by simp [BatchLease.oneToOne])).trans (by simp [BatchLease.oneToOne])

theorem currentLocked_ok (h : currentLocked handle now s = .ok (lease, t)) :
    t = s ∧ s.leaseOf handle.batchId = some lease ∧ lease.fence.Admits handle.fence now := by
  unfold currentLocked at h
  simp only [bind_apply, get_apply, Except.bind] at h
  cases hl : s.leaseOf handle.batchId with
  | none =>
    rw [hl] at h
    cases h
  | some l =>
    simp only [hl] at h
    split at h
    · cases h
    next hc =>
      cases h
      simp only [not_or, not_le, ne_eq, not_not] at hc
      exact ⟨rfl, rfl, by simp [BatchLease.fence, BatchLeaseHandle.fence, hc], hc.2.2⟩

theorem owns_of_currentLocked (h : currentLocked handle now s = .ok (lease, t)) :
    s.Owns handle now := by
  obtain ⟨-, hl, hadmits⟩ := currentLocked_ok h
  exact ⟨lease.fence, by simp [BulkStore.fence, hl], hadmits⟩

theorem leaseOf_insert {db : BulkStore} {T : Table BatchLease.schema}
    (hnone : db.leaseOf lease.batch = none) (h : db.leases.insert lease = .ok T) (b : Uuid) :
    { db with leases := T : BulkStore }.leaseOf b =
      if b = lease.batch then some lease else db.leaseOf b := by
  obtain ⟨-, hrows⟩ := Table.insert_ok.mp h
  ext l
  rw [leaseOf_eq_some, hrows, List.mem_append, List.mem_singleton]
  split
  next hb =>
    have hno : ∀ l ∈ db.leases.rows, l.batch ≠ b := by
      simpa [BulkStore.leaseOf, hb] using hnone
    constructor
    · rintro ⟨hl | rfl, hlb⟩
      · exact absurd hlb (hno l hl)
      · rfl
    · rintro ⟨⟩
      exact ⟨.inr rfl, hb.symm⟩
  next hb =>
    rw [leaseOf_eq_some]
    constructor
    · rintro ⟨hl | rfl, hlb⟩
      · exact ⟨hl, hlb⟩
      · exact absurd hlb.symm hb
    · exact fun hl => ⟨.inl hl.1, hl.2⟩

theorem leaseOf_update {db : BulkStore} {T : Table BatchLease.schema} {f : BatchLease → BatchLease}
    (hl : db.leaseOf batch = some lease) (hbatch : (f lease).batch = lease.batch)
    (h : db.leases.update lease.pk f = .ok T) (b : Uuid) :
    { db with leases := T : BulkStore }.leaseOf b =
      if b = batch then some (f lease) else db.leaseOf b := by
  obtain ⟨hmem, rfl⟩ := leaseOf_eq_some.mp hl
  have hmem' := fun a => Table.mem_update (a := a) h (Table.get_eq_some.mpr ⟨hmem, rfl⟩)
  ext l
  rw [leaseOf_eq_some, hmem']
  split
  next hb =>
    subst hb
    constructor
    · rintro ⟨⟨hlm, hne⟩ | rfl, hlb⟩
      · have heq : db.leaseOf lease.batch = some l := leaseOf_eq_some.mpr ⟨hlm, hlb⟩
        rw [hl, Option.some.injEq] at heq
        exact absurd (heq ▸ rfl) hne
      · rfl
    · rintro ⟨⟩
      exact ⟨.inr rfl, hbatch⟩
  next hb =>
    rw [leaseOf_eq_some]
    constructor
    · rintro ⟨⟨hlm, -⟩ | rfl, hlb⟩
      · exact ⟨hlm, hlb⟩
      · exact absurd (hlb.symm.trans hbatch) hb
    · rintro ⟨hlm, hlb⟩
      refine ⟨.inl ⟨hlm, fun hpk' => hb ?_⟩, hlb⟩
      have heq : l = lease := Table.eq_of_pk hlm hmem hpk'
      rw [← hlb, heq]

/-- One lease moves and no other changes. -/
theorem moves_of_leaseOf {lease' : BatchLease}
    (h : ∀ b, t.leaseOf b = if b = batch then some lease' else s.leaseOf b)
    (hmove : Lease.Move (s.fence batch) (some lease'.fence)) (b : Uuid) :
    Lease.Moves (s.fence b) (t.fence b) := by
  rw [show t.fence b = (t.leaseOf b).map BatchLease.fence from rfl, h]
  split
  next hb =>
    subst hb
    exact .single hmove
  next => exact .refl

/-- Only leases and the clock differ, and every lease moves as a fence does. -/
structure Renews (s t : Session) : Prop where
  frame : t = { s with leases := t.leases, clock := t.clock }
  moves : ∀ b, Lease.Moves (s.fence b) (t.fence b)

theorem Renews.refl (s : Session) : Renews s s := ⟨rfl, fun _ => .refl⟩

theorem Renews.trans {u : Session} (h : Renews s t) (h' : Renews t u) : Renews s u where
  frame := by rw [h'.frame, h.frame]
  moves b := (h.moves b).trans (h'.moves b)

theorem assertCurrentOwner_ok (h : assertCurrentOwner handle s = .ok (lease, t)) :
    s.Owns handle (s.clock.headD 0) ∧ Renews s t := by
  obtain ⟨now, u, hnow, h₁⟩ := bind_ok.mp h
  cases hnow
  have howns := owns_of_currentLocked h₁
  obtain ⟨rfl, -⟩ := currentLocked_ok h₁
  exact ⟨howns, rfl, fun _ => .refl⟩

theorem setExpiry_ok {u : Unit} {expiresAt : Instant} (hl : s.leaseOf batch = some lease)
    (h : setExpiry lease expiresAt s = .ok (u, t)) : Renews s t := by
  obtain ⟨T, hupd, rfl⟩ := write_ok.mp h
  refine ⟨rfl, moves_of_leaseOf (leaseOf_update hl rfl hupd) ?_⟩
  rw [BulkStore.fence, hl]
  exact .renew lease.fence _

theorem heartbeat_ok {r : BatchLeaseHandle} (h : heartbeat handle s = .ok (r, t)) :
    s.Owns handle (s.clock.headD 0) ∧ Renews s t := by
  obtain ⟨now, u, hnow, h₁⟩ := bind_ok.mp h
  cases hnow
  obtain ⟨lease, v, hcurrent, h₂⟩ := bind_ok.mp h₁
  have howns := owns_of_currentLocked hcurrent
  obtain ⟨rfl, hl, -⟩ := currentLocked_ok hcurrent
  obtain ⟨_, w, hset, h₃⟩ := bind_ok.mp h₂
  cases h₃
  obtain ⟨hframe, hmoves⟩ := setExpiry_ok hl hset
  exact ⟨howns, by rw [hframe], hmoves⟩

theorem release_ok {u : Unit} (h : release handle s = .ok (u, t)) :
    s.Owns handle (s.clock.headD 0) ∧ Renews s t := by
  obtain ⟨now, u, hnow, h₁⟩ := bind_ok.mp h
  cases hnow
  obtain ⟨lease, v, hcurrent, h₂⟩ := bind_ok.mp h₁
  have howns := owns_of_currentLocked hcurrent
  obtain ⟨rfl, hl, -⟩ := currentLocked_ok hcurrent
  obtain ⟨hframe, hmoves⟩ := setExpiry_ok hl h₂
  exact ⟨howns, by rw [hframe], hmoves⟩

/-- Admission under a handle: a fresh lease, the replay of a live one, or a takeover. -/
def Admitted (o : Option (Lease String)) (handle : BatchLeaseHandle) (now : Instant) : Prop :=
  match o with
  | none => handle.generation = 1
  | some l =>
    if l.expiresAt ≤ now then handle.generation = l.handle.generation + 1
    else handle.fence = l.handle

theorem acquire_ok {token : String} {r : Option BatchLeaseHandle}
    (h : acquire batch token s = .ok (r, t)) : Renews s t ∧ ∀ handle ∈ r,
      handle.batchId = batch ∧ handle.ownerToken = token ∧
        Admitted (s.fence batch) handle (s.clock.headD 0) := by
  unfold acquire at h
  split at h
  · cases h
  obtain ⟨now, u, hnow, h₁⟩ := bind_ok.mp h
  cases hnow
  obtain ⟨b, v, hlook, h₂⟩ := bind_ok.mp h₁
  obtain ⟨hb, rfl⟩ := lookup_ok.mp hlook
  obtain rfl : b.pk = batch := Table.pk_of_get hb
  simp only [bind_apply, get_apply, Except.bind] at h₂
  cases hl : s.leaseOf b.pk with
  | none =>
    simp only [hl] at h₂
    obtain ⟨lease, w, hcreate, h₃⟩ := bind_ok.mp h₂
    obtain ⟨hlease, T, hins, rfl⟩ := create_ok.mp hcreate
    cases h₃
    have hnone : s.leaseOf lease.batch = none := by
      rw [hlease]
      exact hl
    refine ⟨⟨rfl, moves_of_leaseOf (leaseOf_insert hnone hins) ?_⟩, ?_⟩
    · rw [BulkStore.fence, show s.leaseOf lease.batch = none from hnone, hlease]
      exact .open _ _
    · rintro handle ⟨⟩
      exact ⟨rfl, rfl, by simp [Admitted, BulkStore.fence, hl, hlease]⟩
  | some lease =>
    have hfence : s.fence b.pk = some lease.fence := congrArg (Option.map BatchLease.fence) hl
    simp only [hl] at h₂
    split at h₂
    next hlive =>
      cases h₂
      refine ⟨⟨rfl, fun _ => .refl⟩, ?_⟩
      rintro handle ⟨⟩
      refine ⟨rfl, rfl, ?_⟩
      have hnot : ¬ lease.fence.expiresAt ≤ s.clock.headD 0 := Nat.not_le.mpr hlive.2
      rw [hfence, Admitted, if_neg hnot]
      simp [BatchLease.fence, BatchLeaseHandle.fence, hlive.1]
    next =>
      split at h₂
      next hexpired =>
        obtain ⟨_, w, hwrite, h₃⟩ := bind_ok.mp h₂
        obtain ⟨T, hupd, rfl⟩ := write_ok.mp hwrite
        cases h₃
        refine ⟨⟨rfl, moves_of_leaseOf (leaseOf_update hl rfl hupd) ?_⟩, ?_⟩
        · rw [show BulkStore.fence _ b.pk = some lease.fence from hfence]
          exact .takeOver lease.fence _ hexpired _ _
        · rintro handle ⟨⟩
          refine ⟨rfl, rfl, ?_⟩
          rw [hfence, Admitted, if_pos (show lease.fence.expiresAt ≤ _ from hexpired)]
          rfl
      next =>
        cases h₂
        exact ⟨⟨rfl, fun _ => .refl⟩, by simp⟩

end BatchLeaseService

end Civicos.Payments
