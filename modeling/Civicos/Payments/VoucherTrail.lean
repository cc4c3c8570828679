import Civicos.Payments.VoucherSystem
import Civicos.Library.Trail

/-!
# Voucher lifecycle

The audit trail of a voucher is the path of statuses that it went through, and the path follows
the allowed transitions.
-/
namespace Civicos.Payments

open Library Library.Transaction VoucherStatus

namespace VoucherStore

/-- The audit trail of a voucher, in order. -/
def entriesOf (db : VoucherStore) (pk : Uuid) : List AuditEntry :=
  db.audits.filter fun e => e.objectType = "voucher" ∧ e.objectPk = toString pk

/-- The statuses that it reports. -/
def trail (db : VoucherStore) (pk : Uuid) : List VoucherStatus :=
  (db.entriesOf pk).filterMap (·.action.voucherStatus)

def redemptions (db : VoucherStore) (pk : Uuid) : List AuditEntry :=
  (db.entriesOf pk).filter (·.action = .voucherRedeemed)

/-- Trail and row of a voucher belong together. -/
structure Traced (db : VoucherStore) (pk : Uuid) : Prop where
  reported : ∀ e ∈ db.entriesOf pk, e.action.voucherStatus.isSome = true
  chain : (db.trail pk).IsChain Allows
  first : ∀ a ∈ (db.trail pk).head?, a = preactivated
  last : (db.trail pk).getLast? = db.status pk
  transactionId : ∀ v, db.vouchers.get pk = some v → ∀ e ∈ db.redemptions pk,
    ("transaction_id", .str v.redemptionTransactionId) ∈ e.details

variable {db db' : VoucherStore} {pk : Uuid} {v : GovStackVoucher}

/-- Entries that do not concern the voucher do not show in its trail. -/
theorem Traced.of_same (h : db.Traced pk) (hentries : db'.entriesOf pk = db.entriesOf pk)
    (hget : db'.vouchers.get pk = db.vouchers.get pk) : db'.Traced pk := by
  have htrail : db'.trail pk = db.trail pk := by rw [trail, trail, hentries]
  have hredemptions : db'.redemptions pk = db.redemptions pk := by
    rw [redemptions, redemptions, hentries]
  refine ⟨?_, ?_, ?_, ?_, ?_⟩
  · rw [hentries]
    exact h.reported
  · rw [htrail]
    exact h.chain
  · rw [htrail]
    exact h.first
  · rw [htrail, status, hget]
    exact h.last
  · rw [hget, hredemptions]
    exact h.transactionId

theorem entriesOf_append {es : List AuditEntry} (hdb : db'.audits = db.audits ++ es) :
    db'.entriesOf pk = db.entriesOf pk ++
      es.filter fun e => e.objectType = "voucher" ∧ e.objectPk = toString pk := by
  rw [entriesOf, hdb, List.filter_append, entriesOf]

theorem entriesOf_foreign {es : List AuditEntry} (hdb : db'.audits = db.audits ++ es)
    (hes : ∀ e ∈ es, e.ForeignToVouchers) : db'.entriesOf pk = db.entriesOf pk := by
  have hnil : es.filter (fun e => e.objectType = "voucher" ∧ e.objectPk = toString pk) = [] := by
    refine List.filter_eq_nil_iff.mpr fun e he => ?_
    have hne := hes e he
    simp only [AuditEntry.ForeignToVouchers] at hne
    simp [hne]
  rw [entriesOf_append hdb, hnil, List.append_nil]

theorem status_of_rows (hrows : ∀ k,
    db'.vouchers.get k = if v.pk = k then some v else db.vouchers.get k) :
    db'.status pk = if v.pk = pk then some v.status else db.status pk := by
  rw [status, hrows]
  split
  · rfl
  · rfl

end VoucherStore

namespace VoucherMove

open VoucherStore

variable {db db' : VoucherStore} {pk : Uuid} {v : GovStackVoucher}

/-- A move adds one entry to the trail of its voucher. -/
theorem entriesOf (h : VoucherMove db db' v) : ∃ e : AuditEntry, e.Reports v ∧
    ∀ pk, db'.entriesOf pk = db.entriesOf pk ++ if v.pk = pk then [e] else [] := by
  obtain ⟨e, he, haudits⟩ := h.audits
  refine ⟨e, he, fun pk => ?_⟩
  have hkey : toString v.pk = toString pk ↔ v.pk = pk := toString_uuid_inj
  rw [entriesOf_append haudits]
  simp only [List.filter_cons, List.filter_nil, he.objectType, he.objectPk, hkey, true_and,
    decide_eq_true_eq]

theorem trail (h : VoucherMove db db' v) (pk : Uuid) :
    db'.trail pk = db.trail pk ++ if v.pk = pk then [v.status] else [] := by
  obtain ⟨e, he, hentries⟩ := h.entriesOf
  rw [VoucherStore.trail, hentries, List.filterMap_append, VoucherStore.trail]
  split
  · rw [List.filterMap_cons, he.status, List.filterMap_nil]
  · rfl

/-- A voucher that has been redeemed is not moved again. -/
theorem redemptions_nil (h : VoucherMove db db' v) (htraced : db.Traced v.pk) :
    db.redemptions v.pk = [] := by
  refine List.filter_eq_nil_iff.mpr fun e he hredeemed => ?_
  have hmem : consumed ∈ db.trail v.pk := by
    refine List.mem_filterMap.mpr ⟨e, he, ?_⟩
    rw [of_decide_eq_true hredeemed]
    rfl
  have hlast := Trail.getLast?_of_stuck htraced.chain hmem not_consumed_allows
  rw [htraced.last] at hlast
  exact not_consumed_allows _ (h.allowed consumed hlast)

theorem traced (h : VoucherMove db db' v) (htraced : db.Traced pk) : db'.Traced pk := by
  obtain ⟨e, he, hentries⟩ := h.entriesOf
  by_cases hpk : v.pk = pk
  · subst hpk
    have htrail := h.trail v.pk
    have hentries := hentries v.pk
    rw [if_pos rfl] at htrail hentries
    have hstatus : db'.status v.pk = some v.status := by rw [status_of_rows h.rows, if_pos rfl]
    refine ⟨?_, ?_, ?_, ?_, ?_⟩
    · intro x hx
      rw [hentries, List.mem_append, List.mem_singleton] at hx
      rcases hx with hx | rfl
      · exact htraced.reported x hx
      · rw [he.status]
        rfl
    · rw [htrail]
      cases hbefore : db.status v.pk with
      | none =>
        have hnil : db.trail v.pk = [] := List.getLast?_eq_none_iff.mp (htraced.last.trans hbefore)
        rw [hnil]
        exact List.isChain_singleton _
      | some a =>
        exact Trail.isChain_concat htraced.chain (htraced.last.trans hbefore) (h.allowed a hbefore)
    · rw [htrail]
      cases hbefore : db.trail v.pk with
      | nil =>
        have hnone : db.status v.pk = none := by
          rw [← htraced.last, hbefore]
          rfl
        simpa using h.initial hnone
      | cons a l =>
        have hfirst := htraced.first
        rw [hbefore] at hfirst
        simpa using hfirst
    · rw [htrail, hstatus, List.getLast?_concat]
    · intro v' hv' x hx
      rw [h.rows, if_pos rfl, Option.some.injEq] at hv'
      subst hv'
      rw [redemptions, hentries, List.filter_append, ← redemptions, h.redemptions_nil htraced,
        List.nil_append, List.mem_filter, List.mem_singleton, decide_eq_true_eq] at hx
      obtain ⟨rfl, hredeemed⟩ := hx
      refine he.transactionId ?_
      have hreported := he.status
      rw [hredeemed] at hreported
      exact (Option.some.inj hreported).symm
  · have hentries := hentries pk
    rw [if_neg hpk, List.append_nil] at hentries
    refine htraced.of_same hentries ?_
    rw [h.rows, if_neg hpk]

end VoucherMove

/-! ## Redemptions -/

theorem AuditAction.voucherStatus_consumed (a : AuditAction) :
    decide (a = .voucherRedeemed) = (a.voucherStatus.map (· == consumed)).getD false := by
  cases a <;> rfl

namespace VoucherStore

variable {db : VoucherStore} {pk : Uuid}

theorem length_redemptions (db : VoucherStore) (pk : Uuid) :
    (db.redemptions pk).length = (db.trail pk).count consumed := by
  rw [redemptions, trail, ← List.countP_eq_length_filter, List.count, List.countP_filterMap]
  exact congrArg (fun p => List.countP p (db.entriesOf pk))
    (funext fun e => e.action.voucherStatus_consumed)

/-- The path of a voucher ends with its consumption or cancellation, if it comes to that. -/
theorem Traced.final_once (h : db.Traced pk) :
    (db.trail pk).countP (fun a => a = consumed ∨ a = cancelled) ≤ 1 :=
  Trail.countP_stuck_le_one h.chain fun _ _ => Allows.not_final

theorem Traced.redemptions_iff (h : db.Traced pk) :
    db.status pk = some consumed ↔ (db.redemptions pk).length = 1 := by
  rw [length_redemptions]
  have hle : (db.trail pk).count consumed ≤ 1 := by
    refine Nat.le_trans ?_ h.final_once
    exact List.countP_mono_left fun a _ ha => by simp_all
  constructor
  · intro hstatus
    have hmem : consumed ∈ db.trail pk := List.mem_of_getLast? (h.last.trans hstatus)
    have hpos := List.count_pos_iff.mpr hmem
    omega
  · intro hone
    have hmem : consumed ∈ db.trail pk := List.count_pos_iff.mp (by omega)
    rw [← h.last]
    exact Trail.getLast?_of_stuck h.chain hmem not_consumed_allows

theorem Traced.map_voucherStatus (h : db.Traced pk) :
    (db.entriesOf pk).map (·.action.voucherStatus) = (db.trail pk).map some := by
  have hall := h.reported
  rw [trail]
  generalize db.entriesOf pk = es at hall ⊢
  induction es with
  | nil => rfl
  | cons e es ih =>
    obtain ⟨he, hes⟩ := List.forall_mem_cons.mp hall
    obtain ⟨a, ha⟩ := Option.isSome_iff_exists.mp he
    rw [List.map_cons, List.filterMap_cons, ha, List.map_cons, ih hes]

end VoucherStore

/-! ## Runs -/

open VoucherStore

theorem voucherWriter_same {db db' : VoucherStore} {x : VoucherWriter}
    (h : x.write db = some db') :
    db'.vouchers = db.vouchers ∧ ∀ pk, db'.entriesOf pk = db.entriesOf pk := by
  cases x with
  | registeredBBs rows =>
    cases h
    exact ⟨rfl, fun _ => rfl⟩
  | audits entries =>
    simp only [VoucherWriter.write, Option.ite_none_right_eq_some, Option.some.injEq] at h
    obtain ⟨hforeign, rfl⟩ := h
    exact ⟨rfl, fun pk => entriesOf_foreign rfl hforeign⟩

/-- A step leaves every voucher and its trail alone, or it is the move of one voucher. -/
theorem voucher_step {s t : Pool.State VoucherStore VoucherWorker}
    {label : Pool.Label VoucherWorker VoucherChoice VoucherWriter}
    (h : vouchers.machine.step s label = some t) :
    (t.store.vouchers = s.store.vouchers ∧ ∀ pk, t.store.entriesOf pk = s.store.entriesOf pk) ∨
      ∃ v, VoucherMove s.store t.store v := by
  obtain ⟨p, -, -, rfl⟩ | ⟨i, c, p, st, q, -, -, hact, rfl⟩ | ⟨i, -, rfl⟩ |
    ⟨x, st, -, henv, rfl⟩ := Program.step_cases h
  · exact .inl ⟨rfl, fun _ => rfl⟩
  · cases VoucherWorker.act_effect hact with
    | none => exact .inl ⟨rfl, fun _ => rfl⟩
    | move _ v hmove _ => exact .inr ⟨v, hmove⟩
  · exact .inl ⟨rfl, fun _ => rfl⟩
  · exact .inl (voucherWriter_same henv)

theorem traced_initially {s₀ : Pool.State VoucherStore VoucherWorker}
    (h₀ : vouchers.machine.Init s₀) (pk : Uuid) :
    s₀.store.entriesOf pk = [] ∧ s₀.store.status pk = none ∧ s₀.store.Traced pk := by
  obtain ⟨⟨hvouchers, hforeign⟩, -⟩ := h₀
  have hget : s₀.store.vouchers.get pk = none := by
    rw [hvouchers]
    rfl
  have hstatus : s₀.store.status pk = none := congrArg (Option.map GovStackVoucher.status) hget
  have hnil : s₀.store.entriesOf pk = [] := by
    refine List.filter_eq_nil_iff.mpr fun e he => ?_
    have hne := hforeign e he
    simp only [AuditEntry.ForeignToVouchers] at hne
    simp [hne]
  have htrail : s₀.store.trail pk = [] := by
    rw [trail, hnil]
    rfl
  refine ⟨hnil, hstatus, ⟨?_, ?_, ?_, ?_, ?_⟩⟩
  · simp [hnil]
  · simp [htrail]
  · simp [htrail]
  · rw [htrail, hstatus]
    rfl
  · simp [hget]

theorem traced_step {s t : Pool.State VoucherStore VoucherWorker}
    {label : Pool.Label VoucherWorker VoucherChoice VoucherWriter} {pk : Uuid}
    (htraced : s.store.Traced pk) (h : vouchers.machine.step s label = some t) :
    t.store.Traced pk := by
  obtain ⟨hvouchers, hentries⟩ | ⟨v, hmove⟩ := voucher_step h
  · exact htraced.of_same (hentries pk) (by rw [hvouchers])
  · exact hmove.traced htraced

/-- The trail of a voucher grows by its new status whenever the status changes. -/
theorem trail_grows {s t : Pool.State VoucherStore VoucherWorker}
    {label : Pool.Label VoucherWorker VoucherChoice VoucherWriter} {pk : Uuid}
    (h : vouchers.machine.step s label = some t) :
    t.store.trail pk = s.store.trail pk ++
      if t.store.status pk = s.store.status pk then [] else (t.store.status pk).toList := by
  obtain ⟨hvouchers, hentries⟩ | ⟨v, hmove⟩ := voucher_step h
  · have hstatus : t.store.status pk = s.store.status pk := by rw [status, status, hvouchers]
    rw [if_pos hstatus, List.append_nil, trail, trail, hentries]
  · have hstatus : t.store.status pk = if v.pk = pk then some v.status else s.store.status pk :=
      status_of_rows hmove.rows
    rw [hmove.trail, hstatus]
    by_cases hpk : v.pk = pk
    · subst hpk
      have hne : ¬ some v.status = s.store.status v.pk :=
        fun heq => (hmove.allowed v.status heq.symm).ne rfl
      simp [hne]
    · simp [hpk]

/-- Every run of preactivations, activations, redemptions and cancellations: the trail of a
voucher is the path of its statuses; the path starts preactivated, follows the allowed
transitions, and is ended by at most one consumption or cancellation; there is one redemption
entry exactly for a consumed voucher, with the transaction id of the row; and a block that does
not answer its request with a voucher changes nothing. -/
theorem voucher_lifecycle {s₀ s : Pool.State VoucherStore VoucherWorker}
    {labels : List (Pool.Label VoucherWorker VoucherChoice VoucherWriter)}
    (h₀ : vouchers.machine.Init s₀) (h : vouchers.machine.run s₀ labels = some s) (pk : Uuid) :
    (s.store.entriesOf pk).map (·.action.voucherStatus) =
      (vouchers.machine.history (fun s => s.store.status pk) s₀ labels).map some ∧
    (vouchers.machine.history (fun s => s.store.status pk) s₀ labels).IsChain Allows ∧
    (∀ a ∈ (vouchers.machine.history (fun s => s.store.status pk) s₀ labels).head?,
      a = preactivated) ∧
    (vouchers.machine.history (fun s => s.store.status pk) s₀ labels).countP
      (fun a => a = consumed ∨ a = cancelled) ≤ 1 ∧
    (s.store.status pk = some consumed ↔ (s.store.redemptions pk).length = 1) ∧
    (s.store.redemptions pk).length ≤ 1 ∧
    (∀ v, s.store.vouchers.get pk = some v → ∀ e ∈ s.store.redemptions pk,
      ("transaction_id", .str v.redemptionTransactionId) ∈ e.details) ∧
    (∀ label t a, vouchers.machine.step s label = some t → s.store.status pk = some a →
      ∃ b, t.store.status pk = some b ∧ (b = a ∨ a.Allows b)) ∧
    (∀ i t, vouchers.machine.step s (.die i) = some t → t.store = s.store) ∧
    ∀ i c t, vouchers.machine.step s (.act i c) = some t →
      (∀ v, t.workers[i]? ≠ some (.answered (.ok v))) → t.store = s.store := by
  obtain ⟨hnil, -, htraced₀⟩ := traced_initially h₀ pk
  have htraced : s.store.Traced pk :=
    Machine.Later.induct (I := fun s => s.store.Traced pk) ⟨labels, h⟩ htraced₀
      fun _ _ _ _ ih hstep => traced_step ih hstep
  have htrail : s.store.trail pk =
      vouchers.machine.history (fun s => s.store.status pk) s₀ labels := by
    have hlog : s.store.trail pk = s₀.store.trail pk ++
        vouchers.machine.history (fun s => s.store.status pk) s₀ labels :=
      Machine.log_eq_history (I := fun _ => True) trivial (fun _ _ _ _ _ => trivial)
        (fun _ _ _ _ hstep => trail_grows hstep) h
    have htrail₀ : s₀.store.trail pk = [] := by
      rw [trail, hnil]
      rfl
    rw [hlog, htrail₀, List.nil_append]
  rw [← htrail]
  refine ⟨htraced.map_voucherStatus, htraced.chain, htraced.first, htraced.final_once,
    htraced.redemptions_iff, ?_, htraced.transactionId, ?_, ?_, ?_⟩
  · rw [length_redemptions]
    refine Nat.le_trans ?_ htraced.final_once
    exact List.countP_mono_left fun a _ ha => by simp_all
  · intro label t a hstep ha
    obtain ⟨hvouchers, -⟩ | ⟨v, hmove⟩ := voucher_step hstep
    · refine ⟨a, ?_, .inl rfl⟩
      rw [status, hvouchers]
      exact ha
    · rw [status_of_rows hmove.rows]
      split
      next hpk =>
        subst hpk
        exact ⟨v.status, rfl, .inr (hmove.allowed a ha)⟩
      next => exact ⟨a, ha, .inl rfl⟩
  · intro i t hstep
    cases hstep
    rfl
  · intro i c t hstep hunanswered
    obtain ⟨p, st, q, hp, hact, hst, hq⟩ := Program.act_cases hstep
    rw [hst]
    cases VoucherWorker.act_effect hact with
    | none => rfl
    | move _ v hmove _ => exact absurd hq (hunanswered v)

/-- A clock, and the first serial number of all. -/
def voucherChoice (now : Instant) : VoucherChoice :=
  ⟨⟨false, 90⟩, now, 0, ⟨"00000000000000000000", by decide⟩⟩

/-- A voucher that is issued, activated and redeemed within a second. -/
def spending : List (Pool.Label VoucherWorker VoucherChoice VoucherWriter) :=
  [.spawn (.preactivate ⟨100, "CAD", "g", "b", "", "", "", ""⟩),
    .act 0 (voucherChoice 0), .act 0 (voucherChoice 0),
    .spawn (.activate "100000000000000000" "b" false),
    .act 1 (voucherChoice 0), .act 1 (voucherChoice 0),
    .spawn (.redeem ⟨"100000000000000000", "b", "", "", "", ""⟩ false),
    .act 2 (voucherChoice 1000000), .act 2 (voucherChoice 1000000)]

def spent : Pool.State VoucherStore VoucherWorker := vouchers.machine.final ⟨{}, []⟩ spending

theorem voucher_lifecycle_spent :
    (spent.store.entriesOf 1).map (·.action.voucherStatus) =
      [some preactivated, some activated, some consumed] ∧
    (spent.store.redemptions 1).length = 1 ∧
    (vouchers.machine.history (fun s => s.store.status 1) ⟨{}, []⟩ spending).map some =
      (spent.store.entriesOf 1).map (·.action.voucherStatus) := by
  have hrun : vouchers.machine.run ⟨{}, []⟩ spending = some spent :=
    Machine.run_final (by decide +kernel)
  have h := voucher_lifecycle ⟨⟨rfl, by simp⟩, rfl⟩ hrun 1
  have hstatus : spent.store.status 1 = some consumed := by decide +kernel
  exact ⟨by decide +kernel, h.2.2.2.2.1.mp hstatus, h.1.symm⟩

end Civicos.Payments
