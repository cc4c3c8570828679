import Civicos.Payments.VoucherTrail

/-!
# Expired vouchers

The status query derives expiry from the clock; redemption decides from the stored status. So
vouchers are consumed in time exactly as long as nobody tries to redeem them too late.
-/
namespace Civicos.Payments

open Library Library.Transaction VoucherStatus GovStackVoucherService

/-- The voucher is not consumed, or it was redeemed by its expiry date. -/
def GovStackVoucher.SpentInTime (v : GovStackVoucher) : Prop :=
  v.status = consumed → ∃ now, v.redeemedAt = some now ∧ ∀ expiry ∈ v.expiryDate, now ≤ expiry

def VoucherStore.SpentInTime (db : VoucherStore) : Prop :=
  ∀ pk v, db.vouchers.get pk = some v → v.SpentInTime

/-- A redemption at `now` comes by the expiry date of the activated voucher that it is about.
Redemptions whose building block does not fit the audit trail fail anyway. -/
def RedeemsInTime (db : VoucherStore) (r : RedemptionRequest) (now : Instant) : Prop :=
  ∀ v ∈ db.voucherFor r.voucherNumber, v.status = activated → (strip r.issuingBb).length ≤ 50 →
    ∀ expiry ∈ v.expiryDate, now ≤ expiry

instance (db : VoucherStore) (r : RedemptionRequest) (now : Instant) :
    Decidable (RedeemsInTime db r now) :=
  inferInstanceAs (Decidable (∀ v ∈ db.voucherFor r.voucherNumber, _ → _ → _))

/-- The step is not a redemption that comes too late. -/
def InTime (s : Pool.State VoucherStore VoucherWorker) :
    Pool.Label VoucherWorker VoucherChoice VoucherWriter → Prop
  | .act i c =>
    match s.workers[i]? with
    | some (.redeem r true) => RedeemsInTime s.store r c.now
    | _ => True
  | _ => True

instance (s : Pool.State VoucherStore VoucherWorker)
    (label : Pool.Label VoucherWorker VoucherChoice VoucherWriter) :
      Decidable (InTime s label) := by
  unfold InTime
  split
  · split <;> infer_instance
  · infer_instance

/-! ## Redemptions -/

namespace GovStackVoucherService

variable {db db' : VoucherStore} {v : GovStackVoucher} {r : RedemptionRequest} {now : Instant}
  {token : TokenHex}

theorem width_holds {α : Type} {column : String} {n : ℕ} {text : α → String} {row : α}
    (h : (text row).length ≤ n) : (Check.width column n text).holds row = true :=
  decide_eq_true h

theorem redeemed_valid (h : GovStackVoucher.schema.Valid v) (r : RedemptionRequest) (now : Instant)
    (token : TokenHex) :
    GovStackVoucher.schema.Valid (redeemed r now token { v with status := consumed }) := by
  unfold Schema.Valid GovStackVoucher.schema at h ⊢
  simp only [List.forall_mem_cons] at h ⊢
  obtain ⟨hserial, hamount, hcurrency, hgroup, hbb, hinstitution, hbatch, hpayee, hurl, -⟩ := h
  refine ⟨hserial, hamount, hcurrency, hgroup, hbb, hinstitution, hbatch, hpayee, hurl, ?_, ?_, ?_,
    ?_, ?_, by simp⟩
  · exact width_holds (length_clip_le 10 r.agentId)
  · exact width_holds (length_clip_le 200 r.merchantName)
  · exact width_holds (length_clip_le 200 r.merchantBankDetails)
  · exact width_holds (length_clip_le 100 r.merchantVoucherGroup)
  · exact width_holds (Nat.le_of_eq token.length)

theorem audit_of_fits {e : AuditEntry} (h : e.overflow = none) :
    audit e db = .ok ((), { db with audits := db.audits ++ [e] }) := by
  rw [audit, h]
  rfl

/-- The redemption of an activated voucher succeeds, whatever its expiry date. -/
theorem redeem_returns (hfor : db.voucherFor r.voucherNumber = some v)
    (hstatus : v.status = activated)
    (hbb : (strip r.issuingBb).length ≤ 50) : Returns (redeem r now token) db := by
  obtain ⟨hget, -⟩ := VoucherStore.voucherFor_eq_some hfor
  have hvalid := redeemed_valid (db.vouchers.valid v (Table.mem_of_get hget)) r now token
  have htransition : v.transitionTo consumed = .ok { v with status := consumed } := by
    rw [GovStackVoucher.transitionTo, hstatus]
    rfl
  have hoverflow : (entryFor .voucherRedeemed (strip r.issuingBb)
      (redeemed r now token { v with status := consumed })
      [("transaction_id", .str token.text)]).overflow = none := by
    have hle : ¬ 50 < (strip r.issuingBb).length := by omega
    rw [AuditEntry.overflow, entryFor, if_neg hle]
    rfl
  obtain ⟨⟨_, db₁⟩, hwrite⟩ : Returns (write VoucherStore.voucherTable PaymentError.ofViolation
    v.pk fun row =>
      redeemed r now token { row with status := consumed }) db :=
    write_returns hget hvalid rfl fun i hi => by
      rw [List.mem_singleton.mp hi]
      rfl
  unfold redeem
  refine returns_bind.mpr ⟨db, db, rfl, ?_⟩
  simp only [hfor]
  unfold advance
  simp only [htransition]
  refine returns_bind.mpr ⟨_, db₁, hwrite, ?_⟩
  refine returns_bind.mpr ⟨(), _, audit_of_fits hoverflow, returns_pure⟩

/-- A redemption that succeeds leaves its voucher spent in time exactly when it comes in time. -/
theorem redeem_inTime (h : redeem r now token db = .ok (v, db')) :
    v.SpentInTime ↔ RedeemsInTime db r now := by
  obtain ⟨voucher, hfor, hstatus, hbb, rfl, -⟩ := redeem_ok h
  constructor
  · intro hspent v' hv' _ _ expiry hexpiry
    rw [hfor, Option.mem_some_iff] at hv'
    subst hv'
    obtain ⟨now', hnow, hle⟩ := hspent rfl
    obtain rfl : now = now' := Option.some.inj hnow
    exact hle expiry hexpiry
  · intro hinTime _
    refine ⟨now, rfl, fun expiry hexpiry => ?_⟩
    exact hinTime voucher hfor hstatus hbb expiry hexpiry

end GovStackVoucherService

/-! ## Steps -/

variable {db db' : VoucherStore} {v : GovStackVoucher}

/-- After a move the vouchers are spent in time exactly if the moved one is. -/
theorem VoucherMove.spentInTime (h : VoucherMove db db' v) (hdb : db.SpentInTime) :
    db'.SpentInTime ↔ v.SpentInTime := by
  constructor
  · intro hdb'
    exact hdb' v.pk v (by rw [h.rows, if_pos rfl])
  · intro hv pk v' hv'
    rw [h.rows] at hv'
    split at hv'
    · obtain rfl := Option.some.inj hv'
      exact hv
    · exact hdb pk v' hv'

/-- A voucher that was consumed too late stays so. -/
theorem VoucherMove.not_spentInTime (h : VoucherMove db db' v) (hdb : ¬ db.SpentInTime) :
    ¬ db'.SpentInTime := by
  intro hdb'
  refine hdb fun pk v' hv' => ?_
  by_cases hpk : v.pk = pk
  · subst hpk
    intro hconsumed
    have hallowed := h.allowed v'.status (VoucherStore.status_of_get hv')
    rw [hconsumed] at hallowed
    exact absurd hallowed (not_consumed_allows v.status)
  · exact hdb' pk v' (by rw [h.rows, if_neg hpk, hv'])

theorem spentInTime_of_same (h : db'.vouchers = db.vouchers) :
    db'.SpentInTime ↔ db.SpentInTime := by
  rw [VoucherStore.SpentInTime, VoucherStore.SpentInTime, h]

/-- What a block does to vouchers that are spent in time. -/
theorem VoucherWorker.act_spentInTime {p q : VoucherWorker} {c : VoucherChoice}
    (h : VoucherWorker.act db p c = some (db', q)) (hdb : db.SpentInTime) :
    db'.SpentInTime ↔ ∀ r, p = .redeem r true → RedeemsInTime db r c.now := by
  cases VoucherWorker.act_effect h with
  | none _ hunanswered =>
    refine ⟨fun _ r hp v hv hstatus hbb => ?_, fun _ => hdb⟩
    -- The redemption of an activated voucher would have been answered.
    exfalso
    subst hp
    have hreturns : Returns (GovStackVoucherService.redeem r c.now c.token) db :=
      redeem_returns hv hstatus hbb
    obtain ⟨⟨v', db''⟩, hok⟩ := hreturns
    simp only [VoucherWorker.act, VoucherWorker.answer, commit_of_ok hok, Option.some.injEq,
      Prod.mk.injEq] at h
    exact hunanswered v' h.2.symm
  | move _ v hmove hconsumes =>
    rw [hmove.spentInTime hdb]
    constructor
    · rintro hv r rfl
      simp only [VoucherWorker.act, VoucherWorker.answer, Option.some.injEq, Prod.mk.injEq] at h
      cases hok : GovStackVoucherService.redeem r c.now c.token db with
      | error e =>
        rw [commit_of_error hok] at h
        cases h.2
      | ok x =>
        rw [commit_of_ok hok] at h
        obtain ⟨rfl, hx⟩ := h
        cases hx
        exact (redeem_inTime hok).mp hv
    · intro hinTime hconsumed
      obtain ⟨r, hp, hok⟩ := hconsumes hconsumed
      exact (redeem_inTime hok).mpr (hinTime r hp) hconsumed

theorem inTime_act {s : Pool.State VoucherStore VoucherWorker} {i : ℕ} {c : VoucherChoice}
    {p : VoucherWorker} (hp : s.workers[i]? = some p) :
    InTime s (.act i c) ↔ ∀ r, p = .redeem r true → RedeemsInTime s.store r c.now := by
  simp only [InTime, hp]
  split
  next r heq =>
    obtain rfl := Option.some.inj heq
    simp
  next hne =>
    refine ⟨fun _ r hr => ?_, fun _ => trivial⟩
    exact absurd (congrArg some hr) (hne r)

theorem step_spentInTime {s t : Pool.State VoucherStore VoucherWorker}
    {label : Pool.Label VoucherWorker VoucherChoice VoucherWriter} (hs : s.store.SpentInTime)
    (h : vouchers.machine.step s label = some t) : t.store.SpentInTime ↔ InTime s label := by
  obtain ⟨p, rfl, -, rfl⟩ | ⟨i, c, p, st, q, rfl, hp, hact, rfl⟩ | ⟨i, rfl, rfl⟩ |
    ⟨x, st, rfl, henv, rfl⟩ := Program.step_cases h
  · exact ⟨fun _ => trivial, fun _ => hs⟩
  · rw [inTime_act hp]
    exact VoucherWorker.act_spentInTime hact hs
  · exact ⟨fun _ => trivial, fun _ => hs⟩
  · refine ⟨fun _ => trivial, fun _ => ?_⟩
    obtain ⟨hvouchers, -⟩ := voucherWriter_same henv
    exact (spentInTime_of_same hvouchers).mpr hs

theorem step_not_spentInTime {s t : Pool.State VoucherStore VoucherWorker}
    {label : Pool.Label VoucherWorker VoucherChoice VoucherWriter} (hs : ¬ s.store.SpentInTime)
    (h : vouchers.machine.step s label = some t) : ¬ t.store.SpentInTime := by
  obtain ⟨hvouchers, -⟩ | ⟨v, hmove⟩ := voucher_step h
  · rwa [spentInTime_of_same hvouchers]
  · exact hmove.not_spentInTime hs

/-! ## Runs -/

/-- In every run, all states have their vouchers spent in time if and only if no redemption of an
activated voucher comes after its expiry date. -/
theorem spent_in_time_iff {s₀ s : Pool.State VoucherStore VoucherWorker}
    {labels : List (Pool.Label VoucherWorker VoucherChoice VoucherWriter)}
    (h₀ : vouchers.machine.Init s₀) (h : vouchers.machine.run s₀ labels = some s) :
    (∀ ls t, ls <+: labels → vouchers.machine.run s₀ ls = some t → t.store.SpentInTime) ↔
      (vouchers.machine.under InTime).run s₀ labels = some s := by
  have hstart : s₀.store.SpentInTime := by
    obtain ⟨⟨hvouchers, -⟩, -⟩ := h₀
    intro pk v hv
    rw [hvouchers] at hv
    cases hv
  have hkept : ∀ ls t, vouchers.machine.run s₀ ls = some t →
      (t.store.SpentInTime ↔ (vouchers.machine.under InTime).run s₀ ls = some t) := fun ls t hls =>
    Machine.kept_iff_under (G := fun s => s.store.SpentInTime) hstart
      (fun _ _ _ hu hstep => step_spentInTime hu hstep)
      (fun _ _ _ hu hstep => step_not_spentInTime hu hstep) hls
  constructor
  · intro hall
    exact (hkept labels s h).mp (hall labels s (List.prefix_refl labels) h)
  · rintro hunder ls t ⟨rest, rfl⟩ ht
    exact (hkept ls t ht).mpr (Machine.run_under_prefix hunder ht)

theorem spent_in_time_iff_spent : vouchers.machine.run ⟨{}, []⟩ spending = some spent ∧
    ∀ ls t, ls <+: spending → vouchers.machine.run ⟨{}, []⟩ ls = some t → t.store.SpentInTime := by
  have hrun : vouchers.machine.run ⟨{}, []⟩ spending = some spent :=
    Machine.run_final (by decide +kernel)
  have hunder : (vouchers.machine.under InTime).run ⟨{}, []⟩ spending =
      some ((vouchers.machine.under InTime).final ⟨{}, []⟩ spending) :=
    Machine.run_final (by decide +kernel)
  have hsame : (vouchers.machine.under InTime).final ⟨{}, []⟩ spending = spent :=
    Option.some.inj ((Machine.run_of_under hunder).symm.trans hrun)
  exact ⟨hrun,
    (spent_in_time_iff ⟨⟨rfl, by simp⟩, rfl⟩ hrun).mpr (hunder.trans (congrArg some hsame))⟩

/-- A voucher that is good for 90 days is activated, and a redemption arrives after 91 days. -/
def outdated : Pool.State VoucherStore VoucherWorker :=
  vouchers.machine.final ⟨{}, []⟩ [
    .spawn (.preactivate ⟨100, "CAD", "g", "b", "", "", "", ""⟩),
    .act 0 (voucherChoice 0), .act 0 (voucherChoice 0),
    .spawn (.activate "100000000000000000" "b" false),
    .act 1 (voucherChoice 0), .act 1 (voucherChoice 0),
    .spawn (.redeem ⟨"100000000000000000", "b", "", "", "", ""⟩ false),
    .act 2 (voucherChoice (days 91))]

/-- The status query reports it expired, and the redemption consumes it. -/
theorem redeemed_after_expiry :
    vouchers.machine.Reachable outdated ∧
    getStatus outdated.store "100000000000000000" (days 91) = .error .voucherExpired ∧
    ∃ t, vouchers.machine.step outdated (.act 2 (voucherChoice (days 91))) = some t ∧
      t.store.status 1 = some consumed ∧ ¬ t.store.SpentInTime := by
  have hreachable : vouchers.machine.Reachable outdated :=
    .final (M := vouchers.machine) ⟨⟨rfl, by simp⟩, rfl⟩ _
  refine ⟨hreachable, by decide +kernel, _, Machine.step_final (by decide +kernel),
    by decide +kernel, fun hspent => ?_⟩
  have hrow : ((vouchers.machine.final outdated
    [.act 2 (voucherChoice (days 91))]).store.vouchers.get
      1).map (fun v => (v.status, v.redeemedAt, v.expiryDate)) =
      some (consumed, some (days 91), some (days 90)) := by decide +kernel
  obtain ⟨v, hv, hcolumns⟩ := Option.map_eq_some_iff.mp hrow
  simp only [Prod.mk.injEq] at hcolumns
  obtain ⟨hstatus, hat, hexpiry⟩ := hcolumns
  obtain ⟨now, hnow, hle⟩ := hspent 1 v hv hstatus
  have hlate := hle (days 90) hexpiry
  rw [hat, Option.some.injEq] at hnow
  subst hnow
  exact absurd hlate (by decide)

end Civicos.Payments
