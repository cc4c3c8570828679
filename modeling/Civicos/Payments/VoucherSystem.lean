import Civicos.Payments.Voucher
import Civicos.Library.Pool

/-!
# Voucher requests

Any number of preactivation, activation, redemption and cancellation requests by any callers.
A request is the block that it executes next: its checks, one attempt at a serial number, or
its transaction. Meanwhile building blocks register and other components write audit entries.
-/
namespace Civicos.Payments

open Library Library.Transaction

inductive VoucherWorker where
  | preactivate (r : PreactivationRequest)
  | create (r : PreactivationRequest) (expiry : Instant) (attempt : ℕ)
  | activate (voucherSerialNumber issuingBb : String) (checked : Bool)
  | redeem (r : RedemptionRequest) (checked : Bool)
  | cancel (voucherSerialNumber : String)
  | answered (result : Except PaymentError GovStackVoucher)
  | dead

structure VoucherChoice where
  settings : VoucherSettings
  now : Instant
  random : ℕ
  token : TokenHex

inductive VoucherWriter where
  | registeredBBs (rows : List GovStackRegisteredBB)
  | audits (entries : List AuditEntry)

namespace VoucherWorker

open GovStackVoucherService

def isEntry : VoucherWorker → Bool
  | preactivate _ => true
  | activate _ _ checked => !checked
  | redeem _ checked => !checked
  | cancel _ => true
  | _ => false

/-- A transaction whose outcome answers the request. -/
def answer (x : VoucherTx GovStackVoucher) (db : VoucherStore) : VoucherStore × VoucherWorker :=
  ((commit x db).2, answered (commit x db).1)

/-- A collision of serial numbers is retried with another one. -/
def retry (r : PreactivationRequest) (expiry : Instant) (attempt : ℕ) :
    Except PaymentError GovStackVoucher → VoucherWorker
  | .error (.integrityError constraint) =>
    if attempt = serialMaxRetries - 1 then answered (.error (.integrityError constraint))
    else create r expiry (attempt + 1)
  | result => answered result

def act (db : VoucherStore) (p : VoucherWorker) (c : VoucherChoice) :
    Option (VoucherStore × VoucherWorker) :=
  match p with
  | preactivate r =>
    match checkPreactivation c.settings db.registeredBBs r c.now with
    | .error e => some (db, answered (.error e))
    | .ok expiry => some (db, create r expiry 0)
  | create r expiry attempt =>
    let x := GovStackVoucherService.create r expiry c.random
    some ((commit x db).2, retry r expiry attempt (commit x db).1)
  | activate voucherSerialNumber issuingBb false =>
    match checkActivation c.settings db.registeredBBs issuingBb with
    | .error e => some (db, answered (.error e))
    | .ok _ => some (db, activate voucherSerialNumber issuingBb true)
  | activate voucherSerialNumber issuingBb true =>
    some (answer (GovStackVoucherService.activate voucherSerialNumber issuingBb) db)
  | redeem r false =>
    match checkRedemption c.settings db.registeredBBs r with
    | .error e => some (db, answered (.error e))
    | .ok _ => some (db, redeem r true)
  | redeem r true => some (answer (GovStackVoucherService.redeem r c.now c.token) db)
  | cancel voucherSerialNumber =>
    some (answer (GovStackVoucherService.cancel voucherSerialNumber) db)
  | answered _ => none
  | dead => none

end VoucherWorker

/-- Nobody else audits vouchers. -/
def AuditEntry.ForeignToVouchers (e : AuditEntry) : Prop := e.objectType ≠ "voucher"

instance : DecidablePred AuditEntry.ForeignToVouchers :=
    fun _ => inferInstanceAs (Decidable (_ ≠ _))

def VoucherWriter.write (db : VoucherStore) : VoucherWriter → Option VoucherStore
  | registeredBBs rows => some { db with registeredBBs := rows }
  | audits entries =>
    if ∀ e ∈ entries, e.ForeignToVouchers then some { db with audits := db.audits ++ entries }
    else none

def vouchers : Program VoucherStore VoucherWorker VoucherChoice VoucherWriter where
  Init db := db.vouchers = .empty ∧ ∀ e ∈ db.audits, e.ForeignToVouchers
  entry := VoucherWorker.isEntry
  halted := .dead
  act := VoucherWorker.act
  env := VoucherWriter.write

/-! ## What a transaction can do -/

namespace VoucherStore

variable {db db' : VoucherStore} {v : GovStackVoucher} {serialNumber : String}

/-- The status of a voucher, once it exists. -/
def status (db : VoucherStore) (pk : Uuid) : Option VoucherStatus :=
  (db.vouchers.get pk).map (·.status)

theorem status_of_get {pk : Uuid} (h : db.vouchers.get pk = some v) :
    db.status pk = some v.status :=
  congrArg (Option.map GovStackVoucher.status) h

theorem status_next : db.status db.vouchers.next = none :=
  congrArg (Option.map GovStackVoucher.status) Table.get_next

theorem voucherFor_eq_some (h : db.voucherFor serialNumber = some v) :
    db.vouchers.get v.pk = some v ∧ v.serialNumber = serialNumber := by
  have hserial : v.serialNumber = serialNumber := by simpa using List.find?_some h
  exact ⟨Table.get_eq_some.mpr ⟨List.mem_of_find?_eq_some h, rfl⟩, hserial⟩

end VoucherStore

/-- The status that an audited action leads to. -/
def AuditAction.voucherStatus : AuditAction → Option VoucherStatus
  | .voucherPreactivated => some .preactivated
  | .voucherActivated => some .activated
  | .voucherRedeemed => some .consumed
  | .voucherCancelled => some .cancelled
  | _ => none

/-- The entry reports the status of the row. -/
structure AuditEntry.Reports (e : AuditEntry) (v : GovStackVoucher) : Prop where
  objectType : e.objectType = "voucher"
  objectPk : e.objectPk = toString v.pk
  status : e.action.voucherStatus = some v.status
  transactionId : v.status = .consumed →
    ("transaction_id", Value.str v.redemptionTransactionId) ∈ e.details

/-- A successful request moves one voucher by one allowed step and reports it. -/
structure VoucherMove (db db' : VoucherStore) (v : GovStackVoucher) : Prop where
  audits : ∃ e : AuditEntry, e.Reports v ∧ db'.audits = db.audits ++ [e]
  rows : ∀ k, db'.vouchers.get k = if v.pk = k then some v else db.vouchers.get k
  initial : db.status v.pk = none → v.status = .preactivated
  allowed : ∀ a ∈ db.status v.pk, a.Allows v.status

namespace GovStackVoucherService

variable {db db' : VoucherStore} {v voucher : GovStackVoucher} {target : VoucherStatus}
  {refused : PaymentError} {record : GovStackVoucher → GovStackVoucher}
  {entry : GovStackVoucher → AuditEntry}

theorem audit_ok {e : AuditEntry} {u : Unit} (h : audit e db = .ok (u, db')) :
    e.actorBbId.length ≤ 50 ∧ db' = { db with audits := db.audits ++ [e] } := by
  unfold audit at h
  cases hoverflow : e.overflow with
  | none =>
    simp only [hoverflow] at h
    cases h
    refine ⟨Nat.not_lt.mp fun hlt => ?_, rfl⟩
    rw [AuditEntry.overflow, if_pos hlt] at hoverflow
    cases hoverflow
  | some column =>
    simp only [hoverflow] at h
    cases h

theorem create_ok {r : PreactivationRequest} {expiry : Instant} {random : ℕ}
    (h : create r expiry random db = .ok (v, db')) :
    v.status = .preactivated ∧ VoucherMove db db' v := by
  obtain ⟨v', db₁, hcreate, h₁⟩ := bind_ok.mp h
  obtain ⟨rfl, T, hins, rfl⟩ := Transaction.create_ok.mp hcreate
  obtain ⟨_, db₂, haudit, h₂⟩ := bind_ok.mp h₁
  obtain ⟨-, rfl⟩ := audit_ok haudit
  cases h₂
  refine ⟨rfl, ⟨_, ⟨rfl, rfl, rfl, nofun⟩, rfl⟩, Table.get_insert hins, fun _ => rfl, ?_⟩
  intro a ha
  have hnone : a ∈ (none : Option VoucherStatus) := VoucherStore.status_next ▸ ha
  cases hnone

theorem transitionTo_ok {moved : GovStackVoucher} (h : voucher.transitionTo target = .ok moved) :
    voucher.status.Allows target ∧ moved = { voucher with status := target } := by
  unfold GovStackVoucher.transitionTo at h
  split at h
  next hallowed =>
    cases h
    exact ⟨hallowed, rfl⟩
  · cases h

theorem entryFor_reports {action : AuditAction} {actor : String} {row : GovStackVoucher}
    {details : Json} (haction : action.voucherStatus = some row.status)
    (hdetails : row.status = .consumed →
      ("transaction_id", Value.str row.redemptionTransactionId) ∈ details) :
    (entryFor action actor row details).Reports row :=
  ⟨rfl, rfl, haction, fun hconsumed => .tail _ (hdetails hconsumed)⟩

/-- `record` keeps the primary key and the status. -/
theorem advance_ok (hget : db.vouchers.get voucher.pk = some voucher)
    (hrecord : ∀ row, (record row).pk = row.pk ∧ (record row).status = row.status)
    (hentry : ∀ row, row.status = target → (entry (record row)).Reports (record row))
    (h : advance voucher target refused record entry db = .ok (v, db')) :
    voucher.status.Allows target ∧ v = record { voucher with status := target } ∧
      (entry v).actorBbId.length ≤ 50 ∧ VoucherMove db db' v := by
  unfold advance at h
  cases htransition : voucher.transitionTo target with
  | error e =>
    simp only [htransition] at h
    cases h
  | ok moved =>
    simp only [htransition] at h
    obtain ⟨hallowed, rfl⟩ := transitionTo_ok htransition
    obtain ⟨_, db₁, hwrite, h₁⟩ := bind_ok.mp h
    obtain ⟨T, hupd, rfl⟩ := write_ok.mp hwrite
    obtain ⟨_, db₂, haudit, h₂⟩ := bind_ok.mp h₁
    obtain ⟨hactor, rfl⟩ := audit_ok haudit
    cases h₂
    have hpk : (record { voucher with status := target }).pk = voucher.pk := (hrecord _).1
    have hstatus : (record { voucher with status := target }).status = target := (hrecord _).2
    have hbefore : db.status (record { voucher with status := target }).pk = some
      voucher.status := by
      rw [hpk]
      exact VoucherStore.status_of_get hget
    refine ⟨hallowed, rfl, hactor, ⟨_, hentry _ rfl, rfl⟩, fun k => ?_, fun hnone => ?_,
      fun a ha => ?_⟩
    · rw [hpk]
      exact Table.get_update hupd hget hpk k
    · rw [hbefore] at hnone
      cases hnone
    · rw [hbefore] at ha
      cases ha
      rw [hstatus]
      exact hallowed

theorem activate_ok {serialNumber issuingBb : String}
    (h : activate serialNumber issuingBb db = .ok (v, db')) :
    v.status = .activated ∧ VoucherMove db db' v := by
  obtain ⟨_, _, hget, h₁⟩ := bind_ok.mp h
  cases hget
  cases hfor : db.voucherFor serialNumber with
  | none => simp [hfor] at h₁
  | some voucher =>
    simp only [hfor] at h₁
    have hentry : ∀ row : GovStackVoucher, row.status = .activated →
        (entryFor .voucherActivated (strip issuingBb) row
          [("group_code", .str row.groupCode), ("new_status", .str row.status.text)]).Reports row :=
      fun row hrow => entryFor_reports (congrArg some hrow.symm) fun hc =>
        absurd (hrow.symm.trans hc) (by decide)
    obtain ⟨-, rfl, -, hmove⟩ :=
      advance_ok (VoucherStore.voucherFor_eq_some hfor).1 (fun _ => ⟨rfl, rfl⟩) hentry h₁
    exact ⟨rfl, hmove⟩

theorem redeem_ok {r : RedemptionRequest} {now : Instant} {token : TokenHex}
    (h : redeem r now token db = .ok (v, db')) :
    ∃ voucher, db.voucherFor r.voucherNumber = some voucher ∧
      voucher.status = .activated ∧ (strip r.issuingBb).length ≤ 50 ∧
        v = redeemed r now token { voucher with status := .consumed } ∧ VoucherMove db db' v := by
  obtain ⟨_, _, hget, h₁⟩ := bind_ok.mp h
  cases hget
  cases hfor : db.voucherFor r.voucherNumber with
  | none => simp [hfor] at h₁
  | some voucher =>
    simp only [hfor] at h₁
    have hentry : ∀ row : GovStackVoucher, row.status = .consumed →
        (entryFor .voucherRedeemed (strip r.issuingBb) (redeemed r now token row)
          [("transaction_id", .str token.text)]).Reports (redeemed r now token row) :=
      fun row hrow => entryFor_reports (congrArg some hrow.symm) fun _ => .head _
    have hrecord : ∀ row : GovStackVoucher, (redeemed r now token row).pk = row.pk ∧
        (redeemed r now token row).status = row.status := fun _ => ⟨rfl, rfl⟩
    obtain ⟨hallowed, hv, hactor, hmove⟩ :=
      advance_ok (VoucherStore.voucherFor_eq_some hfor).1 hrecord hentry h₁
    refine ⟨voucher, rfl, ?_, hactor, hv, hmove⟩
    revert hallowed
    cases voucher.status <;> decide

theorem cancel_ok {serialNumber : String} (h : cancel serialNumber db = .ok (v, db')) :
    v.status = .cancelled ∧ VoucherMove db db' v := by
  obtain ⟨_, _, hget, h₁⟩ := bind_ok.mp h
  cases hget
  cases hfor : db.voucherFor serialNumber with
  | none => simp [hfor] at h₁
  | some voucher =>
    simp only [hfor] at h₁
    split at h₁
    · cases h₁
    · have hentry : ∀ row : GovStackVoucher, row.status = .cancelled →
          (entryFor .voucherCancelled "" row [("group_code", .str row.groupCode)]).Reports row :=
        fun row hrow => entryFor_reports (congrArg some hrow.symm) fun hc =>
          absurd (hrow.symm.trans hc) (by decide)
      obtain ⟨-, rfl, -, hmove⟩ :=
        advance_ok (VoucherStore.voucherFor_eq_some hfor).1 (fun _ => ⟨rfl, rfl⟩) hentry h₁
      exact ⟨rfl, hmove⟩

end GovStackVoucherService

namespace VoucherWorker

variable {db db' : VoucherStore} {p q : VoucherWorker} {c : VoucherChoice}

/-- The effect of a block: nothing, or the move that it answers the request with. Only a
redemption consumes. -/
inductive Effect (db : VoucherStore) (p : VoucherWorker) (c : VoucherChoice) :
    VoucherStore → VoucherWorker → Prop where
  | none (q : VoucherWorker) (unanswered : ∀ v, q ≠ answered (.ok v)) : Effect db p c db q
  | move (db' : VoucherStore) (v : GovStackVoucher) (move : VoucherMove db db' v)
      (consumes : v.status = .consumed → ∃ r, p = redeem r true ∧
        GovStackVoucherService.redeem r c.now c.token db = .ok (v, db')) :
      Effect db p c db' (answered (.ok v))

theorem answer_effect {x : VoucherTx GovStackVoucher}
    (hx : ∀ v db', x db = .ok (v, db') → VoucherMove db db' v ∧ (v.status = .consumed →
      ∃ r, p = redeem r true ∧ GovStackVoucherService.redeem r c.now c.token db = .ok (v, db'))) :
    Effect db p c (answer x db).1 (answer x db).2 := by
  unfold answer
  cases h : x db with
  | error e =>
    rw [commit_of_error h]
    exact .none _ fun _ hq => nomatch hq
  | ok r =>
    rw [commit_of_ok h]
    obtain ⟨hmove, hconsumes⟩ := hx _ _ h
    exact .move _ _ hmove hconsumes

theorem create_effect (r : PreactivationRequest) (expiry : Instant) (attempt random : ℕ) :
    Effect db p c (commit (GovStackVoucherService.create r expiry random) db).2
      (retry r expiry attempt (commit (GovStackVoucherService.create r expiry random) db).1) := by
  cases h : GovStackVoucherService.create r expiry random db with
  | error e =>
    rw [commit_of_error h]
    refine .none _ fun v hq => ?_
    unfold retry at hq
    split at hq
    · split at hq <;> cases hq
    · cases hq
  | ok r =>
    rw [commit_of_ok h]
    obtain ⟨hstatus, hmove⟩ := GovStackVoucherService.create_ok h
    refine .move _ _ hmove fun hconsumed => ?_
    rw [hstatus] at hconsumed
    cases hconsumed

theorem act_effect (h : act db p c = some (db', q)) : Effect db p c db' q := by
  cases p with
  | preactivate r =>
    simp only [act] at h
    split at h <;> cases h <;> exact .none _ fun _ hq => nomatch hq
  | create r expiry attempt =>
    cases h
    exact create_effect r expiry attempt c.random
  | activate serialNumber issuingBb checked =>
    cases checked with
    | false =>
      simp only [act] at h
      split at h <;> cases h <;> exact .none _ fun _ hq => nomatch hq
    | true =>
      cases h
      refine answer_effect fun v db' hok => ?_
      obtain ⟨hstatus, hmove⟩ := GovStackVoucherService.activate_ok hok
      exact ⟨hmove, fun hconsumed => absurd (hstatus.symm.trans hconsumed) (by decide)⟩
  | redeem r checked =>
    cases checked with
    | false =>
      simp only [act] at h
      split at h <;> cases h <;> exact .none _ fun _ hq => nomatch hq
    | true =>
      cases h
      refine answer_effect fun v db' hok => ?_
      obtain ⟨voucher, -, -, -, -, hmove⟩ := GovStackVoucherService.redeem_ok hok
      exact ⟨hmove, fun _ => ⟨r, rfl, hok⟩⟩
  | cancel serialNumber =>
    cases h
    refine answer_effect fun v db' hok => ?_
    obtain ⟨hstatus, hmove⟩ := GovStackVoucherService.cancel_ok hok
    exact ⟨hmove, fun hconsumed => absurd (hstatus.symm.trans hconsumed) (by decide)⟩
  | answered result => cases h
  | dead => cases h

end VoucherWorker

end Civicos.Payments
