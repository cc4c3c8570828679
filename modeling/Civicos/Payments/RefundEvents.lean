import Civicos.Payments.GivingSystem
import Civicos.Payments.RefundCap

/-!
# Events about the portal's own refunds

The gateway reports every refund of a charge, also the one that the confirmation view asked it for.
The handler tells them apart by the identifier of the refund, which the view stores on its row only
after the call has returned.
-/
namespace Civicos.Payments

open Library Library.Transaction

/-- A refund in a payload of the gateway. -/
structure StripeRefund where
  id : String := ""
  amount : Cents := 0
deriving DecidableEq, Repr

/-- The object of `charge.refunded`; the newest refund comes first. -/
structure StripeCharge where
  id : String := ""
  refunds : List StripeRefund := []
deriving DecidableEq, Repr

/-- `_parse_charge_refunded` -/
def parseChargeRefunded (obj : StripeCharge) : ChargeRefunded :=
  let latestRefund := obj.refunds.head?.getD {}
  { gatewayChargeId := obj.id
    gatewayRefundId := latestRefund.id
    refundAmount := latestRefund.amount }

/-- A refund that the gateway carried out. `row` is the row of the call that asked for it; no code
reads it. -/
structure IssuedRefund extends StripeRefund where
  charge : String
  row : Option Uuid := none
deriving DecidableEq, Repr

structure RefundDesk where
  portal : RefundStore := {}
  ledger : List IssuedRefund := []
deriving DecidableEq

/-- What the view puts on a row that has no identifier of the gateway. -/
def placeholder (id : String) : Bool :=
  "pending_".toList.isPrefixOf id.toList || "failed_".toList.isPrefixOf id.toList

/-- An identifier of the gateway: never a placeholder, and short enough to be stored. -/
structure GatewayId (id : String) : Prop where
  nonempty : id ≠ ""
  length : id.length ≤ 255
  real : placeholder id = false

instance (id : String) : Decidable (GatewayId id) :=
  decidable_of_iff (id ≠ "" ∧ id.length ≤ 255 ∧ placeholder id = false)
    ⟨fun h => ⟨h.1, h.2.1, h.2.2⟩, fun h => ⟨h.nonempty, h.length, h.real⟩⟩

namespace RefundDesk

/-- The gateway refunds a charge under an identifier that it has not used yet. -/
def Issues (s : RefundDesk) (g : IssuedRefund) : Prop :=
  GatewayId g.id ∧ g.charge ≠ "" ∧ ∀ h ∈ s.ledger, h.id ≠ g.id

instance (s : RefundDesk) (g : IssuedRefund) : Decidable (s.Issues g) :=
  inferInstanceAs (Decidable (_ ∧ _ ∧ ∀ h ∈ s.ledger, _))

/-- An event shows refunds of its charge. -/
def Sends (s : RefundDesk) (obj : StripeCharge) : Prop :=
  ∀ r ∈ obj.refunds, ∃ g ∈ s.ledger, g.charge = obj.id ∧ g.toStripeRefund = r

instance (s : RefundDesk) (obj : StripeCharge) : Decidable (s.Sends obj) :=
  inferInstanceAs (Decidable (∀ r ∈ obj.refunds, ∃ g ∈ s.ledger, _))

end RefundDesk

/-! ## The system -/

/-- How a call of `create_refund` ends. -/
inductive GatewayReply where
  | refused
  | refunded (id : String)
  /-- The refund is carried out, and the call raises all the same. -/
  | lost (id : String)
deriving DecidableEq, Repr

namespace GatewayReply

def choice : GatewayReply → RefundChoice
  | refused => {}
  | refunded id => { executes := true, gatewayRefundId := some id }
  | lost _ => { executes := true }

def issued (call : RefundCall) : GatewayReply → Option IssuedRefund
  | refused => none
  | refunded id => some ⟨⟨id, call.amount⟩, call.gatewayChargeId, some call.refund⟩
  | lost id => some ⟨⟨id, call.amount⟩, call.gatewayChargeId, some call.refund⟩

end GatewayReply

inductive DeskChoice where
  | portal (c : RefundChoice)
  | gateway (reply : GatewayReply)

/-- Refunds may be issued in the dashboard of the gateway, and every event may be delivered any
number of times and in any order. -/
inductive DeskEvent where
  | checkout (x : CheckoutWriter)
  | dashboard (refund : StripeRefund) (charge : String)
  | chargeRefunded (gatewayEventId : String) (obj : StripeCharge)

namespace RefundDesk

def issue (s : RefundDesk) (g : IssuedRefund) : RefundDesk := { s with ledger := g :: s.ledger }

def act (s : RefundDesk) : RefundWorker → DeskChoice → Option (RefundDesk × RefundWorker)
  | .calling call, .gateway reply =>
    if ∀ g ∈ reply.issued call, s.Issues g then
      (RefundWorker.act s.portal (.calling call) reply.choice).map fun r =>
        (⟨r.1, (reply.issued call).toList ++ s.ledger⟩, r.2)
    else none
  | .calling _, .portal _ => none
  | _, .gateway _ => none
  | w, .portal c => (w.act s.portal c).map fun r => ({ s with portal := r.1 }, r.2)

def env (s : RefundDesk) : DeskEvent → Option RefundDesk
  | .checkout x => (x.write s.portal).map fun portal => { s with portal }
  | .dashboard refund charge =>
    if s.Issues { refund with charge } then some (s.issue { refund with charge }) else none
  | .chargeRefunded gatewayEventId obj =>
    if s.Sends obj then
      let handled := commit (handleChargeRefunded gatewayEventId (parseChargeRefunded obj)) s.portal
      some { s with portal := handled.2 }
    else none

end RefundDesk

/-- Any number of confirmations, and any order of events. -/
def refundDesk : Program RefundDesk RefundWorker DeskChoice DeskEvent where
  Init s := s = {}
  entry := RefundWorker.entry
  halted := .dead
  act := RefundDesk.act
  env := RefundDesk.env

/-! ## Moves of a worker -/

open RefundConfirmView RefundStore

/-- An entry that makes staff book a refund of the dashboard. -/
def PaymentAuditEntry.OfDashboard (e : PaymentAuditEntry) (id : String) : Prop :=
  e.action = .refundRequested ∧ ("source", .str "stripe_dashboard") ∈ e.details ∧
    ("gateway_refund_id", .str id) ∈ e.details

instance (e : PaymentAuditEntry) (id : String) : Decidable (e.OfDashboard id) :=
  inferInstanceAs (Decidable (_ ∧ _ ∧ _))

theorem placeholder_pending (key : String) : placeholder ("pending_" ++ key) = true := by
  simp [placeholder]

theorem placeholder_failed (key : String) : placeholder ("failed_" ++ key) = true := by
  simp [placeholder]

/-- A new booking gets a placeholder, and an entry that names no source. -/
theorem book_files {s t : RefundStore} {payment : Payment} {data : RefundSession} {user : Uuid}
    {key : String} {now : Instant} {call : RefundCall}
    (h : book payment data user key now s = .ok (.ok call, t)) :
    (∃ r, t.refunds.get call.refund = some r ∧ placeholder r.gatewayRefundId = true) ∧
      ∃ e, t.audits = s.audits ++ [e] ∧ ∀ id, ¬ e.OfDashboard id := by
  obtain ⟨intent, s₁, hintent, h₁⟩ := bind_ok.mp h
  obtain ⟨-, rfl⟩ := lookup_ok.mp hintent
  split at h₁
  · cases (pure_ok.mp h₁).1
  obtain ⟨_, _, hget, h₂⟩ := bind_ok.mp h₁
  cases hget
  split at h₂
  · cases (pure_ok.mp h₂).1
  obtain ⟨refund, s₂, hcreate, h₃⟩ := bind_ok.mp h₂
  obtain ⟨hrefund, T, hinsert, rfl⟩ := create_ok.mp hcreate
  obtain ⟨_, s₃, hmodify, h₄⟩ := bind_ok.mp h₃
  cases hmodify
  obtain ⟨hcall, rfl⟩ := pure_ok.mp h₄
  cases hcall
  refine ⟨⟨refund, ?_, ?_⟩, _, rfl, fun id he => ?_⟩
  · exact (Table.get_insert hinsert _).trans (if_pos rfl)
  · rw [hrefund]
    exact placeholder_pending key
  · simpa using he.2.1

theorem post_files {s t : RefundStore} {r : RefundPost} {limited : Bool} {key : String}
    {now : Instant} {call : RefundCall} (h : post r limited key now s = .ok (.ok call, t)) :
    (∃ r, t.refunds.get call.refund = some r ∧ placeholder r.gatewayRefundId = true) ∧
      ∃ e, t.audits = s.audits ++ [e] ∧ ∀ id, ¬ e.OfDashboard id := by
  obtain ⟨payment, s₁, hpayment, h₁⟩ := bind_ok.mp h
  obtain ⟨-, rfl⟩ := lookup_ok.mp hpayment
  split at h₁
  · cases (pure_ok.mp h₁).1
  cases hdata : getSessionData r payment with
  | none =>
    simp only [hdata] at h₁
    cases (pure_ok.mp h₁).1
  | some data =>
    simp only [hdata] at h₁
    exact book_files h₁

/-- Everything that a worker can do. -/
inductive DeskMove (s : RefundDesk) :
    RefundWorker → DeskChoice → RefundDesk → RefundWorker → Prop
  | idle {r c q} (finished : q.call = none) : DeskMove s (.post r) (.portal c) s q
  | booked {r c call refund T audits e} (inserted : s.portal.refunds.insert refund = .ok T)
      (called : call.refund = refund.pk) (pending : refund.gatewayStatus = .pending)
      (new : placeholder refund.gatewayRefundId = true)
      (filed : audits = s.portal.audits ++ [e]) (plain : ∀ id, ¬ e.OfDashboard id)
      (owned : call.Booked { s.portal with refunds := T, audits := audits } refund) :
      DeskMove s (.post r) (.portal c)
        { s with portal := { s.portal with refunds := T, audits := audits } } (.calling call)
  | refused {call} : DeskMove s (.calling call) (.gateway .refused) s (.failing call false)
  | refunded {call id g} (issued : (GatewayReply.refunded id).issued call = some g)
      (issues : s.Issues g) : DeskMove s (.calling call) (.gateway (.refunded id))
        ⟨RefundWorker.createRefund s.portal call true, g :: s.ledger⟩ (.recording call true id)
  | lost {call id g} (issued : (GatewayReply.lost id).issued call = some g)
      (issues : s.Issues g) : DeskMove s (.calling call) (.gateway (.lost id))
        ⟨RefundWorker.createRefund s.portal call true, g :: s.ledger⟩ (.failing call true)
  | confirmed {call c executed id T} (updated : s.portal.refunds.update call.refund (fun row =>
        { row with gatewayRefundId := id, gatewayStatus := .succeeded }) = .ok T) :
      DeskMove s (.recording call executed id) (.portal c)
        { s with portal := { s.portal with refunds := T } } .done
  | unconfirmed {call c executed id} {e : PaymentError}
      (failed : RefundConfirmView.confirmed call id s.portal = .error e) :
      DeskMove s (.recording call executed id) (.portal c) s (.failing call executed)
  | failed {call c executed T} (updated : s.portal.refunds.update call.refund (fun row =>
        { row with
          gatewayStatus := .failed
          gatewayRefundId := "failed_" ++ toString call.refund }) = .ok T) :
      DeskMove s (.failing call executed) (.portal c)
        { s with portal := { s.portal with refunds := T } } .done
  | stuck {call c executed e} : DeskMove s (.failing call executed) (.portal c) s (.raised e)

namespace RefundDesk

variable {s t : RefundDesk} {p q : RefundWorker} {c : DeskChoice}

theorem act_portal {r : RefundChoice} (hp : ∀ call, p ≠ .calling call) :
    s.act p (.portal r) =
      (RefundWorker.act s.portal p r).map fun x => ({ s with portal := x.1 }, x.2) := by
  cases p with
  | calling call => exact absurd rfl (hp call)
  | _ => rfl

theorem post_move {r : RefundPost} {x : RefundChoice} {portal : RefundStore}
    (h : RefundWorker.act s.portal (.post r) x = some (portal, q)) :
    DeskMove s (.post r) (.portal x) { s with portal } q := by
  cases hok : RefundConfirmView.post r x.rateLimited x.idempotencyKey x.now s.portal with
  | error e =>
    simp only [RefundWorker.act, hok] at h
    cases h
    exact .idle rfl
  | ok y =>
    obtain ⟨a, portal'⟩ := y
    cases a with
    | error message =>
      simp only [RefundWorker.act, hok] at h
      cases h
      obtain ⟨rfl, -⟩ | ⟨call, hcall, -⟩ := post_ok hok
      · exact .idle rfl
      · cases hcall
    | ok call =>
      simp only [RefundWorker.act, hok] at h
      cases h
      obtain ⟨⟨row, hrow, hnew⟩, e, hfiled, hplain⟩ := post_files hok
      obtain ⟨-, message, hmessage⟩ | ⟨call', hcall, hmove⟩ := post_ok hok
      · cases hmessage
      cases hcall
      cases hmove r x with
      | refused finished => cases finished
      | @booked _ _ T audits refund payment _ hpayment _ hinsert hpending hpaid hcalled =>
        obtain ⟨hrefund, hof, hamount, hcharge⟩ := hcalled
        have hget : T.get call.refund = some refund :=
          (Table.get_insert hinsert _).trans (if_pos hrefund.symm)
        obtain rfl : refund = row := Option.some.inj (hget.symm.trans hrow)
        refine .booked hinsert hrefund hpending hnew hfiled hplain ⟨hget, ?_, hamount.symm, ?_⟩
        · exact hpaid.trans hof.symm
        · rw [hof, hcharge]
          exact congrArg (Option.map Payment.gatewayChargeId) hpayment

theorem act_move (h : s.act p c = some (t, q)) : DeskMove s p c t q := by
  cases c with
  | gateway reply =>
    cases p with
    | calling call =>
      simp only [act, Option.ite_none_right_eq_some] at h
      obtain ⟨hissues, h⟩ := h
      cases reply with
      | refused =>
        cases h
        exact .refused
      | refunded id =>
        cases h
        exact .refunded rfl (hissues _ rfl)
      | lost id =>
        cases h
        exact .lost rfl (hissues _ rfl)
    | _ => cases h
  | portal r =>
    by_cases hcalling : ∃ call, p = .calling call
    · obtain ⟨call, rfl⟩ := hcalling
      cases h
    rw [act_portal fun call hp => hcalling ⟨call, hp⟩] at h
    obtain ⟨⟨portal, q'⟩, hact, hx⟩ := Option.map_eq_some_iff.mp h
    cases hx
    cases p with
    | post x => exact post_move hact
    | calling call => exact absurd ⟨call, rfl⟩ hcalling
    | recording call executed id =>
      cases RefundWorker.act_move hact with
      | confirmed hupdate => exact .confirmed hupdate
      | unconfirmed hfailed => exact .unconfirmed hfailed
    | failing call executed =>
      cases hok : callFailed call s.portal with
      | error e =>
        simp only [RefundWorker.act, hok] at hact
        cases hact
        exact .stuck
      | ok y =>
        simp only [RefundWorker.act, hok] at hact
        cases hact
        obtain ⟨T, hupdate, hy⟩ := write_ok.mp hok
        rw [hy]
        exact .failed hupdate
    | _ => cases hact

end RefundDesk

/-! ## Every run -/

namespace RefundDesk

/-- The gateway carried a refund out for the row. -/
def Asked (s : RefundDesk) (k : Uuid) (id : String) : Prop :=
  ∃ g ∈ s.ledger, g.id = id ∧ g.row = some k

/-- The row carries the identifier of the gateway. -/
def Recorded (s : RefundDesk) (k : Uuid) (id : String) : Prop :=
  ∃ r ∈ s.portal.refunds.get k, r.gatewayStatus = .succeeded ∧ r.gatewayRefundId = id

/-- Staff are told to book the refund. -/
def Reported (s : RefundDesk) (id : String) : Prop := ∃ e ∈ s.portal.audits, e.OfDashboard id

instance (s : RefundDesk) (k : Uuid) (id : String) : Decidable (s.Asked k id) :=
  inferInstanceAs (Decidable (∃ g ∈ s.ledger, _))

instance (s : RefundDesk) (k : Uuid) (id : String) : Decidable (s.Recorded k id) :=
  inferInstanceAs (Decidable (∃ r ∈ s.portal.refunds.get k, _))

instance (s : RefundDesk) (id : String) : Decidable (s.Reported id) :=
  inferInstanceAs (Decidable (∃ e ∈ s.portal.audits, _))

/-- What holds between the ledger of the gateway and the books. -/
structure Sound (s : RefundDesk) : Prop where
  real : ∀ g ∈ s.ledger, GatewayId g.id ∧ g.charge ≠ ""
  distinct : ∀ g ∈ s.ledger, ∀ h ∈ s.ledger, g.id = h.id → g = h
  single : ∀ g ∈ s.ledger, ∀ h ∈ s.ledger, ∀ k, g.row = some k → h.row = some k → g = h
  booked : ∀ g ∈ s.ledger, ∀ k, g.row = some k →
    ∃ r, s.portal.refunds.get k = some r ∧ s.portal.chargeOf r.payment = some g.charge
  carried : ∀ r ∈ s.portal.refunds.rows, placeholder r.gatewayRefundId = false →
    s.Asked r.pk r.gatewayRefundId
  told : ∀ id, s.Reported id → ∃ g ∈ s.ledger, g.id = id

/-- The row of a call that is still to be settled. -/
def Open (s : RefundDesk) (call : RefundCall) : Prop :=
  ∃ r, call.Booked s.portal r ∧ r.gatewayStatus = .pending ∧ placeholder r.gatewayRefundId = true

/-- What a worker relies on. -/
def Holds (s : RefundDesk) : RefundWorker → Prop
  | .calling call => s.Open call ∧ ∀ id, ¬ s.Asked call.refund id
  | .recording call _ id => s.Open call ∧ s.Asked call.refund id
  | .failing call _ => s.Open call
  | _ => True

variable {s t : RefundDesk} {p q : RefundWorker} {c : DeskChoice} {call : RefundCall}
  {g : IssuedRefund} {k : Uuid} {id : String}

theorem Asked.unique {k' : Uuid} {id' : String} (hs : s.Sound) (h : s.Asked k id)
    (h' : s.Asked k' id') : k = k' ↔ id = id' := by
  obtain ⟨g, hg, rfl, hk⟩ := h
  obtain ⟨g', hg', rfl, hk'⟩ := h'
  constructor
  · rintro rfl
    exact congrArg (·.id) (hs.single g hg g' hg' k hk hk')
  · intro hid
    have heq := hs.distinct g hg g' hg' hid
    exact Option.some.inj (hk.symm.trans ((congrArg IssuedRefund.row heq).trans hk'))

theorem Holds.open_ (h : s.Holds p) (hcall : p.call = some call) : s.Open call := by
  cases p with
  | calling call' => cases hcall; exact h.1
  | recording call' executed id => cases hcall; exact h.1
  | failing call' executed => cases hcall; exact h
  | _ => cases hcall

/-- Steps that leave the ledger alone. -/
theorem Sound.keep (hs : s.Sound) (hledger : t.ledger = s.ledger) (hgrows : s.portal.Grows t.portal)
    (hrows : ∀ r ∈ t.portal.refunds.rows, placeholder r.gatewayRefundId = false →
      s.Asked r.pk r.gatewayRefundId)
    (htold : ∀ id, t.Reported id → ∃ g ∈ s.ledger, g.id = id) : t.Sound := by
  refine ⟨?_, ?_, ?_, ?_, ?_, ?_⟩
  · simpa only [hledger] using hs.real
  · simpa only [hledger] using hs.distinct
  · simpa only [hledger] using hs.single
  · rw [hledger]
    intro g hg k hk
    obtain ⟨r, hr, hcharge⟩ := hs.booked g hg k hk
    obtain ⟨r', hr', hpayment, -⟩ := hgrows.refunds k r hr
    exact ⟨r', hr', by rw [hpayment]; exact hgrows.charges _ _ hcharge⟩
  · simpa only [Asked, hledger] using hrows
  · simpa only [hledger] using htold

/-- The gateway issues a refund. -/
theorem Sound.issue (hs : s.Sound) (hissues : s.Issues g)
    (hgrows : s.portal.Grows t.portal) (hrefunds : t.portal.refunds = s.portal.refunds)
    (haudits : t.portal.audits = s.portal.audits) (hledger : t.ledger = g :: s.ledger)
    (hrow : ∀ k, g.row = some k → (∀ id, ¬ s.Asked k id) ∧
      ∃ r, s.portal.refunds.get k = some r ∧ s.portal.chargeOf r.payment = some g.charge) :
    t.Sound := by
  obtain ⟨hid, hcharge, hfresh⟩ := hissues
  refine ⟨?_, ?_, ?_, ?_, ?_, ?_⟩
  · rw [hledger]
    rintro g' (_ | ⟨_, hg'⟩)
    · exact ⟨hid, hcharge⟩
    · exact hs.real g' hg'
  · rw [hledger]
    rintro a (_ | ⟨_, ha⟩) b (_ | ⟨_, hb⟩) hab
    · rfl
    · exact absurd hab.symm (hfresh b hb)
    · exact absurd hab (hfresh a ha)
    · exact hs.distinct a ha b hb hab
  · rw [hledger]
    rintro a (_ | ⟨_, ha⟩) b (_ | ⟨_, hb⟩) k hak hbk
    · rfl
    · exact absurd ⟨b, hb, rfl, hbk⟩ ((hrow k hak).1 b.id)
    · exact absurd ⟨a, ha, rfl, hak⟩ ((hrow k hbk).1 a.id)
    · exact hs.single a ha b hb k hak hbk
  · rw [hledger, hrefunds]
    intro a ha k hk
    have hold : ∃ r, s.portal.refunds.get k = some r ∧
        s.portal.chargeOf r.payment = some a.charge := by
      rcases ha with _ | ⟨_, ha⟩
      · exact (hrow k hk).2
      · exact hs.booked a ha k hk
    obtain ⟨r, hr, hcharge⟩ := hold
    exact ⟨r, hr, hgrows.charges _ _ hcharge⟩
  · rw [hrefunds]
    intro r hr hreal
    obtain ⟨a, ha, hak⟩ := hs.carried r hr hreal
    exact ⟨a, hledger ▸ List.mem_cons_of_mem g ha, hak⟩
  · intro id hid
    rw [Reported, haudits] at hid
    obtain ⟨a, ha, hak⟩ := hs.told id hid
    exact ⟨a, hledger ▸ List.mem_cons_of_mem g ha, hak⟩

/-- A worker whose row stays as it is relies on the same. -/
theorem Holds.keep (h : s.Holds p) (hgrows : s.portal.Grows t.portal)
    (hget : ∀ call, p.call = some call →
      t.portal.refunds.get call.refund = s.portal.refunds.get call.refund)
    (hasked : ∀ call, p.call = some call → ∀ id, t.Asked call.refund id ↔ s.Asked call.refund id) :
    t.Holds p := by
  have hopen : ∀ call, p.call = some call → s.Open call → t.Open call := by
    rintro call hcall ⟨r, ⟨hr, hpayment, hamount, hcharge⟩, hrest⟩
    exact ⟨r, ⟨(hget call hcall).trans hr, hpayment, hamount, hgrows.charges _ _ hcharge⟩, hrest⟩
  cases p with
  | calling call =>
    exact ⟨hopen call rfl h.1, fun id hid => h.2 id ((hasked call rfl id).mp hid)⟩
  | recording call executed id =>
    exact ⟨hopen call rfl h.1, (hasked call rfl id).mpr h.2⟩
  | failing call executed => exact hopen call rfl h
  | _ => trivial

theorem Holds.of_none (hp : p.call = none) : s.Holds p := by
  cases p with
  | calling call => cases hp
  | recording call executed id => cases hp
  | failing call executed => cases hp
  | _ => trivial

/-- The booking that a worker owns. -/
def key (p : RefundWorker) : Option Uuid := p.call.map RefundCall.refund

theorem key_eq_some : key p = some k ↔ ∃ call, p.call = some call ∧ call.refund = k :=
  Option.map_eq_some_iff

theorem key_of_call (h : p.call = some call) : key p = some call.refund :=
  key_eq_some.mpr ⟨call, h, rfl⟩

theorem key_of_none (h : p.call = none) : key p = none := by rw [key, h, Option.map_none]

/-- A worker owns a row that exists. -/
theorem Holds.row (h : s.Holds p) (hk : key p = some k) : ∃ r, s.portal.refunds.get k = some r := by
  obtain ⟨call, hcall, rfl⟩ := key_eq_some.mp hk
  obtain ⟨r, hr, -⟩ := h.open_ hcall
  exact ⟨r, hr.1⟩

theorem grows_of_move (h : DeskMove s p c t q) : s.portal.Grows t.portal := by
  cases h with
  | booked hinsert =>
    exact ⟨fun _ _ hk => hk, fun _ r hr => ⟨r, Table.get_of_insert hinsert hr, rfl, rfl⟩⟩
  | confirmed hupdate =>
    exact ⟨fun _ _ hk => hk, (update_kept hupdate fun _ => ⟨rfl, rfl, rfl⟩).1⟩
  | failed hupdate =>
    exact ⟨fun _ _ hk => hk, (update_kept hupdate fun _ => ⟨rfl, rfl, rfl⟩).1⟩
  | _ => exact ⟨fun _ _ hk => hk, fun _ r hr => ⟨r, hr, rfl, rfl⟩⟩

theorem asked_issue {portal : RefundStore} :
    Asked ⟨portal, g :: s.ledger⟩ k id ↔ (g.id = id ∧ g.row = some k) ∨ s.Asked k id := by
  simp [Asked]

/-- The issue of the refund that a call asks for. -/
theorem Sound.called (hs : s.Sound) (hp : s.Holds (.calling call))
    (hg : g.row = some call.refund ∧ g.charge = call.gatewayChargeId) (hissues : s.Issues g) :
    Sound ⟨RefundWorker.createRefund s.portal call true, g :: s.ledger⟩ := by
  refine hs.issue hissues ⟨fun _ _ hk => hk, fun _ r hr => ⟨r, hr, rfl, rfl⟩⟩ rfl rfl rfl ?_
  intro k hk
  obtain rfl : call.refund = k := Option.some.inj (hg.1.symm.trans hk)
  obtain ⟨r, ⟨hr, hpayment, -, hcharge⟩, -⟩ := hp.1
  exact ⟨hp.2, r, hr, by rw [hpayment, hcharge, hg.2]⟩

/-- What the issue of a refund leaves to the other workers. -/
theorem Holds.called {w : RefundWorker} (hw : s.Holds w) (hg : g.row = some call.refund)
    (hother : ∀ k, key w = some k → some call.refund ≠ some k) :
    Holds ⟨RefundWorker.createRefund s.portal call true, g :: s.ledger⟩ w := by
  refine hw.keep ⟨fun _ _ hk => hk, fun _ r hr => ⟨r, hr, rfl, rfl⟩⟩ (fun _ _ => rfl) ?_
  intro call' hcall id
  refine asked_issue.trans (or_iff_right fun hboth => ?_)
  exact hother _ (key_of_call hcall) (hg.symm.trans hboth.2)

/-- Rewriting the row that a worker owns leaves the others what they rely on. -/
theorem Holds.rewritten {w : RefundWorker} {f : Refund → Refund} {T : Table Refund.schema}
    (hw : s.Holds w) (hupdate : s.portal.refunds.update call.refund f = .ok T)
    (hf : ∀ r, (f r).pk = r.pk ∧ (f r).payment = r.payment ∧ (f r).amount = r.amount)
    (hother : ∀ k, key w = some k → some call.refund ≠ some k) :
    Holds { s with portal := { s.portal with refunds := T } } w := by
  refine hw.keep ⟨fun _ _ hk => hk, (update_kept hupdate hf).1⟩ ?_ fun _ _ _ => Iff.rfl
  intro call' hcall
  have hne : call.refund ≠ call'.refund := by
    intro hsame
    exact hother _ (key_of_call hcall) (congrArg some hsame)
  exact Table.get_update_of_ne hupdate (fun r => (hf r).1) hne

/-- The new row carries a placeholder, or what the gateway issued for it. -/
theorem Sound.rewritten {f : Refund → Refund} {T : Table Refund.schema} (hs : s.Sound)
    (hopen : s.Open call) (hupdate : s.portal.refunds.update call.refund f = .ok T)
    (hf : ∀ r, (f r).pk = r.pk ∧ (f r).payment = r.payment ∧ (f r).amount = r.amount)
    (hid : ∀ r, placeholder (f r).gatewayRefundId = false →
      s.Asked call.refund (f r).gatewayRefundId) :
    Sound { s with portal := { s.portal with refunds := T } } := by
  refine hs.keep rfl ⟨fun _ _ hk => hk, (update_kept hupdate hf).1⟩ ?_ hs.told
  intro r hr hreal
  obtain ⟨r₀, ⟨hget, -⟩, -⟩ := hopen
  rcases (Table.mem_update hupdate hget).mp hr with ⟨hr, -⟩ | rfl
  · exact hs.carried r hr hreal
  · have hpk : r₀.pk = call.refund := Table.pk_of_get hget
    rw [(hf r₀).1, hpk]
    exact hid r₀ hreal

theorem get_of_inserted {refund : Refund} {T : Table Refund.schema}
    (hinsert : s.portal.refunds.insert refund = .ok T) :
    s.portal.refunds.get refund.pk = none ∧
      ∀ k r, s.portal.refunds.get k = some r → T.get k = s.portal.refunds.get k := by
  constructor
  · exact Table.get_eq_none.mpr fun r hr => ((Table.insert_ok.mp hinsert).1.2 r hr).1
  · intro k r hr
    exact (Table.get_of_insert hinsert hr).trans hr.symm

/-- What a move keeps, and what it leaves to the workers that own other bookings. -/
theorem sound_of_move (hs : s.Sound) (hp : s.Holds p) (h : DeskMove s p c t q) :
    t.Sound ∧ t.Holds q ∧ (key q = none ∨ key q = key p ∨ ∀ w, s.Holds w → key w ≠ key q) ∧
      ∀ w, s.Holds w → (∀ k, key w = some k → key p ≠ some k) → t.Holds w := by
  have hgrows := grows_of_move h
  cases h with
  | idle finished => exact ⟨hs, .of_none finished, .inl (key_of_none finished), fun _ hw _ => hw⟩
  | @booked _ _ call refund T audits e hinsert hcalled hpending hnew hfiled hplain howned =>
    obtain ⟨hnone, hold⟩ := get_of_inserted hinsert
    have hfree : s.portal.refunds.get call.refund = none := hcalled ▸ hnone
    refine ⟨?_, ⟨⟨refund, howned, hpending, hnew⟩, ?_⟩, .inr (.inr ?_), ?_⟩
    · refine hs.keep rfl hgrows (fun r hr hreal => ?_) fun id hid => ?_
      · rw [Table.mem_insert hinsert] at hr
        rcases hr with hr | rfl
        · exact hs.carried r hr hreal
        · cases hnew.symm.trans hreal
      · obtain ⟨a, ha, hdash⟩ := hid
        rw [hfiled, List.mem_append, List.mem_singleton] at ha
        rcases ha with ha | rfl
        · exact hs.told id ⟨a, ha, hdash⟩
        · exact absurd hdash (hplain id)
    · rintro id ⟨g, hg, -, hk⟩
      obtain ⟨r, hr, -⟩ := hs.booked g hg _ hk
      cases hfree.symm.trans hr
    · intro w hw hk
      obtain ⟨r, hr⟩ := hw.row (hk.trans (key_of_call rfl))
      cases hfree.symm.trans hr
    · intro w hw _
      refine hw.keep hgrows (fun call' hcall => ?_) fun _ _ _ => Iff.rfl
      obtain ⟨r, hr⟩ := hw.row (key_of_call hcall)
      exact hold _ r hr
  | refused => exact ⟨hs, hp.1, .inr (.inl rfl), fun _ hw _ => hw⟩
  | @refunded call id g hissued hissues =>
    cases hissued
    refine ⟨hs.called hp ⟨rfl, rfl⟩ hissues, ⟨hp.1, asked_issue.mpr (.inl ⟨rfl, rfl⟩)⟩,
      .inr (.inl rfl), fun w hw hother => hw.called rfl hother⟩
  | @lost call id g hissued hissues =>
    cases hissued
    exact ⟨hs.called hp ⟨rfl, rfl⟩ hissues, hp.1, .inr (.inl rfl),
      fun w hw hother => hw.called rfl fun k hk => hother k hk⟩
  | confirmed hupdate =>
    refine ⟨hs.rewritten hp.1 hupdate (fun _ => ⟨rfl, rfl, rfl⟩) fun _ _ => hp.2, trivial, .inl rfl,
      fun w hw hother => hw.rewritten hupdate (fun _ => ⟨rfl, rfl, rfl⟩) fun k hk => hother k hk⟩
  | unconfirmed => exact ⟨hs, hp.1, .inr (.inl rfl), fun _ hw _ => hw⟩
  | @failed call _ _ _ hupdate =>
    refine ⟨hs.rewritten hp hupdate (fun _ => ⟨rfl, rfl, rfl⟩) fun _ hreal => ?_, trivial, .inl rfl,
      fun w hw hother => hw.rewritten hupdate (fun _ => ⟨rfl, rfl, rfl⟩) fun k hk => hother k hk⟩
    cases (placeholder_failed _).symm.trans hreal
  | stuck => exact ⟨hs, trivial, .inl rfl, fun _ hw _ => hw⟩

end RefundDesk

/-- A refund that no row carries is taken for one of the dashboard. -/
theorem handleChargeRefunded_run (s : RefundStore) (gatewayEventId : String) (d : ChargeRefunded) :
    ∃ audits, handleChargeRefunded gatewayEventId d s = .ok ((), { s with audits }) ∧
      ∀ id, (∃ e ∈ audits, e.OfDashboard id) ↔ (∃ e ∈ s.audits, e.OfDashboard id) ∨
        (d.gatewayRefundId = id ∧ id ≠ "" ∧ d.gatewayChargeId ≠ "" ∧
          (∃ p ∈ s.payments.rows, p.gatewayChargeId = d.gatewayChargeId) ∧
          ∀ r ∈ s.refunds.rows, r.gatewayRefundId ≠ id) := by
  unfold handleChargeRefunded
  by_cases hid : d.gatewayRefundId = ""
  · refine ⟨s.audits, by rw [if_pos hid]; rfl, fun id => ?_⟩
    exact (or_iff_left fun h => h.2.1 (h.1.symm.trans hid)).symm
  by_cases hcharge : d.gatewayChargeId = ""
  · refine ⟨s.audits, by rw [if_neg hid, if_pos hcharge]; rfl, fun id => ?_⟩
    exact (or_iff_left fun h => h.2.2.1 hcharge).symm
  rw [if_neg hid, if_neg hcharge, bind_of_ok get_apply]
  cases hpayment : s.payments.rows.find? (·.gatewayChargeId = d.gatewayChargeId) with
  | none =>
    refine ⟨s.audits, rfl, fun id => (or_iff_left fun h => ?_).symm⟩
    obtain ⟨p, hp, hof⟩ := h.2.2.2.1
    simpa [hof] using List.find?_eq_none.mp hpayment p hp
  | some payment =>
    have hfound : ∃ p ∈ s.payments.rows, p.gatewayChargeId = d.gatewayChargeId :=
      ⟨payment, List.mem_of_find?_eq_some hpayment, by simpa using List.find?_some hpayment⟩
    by_cases hrow : s.refunds.rows.any (·.gatewayRefundId = d.gatewayRefundId) = true
    · refine ⟨_, by dsimp only; rw [if_pos hrow]; exact modify_apply, fun id => ?_⟩
      have hother : ¬ ∀ r ∈ s.refunds.rows, r.gatewayRefundId ≠ d.gatewayRefundId := by
        simpa using hrow
      have hplain : ¬ (d.gatewayRefundId = id ∧ id ≠ "" ∧ d.gatewayChargeId ≠ "" ∧
          (∃ p ∈ s.payments.rows, p.gatewayChargeId = d.gatewayChargeId) ∧
          ∀ r ∈ s.refunds.rows, r.gatewayRefundId ≠ id) := by
        rintro ⟨rfl, -, -, -, hnone⟩
        exact hother hnone
      simp [PaymentAuditEntry.OfDashboard, or_and_right, exists_or, hplain]
    · refine ⟨_, by dsimp only; rw [if_neg hrow]; exact modify_apply, fun id => ?_⟩
      have hnone : ∀ r ∈ s.refunds.rows, r.gatewayRefundId ≠ d.gatewayRefundId := by
        simpa using hrow
      have hreported : (d.gatewayRefundId = id ∧ id ≠ "" ∧ d.gatewayChargeId ≠ "" ∧
          (∃ p ∈ s.payments.rows, p.gatewayChargeId = d.gatewayChargeId) ∧
          ∀ r ∈ s.refunds.rows, r.gatewayRefundId ≠ id) ↔ d.gatewayRefundId = id :=
        ⟨fun h => h.1, by rintro rfl; exact ⟨rfl, hid, hcharge, hfound, hnone⟩⟩
      rw [hreported]
      simp [PaymentAuditEntry.OfDashboard, or_and_right, exists_or, eq_comm]

namespace CheckoutWriter

variable {α : Type} {S : Schema α} {ℓ : Lens RefundStore (Table S)} {s t : RefundStore}

theorem create_audits (hℓ : ∀ T s, (ℓ.set T s).audits = s.audits) (build : ℕ → α) :
    (commit (Transaction.create ℓ PaymentError.ofViolation build) s).2.audits = s.audits := by
  cases hok : Transaction.create ℓ PaymentError.ofViolation build s with
  | error e => rw [commit_of_error hok]
  | ok r =>
    obtain ⟨-, T, -, ht⟩ := create_ok.mp hok
    rw [commit_of_ok hok, ht]
    exact hℓ T s

theorem write_audits (hℓ : ∀ T s, (ℓ.set T s).audits = s.audits) (k : ℕ) (f : α → α) :
    (commit (Transaction.write ℓ PaymentError.ofViolation k f) s).2.audits = s.audits := by
  cases hok : Transaction.write ℓ PaymentError.ofViolation k f s with
  | error e => rw [commit_of_error hok]
  | ok r =>
    obtain ⟨T, -, ht⟩ := Transaction.write_ok.mp hok
    rw [commit_of_ok hok, ht]
    exact hℓ T s

theorem audits {x : CheckoutWriter} (h : x.write s = some t) : t.audits = s.audits := by
  cases x with
  | intend i => cases h; exact create_audits (fun _ _ => rfl) _
  | transition intent status => cases h; exact write_audits (fun _ _ => rfl) _ _
  | capture p => cases h; exact create_audits (fun _ _ => rfl) _

end CheckoutWriter

namespace RefundDesk

variable {s t : RefundDesk} {x : DeskEvent} {w : RefundWorker} {k : Uuid} {id : String}

/-- What an event leaves of the books, and what it adds to the trail. -/
theorem env_keeps (h : s.env x = some t) :
    s.portal.Grows t.portal ∧ t.portal.refunds = s.portal.refunds ∧
      (∀ k id, t.Asked k id ↔ s.Asked k id) := by
  cases x with
  | checkout x =>
    obtain ⟨portal, hportal, rfl⟩ := Option.map_eq_some_iff.mp h
    exact ⟨CheckoutWriter.grows hportal, (CheckoutWriter.write_ok hportal).1, fun _ _ => Iff.rfl⟩
  | dashboard refund charge =>
    obtain ⟨-, ht⟩ := Option.ite_none_right_eq_some.mp h
    cases ht
    exact ⟨⟨fun _ _ hk => hk, fun _ r hr => ⟨r, hr, rfl, rfl⟩⟩, rfl, fun k id => by
      simp [Asked, issue]⟩
  | chargeRefunded gatewayEventId obj =>
    obtain ⟨-, ht⟩ := Option.ite_none_right_eq_some.mp h
    cases ht
    obtain ⟨audits, hrun, -⟩ :=
      handleChargeRefunded_run s.portal gatewayEventId (parseChargeRefunded obj)
    rw [commit_of_ok hrun]
    exact ⟨⟨fun _ _ hk => hk, fun _ r hr => ⟨r, hr, rfl, rfl⟩⟩, rfl, fun _ _ => Iff.rfl⟩

theorem Holds.env (hw : s.Holds w) (h : s.env x = some t) : t.Holds w := by
  obtain ⟨hgrows, hrefunds, hasked⟩ := env_keeps h
  exact hw.keep hgrows (fun _ _ => by rw [hrefunds]) fun _ _ id => hasked _ id

/-- The refund that an event is about is in the ledger. -/
theorem Sends.issued {obj : StripeCharge} (h : s.Sends obj)
    (hid : (parseChargeRefunded obj).gatewayRefundId ≠ "") :
    ∃ g ∈ s.ledger, g.id = (parseChargeRefunded obj).gatewayRefundId ∧
      g.charge = (parseChargeRefunded obj).gatewayChargeId := by
  obtain ⟨charge, refunds⟩ := obj
  cases refunds with
  | nil => exact absurd rfl hid
  | cons latest older =>
    obtain ⟨g, hg, hcharge, hlatest⟩ := h latest (.head older)
    exact ⟨g, hg, congrArg StripeRefund.id hlatest, hcharge⟩

theorem Sound.env (hs : s.Sound) (h : s.env x = some t) : t.Sound := by
  obtain ⟨hgrows, hrefunds, hasked⟩ := env_keeps h
  cases x with
  | checkout x =>
    obtain ⟨portal, hportal, rfl⟩ := Option.map_eq_some_iff.mp h
    refine hs.keep rfl hgrows (fun r hr => ?_) fun id hid => ?_
    · rw [hrefunds] at hr
      exact hs.carried r hr
    · rw [Reported, CheckoutWriter.audits hportal] at hid
      exact hs.told id hid
  | dashboard refund charge =>
    obtain ⟨hissues, ht⟩ := Option.ite_none_right_eq_some.mp h
    cases ht
    exact hs.issue hissues hgrows rfl rfl rfl nofun
  | chargeRefunded gatewayEventId obj =>
    obtain ⟨hsends, ht⟩ := Option.ite_none_right_eq_some.mp h
    cases ht
    obtain ⟨audits, hrun, hreported⟩ :=
      handleChargeRefunded_run s.portal gatewayEventId (parseChargeRefunded obj)
    rw [commit_of_ok hrun]
    refine hs.keep rfl ⟨fun _ _ hk => hk, fun _ r hr => ⟨r, hr, rfl, rfl⟩⟩ hs.carried ?_
    intro id hid
    rcases (hreported id).mp hid with hold | ⟨rfl, hid, -⟩
    · exact hs.told id hold
    · obtain ⟨g, hg, hgid, -⟩ := hsends.issued hid
      exact ⟨g, hg, hgid⟩

end RefundDesk

open RefundDesk

/-- In every run the ledger and the books fit together, and no booking has two workers. -/
theorem refundDesk_sound {w : Pool.State RefundDesk RefundWorker}
    (h : refundDesk.machine.Reachable w) :
    (w.store.Sound ∧ ∀ p ∈ w.workers, w.store.Holds p) ∧ Program.HeldOnce key w.workers := by
  refine Program.invariant_owned (P := refundDesk) (I := Sound) (J := Holds) key
    ?_ ?_ ?_ rfl ?_ ?_ h
  · rintro s rfl
    refine ⟨nofun, nofun, nofun, nofun, nofun, ?_⟩
    rintro id ⟨e, he, -⟩
    cases he
  · intro s p _ hentry
    cases p with
    | post r => exact ⟨trivial, rfl⟩
    | _ => cases hentry
  · exact fun _ _ => trivial
  · intro s p c t q hs hp hact
    exact sound_of_move hs hp (act_move hact)
  · intro s x t hs henv
    exact ⟨hs.env henv, fun w hw => hw.env henv⟩

end Civicos.Payments
