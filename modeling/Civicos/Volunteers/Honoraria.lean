import Civicos.Library.Atomic
import Civicos.Library.Calendar
import Civicos.Library.Update
import Civicos.Payments.Checkout
import Civicos.Volunteers.Store

/-!
# Honoraria

What a volunteer is paid, in whole cents, with the thresholds of the revenue agency. The row is
wired into the payments ledger in the same atomic block; whatever the wiring raises is suppressed.
-/
namespace Civicos.Volunteers.Honoraria

open Library Library.Transaction Payments

/-! ## Rows -/

inductive PaymentType where
  | expense
  | honorarium
deriving DecidableEq, Repr

def PaymentType.ofText : String → Option PaymentType
  | "expense_reimbursement" => some expense
  | "honorarium" => some honorarium
  | _ => none

/-- Dates count the days since 0001-01-01. -/
structure HonorariumState where
  paymentType : PaymentType
  amount : ℤ
  description : String := ""
  paymentDate : ℕ
  t4aRequired : Bool := false
  payment : Option ℕ := none
deriving DecidableEq, Repr

structure Honorarium extends HonorariumState where
  pk : ℕ
  volunteer : ℕ
  createdBy : ℕ
deriving DecidableEq, Repr

namespace Honorarium

/-- The one-to-one link -/
def paymentKey : Index Honorarium where
  name := "volunteers_honorarium_payment_id_key"
  Key := ℕ
  key h := h.payment

def schema : Schema Honorarium where
  pk := pk
  indexes := [paymentKey]
  checks := [⟨.check "vol_honorarium_amount_positive", fun h => 0 < h.amount⟩]

def withState (x : HonorariumState) (h : Honorarium) : Honorarium :=
  { h with toHonorariumState := x }

def withPayment (payment : ℕ) (h : Honorarium) : Honorarium := { h with payment := some payment }

/-- The rows that count for a volunteer and a calendar year -/
def counts (volunteer year : ℕ) (h : Honorarium) : Bool :=
  h.volunteer = volunteer ∧ yearOf h.paymentDate = year ∧ h.paymentType = .honorarium

end Honorarium

/-- The user who calls; `addHonorarium` is what `has_perm` says. -/
structure Creator where
  pk : ℕ
  addHonorarium : Bool := false
deriving DecidableEq, Repr

structure Store where
  profiles : Numbered VolunteerProfile.schema := .empty
  honoraria : Numbered Honorarium.schema := .empty
  intents : Numbered PaymentIntent.schema := .empty
  payments : Numbered Payment.schema := .empty

inductive HonorariumError where
  | permissionDenied (message : String)
  | valueError (message : String)
  | validationError (errors : List (String × String))
  | doesNotExist (model : String)
  | integrityError (constraint : String)
  | wiringError
  | transactionManagementError
deriving DecidableEq, Repr

def HonorariumError.ofViolation : Violation → HonorariumError
  | .unique index => integrityError index
  | .check name => integrityError name
  | .width column => integrityError column

namespace Store

def profileTable : Lens Store (Numbered VolunteerProfile.schema) where
  get s := s.profiles
  set t s := { s with profiles := t }
  get_set _ _ := rfl
  set_get _ := rfl
  set_set _ _ _ := rfl

def honorariumTable : Lens Store (Numbered Honorarium.schema) where
  get s := s.honoraria
  set t s := { s with honoraria := t }
  get_set _ _ := rfl
  set_get _ := rfl
  set_set _ _ _ := rfl

def intentTable : Lens Store (Numbered PaymentIntent.schema) where
  get s := s.intents
  set t s := { s with intents := t }
  get_set _ _ := rfl
  set_get _ := rfl
  set_set _ _ _ := rfl

def paymentTable : Lens Store (Numbered Payment.schema) where
  get s := s.payments
  set t s := { s with payments := t }
  get_set _ _ := rfl
  set_get _ := rfl
  set_set _ _ _ := rfl

/-- `cumulative_ytd` -/
def cumulativeYtd (s : Store) (volunteer year : ℕ) : ℤ :=
  ((s.honoraria.rows.filter (Honorarium.counts volunteer year)).map (·.amount)).sum

/-- The sum in `clean`, which leaves the row itself out. -/
def existingTotal (s : Store) (pk : Option ℕ) (volunteer year : ℕ) : ℤ :=
  ((s.honoraria.rows.filter fun h => h.counts volunteer year && pk ≠ some h.pk).map (·.amount)).sum

end Store

/-! ## Validation -/

/-- `VOLUNTEER_CRA_ALERT_THRESHOLD` -/
def alertThreshold : ℤ := 45000

/-- `VOLUNTEER_CRA_T4A_THRESHOLD` -/
def t4aThreshold : ℤ := 50000

/-- `VOLUNTEER_CRA_HARD_BLOCK` -/
def hardBlock : ℤ := 100000

namespace HonorariumState

/-- The validators of the fields; amounts of more than two places do not get this far. -/
def cleanFields (x : HonorariumState) : List (String × String) :=
  (if x.amount < 1 then
      [("amount", "Ensure this value is greater than or equal to 0.01.")] else []) ++
    (if 100000000 ≤ x.amount.natAbs then
      [("amount", "Ensure that there are no more than 8 digits in total.")] else []) ++
    (if x.description = "" then [("description", "This field cannot be blank.")] else []) ++
    if 300 < x.description.length then
      [("description", "Ensure this value has at most 300 characters (it has " ++
        toString x.description.length ++ ").")] else []

def year (x : HonorariumState) : ℕ := yearOf x.paymentDate

def hardBlockMessage (volunteer year : ℕ) (projected : ℤ) : String :=
  "This honorarium would bring VolunteerProfile #" ++ toString volunteer ++ "'s " ++
    toString year ++ " total to $" ++ decimalText projected ++
    ", exceeding the CRA hard block of $" ++ decimalText hardBlock ++
    ". Contact your finance team. CRA PC-025."

/-- `clean`, with the columns as it leaves them -/
def clean (s : Store) (pk : Option ℕ) (volunteer : ℕ) (x : HonorariumState) :
    Except (String × String) HonorariumState :=
  if x.paymentType ≠ .honorarium then .ok x
  else if x.amount = 0 then .ok x
  else
    let projected := s.existingTotal pk volunteer x.year + x.amount
    if hardBlock ≤ projected then
      .error ("amount", hardBlockMessage volunteer x.year projected)
    else if t4aThreshold ≤ projected then .ok { x with t4aRequired := true }
    else .ok x

def fullClean (s : Store) (pk : Option ℕ) (volunteer : ℕ) (x : HonorariumState) :
    Except HonorariumError HonorariumState :=
  match clean s pk volunteer x, x.cleanFields with
  | .ok y, [] => .ok y
  | .ok _, errors => .error (.validationError errors)
  | .error e, errors => .error (.validationError (errors ++ [e]))

end HonorariumState

/-! ## `create_honorarium` -/

structure HonorariumCall where
  volunteerProfile : ℕ
  paymentType : String
  amount : ℤ
  description : String
  paymentDate : ℕ
  createdBy : Creator
deriving DecidableEq, Repr

namespace HonorariumCall

def state (c : HonorariumCall) (type : PaymentType) : HonorariumState where
  paymentType := type
  amount := c.amount
  description := c.description
  paymentDate := c.paymentDate

/-- Everything before the transaction -/
def checks (c : HonorariumCall) : Except HonorariumError PaymentType :=
  if ¬ c.createdBy.addHonorarium then
    .error (.permissionDenied "You do not have permission to create honoraria.")
  else
    match PaymentType.ofText c.paymentType with
    | none => .error (.valueError ("Invalid payment_type '" ++ c.paymentType ++ "'"))
    | some type => .ok type

end HonorariumCall

def intentId (honorarium : ℕ) : String := "hon-" ++ toString honorarium

def chargeId (honorarium : ℕ) : String := "HON-" ++ toString honorarium

/-- Midnight of a date in the current time zone -/
def midnight (date : ℕ) : Payments.Instant :=
  let standard := date * dayLength + Zone.toronto.west
  if Zone.toronto.daylight (standard - Library.hours 1) then standard - Library.hours 1
  else standard

/-- Where the wiring can fail from outside -/
inductive WiringStep where
  | paidAt
  | intent
  | payment
  | link
deriving DecidableEq, Repr

abbrev Faults := WiringStep → Option Fault

namespace Honorarium

def newIntent (h : Honorarium) (user pk : ℕ) : PaymentIntent where
  pk
  payer := user
  purpose := .honorarium
  status := .completed
  gatewayIntentId := intentId h.pk
  metadata := [("source", .str "volunteers.honorarium"), ("honorarium_pk", .int h.pk)]

def newPayment (h : Honorarium) (intent pk : ℕ) : Payment where
  pk
  intent
  gatewayChargeId := chargeId h.pk
  amountPaid := h.amount
  paymentMethodType := "bank_transfer"
  paidAt := midnight h.paymentDate

end Honorarium

abbrev Block := Library.Block HonorariumError Store

open Library.Block in
/-- The body of the `try` -/
def wire (h : Honorarium) (user : ℕ) (faults : Faults) : Block Payment := do
  fail .wiringError (faults .paidAt)
  fail .wiringError (faults .intent)
  let intent ← statement .transactionManagementError
    (append Store.intentTable .ofViolation (h.newIntent user))
  fail .wiringError (faults .payment)
  let payment ← statement .transactionManagementError
    (append Store.paymentTable .ofViolation (h.newPayment intent.pk))
  fail .wiringError (faults .link)
  statement .transactionManagementError
    (updateRow Store.honorariumTable .ofViolation h.pk (.withPayment payment.pk))
  pure payment

namespace HonorariumCall

open Library.Block

/-- Lock the profile. -/
def lock (c : HonorariumCall) : Block VolunteerProfile :=
  query .transactionManagementError fun s =>
    match s.profiles.get c.volunteerProfile with
    | none => .error (.doesNotExist "VolunteerProfile")
    | some v => .ok v

/-- The new instance, validated -/
def validate (c : HonorariumCall) (type : PaymentType) : Block HonorariumState :=
  query .transactionManagementError fun s => (c.state type).fullClean s none c.volunteerProfile

def row (c : HonorariumCall) (x : HonorariumState) (pk : ℕ) : Honorarium where
  toHonorariumState := x
  pk
  volunteer := c.volunteerProfile
  createdBy := c.createdBy.pk

/-- Insert and wire. -/
def save (c : HonorariumCall) (x : HonorariumState) (user : ℕ) (faults : Faults) :
    Block Honorarium := do
  let h ← statement .transactionManagementError
    (append Store.honorariumTable .ofViolation (c.row x))
  match ← suppress (wire h user faults) with
  | some payment => pure (h.withPayment payment.pk)
  | none => pure h

def record (c : HonorariumCall) (type : PaymentType) (faults : Faults) : Block Honorarium := do
  let v ← c.lock
  let x ← c.validate type
  c.save x v.user faults

end HonorariumCall

def createHonorarium (c : HonorariumCall) (faults : Faults) (s : Store) :
    Except HonorariumError Honorarium × Store :=
  match c.checks with
  | .error e => (.error e, s)
  | .ok type => (c.record type faults).atomic s

/-! ## What validation lets through -/

variable {s : Store} {x y : HonorariumState} {pk : Option ℕ} {volunteer : ℕ}

namespace HonorariumState

/-- The total of the year with the row -/
def projected (s : Store) (pk : Option ℕ) (volunteer : ℕ) (x : HonorariumState) : ℤ :=
  s.existingTotal pk volunteer x.year + x.amount

theorem clean_ok (h : x.clean s pk volunteer = .ok y) (hamount : 1 ≤ x.amount) :
    y = { x with t4aRequired := y.t4aRequired } ∧ (x.t4aRequired = true → y.t4aRequired = true) ∧
      (x.paymentType = .honorarium → x.projected s pk volunteer < hardBlock ∧
        (y.t4aRequired = false → x.projected s pk volunteer < t4aThreshold)) := by
  unfold clean at h
  by_cases htype : x.paymentType = .honorarium
  · have hne : x.amount ≠ 0 := by omega
    rw [if_neg (not_not_intro htype), if_neg hne] at h
    dsimp only at h
    by_cases hblock : hardBlock ≤ s.existingTotal pk volunteer x.year + x.amount
    · rw [if_pos hblock] at h
      cases h
    rw [if_neg hblock] at h
    by_cases hflag : t4aThreshold ≤ s.existingTotal pk volunteer x.year + x.amount
    · rw [if_pos hflag] at h
      cases h
      exact ⟨rfl, fun _ => rfl, fun _ => ⟨not_le.mp hblock, nofun⟩⟩
    · rw [if_neg hflag] at h
      cases h
      exact ⟨rfl, id, fun _ => ⟨not_le.mp hblock, fun _ => not_le.mp hflag⟩⟩
  · rw [if_pos htype] at h
    cases h
    exact ⟨rfl, id, fun hhonorarium => absurd hhonorarium htype⟩

theorem fullClean_ok : x.fullClean s pk volunteer = .ok y ↔
    x.cleanFields = [] ∧ x.clean s pk volunteer = .ok y := by
  unfold fullClean
  cases x.clean s pk volunteer with
  | error e => simp
  | ok z =>
    cases x.cleanFields with
    | nil => simp
    | cons e es => simp

theorem amount_of_cleanFields (h : x.cleanFields = []) : 1 ≤ x.amount := by
  by_contra hlow
  simp [cleanFields, not_le.mp hlow] at h

end HonorariumState

variable {c : HonorariumCall} {type : PaymentType}

/-- A validated instance can be inserted. -/
theorem row_inserted (h : (c.state type).fullClean s none c.volunteerProfile = .ok x) :
    ∃ T, s.honoraria.insert (c.row x) = .ok T ∧
      T.rows = s.honoraria.rows ++ [c.row x s.honoraria.next] := by
  obtain ⟨hfields, hclean⟩ := HonorariumState.fullClean_ok.mp h
  have hamount := HonorariumState.amount_of_cleanFields hfields
  obtain ⟨hx, -⟩ := HonorariumState.clean_ok hclean hamount
  have hpositive : 0 < x.amount := by
    rw [hx]
    exact hamount
  have hnone : x.payment = none := by
    rw [hx]
    rfl
  have haccepted : Honorarium.schema.Valid (c.row x s.honoraria.next) ∧
      ∀ a ∈ s.honoraria.rows, ∀ i ∈ Honorarium.schema.indexes,
        ¬ i.Clash a (c.row x s.honoraria.next) := by
    constructor
    · intro check hcheck
      obtain rfl := List.mem_singleton.mp hcheck
      exact decide_eq_true hpositive
    · rintro a - i hi ⟨hsome, heq⟩
      obtain rfl := List.mem_singleton.mp hi
      exact hsome (heq.trans hnone)
  obtain ⟨T, hT⟩ := (Numbered.insert_returns rfl).mpr haccepted
  exact ⟨T, hT, (Numbered.insert_ok hT rfl).1⟩

/-! ## Sums over the rows -/

section Sums

variable {t : Store} {h h' : Honorarium} {year : ℕ} {p q : Honorarium → Bool}

namespace Store

def sumOf (s : Store) (p : Honorarium → Bool) : ℤ :=
  ((s.honoraria.rows.filter p).map (·.amount)).sum

end Store

/-- What a row adds to a sum. -/
def weigh (p : Honorarium → Bool) (h : Honorarium) : ℤ := if p h then h.amount else 0

theorem amount_pos (hh : h ∈ s.honoraria.rows) : 0 < h.amount :=
  of_decide_eq_true (s.honoraria.table.valid h hh _ (List.mem_singleton_self _))

theorem weigh_nonneg (hh : 0 < h.amount) : 0 ≤ weigh p h := by
  unfold weigh
  split <;> omega

theorem sumOf_eq : s.sumOf p = (s.honoraria.rows.map (weigh p)).sum :=
  Table.sum_filter p (·.amount) s.honoraria.rows

theorem sumOf_insert (hrows : t.honoraria.rows = s.honoraria.rows ++ [h]) :
    t.sumOf p = s.sumOf p + weigh p h := by
  rw [sumOf_eq, sumOf_eq, hrows, List.map_append, List.sum_append, List.map_singleton,
    List.sum_singleton]

theorem sumOf_replace (hh : h ∈ s.honoraria.rows)
    (hrows : t.honoraria.rows = s.honoraria.rows.map fun a => if a.pk = h.pk then h' else a) :
    t.sumOf p = s.sumOf p - weigh p h + weigh p h' := by
  rw [sumOf_eq, sumOf_eq, hrows]
  exact Table.sum_replace (S := Honorarium.schema)
    (s.honoraria.table.apart.imp fun hab => hab.1) hh h'

/-- The total of the year of a new row -/
theorem cumulativeYtd_insert (hrows : t.honoraria.rows = s.honoraria.rows ++ [h])
    (htype : h.paymentType = .honorarium) :
    t.cumulativeYtd h.volunteer (yearOf h.paymentDate) =
      s.cumulativeYtd h.volunteer (yearOf h.paymentDate) + h.amount := by
  have hsum := sumOf_insert (p := Honorarium.counts h.volunteer (yearOf h.paymentDate)) hrows
  rwa [weigh, if_pos (by simp [Honorarium.counts, htype])] at hsum

theorem existingTotal_eq (hh : h ∈ s.honoraria.rows) :
    s.existingTotal (some h.pk) volunteer year =
      s.cumulativeYtd volunteer year - weigh (Honorarium.counts volunteer year) h := by
  have hsum := Table.sum_replace (S := Honorarium.schema)
    (w := weigh (Honorarium.counts volunteer year))
    (s.honoraria.table.apart.imp fun hab => hab.1) hh { h with amount := 0 }
  have hzero : weigh (Honorarium.counts volunteer year) { h with amount := 0 } = 0 := by
    unfold weigh
    split <;> rfl
  rw [hzero, ← sumOf_eq] at hsum
  unfold Store.existingTotal
  rw [Table.sum_filter]
  refine Eq.trans ?_ (hsum.trans (by simp [Store.sumOf, Store.cumulativeYtd]))
  rw [List.map_map]
  refine congrArg List.sum (List.map_congr_left fun a ha => ?_)
  by_cases hpk : a.pk = h.pk
  · simp [hpk, Honorarium.schema, hzero]
  · simp [hpk, Honorarium.schema, weigh, Ne.symm hpk]

theorem existingTotal_none :
    s.existingTotal none volunteer year = s.cumulativeYtd volunteer year := by
  simp [Store.existingTotal, Store.cumulativeYtd]

/-- A smaller selection of rows -/
theorem sumOf_mono (hpq : ∀ h, p h = true → q h = true) : s.sumOf p ≤ s.sumOf q := by
  rw [sumOf_eq, sumOf_eq]
  refine List.sum_le_sum fun h hh => ?_
  have hpos := amount_pos hh
  unfold weigh
  by_cases hp : p h = true
  · rw [if_pos hp, if_pos (hpq h hp)]
  · rw [if_neg hp]
    split <;> omega

end Sums

end Civicos.Volunteers.Honoraria
