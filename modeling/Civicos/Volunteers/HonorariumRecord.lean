import Civicos.Volunteers.Honoraria

/-!
# Honoraria on record

The wiring runs in the block of the honorarium and its exceptions are suppressed. An error of the
database has broken the block by then: it is rolled back, and the caller is told that all is well.
-/
namespace Civicos.Volunteers.Honoraria

open Library Library.Transaction Library.Block Payments

/-! ## What is reported, and what is on record -/

/-- The row that is returned is stored; after an exception there is no new row. -/
def Reported (s : Store) : Except HonorariumError Honorarium × Store → Prop
  | (.ok h, t) => h.pk = s.honoraria.next ∧ h ∈ t.honoraria.rows
  | (.error _, t) => ∀ h ∈ t.honoraria.rows, h.pk ≠ s.honoraria.next

instance {s : Store} {r} : Decidable (Reported s r) :=
  match r with
  | (.ok h, t) => inferInstanceAs (Decidable (h.pk = s.honoraria.next ∧ h ∈ t.honoraria.rows))
  | (.error _, t) => inferInstanceAs (Decidable (∀ h ∈ t.honoraria.rows, h.pk ≠ s.honoraria.next))

/-- A new row has no payment, or the new one. -/
def Linked (s t : Store) : Prop :=
  ∀ h ∈ t.honoraria.rows, h.pk = s.honoraria.next →
    h.payment = none ∨ ∃ p ∈ t.payments.rows, p.pk = s.payments.next ∧ h.payment = some p.pk

/-- New intents and payments refer to an honorarium. -/
def Backed (s t : Store) : Prop :=
  (∀ i ∈ t.intents.rows, i ∉ s.intents.rows →
    ∃ h ∈ t.honoraria.rows, i.gatewayIntentId = intentId h.pk) ∧
  ∀ p ∈ t.payments.rows, p ∉ s.payments.rows →
    ∃ h ∈ t.honoraria.rows, p.gatewayChargeId = chargeId h.pk

def Recorded (s : Store) (r : Except HonorariumError Honorarium × Store) : Prop :=
  Reported s r ∧ Linked s r.2 ∧ Backed s r.2

instance {s t : Store} : Decidable (Linked s t) :=
  inferInstanceAs (Decidable (∀ h ∈ t.honoraria.rows, h.pk = s.honoraria.next →
    h.payment = none ∨ ∃ p ∈ t.payments.rows, p.pk = s.payments.next ∧ h.payment = some p.pk))

instance {s t : Store} : Decidable (Backed s t) :=
  inferInstanceAs (Decidable ((∀ i ∈ t.intents.rows, i ∉ s.intents.rows →
    ∃ h ∈ t.honoraria.rows, i.gatewayIntentId = intentId h.pk) ∧
    ∀ p ∈ t.payments.rows, p ∉ s.payments.rows →
      ∃ h ∈ t.honoraria.rows, p.gatewayChargeId = chargeId h.pk))

instance {s : Store} {r} : Decidable (Recorded s r) :=
  inferInstanceAs (Decidable (Reported s r ∧ Linked s r.2 ∧ Backed s r.2))

/-! ## When the wiring breaks the block -/

/-- Whether a constraint refuses what a step of the wiring writes -/
def refuses (s : Store) (h : Honorarium) (user : ℕ) : WiringStep → Bool
  | .paidAt => false
  | .intent =>
    (PaymentIntent.schema.violation s.intents.rows (h.newIntent user s.intents.next)).isSome
  | .payment =>
    (Payment.schema.violation s.payments.rows (h.newPayment s.intents.next s.payments.next)).isSome
  | .link =>
    (Honorarium.schema.violation s.honoraria.rows (h.withPayment s.payments.next)).isSome

/-- The first step that fails is one at which the database fails. -/
def breaks (faults : Faults) (refused : WiringStep → Bool) : List WiringStep → Bool
  | [] => false
  | step :: rest =>
    match faults step with
    | some .application => false
    | some .database => true
    | none => refused step || breaks faults refused rest

def wiringSteps : List WiringStep := [.paidAt, .intent, .payment, .link]

namespace HonorariumCall

/-- What a call that nothing refuses has validated, with the user of its volunteer -/
def accepted (c : HonorariumCall) (s : Store) : Option (HonorariumState × ℕ) :=
  match c.checks, s.profiles.get c.volunteerProfile with
  | .ok type, some v =>
    match (c.state type).fullClean s none c.volunteerProfile with
    | .ok x => some (x, v.user)
    | .error _ => none
  | _, _ => none

/-- The call gets as far as the wiring, and that breaks the block. -/
def lost (c : HonorariumCall) (faults : Faults) (s : Store) : Bool :=
  (c.accepted s).any fun (x, user) =>
    breaks faults (refuses s (c.row x s.honoraria.next) user) wiringSteps

end HonorariumCall

variable {s t : Store} {h : Honorarium} {c : HonorariumCall} {user : ℕ} {faults : Faults}
  {type : PaymentType} {x y : HonorariumState}

/-! ## The wiring -/

/-- How the wiring of the new row `h` ends; `s` is the store before the row. -/
inductive Wired (s : Store) (h : Honorarium) :
    Bool → Except HonorariumError Payment × Connection Store → Prop where
  | broken (e : HonorariumError) (t : Store) : Wired s h true (.error e, ⟨t, true⟩)
  | skipped (e : HonorariumError) {t : Store} (hrows : t.honoraria.rows = s.honoraria.rows ++ [h])
      (hbacked : Backed s t) : Wired s h false (.error e, ⟨t, false⟩)
  | linked {p : Payment} {t : Store}
      (hrows : t.honoraria.rows = s.honoraria.rows ++ [h.withPayment p.pk])
      (hpayment : p ∈ t.payments.rows) (hpk : p.pk = s.payments.next) (hbacked : Backed s t) :
      Wired s h false (.ok p, ⟨t, false⟩)

theorem Backed.of_rows {h' : Honorarium} (hpk : h'.pk = h.pk)
    (hrows : t.honoraria.rows = s.honoraria.rows ++ [h'])
    (hintents : ∀ i ∈ t.intents.rows, i ∈ s.intents.rows ∨ i.gatewayIntentId = intentId h.pk)
    (hpayments : ∀ p ∈ t.payments.rows, p ∈ s.payments.rows ∨ p.gatewayChargeId = chargeId h.pk) :
    Backed s t := by
  have hmem : h' ∈ t.honoraria.rows := by simp [hrows]
  constructor
  · intro i hi hnew
    exact ⟨h', hmem, hpk ▸ (hintents i hi).resolve_left hnew⟩
  · intro p hp hnew
    exact ⟨h', hmem, hpk ▸ (hpayments p hp).resolve_left hnew⟩

section Steps

variable {α : Type} {e : HonorariumError} {refused : WiringStep → Bool} {step : WiringStep}
  {rest : List WiringStep} {b b' : Bool}

/-- A step that may fail from outside -/
theorem Wired.fail_bind {k : Unit → Block Payment}
    (hskip : Wired s h false (.error e, ⟨t, false⟩))
    (hnext : Wired s h (refused step || breaks faults refused rest) (k () ⟨t, false⟩)) :
    Wired s h (breaks faults refused (step :: rest))
      ((fail e (faults step) >>= k) ⟨t, false⟩) := by
  unfold breaks
  cases faults step with
  | none => exact hnext
  | some f =>
    cases f with
    | application => exact hskip
    | database => exact .broken e _

/-- A statement that is refused, or goes through -/
theorem Wired.statement_bind {tx : Transaction HonorariumError Store α} {k : α → Block Payment}
    (hrun : (b = true ∧ ∃ e', tx t = .error e') ∨
      b = false ∧ ∃ a u, tx t = .ok (a, u) ∧ Wired s h b' (k a ⟨u, false⟩)) :
    Wired s h (b || b') ((statement e tx >>= k) ⟨t, false⟩) := by
  rcases hrun with ⟨rfl, e', herr⟩ | ⟨rfl, a, u, hok, hnext⟩
  · rw [Block.bind_of_error (statement_of_error herr)]
    exact .broken e' t
  · rwa [Block.bind_of_ok (statement_of_ok hok), Bool.false_or]

end Steps

theorem wire_outcome {T : Numbered Honorarium.schema} (hT : T.rows = s.honoraria.rows ++ [h])
    (hpk : h.pk = s.honoraria.next) :
    Wired s h (breaks faults (refuses s h user) wiringSteps)
      (wire h user faults ⟨{ s with honoraria := T }, false⟩) := by
  have hget : T.get h.pk = some h := Numbered.get_eq_some.mpr ⟨by simp [hT], rfl⟩
  have hothers : T.rows.filter (Honorarium.schema.pk · ≠ h.pk) = s.honoraria.rows := by
    rw [hT, List.filter_append, List.filter_eq_self.mpr]
    · simp [Honorarium.schema]
    · intro a ha
      exact decide_eq_true (hpk ▸ Nat.ne_of_lt (s.honoraria.used a ha))
  -- nothing is written before the intent
  have hstart : Backed s { s with honoraria := T } :=
    .of_rows rfl hT (fun _ hi => .inl hi) fun _ hp => .inl hp
  refine .fail_bind (.skipped _ hT hstart) (.fail_bind (.skipped _ hT hstart) ?_)
  refine .statement_bind ?_
  rcases Numbered.insert_cases s.intents (h.newIntent user) rfl with
    ⟨hrefused, v, hinsert⟩ | ⟨haccepted, I, hinsert, hI⟩
  · exact .inl ⟨hrefused, _, append_error.mpr ⟨v, hinsert, rfl⟩⟩
  refine .inr ⟨haccepted, _, _, append_ok.mpr ⟨rfl, I, hinsert, rfl⟩, ?_⟩
  have hintents : ∀ i ∈ I.rows, i ∈ s.intents.rows ∨ i.gatewayIntentId = intentId h.pk := by
    intro i hi
    rcases List.mem_append.mp (hI ▸ hi) with hold | hnew
    · exact .inl hold
    · exact .inr (List.mem_singleton.mp hnew ▸ rfl)
  have hbacked : Backed s { s with honoraria := T, intents := I } :=
    .of_rows rfl hT hintents fun _ hp => .inl hp
  refine .fail_bind (.skipped _ hT hbacked) (.statement_bind ?_)
  rcases Numbered.insert_cases s.payments (h.newPayment s.intents.next) rfl with
    ⟨hrefused, v, hinsert⟩ | ⟨haccepted, P, hinsert, hP⟩
  · exact .inl ⟨hrefused, _, append_error.mpr ⟨v, hinsert, rfl⟩⟩
  refine .inr ⟨haccepted, _, _, append_ok.mpr ⟨rfl, P, hinsert, rfl⟩, ?_⟩
  have hpayments : ∀ p ∈ P.rows, p ∈ s.payments.rows ∨ p.gatewayChargeId = chargeId h.pk := by
    intro p hp
    rcases List.mem_append.mp (hP ▸ hp) with hold | hnew
    · exact .inl hold
    · exact .inr (List.mem_singleton.mp hnew ▸ rfl)
  have hbacked : Backed s { s with honoraria := T, intents := I, payments := P } :=
    .of_rows rfl hT hintents hpayments
  refine .fail_bind (.skipped _ hT hbacked) (.statement_bind ?_)
  have hlink := Numbered.update_cases (f := .withPayment s.payments.next) hget rfl
  rw [hothers] at hlink
  rcases hlink with ⟨hrefused, v, hupdate⟩ | ⟨haccepted, T', hupdate, hT'⟩
  · exact .inl ⟨hrefused, _, updateRow_error.mpr ⟨v, hupdate, rfl⟩⟩
  refine .inr ⟨haccepted, (), _, updateRow_ok.mpr ⟨T', hupdate, rfl⟩, ?_⟩
  have hrows : T'.rows = s.honoraria.rows ++ [h.withPayment s.payments.next] := by
    rw [hT', hT, List.map_append]
    congr 1
    · refine (List.map_congr_left fun a ha => if_neg ?_).trans (List.map_id _)
      exact hpk ▸ Nat.ne_of_lt (s.honoraria.used a ha)
    · exact congrArg (fun a => [a]) (if_pos rfl)
  have hmem : h.newPayment s.intents.next s.payments.next ∈ P.rows := by simp [hP]
  have hbacked : Backed s { s with honoraria := T', intents := I, payments := P } :=
    @Backed.of_rows s _ h (h.withPayment _) rfl hrows hintents hpayments
  exact .linked hrows hmem rfl hbacked

/-! ## The call -/

/-- An exception before anything is written, or after everything has been rolled back -/
theorem recorded_of_error (e : HonorariumError) : Recorded s (.error e, s) := by
  have hold : ∀ h ∈ s.honoraria.rows, h.pk ≠ s.honoraria.next := fun h hh =>
    Nat.ne_of_lt (s.honoraria.used h hh)
  refine ⟨hold, ?_, ?_, ?_⟩
  · intro h hh hpk
    exact absurd hpk (hold h hh)
  · intro i hi hnew
    exact absurd hi hnew
  · intro p hp hnew
    exact absurd hp hnew

theorem not_recorded (hpk : h.pk = s.honoraria.next) : ¬ Recorded s (.ok h, s) := by
  rintro ⟨⟨-, hmem⟩, -⟩
  exact Nat.ne_of_lt (s.honoraria.used h hmem) hpk

/-- Insert and wire: the exception of the wiring is gone, the broken connection is not. -/
theorem save_atomic {T : Numbered Honorarium.schema} {d : Connection Store}
    {r : Except HonorariumError Payment} (hT : s.honoraria.insert (c.row x) = .ok T)
    (hwire : wire (c.row x s.honoraria.next) user faults ⟨{ s with honoraria := T }, false⟩ =
      (r, d)) :
    ∃ h, (c.save x user faults).atomic s = (.ok h, if d.broken then s else d.live) ∧
      h = match r with
        | .ok p => (c.row x s.honoraria.next).withPayment p.pk
        | .error _ => c.row x s.honoraria.next := by
  have hinsert : statement HonorariumError.transactionManagementError
      (append Store.honorariumTable HonorariumError.ofViolation (c.row x)) ⟨s, false⟩ =
        (.ok (c.row x s.honoraria.next), ⟨{ s with honoraria := T }, false⟩) :=
    statement_of_ok (append_ok.mpr ⟨rfl, T, hT, rfl⟩)
  refine ⟨_, ?_, rfl⟩
  refine atomic_of_ok ?_
  unfold HonorariumCall.save
  rw [Block.bind_of_ok hinsert]
  cases r with
  | ok p =>
    rw [Block.bind_of_ok (suppress_of_ok hwire)]
    rfl
  | error e =>
    rw [Block.bind_of_ok (suppress_of_error hwire)]
    rfl

/-- What the block of a call that has got through validation leaves: nothing, or one row. -/
inductive Saved (s : Store) (c : HonorariumCall) (x : HonorariumState) :
    Bool → Except HonorariumError Honorarium × Store → Prop where
  | lost {h : Honorarium} (hpk : h.pk = s.honoraria.next) : Saved s c x true (.ok h, s)
  | kept {h : Honorarium} {t : Store} (hpk : h.pk = s.honoraria.next)
      (hvolunteer : h.volunteer = c.volunteerProfile)
      (hstate : h.toHonorariumState = { x with payment := h.payment })
      (hrows : t.honoraria.rows = s.honoraria.rows ++ [h])
      (hpayment : h.payment = x.payment ∨
        ∃ p ∈ t.payments.rows, p.pk = s.payments.next ∧ h.payment = some p.pk)
      (hbacked : Backed s t) : Saved s c x false (.ok h, t)

theorem save_saved {T : Numbered Honorarium.schema}
    (hT : s.honoraria.insert (c.row x) = .ok T) :
    Saved s c x (breaks faults (refuses s (c.row x s.honoraria.next) user) wiringSteps)
      ((c.save x user faults).atomic s) := by
  have hwired : Wired s (c.row x s.honoraria.next)
      (breaks faults (refuses s (c.row x s.honoraria.next) user) wiringSteps)
      (wire (c.row x s.honoraria.next) user faults ⟨{ s with honoraria := T }, false⟩) :=
    wire_outcome (Numbered.insert_ok hT rfl).1 rfl
  generalize hwire : wire (c.row x s.honoraria.next) user faults
    ⟨{ s with honoraria := T }, false⟩ = w at hwired
  generalize breaks _ _ _ = b at hwired ⊢
  obtain ⟨h, hrun, rfl⟩ := save_atomic hT hwire
  rw [hrun]
  cases hwired with
  | broken e t => exact .lost rfl
  | skipped e ht hbacked => exact .kept rfl rfl rfl ht (.inl rfl) hbacked
  | linked ht hpayment hpk hbacked =>
    exact .kept rfl rfl rfl ht (.inr ⟨_, hpayment, hpk, rfl⟩) hbacked

/-- What a call can do. -/
inductive Outcome (s : Store) (c : HonorariumCall) (faults : Faults) :
    Except HonorariumError Honorarium × Store → Prop where
  | refused (e : HonorariumError) (hrefused : c.accepted s = none) :
      Outcome s c faults (.error e, s)
  | saved {x : HonorariumState} {user : ℕ} {r : Except HonorariumError Honorarium × Store}
      (haccepted : c.accepted s = some (x, user)) (hnone : x.payment = none)
      (hsaved : Saved s c x (c.lost faults s) r) : Outcome s c faults r

theorem HonorariumCall.lock_of_none {c : HonorariumCall} {s : Store}
    (h : s.profiles.get c.volunteerProfile = none) :
    c.lock ⟨s, false⟩ = (.error (.doesNotExist "VolunteerProfile"), ⟨s, false⟩) := by
  unfold lock
  rw [query_live, h]

theorem HonorariumCall.lock_of_some {c : HonorariumCall} {s : Store} {v : VolunteerProfile}
    (h : s.profiles.get c.volunteerProfile = some v) : c.lock ⟨s, false⟩ = (.ok v, ⟨s, false⟩) := by
  unfold lock
  rw [query_live, h]

theorem createHonorarium_outcome (c : HonorariumCall) (faults : Faults) (s : Store) :
    Outcome s c faults (createHonorarium c faults s) := by
  unfold createHonorarium
  cases hchecks : c.checks with
  | error e => exact .refused e (by simp only [HonorariumCall.accepted, hchecks])
  | ok type =>
    have hvalidate : c.validate type ⟨s, false⟩ =
        ((c.state type).fullClean s none c.volunteerProfile, ⟨s, false⟩) := rfl
    dsimp only
    cases hget : s.profiles.get c.volunteerProfile with
    | none =>
      have hrun : (c.record type faults).atomic s = (.error _, s) :=
        atomic_of_error (Block.bind_of_error (HonorariumCall.lock_of_none hget))
      rw [hrun]
      exact .refused _ (by simp only [HonorariumCall.accepted, hchecks, hget])
    | some v =>
      have hlock := HonorariumCall.lock_of_some hget
      cases hclean : (c.state type).fullClean s none c.volunteerProfile with
      | error e =>
        rw [hclean] at hvalidate
        have hrun : (c.record type faults).atomic s = (.error e, s) :=
          atomic_of_error ((Block.bind_of_ok hlock).trans (Block.bind_of_error hvalidate))
        rw [hrun]
        exact .refused e (by simp only [HonorariumCall.accepted, hchecks, hget, hclean])
      | ok x =>
        rw [hclean] at hvalidate
        have hrun : (c.record type faults).atomic s = (c.save x v.user faults).atomic s := by
          unfold atomic HonorariumCall.record
          rw [Block.bind_of_ok hlock, Block.bind_of_ok hvalidate]
        have haccepted : c.accepted s = some (x, v.user) := by
          simp only [HonorariumCall.accepted, hchecks, hget, hclean]
        have hnone : x.payment = none := by
          obtain ⟨hfields, hclean⟩ := HonorariumState.fullClean_ok.mp hclean
          rw [(HonorariumState.clean_ok hclean (HonorariumState.amount_of_cleanFields hfields)).1]
          rfl
        obtain ⟨T, hT, -⟩ := row_inserted hclean
        rw [hrun]
        refine .saved haccepted hnone ?_
        rw [HonorariumCall.lost, haccepted]
        exact save_saved hT

theorem Saved.recorded {b : Bool} {r : Except HonorariumError Honorarium × Store}
    (hnone : x.payment = none) (hsaved : Saved s c x b r) : Recorded s r ↔ b = false := by
  cases hsaved with
  | lost hpk => exact iff_of_false (not_recorded hpk) (by decide)
  | @kept h t hpk _ hstate hrows hpayment hbacked =>
    refine iff_of_true ⟨⟨hpk, ?_⟩, fun a ha hapk => ?_, hbacked⟩ rfl
    · rw [hrows]
      exact List.mem_append_right _ (List.mem_singleton_self h)
    · -- the new row is the only one with its number
      rcases List.mem_append.mp (hrows ▸ ha) with hold | hnew
      · exact absurd hapk (Nat.ne_of_lt (s.honoraria.used a hold))
      · rw [List.mem_singleton.mp hnew]
        exact hpayment.imp_left (·.trans hnone)

/-- What is returned is on record, exactly unless the wiring has broken the block. -/
theorem createHonorarium_recorded (c : HonorariumCall) (faults : Faults) (s : Store) :
    Recorded s (createHonorarium c faults s) ↔ c.lost faults s = false := by
  have houtcome := createHonorarium_outcome c faults s
  generalize createHonorarium c faults s = r at houtcome ⊢
  cases houtcome with
  | refused e hrefused =>
    refine iff_of_true (recorded_of_error e) ?_
    rw [HonorariumCall.lost, hrefused]
    rfl
  | saved _ hnone hsaved => exact hsaved.recorded hnone

/-! ## A payment that is refused -/

section Example

/-- One volunteer, and a payment with the charge number of the first honorarium -/
private def charged : Store where
  profiles := .seed [fun pk => { pk, user := 9 }]
  payments := .seed [fun pk => {
    pk
    intent := 7
    gatewayChargeId := "HON-1"
    amountPaid := 100 }]

private def call : HonorariumCall where
  volunteerProfile := 1
  paymentType := "honorarium"
  amount := 5000
  description := "Workshop"
  paymentDate := 739000
  createdBy := { pk := 3, addHonorarium := true }

theorem honorarium_lost : ∃ h,
    (createHonorarium call (fun _ => none) charged).1 = .ok h ∧
      (createHonorarium call (fun _ => none) charged).2.honoraria.rows = [] ∧
      ¬ Recorded charged (createHonorarium call (fun _ => none) charged) :=
  ⟨call.row { call.state .honorarium with payment := none } 1, by decide +kernel⟩

end Example

end Civicos.Volunteers.Honoraria
