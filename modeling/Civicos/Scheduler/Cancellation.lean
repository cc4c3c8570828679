import Civicos.Scheduler.Materialization

/-!
# Cancelled schedules

A cancelled schedule stays cancelled until it is re-armed, as long as nobody modifies it. The
generation of a schedule counts its modifications and re-armings, whatever else happens.
-/
namespace Civicos.Scheduler

open Library Library.Transaction
open Payments (Uuid Json Digest clip)
open Appointments (Instant)

variable {σ τ : State} {s t : Store} {x y : AlertSchedule} {now : Instant} {j k : ℕ}
  {r : AlertChanges} {op : Operation} {ops : List Operation}

/-! ## Modifications and re-armings -/

namespace AlertChanges

/-- Whether `alert_schedule_modify` accepts every value that is supplied. -/
def accepted (r : AlertChanges) (s : Store) (now : Instant) : Bool :=
  r.event.all (fun event => event ∈ s.events) ∧
    r.targetCategory.all (fun category => category ∈ ["", "subscriber", "resource"]) ∧
    r.message.all (fun message => message.any fun pk => pk ∈ s.messages) ∧
    r.alertDatetime.all fun parsed => parsed.toOption.any fun instant => now < instant

/-- Whether a supplied value differs from the one of the row. -/
def genuine (r : AlertChanges) (x : AlertSchedule) : Bool :=
  r.event.any (· ≠ x.slot) ∨ r.targetCategory.any (· ≠ x.targetCategory) ∨
    r.message.any (· ≠ some x.message) ∨
    r.alertDatetime.any fun parsed => parsed.toOption ≠ some x.alertDatetime

end AlertChanges

namespace Operation

/-- A modification of the schedule's delivery content, or the fence that goes with one. -/
def modifies (s : Store) (x : AlertSchedule) : Operation → Bool
  | alertScheduleModify schedule r now => schedule = x.pk ∧ r.accepted s now ∧ r.genuine x
  | fenceScheduleForModify schedule _ => schedule = x.pk
  | _ => false

def rearms (schedule : ℕ) : Operation → Bool
  | rearmSchedule k _ => k = schedule
  | _ => false

def cancels (schedule : ℕ) : Operation → Bool
  | cancelSchedule k _ => k = schedule
  | _ => false

end Operation

namespace AlertSchedule

/-- Whether an operation begins a new generation. -/
def advancedBy (s : Store) (op : Operation) (x : AlertSchedule) : Bool :=
  op.modifies s x ∨ op.rearms x.pk ∧ !x.deliveryAdmittable

/-- The columns that decide about admission. -/
def lifecycle (x : AlertSchedule) : ℕ × Bool := (x.deliveryGeneration, x.deliveryAdmittable)

/-- What an operation makes of these columns. -/
def after (s : Store) (op : Operation) (x : AlertSchedule) : ℕ × Bool :=
  if x.advancedBy s op then (x.deliveryGeneration + 1, true)
  else if op.cancels x.pk then (x.deliveryGeneration, false)
  else x.lifecycle

end AlertSchedule

/-! ## Work that leaves the schedules alone -/

namespace Store

/-- No schedule is made, taken away, fenced or re-armed. -/
def SameLifecycle (s t : Store) : Prop := t.schedules.next = s.schedules.next ∧
  ∀ k, (t.schedules.get k).map (·.lifecycle) = (s.schedules.get k).map (·.lifecycle)

instance : Std.Refl SameLifecycle := ⟨fun _ => ⟨rfl, fun _ => rfl⟩⟩

instance : IsTrans Store SameLifecycle :=
  ⟨fun _ _ _ h h' => ⟨h'.1.trans h.1, fun k => (h'.2 k).trans (h.2 k)⟩⟩

end Store

open Store (SameLifecycle)

section Others

variable {key : Digest String} {token : Uuid} {outbox generation : ℕ}

theorem sameLifecycle_of_eq (h : t.schedules = s.schedules) : SameLifecycle s t := by
  rw [SameLifecycle, h]
  exact ⟨rfl, fun _ => rfl⟩

theorem deliveryOf_within : Within SameLifecycle (deliveryOf key) := by
  intro s d t h
  unfold deliveryOf at h
  split at h <;> cases h
  exact Std.Refl.refl _

theorem updateDeliveries_within {p : RecipientDelivery → Bool}
    {f : RecipientDelivery → DeliveryState} : Within SameLifecycle (updateDeliveries p f) := by
  rintro s v t ⟨⟩
  exact sameLifecycle_of_eq rfl

/-- One row is read, and changed unless it is in the wrong state. -/
theorem row_within {α : Type} {c : RecipientDelivery → Prop} [∀ d, Decidable (c d)] {a b : α}
    {p : RecipientDelivery → RecipientDelivery → Bool}
    {f : RecipientDelivery → RecipientDelivery → DeliveryState} :
    Within SameLifecycle (do
      let row ← deliveryOf key
      if c row then return a
      else
        updateDeliveries (p row) (f row)
        return b) := by
  refine .bind deliveryOf_within fun row => .ite (fun _ => .pure a) fun _ => ?_
  exact .bind updateDeliveries_within fun _ => .pure b

theorem claim_within {leaseSeconds : ℤ} :
    Within SameLifecycle (claim key leaseSeconds now token) := row_within

theorem succeed_within : Within SameLifecycle (succeed key token) := row_within

theorem fail_within {errorClass : String} :
    Within SameLifecycle (fail key token errorClass now) := row_within

theorem acknowledge_within : Within SameLifecycle (acknowledge key now) := row_within

theorem replay_within : Within SameLifecycle (replay key now) := row_within

theorem reapExpired_within : Within SameLifecycle (reapExpired now) := by
  rintro s n t ⟨⟩
  exact sameLifecycle_of_eq rfl

theorem claimOutbox_within {leaseSeconds : ℤ} {owner : String} :
    Within SameLifecycle (claimOutbox leaseSeconds owner now token) := by
  refine .get_bind fun s c t h => ?_
  cases hfind : s.outbox.rows.find? (·.claimable now) with
  | none =>
    simp only [hfind] at h
    obtain ⟨-, rfl⟩ := pure_ok.mp h
    exact Std.Refl.refl _
  | some row =>
    simp only [hfind] at h
    split at h
    · cases h
      exact sameLifecycle_of_eq rfl
    · obtain ⟨_, _, ⟨⟩, h₁⟩ := bind_ok.mp h
      cases hdelivery : s.deliveries.get row.delivery with
      | none =>
        simp only [hdelivery] at h₁
        cases h₁
      | some delivery =>
        simp only [hdelivery] at h₁
        obtain ⟨-, rfl⟩ := pure_ok.mp h₁
        exact sameLifecycle_of_eq rfl

theorem markOutboxPublished_within :
    Within SameLifecycle (markOutboxPublished outbox token generation now) := by
  rintro s v t ⟨⟩
  exact sameLifecycle_of_eq rfl

theorem markOutboxFailed_within {errorClass : String} {unknownHandoff : Bool} :
    Within SameLifecycle
      (markOutboxFailed outbox token generation errorClass unknownHandoff now) := by
  rintro s v t ⟨⟩
  exact sameLifecycle_of_eq rfl

theorem replayOutbox_within : Within SameLifecycle (replayOutbox outbox now) := by
  rintro s v t ⟨⟩
  exact sameLifecycle_of_eq rfl

/-- A row is rewritten in other columns. -/
theorem sameLifecycle_rewrite {p : AlertSchedule → Bool} {f : AlertSchedule → AlertSchedule}
    {hf : AlertSchedule.schema.Preserves f} (h : ∀ x, (f x).lifecycle = x.lifecycle) :
    SameLifecycle s { s with schedules := s.schedules.rewrite p f hf } := by
  refine ⟨rfl, fun k => ?_⟩
  rw [Numbered.get_rewrite, Option.map_map]
  congr 1
  funext x
  simp only [Function.comp]
  split
  · exact h x
  · rfl

theorem admitScheduleGeneration_within {r : AdmissionRequest} :
    Within SameLifecycle (admitScheduleGeneration r now) := by
  intro s a t h
  obtain ⟨row, -, hstep⟩ := admitScheduleGeneration_step h
  cases hstep with
  | refused => exact Std.Refl.refl _
  | duplicate => exact Std.Refl.refl _
  | admitted _ hadmits =>
    refine IsTrans.trans _ _ _ (sameLifecycle_of_eq hadmits.schedules) ?_
    exact sameLifecycle_rewrite fun _ => rfl

theorem dispatchAlertSchedule_within {schedule : ℕ} {recipients : List Recipient} :
    Within SameLifecycle (dispatchAlertSchedule schedule recipients now) := by
  intro s a t h
  obtain ⟨row, -, h₁⟩ := scheduleRow_bind.mp h
  exact admitScheduleGeneration_within s a t h₁

end Others

/-! ## Schedules -/

/-- The row of `k` becomes one with these columns, and no other schedule changes. -/
structure Becomes (k : ℕ) (columns : ℕ × Bool) (s t : Store) : Prop where
  next : t.schedules.next = s.schedules.next
  row : ∃ y, t.schedules.get k = some y ∧ y.lifecycle = columns
  others : ∀ j ≠ k, t.schedules.get j = s.schedules.get j

theorem Becomes.of_rewrite {f : AlertSchedule → AlertSchedule}
    (hf : AlertSchedule.schema.Preserves f) (hx : s.schedules.get k = some x)
    (ht : t.schedules = s.schedules.rewrite (·.pk = k) f hf) :
    Becomes k (f x).lifecycle s t where
  next := by rw [ht, Numbered.next_rewrite]
  row := by
    have hpk : x.pk = k := (Numbered.get_eq_some.mp hx).2
    exact ⟨f x, by rw [ht, Numbered.get_rewrite, hx]; simp [hpk], rfl⟩
  others j hj := by
    rw [ht, Numbered.get_rewrite]
    cases hy : s.schedules.get j with
    | none => rfl
    | some y =>
      have hpk : y.pk = j := (Numbered.get_eq_some.mp hy).2
      simp [hpk, hj]

theorem Becomes.trans {u : Store} {c c' : ℕ × Bool} (h : Becomes k c s t) (h' : Becomes k c' t u) :
    Becomes k c' s u where
  next := h'.next.trans h.next
  row := h'.row
  others j hj := (h'.others j hj).trans (h.others j hj)

theorem alertScheduleCreate_next {c : AlertCreation} {y : AlertSchedule}
    (h : alertScheduleCreate c now s = .ok (y, t)) :
    s.schedules.next < t.schedules.next ∧
      ∀ j ≠ s.schedules.next, t.schedules.get j = s.schedules.get j := by
  obtain ⟨_, s₁, hcategory, h₁⟩ := bind_ok.mp h
  obtain rfl := validateTargetCategory_ok hcategory
  obtain ⟨_, s₂, hevent, h₂⟩ := bind_ok.mp h₁
  obtain rfl := resolveEvent_ok hevent
  obtain ⟨message, s₃, hmessage, h₃⟩ := bind_ok.mp h₂
  obtain rfl := resolveMessage_ok hmessage
  obtain ⟨alertDatetime, s₄, hdatetime, h₄⟩ := bind_ok.mp h₃
  obtain rfl := futureDatetime_ok hdatetime
  obtain ⟨-, T, hT, rfl⟩ := add_ok h₄
  have hnext := (Numbered.insert_ok hT rfl).2.1
  refine ⟨?_, fun j hj => ?_⟩
  · change _ < T.next
    rw [hnext]
    exact Nat.lt_succ_self _
  · change T.get j = _
    rw [Numbered.get_insert hT rfl]
    exact if_neg (Ne.symm hj)

theorem advanceGeneration_becomes (hx : s.schedules.get x.pk = some x)
    (ht : t.schedules = s.schedules.rewrite (·.pk = x.pk) (fun y => { y with
      deliveryGeneration := x.deliveryGeneration + 1
      deliveryAdmittable := true
      admittedGeneration := none
      admissionOutcome := none }) (AlertSchedule.preserves fun _ => rfl)) :
    Becomes x.pk (x.deliveryGeneration + 1, true) s t := .of_rewrite _ hx ht

theorem fenceScheduleForModify_becomes {n : ℕ} (hx : s.schedules.get x.pk = some x)
    (h : fenceScheduleForModify x now s = .ok (n, t)) :
    Becomes x.pk (x.deliveryGeneration + 1, true) s t := by
  cases h
  exact advanceGeneration_becomes hx rfl

theorem cancelSchedule_becomes {n : ℕ} (hx : s.schedules.get x.pk = some x)
    (h : cancelSchedule x.pk now s = .ok (n, t)) :
    Becomes x.pk (x.deliveryGeneration, false) s t := by
  obtain ⟨row, hrow, h₁⟩ := scheduleRow_bind.mp h
  obtain rfl : x = row := by simpa [hx] using hrow
  cases h₁
  have hf : AlertSchedule.schema.Preserves fun y => { y with
    deliveryAdmittable := false
    admittedGeneration := none
    admissionOutcome := none } := AlertSchedule.preserves fun _ => rfl
  exact .of_rewrite hf hx rfl

theorem rearmSchedule_becomes {answer : ℕ × Option ℕ} (hx : s.schedules.get x.pk = some x)
    (h : rearmSchedule x.pk now s = .ok (answer, t)) :
    x.deliveryAdmittable = true ∧ t = s ∨
      x.deliveryAdmittable = false ∧ Becomes x.pk (x.deliveryGeneration + 1, true) s t := by
  obtain ⟨row, hrow, h₁⟩ := scheduleRow_bind.mp h
  obtain rfl : x = row := by simpa [hx] using hrow
  by_cases hadmittable : x.deliveryAdmittable = true
  · rw [if_pos hadmittable] at h₁
    exact .inl ⟨hadmittable, (pure_ok.mp h₁).2⟩
  · rw [if_neg hadmittable] at h₁
    cases h₁
    exact .inr ⟨by simpa using hadmittable, advanceGeneration_becomes hx rfl⟩

theorem deleteSchedule_gone {n : ℕ} (h : deleteSchedule k now s = .ok (n, t)) :
    t.schedules = s.schedules.keep (·.pk ≠ k) := by
  obtain ⟨row, hrow, h₁⟩ := scheduleRow_bind.mp h
  obtain rfl : row.pk = k := (Numbered.get_eq_some.mp hrow).2
  cases h₁
  rfl

/-! ### Modifications -/

/-- What a check of a supplied value says, and the value that goes into the row. -/
theorem supplied_iff {α β : Type} {value : Option α} {current b : β} {check : α → Tx β}
    {good : α → Bool} {out : α → β}
    (hcheck : ∀ a b t, check a s = .ok (b, t) ↔ good a = true ∧ b = out a ∧ t = s) :
    supplied value current check s = .ok (b, t) ↔
      value.all good = true ∧ b = (value.map out).getD current ∧ t = s := by
  cases value with
  | none =>
    simp only [supplied, pure_ok, Option.all_none, Option.map_none, Option.getD_none, true_and]
  | some a =>
    simp only [supplied, Option.all_some, Option.map_some, Option.getD_some]
    exact hcheck a b t

theorem event_iff {event e : Uuid} :
    (resolveEvent event >>= fun _ => (pure event : Tx Uuid)) s = .ok (e, t) ↔
      decide (event ∈ s.events) = true ∧ e = event ∧ t = s := by
  have hresolve : resolveEvent event s =
      if event ∈ s.events then .ok ((), s) else .error (.doesNotExist "Slot") := by
    by_cases hmem : event ∈ s.events
    · simp only [resolveEvent, get_apply, bind_apply, Except.bind, hmem, not_true_eq_false,
        if_false, if_true]
      rfl
    · simp only [resolveEvent, get_apply, bind_apply, Except.bind, hmem, not_false_eq_true,
        if_false, if_true]
      rfl
  rw [bind_apply, hresolve]
  by_cases hmem : event ∈ s.events
  · simp [hmem, Except.bind, eq_comm]
  · simp [hmem, Except.bind]

theorem category_iff {category c : String} :
    (validateTargetCategory category >>= fun _ => (pure category : Tx String)) s = .ok (c, t) ↔
      decide (category ∈ ["", "subscriber", "resource"]) = true ∧ c = category ∧ t = s := by
  unfold validateTargetCategory
  by_cases hmem : category ∈ ["", "subscriber", "resource"]
  · rw [if_neg (not_not.mpr hmem)]
    simp [hmem, eq_comm]
  · rw [if_pos hmem]
    simp [hmem, bind_apply, Except.bind]

theorem message_iff {message : Option ℕ} {m : ℕ} : resolveMessage message s = .ok (m, t) ↔
    message.any (fun pk => decide (pk ∈ s.messages)) = true ∧ m = message.getD 0 ∧ t = s := by
  unfold resolveMessage
  cases message with
  | none => simp
  | some pk => by_cases hmem : pk ∈ s.messages <;> simp [Option.filter, hmem, eq_comm]

theorem datetime_iff {parsed : Except String Instant} {d : Instant} :
    futureDatetime parsed now s = .ok (d, t) ↔
      parsed.toOption.any (fun instant => decide (now < instant)) = true ∧
        d = parsed.toOption.getD 0 ∧ t = s := by
  unfold futureDatetime
  cases parsed with
  | error message => simp [Except.toOption]
  | ok instant =>
    by_cases hlate : instant ≤ now
    · simp [Except.toOption, hlate, Int.not_lt.mpr hlate]
    · simp [Except.toOption, hlate, Int.not_le.mp hlate, eq_comm]

theorem accepted_iff : r.accepted s now = true ↔
    r.event.all (fun event => event ∈ s.events) = true ∧
    r.targetCategory.all (fun category => category ∈ ["", "subscriber", "resource"]) = true ∧
    r.message.all (fun message => message.any fun pk => pk ∈ s.messages) = true ∧
    r.alertDatetime.all (fun parsed => parsed.toOption.any fun instant => now < instant) =
      true := by
  simp [AlertChanges.accepted]

/-- The values that go into the row differ from the old ones for a genuine change only. -/
theorem genuine_iff (hr : r.accepted s now = true) : r.genuine x = true ↔
    (r.event.map fun e => e).getD x.slot ≠ x.slot ∨
    (r.targetCategory.map fun c => c).getD x.targetCategory ≠ x.targetCategory ∨
    (r.message.map fun m => m.getD 0).getD x.message ≠ x.message ∨
    (r.alertDatetime.map fun d => d.toOption.getD 0).getD x.alertDatetime ≠ x.alertDatetime := by
  obtain ⟨-, -, hmessage, hdatetime⟩ := accepted_iff.mp hr
  obtain ⟨event, category, message, alertDatetime⟩ := r
  have hm : message.any (fun m => decide (m ≠ some x.message)) = true ↔
      (message.map fun m => m.getD 0).getD x.message ≠ x.message := by
    rcases message with _ | _ | pk
    · simp
    · simp at hmessage
    · simp
  have hd : alertDatetime.any (fun d => decide (d.toOption ≠ some x.alertDatetime)) = true ↔
      (alertDatetime.map fun d => d.toOption.getD 0).getD x.alertDatetime ≠ x.alertDatetime := by
    rcases alertDatetime with _ | e | d
    · simp
    · simp [Except.toOption] at hdatetime
    · simp [Except.toOption]
  simp only [AlertChanges.genuine, decide_eq_true_eq, hm, hd]
  cases event <;> cases category <;> simp

theorem alertScheduleModify_returns (hx : s.schedules.get x.pk = some x)
    (hr : r.accepted s now = true) : Returns (alertScheduleModify x.pk r now) s := by
  obtain ⟨hevent, hcategory, hmessage, hdatetime⟩ := accepted_iff.mp hr
  have hrow : scheduleRow x.pk s = .ok (x, s) := by
    simp only [scheduleRow, hx]
  unfold alertScheduleModify
  rw [returns_bind_of_ok hrow,
    returns_bind_of_ok ((supplied_iff fun _ _ _ => event_iff).mpr ⟨hevent, rfl, rfl⟩),
    returns_bind_of_ok ((supplied_iff fun _ _ _ => category_iff).mpr ⟨hcategory, rfl, rfl⟩),
    returns_bind_of_ok ((supplied_iff fun _ _ _ => message_iff).mpr ⟨hmessage, rfl, rfl⟩),
    returns_bind_of_ok ((supplied_iff fun _ _ _ => datetime_iff).mpr ⟨hdatetime, rfl, rfl⟩)]
  dsimp only
  split
  · exact ⟨_, rfl⟩
  · exact ⟨_, rfl⟩

theorem alertScheduleModify_becomes {answer : Bool × String} (hx : s.schedules.get x.pk = some x)
    (h : alertScheduleModify x.pk r now s = .ok (answer, t)) : r.accepted s now = true ∧
      Becomes x.pk (if r.genuine x then (x.deliveryGeneration + 1, true) else x.lifecycle) s t := by
  obtain ⟨row, hrow, h₁⟩ := scheduleRow_bind.mp h
  obtain rfl : x = row := by simpa [hx] using hrow
  obtain ⟨slot, s₁, hevent, h₂⟩ := bind_ok.mp h₁
  obtain ⟨hevents, hslot, rfl⟩ := (supplied_iff fun _ _ _ => event_iff).mp hevent
  obtain ⟨category, s₂, hcategory, h₃⟩ := bind_ok.mp h₂
  obtain ⟨hcategories, hcat, rfl⟩ := (supplied_iff fun _ _ _ => category_iff).mp hcategory
  obtain ⟨message, s₃, hmessage, h₄⟩ := bind_ok.mp h₃
  obtain ⟨hmessages, hmsg, rfl⟩ := (supplied_iff fun _ _ _ => message_iff).mp hmessage
  obtain ⟨alertDatetime, s₄, hdatetime, h₅⟩ := bind_ok.mp h₄
  obtain ⟨hdatetimes, hdate, rfl⟩ := (supplied_iff fun _ _ _ => datetime_iff).mp hdatetime
  have haccepted := accepted_iff.mpr ⟨hevents, hcategories, hmessages, hdatetimes⟩
  refine ⟨haccepted, ?_⟩
  have hgenuine : r.genuine x = true ↔ slot ≠ x.slot ∨ category ≠ x.targetCategory ∨
      message ≠ x.message ∨ alertDatetime ≠ x.alertDatetime := by
    rw [genuine_iff haccepted, ← hslot, ← hcat, ← hmsg, ← hdate]
  have hf : AlertSchedule.schema.Preserves fun y => { y with
    slot := slot
    targetCategory := category
    message := message
    alertDatetime := alertDatetime
    dispatched := decide (x.dispatched = true ∧ ¬ alertDatetime ≠ x.alertDatetime) } :=
    AlertSchedule.preserves fun _ => rfl
  split at h₅
  next hchanged =>
    obtain ⟨n, s₅, hfence, h₆⟩ := bind_ok.mp h₅
    obtain ⟨_, _, ⟨⟩, h₇⟩ := bind_ok.mp h₆
    obtain ⟨-, rfl⟩ := pure_ok.mp h₇
    rw [if_pos (hgenuine.mpr hchanged)]
    have hfenced := fenceScheduleForModify_becomes hx hfence
    obtain ⟨y, hy, hcolumns⟩ := hfenced.row
    rw [← hcolumns]
    exact hfenced.trans (.of_rewrite hf hy rfl)
  next hsame =>
    obtain ⟨_, _, ⟨⟩, h₆⟩ := bind_ok.mp h₅
    obtain ⟨-, rfl⟩ := pure_ok.mp h₆
    rw [if_neg fun h => hsame (hgenuine.mp h)]
    exact .of_rewrite hf hx rfl

/-! ## One operation -/

section Steps

variable {c : ℕ × Bool} {v : Unit}

/-- The operations that neither modify nor cancel nor re-arm `k` leave it as it is. -/
theorem after_eq (hmodifies : op.modifies s x = false) (hrearms : op.rearms x.pk = false)
    (hcancels : op.cancels x.pk = false) : x.after s op = x.lifecycle := by
  simp [AlertSchedule.after, AlertSchedule.advancedBy, hmodifies, hrearms, hcancels]

/-- What an operation does to the schedules: their numbers are never used again, and each of them
is taken away or goes on with the columns that `after` names. -/
structure Carries (op : Operation) (s t : Store) : Prop where
  next : s.schedules.next ≤ t.schedules.next
  gone : ∀ j < s.schedules.next, s.schedules.get j = none → t.schedules.get j = none
  kept : ∀ x, s.schedules.get x.pk = some x → t.schedules.get x.pk = none ∨
    ∃ y, t.schedules.get x.pk = some y ∧ y.lifecycle = x.after s op

theorem Carries.of_same (h : SameLifecycle s t) (hafter : ∀ x : AlertSchedule,
    s.schedules.get x.pk = some x → x.after s op = x.lifecycle) : Carries op s t where
  next := Nat.le_of_eq h.1.symm
  gone j _ hj := by simpa [hj] using h.2 j
  kept x hx := by
    have hrow := h.2 x.pk
    rw [hx, Option.map_some, Option.map_eq_some_iff] at hrow
    obtain ⟨y, hy, hcolumns⟩ := hrow
    exact .inr ⟨y, hy, hcolumns.trans (hafter x hx).symm⟩

theorem Carries.of_becomes (hx : s.schedules.get x.pk = some x) (h : Becomes x.pk c s t)
    (hc : c = x.after s op)
    (hafter : ∀ y : AlertSchedule, y.pk ≠ x.pk → y.after s op = y.lifecycle) : Carries op s t where
  next := Nat.le_of_eq h.next.symm
  gone j _ hj := by
    have hne : j ≠ x.pk := by
      rintro rfl
      rw [hx] at hj
      cases hj
    rw [h.others j hne, hj]
  kept y hy := by
    by_cases hpk : y.pk = x.pk
    · rw [hpk, hx] at hy
      obtain rfl := Option.some.inj hy
      obtain ⟨z, hz, hcolumns⟩ := h.row
      exact .inr ⟨z, hz, hcolumns.trans hc⟩
    · exact .inr ⟨y, (h.others y.pk hpk).trans hy, (hafter y hpk).symm⟩

theorem row_of_get {row : AlertSchedule} (h : s.schedules.get k = some row) :
    s.schedules.get row.pk = some row ∧ row.pk = k := by
  obtain rfl := (Numbered.get_eq_some.mp h).2
  exact ⟨h, rfl⟩

theorem perform_carries (h : op.perform s = .ok (v, t)) : Carries op s t := by
  cases op with
  | alertScheduleCreate c now =>
    obtain ⟨_, _, h₁, ⟨⟩⟩ := bind_ok.mp h
    obtain ⟨hnext, hothers⟩ := alertScheduleCreate_next h₁
    refine ⟨Nat.le_of_lt hnext, fun j hj hnone => ?_, fun x hx => .inr ⟨x, ?_, ?_⟩⟩
    · rw [hothers j (Nat.ne_of_lt hj), hnone]
    · have hlt := s.schedules.used x (Numbered.get_eq_some.mp hx).1
      rw [hothers x.pk (Nat.ne_of_lt hlt), hx]
    · exact (after_eq rfl rfl rfl).symm
  | alertScheduleModify schedule r now =>
    obtain ⟨_, _, h₁, ⟨⟩⟩ := bind_ok.mp h
    obtain ⟨row, hrow, -⟩ := scheduleRow_bind.mp h₁
    obtain ⟨hx, rfl⟩ := row_of_get hrow
    obtain ⟨haccepted, hbecomes⟩ := alertScheduleModify_becomes hx h₁
    refine .of_becomes hx hbecomes ?_ fun y hy => after_eq ?_ rfl rfl
    · simp [AlertSchedule.after, AlertSchedule.advancedBy, Operation.modifies, Operation.rearms,
        Operation.cancels, haccepted]
    · simp [Operation.modifies, Ne.symm hy]
  | fenceScheduleForModify schedule now =>
    obtain ⟨row, hrow, h₁⟩ := scheduleRow_bind.mp h
    obtain ⟨hx, rfl⟩ := row_of_get hrow
    obtain ⟨_, _, h₂, ⟨⟩⟩ := bind_ok.mp h₁
    refine .of_becomes hx (fenceScheduleForModify_becomes hx h₂) ?_ fun y hy => after_eq ?_ rfl rfl
    · simp [AlertSchedule.after, AlertSchedule.advancedBy, Operation.modifies]
    · simp [Operation.modifies, Ne.symm hy]
  | cancelSchedule schedule now =>
    obtain ⟨_, _, h₁, ⟨⟩⟩ := bind_ok.mp h
    obtain ⟨row, hrow, -⟩ := scheduleRow_bind.mp h₁
    obtain ⟨hx, rfl⟩ := row_of_get hrow
    refine .of_becomes hx (cancelSchedule_becomes hx h₁) ?_ fun y hy => after_eq rfl rfl ?_
    · simp [AlertSchedule.after, AlertSchedule.advancedBy, Operation.modifies, Operation.rearms,
        Operation.cancels]
    · simp [Operation.cancels, Ne.symm hy]
  | deleteSchedule schedule now =>
    obtain ⟨_, _, h₁, ⟨⟩⟩ := bind_ok.mp h
    have hkeep := deleteSchedule_gone h₁
    refine ⟨by rw [hkeep]; exact Nat.le_refl _, fun j _ hj => ?_, fun x hx => ?_⟩
    · rw [hkeep, Numbered.get_keep, hj]
      rfl
    · rw [hkeep, Numbered.get_keep, hx]
      by_cases hpk : x.pk = schedule
      · exact .inl (by simp [hpk])
      · exact .inr ⟨x, by simp [hpk], (after_eq rfl rfl rfl).symm⟩
  | rearmSchedule schedule now =>
    obtain ⟨_, _, h₁, ⟨⟩⟩ := bind_ok.mp h
    obtain ⟨row, hrow, -⟩ := scheduleRow_bind.mp h₁
    obtain ⟨hx, rfl⟩ := row_of_get hrow
    have hothers : ∀ y : AlertSchedule, y.pk ≠ row.pk →
        y.after s (.rearmSchedule row.pk now) = y.lifecycle := fun y hy =>
      after_eq rfl (by simp [Operation.rearms, Ne.symm hy]) rfl
    obtain ⟨hadmittable, rfl⟩ | ⟨hclosed, hbecomes⟩ := rearmSchedule_becomes hx h₁
    · refine .of_same (Std.Refl.refl _) fun y hy => ?_
      by_cases hpk : y.pk = row.pk
      · rw [hpk, hx] at hy
        obtain rfl := Option.some.inj hy
        simp [AlertSchedule.after, AlertSchedule.advancedBy, Operation.modifies,
          Operation.cancels, hadmittable]
      · exact hothers y hpk
    · refine .of_becomes hx hbecomes ?_ hothers
      simp [AlertSchedule.after, AlertSchedule.advancedBy, Operation.rearms, hclosed]
  | admitScheduleGeneration r now =>
    obtain ⟨_, _, h₁, ⟨⟩⟩ := bind_ok.mp h
    exact .of_same (admitScheduleGeneration_within _ _ _ h₁) fun _ _ => after_eq rfl rfl rfl
  | dispatchAlertSchedule schedule recipients now =>
    obtain ⟨_, _, h₁, ⟨⟩⟩ := bind_ok.mp h
    exact .of_same (dispatchAlertSchedule_within _ _ _ h₁) fun _ _ => after_eq rfl rfl rfl
  | claim key leaseSeconds now token =>
    obtain ⟨_, _, h₁, ⟨⟩⟩ := bind_ok.mp h
    exact .of_same (claim_within _ _ _ h₁) fun _ _ => after_eq rfl rfl rfl
  | succeed key leaseToken =>
    obtain ⟨_, _, h₁, ⟨⟩⟩ := bind_ok.mp h
    exact .of_same (succeed_within _ _ _ h₁) fun _ _ => after_eq rfl rfl rfl
  | fail key leaseToken errorClass now =>
    obtain ⟨_, _, h₁, ⟨⟩⟩ := bind_ok.mp h
    exact .of_same (fail_within _ _ _ h₁) fun _ _ => after_eq rfl rfl rfl
  | acknowledge key now =>
    obtain ⟨_, _, h₁, ⟨⟩⟩ := bind_ok.mp h
    exact .of_same (acknowledge_within _ _ _ h₁) fun _ _ => after_eq rfl rfl rfl
  | replay key now =>
    obtain ⟨_, _, h₁, ⟨⟩⟩ := bind_ok.mp h
    exact .of_same (replay_within _ _ _ h₁) fun _ _ => after_eq rfl rfl rfl
  | reapExpired now =>
    obtain ⟨_, _, h₁, ⟨⟩⟩ := bind_ok.mp h
    exact .of_same (reapExpired_within _ _ _ h₁) fun _ _ => after_eq rfl rfl rfl
  | claimOutbox leaseSeconds owner now token =>
    obtain ⟨_, _, h₁, ⟨⟩⟩ := bind_ok.mp h
    exact .of_same (claimOutbox_within _ _ _ h₁) fun _ _ => after_eq rfl rfl rfl
  | markOutboxPublished outbox token generation now =>
    obtain ⟨_, _, h₁, ⟨⟩⟩ := bind_ok.mp h
    exact .of_same (markOutboxPublished_within _ _ _ h₁) fun _ _ => after_eq rfl rfl rfl
  | markOutboxFailed outbox token generation errorClass unknownHandoff now =>
    obtain ⟨_, _, h₁, ⟨⟩⟩ := bind_ok.mp h
    exact .of_same (markOutboxFailed_within _ _ _ h₁) fun _ _ => after_eq rfl rfl rfl
  | replayOutbox outbox now =>
    obtain ⟨_, _, h₁, ⟨⟩⟩ := bind_ok.mp h
    exact .of_same (replayOutbox_within _ _ _ h₁) fun _ _ => after_eq rfl rfl rfl

/-- An operation on a schedule that is there does not fail if it would change these columns. -/
theorem returns_of_change (hx : s.schedules.get x.pk = some x)
    (h : op.modifies s x = true ∨ op.rearms x.pk = true ∨ op.cancels x.pk = true) :
    Returns op.perform s := by
  have hrow : scheduleRow x.pk s = .ok (x, s) := by
    simp only [scheduleRow, hx]
  cases op with
  | alertScheduleModify schedule r now =>
    simp only [Operation.modifies, Operation.rearms, Operation.cancels, decide_eq_true_eq,
      Bool.false_eq_true, or_false] at h
    obtain ⟨rfl, haccepted, -⟩ := h
    obtain ⟨⟨answer, t⟩, hrun⟩ := alertScheduleModify_returns hx haccepted
    exact (returns_bind_of_ok hrun).mpr returns_pure
  | fenceScheduleForModify schedule now =>
    obtain rfl : schedule = x.pk := by
      simpa [Operation.modifies, Operation.rearms, Operation.cancels] using h
    exact (returns_bind_of_ok hrow).mpr ⟨_, rfl⟩
  | cancelSchedule schedule now =>
    obtain rfl : schedule = x.pk := by
      simpa [Operation.modifies, Operation.rearms, Operation.cancels] using h
    refine returns_bind.mpr ?_
    exact ⟨_, _, (bind_of_ok hrow).trans rfl, returns_pure⟩
  | rearmSchedule schedule now =>
    obtain rfl : schedule = x.pk := by
      simpa [Operation.modifies, Operation.rearms, Operation.cancels] using h
    refine returns_bind.mpr ?_
    by_cases hadmittable : x.deliveryAdmittable = true
    · exact ⟨_, _, (bind_of_ok hrow).trans (by rw [if_pos hadmittable]; rfl), returns_pure⟩
    · exact ⟨_, _, (bind_of_ok hrow).trans (by rw [if_neg hadmittable]; rfl), returns_pure⟩
  | _ => simp [Operation.modifies, Operation.rearms, Operation.cancels] at h

theorem step_carries (h : system.step σ op = some τ) : Carries op σ.store τ.store := by
  obtain rfl := Option.some.inj h
  cases hrun : op.perform σ.store with
  | ok p =>
    obtain ⟨v, t⟩ := p
    rw [commit_of_ok hrun]
    exact perform_carries hrun
  | error e =>
    rw [commit_of_error hrun]
    refine .of_same (Std.Refl.refl _) fun x hx => ?_
    have hfails : ¬ (op.modifies σ.store x = true ∨ op.rearms x.pk = true ∨
        op.cancels x.pk = true) := fun hchange => by
      obtain ⟨p, hp⟩ := returns_of_change hx hchange
      rw [hp] at hrun
      cases hrun
    simp only [not_or, Bool.not_eq_true] at hfails
    exact after_eq hfails.1 hfails.2.1 hfails.2.2

end Steps

/-! ## Runs -/

/-- Whether an operation begins a new generation of the schedule `k`. -/
def advances (k : ℕ) (σ : State) (op : Operation) : Bool :=
  (σ.store.schedules.get k).any fun x => x.advancedBy σ.store op

/-- Nobody modifies a schedule that is cancelled. -/
def spares (σ : State) (op : Operation) : Prop :=
  ∀ x ∈ σ.store.schedules.rows, op.modifies σ.store x = true → x.deliveryAdmittable = true

instance (σ : State) (op : Operation) : Decidable (spares σ op) :=
  inferInstanceAs (Decidable (∀ x ∈ σ.store.schedules.rows, _))

theorem gone_forever (hrun : system.run σ ops = some τ) (hk : k < σ.store.schedules.next)
    (h : σ.store.schedules.get k = none) : τ.store.schedules.get k = none := by
  induction ops generalizing σ with
  | nil =>
    obtain rfl := Option.some.inj hrun
    exact h
  | cons op ops ih =>
    obtain ⟨u, hstep, hrest⟩ := Option.bind_eq_some_iff.mp hrun
    have hcarries := step_carries hstep
    exact ih hrest (Nat.lt_of_lt_of_le hk hcarries.next) (hcarries.gone k hk h)

/-- The first step of a run that ends with the schedule in place. -/
theorem first_step {u : State} (hstep : system.step σ op = some u)
    (hrun : system.run u ops = some τ)
    (hx : σ.store.schedules.get k = some x) (hy : τ.store.schedules.get k = some y) :
    ∃ z, u.store.schedules.get k = some z ∧ z.lifecycle = x.after σ.store op := by
  obtain rfl := (Numbered.get_eq_some.mp hx).2
  have hcarries := step_carries hstep
  obtain hgone | hkept := hcarries.kept x hx
  · have hlt := σ.store.schedules.used x (Numbered.get_eq_some.mp hx).1
    have hnone := gone_forever hrun (Nat.lt_of_lt_of_le hlt hcarries.next) hgone
    rw [show τ.store.schedules.get (AlertSchedule.schema.pk x) = none from hnone] at hy
    cases hy
  · exact hkept

theorem generation_run (hrun : system.run σ ops = some τ) (hx : σ.store.schedules.get k = some x)
    (hy : τ.store.schedules.get k = some y) :
    y.deliveryGeneration = x.deliveryGeneration + system.count (advances k) σ ops := by
  induction ops generalizing σ x with
  | nil =>
    obtain rfl := Option.some.inj hrun
    rw [hx] at hy
    obtain rfl := Option.some.inj hy
    rfl
  | cons op ops ih =>
    obtain ⟨u, hstep, hrest⟩ := Option.bind_eq_some_iff.mp hrun
    obtain ⟨z, hz, hcolumns⟩ := first_step hstep hrest hx hy
    have hgeneration : z.deliveryGeneration =
        x.deliveryGeneration + if advances k σ op then 1 else 0 := by
      have hfst := congrArg Prod.fst hcolumns
      simp only [advances, hx, Option.any_some]
      unfold AlertSchedule.after at hfst
      split at hfst
      next hadvanced => rw [if_pos hadvanced]; exact hfst
      next hadvanced =>
        rw [if_neg hadvanced]
        split at hfst <;> exact hfst
    rw [Machine.count_cons hstep, ih hrest hz, hgeneration]
    omega

theorem cancelled_run (hrun : (system.under spares).run σ ops = some τ)
    (hx : σ.store.schedules.get k = some x) (hy : τ.store.schedules.get k = some y)
    (hrearm : ∀ op ∈ ops, op.rearms k = false) (hcancelled : x.deliveryAdmittable = false) :
    y.deliveryAdmittable = false := by
  induction ops generalizing σ x with
  | nil =>
    obtain rfl := Option.some.inj hrun
    rw [hx] at hy
    obtain rfl := Option.some.inj hy
    exact hcancelled
  | cons op ops ih =>
    obtain ⟨u, hstep, hrest⟩ := Option.bind_eq_some_iff.mp hrun
    obtain ⟨hspares, hstep⟩ := Machine.under_step.mp hstep
    obtain ⟨z, hz, hcolumns⟩ := first_step hstep (Machine.run_of_under hrest) hx hy
    refine ih hrest hz (fun op' hop => hrearm op' (.tail _ hop)) ?_
    obtain ⟨hmem, hpk⟩ := Numbered.get_eq_some.mp hx
    have hmodifies : op.modifies σ.store x = false := by
      by_contra hmodifies
      have hadmittable := hspares x hmem (by simpa using hmodifies)
      rw [hcancelled] at hadmittable
      cases hadmittable
    have hspared : x.advancedBy σ.store op = false := by
      have hop := hrearm op (.head _)
      rw [← hpk] at hop
      simp only [AlertSchedule.schema] at hop
      simp [AlertSchedule.advancedBy, hmodifies, hop]
    have hsnd := congrArg Prod.snd hcolumns
    unfold AlertSchedule.after at hsnd
    rw [if_neg (by simp [hspared])] at hsnd
    split at hsnd
    · exact hsnd
    · exact hsnd.trans hcancelled

/-- The generation counts the modifications and re-armings of a schedule, and a cancelled schedule
stays cancelled until it is re-armed. -/
theorem cancellation_durable (hrun : (system.under spares).run σ ops = some τ)
    (hx : σ.store.schedules.get k = some x) (hy : τ.store.schedules.get k = some y) :
    y.deliveryGeneration = x.deliveryGeneration + system.count (advances k) σ ops ∧
      ((∀ op ∈ ops, op.rearms k = false) → x.deliveryAdmittable = false →
        y.deliveryAdmittable = false) :=
  ⟨generation_run (Machine.run_of_under hrun) hx hy, cancelled_run hrun hx hy⟩

/-- A schedule is made and cancelled. -/
def cancelledOnce : State := system.final oneEvent [
  .alertScheduleCreate ⟨1, some 1, "", .ok 100⟩ 0, .cancelSchedule 1 10]

def cancelledRow : AlertSchedule :=
  { pk := 1, slot := 1, message := 1, alertDatetime := 100, deliveryAdmittable := false }

/-- A modification that changes nothing, another cancellation and a late dispatch. -/
def leftAlone : List Operation := [
  .alertScheduleModify 1 { targetCategory := some "" } 20, .cancelSchedule 1 30,
  .dispatchAlertSchedule 1 [⟨"subscriber", "5"⟩] 100]

theorem leftAlone_cancelled : cancelledRow.deliveryGeneration =
      cancelledRow.deliveryGeneration + system.count (advances 1) cancelledOnce leftAlone ∧
    ((∀ op ∈ leftAlone, op.rearms 1 = false) → cancelledRow.deliveryAdmittable = false →
      cancelledRow.deliveryAdmittable = false) :=
  cancellation_durable (σ := cancelledOnce)
    (τ := (system.under spares).final cancelledOnce leftAlone)
    (Machine.run_final (by decide +kernel)) (by decide +kernel) (by decide +kernel)

/-- A modification of a cancelled schedule makes it admittable, without any re-arming. -/
theorem cancelled_modified : ∃ σ : State, system.Reachable σ ∧
    σ.store.schedules.rows.map (·.deliveryAdmittable) = [false] ∧
    (commit (Operation.perform (.alertScheduleModify 1 { targetCategory := some "subscriber" } 20))
      σ.store).2.schedules.rows.map (·.deliveryAdmittable) = [true] :=
  ⟨cancelledOnce, Machine.Reachable.final oneEvent_initial _, by decide +kernel, by decide +kernel⟩

end Civicos.Scheduler
