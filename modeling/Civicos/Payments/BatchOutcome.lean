import Civicos.Payments.Fencing

/-!
# Batch outcomes are sound

A batch is closed only on verified reconciled finality of every instruction, and the status and
the amounts that it is closed with are those of the partition of its instructions.
-/
namespace Civicos.Payments

open Library Library.Transaction Session

/-! ## Sums over related lists -/

section Lists

variable {α β : Type} {as : List α} {bs : List β} {p : α → Bool} {q : β → Bool} {f : α → Cents}
  {g : β → Cents} {l : List α}

/-- Lists that agree on a selection and on the amounts agree on the number and the sum of the
selected items. -/
theorem counted_of_forall₂ (h : List.Forall₂ (fun a b => p a = q b ∧ f a = g b) as bs) :
    as.countP p = bs.countP q ∧ ((as.filter p).map f).sum = ((bs.filter q).map g).sum := by
  induction h with
  | nil => exact ⟨rfl, rfl⟩
  | cons hab _ ih =>
    obtain ⟨hpq, hfg⟩ := hab
    obtain ⟨hcount, hsum⟩ := ih
    rw [List.countP_cons, List.countP_cons, List.filter_cons, List.filter_cons, hpq, hcount]
    refine ⟨rfl, ?_⟩
    split
    · rw [List.map_cons, List.map_cons, List.sum_cons, List.sum_cons, hfg, hsum]
    · exact hsum

/-- Two selections that split a list split its length and its sum. -/
theorem split_of_xor {r : α → Bool} (h : ∀ a ∈ l, r a = !p a) :
    l.length = l.countP p + l.countP r ∧
      (l.map f).sum = ((l.filter p).map f).sum + ((l.filter r).map f).sum := by
  induction l with
  | nil => exact ⟨rfl, rfl⟩
  | cons a as ih =>
    obtain ⟨hlength, hsum⟩ := ih fun b hb => h b (.tail _ hb)
    have ha := h a (.head _)
    cases hp : p a with
    | false =>
      have hr : r a = true := by simp [ha, hp]
      have hcons : as.length + 1 = as.countP p + (as.countP r + 1) := by omega
      refine ⟨by simpa [hp, hr] using hcons, ?_⟩
      simp only [List.map_cons, List.sum_cons, List.filter_cons, hp, hr, hsum]
      simp only [Bool.false_eq_true, if_false, if_true, List.map_cons, List.sum_cons]
      exact Int.add_left_comm _ _ _
    | true =>
      have hr : r a = false := by simp [ha, hp]
      have hcons : as.length + 1 = as.countP p + 1 + as.countP r := by omega
      refine ⟨by simpa [hp, hr] using hcons, ?_⟩
      simp only [List.map_cons, List.sum_cons, List.filter_cons, hp, hr, hsum]
      simp only [Bool.false_eq_true, if_false, if_true, List.map_cons, List.sum_cons]
      exact (Int.add_assoc _ _ _).symm

end Lists

/-! ## Decisions are sound -/

open BatchDecisionService

/-- The counts of a decision are those of the inputs that it is fingerprinted over, and it closes
a batch only when some inputs are there and all of them are settled or rejected. -/
def GovStackBatchDecision.Sound (d : GovStackBatchDecision) : Prop :=
  ∃ inputs : DecisionInputs, d.fingerprint = .sha256 inputs ∧
    d.settledCount = countStatus .settled inputs.items ∧
    d.rejectedCount = countStatus .rejected inputs.items ∧
    (d.outcomeAction.closes = true → inputs.items ≠ [] ∧
      ∀ i ∈ inputs.items, i.status = .settled ∨ i.status = .rejected)

theorem action_closes {state : PolicyState} {total rejected nonFinal : ℕ} {returnFunds : Bool}
    (h : (action state total rejected nonFinal returnFunds).closes = true) :
    total ≠ 0 ∧ nonFinal = 0 := by
  unfold action at h
  split at h
  · cases h
  next htotal =>
    refine ⟨htotal, ?_⟩
    split at h
    · split at h
      · cases h
      · split at h <;> cases h
    next hfinal => exact not_not.mp hfinal

theorem countStatus_add (items : List ChildItem) :
    countStatus .settled items + countStatus .rejected items =
      items.countP fun i => i.status = .settled ∨ i.status = .rejected := by
  induction items with
  | nil => rfl
  | cons i items ih =>
    simp only [countStatus, List.countP_cons] at ih ⊢
    rw [← ih]
    cases i.status <;> simp <;> omega

/-- Items that are neither settled nor rejected are counted as non-final. -/
theorem final_of_counts {items : List ChildItem}
    (h : items.length - countStatus .settled items - countStatus .rejected items = 0) :
    ∀ i ∈ items, i.status = .settled ∨ i.status = .rejected := by
  intro i hi
  have hadd := countStatus_add items
  have hle := List.countP_le_length (l := items)
    (p := fun i : ChildItem => i.status = .settled ∨ i.status = .rejected)
  have hall :
      items.countP (fun i => i.status = .settled ∨ i.status = .rejected) = items.length := by
    omega
  simpa using List.countP_eq_length.mp hall i hi

theorem countStatus_canonicalItems (status : ChildStatus) (items : List ChildItem) :
    countStatus status (canonicalItems items) = countStatus status items :=
  (List.perm_insertionSort _ items).countP_eq _

theorem mem_canonicalItems {items : List ChildItem} {i : ChildItem} :
    i ∈ canonicalItems items ↔ i ∈ items :=
  (List.perm_insertionSort _ items).mem_iff

theorem decisionRow_sound (batch : Uuid) (handle : BatchLeaseHandle) (items : List ChildItem)
    (threshold : Threshold) (returnFunds : Bool) (pk : Uuid) :
    (decisionRow batch handle items threshold returnFunds pk).Sound := by
  refine ⟨⟨batch, canonicalItems items, threshold.text, returnFunds⟩, rfl,
    (countStatus_canonicalItems _ _).symm, (countStatus_canonicalItems _ _).symm, fun hcloses => ?_⟩
  obtain ⟨htotal, hfinal⟩ := action_closes hcloses
  refine ⟨fun hnil => htotal ?_, fun i hi => final_of_counts hfinal i (mem_canonicalItems.mp hi)⟩
  have hperm := (List.perm_insertionSort (fun a b : ChildItem => a.id ≤ b.id) items).length_eq
  rw [← hperm]
  exact congrArg List.length hnil

/-- Both ways to a decision end with the counts of the tallied items. -/
theorem Decides.sound {batch : Uuid} {handle : BatchLeaseHandle} {items : List ChildItem}
    {threshold : Threshold} {returnFunds : Bool} {db db' : BulkStore} {d : GovStackBatchDecision}
    {created : Bool}
    (h : BulkTask.Decides (decisionRow batch handle (canonicalItems items) threshold returnFunds)
      db db' d created) (hsound : ∀ d ∈ db.decisions.rows, d.Sound) :
    d.settledCount = countStatus .settled items ∧ d.rejectedCount = countStatus .rejected items ∧
      (d.outcomeAction.closes = true → items ≠ [] ∧
        ∀ i ∈ items, i.status = .settled ∨ i.status = .rejected) := by
  have hd : d.Sound ∧ d.fingerprint =
      fingerprint batch (canonicalItems items) threshold returnFunds := by
    cases h with
    | replayed _ stored _ fingerprint => exact ⟨hsound d stored, fingerprint⟩
    | recorded => exact ⟨decisionRow_sound _ _ _ _ _ _, rfl⟩
  obtain ⟨⟨inputs, hinputs, hsettled, hrejected, hcloses⟩, hdigest⟩ := hd
  rw [hinputs, fingerprint, Digest.sha256.injEq] at hdigest
  subst hdigest
  simp only [countStatus_canonicalItems] at hsettled hrejected
  refine ⟨hsettled, hrejected, fun hc => ?_⟩
  obtain ⟨hne, hall⟩ := hcloses hc
  simp only [mem_canonicalItems] at hall
  refine ⟨fun hnil => hne ?_, hall⟩
  rw [hnil]
  rfl

theorem Decides.all_sound {batch : Uuid} {handle : BatchLeaseHandle} {items : List ChildItem}
    {threshold : Threshold} {returnFunds : Bool} {db db' : BulkStore} {d : GovStackBatchDecision}
    {created : Bool}
    (h : BulkTask.Decides (decisionRow batch handle items threshold returnFunds) db db' d created)
    (hsound : ∀ d ∈ db.decisions.rows, d.Sound) : ∀ d ∈ db'.decisions.rows, d.Sound := by
  cases h with
  | replayed _ _ _ _ decisions =>
    rw [decisions]
    exact hsound
  | recorded decisions =>
    intro d' hd'
    rw [Table.mem_insert decisions] at hd'
    rcases hd' with hd' | rfl
    · exact hsound d' hd'
    · exact decisionRow_sound _ _ _ _ _ _

/-! ## Closed batches -/

namespace BulkStore

/-- The number of a batch's instructions with a status. -/
def countOf (db : BulkStore) (batch : Uuid) (status : InstructionStatus) : ℕ :=
  (db.instructionsOf batch).countP (·.status = status)

/-- Their amounts. -/
def amountOf (db : BulkStore) (batch : Uuid) (status : InstructionStatus) : Cents :=
  (((db.instructionsOf batch).filter (·.status = status)).map (·.amount)).sum

/-- The batch has the outcome that the partition of its instructions determines. -/
structure Closed (db : BulkStore) (b : BulkPaymentBatch) : Prop where
  final : ∀ i ∈ db.instructionsOf b.pk, i.status = .completed ∨ i.status = .failed
  nonempty : db.countOf b.pk .completed + db.countOf b.pk .failed ≠ 0
  completed : b.status = .completed ↔ db.countOf b.pk .failed = 0
  failed : b.status = .failed ↔ db.countOf b.pk .completed = 0
  mixed : b.status = .partiallyCompleted ↔
    db.countOf b.pk .completed ≠ 0 ∧ db.countOf b.pk .failed ≠ 0
  completedAmount : b.completedAmount = db.amountOf b.pk .completed
  failedAmount : b.failedAmount = db.amountOf b.pk .failed
  total : b.totalAmount = some (b.completedAmount + b.failedAmount)

/-- Every instruction of the batch has verified reconciled finality, as its status says. -/
def Evidenced (db : BulkStore) (batch : Uuid) : Prop :=
  ∀ i ∈ db.instructionsOf batch, i.status = .completed ∧ db.Decided i .settled ∨
    i.status = .failed ∧ db.Decided i .rejected

structure Accounted (db : BulkStore) : Prop where
  known : ∀ i ∈ db.instructions.rows, ∃ b, db.batches.get i.batch = some b
  totals : ∀ pk b, db.batches.get pk = some b →
    b.totalAmount = some ((db.instructionsOf pk).map (·.amount)).sum
  decisions : ∀ d ∈ db.decisions.rows, d.Sound
  closed : ∀ pk b, db.batches.get pk = some b → b.status.isTerminal = true → db.Closed b

end BulkStore

namespace BulkTask

variable {settings : BulkSettings} {handle : BatchLeaseHandle} {b : BulkPaymentBatch}
  {s t u v w : Session} {items : List ChildItem} {d : GovStackBatchDecision} {created : Bool}

theorem tallied_amounts (items : List ChildItem) :
    (tallied items).settledAmount = ((items.filter (·.status = .settled)).map (·.amount)).sum ∧
      (tallied items).rejectedAmount =
        ((items.filter (·.status = .rejected)).map (·.amount)).sum := by
  induction items using List.reverseRecOn with
  | nil => exact ⟨rfl, rfl⟩
  | append_singleton items item ih =>
    rw [tallied_append, Tally.push, ih.1, ih.2]
    simp only [List.filter_append, List.map_append, List.sum_append]
    constructor
    · by_cases hs : item.status = .settled <;> simp [hs]
    · by_cases hr : item.status = .rejected <;> simp [hr]

/-- What is left of the loop when the transaction commits. -/
theorem Processed.chain (h : Processed settings handle b s t items d created u v w) :
    Decides (decisionRow b.pk handle (canonicalItems items) settings.failureThreshold
        settings.returnFundsEnabled) u.toBulkStore v.toBulkStore d created ∧
      t.decisions = v.decisions ∧ t.instructions = u.instructions ∧ u.ledger.Calm t.ledger ∧
      ∃ generatedAt, s.batches.update b.pk (projected (tallied items) d generatedAt) =
        .ok t.batches := by
  obtain ⟨hsu, -, hdecide, hproject, hrecord⟩ := h
  obtain ⟨u', huu', hv, hdecides⟩ := decide_ok hdecide
  obtain ⟨-, w', generatedAt, hvw', hupd, hw⟩ := projectDecision_ok hproject
  have huw : w.instructions = u.instructions ∧ u.ledger.Calm w.ledger ∧
      w.decisions = v.decisions := by
    have hvw := hvw' fun _ => False
    rw [hw]
    refine ⟨hvw.instructions_eq.trans ?_, ?_, hvw.decisions⟩
    · rw [hv]
      exact (huu' _).instructions_eq
    · have hcalm := hvw.calm
      rw [hv] at hcalm
      exact IsTrans.trans _ _ _ (huu' fun _ => False).calm hcalm
  have hwt : t.instructions = w.instructions ∧ w.ledger.Calm t.ledger ∧ t.decisions = w.decisions ∧
      t.batches = w.batches := by
    have hrecord := record_ok hrecord
    cases created with
    | false =>
      obtain rfl : t = w := hrecord
      exact ⟨rfl, Std.Refl.refl t.ledger, rfl, rfl⟩
    | true =>
      obtain ⟨x, hwx, hxt⟩ := hrecord
      have hx := hwx fun _ => False
      have ht := hxt fun _ => False
      have haudit : x.ledger.Calm (audited x (decisionEntry b d)).ledger := .of_eq rfl rfl rfl
      exact ⟨ht.instructions_eq.trans hx.instructions_eq,
        IsTrans.trans _ _ _ (IsTrans.trans _ _ _ hx.calm haudit) ht.calm,
        ht.decisions.trans hx.decisions, ht.batches.trans hx.batches⟩
  refine ⟨hdecides, hwt.2.2.1.trans huw.2.2, hwt.1.trans huw.1,
    IsTrans.trans _ _ _ huw.2.1 hwt.2.1, generatedAt, ?_⟩
  rw [hwt.2.2.2, ← hupd, ← hsu.batches, ← (huu' fun _ => False).batches]
  rw [hv]

/-! ### The instructions after the transaction -/

theorem identity_instructionsOf {db db' : BulkStore} (pk : Uuid)
    (h : db'.instructions.rows.map CreditInstruction.identity =
      db.instructions.rows.map CreditInstruction.identity) :
    (db'.instructionsOf pk).map CreditInstruction.identity =
      (db.instructionsOf pk).map CreditInstruction.identity := by
  have hfilter : ∀ rows : List CreditInstruction,
      (rows.filter (·.batch = pk)).map CreditInstruction.identity =
        (rows.map CreditInstruction.identity).filter (·.2.1 = pk) := fun rows => by
    rw [List.filter_map]
    rfl
  rw [BulkStore.instructionsOf, BulkStore.instructionsOf, hfilter, hfilter, h]

theorem amounts_of_identity {is is' : List CreditInstruction}
    (h : is'.map CreditInstruction.identity = is.map CreditInstruction.identity) :
    is'.map (·.amount) = is.map (·.amount) := by
  have hamounts := congrArg (List.map fun x => x.2.2.2.2.1) h
  rw [List.map_map, List.map_map] at hamounts
  exact hamounts

theorem pks_of_identity {is is' : List CreditInstruction}
    (h : is'.map CreditInstruction.identity = is.map CreditInstruction.identity) :
    is'.map (·.pk) = is.map (·.pk) := by
  have hpks := congrArg (List.map Prod.fst) h
  rw [List.map_map, List.map_map] at hpks
  exact hpks

/-- From the rows that the loop started with to the rows that it left. -/
theorem forall₂_current {R : ChildItem → CreditInstruction → Prop} {is is' : List CreditInstruction}
    {g : Uuid → Option CreditInstruction}
    (h : List.Forall₂ (fun item i => ∃ j, g i.pk = some j ∧ j.identity = i.identity ∧ R item j)
      items is)
    (hid : is'.map CreditInstruction.identity = is.map CreditInstruction.identity)
    (hget : ∀ i ∈ is', g i.pk = some i) : List.Forall₂ R items is' := by
  induction h generalizing is' with
  | nil =>
    obtain rfl := List.map_eq_nil_iff.mp hid
    exact .nil
  | @cons item i items is hitem _ ih =>
    obtain ⟨j, hj, hjid, hR⟩ := hitem
    cases is' with
    | nil => cases hid
    | cons i' is' =>
      rw [List.map_cons, List.map_cons, List.cons.injEq] at hid
      have hpk : i'.pk = i.pk := congrArg Prod.fst hid.1
      have hi' : i' = j := Option.some.inj ((hget i' (.head _)).symm.trans (hpk ▸ hj))
      exact .cons (hi' ▸ hR) (ih hid.2 fun k hk => hget k (.tail _ hk))

theorem Processed.identity (h : Processed settings handle b s t items d created u v w) :
    t.instructions.rows.map CreditInstruction.identity =
      s.instructions.rows.map CreditInstruction.identity := by
  rw [h.chain.2.2.1]
  exact h.works.identity

/-- Instructions of other batches are left alone. -/
theorem Processed.others (h : Processed settings handle b s t items d created u v w) {pk : Uuid}
    (hne : pk ≠ b.pk) : t.instructionsOf pk = s.instructionsOf pk := by
  have hid := pks_of_identity (identity_instructionsOf pk h.identity)
  refine Table.eq_of_keys hid (fun i hi => (mem_instructionsOf.mp hi).1) fun i hi => ?_
  obtain ⟨hget, hbatch⟩ := mem_instructionsOf.mp hi
  rw [h.chain.2.2.1, h.works.others, hget]
  intro hmem
  obtain ⟨k, hk, hkpk⟩ := List.mem_map.mp hmem
  obtain ⟨hkget, hkbatch⟩ := mem_instructionsOf.mp hk
  have hki : k = i := Option.some.inj (hkget.symm.trans (hkpk ▸ hget))
  exact hne (hbatch.symm.trans (hki ▸ hkbatch))

theorem Processed.batches (h : Processed settings handle b s t items d created u v w)
    (hb : s.batches.get b.pk = some b) : ∃ generatedAt, ∀ k, t.batches.get k =
      if b.pk = k then some (projected (tallied items) d generatedAt b) else s.batches.get k := by
  obtain ⟨-, -, -, -, generatedAt, hupd⟩ := h.chain
  exact ⟨generatedAt, fun k => Table.get_update hupd hb rfl k⟩

theorem Processed.decided (h : Processed settings handle b s t items d created u v w)
    (hb : s.batches.get b.pk = some b) {i : CreditInstruction} {r : Report} (hi : u.Decided i r) :
    t.Decided i r := by
  obtain ⟨batch, a, o, hbatch, hproves⟩ := hi
  obtain ⟨generatedAt, hbatches⟩ := h.batches hb
  rw [h.works.batches] at hbatch
  have hcalm := h.chain.2.2.2.1
  by_cases hk : b.pk = i.batch
  · obtain rfl : b = batch := Option.some.inj (hb.symm.trans (hk ▸ hbatch))
    exact ⟨_, a, o, (hbatches _).trans (if_pos hk), hproves.of_calm hcalm rfl rfl rfl⟩
  · exact ⟨batch, a, o, ((hbatches _).trans (if_neg hk)).trans hbatch,
      hproves.of_calm hcalm rfl rfl rfl⟩

/-- The tallied items speak for the instructions of the batch. -/
theorem Processed.current (h : Processed settings handle b s t items d created u v w)
    (hb : s.batches.get b.pk = some b) :
    List.Forall₂ (Verdict t.toBulkStore) items (t.instructionsOf b.pk) := by
  refine forall₂_current (g := t.instructions.get) (h.verdicts.imp ?_)
    (identity_instructionsOf b.pk h.identity) fun i hi => (mem_instructionsOf.mp hi).1
  rintro item i ⟨j, hj, hid, hverdict⟩
  refine ⟨j, ?_, hid, ⟨hverdict.id, hverdict.amount, fun hs => ?_, fun hr => ?_⟩⟩
  · rw [h.chain.2.2.1]
    exact hj
  · exact ⟨(hverdict.settled hs).1, h.decided hb (hverdict.settled hs).2⟩
  · exact ⟨(hverdict.rejected hr).1, h.decided hb (hverdict.rejected hr).2⟩

/-- On final items the statuses of the rows are the verdicts. -/
theorem finals_of_verdicts {db : BulkStore} {is : List CreditInstruction}
    (h : List.Forall₂ (Verdict db) items is)
    (hall : ∀ i ∈ items, i.status = .settled ∨ i.status = .rejected) :
    (∀ i ∈ is, i.status = .completed ∧ db.Decided i .settled ∨
        i.status = .failed ∧ db.Decided i .rejected) ∧
      List.Forall₂ (fun item i => (item.status = .settled ↔ i.status = .completed) ∧
        (item.status = .rejected ↔ i.status = .failed) ∧ item.amount = i.amount) items is := by
  induction h with
  | nil => exact ⟨by simp, .nil⟩
  | @cons item i items is hverdict _ ih =>
    obtain ⟨hfinals, hrows⟩ := ih fun k hk => hall k (.tail _ hk)
    rcases hall item (.head _) with hs | hr
    · obtain ⟨hi, hdecided⟩ := hverdict.settled hs
      refine ⟨List.forall_mem_cons.mpr ⟨.inl ⟨hi, hdecided⟩, hfinals⟩,
        .cons ⟨?_, ?_, hverdict.amount⟩ hrows⟩
      · simp [hs, hi]
      · simp [hs, hi]
    · obtain ⟨hi, hdecided⟩ := hverdict.rejected hr
      refine ⟨List.forall_mem_cons.mpr ⟨.inr ⟨hi, hdecided⟩, hfinals⟩,
        .cons ⟨?_, ?_, hverdict.amount⟩ hrows⟩
      · simp [hr, hi]
      · simp [hr, hi]

/-- A closing decision leaves a closed batch with evidence for every instruction. -/
theorem Processed.closed (h : Processed settings handle b s t items d created u v w)
    (hb : s.batches.get b.pk = some b) (hacc : s.Accounted)
      (hcloses : d.outcomeAction.closes = true)
    (generatedAt : Option Instant) :
    t.Closed (projected (tallied items) d generatedAt b) ∧ t.Evidenced b.pk := by
  have hsound : ∀ d ∈ u.decisions.rows, d.Sound := h.works.decisions ▸ hacc.decisions
  obtain ⟨hsettled, hrejected, hfinal⟩ := Decides.sound h.chain.1 hsound
  obtain ⟨hne, hall⟩ := hfinal hcloses
  obtain ⟨hevidence, hrows⟩ := finals_of_verdicts (h.current hb) hall
  obtain ⟨hcompleted, hcompletedSum⟩ := counted_of_forall₂ (p := (·.status = .settled))
    (q := (·.status = .completed)) (f := (·.amount)) (g := (·.amount))
    (hrows.imp fun item i hi => ⟨by simp [hi.1], hi.2.2⟩)
  obtain ⟨hfailed, hfailedSum⟩ := counted_of_forall₂ (p := (·.status = .rejected))
    (q := (·.status = .failed)) (f := (·.amount)) (g := (·.amount))
    (hrows.imp fun item i hi => ⟨by simp [hi.2.1], hi.2.2⟩)
  obtain ⟨hlength, hsum⟩ := split_of_xor (l := t.instructionsOf b.pk)
    (p := (·.status = .completed)) (r := (·.status = .failed)) (f := (·.amount)) (by
      intro i hi
      rcases hevidence i hi with ⟨hs, -⟩ | ⟨hs, -⟩ <;> simp [hs])
  have hcount : d.settledCount = t.countOf b.pk .completed := hsettled.trans hcompleted
  have hcount' : d.rejectedCount = t.countOf b.pk .failed := hrejected.trans hfailed
  have hlen : items.length = (t.instructionsOf b.pk).length := (h.current hb).length_eq
  have hpos : items.length ≠ 0 := fun h0 => hne (List.length_eq_zero_iff.mp h0)
  have hstatus : projectedStatus d = if t.countOf b.pk .failed = 0 then .completed
      else if t.countOf b.pk .completed = 0 then .failed else .partiallyCompleted := by
    rw [projectedStatus, if_pos hcloses, hcount, hcount']
  have hnonempty : t.countOf b.pk .completed + t.countOf b.pk .failed ≠ 0 := by
    unfold BulkStore.countOf
    omega
  refine ⟨?_, hevidence⟩
  exact {
    final := fun i hi => (hevidence i hi).imp And.left And.left
    nonempty := hnonempty
    completed := by
      rw [show (projected (tallied items) d generatedAt b).status = _ from hstatus]
      split <;> (try split) <;> simp_all [projected]
    failed := by
      rw [show (projected (tallied items) d generatedAt b).status = _ from hstatus]
      split <;> (try split) <;> simp_all [projected]
    mixed := by
      rw [show (projected (tallied items) d generatedAt b).status = _ from hstatus]
      split <;> (try split) <;> simp_all [projected]
    completedAmount := (tallied_amounts items).1.trans hcompletedSum
    failedAmount := (tallied_amounts items).2.trans hfailedSum
    total := by
      have htotal := hacc.totals b.pk b hb
      rw [← amounts_of_identity (identity_instructionsOf b.pk h.identity), hsum] at htotal
      rw [show (projected (tallied items) d generatedAt b).totalAmount = _ from htotal]
      rw [show (projected (tallied items) d generatedAt b).completedAmount = _ from
        (tallied_amounts items).1.trans hcompletedSum]
      rw [show (projected (tallied items) d generatedAt b).failedAmount = _ from
        (tallied_amounts items).2.trans hfailedSum] }

end BulkTask

/-! ## Every transaction settles batches properly -/

/-- A transaction keeps the accounts, and a batch that it closes has evidence for every
instruction. -/
def Settles (db db' : BulkStore) : Prop :=
  db.Accounted → db'.Accounted ∧ ∀ pk b, db'.batches.get pk = some b → b.status.isTerminal = true →
    db.batches.get pk = some b ∨ db'.Evidenced pk

theorem BulkStore.Closed.of_instructionsOf {db db' : BulkStore} {b : BulkPaymentBatch}
    (h : db.Closed b) (hsame : db'.instructionsOf b.pk = db.instructionsOf b.pk) :
    db'.Closed b := by
  have hcount : ∀ status, db'.countOf b.pk status = db.countOf b.pk status := fun status => by
    rw [BulkStore.countOf, BulkStore.countOf, hsame]
  have hamount : ∀ status, db'.amountOf b.pk status = db.amountOf b.pk status := fun status => by
    rw [BulkStore.amountOf, BulkStore.amountOf, hsame]
  refine ⟨?_, ?_, ?_, ?_, ?_, ?_, ?_, h.total⟩
  · rw [hsame]
    exact h.final
  · rw [hcount, hcount]
    exact h.nonempty
  · rw [hcount]
    exact h.completed
  · rw [hcount]
    exact h.failed
  · rw [hcount, hcount]
    exact h.mixed
  · rw [hamount]
    exact h.completedAmount
  · rw [hamount]
    exact h.failedAmount

theorem BulkTask.closes_of_terminal {d : GovStackBatchDecision}
    (h : (BulkTask.projectedStatus d).isTerminal = true) : d.outcomeAction.closes = true := by
  unfold BulkTask.projectedStatus at h
  split at h
  next hcloses => exact hcloses
  · cases h

namespace Settles

variable {db db' : BulkStore} {s t : Session} {handle : BatchLeaseHandle}

/-- A transaction that leaves the tables of the batches alone. -/
theorem of_same (hbatches : db'.batches = db.batches) (hrows : db'.instructions = db.instructions)
    (hdecisions : db'.decisions = db.decisions) : Settles db db' := by
  intro h
  have hof : ∀ pk, db'.instructionsOf pk = db.instructionsOf pk := fun pk => by
    rw [BulkStore.instructionsOf, BulkStore.instructionsOf, hrows]
  refine ⟨⟨?_, ?_, ?_, ?_⟩, ?_⟩
  · rw [hrows, hbatches]
    exact h.known
  · intro pk b hb
    rw [hbatches] at hb
    rw [hof]
    exact h.totals pk b hb
  · rw [hdecisions]
    exact h.decisions
  · intro pk b hb hterminal
    rw [hbatches] at hb
    exact (h.closed pk b hb hterminal).of_instructionsOf (hof b.pk)
  · intro pk b hb _
    exact .inl (hbatches ▸ hb)

theorem of_works (h : Works (fun _ => False) s t) : Settles s.toBulkStore t.toBulkStore :=
  of_same h.batches h.instructions_eq h.decisions

theorem of_renews (h : BatchLeaseService.Renews s t) : Settles s.toBulkStore t.toBulkStore :=
  of_works (.of_renews h)

/-- The transaction that processes a batch projects the decision onto it. -/
theorem of_processed {settings : BulkSettings} {b : BulkPaymentBatch} {items : List ChildItem}
    {d : GovStackBatchDecision} {created : Bool} {u v w : Session}
    (h : BulkTask.Processed settings handle b s t items d created u v w)
    (hb : s.batches.get b.pk = some b) : Settles s.toBulkStore t.toBulkStore := by
  intro hacc
  obtain ⟨generatedAt, hget⟩ := h.batches hb
  have hclosed : ∀ pk b', t.batches.get pk = some b' → b'.status.isTerminal = true →
      t.Closed b' ∧ (s.batches.get pk = some b' ∨ t.Evidenced pk) := by
    intro pk b' hb' hterminal
    rw [hget] at hb'
    split at hb'
    next hpk =>
      subst hpk
      obtain rfl := Option.some.inj hb'
      have hcloses := BulkTask.closes_of_terminal hterminal
      obtain ⟨hclosed, hevidence⟩ := h.closed hb hacc hcloses generatedAt
      exact ⟨hclosed, .inr hevidence⟩
    next hpk =>
      have hb'pk : b'.pk = pk := Table.pk_of_get hb'
      have hne : b'.pk ≠ b.pk := fun heq => hpk (heq.symm.trans hb'pk)
      have hsame := h.others hne
      exact ⟨(hacc.closed pk b' hb' hterminal).of_instructionsOf hsame, .inl hb'⟩
  refine ⟨⟨?_, ?_, ?_, fun pk b' hb' hterminal => (hclosed pk b' hb' hterminal).1⟩,
    fun pk b' hb' hterminal => (hclosed pk b' hb' hterminal).2⟩
  · intro i hi
    have hmem := List.mem_map_of_mem (f := CreditInstruction.identity) hi
    rw [h.identity] at hmem
    obtain ⟨j, hj, hij⟩ := List.mem_map.mp hmem
    obtain ⟨b', hb'⟩ := hacc.known j hj
    have hbatch : j.batch = i.batch := congrArg (·.2.1) hij
    rw [← hbatch, hget]
    split
    · exact ⟨_, rfl⟩
    · exact ⟨b', hb'⟩
  · intro pk b' hb'
    rw [BulkTask.amounts_of_identity (BulkTask.identity_instructionsOf pk h.identity)]
    rw [hget] at hb'
    split at hb'
    next hpk =>
      subst hpk
      obtain rfl := Option.some.inj hb'
      exact hacc.totals b.pk b hb
    · exact hacc.totals pk b' hb'
  · obtain ⟨hdecides, hdecisions, -⟩ := h.chain
    rw [hdecisions]
    exact Decides.all_sound hdecides (h.works.decisions ▸ hacc.decisions)

/-- A new batch has its own instructions only, and its total is their sum. -/
theorem of_received {requestId sourceBbId batchId callbackUrl correlationId : String}
    {items : List GovStackBulkPaymentService.InstructionItem} {b : BulkPaymentBatch}
    (h : GovStackBulkPaymentService.receiveBatch requestId sourceBbId batchId items callbackUrl
      correlationId s = .ok (b, t)) : Settles s.toBulkStore t.toBulkStore := by
  intro hacc
  obtain ⟨hpk, hstatus, htotal, hinsert, ⟨is, hrows, hbatch, hamounts⟩, entry, -, hframe⟩ :=
    GovStackBulkPaymentService.receiveBatch_ok h
  have hget := Table.get_insert hinsert
  have hother : ∀ pk, pk ≠ b.pk → t.instructionsOf pk = s.instructionsOf pk := by
    intro pk hne
    have hnil : is.filter (·.batch = pk) = [] :=
      List.filter_eq_nil_iff.mpr fun i hi => by simpa [(hbatch i hi).batch] using Ne.symm hne
    rw [BulkStore.instructionsOf, hrows, List.filter_append, hnil, List.append_nil,
      BulkStore.instructionsOf]
  have hfresh : s.instructionsOf b.pk = [] := by
    refine List.filter_eq_nil_iff.mpr fun i hi => ?_
    obtain ⟨b', hb'⟩ := hacc.known i hi
    have hnone : s.batches.get b.pk = none := hpk ▸ Table.get_next
    have hne : i.batch ≠ b.pk := fun heq => by simp [heq, hnone] at hb'
    simpa using hne
  have hown : t.instructionsOf b.pk = is := by
    have hall : is.filter (·.batch = b.pk) = is :=
      List.filter_eq_self.mpr fun i hi => by simp [(hbatch i hi).batch]
    rw [BulkStore.instructionsOf, hrows, List.filter_append, hall]
    rw [show s.instructions.rows.filter (·.batch = b.pk) = [] from hfresh, List.nil_append]
  have hcases : ∀ pk b', t.batches.get pk = some b' →
      pk = b.pk ∧ b' = b ∨ pk ≠ b.pk ∧ s.batches.get pk = some b' := by
    intro pk b' hb'
    rw [hget] at hb'
    split at hb'
    next hk => exact .inl ⟨Eq.symm hk, (Option.some.inj hb').symm⟩
    next hk => exact .inr ⟨fun heq => hk heq.symm, hb'⟩
  have hopen : b.status.isTerminal = true → False := by
    rw [hstatus]
    decide
  refine ⟨⟨?_, ?_, ?_, ?_⟩, ?_⟩
  · intro i hi
    rw [hget]
    split
    · exact ⟨b, rfl⟩
    next hne =>
    rw [hrows, List.mem_append] at hi
    rcases hi with hi | hi
    · exact hacc.known i hi
    · exact absurd (hbatch i hi).batch.symm hne
  · intro pk b' hb'
    rcases hcases pk b' hb' with ⟨rfl, rfl⟩ | ⟨hne, hb'⟩
    · rw [hown, htotal, hamounts]
    · rw [hother pk hne]
      exact hacc.totals pk b' hb'
  · rw [hframe]
    exact hacc.decisions
  · intro pk b' hb' hterminal
    rcases hcases pk b' hb' with ⟨rfl, rfl⟩ | ⟨hne, hb'⟩
    · exact (hopen hterminal).elim
    · have hb'pk : b'.pk = pk := Table.pk_of_get hb'
      exact (hacc.closed pk b' hb' hterminal).of_instructionsOf (hother b'.pk (hb'pk ▸ hne))
  · intro pk b' hb' hterminal
    rcases hcases pk b' hb' with ⟨rfl, rfl⟩ | ⟨-, hb'⟩
    · exact (hopen hterminal).elim
    · exact .inl hb'

end Settles

/-! ## Runs -/

theorem BulkWorker.act_settles {db db' : BulkStore} {p q : BulkWorker} {c : BulkChoice}
    (h : BulkWorker.act db p c = some (db', q)) : Settles db db' := by
  obtain ⟨rest, hrenews⟩ | ⟨batch, handle, t, rfl, rfl, hok⟩ := BulkWorker.act_cases h
  · exact .of_renews hrenews
  · obtain ⟨b, hb, -, hprocess⟩ := BulkTask.processBatch_ok hok
    split at hprocess
    · obtain ⟨items, d, created, v, w, x, hprocessed⟩ := hprocess
      obtain rfl : b.pk = batch := Table.pk_of_get hb
      exact .of_processed hprocessed hb
    · exact .of_works (hprocess _)

theorem BulkWriter.write_settles {db db' : BulkStore} {x : BulkWriter}
    (h : x.write db = some db') : Settles db db' := by
  cases x with
  | receiveBatch requestId sourceBbId batchId instructions callbackUrl correlationId =>
    cases h
    obtain hsame | ⟨b, t, hok, ht⟩ := BulkWorker.commitAt_cases
      (GovStackBulkPaymentService.receiveBatch requestId sourceBbId batchId instructions callbackUrl
        correlationId) [] db
    · rw [hsame]
      exact .of_same rfl rfl rfl
    · rw [ht]
      exact .of_received hok
  | beneficiaries rows =>
    cases h
    exact .of_same rfl rfl rfl
  | ledger l =>
    simp only [BulkWriter.write, Option.ite_none_right_eq_some, Option.some.injEq] at h
    obtain ⟨-, rfl⟩ := h
    exact .of_same rfl rfl rfl

theorem step_settles {s t : Pool.State BulkStore BulkWorker}
    {label : Pool.Label BulkWorker BulkChoice BulkWriter}
    (h : bulk.machine.step s label = some t) : Settles s.store t.store := by
  obtain ⟨p, -, -, rfl⟩ | ⟨i, c, p, st, q, -, -, hact, rfl⟩ | ⟨i, -, rfl⟩ |
    ⟨x, st, -, henv, rfl⟩ := Program.step_cases h
  · exact .of_same rfl rfl rfl
  · exact BulkWorker.act_settles hact
  · exact .of_same rfl rfl rfl
  · exact BulkWriter.write_settles henv

theorem accounted_of_reachable {s : Pool.State BulkStore BulkWorker}
    (h : bulk.machine.Reachable s) : s.store.Accounted := by
  refine h.invariant (I := fun s => s.store.Accounted) ?_
    fun _ _ _ _ ih hstep => (step_settles hstep ih).1
  rintro s₀ ⟨⟨hbatches, hinstructions, -, hdecisions, -⟩, -⟩
  have hrows : s₀.store.instructions.rows = [] := congrArg Table.rows hinstructions
  have hget : ∀ pk, s₀.store.batches.get pk = none := fun pk => by
    rw [hbatches]
    rfl
  have hnone : s₀.store.decisions.rows = [] := congrArg Table.rows hdecisions
  refine ⟨?_, ?_, ?_, ?_⟩
  · simp [hrows]
  · simp [hget]
  · simp [hnone]
  · simp [hget]

/-- In every reachable state a terminal batch has the outcome of the partition of its
instructions; and a step that makes a batch terminal leaves it with verified reconciled finality
of every instruction. -/
theorem batch_outcome_sound {s : Pool.State BulkStore BulkWorker} (h : bulk.machine.Reachable s) :
    (∀ pk b, s.store.batches.get pk = some b → b.status.isTerminal = true → s.store.Closed b) ∧
    ∀ label t pk b', bulk.machine.step s label = some t → t.store.batches.get pk = some b' →
      b'.status.isTerminal = true →
      (∀ b, s.store.batches.get pk = some b → b.status.isTerminal = false) →
        t.store.Evidenced pk := by
  have hacc := accounted_of_reachable h
  refine ⟨hacc.closed, ?_⟩
  intro label t pk b' hstep hb' hterminal hopen
  rcases (step_settles hstep hacc).2 pk b' hb' hterminal with hold | hevidence
  · rw [hopen b' hold] at hterminal
    cases hterminal
  · exact hevidence

def quickChoice : BulkChoice := ⟨[], ⟨true, ⟨"1", fun _ _ => false⟩, false⟩⟩

/-- The first delivery binds the instruction and leaves the batch in progress. -/
def awaiting : Pool.State BulkStore BulkWorker :=
  bulk.machine.final ⟨{}, []⟩ [
    .env (.receiveBatch "r" "s" "b" [⟨"i", "p", 100, "CAD"⟩] "" ""),
    .env (.beneficiaries [⟨"p", true⟩]),
    .spawn (.admitDelivery 1 "w"), .act 0 quickChoice, .act 0 quickChoice, .act 0 quickChoice]

/-- The provider settles the only attempt. -/
def settlement : Tx Unit := do
  let attempt ← PaymentAttempt.getLocked 1
  let _ ← PaymentLifecycleService.applyOutcome 1 { status := .uncertain } 0
  let _ ← PaymentLifecycleService.recordProviderResult attempt
    { outcome := .settled, externalTransactionId := "t", verified := true } 0

/-- A redelivery is admitted after the settlement. -/
def readmitted : Pool.State BulkStore BulkWorker :=
  bulk.machine.final awaiting [
    .env (.ledger (commit settlement awaiting.store.ledger).2), .spawn (.admitDelivery 1 "w"),
    .act 1 quickChoice]

def paidOut : Pool.State BulkStore BulkWorker := bulk.machine.final readmitted [.act 1 quickChoice]

theorem readmitted_reachable : bulk.machine.Reachable readmitted := by
  have hawaiting : bulk.machine.Reachable awaiting :=
    .final (M := bulk.machine) ⟨⟨rfl, rfl, rfl, rfl, by simp⟩, rfl⟩ _
  exact hawaiting.later (Machine.Later.final _ _)

theorem batch_outcome_sound_paidOut :
    (paidOut.store.batches.get 1).map (fun b => (b.status, b.completedAmount)) =
      some (.completed, 100) ∧ paidOut.store.Evidenced 1 := by
  have hrow : (paidOut.store.batches.get 1).map (fun b => (b.status, b.completedAmount)) =
      some (.completed, 100) := by decide +kernel
  refine ⟨hrow, ?_⟩
  have hbefore : (readmitted.store.batches.get 1).map (·.status) = some .processing := by
    decide +kernel
  obtain ⟨b', hb', hcolumns⟩ := Option.map_eq_some_iff.mp hrow
  have hstep := Machine.step_final (M := bulk.machine) (s := readmitted) (l := .act 1 quickChoice)
    (by decide +kernel)
  refine (batch_outcome_sound readmitted_reachable).2 _ paidOut 1 b' hstep hb' ?_ fun b hb => ?_
  · rw [show b'.status = .completed from congrArg Prod.fst hcolumns]
    rfl
  · rw [hb, Option.map_some, Option.some.injEq] at hbefore
    rw [hbefore]
    rfl

end Civicos.Payments
