import Civicos.Payments.CheckoutSession

/-!
# Double submission

The guard against a second intent reads the copy of the session that the request has loaded. While
no two requests of a session hold a copy at the same time, and no open intent is forgotten by a new
selection, at most one intent of the order can be paid. Two requests that load the session before
either saves it create two.
-/
namespace Civicos.Payments

open Library Library.Transaction

variable {ep : Endpoint} {s t : CheckoutStore} {w w' : CheckoutWorker} {c : CheckoutChoice}
  {d : OrderSession} {copy : Option OrderSession} {id : String} {i : PaymentIntent}

namespace CheckoutStore

/-- Every intent that can be paid is the one that `copy` names. -/
def Names (s : CheckoutStore) (copy : Option OrderSession) : Prop :=
  ∀ i ∈ s.openIntents, copy.bind (·.intentPk) = some i.pk

/-- The rows are those of the user, and the gateway knows them. -/
def Sound (s : CheckoutStore) : Prop :=
  ∀ i ∈ s.intents.rows, i.gatewayIntentId ∈ s.known ∧ i.payer = s.user

/-- What holds while no request has a copy of the session -/
def Settled (s : CheckoutStore) : Prop := s.Sound ∧ s.Names s.session

theorem mem_openIntents : i ∈ s.openIntents ↔
    i ∈ s.intents.rows ∧ i.status = .pending ∧ i.gatewayIntentId ∈ s.payable := by
  simp [openIntents]

theorem names_of_nil (h : s.openIntents = []) (copy : Option OrderSession) : s.Names copy := by
  intro i hi
  rw [h] at hi
  cases hi

/-- The named intent is the only one. -/
theorem Names.length_le (h : s.Names copy) : s.openIntents.length ≤ 1 := by
  have hapart : s.openIntents.Pairwise fun i j => i.pk ≠ j.pk :=
    (s.intents.apart.imp fun hapart => hapart.1).sublist List.filter_sublist
  unfold Names at h
  rcases hopen : s.openIntents with _ | ⟨i, _ | ⟨j, rest⟩⟩
  · simp
  · simp
  · rw [hopen] at h hapart
    have hi := h i (.head _)
    have hj := h j (.tail _ (.head _))
    have hne := (List.pairwise_cons.mp hapart).1 j (.head _)
    exact absurd (Option.some.inj (hi.symm.trans hj)) hne

end CheckoutStore

open CheckoutStore

/-! ## The assertion of each request -/

namespace CheckoutWorker

/-- What a request knows while it holds its copy -/
def Holds (s : CheckoutStore) : CheckoutWorker → Prop
  | loaded (.select _) _ => s.Sound ∧ s.openIntents = []
  | loaded _ copy => s.Sound ∧ copy = s.session ∧ s.Names copy
  | calling _ => s.Sound ∧ s.openIntents = []
  | creating _ id => s.Sound ∧ s.openIntents = [] ∧ id ∈ s.known
  | saving copy response => s.Sound ∧ s.Names copy ∧
      ((∀ pk, response ≠ .created pk) → s.Names s.session)
  | _ => True

/-- The condition on a request that loads the session: a new selection finds no open intent
there. -/
def Admits (s : CheckoutStore) : CheckoutWorker → Prop
  | arrived (.select _) => ∀ i ∈ s.openIntents, s.session.bind (·.intentPk) ≠ some i.pk
  | _ => True

instance (s : CheckoutStore) : (w : CheckoutWorker) → Decidable (w.Admits s)
  | arrived (.select _) => inferInstanceAs (Decidable (∀ i ∈ s.openIntents, _))
  | arrived .createIntent | arrived .page | loaded _ _ | calling _ | creating _ _ | saving _ _
  | answered _ | dead => inferInstanceAs (Decidable True)

/-- It may die without being missed: no intent is forgotten with it. -/
def frail : CheckoutWorker → Bool
  | saving _ (.created _) => false
  | _ => true

theorem check_holds (hs : s.Sound) (hcopy : copy = s.session) (hnames : s.Names copy)
    (c : CheckoutChoice) : (check ep s copy c).busy = true ∧ (check ep s copy c).Holds s := by
  have herror (status : ℕ) (message : String) :
      (saving copy (.error status message)).busy = true ∧
        (saving copy (.error status message)).Holds s :=
    ⟨rfl, hs, hnames, fun _ => hcopy ▸ hnames⟩
  unfold check
  split
  · exact herror _ _
  split
  · exact herror _ _
  cases copy with
  | none => exact herror _ _
  | some d =>
    dsimp only
    split
    · exact herror _ _
    split
    · exact herror _ _
    split
    · exact herror _ _
    next hnone =>
      refine ⟨rfl, hs, List.eq_nil_iff_forall_not_mem.mpr fun i hi => hnone ?_⟩
      obtain ⟨hrow, hpending, -⟩ := mem_openIntents.mp hi
      have hget : s.intents.get i.pk = some i := Table.get_eq_some.mpr ⟨hrow, rfl⟩
      have hpk : d.intentPk = some i.pk := hnames i hi
      simp [pendingIntent, hpk, hget, hpending, (hs i hrow).2]

theorem record_holds (hs : s.Sound) (hnil : s.openIntents = []) (hknown : id ∈ s.known) :
    (record ep s d id c).2.busy = true ∧ (record ep s d id c).2.Holds (record ep s d id c).1 := by
  unfold record
  split
  next intent t hrun =>
    have hcreate : createRow ep d id s.user s = .ok (intent, t) := by
      split at hrun
      · cases hrun
      · exact hrun
    obtain ⟨rfl, T, hT, rfl⟩ := create_ok.mp hcreate
    have hrows := (Table.insert_ok.mp hT).2
    refine ⟨rfl, fun i hi => ?_, fun i hi => ?_, fun hnot => absurd rfl (hnot _)⟩
    · have hmem : i ∈ T.rows := hi
      rw [hrows, List.mem_append, List.mem_singleton] at hmem
      rcases hmem with hold | rfl
      · exact hs i hold
      · exact ⟨hknown, rfl⟩
    · obtain ⟨hmem, hpending, hpayable⟩ := mem_openIntents.mp hi
      have hmem : i ∈ T.rows := hmem
      rw [hrows, List.mem_append, List.mem_singleton] at hmem
      rcases hmem with hold | rfl
      · have hopen : i ∈ s.openIntents := mem_openIntents.mpr ⟨hold, hpending, hpayable⟩
        rw [hnil] at hopen
        cases hopen
      · rfl
  next =>
    have hopen (t : CheckoutStore) (ht : t.intents = s.intents)
        (hpayable : ∀ x ∈ t.payable, x ∈ s.payable) : t.openIntents = [] := by
      refine List.eq_nil_iff_forall_not_mem.mpr fun i hi => ?_
      obtain ⟨hrow, hpending, hpaid⟩ := mem_openIntents.mp hi
      have hopen : i ∈ s.openIntents :=
        mem_openIntents.mpr ⟨ht ▸ hrow, hpending, hpayable _ hpaid⟩
      rw [hnil] at hopen
      cases hopen
    split
    · exact ⟨rfl, hs, names_of_nil hnil _, fun _ => names_of_nil hnil _⟩
    · have hnil' := hopen { s with payable := s.payable.filter (· ≠ id) } rfl
        fun x hx => List.mem_of_mem_filter hx
      exact ⟨rfl, hs, names_of_nil hnil' _, fun _ => names_of_nil hnil' _⟩

/-- What a step of a request establishes, whether it loads the session or has loaded it. -/
theorem act_holds (h : act ep s w c = some (t, w'))
    (hw : if w.busy then w.Holds s else s.Settled ∧ w.Admits s) :
    if w'.busy then w'.Holds t else t.Settled := by
  cases w with
  | arrived r =>
    obtain ⟨⟨hs, hnames⟩, hadmits⟩ := hw
    cases h
    cases r with
    | createIntent => exact ⟨hs, rfl, hnames⟩
    | page => exact ⟨hs, rfl, hnames⟩
    | select fields =>
      refine ⟨hs, List.eq_nil_iff_forall_not_mem.mpr fun i hi => ?_⟩
      exact hadmits i hi (hnames i hi)
  | loaded r copy =>
    cases r with
    | createIntent =>
      obtain ⟨hs, hcopy, hnames⟩ := hw
      cases h
      obtain ⟨hbusy, hholds⟩ := check_holds hs hcopy hnames c
      rw [if_pos hbusy]
      exact hholds
    | page =>
      obtain ⟨hs, hcopy, hnames⟩ := hw
      cases h
      exact ⟨hs, hnames, fun _ => hcopy ▸ hnames⟩
    | select fields =>
      obtain ⟨hs, hnil⟩ := hw
      cases h
      exact ⟨hs, names_of_nil hnil _, fun _ => names_of_nil hnil _⟩
  | calling d =>
    obtain ⟨hs, hnil⟩ := hw
    cases hanswer : c.gatewayIntentId with
    | none =>
      simp only [act, hanswer] at h
      cases h
      exact ⟨hs, names_of_nil hnil _, fun _ => names_of_nil hnil _⟩
    | some id =>
      simp only [act, hanswer] at h
      split at h
      · cases h
      next hfresh =>
        cases h
        refine ⟨fun i hi => ⟨.tail _ (hs i hi).1, (hs i hi).2⟩, ?_, .head _⟩
        refine List.eq_nil_iff_forall_not_mem.mpr fun i hi => ?_
        obtain ⟨hrow, hpending, hpayable⟩ := mem_openIntents.mp hi
        rcases List.mem_cons.mp hpayable with rfl | hold
        · exact hfresh (hs i hrow).1
        · have hopen : i ∈ s.openIntents := mem_openIntents.mpr ⟨hrow, hpending, hold⟩
          rw [hnil] at hopen
          cases hopen
  | creating d id =>
    obtain ⟨hs, hnil, hknown⟩ := hw
    have hrecord : record ep s d id c = (t, w') := Option.some.inj h
    have hafter : (record ep s d id c).2.busy = true ∧
        (record ep s d id c).2.Holds (record ep s d id c).1 := record_holds hs hnil hknown
    rw [hrecord] at hafter
    obtain ⟨hbusy, hholds⟩ := hafter
    rw [if_pos hbusy]
    exact hholds
  | saving copy response =>
    obtain ⟨hs, hnames, -⟩ := hw
    cases h
    exact ⟨hs, hnames⟩
  | answered response => cases h
  | dead => cases h

theorem settled_of_frail (hbusy : w.busy = true) (hfrail : w.frail = true) (hw : w.Holds s) :
    s.Settled := by
  cases w with
  | arrived r => cases hbusy
  | loaded r copy =>
    cases r with
    | createIntent => exact ⟨hw.1, hw.2.1 ▸ hw.2.2⟩
    | page => exact ⟨hw.1, hw.2.1 ▸ hw.2.2⟩
    | select fields => exact ⟨hw.1, names_of_nil hw.2 _⟩
  | calling d => exact ⟨hw.1, names_of_nil hw.2 _⟩
  | creating d id => exact ⟨hw.1, names_of_nil hw.2.1 _⟩
  | saving copy response =>
    refine ⟨hw.1, hw.2.2 fun pk hcreated => ?_⟩
    rw [hcreated] at hfrail
    cases hfrail
  | answered response => cases hbusy
  | dead => cases hbusy

end CheckoutWorker

/-! ## The gateway -/

/-- No row becomes open, and the session is not touched. -/
structure CheckoutStore.Closes (s t : CheckoutStore) : Prop where
  session : t.session = s.session
  known : t.known = s.known
  user : t.user = s.user
  rows : ∀ i ∈ t.intents.rows, ∃ j ∈ s.intents.rows,
    j.gatewayIntentId = i.gatewayIntentId ∧ j.payer = i.payer
  opens : ∀ i ∈ t.openIntents, i ∈ s.openIntents

namespace CheckoutStore.Closes

theorem sound (h : s.Closes t) (hs : s.Sound) : t.Sound := by
  intro i hi
  obtain ⟨j, hj, hid, hpayer⟩ := h.rows i hi
  rw [h.known, h.user, ← hid, ← hpayer]
  exact hs j hj

theorem names (h : s.Closes t) (hs : s.Names copy) : t.Names copy := fun i hi => hs i (h.opens i hi)

theorem nil (h : s.Closes t) (hs : s.openIntents = []) : t.openIntents = [] := by
  refine List.eq_nil_iff_forall_not_mem.mpr fun i hi => ?_
  have hopen := h.opens i hi
  rw [hs] at hopen
  cases hopen

theorem settled (h : s.Closes t) (hs : s.Settled) : t.Settled := by
  refine ⟨h.sound hs.1, ?_⟩
  rw [h.session]
  exact h.names hs.2

theorem holds (h : s.Closes t) (hs : w.Holds s) : w.Holds t := by
  cases w with
  | arrived r => trivial
  | loaded r copy =>
    cases r with
    | createIntent => exact ⟨h.sound hs.1, hs.2.1.trans h.session.symm, h.names hs.2.2⟩
    | page => exact ⟨h.sound hs.1, hs.2.1.trans h.session.symm, h.names hs.2.2⟩
    | select fields => exact ⟨h.sound hs.1, h.nil hs.2⟩
  | calling d => exact ⟨h.sound hs.1, h.nil hs.2⟩
  | creating d id => exact ⟨h.sound hs.1, h.nil hs.2.1, h.known ▸ hs.2.2⟩
  | saving copy response =>
    refine ⟨h.sound hs.1, h.names hs.2.1, fun hnot => ?_⟩
    rw [h.session]
    exact h.names (hs.2.2 hnot)
  | answered response => trivial
  | dead => trivial

end CheckoutStore.Closes

theorem GatewayEvent.step_closes {x : GatewayEvent} (h : x.step s = some t) : s.Closes t := by
  cases x with
  | settle id =>
    cases h
    refine ⟨rfl, rfl, rfl, fun i hi => ⟨i, hi, rfl, rfl⟩, fun i hi => ?_⟩
    obtain ⟨hrow, hpending, hpayable⟩ := mem_openIntents.mp hi
    exact mem_openIntents.mpr ⟨hrow, hpending, List.mem_of_mem_filter hpayable⟩
  | move k status =>
    simp only [GatewayEvent.step] at h
    split at h
    · cases h
    next hstatus =>
      cases h
      cases hrun : write intentTable PaymentError.ofViolation k
          (fun row => { row with status }) s with
      | error e =>
        rw [commit_of_error hrun]
        exact ⟨rfl, rfl, rfl, fun i hi => ⟨i, hi, rfl, rfl⟩, fun i hi => hi⟩
      | ok r =>
        rw [commit_of_ok (a := r.1) (t := r.2) hrun]
        obtain ⟨T, hT, ht⟩ := write_ok.mp (show _ = Except.ok (r.1, r.2) from hrun)
        rw [ht]
        cases hget : s.intents.get k with
        | none =>
          have hsame : T = s.intents := by
            have hnone := Table.update_of_none (f := fun row : PaymentIntent =>
              { row with status }) hget
            exact (Except.ok.inj (hnone.symm.trans hT)).symm
          subst hsame
          exact ⟨rfl, rfl, rfl, fun i hi => ⟨i, hi, rfl, rfl⟩, fun i hi => hi⟩
        | some row =>
          have hmem (i : PaymentIntent) : i ∈ T.rows ↔
              (i ∈ s.intents.rows ∧ i.pk ≠ k) ∨ i = { row with status } :=
            Table.mem_update hT hget
          refine ⟨rfl, rfl, rfl, fun i hi => ?_, fun i hi => ?_⟩
          · rcases (hmem i).mp hi with ⟨hold, -⟩ | rfl
            · exact ⟨i, hold, rfl, rfl⟩
            · exact ⟨row, Table.mem_of_get hget, rfl, rfl⟩
          · obtain ⟨hrow, hpending, hpayable⟩ := mem_openIntents.mp hi
            rcases (hmem i).mp hrow with ⟨hold, -⟩ | rfl
            · exact mem_openIntents.mpr ⟨hold, hpending, hpayable⟩
            · exact absurd hpending hstatus

/-! ## Runs -/

/-- The condition on the requests of a session -/
abbrev InTurn : Pool.State CheckoutStore CheckoutWorker →
    Pool.Label CheckoutWorker CheckoutChoice GatewayEvent → Prop :=
  Program.Turns CheckoutWorker.busy (fun s w => w.Admits s) CheckoutWorker.frail

theorem oneTurn_of_reachable {s : Pool.State CheckoutStore CheckoutWorker}
    (h : ((checkout ep).machine.under InTurn).Reachable s) :
    Program.OneTurn CheckoutWorker.busy Settled (fun s w => w.Holds s) s := by
  refine Program.one_turn ?_ ?_ rfl ?_ ?_ ?_ h
  · rintro s ⟨-, hintents⟩
    refine ⟨fun i hi => ?_, fun i hi => ?_⟩
    · rw [hintents] at hi
      cases hi
    · obtain ⟨hrow, -⟩ := mem_openIntents.mp hi
      rw [hintents] at hrow
      cases hrow
  · intro w hw
    cases w <;> first | rfl | cases hw
  · intro s w c t w' hw hact
    exact CheckoutWorker.act_holds hact hw
  · intro s w hbusy hfrail hw
    exact CheckoutWorker.settled_of_frail hbusy hfrail hw
  · intro s x t hstep
    have hcloses := GatewayEvent.step_closes hstep
    exact ⟨hcloses.settled, fun w => hcloses.holds⟩

/-- The intent that a request has just created, before its session is saved -/
def CheckoutWorker.justCreated : CheckoutWorker → Option Uuid
  | saving copy (.created _) => copy.bind (·.intentPk)
  | _ => none

theorem named_of_holds (hbusy : w.busy = true) (hw : w.Holds s) :
    s.openIntents.length ≤ 1 ∧ ∀ i ∈ s.openIntents,
      s.session.bind (·.intentPk) = some i.pk ∨ w.justCreated = some i.pk := by
  have hnone (hnil : s.openIntents = []) : s.openIntents.length ≤ 1 ∧ ∀ i ∈ s.openIntents,
      s.session.bind (·.intentPk) = some i.pk ∨ w.justCreated = some i.pk := by
    simp [hnil]
  cases w with
  | arrived r => cases hbusy
  | loaded r copy =>
    cases r with
    | createIntent => exact ⟨hw.2.2.length_le, fun i hi => .inl (hw.2.1 ▸ hw.2.2 i hi)⟩
    | page => exact ⟨hw.2.2.length_le, fun i hi => .inl (hw.2.1 ▸ hw.2.2 i hi)⟩
    | select fields => exact hnone hw.2
  | calling d => exact hnone hw.2
  | creating d id => exact hnone hw.2.1
  | saving copy response =>
    obtain ⟨-, hnames, hsession⟩ := hw
    refine ⟨hnames.length_le, fun i hi => ?_⟩
    cases response with
    | created pk => exact .inr (hnames i hi)
    | error status message => exact .inl (hsession (by simp) i hi)
    | redirect => exact .inl (hsession (by simp) i hi)
    | page => exact .inl (hsession (by simp) i hi)
  | answered response => cases hbusy
  | dead => cases hbusy

/-- While the requests of a session take turns with its copy, at most one intent can be paid, and
it is the one that the session names or that the request in flight is about to store there. -/
theorem one_payable_intent (ep : Endpoint) {s : Pool.State CheckoutStore CheckoutWorker}
    (h : ((checkout ep).machine.under InTurn).Reachable s) :
    s.store.openIntents.length ≤ 1 ∧ ∀ i ∈ s.store.openIntents,
      s.store.session.bind (·.intentPk) = some i.pk ∨
        ∃ w ∈ s.workers, w.justCreated = some i.pk := by
  rcases oneTurn_of_reachable h with ⟨-, -, hnames⟩ | ⟨k, w, hw, hbusy, hholds, -⟩
  · exact ⟨hnames.length_le, fun i hi => .inl (hnames i hi)⟩
  · obtain ⟨hone, hnamed⟩ := named_of_holds hbusy hholds
    refine ⟨hone, fun i hi => (hnamed i hi).imp_right fun hcreated => ?_⟩
    exact ⟨w, List.mem_of_getElem? hw, hcreated⟩

/-- A session in which nothing has been selected -/
def visited : Pool.State CheckoutStore CheckoutWorker := ⟨{ user := 7 }, []⟩

theorem visited_init (ep : Endpoint) : (checkout ep).machine.Init visited := ⟨⟨rfl, rfl⟩, rfl⟩

/-- The order as either form of the selection stores it -/
def order (amount : String) : Json := [("amount", .str amount), ("total", .str amount)]

abbrev CheckoutLabel := Pool.Label CheckoutWorker CheckoutChoice GatewayEvent

/-- A selection from its arrival to its end -/
def selecting (k : ℕ) (amount : String) : List CheckoutLabel :=
  [.spawn (.arrived (.select (order amount))), .act k {}, .act k {}, .act k {}]

/-- What a request for an intent does until its intent is on record -/
def submitting (k : ℕ) (id : String) : List CheckoutLabel :=
  [.act k {}, .act k { gatewayIntentId := some id }, .act k {}]

/-- A request for an intent from its arrival to its end -/
def creating (k : ℕ) (id : String) : List CheckoutLabel :=
  [.spawn (.arrived .createIntent), .act k {}] ++ submitting k id ++ [.act k {}]

/-- The first intent fails, the amount is changed, and a second intent is asked for twice. -/
def resubmitted (ep : Endpoint) : Pool.State CheckoutStore CheckoutWorker :=
  ((checkout ep).machine.under InTurn).final visited (selecting 0 "10.00" ++ creating 1 "pi_1" ++
    [.env (.move 1 .failed)] ++ selecting 2 "25.00" ++ creating 3 "pi_2" ++
    [.spawn (.arrived .createIntent), .act 4 {}, .act 4 {}, .act 4 {}])

theorem resubmitted_once : (resubmitted donationEndpoint).store.openIntents.length ≤ 1 ∧
    (resubmitted donationEndpoint).store.openIntents.map (·.pk) = [2] ∧
    (resubmitted donationEndpoint).workers.getLast? =
      some (.answered (.error 409 donationEndpoint.inProgress)) := by
  have hreachable : ((checkout donationEndpoint).machine.under InTurn).Reachable
      (resubmitted donationEndpoint) :=
    Machine.Reachable.final (M := (checkout donationEndpoint).machine.under InTurn)
      (visited_init donationEndpoint) _
  exact ⟨(one_payable_intent donationEndpoint hreachable).1, by decide +kernel, by decide +kernel⟩

/-- Both requests load the session before either saves it. -/
def submittedTwice (ep : Endpoint) : Pool.State CheckoutStore CheckoutWorker :=
  (checkout ep).machine.final visited (selecting 0 "10.00" ++
    [.spawn (.arrived .createIntent), .spawn (.arrived .createIntent), .act 1 {}, .act 2 {}] ++
    submitting 1 "pi_1" ++ submitting 2 "pi_2" ++ [.act 1 {}, .act 2 {}])

/-- The new selection overwrites the order in the session, and with it the name of its intent. -/
def selectedAgain (ep : Endpoint) : Pool.State CheckoutStore CheckoutWorker :=
  (checkout ep).machine.final visited (selecting 0 "10.00" ++ creating 1 "pi_1" ++
    selecting 2 "25.00" ++ creating 3 "pi_2")

/-- Either way the endpoint leaves two intents that can be paid. -/
def PaysTwice (ep : Endpoint) : Prop :=
  ((checkout ep).machine.Reachable (submittedTwice ep) ∧
      (submittedTwice ep).store.openIntents.map (·.pk) = [1, 2]) ∧
    (checkout ep).machine.Reachable (selectedAgain ep) ∧
      (selectedAgain ep).store.openIntents.map (·.pk) = [1, 2]

theorem two_payable_intents : PaysTwice donationEndpoint ∧ PaysTwice feeEndpoint := by
  have hreachable (ep : Endpoint) : (checkout ep).machine.Reachable (submittedTwice ep) ∧
      (checkout ep).machine.Reachable (selectedAgain ep) :=
    ⟨Machine.Reachable.final (M := (checkout ep).machine) (visited_init ep) _,
      Machine.Reachable.final (M := (checkout ep).machine) (visited_init ep) _⟩
  constructor
  · exact ⟨⟨(hreachable _).1, by decide +kernel⟩, (hreachable _).2, by decide +kernel⟩
  · exact ⟨⟨(hreachable _).1, by decide +kernel⟩, (hreachable _).2, by decide +kernel⟩

end Civicos.Payments
