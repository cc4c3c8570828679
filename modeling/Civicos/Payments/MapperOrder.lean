import Civicos.Payments.Mapper

/-!
# The order of the mapper's requests

Where no commit changes a row that another open call has got, the rows and the audit entries are
those of the committed requests one after the other. Otherwise a save of a whole instance takes
back what was committed since the instance was read.
-/
namespace Civicos.Payments.Mapper

open Library

/-! ## One after the other -/

namespace Upsert

/-- A turn as an operation on the row of its payee -/
def op (r : Upsert) (t : BeneficiaryItem × Uuid) : KeyedOp String GovStackBeneficiary where
  key := t.1.payeeFunctionalId
  apply
    | none => r.created t.2 t.1
    | some obj => (r.revise t.1 obj).1

/-- The entry of a turn that has found a row or none -/
def entryOf (r : Upsert) (t : BeneficiaryItem × Uuid) (found : Option GovStackBeneficiary) :
    AuditEntry :=
  r.entry found.isNone t.1 ((r.op t).apply found).id

def entries (r : Upsert) (m : String → Option GovStackBeneficiary)
    (ts : List (BeneficiaryItem × Uuid)) : List AuditEntry :=
  List.zipWith r.entryOf ts (KeyedOp.found m (ts.map r.op))

end Upsert

namespace Commit

def rows (m : String → Option GovStackBeneficiary) : Commit → String → Option GovStackBeneficiary
  | call _ r pks => KeyedOp.runAll m ((r.beneficiaries.zip pks).map r.op)
  | deactivation payee =>
    Function.update m payee ((m payee).map fun obj => { obj with isActive := false })

def entries (m : String → Option GovStackBeneficiary) : Commit → List AuditEntry
  | call _ r pks => r.entries m (r.beneficiaries.zip pks)
  | deactivation _ => []

/-- The rows after all of them -/
def allRows (m : String → Option GovStackBeneficiary) (cs : List Commit) :
    String → Option GovStackBeneficiary :=
  cs.foldl rows m

def allEntries (m : String → Option GovStackBeneficiary) : List Commit → List AuditEntry
  | [] => []
  | c :: cs => c.entries m ++ allEntries (c.rows m) cs

def callIndex : Commit → Option ℕ
  | call i _ _ => some i
  | deactivation _ => none

end Commit

/-! ## Turns -/

namespace Upsert

variable {r : Upsert} {item : BeneficiaryItem} {obj : GovStackBeneficiary} {pk : Uuid}
  {m m' w : String → Option GovStackBeneficiary} {ts : List (BeneficiaryItem × Uuid)}
  {t : BeneficiaryItem × Uuid}

/-- What is provided is set, and nothing else but the source. -/
theorem revise_fst : (r.revise item obj).1 = { obj with
    paymentModality := orElse item.modality obj.paymentModality
    financialAddress := orElse item.address obj.financialAddress
    sourceBbId := r.sourceBbId
    registeringInstitutionId :=
      orElse r.registeringInstitutionId obj.registeringInstitutionId } := by
  cases obj
  simp only [revise, orElse, Id.run, pure]
  split_ifs <;> simp_all

theorem revise_unchanged (h : (r.revise item obj).2 = false) : (r.revise item obj).1 = obj := by
  simp only [revise, Id.run, pure] at h ⊢
  split_ifs at h ⊢
  rfl

@[simp] theorem revise_payee :
    (r.revise item obj).1.payeeFunctionalId = obj.payeeFunctionalId := by rw [revise_fst]

@[simp] theorem revise_id : (r.revise item obj).1.id = obj.id := by rw [revise_fst]

theorem entries_append_one (h : Serial m w (ts.map r.op)) : r.entries m (ts ++ [t]) =
    r.entries m ts ++ [r.entryOf t (overlay w m t.1.payeeFunctionalId)] := by
  unfold entries
  rw [List.map_append, List.map_singleton, h.found_append_one,
    List.zipWith_append (by simp [KeyedOp.length_found])]
  rfl

theorem entries_congr (h : ∀ o ∈ ts.map r.op, m o.key = m' o.key) :
    r.entries m ts = r.entries m' ts := by
  rw [entries, entries, KeyedOp.found_congr h]

end Upsert

/-- A call has done a part of its items, and what it has done would be done again with the rows that
are stored. -/
structure UpsertRun.Consistent (g : Registry) (r : Upsert) (x : UpsertRun) : Prop where
  items : x.turns.map Prod.fst ++ ((x.saving.map Prod.fst).toList ++ x.todo) = r.beneficiaries
  serial : Serial g.find x.writes.find (x.turns.map r.op)
  audits : x.audits = r.entries g.find x.turns
  count : x.registered + x.updated = x.turns.length
  saving : ∀ p ∈ x.saving, ∃ obj, overlay x.writes.find g.find p.1.payeeFunctionalId = some obj ∧
    p.2 = (r.revise p.1 obj).1

namespace UpsertRun

variable {g g' : Registry} {r : Upsert} {x y : UpsertRun} {item : BeneficiaryItem}
  {obj : GovStackBeneficiary} {pk : Uuid} {isCreated : Bool} {todo : List BeneficiaryItem}

theorem consistent_start : Consistent g r { todo := r.beneficiaries } where
  items := rfl
  serial := .nil
  audits := rfl
  count := rfl
  saving := nofun

theorem finish_ok (h : x.finish r item isCreated pk = some y) : y = { x with
    saving := none
    audits := x.audits ++ [r.entry isCreated item pk]
    registered := if isCreated then x.registered + 1 else x.registered
    updated := if isCreated then x.updated else x.updated + 1
    turns := x.turns ++ [(item, pk)] } := by
  unfold finish at h
  exact (Option.some.inj (Option.ite_none_left_eq_some.mp h).2).symm

/-- What a statement of a call does to it: the instance that it has got is to be saved or left as
it is, the row is created, or the instance is saved. -/
inductive Turn (g : Registry) (r : Upsert) (x : UpsertRun) : UpsertRun → Prop where
  | got {item : BeneficiaryItem} {todo : List BeneficiaryItem} {obj : GovStackBeneficiary}
      (hsaving : x.saving = none) (htodo : x.todo = item :: todo)
      (hobj : overlay x.writes.find g.find item.payeeFunctionalId = some obj) :
      Turn g r x { x with todo, saving := some (item, (r.revise item obj).1) }
  | kept {item : BeneficiaryItem} {todo : List BeneficiaryItem} {obj : GovStackBeneficiary}
      {y : UpsertRun} (hsaving : x.saving = none) (htodo : x.todo = item :: todo)
      (hobj : overlay x.writes.find g.find item.payeeFunctionalId = some obj)
      (hunchanged : (r.revise item obj).1 = obj)
      (hy : finish { x with todo } r item false obj.id = some y) : Turn g r x y
  | created {item : BeneficiaryItem} {todo : List BeneficiaryItem} {id : Uuid} {y : UpsertRun}
      (hsaving : x.saving = none) (htodo : x.todo = item :: todo)
      (hnone : overlay x.writes.find g.find item.payeeFunctionalId = none)
      (hy : finish { x with todo, writes := x.writes.put (r.created id item) } r item true id =
        some y) : Turn g r x y
  | saved {item : BeneficiaryItem} {obj : GovStackBeneficiary} {y : UpsertRun}
      (hsaving : x.saving = some (item, obj))
      (hy : finish { x with writes := x.writes.put obj } r item false obj.id = some y) :
      Turn g r x y

/-- The end of a turn that has found `found`, with what the transaction has written by then -/
theorem Consistent.finish {found : Option GovStackBeneficiary} {writes : Registry}
    (h : x.Consistent g r)
    (hitems : (x.saving.map Prod.fst).toList ++ x.todo = item :: todo)
    (hfound : overlay x.writes.find g.find item.payeeFunctionalId = found)
    (hserial : Serial g.find writes.find (x.turns.map r.op ++ [r.op (item, pk)]))
    (hpk : ((r.op (item, pk)).apply found).id = pk)
    (hy : UpsertRun.finish { x with todo, writes } r item found.isNone pk = some y) :
    y.Consistent g r := by
  obtain rfl := finish_ok hy
  exact {
    items := by simp [← h.items, hitems]
    serial := by simpa using hserial
    audits := by
      have hentry : r.entryOf (item, pk) found = r.entry found.isNone item pk := by
        rw [Upsert.entryOf, hpk]
      rw [Upsert.entries_append_one h.serial, ← h.audits, hfound, hentry]
    count := by
      have hcount := h.count
      cases found <;> simp <;> omega
    saving := nofun }

theorem Turn.consistent (h : Turn g r x y) (hx : x.Consistent g r) : y.Consistent g r := by
  cases h with
  | got hsaving htodo hobj =>
    refine ⟨?_, hx.serial, hx.audits, hx.count, ?_⟩
    · simpa [hsaving, htodo] using hx.items
    · rintro p ⟨⟩
      exact ⟨_, hobj, rfl⟩
  | @kept item todo obj y hsaving htodo hobj hunchanged hy =>
    refine hx.finish (by simp [hsaving, htodo]) hobj ?_ Upsert.revise_id hy
    exact hx.serial.keep (o := r.op (item, obj.id)) hobj (congrArg some hunchanged)
  | @created item todo id y hsaving htodo hnone hy =>
    refine hx.finish (by simp [hsaving, htodo]) hnone ?_ rfl hy
    rw [Keyed.find_put]
    exact hx.serial.write (o := r.op (item, id)) hnone
  | @saved item obj y hsaving hy =>
    obtain ⟨obj', hobj', hrevised⟩ := hx.saving _ hsaving
    have hobj : obj = (r.revise item obj').1 := hrevised
    have hpayee : obj.payeeFunctionalId = item.payeeFunctionalId := by
      rw [hobj, Upsert.revise_payee]
      exact Keyed.key_of_overlay hobj'
    refine hx.finish (by simp [hsaving]) hobj' ?_ ?_ hy
    · rw [Keyed.find_put, hpayee]
      nth_rewrite 1 [hobj]
      exact hx.serial.write (o := r.op (item, obj.id)) hobj'
    · exact congrArg (·.id) hobj.symm

/-- Rows change that the call has not got. -/
theorem Consistent.frame (h : x.Consistent g r)
    (hg : ∀ k, (⟨r, .running x⟩ : Call).looks k = true → g'.find k = g.find k) :
    x.Consistent g' r := by
  have hturns : ∀ o ∈ x.turns.map r.op, g'.find o.key = g.find o.key := by
    intro o ho
    obtain ⟨t, ht, rfl⟩ := List.mem_map.mp ho
    refine hg _ (Bool.or_eq_true_iff.mpr (.inl (List.any_eq_true.mpr ⟨t, ht, ?_⟩)))
    exact decide_eq_true rfl
  refine ⟨h.items, h.serial.frame hturns, ?_, h.count, fun p hp => ?_⟩
  · exact h.audits.trans (Upsert.entries_congr fun o ho => (hturns o ho).symm)
  · have hsaving : x.saving.any (·.1.payeeFunctionalId = p.1.payeeFunctionalId) = true :=
      (Option.any_eq_true _ _).mpr ⟨p, hp, decide_eq_true rfl⟩
    have hsame : g'.find p.1.payeeFunctionalId = g.find p.1.payeeFunctionalId :=
      hg _ (Bool.or_eq_true_iff.mpr (.inr hsaving))
    obtain ⟨obj, hobj, hrevised⟩ := h.saving p hp
    exact ⟨obj, by rw [← hobj, overlay, overlay, hsame], hrevised⟩

/-- What a call that is over leaves is what a serial run of it leaves. -/
theorem Consistent.done (h : x.Consistent g r) (hsaving : x.saving = none) (htodo : x.todo = []) :
    r.beneficiaries.zip (x.turns.map Prod.snd) = x.turns := by
  have hitems : r.beneficiaries = x.turns.map Prod.fst := by simp [← h.items, hsaving, htodo]
  rw [hitems]
  exact (List.zip_of_prod rfl rfl).symm

end UpsertRun

/-! ## Steps -/

namespace MapperStore

variable {s t : MapperStore} {l : MapperStep} {i : ℕ} {r : Upsert} {x : UpsertRun} {id : Uuid}
  {payee : String}

theorem running_eq_some : s.running i = some (r, x) ↔ s.calls[i]? = some ⟨r, .running x⟩ := by
  unfold running
  split
  next args y hcall => simp [hcall]
  next hnone => simpa using fun h => hnone r x h

/-- What a step does -/
inductive Moves (s : MapperStore) : MapperStep → MapperStore → Prop where
  | received (l : MapperStep) (r : Upsert) : Moves s l (s.receive r)
  | turned (l : MapperStep) {i : ℕ} {r : Upsert} {x y : UpsertRun}
      (hcall : s.running i = some (r, x)) (hturn : x.Turn s.beneficiaries r y) :
      Moves s l (s.setProgress i r (.running y))
  | committed {i : ℕ} {r : Upsert} {x : UpsertRun} (hcall : s.running i = some (r, x))
      (hsaving : x.saving = none) (htodo : x.todo = []) :
      Moves s (.commit i) { s.setProgress i r (.returned x.registered x.updated) with
        beneficiaries := s.beneficiaries.putAll x.writes
        audits := s.audits ++ x.audits
        committed := s.committed ++ [.call i r (x.turns.map Prod.snd)] }
  | failed (l : MapperStep) {i : ℕ} {r : Upsert} {x : UpsertRun}
      (hcall : s.running i = some (r, x)) : Moves s l (s.setProgress i r .failed)
  | deactivated {payee : String} {obj : GovStackBeneficiary}
      (hobj : s.beneficiaries.find payee = some obj) :
      Moves s (.deactivate payee) { s with
        beneficiaries := s.beneficiaries.put { obj with isActive := false }
        committed := s.committed ++ [.deactivation payee] }

theorem getOrCreate_moves (h : s.getOrCreate i id = some t) : s.Moves (.getOrCreate i id) t := by
  obtain ⟨⟨r, x⟩, hcall, h⟩ := Option.bind_eq_some_iff.mp h
  dsimp only at h
  split at h
  next item todo hsaving htodo =>
    split at h
    next obj hobj =>
      cases hchanged : (r.revise item obj).2 with
      | true =>
        simp only [hchanged, if_true] at h
        cases h
        exact .turned _ hcall (.got hsaving htodo hobj)
      | false =>
        simp only [hchanged, Bool.false_eq_true, if_false] at h
        obtain ⟨y, hy, h⟩ := Option.bind_eq_some_iff.mp h
        cases h
        have hunchanged := Upsert.revise_unchanged hchanged
        rw [hunchanged] at hy
        exact .turned _ hcall (.kept hsaving htodo hobj hunchanged hy)
    next hnone =>
      obtain ⟨-, -, h⟩ := Option.bind_eq_some_iff.mp h
      obtain ⟨y, hy, h⟩ := Option.bind_eq_some_iff.mp h
      cases h
      exact .turned _ hcall (.created hsaving htodo hnone hy)
  next => cases h

theorem save_moves (h : s.save i = some t) : s.Moves (.save i) t := by
  obtain ⟨⟨r, x⟩, hcall, h⟩ := Option.bind_eq_some_iff.mp h
  obtain ⟨⟨item, obj⟩, hsaving, h⟩ := Option.bind_eq_some_iff.mp h
  obtain ⟨-, -, h⟩ := Option.bind_eq_some_iff.mp h
  obtain ⟨y, hy, h⟩ := Option.bind_eq_some_iff.mp h
  cases h
  exact .turned _ hcall (.saved hsaving hy)

theorem run_moves (h : mapper.step s l = some t) : s.Moves l t := by
  cases l with
  | register r =>
    cases h
    exact .received _ _
  | update r =>
    cases h
    exact .received _ _
  | getOrCreate i id => exact getOrCreate_moves h
  | save i => exact save_moves h
  | commit i =>
    obtain ⟨⟨r, x⟩, hcall, h⟩ := Option.bind_eq_some_iff.mp h
    obtain ⟨_, hguard, h⟩ := Option.bind_eq_some_iff.mp h
    cases h
    obtain ⟨hsaving, htodo⟩ : x.saving = none ∧ x.todo = [] := by simpa [guard] using hguard
    exact .committed hcall hsaving htodo
  | fail i =>
    obtain ⟨⟨r, x⟩, hcall, h⟩ := Option.bind_eq_some_iff.mp h
    cases h
    exact .failed _ hcall
  | deactivate payee =>
    obtain ⟨obj, hobj, h⟩ := Option.bind_eq_some_iff.mp h
    obtain ⟨-, -, h⟩ := Option.bind_eq_some_iff.mp h
    cases h
    exact .deactivated hobj

end MapperStore

/-! ## Runs -/

namespace Commit

variable {m : String → Option GovStackBeneficiary} {cs : List Commit} {c : Commit}

theorem allRows_append_one : allRows m (cs ++ [c]) = c.rows (allRows m cs) := by
  rw [allRows, List.foldl_append]
  rfl

theorem allEntries_append_one :
    allEntries m (cs ++ [c]) = allEntries m cs ++ c.entries (allRows m cs) := by
  induction cs generalizing m with
  | nil => simp [allEntries, allRows]
  | cons d cs ih =>
    rw [List.cons_append, allEntries, ih, allEntries, List.append_assoc]
    rfl

end Commit

/-- The rows and the audit entries are those of the committed calls and deactivations one after the
other. Each call that has returned is among them once. -/
structure Serialised (s₀ s : MapperStore) : Prop where
  rows : s.beneficiaries.find = Commit.allRows s₀.beneficiaries.find s.committed
  audits : s.audits = s₀.audits ++ Commit.allEntries s₀.beneficiaries.find s.committed
  once : (s.committed.filterMap Commit.callIndex).Nodup
  returned : ∀ i r, (∃ pks, Commit.call i r pks ∈ s.committed) ↔
    ∃ a b, s.calls[i]? = some ⟨r, .returned a b⟩
  counts : ∀ (i : ℕ) r a b, s.calls[i]? = some ⟨r, .returned a b⟩ → a + b = r.beneficiaries.length
  pks : ∀ i r pks, Commit.call i r pks ∈ s.committed → pks.length = r.beneficiaries.length

/-- What the open calls have done would be done again. -/
structure MapperStore.Invariant (s₀ s : MapperStore) : Prop extends Serialised s₀ s where
  running : ∀ i r x, s.running i = some (r, x) → x.Consistent s.beneficiaries r

namespace MapperStore

variable {s₀ s t : MapperStore} {l : MapperStep} {i : ℕ} {r : Upsert} {x y : UpsertRun}
  {p : Progress}

theorem getElem?_setProgress (hcall : s.running i = some (r, x)) (j : ℕ) :
    (s.setProgress i r p).calls[j]? = if j = i then some ⟨r, p⟩ else s.calls[j]? := by
  have hlt := (List.getElem?_eq_some_iff.mp (running_eq_some.mp hcall)).1
  by_cases hji : j = i
  · subst hji
    rw [if_pos rfl]
    exact List.getElem?_set_self hlt
  · rw [if_neg hji]
    exact List.getElem?_set_ne (Ne.symm hji)

/-- An open call goes on or fails. -/
theorem Invariant.setProgress (h : Invariant s₀ s) (hcall : s.running i = some (r, x))
    (hopen : ∀ a b, p ≠ .returned a b)
    (hp : ∀ y, p = .running y → y.Consistent s.beneficiaries r) :
    Invariant s₀ (s.setProgress i r p) := by
  have hcalls := getElem?_setProgress (p := p) hcall
  have hreturned (j : ℕ) (r' : Upsert) (a b : ℕ) :
      (s.setProgress i r p).calls[j]? = some ⟨r', .returned a b⟩ ↔
        s.calls[j]? = some ⟨r', .returned a b⟩ := by
    rw [hcalls]
    by_cases hji : j = i
    · subst hji
      rw [if_pos rfl, running_eq_some.mp hcall]
      simp [hopen]
    · rw [if_neg hji]
  refine ⟨⟨h.rows, h.audits, h.once, fun j r' => ?_, fun j r' a b hj => ?_, h.pks⟩, ?_⟩
  · simp only [hreturned]
    exact h.returned j r'
  · exact h.counts j r' a b ((hreturned j r' a b).mp hj)
  · intro j r' y hj
    rw [running_eq_some, hcalls] at hj
    by_cases hji : j = i
    · rw [if_pos hji] at hj
      cases hj
      exact hp y rfl
    · rw [if_neg hji] at hj
      exact h.running j r' y (running_eq_some.mpr hj)

/-- A commit keeps what the other open calls have got. -/
theorem Invariant.others (h : Invariant s₀ s) (hcall : s.running i = some (r, x))
    (hheld : Held s (.commit i)) {j : ℕ} {r' : Upsert} (hji : j ≠ i)
    (hj : s.running j = some (r', y)) : y.Consistent (s.beneficiaries.putAll x.writes) r' := by
  refine (h.running j r' y hj).frame fun k hlooks => ?_
  have hother : (⟨r', .running y⟩ : Call) ∈ s.calls.eraseIdx i :=
    List.mem_eraseIdx_iff_getElem?.mpr ⟨j, hji, running_eq_some.mp hj⟩
  rw [Keyed.find_putAll, overlay]
  cases hwrite : x.writes.find k with
  | none => rfl
  | some b =>
    obtain ⟨hb, rfl⟩ := Keyed.find_eq_some.mp hwrite
    by_contra hchanged
    have hnot := hheld _ (running_eq_some.mp hcall) b hb (fun hsame => hchanged hsame.symm) _ hother
    rw [hlooks] at hnot
    cases hnot

theorem Invariant.commit (h : Invariant s₀ s) (hcall : s.running i = some (r, x))
    (hsaving : x.saving = none) (htodo : x.todo = []) (hheld : Held s (.commit i)) :
    Invariant s₀ { s.setProgress i r (.returned x.registered x.updated) with
      beneficiaries := s.beneficiaries.putAll x.writes
      audits := s.audits ++ x.audits
      committed := s.committed ++ [.call i r (x.turns.map Prod.snd)] } := by
  have hx := h.running i r x hcall
  have hdone := hx.done hsaving htodo
  have hlength : x.turns.length = r.beneficiaries.length := by
    simp [← hx.items, hsaving, htodo]
  have hcalls := getElem?_setProgress (p := .returned x.registered x.updated) hcall
  have hfirst : ¬ ∃ r' pks, Commit.call i r' pks ∈ s.committed := by
    rintro ⟨r', pks, hmem⟩
    obtain ⟨a, b, hreturned⟩ := (h.returned i r').mp ⟨pks, hmem⟩
    rw [running_eq_some.mp hcall] at hreturned
    cases hreturned
  refine ⟨⟨?_, ?_, ?_, fun j r' => ?_, fun j r' a b hj => ?_, fun j r' pks hmem => ?_⟩,
    fun j r' y hj => ?_⟩
  · rw [Commit.allRows_append_one, ← h.rows, Commit.rows, hdone, ← hx.serial.view]
    exact Keyed.find_putAll
  · rw [Commit.allEntries_append_one, ← List.append_assoc, ← h.audits, ← h.rows, Commit.entries,
      hdone, ← hx.audits]
  · rw [List.filterMap_append]
    refine List.nodup_append.mpr ⟨h.once, by simp [Commit.callIndex], ?_⟩
    rintro k hk _ hi rfl
    obtain ⟨c, hc, hcall⟩ := List.mem_filterMap.mp hk
    obtain rfl : k = i := by simpa [Commit.callIndex] using hi
    cases c with
    | call j r' pks =>
      obtain rfl := Option.some.inj hcall
      exact hfirst ⟨r', pks, hc⟩
    | deactivation payee => cases hcall
  · rw [hcalls]
    by_cases hji : j = i
    · subst hji
      rw [if_pos rfl]
      constructor
      · rintro ⟨pks, hmem⟩
        rcases List.mem_append.mp hmem with hmem | hmem
        · exact absurd ⟨r', pks, hmem⟩ hfirst
        · cases List.mem_singleton.mp hmem
          exact ⟨_, _, rfl⟩
      · rintro ⟨a, b, hreturned⟩
        cases hreturned
        exact ⟨_, List.mem_append_right _ (List.mem_singleton.mpr rfl)⟩
    · rw [if_neg hji, ← h.returned j r']
      simp [hji]
  · rw [hcalls] at hj
    by_cases hji : j = i
    · rw [if_pos hji] at hj
      cases hj
      exact hx.count.trans hlength
    · rw [if_neg hji] at hj
      exact h.counts j r' a b hj
  · rcases List.mem_append.mp hmem with hmem | hmem
    · exact h.pks j r' pks hmem
    · cases List.mem_singleton.mp hmem
      simpa using hlength
  · rw [running_eq_some, hcalls] at hj
    by_cases hji : j = i
    · rw [if_pos hji] at hj
      cases hj
    · rw [if_neg hji] at hj
      exact h.others hcall hheld hji (running_eq_some.mpr hj)

theorem Invariant.deactivate {payee : String} {obj : GovStackBeneficiary} (h : Invariant s₀ s)
    (hobj : s.beneficiaries.find payee = some obj) (hheld : Held s (.deactivate payee)) :
    Invariant s₀ { s with
      beneficiaries := s.beneficiaries.put { obj with isActive := false }
      committed := s.committed ++ [.deactivation payee] } := by
  have hpayee : obj.payeeFunctionalId = payee := Keyed.key_of_find hobj
  have hfind : (s.beneficiaries.put { obj with isActive := false }).find =
      Function.update s.beneficiaries.find payee (some { obj with isActive := false }) := by
    rw [Keyed.find_put, hpayee]
  refine ⟨⟨?_, ?_, ?_, fun j r' => ?_, h.counts, fun j r' pks hmem => ?_⟩, fun j r' y hj => ?_⟩
  · rw [Commit.allRows_append_one, ← h.rows, Commit.rows, hobj]
    exact hfind
  · rw [Commit.allEntries_append_one, Commit.entries, List.append_nil]
    exact h.audits
  · rw [List.filterMap_append]
    exact (List.append_nil _).symm ▸ h.once
  · rw [← h.returned j r']
    simp
  · exact h.pks j r' pks (by simpa using hmem)
  · refine (h.running j r' y hj).frame fun k hlooks => ?_
    rw [hfind]
    by_cases hk : k = payee
    · subst hk
      rw [Function.update_self, hobj]
      cases hactive : obj.isActive with
      | false => rw [← hactive]
      | true =>
        have hnot := hheld obj hobj hactive _ (List.mem_of_getElem? (running_eq_some.mp hj))
        rw [hlooks] at hnot
        cases hnot
    · exact Function.update_of_ne hk _ _

theorem Invariant.receive (h : Invariant s₀ s) : Invariant s₀ (s.receive r) := by
  have hcalls (j : ℕ) (c : Call) : (s.receive r).calls[j]? = some c ↔ s.calls[j]? = some c ∨
      j = s.calls.length ∧ c = ⟨r, .running { todo := r.beneficiaries }⟩ := by
    unfold MapperStore.receive
    rw [List.getElem?_append]
    split
    next hlt =>
      have hne : j ≠ s.calls.length := Nat.ne_of_lt hlt
      simp [hne]
    next hge =>
      rw [List.getElem?_eq_none (Nat.not_lt.mp hge), List.getElem?_singleton]
      simp only [reduceCtorEq, false_or, Option.ite_none_right_eq_some, Option.some.injEq]
      constructor
      · rintro ⟨hj, rfl⟩
        exact ⟨by omega, rfl⟩
      · rintro ⟨rfl, rfl⟩
        exact ⟨Nat.sub_self _, rfl⟩
  have hreturned (j : ℕ) (r' : Upsert) (a b : ℕ) :
      (s.receive r).calls[j]? = some ⟨r', .returned a b⟩ ↔
        s.calls[j]? = some ⟨r', .returned a b⟩ := by
    rw [hcalls]
    simp
  refine ⟨⟨h.rows, h.audits, h.once, fun j r' => ?_, fun j r' a b hj => ?_, h.pks⟩,
    fun j r' y hj => ?_⟩
  · simp only [hreturned]
    exact h.returned j r'
  · exact h.counts j r' a b ((hreturned j r' a b).mp hj)
  · rcases (hcalls j _).mp (running_eq_some.mp hj) with hj | ⟨-, hj⟩
    · exact h.running j r' y (running_eq_some.mpr hj)
    · cases hj
      exact UpsertRun.consistent_start

theorem invariant_start (h : mapper.Init s) : Invariant s s := by
  obtain ⟨hcalls, hcommitted⟩ := h
  refine ⟨⟨?_, ?_, ?_, fun i r => ?_, fun i r a b hi => ?_, fun i r pks hmem => ?_⟩,
    fun i r x hi => ?_⟩
  · rw [hcommitted]
    rfl
  · rw [hcommitted]
    exact (List.append_nil _).symm
  · rw [hcommitted]
    exact List.nodup_nil
  · simp [hcalls, hcommitted]
  · simp [hcalls] at hi
  · simp [hcommitted] at hmem
  · rw [running_eq_some, hcalls] at hi
    cases hi

theorem Invariant.step (h : Invariant s₀ s) (hheld : Held s l) (hstep : mapper.step s l = some t) :
    Invariant s₀ t := by
  cases run_moves hstep with
  | received _ r => exact h.receive
  | turned _ hcall hturn =>
    refine h.setProgress hcall (fun _ _ => nofun) fun y hy => ?_
    cases hy
    exact hturn.consistent (h.running _ _ _ hcall)
  | committed hcall hsaving htodo => exact h.commit hcall hsaving htodo hheld
  | failed _ hcall => exact h.setProgress hcall (fun _ _ => nofun) fun y hy => nomatch hy
  | deactivated hobj => exact h.deactivate hobj hheld

theorem invariant_of_later (h₀ : mapper.Init s₀) (h : (mapper.under Held).Later s₀ s) :
    Invariant s₀ s :=
  h.induct (invariant_start h₀) fun _ _ _ _ hu hstep =>
    hu.step (Machine.under_step.mp hstep).1 (Machine.under_step.mp hstep).2

end MapperStore

/-! ## What a serial run keeps -/

namespace Commit

variable {m : String → Option GovStackBeneficiary} {cs : List Commit} {c : Commit}
  {payee : String} {obj : GovStackBeneficiary}

/-- A request with this item -/
def Sends (c : Commit) (item : BeneficiaryItem) : Prop :=
  ∃ i r pks, c = .call i r pks ∧ item ∈ r.beneficiaries

/-- What becomes of a row: a field is provided by an item for the payee or stays, and a row that has
been deactivated stays so. -/
structure Spares (c : Commit) (obj obj' : GovStackBeneficiary) : Prop where
  paymentModality : obj'.paymentModality ≠ obj.paymentModality → ∃ item, c.Sends item ∧
    item.payeeFunctionalId = obj.payeeFunctionalId ∧ item.modality ≠ "" ∧
      obj'.paymentModality = item.modality
  financialAddress : obj'.financialAddress ≠ obj.financialAddress → ∃ item, c.Sends item ∧
    item.payeeFunctionalId = obj.payeeFunctionalId ∧ item.address ≠ "" ∧
      obj'.financialAddress = item.address
  isActive : obj.isActive = false → obj'.isActive = false

theorem orElse_cases (a b : String) : orElse a b = b ∨ a ≠ "" ∧ orElse a b = a := by
  unfold orElse
  split
  next => exact .inl rfl
  next ha => exact .inr ⟨ha, rfl⟩

theorem Spares.refl : c.Spares obj obj where
  paymentModality h := absurd rfl h
  financialAddress h := absurd rfl h
  isActive := id

/-- An item of the request for the payee revises the row. -/
theorem Spares.revise {r : Upsert} {item : BeneficiaryItem} {obj' : GovStackBeneficiary}
    (h : c.Spares obj obj') (hitem : c.Sends item)
    (hpayee : item.payeeFunctionalId = obj.payeeFunctionalId) :
    c.Spares obj (r.revise item obj').1 := by
  rw [Upsert.revise_fst]
  refine ⟨fun hchanged => ?_, fun hchanged => ?_, h.isActive⟩
  · rcases orElse_cases item.modality obj'.paymentModality with hkept | ⟨hne, hset⟩
    · simp only [hkept] at hchanged ⊢
      exact h.paymentModality hchanged
    · exact ⟨item, hitem, hpayee, hne, hset⟩
  · rcases orElse_cases item.address obj'.financialAddress with hkept | ⟨hne, hset⟩
    · simp only [hkept] at hchanged ⊢
      exact h.financialAddress hchanged
    · exact ⟨item, hitem, hpayee, hne, hset⟩

theorem rows_spares (c : Commit) (hobj : m payee = some obj)
    (hpayee : obj.payeeFunctionalId = payee) :
    ∃ obj', c.rows m payee = some obj' ∧ c.Spares obj obj' := by
  cases c with
  | call i r pks =>
    refine KeyedOp.runAll_induct
      (P := fun f => ∃ obj', f = some obj' ∧ (Commit.call i r pks).Spares obj obj')
      ⟨obj, hobj, .refl⟩ ?_
    rintro o ho hkey f ⟨obj', rfl, hspares⟩
    obtain ⟨⟨item, pk⟩, hmem, rfl⟩ := List.mem_map.mp ho
    have hitem : (Commit.call i r pks).Sends item := ⟨i, r, pks, rfl, (List.of_mem_zip hmem).1⟩
    exact ⟨_, rfl, hspares.revise hitem (hkey.trans hpayee.symm)⟩
  | deactivation k =>
    simp only [rows]
    by_cases hk : payee = k
    · subst hk
      rw [Function.update_self, hobj]
      exact ⟨_, rfl, fun h => absurd rfl h, fun h => absurd rfl h, fun _ => rfl⟩
    · rw [Function.update_of_ne hk]
      exact ⟨obj, hobj, .refl⟩

theorem rows_isSome (h : (m payee).isSome = true) : (c.rows m payee).isSome = true := by
  cases c with
  | call i r pks =>
    exact KeyedOp.runAll_induct (P := fun f => f.isSome = true) h fun _ _ _ _ _ => rfl
  | deactivation k =>
    simp only [rows]
    by_cases hk : payee = k
    · subst hk
      simpa using h
    · rwa [Function.update_of_ne hk]

/-- There is a row for each item of a committed call. -/
theorem allRows_isSome {i : ℕ} {r : Upsert} {pks : List Uuid} {item : BeneficiaryItem}
    (hcall : .call i r pks ∈ cs) (hpks : pks.length = r.beneficiaries.length)
    (hitem : item ∈ r.beneficiaries) : (allRows m cs item.payeeFunctionalId).isSome = true := by
  obtain ⟨before, after, rfl⟩ := List.append_of_mem hcall
  have hrow : (rows (allRows m before) (.call i r pks) item.payeeFunctionalId).isSome = true := by
    rw [← List.map_fst_zip (Nat.le_of_eq hpks.symm)] at hitem
    obtain ⟨t, ht, rfl⟩ := List.mem_map.mp hitem
    exact KeyedOp.runAll_isSome ⟨r.op t, List.mem_map.mpr ⟨t, ht, rfl⟩, rfl⟩
  have hafter : ∀ (ds : List Commit) (m : String → Option GovStackBeneficiary),
      (m item.payeeFunctionalId).isSome = true →
        (allRows m ds item.payeeFunctionalId).isSome = true := by
    intro ds
    induction ds with
    | nil => exact fun _ h => h
    | cons d ds ih => exact fun _ h => ih _ (rows_isSome h)
  rw [allRows, List.foldl_append]
  exact hafter after _ hrow

end Commit

/-- In every run in which no commit changes a row that another open call has got, the calls and the
deactivations take effect one after the other. There is one row for each item of a call that has
returned. -/
theorem requests_serialised {s₀ s : MapperStore} (h₀ : mapper.Init s₀)
    (h : (mapper.under Held).Later s₀ s) : Serialised s₀ s ∧
      (∀ (i : ℕ) r a b, s.calls[i]? = some ⟨r, .returned a b⟩ → ∀ item ∈ r.beneficiaries,
        s.beneficiaries.rows.countP (·.payeeFunctionalId = item.payeeFunctionalId) = 1) ∧
      ∀ c ∈ s.committed, ∀ (g : Registry) payee obj, g.find payee = some obj →
        ∃ obj', c.rows g.find payee = some obj' ∧ c.Spares obj obj' := by
  have hserial := (MapperStore.invariant_of_later h₀ h).toSerialised
  refine ⟨hserial, fun i r a b hreturned item hitem => ?_, fun c _ g payee obj hobj => ?_⟩
  · obtain ⟨pks, hcall⟩ := (hserial.returned i r).mpr ⟨a, b, hreturned⟩
    have hrow := Commit.allRows_isSome (m := s₀.beneficiaries.find) hcall
      (hserial.pks i r pks hcall) hitem
    rw [← hserial.rows] at hrow
    obtain ⟨obj, hobj⟩ := Option.isSome_iff_exists.mp hrow
    exact Keyed.count_find hobj
  · exact c.rows_spares hobj (Keyed.key_of_find hobj)

/-! ## Two requests at once -/

/-- The registry with one beneficiary -/
def oneBeneficiary : MapperStore where
  beneficiaries := ⟨[⟨1, "ab", "01", "CA-1", "bb-1", "", true⟩], by decide⟩

/-- The first request sets the modality of the beneficiary, and registers another one. -/
def newModality : BeneficiaryRequest :=
  ⟨"request-0001", "bb-1", [⟨"ab", some "02", none⟩, ⟨"cd", some "01", some "CA-3"⟩], ""⟩

/-- The second one sets the address. -/
def newAddress : BeneficiaryRequest := ⟨"request-0002", "bb-1", [⟨"ab", none, some "CA-2"⟩], ""⟩

def arrivals : List MapperStep := [.update newModality, .update newAddress]

/-- The second request gets the beneficiary when the first one is over. -/
def inTurn : MapperStore :=
  (mapper.under Held).final oneBeneficiary (arrivals ++ [.getOrCreate 0 0, .save 0,
    .getOrCreate 0 2, .commit 0, .getOrCreate 1 0, .save 1, .commit 1, .deactivate "ab"])

theorem requests_in_turn : Serialised oneBeneficiary inTurn ∧
    inTurn.beneficiaries.rows = [⟨1, "ab", "02", "CA-2", "bb-1", "", false⟩,
      ⟨2, "cd", "01", "CA-3", "bb-1", "", true⟩] ∧ inTurn.audits.length = 3 :=
  ⟨(requests_serialised ⟨rfl, rfl⟩ (Machine.Later.final oneBeneficiary _)).1, by decide +kernel,
    by decide +kernel⟩

/-- Both requests have got the beneficiary before either saves it. -/
def bothGot : MapperStore :=
  mapper.final oneBeneficiary (arrivals ++ [.getOrCreate 0 0, .getOrCreate 1 0, .save 0,
    .getOrCreate 0 2, .commit 0, .save 1, .commit 1])

/-- The beneficiary is deactivated between the get and the save. -/
def deactivatedBetween : MapperStore :=
  mapper.final oneBeneficiary (arrivals ++ [.getOrCreate 1 0, .deactivate "ab", .save 1, .commit 1])

/-- The second save takes the modality back, and neither order of the requests gives the row. In the
other run the save takes back the deactivation. -/
theorem modality_taken_back :
    (mapper.Later oneBeneficiary bothGot ∧
      bothGot.committed = [.call 0 (GovStackBeneficiaryService.update newModality) [1, 2],
        .call 1 (GovStackBeneficiaryService.update newAddress) [1]] ∧
      (bothGot.beneficiaries.find "ab").map (·.paymentModality) = some "01" ∧
      (Commit.allRows oneBeneficiary.beneficiaries.find bothGot.committed "ab").map
        (·.paymentModality) = some "02" ∧
      (Commit.allRows oneBeneficiary.beneficiaries.find bothGot.committed.reverse "ab").map
        (·.paymentModality) = some "02") ∧
    mapper.Later oneBeneficiary deactivatedBetween ∧
      deactivatedBetween.committed = [.deactivation "ab",
        .call 1 (GovStackBeneficiaryService.update newAddress) [1]] ∧
      (deactivatedBetween.beneficiaries.find "ab").map (·.isActive) = some true := by
  refine ⟨⟨.final _ _, rfl, ?_, ?_, ?_⟩, .final _ _, rfl, ?_⟩ <;> decide +kernel

end Civicos.Payments.Mapper
