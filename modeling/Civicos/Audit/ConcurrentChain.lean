import Civicos.Audit.ConcurrentWriters

/-!
# The chain under concurrency

One transaction at a time inserts entries, because it has locked the last committed one; this is
lost when a call that has waited goes on from an entry that is not the last one any more.
-/
namespace Civicos.Audit.ConcurrentChain

open Library

variable {P : Type} {s s' : State P} {t u : ℕ} {e c : Entry P} {l : Step P} {payload : P}

/-! ## The invariant -/

/-- A transaction that is about to insert after an entry, or has inserted -/
def State.Engaged (s : State P) (t : ℕ) : Prop :=
  (∃ e, s.status t = .selected (some e)) ∨
    (s.status t).isCommitted = false ∧ ∃ e ∈ s.entries, e.txn = t

/-- One transaction at a time is engaged, and it has locked the last committed entry. -/
structure Inv (s : State P) : Prop where
  ids : s.entries.Pairwise (·.id < ·.id)
  next : ∀ e ∈ s.entries, e.id < s.next
  chained : Chained (·.prevHash) (·.entryHash) .empty s.entries
  committedFirst : ∃ own, s.entries = s.committed ++ own ∧
    ∀ e ∈ own, (s.status e.txn).isCommitted = false
  one : ∀ t u, s.Engaged t → s.Engaged u → t = u
  base : ∀ t c, s.Engaged t → s.committed.getLast? = some c → (c.id, t) ∈ s.locks
  last : ∀ t e, s.status t = .selected (some e) → (s.visible t).getLast? = some e

theorem mem_visible : e ∈ s.visible t ↔
    e ∈ s.entries ∧ ((s.status e.txn).isCommitted = true ∨ e.txn = t) := by
  simp [State.visible]

theorem mem_committed : e ∈ s.committed ↔
    e ∈ s.entries ∧ (s.status e.txn).isCommitted = true := by
  simp [State.committed]

/-- Whoever is engaged sees all entries. -/
theorem Inv.visible_eq (hs : Inv s) (ht : s.Engaged t) : s.visible t = s.entries := by
  refine List.filter_eq_self.mpr fun e he => ?_
  cases hcommitted : (s.status e.txn).isCommitted with
  | true => rfl
  | false =>
    have hother : s.Engaged e.txn := .inr ⟨hcommitted, e, he, rfl⟩
    simp [hs.one _ _ hother ht]

/-- Whoever is not engaged sees the committed entries. -/
theorem visible_eq_committed (ht : ¬ s.Engaged t) (hlive : (s.status t).isCommitted = false) :
    s.visible t = s.committed := by
  refine List.filter_congr fun e he => ?_
  cases hcommitted : (s.status e.txn).isCommitted with
  | true => rfl
  | false =>
    have hne : e.txn ≠ t := fun h => ht (.inr ⟨hlive, e, he, h⟩)
    simp [hne]

theorem locked_iff : s.locked t e = true ↔ ∃ u, (e.id, u) ∈ s.locks ∧ u ≠ t := by
  simp only [State.locked, List.any_eq_true, decide_eq_true_eq]
  constructor
  · rintro ⟨⟨i, u⟩, hmem, rfl, hne⟩
    exact ⟨u, hmem, hne⟩
  · rintro ⟨u, hmem, hne⟩
    exact ⟨(e.id, u), hmem, rfl, hne⟩

/-! ## Statements -/

/-- A transaction that is not committed goes on to another such state. -/
theorem committed_withStatus {x : Status P} (ht : (s.status t).isCommitted = false)
    (hx : x.isCommitted = false) : (s.withStatus t x).committed = s.committed := by
  refine List.filter_congr fun e _ => ?_
  by_cases hte : e.txn = t
  · simp [State.withStatus, hte, ht, hx]
  · simp [State.withStatus, hte]

theorem engaged_of_ne {x : Status P} (hu : s'.Engaged u) (hne : u ≠ t)
    (hstatus : s'.status = Function.update s.status t x) (hentries : s'.entries = s.entries) :
    s.Engaged u := by
  unfold State.Engaged at hu
  rw [hstatus, hentries, Function.update_of_ne hne] at hu
  exact hu

/-- A transaction that selects no entry does not become engaged. -/
theorem engaged_of_idled {x : Status P} (hu : s'.Engaged u) (hx : ∀ e, x ≠ .selected (some e))
    (hstatus : s'.status = Function.update s.status t x) (hentries : s'.entries = s.entries)
    (ht : (s.status t).isCommitted = false) : s.Engaged u := by
  by_cases hut : u = t
  · subst hut
    rcases hu with ⟨e, he⟩ | ⟨-, hown⟩
    · rw [hstatus, Function.update_self] at he
      exact absurd he (hx e)
    · exact .inr ⟨ht, hentries ▸ hown⟩
  · exact engaged_of_ne hu hut hstatus hentries

/-- A statement that changes no entry; whoever selects an entry then is the only one engaged. -/
theorem Inv.restated (hs : Inv s) {x : Status P}
    (hstatus : s'.status = Function.update s.status t x) (hentries : s'.entries = s.entries)
    (hnext : s'.next = s.next)
    (ht : (s.status t).isCommitted = false) (hx : x.isCommitted = false)
    (hselected : ∀ e, x = .selected (some e) →
      (s.visible t).getLast? = some e ∧ ∀ u, s.Engaged u → u = t)
    (hlocks : ∀ u c, s'.Engaged u → s.committed.getLast? = some c → (c.id, u) ∈ s'.locks) :
    Inv s' := by
  have hsame : ∀ u, (s'.status u).isCommitted = (s.status u).isCommitted := by
    intro u
    rw [hstatus]
    by_cases hut : u = t
    · rw [hut, Function.update_self, hx, ht]
    · rw [Function.update_of_ne hut]
  have hcommitted : s'.committed = s.committed := by
    simp only [State.committed, hentries, hsame]
  have hvisible : ∀ u, s'.visible u = s.visible u := by
    intro u
    simp only [State.visible, hentries, hsame]
  -- a transaction that becomes engaged has just selected an entry
  have hbefore : ∀ u, s'.Engaged u → s.Engaged u ∨ u = t ∧ ∀ v, s.Engaged v → v = t := by
    intro u hu
    by_cases hut : u = t
    · subst hut
      rcases hu with ⟨e, he⟩ | ⟨-, hown⟩
      · rw [hstatus, Function.update_self] at he
        exact .inr ⟨rfl, (hselected e he).2⟩
      · exact .inl (.inr ⟨ht, hentries ▸ hown⟩)
    · exact .inl (engaged_of_ne hu hut hstatus hentries)
  refine ⟨hentries ▸ hs.ids, ?_, hentries ▸ hs.chained, ?_, ?_, ?_, ?_⟩
  · rw [hentries, hnext]
    exact hs.next
  · obtain ⟨own, hsplit, hown⟩ := hs.committedFirst
    refine ⟨own, by rw [hentries, hcommitted]; exact hsplit, fun e he => ?_⟩
    rw [hsame]
    exact hown e he
  · intro u v hu hv
    rcases hbefore u hu with hu | ⟨rfl, hall⟩ <;> rcases hbefore v hv with hv | ⟨rfl, hall'⟩
    · exact hs.one u v hu hv
    · exact hall' u hu
    · exact (hall v hv).symm
    · rfl
  · intro u c hu hc
    exact hlocks u c hu (hcommitted ▸ hc)
  · intro u e he
    rw [hvisible]
    rw [hstatus] at he
    by_cases hut : u = t
    · subst hut
      rw [Function.update_self] at he
      exact (hselected e he).1
    · rw [Function.update_of_ne hut] at he
      exact hs.last u e he

/-- The last entry that a transaction sees, when no other transaction has locked it. -/
theorem Inv.taken (hs : Inv s) (ht : (s.status t).isCommitted = false)
    (hlast : (s.visible t).getLast? = some e) (hfree : s.locked t e = false) :
    Inv (s.take t e) := by
  have halone : ∀ u, s.Engaged u → u = t := by
    intro u hu
    by_contra hne
    have hidle : ¬ s.Engaged t := fun h => hne (hs.one u t hu h)
    rw [visible_eq_committed hidle ht] at hlast
    have hlocked : s.locked t e = true := locked_iff.mpr ⟨u, hs.base u e hu hlast, hne⟩
    rw [hfree] at hlocked
    cases hlocked
  refine hs.restated (x := .selected (some e)) rfl rfl rfl ht rfl ?_ ?_
  · rintro a ⟨⟩
    exact ⟨hlast, halone⟩
  · intro u c hu hc
    obtain rfl : u = t := by
      by_contra hne
      exact hne (halone u (engaged_of_ne hu hne rfl rfl))
    by_cases hengaged : s.Engaged u
    · exact List.mem_cons_of_mem _ (hs.base u c hengaged hc)
    · rw [visible_eq_committed hengaged ht, hc] at hlast
      cases hlast
      exact List.mem_cons_self

theorem Inv.idled (hs : Inv s) {x : Status P} (ht : (s.status t).isCommitted = false)
    (hx : x.isCommitted = false) (hnone : ∀ e, x ≠ .selected (some e)) :
    Inv (s.withStatus t x) := by
  refine hs.restated rfl rfl rfl ht hx (fun e he => absurd he (hnone e)) fun u c hu hc => ?_
  exact hs.base u c (engaged_of_idled hu hnone rfl rfl ht) hc

theorem Inv.selects (hs : Inv s) (h : s.select t = some s') : Inv s' := by
  unfold State.select at h
  split at h
  next hidle _ =>
    cases h
    exact hs.idled (by rw [hidle]; rfl) rfl nofun
  next e hidle hlast =>
    have ht : (s.status t).isCommitted = false := by rw [hidle]; rfl
    obtain rfl := Option.some.inj h
    split
    next => exact hs.idled ht rfl nofun
    next hfree => exact hs.taken ht hlast (by simpa using hfree)
  next => cases h

theorem Inv.wakes [DecidableEq P] (hs : Inv s) (hc : s.upToDate t = true)
    (h : s.wake t = some s') : Inv s' := by
  unfold State.wake at h
  split at h
  next e hwaiting =>
    split at h
    next => cases h
    next hfree =>
      cases h
      unfold State.upToDate at hc
      rw [hwaiting] at hc
      exact hs.taken (by rw [hwaiting]; rfl) (of_decide_eq_true hc) (by simpa using hfree)
  next => cases h

/-- The own entries of a transaction come after all committed ones. -/
theorem Inv.lt_own (hs : Inv s) (ht : (s.status t).isCommitted = false)
    (hown : ∃ e ∈ s.entries, e.txn = t) (hlast : (s.visible t).getLast? = some e)
    (hc : s.committed.getLast? = some c) : c.id < e.id := by
  rw [hs.visible_eq (.inr ⟨ht, hown⟩)] at hlast
  obtain ⟨own, hsplit, -⟩ := hs.committedFirst
  obtain ⟨a, ha, hat⟩ := hown
  have hmem : a ∈ own := by
    rcases List.mem_append.mp (hsplit ▸ ha) with hcommitted | hmem
    · have hlive := (mem_committed.mp hcommitted).2
      rw [hat, ht] at hlive
      cases hlive
    · exact hmem
  have hids := hs.ids
  rw [hsplit] at hids hlast
  rw [List.getLast?_append_of_ne_nil _ (List.ne_nil_of_mem hmem)] at hlast
  exact (List.pairwise_append.mp hids).2.2 c (List.mem_of_getLast? hc) e
    (List.mem_of_getLast? hlast)

theorem Inv.fails (hs : Inv s) (h : s.fail t = some s') : Inv s' := by
  unfold State.fail at h
  split at h
  next e hwaiting =>
    cases h
    exact hs.idled (by rw [hwaiting]; rfl) rfl nofun
  next last hselected =>
    cases h
    have ht : (s.status t).isCommitted = false := by rw [hselected]; rfl
    refine hs.restated (x := .idle) rfl rfl rfl ht rfl nofun fun u c hu hc => ?_
    have hbefore : s.Engaged u := engaged_of_idled (x := .idle) hu nofun rfl rfl ht
    refine List.mem_filter.mpr ⟨hs.base u c hbefore hc, decide_eq_true ?_⟩
    rintro ⟨hid, rfl⟩
    -- what is given back is an own entry
    cases last with
    | none => cases hid
    | some e =>
      have hown : ∃ a ∈ s.entries, a.txn = u := by
        rcases hu with ⟨a, ha⟩ | ⟨-, hown⟩
        · simp [State.withStatus] at ha
        · exact hown
      have hlt := hs.lt_own ht hown (hs.last u e hselected) hc
      have hid : e.id = c.id := of_decide_eq_true hid
      omega
  next => cases h

/-- One more entry after the last one -/
theorem Inv.inserted (hs : Inv s) (ht : (s.status t).isCommitted = false)
    (halone : ∀ u, s.Engaged u → u = t)
    (hbase : ∀ c, s.committed.getLast? = some c → (c.id, t) ∈ s.locks) :
    Inv (s.append t (s.entry t payload s.entries.getLast?)) := by
  generalize hnew : s.entry t payload s.entries.getLast? = new
  have hid : new.id = s.next := hnew ▸ rfl
  have htxn : new.txn = t := hnew ▸ rfl
  have hidle : ((s.append t new).status t).isCommitted = false := by
    simp [State.append, State.withStatus, Status.isCommitted]
  have hcommitted : (s.append t new).committed = s.committed := by
    have hold : (s.withStatus t .idle).committed = s.committed := committed_withStatus ht rfl
    change (s.entries ++ [new]).filter (fun e => ((s.append t new).status e.txn).isCommitted) = _
    rw [List.filter_append, List.filter_singleton, htxn, hidle, ← hold]
    exact List.append_nil _
  have hbefore : ∀ u, (s.append t new).Engaged u → u = t := by
    intro u hu
    by_contra hne
    refine hne (halone u ?_)
    unfold State.Engaged at hu
    have hstatus : (s.append t new).status u = s.status u := Function.update_of_ne hne _ _
    rw [hstatus] at hu
    refine hu.imp_right fun ⟨hlive, e, he, heu⟩ => ⟨hlive, e, ?_, heu⟩
    rcases List.mem_append.mp he with hold | hlast
    · exact hold
    · obtain rfl := List.mem_singleton.mp hlast
      exact absurd (heu.symm.trans htxn) hne
  refine ⟨?_, ?_, ?_, ?_, ?_, ?_, ?_⟩
  · refine List.pairwise_append.mpr ⟨hs.ids, List.pairwise_singleton _ _, fun e he a ha => ?_⟩
    obtain rfl := List.mem_singleton.mp ha
    rw [hid]
    exact hs.next e he
  · intro e he
    rcases List.mem_append.mp he with hold | hlast
    · exact Nat.lt_succ_of_lt (hid ▸ hs.next e hold)
    · obtain rfl := List.mem_singleton.mp hlast
      exact Nat.lt_succ_self _
  · refine Chained.concat.mpr ⟨hs.chained, ?_⟩
    rw [tip_eq, ← hnew]
    rfl
  · obtain ⟨own, hsplit, hown⟩ := hs.committedFirst
    refine ⟨own ++ [new], ?_, fun e he => ?_⟩
    · rw [hcommitted, ← List.append_assoc, ← hsplit]
      rfl
    · rcases List.mem_append.mp he with hold | hlast
      · have hlive := hown e hold
        by_cases het : e.txn = t
        · rw [het]
          exact hidle
        · change (Function.update s.status t .idle e.txn).isCommitted = false
          rw [Function.update_of_ne het]
          exact hlive
      · obtain rfl := List.mem_singleton.mp hlast
        rw [htxn]
        exact hidle
  · intro u v hu hv
    exact (hbefore u hu).trans (hbefore v hv).symm
  · intro u c hu hc
    obtain rfl := hbefore u hu
    exact hbase c (hcommitted ▸ hc)
  · intro u e he
    obtain rfl := hbefore u (.inl ⟨e, he⟩)
    simp [State.append, State.withStatus] at he

theorem Inv.inserts (hs : Inv s) (hc : s.opening t = true) (h : s.insert t payload = some s') :
    Inv s' := by
  unfold State.insert at h
  split at h
  next last hselected =>
    cases h
    have ht : (s.status t).isCommitted = false := by rw [hselected]; rfl
    cases last with
    | none =>
      -- nobody else has an entry
      unfold State.opening at hc
      rw [hselected] at hc
      have hempty : s.entries = [] := List.isEmpty_iff.mp hc
      have hlast : s.entries.getLast? = none := by rw [hempty]; rfl
      rw [← hlast]
      refine hs.inserted ht (fun u hu => ?_) fun c hc => ?_
      · rcases hu with ⟨e, he⟩ | ⟨-, e, he, -⟩
        · have hvisible := mem_visible.mp (List.mem_of_getLast? (hs.last u e he))
          rw [hempty] at hvisible
          cases hvisible.1
        · rw [hempty] at he
          cases he
      · simp [State.committed, hempty] at hc
    | some e =>
      have hengaged : s.Engaged t := .inl ⟨e, hselected⟩
      have hlast := hs.last t e hselected
      rw [hs.visible_eq hengaged] at hlast
      rw [← hlast]
      exact hs.inserted ht (fun u hu => hs.one u t hu hengaged) (hs.base t · hengaged)
  next => cases h

theorem ne_txn (ht : (s.status t).isCommitted = false) (hidle : ¬ s.Engaged t)
    (he : e ∈ s.entries) : e.txn ≠ t :=
  fun h => hidle (.inr ⟨ht, e, he, h⟩)

/-- The end of a transaction, after which none of its entries waits for a commit. -/
theorem Inv.closed (hs : Inv s) {x : Status P} (ht : (s.status t).isCommitted = false)
    (hx : ∀ e, x ≠ .selected (some e)) (hstatus : s'.status = Function.update s.status t x)
    (hnext : s'.next = s.next) (hlocks : s'.locks = s.locks.filter (·.2 ≠ t))
    (hleft : ∀ e ∈ s'.entries, e.txn = t → x.isCommitted = true)
    (hidle : ¬ s.Engaged t → s'.entries = s.entries)
    (hengaged : s.Engaged t → s'.entries <+: s.entries ∧ s'.committed = s'.entries) : Inv s' := by
  have hinitial : s'.entries <+: s.entries := by
    by_cases h : s.Engaged t
    · exact (hengaged h).1
    · exact hidle h ▸ List.prefix_refl _
  have hself : s'.status t = x := by rw [hstatus, Function.update_self]
  have hother : ∀ u, u ≠ t → s'.status u = s.status u := fun u hne => by
    rw [hstatus, Function.update_of_ne hne]
  have hbefore : ∀ u, s'.Engaged u → u ≠ t ∧ s.Engaged u := by
    intro u hu
    have hne : u ≠ t := by
      rintro rfl
      rcases hu with ⟨e, he⟩ | ⟨hlive, e, he, htxn⟩
      · exact hx e (hself ▸ he)
      · rw [hself, hleft e he htxn] at hlive
        cases hlive
    refine ⟨hne, ?_⟩
    unfold State.Engaged at hu
    rw [hother u hne] at hu
    exact hu.imp_right fun ⟨hlive, e, he, heu⟩ => ⟨hlive, e, hinitial.subset he, heu⟩
  have hquiet : ∀ u, s'.Engaged u → ¬ s.Engaged t := by
    intro u hu h
    obtain ⟨hne, hu⟩ := hbefore u hu
    exact hne (hs.one u t hu h)
  -- without entries of the transaction, everybody sees what they have seen
  have hcommitted : ¬ s.Engaged t → s'.committed = s.committed := by
    intro h
    unfold State.committed
    rw [hidle h]
    exact List.filter_congr fun e he => by rw [hother _ (ne_txn ht h he)]
  have hvisible : ∀ u, ¬ s.Engaged t → s'.visible u = s.visible u := by
    intro u h
    unfold State.visible
    rw [hidle h]
    exact List.filter_congr fun e he => by rw [hother _ (ne_txn ht h he)]
  refine ⟨hs.ids.sublist hinitial.sublist, ?_, ?_, ?_, ?_, ?_, ?_⟩
  · intro e he
    rw [hnext]
    exact hs.next e (hinitial.subset he)
  · obtain ⟨rest, hrest⟩ := hinitial
    have hchained := hs.chained
    rw [← hrest] at hchained
    exact (Chained.append.mp hchained).1
  · by_cases h : s.Engaged t
    · exact ⟨[], by rw [(hengaged h).2, List.append_nil], by simp⟩
    · obtain ⟨own, hsplit, hown⟩ := hs.committedFirst
      refine ⟨own, by rw [hidle h, hcommitted h]; exact hsplit, fun e he => ?_⟩
      have hmem : e ∈ s.entries := hsplit ▸ List.mem_append_right _ he
      rw [hother _ (ne_txn ht h hmem)]
      exact hown e he
  · intro u v hu hv
    exact hs.one u v (hbefore u hu).2 (hbefore v hv).2
  · intro u c hu hc
    obtain ⟨hne, hengaged⟩ := hbefore u hu
    rw [hcommitted (hquiet u hu)] at hc
    rw [hlocks]
    exact List.mem_filter.mpr ⟨hs.base u c hengaged hc, by simpa using hne⟩
  · intro u e he
    have hu : s'.Engaged u := .inl ⟨e, he⟩
    rw [hvisible u (hquiet u hu)]
    rw [hother u (hbefore u hu).1] at he
    exact hs.last u e he

/-- Whatever is not committed belongs to the transaction that is engaged. -/
theorem Inv.committed_or (hs : Inv s) (ht : s.Engaged t) (he : e ∈ s.entries) :
    e.txn = t ∨ (s.status e.txn).isCommitted = true := by
  cases hlive : (s.status e.txn).isCommitted with
  | true => exact .inr rfl
  | false => exact .inl (hs.one _ _ (.inr ⟨hlive, e, he, rfl⟩) ht)

theorem Inv.commits (hs : Inv s) (h : s.commit t = some s') : Inv s' := by
  unfold State.commit at h
  split at h
  next hstatus =>
    cases h
    have ht : (s.status t).isCommitted = false := by rw [hstatus]; rfl
    refine hs.closed (x := .committed) ht nofun rfl rfl rfl (fun _ _ _ => rfl) (fun _ => rfl)
      fun hengaged => ⟨List.prefix_refl _, List.filter_eq_self.mpr fun e he => ?_⟩
    change (Function.update s.status t .committed e.txn).isCommitted = true
    rcases hs.committed_or hengaged he with htxn | hcommitted
    · rw [htxn, Function.update_self]
      rfl
    · have hne : e.txn ≠ t := by
        rintro htxn
        rw [htxn, ht] at hcommitted
        cases hcommitted
      rw [Function.update_of_ne hne]
      exact hcommitted
  next => cases h

theorem rollback_ok (h : s.rollback t = some s') : (s.status t).isCommitted = false ∧
    s' = { s.close t .rolledBack with entries := s.entries.filter (·.txn ≠ t) } := by
  unfold State.rollback at h
  split at h
  next => cases h
  next => cases h
  next hcommitted _ =>
    cases h
    refine ⟨?_, rfl⟩
    cases hstatus : s.status t with
    | committed => exact absurd hstatus hcommitted
    | _ => rfl

theorem Inv.rollsBack (hs : Inv s) (h : s.rollback t = some s') : Inv s' := by
  obtain ⟨ht, rfl⟩ := rollback_ok h
  have hkept : ∀ e, e ∈ s.entries.filter (·.txn ≠ t) → e.txn ≠ t := fun e he => by
    simpa using (List.mem_filter.mp he).2
  refine hs.closed (x := .rolledBack) ht nofun rfl rfl rfl
    (fun e he htxn => absurd htxn (hkept e he)) (fun hidle => ?_) fun hengaged => ⟨?_, ?_⟩
  · exact List.filter_eq_self.mpr fun e he => by simpa using ne_txn ht hidle he
  · -- what stays is what has been committed
    obtain ⟨own, hsplit, hown⟩ := hs.committedFirst
    have hsame : s.entries.filter (·.txn ≠ t) = s.committed := by
      refine List.filter_congr fun e he => ?_
      rcases hs.committed_or hengaged he with htxn | hcommitted
      · simp [htxn, ht]
      · have hne : e.txn ≠ t := by
          rintro htxn
          rw [htxn, ht] at hcommitted
          cases hcommitted
        simp [hne, hcommitted]
    exact ⟨own, (congrArg (· ++ own) hsame).trans hsplit.symm⟩
  · refine List.filter_eq_self.mpr fun e he => ?_
    change (Function.update s.status t .rolledBack e.txn).isCommitted = true
    rw [Function.update_of_ne (hkept e he)]
    have hmem : e ∈ s.entries := (List.mem_filter.mp he).1
    exact (hs.committed_or hengaged hmem).resolve_left (hkept e he)

theorem Inv.steps [DecidableEq P] (hs : Inv s) (hc : Current s l) (h : l.run s = some s') :
    Inv s' := by
  cases l with
  | select t => exact hs.selects h
  | wake t => exact hs.wakes hc h
  | insert t payload => exact hs.inserts hc h
  | fail t => exact hs.fails h
  | commit t => exact hs.commits h
  | rollback t => exact hs.rollsBack h
  | skip =>
    cases h
    exact ⟨hs.ids, fun e he => Nat.lt_succ_of_lt (hs.next e he), hs.chained, hs.committedFirst,
      hs.one, hs.base, hs.last⟩

theorem Inv.of_settled (hs : s.Settled) : Inv s := by
  have hall : s.committed = s.entries :=
    List.filter_eq_self.mpr fun e he => by rw [hs.committed e he]; rfl
  have hidle : ∀ t, ¬ s.Engaged t := by
    rintro t (⟨e, he⟩ | ⟨hlive, e, he, rfl⟩)
    · rcases hs.idle t with hidle | hidle <;> simp [hidle] at he
    · rw [hs.committed e he] at hlive
      cases hlive
  exact ⟨hs.ids, hs.next, hs.chained, ⟨[], by rw [hall, List.append_nil], by simp⟩,
    fun t u ht => absurd ht (hidle t), fun t c ht => absurd ht (hidle t),
    fun t e he => absurd (.inl ⟨e, he⟩) (hidle t)⟩

/-! ## What has been reported -/

/-- The entry of a call is there, unless its transaction has been rolled back. -/
def Present (s : State P) : Prop :=
  ∀ p ∈ s.reported, s.status p.1 = .rolledBack ∨ ∃ e ∈ s.entries, e.txn = p.1 ∧ e.id = p.2

theorem Present.restated (hs : Present s) {x : Status P} (ht : s.status t ≠ .rolledBack)
    (hstatus : s'.status = Function.update s.status t x)
    (hentries : ∀ e ∈ s.entries, e ∈ s'.entries)
    (hreported : ∀ p ∈ s'.reported,
      p ∈ s.reported ∨ ∃ e ∈ s'.entries, e.txn = p.1 ∧ e.id = p.2) : Present s' := by
  intro p hp
  rcases hreported p hp with hold | hnew
  swap
  · exact .inr hnew
  rcases hs p hold with hback | ⟨e, he, hpe⟩
  · left
    have hne : p.1 ≠ t := by
      intro hpt
      exact ht (hpt ▸ hback)
    rw [hstatus, Function.update_of_ne hne]
    exact hback
  · exact .inr ⟨e, hentries e he, hpe⟩

theorem Present.steps (hs : Present s) (h : l.run s = some s') : Present s' := by
  cases l with
  | select t =>
    simp only [Step.run, State.select] at h
    split at h
    next hidle _ =>
      cases h
      exact hs.restated (by rw [hidle]; nofun) rfl (fun _ he => he) fun _ hp => .inl hp
    next hidle _ =>
      cases h
      split <;> exact hs.restated (by rw [hidle]; nofun) rfl (fun _ he => he) fun _ hp => .inl hp
    next => cases h
  | wake t =>
    simp only [Step.run, State.wake] at h
    split at h
    next hwaiting =>
      split at h
      next => cases h
      next =>
        cases h
        exact hs.restated (by rw [hwaiting]; nofun) rfl (fun _ he => he) fun _ hp => .inl hp
    next => cases h
  | insert t payload =>
    simp only [Step.run, State.insert] at h
    split at h
    next last hselected =>
      cases h
      refine hs.restated (by rw [hselected]; nofun) rfl
        (fun _ he => List.mem_append_left _ he) fun p hp => ?_
      rcases List.mem_append.mp hp with hold | hnew
      · exact .inl hold
      · obtain rfl := List.mem_singleton.mp hnew
        exact .inr ⟨_, List.mem_append_right _ (List.mem_singleton_self _), rfl, rfl⟩
    next => cases h
  | fail t =>
    simp only [Step.run, State.fail] at h
    split at h
    next hwaiting =>
      cases h
      exact hs.restated (by rw [hwaiting]; nofun) rfl (fun _ he => he) fun _ hp => .inl hp
    next hselected =>
      cases h
      exact hs.restated (by rw [hselected]; nofun) rfl (fun _ he => he) fun _ hp => .inl hp
    next => cases h
  | commit t =>
    simp only [Step.run, State.commit] at h
    split at h
    next hidle =>
      cases h
      exact hs.restated (by rw [hidle]; nofun) rfl (fun _ he => he) fun _ hp => .inl hp
    next => cases h
  | rollback t =>
    obtain ⟨-, rfl⟩ := rollback_ok h
    intro p hp
    by_cases hpt : p.1 = t
    · left
      change Function.update s.status t .rolledBack p.1 = _
      rw [hpt, Function.update_self]
    · rcases hs p hp with hback | ⟨e, he, hpe⟩
      · left
        change Function.update s.status t .rolledBack p.1 = _
        rw [Function.update_of_ne hpt]
        exact hback
      · refine .inr ⟨e, List.mem_filter.mpr ⟨he, ?_⟩, hpe⟩
        simpa [hpe.1] using hpt
  | skip =>
    cases h
    exact hs

/-! ## Every run -/

theorem inv_of_reachable [DecidableEq P] (h : ((writers P).under Current).Reachable s) :
    Inv s ∧ Present s := by
  refine h.invariant (I := fun s => Inv s ∧ Present s) ?_ ?_
  · intro s hs
    exact ⟨.of_settled hs, fun p hp => by simp [hs.reported] at hp⟩
  · rintro s l s' - ⟨hs, hp⟩ hstep
    obtain ⟨hc, hstep⟩ := Machine.under_step.mp hstep
    exact ⟨hs.steps hc hstep, hp.steps hstep⟩

/-- How many entries a hash covers -/
def Digest.depth : Digest P → ℕ
  | empty => 0
  | of _ prevHash => prevHash.depth + 1

/-- The committed entries are one chain, no two of them name the same, and the entry of each call
in a committed transaction is there once. -/
def State.Unforked (s : State P) : Prop :=
  Chained (·.prevHash) (·.entryHash) .empty s.committed ∧ (s.committed.map (·.prevHash)).Nodup ∧
    ∀ p ∈ s.reported, (s.status p.1).isCommitted = true →
      (s.committed.map (·.id)).count p.2 = 1

instance [DecidableEq P] : Decidable s.Unforked :=
  inferInstanceAs (Decidable (_ ∧ _ ∧ ∀ p ∈ s.reported, _ → _ = _))

theorem Inv.unforked (hs : Inv s) (hp : Present s) : s.Unforked := by
  have hchained : Chained (·.prevHash) (·.entryHash) .empty s.committed := by
    obtain ⟨own, hsplit, -⟩ := hs.committedFirst
    have hall := hs.chained
    rw [hsplit] at hall
    exact (Chained.append.mp hall).1
  have hrank : ∀ e : Entry P, e.prevHash.depth < e.entryHash.depth := fun e => Nat.lt_succ_self _
  refine ⟨hchained, hchained.nodup hrank, ?_⟩
  intro p hmem hcommitted
  rcases hp p hmem with hback | ⟨e, he, htxn, hid⟩
  · rw [hback] at hcommitted
    cases hcommitted
  · have hids : (s.committed.map (·.id)).Nodup :=
      List.pairwise_map.mpr ((hs.ids.filter _).imp Nat.ne_of_lt)
    refine List.count_eq_one_of_mem hids (List.mem_map.mpr ⟨e, ?_, hid⟩)
    exact mem_committed.mpr ⟨he, htxn ▸ hcommitted⟩

/-- Calls that return the last entry, also after they have waited, do not fork the chain. -/
theorem chain_unforked [DecidableEq P] (h : ((writers P).under Current).Reachable s) :
    s.Unforked := by
  obtain ⟨hs, hp⟩ := inv_of_reachable h
  exact hs.unforked hp

section Example

/-- One entry -/
private def table : State String where
  next := 2
  entries := [⟨1, 0, "start", .empty⟩]
  status t := if t = 0 then .committed else .idle

private theorem table_settled : table.Settled where
  chained := ⟨rfl, trivial⟩
  ids := List.pairwise_singleton _ _
  next e he := by
    obtain rfl := List.mem_singleton.mp he
    decide
  committed e he := by
    obtain rfl := List.mem_singleton.mp he
    rfl
  idle t := by
    unfold table
    by_cases ht : t = 0 <;> simp [ht]
  locks := rfl
  reported := rfl

/-- The second call waits for the first one, which is rolled back. -/
private def givenUp : State String :=
  ((writers String).under Current).final table
    [.select 1, .select 2, .insert 1 "a", .rollback 1, .wake 2, .insert 2 "b", .commit 2]

theorem chain_unforked_givenUp :
    givenUp.committed.map (·.payload) = ["start", "b"] ∧ givenUp.Unforked := by
  have hreachable : ((writers String).under Current).Reachable givenUp :=
    Machine.Reachable.final (M := (writers String).under Current) table_settled _
  exact ⟨by decide +kernel, chain_unforked hreachable⟩

/-- The second call waits for the first one, which commits. -/
private def overtaken : State String :=
  (writers String).final table
    [.select 1, .select 2, .insert 1 "a", .commit 1, .wake 2, .insert 2 "b", .commit 2]

theorem overtaken_forks : (writers String).Reachable overtaken ∧ ¬ overtaken.Unforked :=
  ⟨Machine.Reachable.final (M := writers String) table_settled _, by decide +kernel⟩

end Example

end Civicos.Audit.ConcurrentChain
