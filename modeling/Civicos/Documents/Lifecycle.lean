import Civicos.Documents.Keys

/-!
# The lifecycle of a document

The status of a document moves along a few edges, and the audit log notes each move. Two moves can
go without a note: the audit log may refuse an entry, which the code does not notice, and a server
that is allowed to do without a scanner activates documents in silence.
-/
namespace Civicos.Documents

open Library Library.Transaction

variable {cfg : Settings} {e : Choice} {s t : Store} {d a : Document} {p q : Worker} {i : ℕ}
  {f : Document → DocumentState} {es : List AuditEntry} {objects : Key → Option Content}

inductive Moves : ScanStatus → ScanStatus → Prop
  | confirmed : Moves .pendingUpload .scanning
  | cleared : Moves .scanning .active
  | infected : Moves .scanning .quarantined
  | deleted {x : ScanStatus} (h : x.disposed = false) : Moves x .deleted
  | purged : Moves .deleted .purged

namespace Store

/-- The moves of a document that the audit log has noted. -/
def trail (i : ℕ) (s : Store) : List ScanStatus :=
  s.audit.filterMap fun x => if x.document = some i then x.status else none

def statusOf (i : ℕ) (s : Store) : Option ScanStatus := (s.documents.get i).map (·.scanStatus)

/-- What a step does to the status of a document that is there before and after it. -/
def moved (i : ℕ) (s t : Store) : List ScanStatus :=
  match s.statusOf i, t.statusOf i with
  | some x, some y => if x = y then [] else [y]
  | _, _ => []

end Store

theorem statusOf_eq_some {x : ScanStatus} : s.statusOf i = some x ↔
    ∃ d ∈ s.documents.rows, d.pk = i ∧ d.scanStatus = x := by
  unfold Store.statusOf
  rw [Option.map_eq_some_iff]
  constructor
  · rintro ⟨d, hget, hx⟩
    obtain ⟨hd, hpk⟩ := Numbered.get_eq_some.mp hget
    exact ⟨d, hd, hpk, hx⟩
  · rintro ⟨d, hd, hpk, hx⟩
    exact ⟨d, Numbered.get_eq_some.mpr ⟨hd, hpk⟩, hx⟩

/-- A step that leaves the status of every document alone. -/
theorem moved_still (h : ∀ d ∈ s.documents.rows, ∀ a ∈ t.documents.rows, a.pk = d.pk →
    a.scanStatus = d.scanStatus) : Store.moved i s t = [] := by
  unfold Store.moved
  cases hs : s.statusOf i with
  | none => rfl
  | some x =>
    cases ht : t.statusOf i with
    | none => rfl
    | some y =>
      obtain ⟨d, hd, hdpk, rfl⟩ := statusOf_eq_some.mp hs
      obtain ⟨a, ha, hapk, rfl⟩ := statusOf_eq_some.mp ht
      exact if_pos (h d hd a ha (hapk.trans hdpk.symm)).symm

theorem trail_append (h : t.audit = s.audit ++ es) : t.trail i = s.trail i ++
    es.filterMap fun x => if x.document = some i then x.status else none := by
  unfold Store.trail
  rw [h, List.filterMap_append]

theorem trail_same (h : t.audit = s.audit ++ es) (hes : ∀ x ∈ es, x.status = none) :
    t.trail i = s.trail i := by
  rw [trail_append h, List.filterMap_eq_nil_iff.mpr, List.append_nil]
  intro x hx
  rw [hes x hx, ite_self]

/-- The audit log takes its entry, and no document is activated without a scan. -/
def Recorded (cfg : Settings) (s : Store) (p : Worker) (e : Choice) : Prop :=
  match p with
  | .scanning document => cfg.devBypass = true →
    ∀ d ∈ s.documents.rows, d.pk = document → d.scanStatus ≠ .scanning
  | _ => e.audited = true

instance (s : Store) (p : Worker) (e : Choice) : Decidable (Recorded cfg s p e) := by
  unfold Recorded
  split <;> infer_instance

/-! ## One move -/

theorem Document.Sound.live (h : d.Sound) (hdeleted : d.deletedAt = none) :
    d.scanStatus.disposed = false := by
  cases hstatus : d.scanStatus.disposed with
  | false => rfl
  | true =>
    have hset := h.deleted.mp hstatus
    rw [hdeleted] at hset
    cases hset

theorem Document.Sound.pending (h : d.Sound) (hkey : d.storageKey.isSome = true)
    (hstatus : d.scanStatus = .pendingUpload ∨ d.scanStatus = .purged) :
    d.scanStatus = .pendingUpload := by
  rcases hstatus with hstatus | hstatus
  · exact hstatus
  · rw [h.purged hstatus] at hkey
    cases hkey

theorem Touch.moves (h : Touch cfg e s p d f es objects) (hd : d.Sound) :
    (d.withState f).scanStatus = d.scanStatus ∨ Moves d.scanStatus (d.withState f).scanStatus := by
  cases h with
  | softDeleted _ _ hlive | expired _ _ hlive | fulfilled _ _ hlive =>
    exact .inr (.deleted (hd.live hlive))
  | purged hstatus => exact .inr (hstatus ▸ .purged)
  | held | released => exact .inl rfl
  | confirmed hstatus hkey => exact .inr (hd.pending (by rw [hkey]; rfl) hstatus ▸ .confirmed)
  | bypassed _ hstatus | promoted hstatus | activated hstatus => exact .inr (hstatus ▸ .cleared)
  | quarantined _ hstatus | failed hstatus => exact .inr (hstatus ▸ .infected)

/-- Two moves never meet: a move changes the status. -/
theorem Moves.ne {x y : ScanStatus} (h : Moves x y) : x ≠ y := by
  cases h with
  | deleted hlive =>
    rintro rfl
    cases hlive
  | _ => intro h; cases h

/-- The entries of a block note what it makes of the status. -/
theorem Touch.entries (h : Touch cfg e s p d f es objects) (hd : d ∈ s.documents.rows)
    (hsound : d.Sound) (hc : Recorded cfg s p e) :
    (∃ x, es = [x] ∧ x.status = none ∧ (d.withState f).scanStatus = d.scanStatus) ∨
      ∃ x, es = [x] ∧ x.document = some d.pk ∧ x.status = some (d.withState f).scanStatus ∧
        d.scanStatus ≠ (d.withState f).scanStatus := by
  have hmove := h.moves hsound
  cases h with
  | held _ _ hentry | released _ _ hentry =>
    have hc : e.audited = true := hc
    refine .inl ⟨_, if_pos hc, ?_, rfl⟩
    simp [AuditEntry.status, hentry]
  | bypassed hbypass hstatus => exact absurd hstatus (hc hbypass d hd rfl)
  | purged hstatus hentry =>
    have hc : e.audited = true := hc
    refine .inr ⟨_, if_pos hc, by rw [hentry], by rw [hentry]; rfl, ?_⟩
    rw [hstatus]
    exact Moves.purged.ne
  | softDeleted _ _ hlive | expired _ _ hlive | fulfilled _ _ hlive =>
    have hc : e.audited = true := hc
    exact .inr ⟨_, if_pos hc, rfl, rfl, (Moves.deleted (hsound.live hlive)).ne⟩
  | confirmed hstatus hkey =>
    have hc : e.audited = true := hc
    have hpending := hsound.pending (by rw [hkey]; rfl) hstatus
    exact .inr ⟨_, if_pos hc, rfl, rfl, hpending ▸ Moves.confirmed.ne⟩
  | promoted hstatus | activated hstatus =>
    have hc : e.audited = true := hc
    exact .inr ⟨_, if_pos hc, rfl, rfl, hstatus ▸ Moves.cleared.ne⟩
  | quarantined _ hstatus | failed hstatus =>
    have hc : e.audited = true := hc
    exact .inr ⟨_, if_pos hc, rfl, rfl, hstatus ▸ Moves.infected.ne⟩

theorem trail_touched (hd : d ∈ s.documents.rows) (touch : Touch cfg e s p d f es objects)
    (hsound : d.Sound) (hc : Recorded cfg s p e) (hdocs : t.documents = (s.save d.pk f).documents)
    (haudit : t.audit = s.audit ++ es) : t.trail i = s.trail i ++ Store.moved i s t := by
  have hother (a : Document) (ha : a ∈ t.documents.rows) (hpk : a.pk ≠ d.pk) :
      a ∈ s.documents.rows := by
    rw [hdocs, Store.mem_save hd] at ha
    rcases ha with ⟨ha, -⟩ | rfl
    · exact ha
    · exact absurd rfl hpk
  have hself (a : Document) (ha : a ∈ t.documents.rows) (hpk : a.pk = d.pk) :
      a = d.withState f := by
    rw [hdocs, Store.mem_save hd] at ha
    rcases ha with ⟨-, hne⟩ | rfl
    · exact absurd hpk hne
    · rfl
  rcases touch.entries hd hsound hc with ⟨x, rfl, hx, hsame⟩ | ⟨x, rfl, hdocument, hx, hne⟩
  · rw [moved_still, trail_same haudit fun y hy => List.mem_singleton.mp hy ▸ hx, List.append_nil]
    intro b hb a ha hpk
    by_cases hbd : b.pk = d.pk
    · obtain rfl : b = d := Table.eq_of_pk hb hd hbd
      rw [hself a ha hpk, hsame]
    · obtain rfl : a = b := Table.eq_of_pk (hother a ha (hpk ▸ hbd)) hb hpk
      rfl
  · rw [trail_append haudit, List.filterMap_cons, List.filterMap_nil, hdocument]
    by_cases hid : d.pk = i
    · have hold : s.statusOf i = some d.scanStatus := statusOf_eq_some.mpr ⟨d, hd, hid, rfl⟩
      have hnew : t.statusOf i = some (d.withState f).scanStatus := by
        refine statusOf_eq_some.mpr ⟨d.withState f, ?_, hid, rfl⟩
        rw [hdocs]
        exact (Store.mem_save hd).mpr (.inr rfl)
      rw [if_pos (congrArg some hid), hx]
      simp only [Store.moved, hold, hnew, if_neg hne]
    · rw [if_neg fun h => hid (Option.some.inj h)]
      suffices hstill : Store.moved i s t = [] by rw [hstill]
      unfold Store.moved
      cases hs : s.statusOf i with
      | none => rfl
      | some y =>
        cases ht : t.statusOf i with
        | none => rfl
        | some z =>
          obtain ⟨b, hb, hbpk, rfl⟩ := statusOf_eq_some.mp hs
          obtain ⟨a, ha, hapk, rfl⟩ := statusOf_eq_some.mp ht
          have ha := hother a ha fun hpk => hid (hpk.symm.trans hapk)
          obtain rfl : a = b := Table.eq_of_pk ha hb (hapk.trans hbpk.symm)
          exact if_pos rfl

theorem Change.trail_eq (h : Change cfg e s p t) (hs : s.Sound) (hc : Recorded cfg s p e) :
    t.trail i = s.trail i ++ Store.moved i s t := by
  -- Without a touch, a row keeps its status or goes.
  have hstill (huntouched : ∀ d f es objects, ¬ Touch cfg e s p d f es objects)
      (haudit : t.trail i = s.trail i) : t.trail i = s.trail i ++ Store.moved i s t := by
    rw [moved_still, haudit, List.append_nil]
    intro d hd a ha hpk
    rcases h.origin ha with ⟨b, hb, hrow⟩ | hfresh
    · obtain rfl : b = d := Table.eq_of_pk hb hd (hrow.pk_eq.symm.trans hpk)
      cases hrow with
      | kept | flagged => rfl
      | touched touch => exact absurd touch (huntouched _ _ _ _)
    · exact absurd (hfresh.pk_eq.symm.trans hpk) (Nat.ne_of_gt (s.documents.used d hd))
  have hsame (hdocs : t.documents = s.documents) (haudit : t.trail i = s.trail i) :
      t.trail i = s.trail i ++ Store.moved i s t := by
    rw [moved_still, haudit, List.append_nil]
    intro d hd a ha hpk
    rw [hdocs] at ha
    rw [Table.eq_of_pk ha hd hpk]
  cases h with
  | kept hdocs _ haudit =>
    obtain ⟨es, haudit, hes⟩ := haudit
    exact hsame hdocs (trail_same haudit hes)
  | taken _ hdocs _ haudit | copied _ _ _ _ _ hdocs _ haudit =>
    exact hsame hdocs (by simp only [Store.trail, haudit])
  | touched hd touch hdocs _ haudit =>
    exact trail_touched hd touch (hs _ hd) hc hdocs haudit
  | announced hp _ _ haudit =>
    refine hstill ?_ (by simp only [Store.trail, haudit])
    subst hp
    intro d f es objects touch
    cases touch
  | versioned hp _ _ _ _ _ _ haudit hes =>
    refine hstill ?_ (trail_same haudit hes)
    subst hp
    intro d f es objects touch
    cases touch
  | removed _ hdocs _ haudit =>
    rw [moved_still, Store.trail, haudit, ← Store.trail, List.append_nil]
    intro d hd a ha hpk
    rw [hdocs, Numbered.rows_keep] at ha
    rw [Table.eq_of_pk (List.mem_filter.mp ha).1 hd hpk]
  | withdrawn hp _ _ haudit =>
    refine hstill ?_ (by simp only [Store.trail, haudit])
    subst hp
    intro d f es objects touch
    cases touch

/-! ## Every run -/

theorem Change.moves (h : Change cfg e s p t) (hs : s.Sound) (hd : d ∈ s.documents.rows)
    (ha : a ∈ t.documents.rows) (hpk : a.pk = d.pk) :
    a.scanStatus = d.scanStatus ∨ Moves d.scanStatus a.scanStatus := by
  rcases h.origin ha with ⟨b, hb, hrow⟩ | hfresh
  · obtain rfl : b = d := Table.eq_of_pk hb hd (hrow.pk_eq.symm.trans hpk)
    cases hrow with
    | kept | flagged => exact .inl rfl
    | touched touch => exact touch.moves (hs _ hd)
  · exact absurd (hfresh.pk_eq.symm.trans hpk) (Nat.ne_of_gt (s.documents.used d hd))

theorem env_row {x : Event} (h : (documents cfg).env s x = some t) (hd : d ∈ s.documents.rows)
    (ha : a ∈ t.documents.rows) (hpk : a.pk = d.pk) : a = d := by
  rcases (env_rows h).2.1 a ha with ha | ⟨document, file, rfl⟩
  · exact Table.eq_of_pk ha hd hpk
  · exact absurd hpk (Nat.ne_of_gt (s.documents.used d hd))

/-- Each step of the machine moves a status along an edge, or leaves it. -/
theorem step_moves {s t : Pool.State Store Worker} {l : Pool.Label Worker Choice Event}
    (hs : s.store.Sound) (h : (documents cfg).machine.step s l = some t)
    (hd : d ∈ s.store.documents.rows) (ha : a ∈ t.store.documents.rows) (hpk : a.pk = d.pk) :
    a.scanStatus = d.scanStatus ∨ Moves d.scanStatus a.scanStatus := by
  have hsame (h : a = d) : a.scanStatus = d.scanStatus ∨ Moves d.scanStatus a.scanStatus :=
    .inl (by rw [h])
  obtain ⟨p, -, -, rfl⟩ | ⟨j, e, p, st, q, -, -, hact, rfl⟩ | ⟨j, -, rfl⟩ |
    ⟨x, st, -, henv, rfl⟩ := Program.step_cases h
  · exact hsame (Table.eq_of_pk ha hd hpk)
  · exact (act_change hact).2.moves hs hd ha hpk
  · exact hsame (Table.eq_of_pk ha hd hpk)
  · exact hsame (env_row henv hd ha hpk)

theorem env_trail {x : Event} (h : (documents cfg).env s x = some t) :
    t.trail i = s.trail i ++ Store.moved i s t := by
  obtain ⟨⟨-, -, haudit, -⟩, -⟩ := env_change h
  rw [moved_still, Store.trail, haudit, ← Store.trail, List.append_nil]
  intro d hd a ha hpk
  rw [env_row h hd ha hpk]

theorem step_trail {s t : Pool.State Store Worker} {l : Pool.Label Worker Choice Event}
    (hs : s.store.Sound)
    (h : ((documents cfg).under (Recorded cfg)).machine.step s l = some t) :
    t.store.trail i = s.store.trail i ++ Store.moved i s.store t.store := by
  have hself : s.store.trail i = s.store.trail i ++ Store.moved i s.store s.store := by
    rw [moved_still, List.append_nil]
    intro d hd a ha hpk
    rw [Table.eq_of_pk ha hd hpk]
  obtain ⟨p, -, -, rfl⟩ | ⟨j, e, p, st, q, -, -, hact, rfl⟩ | ⟨j, -, rfl⟩ |
    ⟨x, st, -, henv, rfl⟩ := Program.step_cases h
  · exact hself
  · obtain ⟨hc, hact⟩ := Program.under_act.mp hact
    exact (act_change hact).2.trail_eq hs hc
  · exact hself
  · have henv : (documents cfg).env s.store x = some st := henv
    exact env_trail henv

/-- In every run from the empty system whose entries are all written, the audit log notes exactly
the moves of each document, in order. A document has a time of deletion exactly when it has been
disposed of, a purged one has no key, and every further step goes along an edge. -/
theorem lifecycle {s₀ s : Pool.State Store Worker} {ls : List (Pool.Label Worker Choice Event)}
    (h₀ : (documents cfg).machine.Init s₀)
    (h : ((documents cfg).under (Recorded cfg)).machine.run s₀ ls = some s) :
    (∀ i, s.store.trail i = ((documents cfg).under (Recorded cfg)).machine.collect
      (fun u v => Store.moved i u.store v.store) s₀ ls) ∧
    (∀ d ∈ s.store.documents.rows,
      (d.scanStatus = .deleted ∨ d.scanStatus = .purged ↔ d.deletedAt ≠ none) ∧
      (d.scanStatus = .purged → d.storageKey = none)) ∧
    ∀ l t, (documents cfg).machine.step s l = some t → ∀ d ∈ s.store.documents.rows,
      ∀ a ∈ t.store.documents.rows, a.pk = d.pk →
        a.scanStatus = d.scanStatus ∨ Moves d.scanStatus a.scanStatus := by
  have hreach : ((documents cfg).under (Recorded cfg)).machine.Reachable s := ⟨s₀, h₀, ls, h⟩
  have hs := sound_of_reachable (Program.reachable_of_under hreach)
  refine ⟨fun i => ?_, fun d hd => ⟨?_, (hs d hd).purged⟩,
    fun l t hstep d hd a ha hpk => step_moves hs hstep hd ha hpk⟩
  · have hlog : s.store.trail i = s₀.store.trail i ++
        ((documents cfg).under (Recorded cfg)).machine.collect
          (fun u v => Store.moved i u.store v.store) s₀ ls := Machine.log_eq_collect
      (I := ((documents cfg).under (Recorded cfg)).machine.Reachable) (.start h₀)
      (fun u l v hu hstep => hu.step hstep)
      (fun u l v hu hstep =>
        step_trail (sound_of_reachable (Program.reachable_of_under hu)) hstep) h
    have hempty : s₀.store.trail i = [] := by
      rw [Store.trail, h₀.1.2.2.1, List.filterMap_nil]
    rw [hlog, hempty, List.nil_append]
  · rw [← Option.isSome_iff_ne_none, ← (hs d hd).deleted]
    cases d.scanStatus <;> simp [ScanStatus.disposed]

/-- The upload of the example becomes active, and both moves are noted. -/
theorem scannedUpload_noted : [.scanning, .active] =
    ((documents plainSettings).under (Recorded plainSettings)).machine.collect
      (fun u v => Store.moved 1 u.store v.store) ⟨emptyStore, []⟩ scannedUpload := by
  have hrun : ((documents plainSettings).under (Recorded plainSettings)).machine.run
      ⟨emptyStore, []⟩ scannedUpload = some (((documents plainSettings).under
        (Recorded plainSettings)).machine.final ⟨emptyStore, []⟩ scannedUpload) :=
    Machine.run_final (by decide +kernel)
  have htrail := (lifecycle ⟨init_emptyStore plainSettings, rfl⟩ hrun).1 1
  rw [← htrail]
  decide +kernel

/-- The audit log refuses the entry of a confirmation. -/
def silentConfirmation : List (Pool.Label Worker Choice Event) :=
  [.spawn (.uploading officer "evidence" ⟨"copy.pdf", "application/pdf", 3⟩), .act 0 { token := 5 },
    .act 0 {}, .env (.overwrite ⟨.quarantine, 1, 5⟩ [80]),
    .spawn (.calling (.confirmUpload officer.pk 1)), .act 1 { audited := false }]

theorem silentConfirmation_fails : ¬ ∀ (s₀ s : Pool.State Store Worker)
    (ls : List (Pool.Label Worker Choice Event)), (documents plainSettings).machine.Init s₀ →
    (documents plainSettings).machine.run s₀ ls = some s →
    ∀ i, s.store.trail i = (documents plainSettings).machine.collect
      (fun u v => Store.moved i u.store v.store) s₀ ls := by
  intro h
  have hrun : (documents plainSettings).machine.run ⟨emptyStore, []⟩ silentConfirmation =
      some ((documents plainSettings).machine.final ⟨emptyStore, []⟩ silentConfirmation) :=
    Machine.run_final (by decide +kernel)
  have htrail := h _ _ _ ⟨init_emptyStore plainSettings, rfl⟩ hrun 1
  exact absurd htrail (by decide +kernel)

end Civicos.Documents
