import Civicos.Documents.Keys
import Civicos.Documents.Workers

/-!
# The retention floor

The schedule of disposals reads the date until which a document has to be retained, and the disposal
of transitory documents reads the category. `soft_delete` reads neither: called on its own, it keeps
the floor only if the date happens to have passed.
-/
namespace Civicos.Documents

open Library Library.Transaction

variable {cfg : Settings} {e : Choice} {s t : Store} {d a : Document} {p q : Worker}

/-- The document has to be retained beyond today. -/
def Store.retains (cfg : Settings) (s : Store) (d : Document) : Bool :=
  d.retainUntil.any (cfg.localdate s.now < ·)

def Store.isTransitory (s : Store) (d : Document) : Bool := (s.categoryOf d).any (·.isTransitory)

/-- What has been disposed of did not have to be retained any longer. -/
def Store.Floor (cfg : Settings) (s : Store) : Prop :=
  ∀ d ∈ s.documents.rows, d.scanStatus.disposed = true → s.isTransitory d = false →
    s.retains cfg d = false

/-- A call of `soft_delete` on its own finds a document that is transitory, or that has not to be
retained any longer. -/
def Released (cfg : Settings) (s : Store) (p : Worker) (_ : Choice) : Prop :=
  match p with
  | .calling (.softDelete document _ _) => ∀ d ∈ s.documents.rows, d.pk = document.pk →
    d.deletedAt = none → s.isTransitory d = true ∨ s.retains cfg d = false
  | _ => True

instance (s : Store) (p : Worker) (e : Choice) : Decidable (Released cfg s p e) := by
  unfold Released
  split <;> infer_instance

/-! ## The schedule -/

/-- A date that has passed stays passed. -/
theorem retains_later (h : s.retains cfg d = false) (hnow : s.now ≤ t.now)
    (hretain : a.retainUntil = d.retainUntil) : t.retains cfg a = false := by
  unfold Store.retains at h ⊢
  rw [hretain]
  cases hd : d.retainUntil with
  | none => rfl
  | some r =>
    rw [hd] at h
    have hle : r ≤ cfg.localdate s.now := by simpa using h
    simpa using le_trans hle (cfg.localdate_mono hnow)

def Passed (cfg : Settings) (s : Store) (i : ℕ) : Prop :=
  i < s.documents.next ∧ ∀ d ∈ s.documents.rows, d.pk = i → s.retains cfg d = false

theorem Passed.stable {i : ℕ} (h : Passed cfg s i) (ht : s.Inherits t) (hnow : s.now ≤ t.now) :
    Passed cfg t i := by
  refine ⟨lt_of_lt_of_le h.1 ht.1, fun a ha hpk => ?_⟩
  obtain ⟨d, hd, hdpk, hfollows⟩ := ht.row h.1 ha hpk
  exact retains_later (h.2 d hd hdpk) hnow hfollows.retainUntil

theorem passed_of_pending {i : ℕ} (h : i ∈ s.pendingDisposal cfg) : Passed cfg s i := by
  obtain ⟨d, hd, rfl⟩ := List.mem_map.mp h
  obtain ⟨hd, hprop⟩ := List.mem_filter.mp hd
  obtain ⟨-, hretain, -⟩ := of_decide_eq_true hprop
  refine ⟨s.documents.used d hd, fun a ha hpk => ?_⟩
  obtain rfl : a = d := Table.eq_of_pk ha hd hpk
  unfold Store.retains
  cases hr : a.retainUntil with
  | none => rfl
  | some r =>
    rw [hr] at hretain
    have hle : r ≤ cfg.localdate s.now := by simpa using hretain
    simpa using hle

/-- The documents that a run of the schedule still has to dispose of. -/
def Worker.Due (cfg : Settings) (s : Store) : Worker → Prop
  | .disposing batch pks => (∀ d ∈ batch, Passed cfg s d.pk) ∧ ∀ i ∈ pks, Passed cfg s i
  | _ => True

theorem Worker.Due.stable (h : p.Due cfg s) (ht : s.Inherits t) (hnow : s.now ≤ t.now) :
    p.Due cfg t := by
  cases p with
  | disposing =>
    exact ⟨fun d hd => (h.1 d hd).stable ht hnow, fun i hi => (h.2 i hi).stable ht hnow⟩
  | _ => trivial

theorem Next.due (h : Next cfg e s t p q) (hp : p.Due cfg s) (ht : s.Inherits t)
    (hnow : s.now ≤ t.now) : q.Due cfg t := by
  cases h with
  | disposal =>
    exact ⟨fun d hd => (by cases hd), fun i hi => (passed_of_pending hi).stable ht hnow⟩
  | disposed =>
    obtain ⟨hbatch, hpks⟩ := hp
    exact ⟨fun d hd => (hbatch d (List.mem_cons_of_mem _ hd)).stable ht hnow,
      fun i hi => (hpks i hi).stable ht hnow⟩
  | disposing =>
    obtain ⟨-, hpks⟩ := hp
    refine ⟨fun d hd => ?_, fun i hi => (hpks i (List.mem_of_mem_drop hi)).stable ht hnow⟩
    obtain ⟨i, hi, hget⟩ := List.mem_filterMap.mp hd
    obtain ⟨-, rfl⟩ := Numbered.get_eq_some.mp hget
    exact (hpks _ (List.mem_of_mem_take hi)).stable ht hnow
  | cleanup | deleted =>
    unfold Worker.nextStale
    split <;> trivial
  | _ => trivial

/-! ## The floor -/

theorem RowStep.floor (h : RowStep cfg e s p t d a) (hframe : Framed p s t)
    (hd : d ∈ s.documents.rows)
    (hs : s.Floor cfg) (hp : p.Due cfg s) (hc : Released cfg s p e)
    (hdisposed : a.scanStatus.disposed = true) (hkept : t.isTransitory a = false) :
    t.retains cfg a = false := by
  obtain ⟨⟨hnow, hcategories⟩, -⟩ := hframe
  have hfollows := h.follows
  have hsame : s.isTransitory d = t.isTransitory a := by
    simp only [Store.isTransitory, Store.categoryOf, hcategories, hfollows.category]
  rw [← hsame] at hkept
  refine retains_later ?_ hnow.ge hfollows.retainUntil
  have hstill (hstatus : d.scanStatus.disposed = true) := hs d hd hstatus hkept
  cases h with
  | kept | flagged => exact hstill hdisposed
  | touched touch =>
    cases touch with
    | softDeleted hpk _ hlive =>
      rcases hc d hd hpk hlive with htransitory | hpassed
      · rw [hkept] at htransitory
        cases htransitory
      · exact hpassed
    | expired hpk => exact (hp.1 _ List.mem_cons_self).2 d hd hpk
    | fulfilled _ _ _ hcategory htransitory =>
      rw [Store.isTransitory, hcategory] at hkept
      rw [Option.any_some, htransitory] at hkept
      cases hkept
    | purged hstatus => exact hstill (by rw [hstatus]; rfl)
    | held | released => exact hstill hdisposed
    | confirmed | bypassed | promoted | activated | quarantined | failed => cases hdisposed

theorem Change.floor (h : Change cfg e s p t) (hframe : Framed p s t) (hs : s.Floor cfg)
    (hp : p.Due cfg s) (hc : Released cfg s p e) : t.Floor cfg := by
  intro a ha hdisposed hkept
  rcases h.origin ha with ⟨d, hd, hrow⟩ | hfresh
  · exact hrow.floor hframe hd hs hp hc hdisposed hkept
  · cases hfresh <;> cases hdisposed

theorem env_floor {x : Event} (hs : s.Floor cfg) (h : (documents cfg).env s x = some t) :
    t.Floor cfg := by
  intro a ha hdisposed hkept
  obtain ⟨⟨hnow, hcategories, -⟩, -⟩ := env_change h
  rcases (env_rows h).2.1 a ha with hold | ⟨document, file, rfl⟩
  · refine retains_later (hs a hold hdisposed ?_) hnow rfl
    rw [← hkept]
    simp only [Store.isTransitory, Store.categoryOf, hcategories]
  · cases hdisposed

/-- In every run, a document that is not transitory is disposed of on the day until which it has to
be retained, or later, as long as nobody calls `soft_delete` before that day. -/
theorem floor_kept {s : Pool.State Store Worker}
    (h : ((documents cfg).under (Released cfg)).machine.Reachable s)
    (hd : d ∈ s.store.documents.rows) (hdisposed : d.scanStatus.disposed = true)
    (hkept : s.store.isTransitory d = false) :
    ∀ r, d.retainUntil = some r → r ≤ cfg.localdate s.store.now := by
  intro r hr
  have hfloor : s.store.Floor cfg := by
    refine (Program.invariant (I := Store.Floor cfg) (J := fun s p => p.Due cfg s) ?_ ?_ ?_ ?_ ?_
      h).1
    · intro st h₀ d hd
      rw [h₀.1] at hd
      cases hd
    · intro st p _ hentry
      cases p <;> trivial
    · intro st _
      trivial
    · intro st p e st' q hI hJ hact
      obtain ⟨hc, hact⟩ := Program.under_act.mp hact
      obtain ⟨hframe, hchange⟩ := act_change hact
      have hnow : st.now ≤ st'.now := hframe.1.1.ge
      exact ⟨hchange.floor hframe hI hJ hc, (act_next hact).due hJ hchange.inherits hnow,
        fun _ hr => hr.stable hchange.inherits hnow⟩
    · intro st x st' hI henv
      have henv : (documents cfg).env st x = some st' := henv
      exact ⟨env_floor hI henv, fun _ hr => hr.stable (env_inherits henv) (env_change henv).1.1⟩
  have hpassed := hfloor d hd hdisposed hkept
  rw [Store.retains, hr] at hpassed
  simpa using hpassed

/-- Two years later the upload is deleted through the API. -/
def agedUpload : List (Pool.Label Worker Choice Event) :=
  scannedUpload ++ [.env (.pass (days 730)), .spawn (.deleting 1 officer "no longer needed"),
    .act 3 {}, .act 3 {}]

theorem agedUpload_floor : 730 ≤ utcDate
    (((documents plainSettings).under (Released plainSettings)).machine.final ⟨emptyStore, []⟩
      agedUpload).store.now := by
  have hreach := Machine.Reachable.final
    (M := ((documents plainSettings).under (Released plainSettings)).machine)
    (s := ⟨emptyStore, []⟩) ⟨init_emptyStore plainSettings, rfl⟩ agedUpload
  have hrow : (((documents plainSettings).under (Released plainSettings)).machine.final
      ⟨emptyStore, []⟩ agedUpload).store.documents.rows.any (fun d =>
        d.scanStatus.disposed = true ∧ d.category = 1 ∧ d.retainUntil = some 730) = true := by
    decide +kernel
  obtain ⟨d, hd, hprop⟩ := List.any_eq_true.mp hrow
  obtain ⟨hdisposed, hcategory, hretain⟩ := of_decide_eq_true hprop
  refine floor_kept hreach hd hdisposed ?_ 730 hretain
  unfold Store.isTransitory Store.categoryOf
  rw [hcategory]
  decide +kernel

/-- The upload is deleted through the API on the day on which it came. -/
def hastyDeletion : Pool.State Store Worker :=
  (documents plainSettings).machine.final ⟨emptyStore, []⟩ (scannedUpload ++
    [.spawn (.deleting 1 officer "no longer needed"), .act 3 {}, .act 3 {}])

theorem hastyDeletion_fails : ¬ ∀ s : Pool.State Store Worker,
    (documents plainSettings).machine.Reachable s → ∀ d ∈ s.store.documents.rows,
      d.scanStatus.disposed = true → s.store.isTransitory d = false →
        ∀ r, d.retainUntil = some r → r ≤ plainSettings.localdate s.store.now := by
  intro h
  have hreach : (documents plainSettings).machine.Reachable hastyDeletion :=
    Machine.Reachable.final (M := (documents plainSettings).machine)
      (s := ⟨emptyStore, []⟩) ⟨init_emptyStore plainSettings, rfl⟩ _
  have hrow : hastyDeletion.store.documents.rows.any (fun d => d.scanStatus = .deleted ∧
      d.category = 1 ∧ d.retainUntil = some 730) = true := by decide +kernel
  obtain ⟨d, hd, hprop⟩ := List.any_eq_true.mp hrow
  obtain ⟨hdeleted, hcategory, hretain⟩ := of_decide_eq_true hprop
  have hkept : hastyDeletion.store.isTransitory d = false := by
    unfold Store.isTransitory Store.categoryOf
    rw [hcategory]
    decide +kernel
  have hlate := h _ hreach d hd (by rw [hdeleted]; rfl) hkept 730 hretain
  exact absurd hlate (by decide +kernel)

end Civicos.Documents
