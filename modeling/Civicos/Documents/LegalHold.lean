import Civicos.Documents.Keys

/-!
# Legal hold

Every operation that disposes of a document checks the hold under the row lock. What comes after
the lock has been given back does not: the removal of an object, the note that it has been removed,
and the clean-up of abandoned uploads. A hold wins as long as none of these finds a held document.
-/
namespace Civicos.Documents

open Library Library.Transaction

variable {cfg : Settings} {e : Choice} {s t : Store} {d a : Document} {p q : Worker} {k : Key}
  {f : Document → DocumentState} {es : List AuditEntry} {objects : Key → Option Content}

abbrev Labels := Pool.Label Worker Choice Event

/-- The document is still there and has not been disposed of; its object is there if it was, and the
same unless a client has just overwritten it. -/
def Kept (l : Labels) (s t : Store) (d : Document) : Prop :=
  ∃ a ∈ t.documents.rows, a.pk = d.pk ∧
    (a.scanStatus.disposed = true → a.scanStatus = d.scanStatus) ∧
    ∀ k, d.storageKey = some k → (s.objects k).isSome = true →
      ∃ k', a.storageKey = some k' ∧ (t.objects k').isSome = true ∧
        (t.objects k' = s.objects k ∨ ∃ content, l = .env (.overwrite k content))

/-- The document that a block notes as purged. -/
def Worker.purges : Worker → Option ℕ
  | .cleared document _ _ => some document
  | _ => none

/-- A block that looks at no hold does not meet a document on hold: it takes no such document's
object away, notes none as purged, and drops none. -/
def Spares (s : Store) (p : Worker) (_ : Choice) : Prop :=
  ∀ d ∈ s.documents.rows, d.legalHold = true →
    ¬ (p.takes.isSome = true ∧ p.takes = d.storageKey) ∧
    ¬ (p.purges = some d.pk ∧ d.scanStatus = .deleted) ∧ p.drops d = false

instance (s : Store) (p : Worker) (e : Choice) : Decidable (Spares s p e) := by
  unfold Spares
  infer_instance

/-- A row with the same key, over the same object. -/
theorem kept_of_same {l : Labels} (ha : a ∈ t.documents.rows) (hpk : a.pk = d.pk)
    (hstatus : a.scanStatus.disposed = true → a.scanStatus = d.scanStatus)
    (hkey : a.storageKey = d.storageKey)
    (hobject : ∀ k, d.storageKey = some k → t.objects k = s.objects k) : Kept l s t d := by
  refine ⟨a, ha, hpk, hstatus, fun k hk hsome => ⟨k, hkey.trans hk, ?_, .inl (hobject k hk)⟩⟩
  rw [hobject k hk]
  exact hsome

theorem Change.kept_of_held {l : Labels} (h : Change cfg e s p t) (hs : s.Sound)
    (hc : Spares s p e) (hd : d ∈ s.documents.rows) (hheld : d.legalHold = true) :
    Kept l s t d := by
  obtain ⟨htakes, hpurges, hdrops⟩ := hc d hd hheld
  obtain ⟨a, ha, hrow⟩ := h.persists hd hdrops
  have hobject (k : Key) (hk : d.storageKey = some k) : t.objects k = s.objects k := by
    refine h.objects_eq hs hd hk fun htake => htakes ?_
    exact ⟨by rw [htake]; rfl, htake.trans hk.symm⟩
  cases hrow with
  | kept => exact kept_of_same ha rfl (fun _ => rfl) rfl hobject
  | flagged => exact kept_of_same ha rfl (fun _ => rfl) rfl hobject
  | touched touch hobjects =>
    cases touch with
    | softDeleted _ hfree | expired _ hfree | fulfilled _ hfree | held _ hfree =>
      rw [hheld] at hfree
      cases hfree
    | purged hstatus => exact absurd ⟨rfl, hstatus⟩ hpurges
    | released => exact kept_of_same ha rfl (fun _ => rfl) rfl hobject
    | confirmed | bypassed | quarantined | failed | activated =>
      exact kept_of_same ha rfl (fun h => by cases h) rfl hobject
    | @promoted _ _ source _ hkey =>
      refine ⟨_, ha, rfl, fun h => (by cases h), fun k hk hsome => ⟨_, rfl, ?_⟩⟩
      obtain rfl : source = k := Option.some.inj (hkey.symm.trans hk)
      have hcopy : t.objects source.promoted = s.objects source := by
        rw [hobjects]
        exact Function.update_self ..
      rw [hcopy]
      exact ⟨hsome, .inl rfl⟩

theorem env_kept {x : Event} (hs : s.Sound) (h : (documents cfg).env s x = some t)
    (hd : d ∈ s.documents.rows) : Kept (.env x) s t d := by
  have hmem := (env_rows h).1 d hd
  obtain ⟨-, ⟨-, hobjects⟩ | ⟨k, content, rfl, -, hobjects⟩ | ⟨_, file, _, -, -, hobjects⟩⟩ :=
    env_change h
  · exact kept_of_same hmem rfl (fun _ => rfl) rfl fun k _ => congrFun hobjects k
  · refine ⟨d, hmem, rfl, fun _ => rfl, fun k' hk hsome => ⟨k', hk, ?_⟩⟩
    by_cases hsame : k' = k
    · subst hsame
      rw [hobjects, Function.update_self]
      exact ⟨rfl, .inr ⟨content, rfl⟩⟩
    · rw [hobjects, Function.update_of_ne hsame]
      exact ⟨hsome, .inl rfl⟩
  · refine kept_of_same hmem rfl (fun _ => rfl) rfl fun k hk => ?_
    rw [hobjects]
    refine Function.update_of_ne ?_ _ _
    rintro rfl
    have hpk := (hs d hd).own _ hk
    have hlt := s.documents.used d hd
    exact absurd hpk.symm (Nat.ne_of_lt hlt)

/-- While a document is on hold no step disposes of it, takes its row away or destroys its object,
as long as no block that looks at no hold meets a held document. -/
theorem hold_wins {s t : Pool.State Store Worker} {l : Labels}
    (h : ((documents cfg).under Spares).machine.Reachable s)
    (hstep : ((documents cfg).under Spares).machine.step s l = some t)
    (hd : d ∈ s.store.documents.rows) (hheld : d.legalHold = true) : Kept l s.store t.store d := by
  have hs := sound_of_reachable (Program.reachable_of_under h)
  obtain ⟨p, -, -, rfl⟩ | ⟨i, e, p, st, q, -, hp, hact, rfl⟩ | ⟨i, -, rfl⟩ |
    ⟨x, st, rfl, henv, rfl⟩ := Program.step_cases hstep
  · exact kept_of_same hd rfl (fun _ => rfl) rfl fun _ _ => rfl
  · obtain ⟨hc, hact⟩ := Program.under_act.mp hact
    exact (act_change hact).2.kept_of_held hs hc hd hheld
  · exact kept_of_same hd rfl (fun _ => rfl) rfl fun _ _ => rfl
  · have henv : (documents cfg).env s.store x = some st := henv
    exact env_kept hs henv hd

/-- A document that is put on hold after a caller has loaded it. -/
def heldReceipt : Pool.State Store Worker :=
  ((documents plainSettings).under Spares).machine.final ⟨emptyStore, []⟩
    [.env (.generate receipt 1 [80]),
      .spawn (.calling (.softDelete receipt none "")),
      .spawn (.calling (.applyLegalHold receipt officer "litigation")), .act 1 {}]

def heldRow : Document :=
  { generated receipt 1 1 with
    legalHold := true
    legalHoldReason := "litigation"
    legalHoldSetBy := some 9 }

/-- The deletion is refused under the lock. -/
theorem heldReceipt_kept : Kept (.act 0 {}) heldReceipt.store
    (((documents plainSettings).under Spares).machine.final heldReceipt [.act 0 {}]).store
    heldRow := by
  have hreach : ((documents plainSettings).under Spares).machine.Reachable heldReceipt :=
    Machine.Reachable.final (M := ((documents plainSettings).under Spares).machine)
      (s := ⟨emptyStore, []⟩) ⟨init_emptyStore plainSettings, rfl⟩ _
  exact hold_wins hreach (Machine.step_final (by decide +kernel)) (by decide +kernel) rfl

/-- The hold comes while `hard_delete` has given its lock back, and the object is destroyed. -/
def lateHold : Pool.State Store Worker :=
  (documents plainSettings).machine.final ⟨emptyStore, []⟩
    [.env (.generate receipt 1 [80]),
      .spawn (.calling (.softDelete receipt none "")), .act 0 {}, .env (.pass (days 30)),
      .spawn (.hardDeleting { receipt with deletedAt := some 0, scanStatus := .deleted }),
        .act 1 {},
      .spawn (.calling (.applyLegalHold receipt officer "litigation")), .act 2 {}]

theorem lateHold_fails : ¬ ∀ (s t : Pool.State Store Worker) (l : Labels),
    (documents plainSettings).machine.Reachable s →
    (documents plainSettings).machine.step s l = some t →
    ∀ d ∈ s.store.documents.rows, d.legalHold = true → Kept l s.store t.store d := by
  intro h
  have hreach : (documents plainSettings).machine.Reachable lateHold :=
    Machine.Reachable.final (M := (documents plainSettings).machine)
      (s := ⟨emptyStore, []⟩) ⟨init_emptyStore plainSettings, rfl⟩ _
  have hheld : lateHold.store.documents.rows.any (fun d => d.legalHold = true ∧
      d.storageKey = some ⟨.active, 1, 1⟩) = true := by decide +kernel
  obtain ⟨d, hd, hprop⟩ := List.any_eq_true.mp hheld
  obtain ⟨hheld, hkey⟩ := of_decide_eq_true hprop
  obtain ⟨a, ha, -, -, hobject⟩ := h _ _ (.act 1 {}) hreach
    (Machine.step_final (by decide +kernel)) d hd hheld
  obtain ⟨k, hk, hsome, -⟩ := hobject _ hkey (by decide +kernel)
  have hgone : ∀ a ∈ ((documents plainSettings).machine.final lateHold
      [.act 1 {}]).store.documents.rows,
        a.storageKey.all (fun k => (((documents plainSettings).machine.final
        lateHold [.act 1 {}]).store.objects k).isNone) = true := by decide +kernel
  have hnone := hgone a ha
  rw [hk] at hnone
  simp [Option.isSome_iff_ne_none.mp hsome] at hnone

end Civicos.Documents
