import Civicos.Documents.Keys
import Civicos.Documents.Workers

/-!
# The disposal schedule

The dates of a document are computed from its category when it is created, and stay what they are
until it is disposed of. Where the category has no minimum, no date is stored for it, and the query
takes a date that is missing for one that has not come.
-/
namespace Civicos.Documents

open Library Library.Transaction

variable {cfg : Settings} {e : Choice} {s t : Store} {d a : Document} {p : Worker} {c : Category}

/-! ## The dates -/

/-- The dates are those of `schedule_expiry`; a transitory document has an expiry only once its
purpose has been fulfilled, and then it is deleted. -/
structure Document.Dated (d : Document) (c : Category) : Prop where
  retainUntil : d.retainUntil = c.retainUntil d.createdAt
  expiresAt : d.expiresAt = c.expiresAt d.createdAt ∨ c.isTransitory = true ∧ d.deletedAt ≠ none

theorem scheduleExpiry_dated : (scheduleExpiry c d).Dated c := ⟨rfl, .inl rfl⟩

theorem announced_dated {user : Actor} {file : FileRequest} {now : Instant} {uuid pk : ℕ} :
    (announced c user file now uuid pk).Dated c := scheduleExpiry_dated

theorem RowStep.dated (h : RowStep cfg e s p t d a) (hc : s.categoryOf d = some c)
    (hd : d.Dated c) : a.Dated c := by
  obtain ⟨hretain, hexpires⟩ := hd
  cases h with
  | kept | flagged => exact ⟨hretain, hexpires⟩
  | touched touch =>
    cases touch with
    | softDeleted | expired =>
      exact ⟨hretain, hexpires.imp_right fun h => ⟨h.1, Option.some_ne_none _⟩⟩
    | fulfilled _ _ _ hcategory htransitory =>
      rw [hc] at hcategory
      cases hcategory
      exact ⟨hretain, .inr ⟨htransitory, Option.some_ne_none _⟩⟩
    | _ => exact ⟨hretain, hexpires⟩

/-- The document with the number `i`, as long as there is one, has the category and its dates. -/
def Store.Schedules (c : Category) (i : ℕ) (s : Store) : Prop :=
  i < s.documents.next ∧
    ∀ d ∈ s.documents.rows, d.pk = i → s.categoryOf d = some c ∧ d.Dated c

theorem Change.schedules {i : ℕ} (h : Change cfg e s p t) (hframe : Framed p s t)
    (hs : s.Schedules c i) : t.Schedules c i := by
  obtain ⟨hlt, hrows⟩ := hs
  refine ⟨hlt.trans_le h.next_le, fun a ha hpk => ?_⟩
  rcases h.origin ha with ⟨d, hd, hrow⟩ | hfresh
  · obtain ⟨hc, hdated⟩ := hrows d hd (hrow.pk_eq.symm.trans hpk)
    refine ⟨?_, hrow.dated hc hdated⟩
    simp only [Store.categoryOf, hframe.1.2, hrow.follows.category]
    exact hc
  · have hnew := hfresh.pk_eq
    omega

theorem env_schedules {i : ℕ} {x : Event} (h : (documents cfg).env s x = some t)
    (hs : s.Schedules c i) : t.Schedules c i := by
  obtain ⟨hlt, hrows⟩ := hs
  obtain ⟨-, horigin, hnext⟩ := env_rows h
  obtain ⟨⟨-, hcategories, -⟩, -⟩ := env_change h
  refine ⟨hlt.trans_le hnext, fun a ha hpk => ?_⟩
  rcases horigin a ha with hold | ⟨document, file, rfl⟩
  · obtain ⟨hc, hdated⟩ := hrows a hold hpk
    refine ⟨?_, hdated⟩
    simp only [Store.categoryOf, hcategories]
    exact hc
  · have hnew : s.documents.next = i := hpk
    omega

/-- A document keeps its dates through every run. -/
theorem schedules_later {i : ℕ} {u v : Pool.State Store Worker}
    (h : (documents cfg).machine.Later u v) (hs : u.store.Schedules c i) :
    v.store.Schedules c i := by
  refine h.induct (I := fun w => w.store.Schedules c i) hs ?_
  rintro u l v - hI hstep
  obtain ⟨p, -, hp, rfl⟩ | ⟨i, e, p, st, q, -, hp, hact, rfl⟩ | ⟨i, -, rfl⟩ |
    ⟨x, st, -, henv, rfl⟩ := Program.step_cases hstep
  · exact hI
  · obtain ⟨hframe, hchange⟩ := act_change hact
    exact hchange.schedules hframe hI
  · exact hI
  · exact env_schedules henv hI

/-! ## The query -/

/-- The floor has passed, or there is none. -/
def Category.FloorPassed (cfg : Settings) (s : Store) (c : Category) (createdAt : Instant) : Prop :=
  c.minRetentionDays = 0 ∨
    utcDate (createdAt + days c.minRetentionDays) ≤ cfg.localdate s.now

/-- The schedule selects the document from the moment at which the maximum and the floor have
passed, and a transitory document never. -/
def Store.Disposes (cfg : Settings) (s : Store) (c : Category) (d : Document) : Prop :=
  if c.isTransitory then d.pk ∉ s.pendingDisposal cfg
  else d.legalHold = false → d.deletedAt = none → (d.pk ∈ s.pendingDisposal cfg ↔
    d.createdAt + days c.maxRetentionDays ≤ s.now ∧ c.FloorPassed cfg s d.createdAt)

theorem mem_pendingDisposal (hd : d ∈ s.documents.rows) : d.pk ∈ s.pendingDisposal cfg ↔
    d.expiresAt.any (· ≤ s.now) = true ∧ d.retainUntil.any (· ≤ cfg.localdate s.now) = true ∧
      d.legalHold = false ∧ d.deletedAt = none := by
  simp only [Store.pendingDisposal, List.mem_map, List.mem_filter, decide_eq_true_eq,
    Bool.not_eq_true]
  constructor
  · rintro ⟨a, ⟨ha, hselected⟩, hpk⟩
    obtain rfl : a = d := Table.eq_of_pk ha hd hpk
    exact hselected
  · intro hselected
    exact ⟨d, ⟨hd, hselected⟩, rfl⟩

theorem disposes_transitory (hd : d ∈ s.documents.rows) (hdated : d.Dated c)
    (h : c.isTransitory = true) : s.Disposes cfg c d := by
  unfold Store.Disposes
  rw [if_pos h, mem_pendingDisposal hd]
  rintro ⟨hpast, -, -, hlive⟩
  rcases hdated.expiresAt with hexpires | ⟨-, hdeleted⟩
  · simp [hexpires, Category.expiresAt, h] at hpast
  · exact hdeleted hlive

/-- Where the dates are there, the query compares with both of them. -/
theorem disposes_dated (hvalid : c.minRetentionDays ≤ c.maxRetentionDays)
    (hd : d ∈ s.documents.rows) (hdated : d.Dated c) (h : c.isTransitory = false)
    (hmin : 0 < c.minRetentionDays) : s.Disposes cfg c d := by
  unfold Store.Disposes
  rw [if_neg (by simp [h])]
  intro hheld hlive
  have hexpires := hdated.expiresAt.resolve_right (by simp [h])
  have hmax : 0 < c.maxRetentionDays := hmin.trans_le hvalid
  have hretain : c.retainUntil d.createdAt =
      some (utcDate (d.createdAt + days c.minRetentionDays)) := if_pos hmin
  have hexpiry : c.expiresAt d.createdAt = some (d.createdAt + days c.maxRetentionDays) :=
    if_pos ⟨by simp [h], hmax⟩
  rw [mem_pendingDisposal hd, hdated.retainUntil, hexpires, hretain, hexpiry, Option.any_some,
    Option.any_some, decide_eq_true_eq, decide_eq_true_eq]
  constructor
  · rintro ⟨hpast, hfloor, -⟩
    exact ⟨hpast, .inr hfloor⟩
  · rintro ⟨hpast, hnone | hfloor⟩
    · exact absurd hnone hmin.ne'
    · exact ⟨hpast, hfloor, hheld, hlive⟩

/-- Where the category has no minimum, the query selects nothing. -/
theorem not_pending_of_no_minimum (hd : d ∈ s.documents.rows) (hdated : d.Dated c)
    (hmin : c.minRetentionDays = 0) : d.pk ∉ s.pendingDisposal cfg := by
  rw [mem_pendingDisposal hd, hdated.retainUntil]
  simp [Category.retainUntil, hmin]

theorem disposes_iff (hvalid : c.minRetentionDays ≤ c.maxRetentionDays)
    (hd : d ∈ s.documents.rows) (hdated : d.Dated c) :
    s.Disposes cfg c d ↔ c.isTransitory = true ∨ 0 < c.minRetentionDays ∨ d.legalHold = true ∨
      d.deletedAt ≠ none ∨ s.now < d.createdAt + days c.maxRetentionDays := by
  cases h : c.isTransitory with
  | true => exact iff_of_true (disposes_transitory hd hdated h) (.inl rfl)
  | false =>
    rcases Nat.eq_zero_or_pos c.minRetentionDays with hmin | hmin
    · have hnone : d.pk ∉ s.pendingDisposal cfg := not_pending_of_no_minimum hd hdated hmin
      unfold Store.Disposes Category.FloorPassed
      simp only [h, hmin, hnone, Bool.false_eq_true, if_false, false_or, true_or, and_true,
        false_iff, not_le, lt_irrefl]
      cases hheld : d.legalHold with
      | true => simp
      | false => by_cases hlive : d.deletedAt = none <;> simp [hlive]
    · exact iff_of_true (disposes_dated hvalid hd hdated h hmin) (.inr (.inl hmin))

/-- After any run from its creation on, a document is selected from the moment at which its maximum
and its floor have passed and not before, just if its category has a minimum, or the maximum has
not passed, or the schedule passes over it anyway. -/
theorem disposal_schedule {u v : Pool.State Store Worker}
    (h : (documents cfg).machine.Later u v) (hvalid : c.minRetentionDays ≤ c.maxRetentionDays)
    (hcreated : u.store.Schedules c d.pk) (hd : d ∈ v.store.documents.rows) :
    v.store.Disposes cfg c d ↔ c.isTransitory = true ∨ 0 < c.minRetentionDays ∨
      d.legalHold = true ∨ d.deletedAt ≠ none ∨
        v.store.now < d.createdAt + days c.maxRetentionDays :=
  disposes_iff hvalid hd ((schedules_later h hcreated).2 d hd rfl).2

section Example

private def shortTerm : Category :=
  { pk := 1, slug := "short-term", minRetentionDays := 0, maxRetentionDays := 30 }

private def announce (slug : String) : List (Pool.Label Worker Choice Event) :=
  [.spawn (.uploading officer slug ⟨"copy.pdf", "application/pdf", 3⟩), .act 0 { token := 5 }]

/-- A document of the category that has just been announced -/
private def created (c : Category) : Pool.State Store Worker :=
  (documents plainSettings).machine.final ⟨{ categories := [c] }, []⟩ (announce c.slug)

private def aged (c : Category) (n : ℕ) : Pool.State Store Worker :=
  (documents plainSettings).machine.final (created c) [.env (.pass (days n))]

private theorem created_reachable (c : Category) :
    (documents plainSettings).machine.Reachable (created c) :=
  Machine.Reachable.final (M := (documents plainSettings).machine)
    (s := ⟨{ categories := [c] }, []⟩) ⟨⟨rfl, rfl, rfl, rfl, rfl, rfl⟩, rfl⟩ _

private theorem created_later (c : Category) (n : ℕ) :
    (documents plainSettings).machine.Later (created c) (aged c n) :=
  Machine.Later.final (M := (documents plainSettings).machine) _ _

private theorem created_schedules {c : Category}
    (hrow : (created c).store.documents.rows = [announced c officer
      ⟨"copy.pdf", "application/pdf", 3⟩ 0 5 1])
    (hnext : (created c).store.documents.next = 2)
    (hcategories : (created c).store.categories = [c]) : (created c).store.Schedules c 1 := by
  refine ⟨by omega, fun d hd _ => ?_⟩
  rw [hrow] at hd
  obtain rfl := List.mem_singleton.mp hd
  refine ⟨?_, announced_dated⟩
  rw [Store.categoryOf, hcategories]
  simp [announced, scheduleExpiry]

private theorem aged_row {c : Category} {n : ℕ}
    (hrow : (aged c n).store.documents.rows = [announced c officer
      ⟨"copy.pdf", "application/pdf", 3⟩ 0 5 1]) :
    announced c officer ⟨"copy.pdf", "application/pdf", 3⟩ 0 5 1 ∈
      (aged c n).store.documents.rows := by
  rw [hrow]
  exact List.mem_singleton_self _

/-- Evidence is selected after the seven years of its maximum. -/
theorem evidence_disposed :
    (aged evidence 2554).store.pendingDisposal plainSettings = [] ∧
    (aged evidence 2555).store.pendingDisposal plainSettings = [1] ∧
    (aged evidence 2555).store.Disposes plainSettings evidence
      (announced evidence officer ⟨"copy.pdf", "application/pdf", 3⟩ 0 5 1) := by
  refine ⟨by decide +kernel, by decide +kernel, ?_⟩
  exact (disposal_schedule (created_later evidence 2555) (by decide)
    (created_schedules (by decide +kernel) (by decide +kernel) (by decide +kernel))
    (aged_row (by decide +kernel))).mpr (.inr (.inl (by decide)))

/-- A document without a minimum is kept beyond its maximum. -/
theorem short_term_kept :
    (documents plainSettings).machine.Reachable (aged shortTerm 31) ∧
    shortTerm.minRetentionDays ≤ shortTerm.maxRetentionDays ∧
    (created shortTerm).store.Schedules shortTerm 1 ∧
    (aged shortTerm 31).store.documents.rows.all (fun d =>
      d.pk = 1 ∧ !d.legalHold ∧ d.deletedAt = none ∧
        d.createdAt + days 30 ≤ (aged shortTerm 31).store.now) = true ∧
    (aged shortTerm 31).store.pendingDisposal plainSettings = [] ∧
    ¬ (aged shortTerm 31).store.Disposes plainSettings shortTerm
      (announced shortTerm officer ⟨"copy.pdf", "application/pdf", 3⟩ 0 5 1) := by
  have hschedules : (created shortTerm).store.Schedules shortTerm 1 :=
    created_schedules (by decide +kernel) (by decide +kernel) (by decide +kernel)
  have hselected : (aged shortTerm 31).store.pendingDisposal plainSettings = [] := by
    decide +kernel
  refine ⟨(created_reachable shortTerm).later (created_later shortTerm 31), by decide, hschedules,
    by decide +kernel, hselected, fun hdisposes => ?_⟩
  have hdue : 1 ∈ (aged shortTerm 31).store.pendingDisposal plainSettings :=
    (hdisposes rfl rfl).mpr ⟨by decide +kernel, .inl rfl⟩
  rw [hselected] at hdue
  cases hdue

end Example

end Civicos.Documents
