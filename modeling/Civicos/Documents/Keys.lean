import Civicos.Documents.Steps

/-!
# Keys

What is true of every row: its key names the document itself, and lies in quarantine until a scan.
A key that a worker is about to clear away belongs to a document that nobody will read again.
-/
namespace Civicos.Documents

open Library Library.Transaction

variable {cfg : Settings} {e : Choice} {s t : Store} {d a : Document} {p q : Worker} {k : Key}
  {f : Document → DocumentState} {es : List AuditEntry} {objects : Key → Option Content}

/-- A row that agrees with itself. -/
structure Document.Sound (d : Document) : Prop where
  own : ∀ k, d.storageKey = some k → k.document = d.pk
  fresh : d.scanStatus = .pendingUpload ∨ d.scanStatus = .scanning →
    ∃ k, d.storageKey = some k ∧ k.area = .quarantine
  purged : d.scanStatus = .purged → d.storageKey = none
  deleted : d.scanStatus.disposed = true ↔ d.deletedAt.isSome = true

theorem Touch.sound (h : Touch cfg e s p d f es objects) (hd : d.Sound) :
    (d.withState f).Sound := by
  have hlive (hstatus : d.scanStatus.disposed = false) : d.deletedAt = none := by
    have hdeleted := hd.deleted
    rw [hstatus] at hdeleted
    simpa using hdeleted
  cases h with
  | softDeleted | expired | fulfilled =>
    exact ⟨hd.own, by simp [Document.withState, Document.softDeleted, Document.fulfilled],
      by simp [Document.withState, Document.softDeleted, Document.fulfilled],
      by simp [Document.withState, Document.softDeleted, Document.fulfilled, ScanStatus.disposed]⟩
  | purged hstatus =>
    have hset : d.deletedAt.isSome = true := hd.deleted.mp (by rw [hstatus]; rfl)
    exact ⟨by simp [Document.withState, Document.purged],
      by simp [Document.withState, Document.purged],
      by simp [Document.withState, Document.purged],
      by simpa [Document.withState, Document.purged, ScanStatus.disposed] using hset⟩
  | held | released => exact ⟨hd.own, hd.fresh, hd.purged, hd.deleted⟩
  | confirmed hstatus hkey =>
    have hpending : d.scanStatus = .pendingUpload := by
      rcases hstatus with hstatus | hstatus
      · exact hstatus
      · rw [hd.purged hstatus] at hkey
        cases hkey
    have hnone := hlive (by rw [hpending]; rfl)
    exact ⟨hd.own, fun _ => hd.fresh (.inl hpending), by simp [Document.withState,
      Document.confirmed],
      by simp [Document.withState, Document.confirmed, ScanStatus.disposed, hnone]⟩
  | bypassed _ hstatus | activated hstatus =>
    have hnone := hlive (by rw [hstatus]; rfl)
    exact ⟨hd.own, by simp [Document.withState, Document.activated],
      by simp [Document.withState, Document.activated],
      by simp [Document.withState, Document.activated, ScanStatus.disposed, hnone]⟩
  | promoted hstatus hkey =>
    have hnone := hlive (by rw [hstatus]; rfl)
    refine ⟨fun k' hk' => ?_, by simp [Document.withState, Document.activated],
      by simp [Document.withState, Document.activated],
      by simp [Document.withState, Document.activated, ScanStatus.disposed, hnone]⟩
    obtain rfl := Option.some.inj hk'
    have hown := hd.own _ hkey
    exact hown
  | quarantined _ hstatus | failed hstatus =>
    have hnone := hlive (by rw [hstatus]; rfl)
    exact ⟨hd.own, by simp [Document.withState, Document.quarantinedAs],
      by simp [Document.withState, Document.quarantinedAs],
      by simp [Document.withState, Document.quarantinedAs, ScanStatus.disposed, hnone]⟩

theorem RowStep.sound (h : RowStep cfg e s p t d a) (hd : d.Sound) : a.Sound := by
  cases h with
  | kept => exact hd
  | touched touch => exact touch.sound hd
  | flagged => exact ⟨hd.own, hd.fresh, hd.purged, hd.deleted⟩

theorem Fresh.sound (h : Fresh s d) : d.Sound := by
  cases h with
  | announced | versioned =>
    refine ⟨fun k hk => ?_, fun _ => ⟨_, rfl, rfl⟩, fun h => ?_, ?_⟩
    · obtain rfl := Option.some.inj hk
      rfl
    · cases h
    · exact iff_of_false (fun h => by cases h) fun h => by cases h

theorem generated_sound (document : Document) (file pk : ℕ) :
    (generated document file pk).Sound := by
  refine ⟨fun k hk => ?_, ?_, ?_, ?_⟩
  · obtain rfl := Option.some.inj hk
    rfl
  · simp [generated]
  · simp [generated]
  · simp [generated, ScanStatus.disposed]

/-- Promotion leaves every key alone but the one that it copies to. -/
theorem objects_copied {k' : Key} (h : k'.promoted ≠ k) : (s.copied k').objects k = s.objects k :=
  Function.update_of_ne h.symm _ _

def Store.Sound (s : Store) : Prop := ∀ d ∈ s.documents.rows, d.Sound

theorem Change.sound (h : Change cfg e s p t) (hs : s.Sound) : t.Sound := by
  intro a ha
  rcases h.origin ha with ⟨d, hd, hstep⟩ | hfresh
  · exact hstep.sound (hs d hd)
  · exact hfresh.sound

/-- A key in quarantine is not copied over another document's key, nor over its own. -/
theorem promoted_ne (hs : s.Sound) (hd : d ∈ s.documents.rows) (hkey : d.storageKey = some k)
    {k' : Key} (ha : a ∈ s.documents.rows) (hkey' : a.storageKey = some k')
    (harea : k'.area = .quarantine) : k'.promoted ≠ k := by
  rintro rfl
  have hpk : a.pk = d.pk := ((hs a ha).own k' hkey').symm.trans ((hs d hd).own k'.promoted hkey)
  obtain rfl : a = d := Table.eq_of_pk ha hd hpk
  have hsame : k' = k'.promoted := Option.some.inj (hkey'.symm.trans hkey)
  rw [hsame] at harea
  cases harea

/-- The object of a document is only ever taken away under its key. -/
theorem Change.objects_eq (h : Change cfg e s p t) (hs : s.Sound) (hd : d ∈ s.documents.rows)
    (hkey : d.storageKey = some k) (htakes : p.takes ≠ some k) : t.objects k = s.objects k := by
  cases h with
  | kept _ hobjects | announced _ _ hobjects | removed _ _ hobjects | withdrawn _ _ hobjects
  | versioned _ _ _ _ _ _ hobjects => exact congrFun hobjects k
  | touched ha touch _ hobjects =>
    rw [hobjects]
    cases touch with
    | promoted _ hkey' harea => exact objects_copied (promoted_ne hs hd hkey ha hkey' harea)
    | _ => rfl
  | taken hp _ hobjects =>
    rw [hobjects]
    refine Function.update_of_ne ?_ _ _
    rintro rfl
    exact htakes hp
  | copied _ ha _ hkey' harea _ hobjects =>
    rw [hobjects]
    exact objects_copied (promoted_ne hs hd hkey ha hkey' harea)

theorem env_sound {x : Event} (hs : s.Sound) (h : (documents cfg).env s x = some t) : t.Sound := by
  intro a ha
  rcases (env_rows h).2.1 a ha with ha | ⟨document, file, rfl⟩
  · exact hs a ha
  · exact generated_sound ..

theorem sound_init (h : (documents cfg).Init s) : s.Sound := by
  intro d hd
  rw [h.1] at hd
  cases hd

theorem sound_of_reachable {s : Pool.State Store Worker}
    (h : (documents cfg).machine.Reachable s) : s.store.Sound :=
  Program.store_invariant (fun _ => sound_init)
    (fun _ _ _ _ _ hs hact => (act_change hact).2.sound hs)
    (fun _ _ _ hs henv => env_sound hs henv) h

/-! ## A server for examples -/

/-- A server that inspects nothing and lives in UTC. -/
def plainSettings : Settings where
  allowedUploadMimeTypes := ["application/pdf"]
  inspector := ⟨none, fun _ => none, fun _ => none⟩
  magicBytesRequired := false
  localdate := utcDate
  localdate_mono _ _ h := Nat.div_le_div_right h

def evidence : Category := { pk := 1, slug := "evidence" }

def emptyStore : Store := { categories := [evidence] }

theorem init_emptyStore (cfg : Settings) : (documents cfg).Init emptyStore :=
    ⟨rfl, rfl, rfl, rfl, rfl, rfl⟩

/-- An officer with every permission. -/
def officer : Actor := { pk := 9, isSuperuser := true }

/-- A document as a caller passes it in. -/
def receipt : Document := {
  pk := 1, category := 1, uploadedBy := 7, sizeBytes := 3, createdAt := 0
  storageKey := none, mimeType := "application/pdf" }

/-- An upload, up to the verdict of the scanner. -/
def scannedUpload : List (Pool.Label Worker Choice Event) :=
  [.spawn (.uploading officer "evidence" ⟨"copy.pdf", "application/pdf", 3⟩), .act 0 { token := 5 },
    .act 0 {}, .env (.overwrite ⟨.quarantine, 1, 5⟩ [80]),
    .spawn (.calling (.confirmUpload officer.pk 1)), .act 1 {},
    .spawn (.scanning 1), .act 2 {}, .act 2 {}, .act 2 {}]

end Civicos.Documents
