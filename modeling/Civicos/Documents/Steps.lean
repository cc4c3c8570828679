import Civicos.Documents.System

/-!
# Steps of the document system

What each transaction does when it returns, and from that everything a block can do to the rows and
to the stored objects.
-/
namespace Civicos.Documents

open Library Library.Transaction

variable {cfg : Settings} {e : Choice} {s t : Store} {u : Unit} {d a : Document} {pk : ℕ}
  {f : Document → DocumentState} {audited : Bool} {entry : AuditEntry}

namespace Store

/-- The store after `saveDocument`. -/
def save (pk : ℕ) (f : Document → DocumentState) (s : Store) : Store :=
  documentTable.set
    (s.documents.rewrite (·.pk = pk) (Document.withState f) (Document.preserves f)) s

/-- The store after `recordEvent`. -/
def log (audited : Bool) (entry : AuditEntry) (s : Store) : Store :=
  if audited then { s with audit := s.audit ++ [entry] } else s

section Log

@[simp] theorem documents_log : (s.log audited entry).documents = s.documents := by
  unfold log; split <;> rfl

@[simp] theorem objects_log : (s.log audited entry).objects = s.objects := by
  unfold log; split <;> rfl

@[simp] theorem now_log : (s.log audited entry).now = s.now := by
  unfold log; split <;> rfl

@[simp] theorem categories_log : (s.log audited entry).categories = s.categories := by
  unfold log; split <;> rfl

@[simp] theorem tokens_log : (s.log audited entry).tokens = s.tokens := by
  unfold log; split <;> rfl

@[simp] theorem redemptions_log : (s.log audited entry).redemptions = s.redemptions := by
  unfold log; split <;> rfl

@[simp] theorem audit_log :
    (s.log audited entry).audit = s.audit ++ if audited then [entry] else [] := by
  unfold log; split <;> simp

end Log

section Save

@[simp] theorem objects_save : (s.save pk f).objects = s.objects := rfl

@[simp] theorem now_save : (s.save pk f).now = s.now := rfl

@[simp] theorem categories_save : (s.save pk f).categories = s.categories := rfl

@[simp] theorem audit_save : (s.save pk f).audit = s.audit := rfl

@[simp] theorem tokens_save : (s.save pk f).tokens = s.tokens := rfl

@[simp] theorem redemptions_save : (s.save pk f).redemptions = s.redemptions := rfl

@[simp] theorem next_save : (s.save pk f).documents.next = s.documents.next := rfl

theorem documents_save : (s.save pk f).documents =
    s.documents.rewrite (·.pk = pk) (Document.withState f) (Document.preserves f) := rfl

theorem mem_save_iff : a ∈ (s.save pk f).documents.rows ↔
    ∃ d ∈ s.documents.rows, (if d.pk = pk then d.withState f else d) = a := by
  simp [documents_save]

theorem mem_save (hd : d ∈ s.documents.rows) : a ∈ (s.save d.pk f).documents.rows ↔
    (a ∈ s.documents.rows ∧ a.pk ≠ d.pk) ∨ a = d.withState f :=
  Numbered.mem_rewrite_row (Document.preserves f) hd

end Save

end Store

theorem saveDocument_bind {α : Type} {g : Unit → Tx α} {b : α} :
    (saveDocument pk f >>= g) s = .ok (b, t) ↔ g () (s.save pk f) = .ok (b, t) := Iff.rfl

theorem recordEvent_ok :
    recordEvent audited entry s = .ok (u, t) ↔ t = s.log audited entry := by
  unfold recordEvent Store.log
  split <;> simp [eq_comm]

theorem documentOf_bind {α : Type} {g : Document → Tx α} {b : α} :
    (documentOf pk >>= g) s = .ok (b, t) ↔
      ∃ d, (d ∈ s.documents.rows ∧ d.pk = pk) ∧ g d s = .ok (b, t) := by
  unfold documentOf
  rw [fetch_bind]
  exact exists_congr fun d => and_congr_left fun _ => Numbered.get_eq_some

/-! ## What each transaction does -/

theorem softDeleteChecks_ok :
    softDeleteChecks d s = .ok (u, t) ↔ (d.legalHold = false ∧ d.deletedAt = none) ∧ t = s := by
  unfold softDeleteChecks
  constructor
  · intro h
    obtain ⟨hheld, h⟩ := guard_ok h
    obtain ⟨hdeleted, rfl⟩ := check_ok.mp h
    exact ⟨⟨by simpa using hheld, not_not.mp hdeleted⟩, rfl⟩
  · rintro ⟨⟨hheld, hdeleted⟩, rfl⟩
    simp [hheld, hdeleted]

theorem softDelete_ok {document : Document} {deletedBy : Option ℕ} {reason : String}
    (h : softDelete audited document deletedBy reason s = .ok (u, t)) :
    ∃ d ∈ s.documents.rows, d.pk = document.pk ∧ d.legalHold = false ∧ d.deletedAt = none ∧
      t = (s.save d.pk (Document.softDeleted s.now deletedBy reason)).log audited
        (deletionEntry d.pk deletedBy reason) := by
  obtain ⟨-, h⟩ := (check_bind fun _ _ => softDeleteChecks_ok).mp h
  obtain ⟨d, ⟨hd, hpk⟩, h⟩ := documentOf_bind.mp h
  obtain ⟨⟨hheld, hdeleted⟩, h⟩ := (check_bind fun _ _ => softDeleteChecks_ok).mp h
  obtain ⟨_, _, ⟨⟩, h⟩ := bind_ok.mp h
  have h := saveDocument_bind.mp h
  exact ⟨d, hd, hpk, hheld, hdeleted, recordEvent_ok.mp h⟩

theorem notHeld_ok : notHeld d s = .ok (u, t) ↔ d.legalHold = false ∧ t = s := by
  unfold notHeld
  rw [check_ok, Bool.not_eq_true]

theorem notDisposed_ok : notDisposed d s = .ok (u, t) ↔ d.deletedAt = none ∧ t = s := by
  unfold notDisposed
  rw [check_ok, not_not]

theorem markPurposeFulfilled_ok {document : Document} {actor : ℕ}
    (h : markPurposeFulfilled audited document actor s = .ok (u, t)) :
    ∃ d ∈ s.documents.rows, d.pk = document.pk ∧ d.legalHold = false ∧ d.deletedAt = none ∧
      (∃ c, s.categoryOf d = some c ∧ c.isTransitory = true) ∧
      t = (s.save d.pk (Document.fulfilled s.now actor)).log audited
        (deletionEntry d.pk (some actor) "transitory_purpose_fulfilled") := by
  obtain ⟨_, _, h⟩ := ask_bind.mp h
  obtain ⟨-, h⟩ := guard_ok h
  obtain ⟨-, h⟩ := (check_bind fun _ _ => notHeld_ok).mp h
  obtain ⟨-, h⟩ := (check_bind fun _ _ => notDisposed_ok).mp h
  obtain ⟨d, ⟨hd, hpk⟩, h⟩ := documentOf_bind.mp h
  obtain ⟨hdeleted, h⟩ := (check_bind fun _ _ => notDisposed_ok).mp h
  obtain ⟨hheld, h⟩ := (check_bind fun _ _ => notHeld_ok).mp h
  obtain ⟨c, hc, h⟩ := ask_bind.mp h
  obtain ⟨htransitory, h⟩ := guard_ok h
  obtain ⟨_, _, ⟨⟩, h⟩ := bind_ok.mp h
  have h := saveDocument_bind.mp h
  exact ⟨d, hd, hpk, hheld, hdeleted, ⟨c, hc, by simpa using htransitory⟩, recordEvent_ok.mp h⟩

theorem captureKey_ok {document : ℕ} {key : Option (Option Key)}
    (h : captureKey cfg document s = .ok (key, t)) :
    t = s ∧ ∀ k, key = some k → ∃ d ∈ s.documents.rows, d.pk = document ∧ d.legalHold = false ∧
      d.scanStatus = .deleted ∧ d.storageKey = k := by
  obtain ⟨d, ⟨hd, hpk⟩, h⟩ := documentOf_bind.mp h
  by_cases hpurged : d.scanStatus = .purged
  · rw [if_pos hpurged] at h
    obtain ⟨rfl, rfl⟩ := pure_ok.mp h
    exact ⟨rfl, by simp⟩
  · rw [if_neg hpurged] at h
    obtain ⟨hheld, h⟩ := guard_ok h
    obtain ⟨-, h⟩ := guard_ok h
    obtain ⟨hstatus, h⟩ := guard_ok h
    obtain ⟨_, _, ⟨⟩, h⟩ := bind_ok.mp h
    obtain ⟨-, h⟩ := guard_ok h
    obtain ⟨rfl, rfl⟩ := pure_ok.mp h
    refine ⟨rfl, fun k hk => ⟨d, hd, hpk, by simpa using hheld, not_not.mp hstatus, ?_⟩⟩
    exact Option.some.inj hk

theorem hardDelete_ok {document : Document} {key : Option (Option Key)}
    (h : hardDelete cfg document s = .ok (key, t)) :
    t = s ∧ ∀ k, key = some k → ∃ d ∈ s.documents.rows, d.pk = document.pk ∧ d.legalHold = false ∧
      d.scanStatus = .deleted ∧ d.storageKey = k := by
  obtain ⟨go, u, hchecks, h⟩ := bind_ok.mp h
  have hu : u = s := by
    unfold hardDeleteChecks at hchecks
    obtain ⟨-, hchecks⟩ := guard_ok hchecks
    obtain ⟨-, hchecks⟩ := guard_ok hchecks
    by_cases hpurged : document.scanStatus = .purged
    · rw [if_pos hpurged] at hchecks
      exact (pure_ok.mp hchecks).2
    · rw [if_neg hpurged] at hchecks
      obtain ⟨-, hchecks⟩ := guard_ok hchecks
      exact (pure_ok.mp hchecks).2
  subst hu
  cases go with
  | false =>
    obtain ⟨rfl, rfl⟩ := pure_ok.mp h
    exact ⟨rfl, by simp⟩
  | true => exact captureKey_ok h

theorem recordPurge_ok {document : ℕ} {clearedAt : Instant}
    (h : recordPurge audited document clearedAt s = .ok (u, t)) :
    t = s ∨ ∃ d ∈ s.documents.rows, d.pk = document ∧ d.scanStatus = .deleted ∧
      t = (s.save d.pk Document.purged).log audited {
        eventType := .recordPurged
        document := some d.pk
        detail := .purged clearedAt } := by
  obtain ⟨_, _, ⟨⟩, h⟩ := bind_ok.mp h
  split at h
  next hany =>
    obtain ⟨d, hd, hprop⟩ := List.any_eq_true.mp hany
    obtain ⟨rfl, hstatus⟩ := of_decide_eq_true hprop
    have h := saveDocument_bind.mp h
    exact .inr ⟨d, hd, rfl, hstatus, recordEvent_ok.mp h⟩
  next => exact .inl (pure_ok.mp h).2

theorem applyLegalHold_ok {document : Document} {setBy : Actor} {reason : String}
    (h : applyLegalHold audited document setBy reason s = .ok (u, t)) :
    ∃ d ∈ s.documents.rows, d.pk = document.pk ∧ d.legalHold = false ∧
      t = (s.save d.pk (Document.held reason setBy.pk)).log audited {
        eventType := .legalHoldApplied
        actor := some setBy.pk
        document := some d.pk
        detail := .held reason setBy.pk } := by
  obtain ⟨-, h⟩ := (check_bind fun _ _ => check_ok).mp h
  obtain ⟨-, h⟩ := guard_ok h
  obtain ⟨d, ⟨hd, hpk⟩, h⟩ := documentOf_bind.mp h
  obtain ⟨hheld, h⟩ := guard_ok h
  have h := saveDocument_bind.mp h
  exact ⟨d, hd, hpk, by simpa using hheld, recordEvent_ok.mp h⟩

theorem releaseLegalHold_ok {document : Document} {releasedBy : Actor} {reason : String}
    (h : releaseLegalHold audited document releasedBy reason s = .ok (u, t)) :
    ∃ d ∈ s.documents.rows, d.pk = document.pk ∧ d.legalHold = true ∧
      t = (s.save d.pk Document.released).log audited {
        eventType := .legalHoldReleased
        actor := some releasedBy.pk
        document := some d.pk
        detail := .released releasedBy.pk reason } := by
  obtain ⟨-, h⟩ := (check_bind fun _ _ => check_ok).mp h
  obtain ⟨-, h⟩ := guard_ok h
  obtain ⟨d, ⟨hd, hpk⟩, h⟩ := documentOf_bind.mp h
  obtain ⟨hheld, h⟩ := guard_ok h
  have h := saveDocument_bind.mp h
  exact ⟨d, hd, hpk, by simpa using hheld, recordEvent_ok.mp h⟩

theorem checkFile_same {user : Actor} {c : Category} {file : FileRequest} {advice : String}
    (h : checkFile cfg user c file advice s = .ok (u, t)) : t = s := by
  unfold checkFile at h
  obtain ⟨-, h⟩ := guard_ok h
  obtain ⟨-, h⟩ := guard_ok h
  obtain ⟨-, h⟩ := guard_ok h
  obtain ⟨-, h⟩ := guard_ok h
  exact (check_ok.mp h).2

theorem announceUpload_ok {user : Actor} {categorySlug : String} {file : FileRequest} {uuid : ℕ}
    (h : announceUpload cfg user categorySlug file uuid s = .ok (d, t)) :
    ∃ c, d = announced c user file s.now uuid s.documents.next ∧
      ∃ T, s.documents.insert (announced c user file s.now uuid) = .ok T ∧
        t = Store.documentTable.set T s := by
  obtain ⟨c, -, h⟩ := ask_bind.mp h
  obtain ⟨-, h⟩ := guard_ok h
  obtain ⟨_, _, hcheck, h⟩ := bind_ok.mp h
  rw [checkFile_same hcheck] at h
  obtain ⟨_, _, ⟨⟩, h⟩ := bind_ok.mp h
  obtain ⟨rfl, T, hT, rfl⟩ := append_ok.mp h
  exact ⟨c, rfl, T, hT, rfl⟩

/-- The store after `deleteDocuments`. -/
def Store.drop (p : Document → Bool) (s : Store) : Store :=
  { s with
    documents := s.documents.keep fun d => !p d
    tokens := s.tokens.keep fun t => !(s.documents.rows.any fun d => p d && d.pk = t.document) }

theorem deleteDocuments_ok {refused : DocumentError} {p : Document → Bool}
    (h : deleteDocuments refused p s = .ok (u, t)) :
    (∀ d ∈ s.documents.rows, p d = true → s.isProtected d = false) ∧ t = s.drop p := by
  obtain ⟨_, _, ⟨⟩, h⟩ := bind_ok.mp h
  obtain ⟨hfree, h⟩ := guard_ok h
  have h := removeRows_bind.mp h
  refine ⟨fun d hd hp => ?_, removeRows_ok.mp h⟩
  cases hprotected : s.isProtected d with
  | false => rfl
  | true => exact absurd (List.any_eq_true.mpr ⟨d, hd, by simp [hp, hprotected]⟩) hfree

theorem collectStale_ok {chunk pks : List ℕ} (h : collectStale chunk s = .ok (pks, t)) :
    t = s ∧ ∀ i, i ∈ pks ↔
      i ∈ chunk ∧ ∃ d ∈ s.documents.rows, d.pk = i ∧ d.scanStatus = .pendingUpload := by
  obtain ⟨_, _, ⟨⟩, h⟩ := bind_ok.mp h
  obtain ⟨-, h⟩ := guard_ok h
  obtain ⟨rfl, rfl⟩ := pure_ok.mp h
  refine ⟨rfl, fun i => ?_⟩
  rw [List.mem_map]
  constructor
  · rintro ⟨d, hd, rfl⟩
    obtain ⟨hd, hprop⟩ := List.mem_filter.mp hd
    obtain ⟨hchunk, hstatus⟩ := of_decide_eq_true hprop
    exact ⟨hchunk, d, hd, rfl, hstatus⟩
  · rintro ⟨hchunk, d, hd, rfl, hstatus⟩
    exact ⟨d, List.mem_filter.mpr ⟨hd, decide_eq_true ⟨hchunk, hstatus⟩⟩, rfl⟩

theorem confirmUpload_ok {user document : ℕ}
    (h : confirmUpload cfg e user document s = .ok (u, t)) :
    t = s ∨ ∃ d ∈ s.documents.rows, d.pk = document ∧ d.uploadedBy = user ∧
      (d.scanStatus = .pendingUpload ∨ d.scanStatus = .purged) ∧
      (∃ k content, d.storageKey = some k ∧ s.objects k = some content) ∧
      ∃ c detected, t = (s.save d.pk (Document.confirmed detected)).log e.audited
        (confirmationEntry c user d detected) := by
  obtain ⟨d, hget, h⟩ := fetch_bind.mp h
  obtain ⟨hd, hpk⟩ := Numbered.get_eq_some.mp hget
  obtain ⟨huser, h⟩ := guard_ok h
  by_cases hdone : d.scanStatus = .scanning ∨ d.scanStatus = .active
  · rw [if_pos hdone] at h
    exact .inl (pure_ok.mp h).2
  · rw [if_neg hdone] at h
    obtain ⟨hrefused, h⟩ := guard_ok h
    obtain ⟨content, hread, h⟩ := ask_bind.mp h
    obtain ⟨k, hkey, hobject⟩ := Option.bind_eq_some_iff.mp hread
    obtain ⟨c, -, h⟩ := ask_bind.mp h
    obtain ⟨-, h⟩ := guard_ok h
    obtain ⟨detected, -, h⟩ := lift_bind.mp h
    obtain ⟨_, -, h⟩ := lift_bind.mp h
    have h := saveDocument_bind.mp h
    refine .inr ⟨d, hd, hpk, not_not.mp huser, ?_, ⟨k, content, hkey, hobject⟩, c, detected,
      recordEvent_ok.mp h⟩
    cases hstatus : d.scanStatus <;> simp [hstatus] at hdone hrefused ⊢

theorem chainRoot_ok {r document : Document} (h : chainRoot document s = .ok (r, t)) :
    t = s ∧ (document.rootDocument = none ∧ r = document ∨
      ∃ root, document.rootDocument = some root ∧ s.documents.get root = some r) := by
  unfold chainRoot at h
  cases hroot : document.rootDocument with
  | none =>
    rw [hroot] at h
    obtain ⟨rfl, rfl⟩ := pure_ok.mp h
    exact ⟨rfl, .inl ⟨rfl, rfl⟩⟩
  | some root =>
    rw [hroot] at h
    cases hget : s.documents.get root with
    | none =>
      have hrun : fetch Store.documentTable unresolved root s = .error unresolved :=
        fetch_of_none hget
      cases hrun.symm.trans h
    | some r' =>
      have hrun : fetch Store.documentTable unresolved root s = .ok (r', s) := fetch_of_get hget
      cases hrun.symm.trans h
      exact ⟨rfl, .inr ⟨root, rfl, hget⟩⟩

theorem currentLatest_mem {chain : List Document} (h : currentLatest chain = some d) :
    d ∈ chain := by
  have hmem : d ∈ if chain.any (·.isLatestVersion) then chain.filter (·.isLatestVersion)
      else chain := List.argmax_mem h
  split at hmem
  · exact (List.mem_filter.mp hmem).1
  · exact hmem

/-- The versions of `create_new_version`: `root` names the chain that the loaded document belongs
to, `previous` is the latest version until now. -/
theorem announceVersion_ok {user : Actor} {document new previous : Document} {file : FileRequest}
    {description : String}
    (h : announceVersion cfg e user document file description s = .ok ((new, previous), t)) :
    ∃ c, ∃ root ∈ s.documents.rows,
      (document.rootDocument = none ∧ root.pk = document.pk ∨
        document.rootDocument = some root.pk ∧ root.rootDocument = none) ∧
      root.deletedAt = none ∧ currentLatest (s.chain root.pk) = some previous ∧
      new = nextVersion c user file description root previous s.now e.token s.documents.next ∧
      ∃ T, (s.save previous.pk (Document.withLatest false)).documents.insert
          (nextVersion c user file description root previous s.now e.token) = .ok T ∧
        t = (Store.documentTable.set T (s.save previous.pk (Document.withLatest false))).log
          e.audited (versionEntry c user file root new) := by
  obtain ⟨given, _, hroot, h⟩ := bind_ok.mp h
  obtain ⟨hs, hgiven⟩ := chainRoot_ok hroot
  rw [hs] at h
  obtain ⟨htop, h⟩ := guard_ok h
  obtain ⟨-, h⟩ := guard_ok h
  obtain ⟨c, -, h⟩ := ask_bind.mp h
  obtain ⟨-, h⟩ := guard_ok h
  obtain ⟨_, _, hcheck, h⟩ := bind_ok.mp h
  rw [checkFile_same hcheck] at h
  obtain ⟨root, hget, h⟩ := fetch_bind.mp h
  obtain ⟨hmem, hpk⟩ := Numbered.get_eq_some.mp hget
  obtain ⟨hdeleted, h⟩ := guard_ok h
  obtain ⟨latest, hlatest, h⟩ := ask_bind.mp h
  obtain ⟨_, _, ⟨⟩, h⟩ := bind_ok.mp h
  have h := saveDocument_bind.mp h
  obtain ⟨row, v, happend, h⟩ := bind_ok.mp h
  obtain ⟨hrow, T, hT, rfl⟩ := append_ok.mp happend
  obtain ⟨_, w, hlog, h⟩ := bind_ok.mp h
  obtain ⟨hpair, rfl⟩ := pure_ok.mp h
  obtain ⟨rfl, rfl⟩ := Prod.mk.inj hpair
  refine ⟨c, root, hmem, ?_, not_not.mp hdeleted, hlatest, hrow, T, hT, recordEvent_ok.mp hlog⟩
  rcases hgiven with ⟨hnone, rfl⟩ | ⟨r, hsome, hgot⟩
  · exact .inl ⟨hnone, hpk⟩
  · obtain ⟨hgivenMem, rfl⟩ := Numbered.get_eq_some.mp hgot
    obtain rfl : root = given := Table.eq_of_pk hmem hgivenMem hpk
    exact .inr ⟨hsome, not_not.mp htop⟩

theorem claimScan_ok {document : ℕ} {key : Option (Option Key)}
    (h : claimScan document s = .ok (key, t)) :
    t = s ∧ ∀ k, key = some k → ∃ d ∈ s.documents.rows, d.pk = document ∧
      d.scanStatus = .scanning ∧ d.storageKey = k := by
  obtain ⟨d, ⟨hd, hpk⟩, h⟩ := documentOf_bind.mp h
  by_cases hstatus : d.scanStatus ≠ .scanning
  · rw [if_pos hstatus] at h
    obtain ⟨rfl, rfl⟩ := pure_ok.mp h
    exact ⟨rfl, by simp⟩
  · rw [if_neg hstatus] at h
    obtain ⟨rfl, rfl⟩ := pure_ok.mp h
    exact ⟨rfl, fun k hk => ⟨d, hd, hpk, not_not.mp hstatus, Option.some.inj hk⟩⟩

theorem markActiveDevBypass_ok {document : ℕ} (h : markActiveDevBypass document s = .ok (u, t)) :
    t = s ∨ ∃ d ∈ s.documents.rows, d.pk = document ∧ d.scanStatus = .scanning ∧
      t = s.save d.pk (Document.activated s.now "DEV_BYPASS" d.storageKey) := by
  obtain ⟨d, ⟨hd, hpk⟩, h⟩ := documentOf_bind.mp h
  by_cases hstatus : d.scanStatus ≠ .scanning
  · rw [if_pos hstatus] at h
    exact .inl (pure_ok.mp h).2
  · rw [if_neg hstatus] at h
    obtain ⟨_, _, ⟨⟩, h⟩ := bind_ok.mp h
    exact .inr ⟨d, hd, hpk, not_not.mp hstatus, rewriteRows_ok.mp h⟩

theorem markActiveClamav_ok {document : ℕ} {key : Option Key}
    (h : markActiveClamav audited document s = .ok (key, t)) :
    (key = none ∧ t = s) ∨ ∃ d ∈ s.documents.rows, d.pk = document ∧ d.scanStatus = .scanning ∧
      key = s.promotable d.storageKey ∧
      t = ((key.elim s s.copied).save d.pk (Document.activated s.now "OK"
        (key.elim d.storageKey fun k => some k.promoted))).log audited (activationEntry d.pk) := by
  obtain ⟨d, ⟨hd, hpk⟩, h⟩ := documentOf_bind.mp h
  by_cases hstatus : d.scanStatus ≠ .scanning
  · rw [if_pos hstatus] at h
    exact .inl (pure_ok.mp h)
  · rw [if_neg hstatus] at h
    obtain ⟨_, _, ⟨⟩, h⟩ := bind_ok.mp h
    obtain ⟨_, _, ⟨⟩, h⟩ := bind_ok.mp h
    have h := saveDocument_bind.mp h
    obtain ⟨_, _, hlog, h⟩ := bind_ok.mp h
    obtain ⟨rfl, rfl⟩ := pure_ok.mp h
    exact .inr ⟨d, hd, hpk, not_not.mp hstatus, rfl, recordEvent_ok.mp hlog⟩

theorem markQuarantined_ok {document : ℕ} {result : String} {key : Option Key}
    (h : markQuarantined audited document result s = .ok (key, t)) :
    (key = none ∧ t = s) ∨ ∃ d ∈ s.documents.rows, d.pk = document ∧ d.scanStatus = .scanning ∧
      key = d.storageKey ∧
      t = (s.save d.pk (Document.quarantinedAs s.now result)).log audited
        (threatEntry d.pk result) := by
  obtain ⟨d, ⟨hd, hpk⟩, h⟩ := documentOf_bind.mp h
  by_cases hstatus : d.scanStatus ≠ .scanning
  · rw [if_pos hstatus] at h
    exact .inl (pure_ok.mp h)
  · rw [if_neg hstatus] at h
    obtain ⟨_, _, ⟨⟩, h⟩ := bind_ok.mp h
    have h := saveDocument_bind.mp h
    obtain ⟨_, _, hlog, h⟩ := bind_ok.mp h
    obtain ⟨rfl, rfl⟩ := pure_ok.mp h
    exact .inr ⟨d, hd, hpk, not_not.mp hstatus, rfl, recordEvent_ok.mp hlog⟩

theorem issueAccessToken_ok {document : Document} {user : Actor}
    (h : issueAccessToken cfg e document user s = .ok (u, t)) :
    ∃ d ∈ s.documents.rows, d.available = true ∧ ∃ T, s.tokens.insert (fun pk => {
        pk
        document := d.pk
        issuedTo := user.pk
        token := e.token
        expiresAt := s.now + seconds cfg.accessTokenTtlSeconds }) = .ok T ∧
      t = (Store.tokenTable.set T s).log e.audited
        (viewedEntry user.pk d.pk s.tokens.next "token_issued") := by
  unfold issueAccessToken at h
  obtain ⟨-, h⟩ := guard_ok h
  obtain ⟨d, hget, h⟩ := fetch_bind.mp h
  obtain ⟨hd, -⟩ := Numbered.get_eq_some.mp hget
  obtain ⟨havailable, h⟩ := guard_ok h
  obtain ⟨_, _, ⟨⟩, h⟩ := bind_ok.mp h
  obtain ⟨_, _, happend, h⟩ := bind_ok.mp h
  obtain ⟨rfl, T, hT, rfl⟩ := append_ok.mp happend
  exact ⟨d, hd, by simpa using havailable, T, hT, recordEvent_ok.mp h⟩

theorem purgeExpiredTokens_ok (h : purgeExpiredTokens audited s = .ok (u, t)) :
    ∃ audited count, t = (Store.tokenTable.set (s.tokens.keep fun a =>
      !(a.expiresAt ≤ s.now || a.usedAt.isSome)) s).log audited {
        eventType := .recordPurged
        document := none
        detail := .tokensPurged count } := by
  obtain ⟨_, _, ⟨⟩, h⟩ := bind_ok.mp h
  have h := removeRows_bind.mp h
  split at h
  next => exact ⟨_, _, recordEvent_ok.mp h⟩
  next =>
    obtain ⟨-, rfl⟩ := pure_ok.mp h
    exact ⟨false, 0, rfl⟩

theorem readToken_ok {token user : ℕ} {a : AccessToken}
    (h : readToken token user s = .ok ((a, d), t)) :
    t = s ∧ a ∈ s.tokens.rows ∧ d ∈ s.documents.rows ∧ a.document = d.pk ∧ a.issuedTo = user ∧
      a.usedAt = none ∧ s.now < a.expiresAt ∧ d.available = true := by
  obtain ⟨a', hfind, h⟩ := ask_bind.mp h
  obtain ⟨d', hget, h⟩ := fetch_bind.mp h
  obtain ⟨hd, hpk⟩ := Numbered.get_eq_some.mp hget
  obtain ⟨huser, h⟩ := guard_ok h
  obtain ⟨hused, h⟩ := guard_ok h
  obtain ⟨_, _, ⟨⟩, h⟩ := bind_ok.mp h
  obtain ⟨hexpired, h⟩ := guard_ok h
  obtain ⟨havailable, h⟩ := guard_ok h
  obtain ⟨hpair, rfl⟩ := pure_ok.mp h
  obtain ⟨rfl, rfl⟩ := Prod.mk.inj hpair
  exact ⟨rfl, List.mem_of_find?_eq_some hfind, hd, hpk.symm, not_not.mp huser, not_not.mp hused,
    Nat.lt_of_not_le hexpired, by simpa using havailable⟩

theorem commitRedemption_ok {token user : ℕ} {usedAt : Instant}
    (h : commitRedemption audited token user usedAt s = .ok (u, t)) :
    ∃ a ∈ s.tokens.rows, a.pk = token ∧ a.usedAt = none ∧
      t = { (Store.tokenTable.set (s.tokens.rewrite (·.pk = a.pk) (.used usedAt)
          (AccessToken.preserves usedAt)) s).log audited
            (viewedEntry user a.document a.pk "token_redeemed") with
        redemptions := s.redemptions ++
          [{ token := a, user, usedAt, document := s.documents.get a.document }] } := by
  obtain ⟨a, hget, h⟩ := fetch_bind.mp h
  obtain ⟨ha, hpk⟩ := Numbered.get_eq_some.mp hget
  obtain ⟨hused, h⟩ := guard_ok h
  have h := rewriteRows_bind.mp h
  obtain ⟨_, v, hlog, h⟩ := bind_ok.mp h
  obtain rfl := recordEvent_ok.mp hlog
  obtain ⟨⟩ := h
  refine ⟨a, ha, hpk, not_not.mp hused, ?_⟩
  unfold Store.log
  split <;> rfl

/-! ## What a block does -/

/-- The status that an entry of the audit log announces. -/
def AuditEntry.status (x : AuditEntry) : Option ScanStatus :=
  match x.eventType, x.detail with
  | .recordCreated, .confirmed .. => some .scanning
  | .statusChanged, _ => some .active
  | .threatDetected, _ => some .quarantined
  | .recordDeleted, _ => some .deleted
  | .recordPurged, .purged _ => some .purged
  | _, _ => none

/-- What a block does to one row: the worker, the row, its new columns, the entries that are logged,
and the objects afterwards. -/
inductive Touch (cfg : Settings) (e : Choice) (s : Store) :
    Worker → Document → (Document → DocumentState) → List AuditEntry → (Key → Option Content) → Prop
  | softDeleted {d document : Document} {deletedBy : Option ℕ} {reason : String}
      (hpk : d.pk = document.pk) (hheld : d.legalHold = false) (hlive : d.deletedAt = none) :
      Touch cfg e s (.calling (.softDelete document deletedBy reason)) d
        (Document.softDeleted s.now deletedBy reason)
        (if e.audited then [deletionEntry d.pk deletedBy reason] else []) s.objects
  | expired {d given : Document} {batch : List Document} {pks : List ℕ}
      (hpk : d.pk = given.pk) (hheld : d.legalHold = false) (hlive : d.deletedAt = none) :
      Touch cfg e s (.disposing (given :: batch) pks) d
        (Document.softDeleted s.now none "retention_expired")
        (if e.audited then [deletionEntry d.pk none "retention_expired"] else []) s.objects
  | fulfilled {d document : Document} {actor : ℕ} {c : Category}
      (hpk : d.pk = document.pk) (hheld : d.legalHold = false) (hlive : d.deletedAt = none)
      (hcategory : s.categoryOf d = some c) (htransitory : c.isTransitory = true) :
      Touch cfg e s (.calling (.markPurposeFulfilled document actor)) d
        (Document.fulfilled s.now actor)
        (if e.audited then [deletionEntry d.pk (some actor) "transitory_purpose_fulfilled"] else [])
        s.objects
  | purged {d : Document} {clearedAt : Instant} {job : Job} {entry : AuditEntry}
      (hstatus : d.scanStatus = .deleted) (hentry : entry = {
        eventType := .recordPurged
        document := some d.pk
        detail := .purged clearedAt }) :
      Touch cfg e s (.cleared d.pk clearedAt job) d Document.purged
        (if e.audited then [entry] else []) s.objects
  | held {d document : Document} {setBy : Actor} {reason : String} {entry : AuditEntry}
      (hpk : d.pk = document.pk) (hheld : d.legalHold = false)
      (hentry : entry.eventType = .legalHoldApplied) :
      Touch cfg e s (.calling (.applyLegalHold document setBy reason)) d
        (Document.held reason setBy.pk) (if e.audited then [entry] else []) s.objects
  | released {d document : Document} {releasedBy : Actor} {reason : String} {entry : AuditEntry}
      (hpk : d.pk = document.pk) (hheld : d.legalHold = true)
      (hentry : entry.eventType = .legalHoldReleased) :
      Touch cfg e s (.calling (.releaseLegalHold document releasedBy reason)) d
        Document.released (if e.audited then [entry] else []) s.objects
  | confirmed {d : Document} {user : ℕ} {c : Category} {detected : Option String} {k : Key}
      {content : Content} (hstatus : d.scanStatus = .pendingUpload ∨ d.scanStatus = .purged)
      (hkey : d.storageKey = some k) (hobject : s.objects k = some content) :
      Touch cfg e s (.calling (.confirmUpload user d.pk)) d (Document.confirmed detected)
        (if e.audited then [confirmationEntry c user d detected] else []) s.objects
  | bypassed {d : Document} (hbypass : cfg.devBypass = true) (hstatus : d.scanStatus = .scanning) :
      Touch cfg e s (.scanning d.pk) d (Document.activated s.now "DEV_BYPASS" d.storageKey) []
        s.objects
  | promoted {d : Document} {content : Option Content} {k : Key}
    (hstatus : d.scanStatus = .scanning)
      (hkey : d.storageKey = some k) (harea : k.area = .quarantine)
      (hobject : (s.objects k).isSome = true) :
      Touch cfg e s (.scanned d.pk content "OK") d
        (Document.activated s.now "OK" (some k.promoted))
        (if e.audited then [activationEntry d.pk] else []) (s.copied k).objects
  | activated {d : Document} {content : Option Content} (hstatus : d.scanStatus = .scanning)
      (hkey : s.promotable d.storageKey = none) :
      Touch cfg e s (.scanned d.pk content "OK") d (Document.activated s.now "OK" d.storageKey)
        (if e.audited then [activationEntry d.pk] else []) s.objects
  | quarantined {d : Document} {content : Option Content} {result : String}
    (hresult : result ≠ "OK")
      (hstatus : d.scanStatus = .scanning) :
      Touch cfg e s (.scanned d.pk content result) d
        (Document.quarantinedAs s.now ("FOUND: " ++ result))
        (if e.audited then [threatEntry d.pk ("FOUND: " ++ result)] else []) s.objects
  | failed {d : Document} {exception : String} (hstatus : d.scanStatus = .scanning) :
      Touch cfg e s (.failing d.pk exception) d
        (Document.quarantinedAs s.now ("SCAN_FAILURE:" ++ exception))
        (if e.audited then [threatEntry d.pk ("SCAN_FAILURE:" ++ exception)] else []) s.objects

/-- The key whose object a block takes away. -/
def Worker.takes : Worker → Option Key
  | .clearing _ key _ => key
  | .sweeping key => key
  | .cleaning _ (k :: _) _ _ => some k
  | _ => none

/-- The rows that a block may take away. -/
def Worker.drops : Worker → Document → Bool
  | .collected _ pks _, d => d.pk ∈ pks
  | .withdrawing new _, d => d.pk = new
  | _, _ => false

/-- What a block does to the rows and to the objects. -/
inductive Change (cfg : Settings) (e : Choice) (s : Store) (p : Worker) (t : Store) : Prop
  | kept (hdocs : t.documents = s.documents) (hobjects : t.objects = s.objects)
      (haudit : ∃ es, t.audit = s.audit ++ es ∧ ∀ x ∈ es, x.status = none)
  | touched {d : Document} {f : Document → DocumentState} {es : List AuditEntry}
      {objects : Key → Option Content} (hd : d ∈ s.documents.rows)
      (touch : Touch cfg e s p d f es objects) (hdocs : t.documents = (s.save d.pk f).documents)
      (hobjects : t.objects = objects) (haudit : t.audit = s.audit ++ es)
  | announced {c : Category} {user : Actor} {categorySlug : String} {file : FileRequest}
      (hp : p = .uploading user categorySlug file)
      (hdocs : s.documents.insert (announced c user file s.now e.token) = .ok t.documents)
      (hobjects : t.objects = s.objects) (haudit : t.audit = s.audit)
  | versioned {c : Category} {user : Actor} {document root previous : Document}
      {file : FileRequest} {description : String} {es : List AuditEntry}
      (hp : p = .versioning user document file description) (hroot : root ∈ s.documents.rows)
      (hchain : document.rootDocument = none ∧ root.pk = document.pk ∨
        document.rootDocument = some root.pk ∧ root.rootDocument = none)
      (hdeleted : root.deletedAt = none)
      (hlatest : currentLatest (s.chain root.pk) = some previous)
      (hdocs : (s.save previous.pk (Document.withLatest false)).documents.insert
        (nextVersion c user file description root previous s.now e.token) = .ok t.documents)
      (hobjects : t.objects = s.objects)
      (haudit : t.audit = s.audit ++ es) (hes : ∀ x ∈ es, x.status = none)
  | removed (hfree : ∀ d ∈ s.documents.rows, p.drops d = true → s.isProtected d = false)
      (hdocs : t.documents = s.documents.keep fun d => !p.drops d)
      (hobjects : t.objects = s.objects) (haudit : t.audit = s.audit)
      (hfirst : ∀ new previous, p ≠ .withdrawing new (some previous))
  | withdrawn {new previous : ℕ} (hp : p = .withdrawing new (some previous))
      (hdocs : t.documents =
        (s.save previous (Document.withLatest true)).documents.keep fun d => !p.drops d)
      (hobjects : t.objects = s.objects) (haudit : t.audit = s.audit)
  | taken {k : Key} (hp : p.takes = some k) (hdocs : t.documents = s.documents)
      (hobjects : t.objects = Function.update s.objects k none) (haudit : t.audit = s.audit)
  | copied {d : Document} {content : Option Content} {k : Key}
      (hp : p = .scanned d.pk content "OK") (hd : d ∈ s.documents.rows)
      (hstatus : d.scanStatus = .scanning) (hkey : d.storageKey = some k)
      (harea : k.area = .quarantine) (hdocs : t.documents = s.documents)
      (hobjects : t.objects = (s.copied k).objects) (haudit : t.audit = s.audit)

/-- The blocks that write access tokens. -/
def Worker.handlesTokens : Worker → Bool
  | .calling (.issueAccessToken ..) | .calling .purgeExpiredTokens | .withdrawing .. |
    .collected .. | .redemption .. => true
  | _ => false

/-- The clock and the categories are no block's to write. -/
def Framed (p : Worker) (s t : Store) : Prop :=
  (t.now = s.now ∧ t.categories = s.categories) ∧
    (p.handlesTokens = false → t.tokens = s.tokens ∧ t.redemptions = s.redemptions)

variable {p q : Worker}

theorem Framed.same : Framed p s s := ⟨⟨rfl, rfl⟩, fun _ => ⟨rfl, rfl⟩⟩

theorem Framed.handling (hp : p.handlesTokens = true) (hnow : t.now = s.now)
    (hcategories : t.categories = s.categories) : Framed p s t :=
  ⟨⟨hnow, hcategories⟩, fun h => by rw [hp] at h; cases h⟩

theorem Framed.objects {objects : Key → Option Content} :
    Framed p s { s with objects := objects } := ⟨⟨rfl, rfl⟩, fun _ => ⟨rfl, rfl⟩⟩

theorem Change.same : Change cfg e s p s := .kept rfl rfl ⟨[], by simp, by simp⟩

theorem operation_change {op : Operation} (h : op.run cfg e s = .ok (u, t)) :
    Framed (.calling op) s t ∧ Change cfg e s (.calling op) t := by
  cases op with
  | softDelete document deletedBy reason =>
    obtain ⟨d, hd, hpk, hheld, hlive, rfl⟩ := softDelete_ok h
    exact ⟨by simp [Framed],
      .touched hd (.softDeleted hpk hheld hlive) (by simp) (by simp) (by simp)⟩
  | markPurposeFulfilled document actor =>
    obtain ⟨d, hd, hpk, hheld, hlive, ⟨c, hc, htransitory⟩, rfl⟩ := markPurposeFulfilled_ok h
    exact ⟨by simp [Framed],
      .touched hd (.fulfilled hpk hheld hlive hc htransitory) (by simp) (by simp) (by simp)⟩
  | applyLegalHold document setBy reason =>
    obtain ⟨d, hd, hpk, hheld, rfl⟩ := applyLegalHold_ok h
    exact ⟨by simp [Framed],
      .touched hd (.held hpk hheld rfl) (by simp) (by simp) Store.audit_log⟩
  | releaseLegalHold document releasedBy reason =>
    obtain ⟨d, hd, hpk, hheld, rfl⟩ := releaseLegalHold_ok h
    exact ⟨by simp [Framed],
      .touched hd (.released hpk hheld rfl) (by simp) (by simp) Store.audit_log⟩
  | confirmUpload user document =>
    obtain rfl | ⟨d, hd, rfl, -, hstatus, ⟨k, content, hkey, hobject⟩, c, detected, rfl⟩ :=
      confirmUpload_ok h
    · exact ⟨.same, .same⟩
    · exact ⟨by simp [Framed],
        .touched hd (.confirmed hstatus hkey hobject) (by simp) (by simp) Store.audit_log⟩
  | issueAccessToken document user =>
    obtain ⟨d, hd, -, T, -, rfl⟩ := issueAccessToken_ok h
    exact ⟨.handling rfl (by simp [Store.tokenTable]) (by simp [Store.tokenTable]),
      .kept (by simp [Store.tokenTable])
      (by simp [Store.tokenTable]) ⟨_, Store.audit_log, by split <;> simp [viewedEntry,
        AuditEntry.status]⟩⟩
  | purgeExpiredTokens =>
    obtain ⟨audited, count, rfl⟩ := purgeExpiredTokens_ok h
    exact ⟨.handling rfl (by simp [Store.tokenTable]) (by simp [Store.tokenTable]),
      .kept (by simp [Store.tokenTable])
      (by simp [Store.tokenTable]) ⟨_, Store.audit_log, by split <;> simp [AuditEntry.status]⟩⟩

theorem recordPurge_change {document : ℕ} {clearedAt : Instant} {job : Job}
    (h : recordPurge audited document clearedAt s = .ok (u, t)) (haudited : audited = e.audited) :
    Framed (.cleared document clearedAt job) s t ∧
      Change cfg e s (.cleared document clearedAt job) t := by
  subst haudited
  obtain rfl | ⟨d, hd, rfl, hstatus, rfl⟩ := recordPurge_ok h
  · exact ⟨.same, .same⟩
  · exact ⟨by simp [Framed],
      .touched hd (.purged hstatus rfl) (by simp) (by simp) Store.audit_log⟩

theorem commit_change {x : Tx Unit}
    (hx : ∀ u t, x s = .ok (u, t) → Framed p s t ∧ Change cfg e s p t) :
    Framed p s (commit x s).2 ∧ Change cfg e s p (commit x s).2 := by
  cases hrun : x s with
  | error =>
    rw [commit_of_error hrun]
    exact ⟨.same, .same⟩
  | ok r =>
    rw [commit_of_ok (a := r.1) (t := r.2) hrun]
    exact hx r.1 r.2 hrun

theorem withdraw_change {new : ℕ} {previous : Option ℕ}
    (h : previous.elim (deleteDocuments .protectedError (·.pk = new)) (withdrawVersion new) s =
      .ok (u, t)) :
    Framed (.withdrawing new previous) s t ∧ Change cfg e s (.withdrawing new previous) t := by
  cases previous with
  | none =>
    obtain ⟨hfree, rfl⟩ := deleteDocuments_ok h
    exact ⟨.handling rfl rfl rfl, .removed hfree rfl rfl rfl fun _ _ h => (by cases h)⟩
  | some previous =>
    have h := saveDocument_bind.mp h
    obtain ⟨-, rfl⟩ := deleteDocuments_ok h
    exact ⟨.handling rfl rfl rfl, .withdrawn rfl rfl rfl rfl⟩

theorem loadForDeletion_same {document : ℕ} {user : Actor} {reason : String}
    (h : loadForDeletion document user reason s = .ok (d, t)) : t = s := by
  unfold loadForDeletion at h
  obtain ⟨-, h⟩ := guard_ok h
  obtain ⟨d, -, h⟩ := ask_bind.mp h
  obtain ⟨-, h⟩ := guard_ok h
  obtain ⟨-, h⟩ := guard_ok h
  exact (pure_ok.mp h).2

theorem activation_change {document : ℕ} {content : Option Content} {key : Option Key}
    (h : markActiveClamav audited document s = .ok (key, t)) (haudited : audited = e.audited) :
    Framed (.scanned document content "OK") s t ∧
      Change cfg e s (.scanned document content "OK") t := by
  subst haudited
  obtain ⟨-, rfl⟩ | ⟨d, hd, rfl, hstatus, hkey, rfl⟩ := markActiveClamav_ok h
  · exact ⟨.same, .same⟩
  · cases key with
    | none =>
      exact ⟨by simp [Framed],
        .touched hd (.activated hstatus hkey.symm) (by simp) (by simp) Store.audit_log⟩
    | some k =>
      obtain ⟨hk, hprop⟩ := Option.filter_eq_some_iff.mp hkey.symm
      obtain ⟨harea, hobject⟩ := of_decide_eq_true hprop
      exact ⟨by simp [Framed, Store.copied, Store.store],
        .touched hd (.promoted hstatus hk harea hobject) (by simp; rfl) (by simp) Store.audit_log⟩

theorem quarantine_change {document : ℕ} {result : String} {key : Option Key}
    (h : markQuarantined audited document result s = .ok (key, t))
    (touch : ∀ d, d.pk = document → d.scanStatus = .scanning → Touch cfg e s p d
      (Document.quarantinedAs s.now result) (if audited then [threatEntry d.pk result] else [])
      s.objects) : Framed p s t ∧ Change cfg e s p t := by
  obtain ⟨-, rfl⟩ | ⟨d, hd, hpk, hstatus, -, rfl⟩ := markQuarantined_ok h
  · exact ⟨.same, .same⟩
  · exact ⟨by simp [Framed],
      .touched hd (touch d hpk hstatus) (by simp) (by simp) Store.audit_log⟩

theorem copiedOnly_change {document : ℕ} {content : Option Content} :
    Framed (.scanned document content "OK") s (s.copiedOnly document) ∧
      Change cfg e s (.scanned document content "OK") (s.copiedOnly document) := by
  unfold Store.copiedOnly
  cases hget : (s.documents.get document).filter (·.scanStatus = .scanning) with
  | none => exact ⟨.same, .same⟩
  | some d =>
    obtain ⟨hget, hstatus⟩ := Option.filter_eq_some_iff.mp hget
    obtain ⟨hd, rfl⟩ := Numbered.get_eq_some.mp hget
    simp only [Option.elim_some]
    cases hkey : s.promotable d.storageKey with
    | none => exact ⟨.same, .same⟩
    | some k =>
      obtain ⟨hk, hprop⟩ := Option.filter_eq_some_iff.mp hkey
      exact ⟨.objects, .copied rfl hd (of_decide_eq_true hstatus) hk (of_decide_eq_true hprop).1
        rfl rfl rfl⟩

/-- Everything a block can do. -/
theorem act_change (h : p.act cfg s e = some (t, q)) : Framed p s t ∧ Change cfg e s p t := by
  have hsame : t = s → Framed p s t ∧ Change cfg e s p t := by
    rintro rfl
    exact ⟨.same, .same⟩
  cases p with
  | calling op =>
    simp only [Worker.act] at h
    split at h <;> cases h
    next hrun => exact operation_change (commit_ok hrun)
    next hrun => exact hsame (commit_error hrun)
  | deleting document user reason =>
    simp only [Worker.act] at h
    split at h <;> cases h
    next hrun => exact hsame (loadForDeletion_same (commit_ok hrun))
    next hrun => exact hsame (commit_error hrun)
  | disposal => cases h; exact hsame rfl
  | disposing batch pks =>
    cases batch with
    | nil =>
      simp only [Worker.act] at h
      split at h <;> cases h <;> exact hsame rfl
    | cons given batch =>
      cases h
      refine commit_change fun u t hrun => ?_
      obtain ⟨d, hd, hpk, hheld, hlive, rfl⟩ := softDelete_ok hrun
      exact ⟨by simp [Framed],
        .touched hd (.expired hpk hheld hlive) (by simp) (by simp) Store.audit_log⟩
  | hardDeleting document =>
    simp only [Worker.act] at h
    split at h <;> cases h <;>
      exact hsame (commit_same (fun _ _ hrun => (hardDelete_ok hrun).1) ‹_›)
  | purge => cases h; exact hsame rfl
  | purging batch pks =>
    cases batch with
    | nil =>
      simp only [Worker.act] at h
      split at h <;> cases h <;> exact hsame rfl
    | cons given batch =>
      simp only [Worker.act] at h
      split at h <;> cases h <;>
        exact hsame (commit_same (fun _ _ hrun => (hardDelete_ok hrun).1) ‹_›)
  | clearing document key job =>
    cases key with
    | none => cases h; exact hsame rfl
    | some k =>
      simp only [Worker.act] at h
      split at h <;> cases h
      next => exact ⟨.objects, .taken rfl rfl rfl rfl⟩
      next => exact hsame rfl
  | cleared document clearedAt job =>
    cases h
    exact commit_change fun u t hrun => recordPurge_change hrun rfl
  | uploading user categorySlug file =>
    simp only [Worker.act] at h
    split at h <;> cases h
    next hrun =>
      obtain ⟨c, -, T, hT, rfl⟩ := announceUpload_ok (commit_ok hrun)
      exact ⟨⟨⟨rfl, rfl⟩, fun _ => ⟨rfl, rfl⟩⟩, .announced rfl hT rfl rfl⟩
    next hrun => exact hsame (commit_error hrun)
  | loading user document file description =>
    simp only [Worker.act] at h
    split at h <;> cases h
    next hrun => exact hsame (fetch_ok.mp (commit_ok hrun)).2
    next hrun => exact hsame (commit_error hrun)
  | versioning user document file description =>
    simp only [Worker.act] at h
    split at h <;> cases h
    next hrun =>
      obtain ⟨c, root, hroot, hchain, hdeleted, hlatest, -, T, hT, rfl⟩ :=
        announceVersion_ok (commit_ok hrun)
      exact ⟨by simp [Framed, Store.documentTable], .versioned rfl hroot hchain hdeleted hlatest
        (by simpa [Store.documentTable] using hT) (by simp [Store.documentTable]) Store.audit_log
        (by split <;> simp [AuditEntry.status, versionEntry])⟩
    next hrun => exact hsame (commit_error hrun)
  | presigning new previous =>
    simp only [Worker.act] at h
    split at h <;> cases h
    next =>
      cases hkey : new.storageKey with
      | none => exact ⟨.same, .same⟩
      | some k => exact ⟨⟨⟨rfl, rfl⟩, fun _ => ⟨rfl, rfl⟩⟩,
        .kept rfl rfl ⟨[], (List.append_nil _).symm, by simp⟩⟩
    next => exact hsame rfl
  | withdrawing new previous =>
    cases h
    exact commit_change fun u t hrun => withdraw_change hrun
  | scanning document =>
    simp only [Worker.act] at h
    by_cases hbypass : cfg.devBypass = true
    · rw [if_pos hbypass] at h
      split at h <;> cases h
      next hrun =>
        obtain ht | ⟨d, hd, rfl, hstatus, rfl⟩ := markActiveDevBypass_ok (commit_ok hrun)
        · exact hsame ht
        · exact ⟨⟨⟨rfl, rfl⟩, fun _ => ⟨rfl, rfl⟩⟩,
            .touched hd (.bypassed hbypass hstatus) rfl rfl (List.append_nil _).symm⟩
      next hrun => exact hsame (commit_error hrun)
    · rw [if_neg hbypass] at h
      split at h <;> cases h <;>
        exact hsame (commit_same (fun _ _ hrun => (claimScan_ok hrun).1) ‹_›)
  | claimed document key =>
    simp only [Worker.act] at h
    split at h
    next => cases h; exact hsame rfl
    next => split at h <;> cases h <;> exact hsame rfl
  | scanned document content result =>
    simp only [Worker.act] at h
    by_cases hresult : result = "OK"
    · subst hresult
      rw [if_pos rfl] at h
      by_cases hcrashed : e.crashed = true
      · rw [if_pos hcrashed] at h
        cases h
        exact copiedOnly_change
      · rw [if_neg hcrashed] at h
        split at h
        next => cases h; exact hsame rfl
        next =>
          split at h <;> cases h
          next hrun => exact activation_change (commit_ok hrun) rfl
          next hrun => exact activation_change (commit_ok hrun) rfl
          next hrun => exact hsame (commit_error hrun)
    · rw [if_neg hresult] at h
      split at h <;> cases h
      next hrun =>
        exact quarantine_change (commit_ok hrun) fun _ hpk hstatus =>
          hpk ▸ .quarantined hresult hstatus
      next hrun =>
        exact quarantine_change (commit_ok hrun) fun _ hpk hstatus =>
          hpk ▸ .quarantined hresult hstatus
      next hrun => exact hsame (commit_error hrun)
  | failing document exception =>
    simp only [Worker.act] at h
    cases hrun : commit (markQuarantined e.audited document ("SCAN_FAILURE:" ++ exception)) s with
    | mk r v =>
      rw [hrun] at h
      cases h
      cases r with
      | error => exact hsame (commit_error hrun)
      | ok key =>
        exact quarantine_change (commit_ok hrun) fun _ hpk hstatus => hpk ▸ .failed hstatus
  | sweeping key =>
    simp only [Worker.act] at h
    split at h <;> cases h
    next =>
      cases key with
      | none => exact hsame rfl
      | some k => exact ⟨.objects, .taken rfl rfl rfl rfl⟩
    next => exact hsame rfl
  | cleanup => cases h; exact hsame rfl
  | cleaning stale keys chunk rest =>
    cases keys with
    | cons k keys =>
      cases h
      split
      next => exact ⟨.objects, .taken rfl rfl rfl rfl⟩
      next => exact ⟨.same, .same⟩
    | nil =>
      simp only [Worker.act] at h
      split at h <;> cases h
      next hrun => exact hsame (collectStale_ok (commit_ok hrun)).1
      next hrun => exact hsame (commit_error hrun)
  | collected stale pks rest =>
    simp only [Worker.act] at h
    split at h <;> cases h
    next hrun =>
      obtain ⟨hfree, rfl⟩ := deleteDocuments_ok (commit_ok hrun)
      exact ⟨.handling rfl rfl rfl, .removed hfree rfl rfl rfl fun _ _ h => (by cases h)⟩
    next hrun => exact hsame (commit_error hrun)
  | cleaned => cases h
  | redeeming token user =>
    simp only [Worker.act] at h
    split at h <;> cases h
    next hrun => exact hsame (readToken_ok (commit_ok hrun)).1
    next hrun => exact hsame (commit_error hrun)
  | redemption token user usedAt document =>
    simp only [Worker.act] at h
    split at h <;> cases h
    next hrun =>
      obtain ⟨a, ha, -, -, rfl⟩ := commitRedemption_ok (commit_ok hrun)
      exact ⟨.handling rfl (by simp [Store.tokenTable]) (by simp [Store.tokenTable]),
        .kept (by simp [Store.tokenTable])
        (by simp [Store.tokenTable]) ⟨_, Store.audit_log, by split <;> simp [viewedEntry,
          AuditEntry.status]⟩⟩
  | returned => cases h
  | raised => cases h
  | dead => cases h

/-! ## What becomes of the rows -/

/-- What a block makes of a row that it does not take away. -/
inductive RowStep (cfg : Settings) (e : Choice) (s : Store) (p : Worker) (t : Store)
    (d : Document) :
    Document → Prop
  | kept : RowStep cfg e s p t d d
  | touched {f : Document → DocumentState} {es : List AuditEntry} {objects : Key → Option Content}
      (touch : Touch cfg e s p d f es objects) (hobjects : t.objects = objects)
      (haudit : t.audit = s.audit ++ es) : RowStep cfg e s p t d (d.withState f)
  | flagged (latest : Bool) : RowStep cfg e s p t d (d.withState (Document.withLatest latest))

theorem RowStep.pk_eq (h : RowStep cfg e s p t d a) : a.pk = d.pk := by
  cases h <;> rfl

/-- A row that a block inserts. -/
inductive Fresh (s : Store) : Document → Prop
  | announced (c : Category) (user : Actor) (file : FileRequest) (uuid : ℕ) :
      Fresh s (announced c user file s.now uuid s.documents.next)
  | versioned (c : Category) (user : Actor) (file : FileRequest) (description : String)
      {root previous : Document} (hroot : root ∈ s.documents.rows) (uuid : ℕ) :
      Fresh s (nextVersion c user file description root previous s.now uuid s.documents.next)

theorem Fresh.pk_eq (h : Fresh s d) : d.pk = s.documents.next := by
  cases h <;> rfl

namespace Change

theorem origin (h : Change cfg e s p t) (ha : a ∈ t.documents.rows) :
    (∃ d ∈ s.documents.rows, RowStep cfg e s p t d a) ∨ Fresh s a := by
  have hkept (hmem : a ∈ s.documents.rows) :
      (∃ d ∈ s.documents.rows, RowStep cfg e s p t d a) ∨ Fresh s a := .inl ⟨a, hmem, .kept⟩
  cases h with
  | kept hdocs | taken _ hdocs | copied _ _ _ _ _ hdocs => exact hkept (hdocs ▸ ha)
  | touched hd touch hdocs hobjects haudit =>
    rw [hdocs, Store.mem_save hd] at ha
    rcases ha with ⟨ha, -⟩ | rfl
    · exact hkept ha
    · exact .inl ⟨_, hd, .touched touch hobjects haudit⟩
  | announced _ hdocs =>
    rw [(Numbered.insert_ok hdocs rfl).1, List.mem_append, List.mem_singleton] at ha
    rcases ha with ha | rfl
    · exact hkept ha
    · exact .inr (.announced ..)
  | versioned _ hroot _ _ hlatest hdocs =>
    rw [(Numbered.insert_ok hdocs rfl).1, List.mem_append, List.mem_singleton] at ha
    rcases ha with ha | rfl
    · rw [Store.mem_save (List.mem_filter.mp (currentLatest_mem hlatest)).1] at ha
      rcases ha with ⟨ha, -⟩ | rfl
      · exact hkept ha
      · exact .inl ⟨_, (List.mem_filter.mp (currentLatest_mem hlatest)).1, .flagged false⟩
    · exact .inr (.versioned _ _ _ _ hroot _)
  | removed _ hdocs =>
    rw [hdocs, Numbered.rows_keep] at ha
    exact hkept (List.mem_filter.mp ha).1
  | withdrawn _ hdocs =>
    rw [hdocs, Numbered.rows_keep] at ha
    obtain ⟨d, hd, hif⟩ := Store.mem_save_iff.mp (List.mem_filter.mp ha).1
    split at hif
    · exact .inl ⟨d, hd, hif ▸ .flagged true⟩
    · exact .inl ⟨d, hd, hif ▸ .kept⟩

theorem persists (h : Change cfg e s p t) (hd : d ∈ s.documents.rows) (hdrops : p.drops d = false) :
    ∃ a ∈ t.documents.rows, RowStep cfg e s p t d a := by
  have hkept (hmem : d ∈ t.documents.rows) : ∃ a ∈ t.documents.rows, RowStep cfg e s p t d a :=
    ⟨d, hmem, .kept⟩
  cases h with
  | kept hdocs | taken _ hdocs | copied _ _ _ _ _ hdocs => exact hkept (hdocs ▸ hd)
  | @touched d' f es objects hd' touch hdocs hobjects haudit =>
    by_cases hpk : d.pk = d'.pk
    · obtain rfl : d = d' := Table.eq_of_pk hd hd' hpk
      exact ⟨_, by rw [hdocs, Store.mem_save hd]; exact .inr rfl,
        .touched touch hobjects haudit⟩
    · refine hkept ?_
      rw [hdocs, Store.mem_save hd']
      exact .inl ⟨hd, hpk⟩
  | announced _ hdocs =>
    refine hkept ?_
    rw [(Numbered.insert_ok hdocs rfl).1]
    exact List.mem_append_left _ hd
  | @versioned c user document root previous file description es _ _ _ _ hlatest hdocs =>
    have hprevious := (List.mem_filter.mp (currentLatest_mem hlatest)).1
    rw [(Numbered.insert_ok hdocs rfl).1]
    by_cases hpk : d.pk = previous.pk
    · obtain rfl : d = previous := Table.eq_of_pk hd hprevious hpk
      exact ⟨_, List.mem_append_left _ ((Store.mem_save hd).mpr (.inr rfl)), .flagged false⟩
    · exact ⟨d, List.mem_append_left _ ((Store.mem_save hprevious).mpr (.inl ⟨hd, hpk⟩)), .kept⟩
  | removed _ hdocs =>
    refine hkept ?_
    rw [hdocs, Numbered.rows_keep]
    exact List.mem_filter.mpr ⟨hd, by simp [hdrops]⟩
  | @withdrawn new previous hp hdocs =>
    have hnew : d.pk ≠ new := by
      subst hp
      exact of_decide_eq_false hdrops
    by_cases hpk : d.pk = previous
    · refine ⟨d.withState (Document.withLatest true), ?_, .flagged true⟩
      rw [hdocs, Numbered.rows_keep, List.mem_filter]
      refine ⟨Store.mem_save_iff.mpr ⟨d, hd, by simp [hpk]⟩, ?_⟩
      have hkeep : ¬ (d.withState (Document.withLatest true)).pk = new := hnew
      subst hp
      simpa [Worker.drops] using hkeep
    · refine ⟨d, ?_, .kept⟩
      rw [hdocs, Numbered.rows_keep, List.mem_filter]
      exact ⟨Store.mem_save_iff.mpr ⟨d, hd, by simp [hpk]⟩, by simp [hdrops]⟩

theorem next_le (h : Change cfg e s p t) : s.documents.next ≤ t.documents.next := by
  cases h with
  | kept hdocs | touched _ _ hdocs | taken _ hdocs | copied _ _ _ _ _ hdocs | removed _ hdocs
  | withdrawn _ hdocs => exact (congrArg Numbered.next hdocs).ge
  | announced _ hdocs =>
    rw [(Numbered.insert_ok hdocs rfl).2.1]
    exact Nat.le_succ _
  | versioned _ _ _ _ _ hdocs =>
    rw [(Numbered.insert_ok hdocs rfl).2.1]
    exact Nat.le_succ _

end Change

/-- Everything that happens besides the blocks. -/
theorem env_change {x : Event} (h : (documents cfg).env s x = some t) :
    (s.now ≤ t.now ∧ t.categories = s.categories ∧ t.audit = s.audit ∧ t.tokens = s.tokens ∧
      t.redemptions = s.redemptions) ∧
    (t.documents = s.documents ∧ t.objects = s.objects ∨
      (∃ k content, x = .overwrite k content ∧ t.documents = s.documents ∧
        t.objects = Function.update s.objects k (some content)) ∨
      ∃ document file content, x = .generate document file content ∧
        s.documents.insert (generated document file) = .ok t.documents ∧
        t.objects = Function.update s.objects ⟨.active, s.documents.next, file⟩
          (some content)) := by
  cases x with
  | pass time =>
    cases h
    exact ⟨⟨Nat.le_add_right _ _, rfl, rfl, rfl, rfl⟩, .inl ⟨rfl, rfl⟩⟩
  | overwrite k content =>
    obtain ⟨-, ⟨⟩⟩ := Option.ite_none_right_eq_some.mp h
    exact ⟨⟨le_refl _, rfl, rfl, rfl, rfl⟩, .inr (.inl ⟨k, content, rfl, rfl, rfl⟩)⟩
  | generate document file content =>
    obtain ⟨⟩ := h
    cases hrun : insertGenerated document file content s with
    | error =>
      rw [commit_of_error hrun]
      exact ⟨⟨le_refl _, rfl, rfl, rfl, rfl⟩, .inl ⟨rfl, rfl⟩⟩
    | ok r =>
      obtain ⟨u, v⟩ := r
      rw [commit_of_ok hrun]
      obtain ⟨d, v, happend, h⟩ := bind_ok.mp hrun
      obtain ⟨rfl, T, hT, rfl⟩ := append_ok.mp happend
      obtain ⟨⟩ := h
      exact ⟨⟨le_refl _, rfl, rfl, rfl, rfl⟩,
        .inr (.inr ⟨document, file, content, rfl, hT, rfl⟩)⟩
  | attachments documents =>
    cases h
    exact ⟨⟨le_refl _, rfl, rfl, rfl, rfl⟩, .inl ⟨rfl, rfl⟩⟩

/-- The rows after an environment step are the rows before it, with one more that the server has
made itself at most. -/
theorem env_rows {x : Event} (h : (documents cfg).env s x = some t) :
    (∀ d ∈ s.documents.rows, d ∈ t.documents.rows) ∧
    (∀ a ∈ t.documents.rows, a ∈ s.documents.rows ∨
      ∃ document file, a = generated document file s.documents.next) ∧
    s.documents.next ≤ t.documents.next := by
  obtain ⟨-, ⟨hdocs, -⟩ | ⟨k, content, -, hdocs, -⟩ | ⟨document, file, content, -, hinsert, -⟩⟩ :=
    env_change h
  · rw [hdocs]
    exact ⟨fun _ hd => hd, fun _ ha => .inl ha, le_refl _⟩
  · rw [hdocs]
    exact ⟨fun _ hd => hd, fun _ ha => .inl ha, le_refl _⟩
  · obtain ⟨hrows, hnext, -⟩ := Numbered.insert_ok hinsert rfl
    rw [hrows, hnext]
    refine ⟨fun _ hd => List.mem_append_left _ hd, fun a ha => ?_, Nat.le_succ _⟩
    rcases List.mem_append.mp ha with ha | ha
    · exact .inl ha
    · exact .inr ⟨document, file, List.mem_singleton.mp ha⟩

/-! ## What is written once -/

/-- A row later on, or the same. -/
structure Document.Follows (d a : Document) : Prop where
  pk : a.pk = d.pk
  category : a.category = d.category
  rootDocument : a.rootDocument = d.rootDocument
  versionNumber : a.versionNumber = d.versionNumber
  retainUntil : a.retainUntil = d.retainUntil

theorem RowStep.follows (h : RowStep cfg e s p t d a) : d.Follows a := by
  cases h with
  | kept | flagged => exact ⟨rfl, rfl, rfl, rfl, rfl⟩
  | touched touch => cases touch <;> exact ⟨rfl, rfl, rfl, rfl, rfl⟩

/-- The rows are those of before, or new. -/
def Store.Inherits (s t : Store) : Prop :=
  s.documents.next ≤ t.documents.next ∧
    ∀ a ∈ t.documents.rows, (∃ d ∈ s.documents.rows, d.Follows a) ∨ a.pk = s.documents.next

theorem Store.Inherits.row (h : s.Inherits t) {i : ℕ} (hi : i < s.documents.next)
    (ha : a ∈ t.documents.rows) (hpk : a.pk = i) :
    ∃ d ∈ s.documents.rows, d.pk = i ∧ d.Follows a := by
  rcases h.2 a ha with ⟨d, hd, hfollows⟩ | hnew
  · exact ⟨d, hd, hfollows.pk.symm.trans hpk, hfollows⟩
  · omega

theorem Change.inherits (h : Change cfg e s p t) : s.Inherits t := by
  refine ⟨h.next_le, fun a ha => ?_⟩
  rcases h.origin ha with ⟨d, hd, hstep⟩ | hfresh
  · exact .inl ⟨d, hd, hstep.follows⟩
  · exact .inr hfresh.pk_eq

theorem env_inherits {x : Event} (h : (documents cfg).env s x = some t) : s.Inherits t := by
  obtain ⟨-, hrows, hnext⟩ := env_rows h
  refine ⟨hnext, fun a ha => ?_⟩
  rcases hrows a ha with ha | ⟨document, file, rfl⟩
  · exact .inl ⟨a, ha, rfl, rfl, rfl, rfl, rfl⟩
  · exact .inr rfl

end Civicos.Documents
