import Civicos.Documents.Keys
import Civicos.Documents.Workers
import Civicos.Library.VersionChain

/-!
# Version chains of documents

The rows of the documents table are a set of versions of which some are marked as the latest. Every
block does to that set what the library allows, except for two: the clean-up may take the latest
version of a longer chain, and a version may be taken back after a later one has been made.
-/
namespace Civicos.Documents

open Library Library.Transaction

variable {cfg : Settings} {e : Choice} {s t : Store} {d a : Document} {p q : Worker} {k : Key}
  {f : Document → DocumentState} {es : List AuditEntry} {objects : Key → Option Content}

def Document.version (d : Document) : Version := ⟨d.pk, d.rootDocument, d.versionNumber⟩

namespace Store

def versions (s : Store) : Set Version := { v | ∃ d ∈ s.documents.rows, d.version = v }

def latest (s : Store) : Set Version :=
  { v | ∃ d ∈ s.documents.rows, d.isLatestVersion = true ∧ d.version = v }

/-- The abstraction of the rows is an intact set of chains. -/
def Intact (s : Store) : Prop := Version.Intact s.versions s.latest

end Store

@[simp] theorem version_withState : (d.withState f).version = d.version := rfl

theorem eq_of_version (ha : a ∈ s.documents.rows) (hd : d ∈ s.documents.rows)
    (h : a.version = d.version) : a = d :=
  Table.eq_of_pk ha hd (congrArg Version.id h)

theorem version_mem_latest (hd : d ∈ s.documents.rows) :
    d.version ∈ s.latest ↔ d.isLatestVersion = true := by
  constructor
  · rintro ⟨a, ha, hlatest, hversion⟩
    obtain rfl := eq_of_version ha hd hversion
    exact hlatest
  · exact fun hlatest => ⟨d, hd, hlatest, rfl⟩

theorem id_lt_next {v : Version} (h : v ∈ s.versions) : v.id < s.documents.next := by
  obtain ⟨d, hd, rfl⟩ := h
  exact s.documents.used d hd

/-! ## The blocks on the abstraction -/

theorem intact_of_eq (hs : s.Intact) (h : t.documents = s.documents) : t.Intact := by
  unfold Store.Intact Store.versions Store.latest
  rw [h]
  exact hs

theorem Touch.latest_eq (h : Touch cfg e s p d f es objects) :
    (d.withState f).isLatestVersion = d.isLatestVersion := by
  cases h <;> rfl

theorem intact_touched (hs : s.Intact) (hd : d ∈ s.documents.rows)
    (touch : Touch cfg e s p d f es objects) (h : t.documents = (s.save d.pk f).documents) :
    t.Intact := by
  have hversions : t.versions = s.versions := by
    ext v
    constructor
    · rintro ⟨a, ha, rfl⟩
      rw [h] at ha
      rcases (Store.mem_save hd).mp ha with ⟨ha, -⟩ | rfl
      · exact ⟨a, ha, rfl⟩
      · exact ⟨d, hd, rfl⟩
    · rintro ⟨a, ha, rfl⟩
      unfold Store.versions
      rw [h]
      by_cases hpk : a.pk = d.pk
      · obtain rfl : a = d := Table.eq_of_pk ha hd hpk
        exact ⟨_, (Store.mem_save hd).mpr (.inr rfl), rfl⟩
      · exact ⟨a, (Store.mem_save hd).mpr (.inl ⟨ha, hpk⟩), rfl⟩
  have hlatest : t.latest = s.latest := by
    ext v
    constructor
    · rintro ⟨a, ha, hflag, rfl⟩
      rw [h] at ha
      rcases (Store.mem_save hd).mp ha with ⟨ha, -⟩ | rfl
      · exact ⟨a, ha, hflag, rfl⟩
      · exact ⟨d, hd, touch.latest_eq ▸ hflag, rfl⟩
    · rintro ⟨a, ha, hflag, rfl⟩
      unfold Store.latest
      rw [h]
      by_cases hpk : a.pk = d.pk
      · obtain rfl : a = d := Table.eq_of_pk ha hd hpk
        exact ⟨_, (Store.mem_save hd).mpr (.inr rfl), touch.latest_eq.trans hflag, rfl⟩
      · exact ⟨a, (Store.mem_save hd).mpr (.inl ⟨ha, hpk⟩), hflag, rfl⟩
  unfold Store.Intact
  rw [hversions, hlatest]
  exact hs

/-- The first version of a new chain. -/
theorem intact_first (hs : s.Intact) (hrows : t.documents.rows = s.documents.rows ++ [d])
    (hpk : d.pk = s.documents.next) (hroot : d.rootDocument = none) (hnumber : d.versionNumber = 1)
    (hflag : d.isLatestVersion = true) : t.Intact := by
  have hmem (a : Document) : a ∈ t.documents.rows ↔ a = d ∨ a ∈ s.documents.rows := by
    rw [hrows, List.mem_append, List.mem_singleton, or_comm]
  have hversions : t.versions = insert d.version s.versions := by
    ext v
    constructor
    · rintro ⟨a, ha, rfl⟩
      exact ((hmem a).mp ha).imp (congrArg _) fun ha => ⟨a, ha, rfl⟩
    · rintro (rfl | ⟨a, ha, rfl⟩)
      · exact ⟨d, (hmem d).mpr (.inl rfl), rfl⟩
      · exact ⟨a, (hmem a).mpr (.inr ha), rfl⟩
  have hlatest : t.latest = insert d.version s.latest := by
    ext v
    constructor
    · rintro ⟨a, ha, haflag, rfl⟩
      exact ((hmem a).mp ha).imp (congrArg _) fun ha => ⟨a, ha, haflag, rfl⟩
    · rintro (rfl | ⟨a, ha, haflag, rfl⟩)
      · exact ⟨d, (hmem d).mpr (.inl rfl), hflag, rfl⟩
      · exact ⟨a, (hmem a).mpr (.inr ha), haflag, rfl⟩
  unfold Store.Intact
  rw [hversions, hlatest]
  exact Version.Intact.insert_first hs (fun a ha => (id_lt_next ha).trans_eq hpk.symm) hroot hnumber

theorem mem_chain_iff {root : Document} (hroot : root ∈ s.documents.rows)
    (htop : root.rootDocument = none) :
    d ∈ s.chain root.pk ↔ d ∈ s.documents.rows ∧ d.chain = root.pk := by
  unfold Store.chain
  rw [List.mem_filter]
  refine and_congr_right fun hd => ?_
  rw [decide_eq_true_eq]
  unfold Document.chain
  constructor
  · rintro (hpk | hsome)
    · obtain rfl : d = root := Table.eq_of_pk hd hroot hpk
      simp [htop]
    · simp [hsome]
  · intro hchain
    cases hnone : d.rootDocument with
    | none =>
      rw [hnone] at hchain
      exact .inl hchain
    | some r =>
      rw [hnone] at hchain
      exact .inr (congrArg some hchain)

/-- In an intact chain there is no need for a repair. -/
theorem currentLatest_latest (hs : s.Intact) {root : Document} (hroot : root ∈ s.documents.rows)
    (htop : root.rootDocument = none) (h : currentLatest (s.chain root.pk) = some d) :
    d ∈ s.documents.rows ∧ d.isLatestVersion = true ∧ d.chain = root.pk := by
  obtain ⟨hd, hchain⟩ := (mem_chain_iff hroot htop).mp (currentLatest_mem h)
  refine ⟨hd, ?_, hchain⟩
  obtain ⟨_, ⟨l, hl, hflag, rfl⟩, hlchain⟩ := hs.lead d.version ⟨d, hd, rfl⟩
  have hmem : l ∈ s.chain root.pk :=
    (mem_chain_iff hroot htop).mpr ⟨hl, hlchain.trans hchain⟩
  have hany : (s.chain root.pk).any (·.isLatestVersion) = true :=
    List.any_eq_true.mpr ⟨l, hmem, hflag⟩
  unfold currentLatest at h
  rw [if_pos hany] at h
  exact (List.mem_filter.mp (List.argmax_mem h)).2

theorem intact_next (hs : s.Intact) {root previous : Document} (hroot : root ∈ s.documents.rows)
    (htop : root.rootDocument = none) (hlatest : currentLatest (s.chain root.pk) = some previous)
    (hrows : t.documents.rows =
      (s.save previous.pk (Document.withLatest false)).documents.rows ++ [d])
    (hpk : d.pk = s.documents.next) (hchain : d.rootDocument = some root.pk)
    (hnumber : d.versionNumber = previous.versionNumber + 1) (hflag : d.isLatestVersion = true) :
    t.Intact := by
  obtain ⟨hprevious, hpflag, hpchain⟩ := currentLatest_latest hs hroot htop hlatest
  have hmem (a : Document) : a ∈ t.documents.rows ↔ a = d ∨
      (a ∈ s.documents.rows ∧ a.pk ≠ previous.pk) ∨
        a = previous.withState (Document.withLatest false) := by
    rw [hrows, List.mem_append, List.mem_singleton, Store.mem_save hprevious, or_comm]
  have hversions : t.versions = insert d.version s.versions := by
    ext v
    constructor
    · rintro ⟨a, ha, rfl⟩
      rcases (hmem a).mp ha with rfl | ⟨ha, -⟩ | rfl
      · exact .inl rfl
      · exact .inr ⟨a, ha, rfl⟩
      · exact .inr ⟨previous, hprevious, rfl⟩
    · rintro (rfl | ⟨a, ha, rfl⟩)
      · exact ⟨d, (hmem d).mpr (.inl rfl), rfl⟩
      · by_cases hsame : a.pk = previous.pk
        · obtain rfl : a = previous := Table.eq_of_pk ha hprevious hsame
          exact ⟨_, (hmem _).mpr (.inr (.inr rfl)), rfl⟩
        · exact ⟨a, (hmem a).mpr (.inr (.inl ⟨ha, hsame⟩)), rfl⟩
  have hlatest : t.latest = insert d.version (s.latest \ {previous.version}) := by
    ext v
    constructor
    · rintro ⟨a, ha, haflag, rfl⟩
      rcases (hmem a).mp ha with rfl | ⟨ha, hne⟩ | rfl
      · exact .inl rfl
      · exact .inr ⟨⟨a, ha, haflag, rfl⟩, fun hsame => hne (congrArg Version.id hsame)⟩
      · cases haflag
    · rintro (rfl | ⟨⟨a, ha, haflag, rfl⟩, hne⟩)
      · exact ⟨d, (hmem d).mpr (.inl rfl), hflag, rfl⟩
      · have hpkne : a.pk ≠ previous.pk := fun hsame =>
          hne (congrArg Document.version (Table.eq_of_pk ha hprevious hsame))
        exact ⟨a, (hmem a).mpr (.inr (.inl ⟨ha, hpkne⟩)), haflag, rfl⟩
  unfold Store.Intact
  rw [hversions, hlatest]
  refine Version.Intact.insert_next hs (fun a ha => (id_lt_next ha).trans_eq hpk.symm)
    ⟨previous, hprevious, hpflag, rfl⟩ ?_ hnumber
  exact hchain.trans (congrArg some hpchain.symm)

theorem isProtected_of_root (ha : a ∈ s.documents.rows) (hroot : a.rootDocument = some d.pk) :
    s.isProtected d = true := by
  unfold Store.isProtected
  rw [Bool.or_eq_true, List.any_eq_true]
  exact .inl ⟨a, ha, decide_eq_true hroot⟩

/-- Rows that nothing names may go, as long as no chain loses its latest version and stays. -/
theorem intact_removed {gone : Document → Bool} (hs : s.Intact)
    (hfree : ∀ d ∈ s.documents.rows, gone d = true → s.isProtected d = false)
    (halone : ∀ d ∈ s.documents.rows, gone d = true → d.isLatestVersion = true →
      ∀ a ∈ s.documents.rows, a.chain = d.chain → a = d)
    (h : t.documents = s.documents.keep fun d => !gone d) : t.Intact := by
  let stays : Set Version := { v | ∃ d ∈ s.documents.rows, gone d = false ∧ d.version = v }
  have hmem (a : Document) : a ∈ t.documents.rows ↔ a ∈ s.documents.rows ∧ gone a = false := by
    rw [h, Numbered.rows_keep, List.mem_filter, Bool.not_eq_true']
  have hversions : t.versions = s.versions ∩ stays := by
    ext v
    constructor
    · rintro ⟨a, ha, rfl⟩
      obtain ⟨ha, hstay⟩ := (hmem a).mp ha
      exact ⟨⟨a, ha, rfl⟩, a, ha, hstay, rfl⟩
    · rintro ⟨-, a, ha, hstay, rfl⟩
      exact ⟨a, (hmem a).mpr ⟨ha, hstay⟩, rfl⟩
  have hlatest : t.latest = s.latest ∩ stays := by
    ext v
    constructor
    · rintro ⟨a, ha, hflag, rfl⟩
      obtain ⟨ha, hstay⟩ := (hmem a).mp ha
      exact ⟨⟨a, ha, hflag, rfl⟩, a, ha, hstay, rfl⟩
    · rintro ⟨hlatest, a, ha, hstay, rfl⟩
      exact ⟨a, (hmem a).mpr ⟨ha, hstay⟩, (version_mem_latest ha).mp hlatest, rfl⟩
  unfold Store.Intact
  rw [hversions, hlatest]
  refine Version.Intact.inter hs ?_ ?_
  · rintro _ ⟨a, ha, rfl⟩ - _ ⟨r, hr, rfl⟩ hroot
    refine ⟨r, hr, ?_, rfl⟩
    cases hgone : gone r with
    | false => rfl
    | true =>
      have hprotected := isProtected_of_root ha hroot
      rw [hfree r hr hgone] at hprotected
      cases hprotected
  · rintro _ ⟨a, ha, rfl⟩ ⟨b, hb, hstay, hsame⟩ _ ⟨l, hl, hflag, rfl⟩ hchain
    obtain rfl : b = a := eq_of_version hb ha hsame
    cases hgone : gone l with
    | false => exact ⟨l, hl, hgone, rfl⟩
    | true =>
      obtain rfl : b = l := halone l hl hgone hflag b hb hchain.symm
      rw [hgone] at hstay
      cases hstay

/-- The version that is taken back is still the latest, and the one before it is still there. -/
theorem intact_withdrawn {n b : Document} (hs : s.Intact) (hn : n ∈ s.documents.rows)
    (hflag : n.isLatestVersion = true) (hb : b ∈ s.documents.rows) (hchain : b.chain = n.chain)
    (hroot : n.rootDocument.isSome = true) (hnumber : n.versionNumber = b.versionNumber + 1)
    (h : t.documents =
      (s.save b.pk (Document.withLatest true)).documents.keep fun d => !decide (d.pk = n.pk)) :
    t.Intact := by
  have hbn : b.pk ≠ n.pk := by
    intro hpk
    obtain rfl : b = n := Table.eq_of_pk hb hn hpk
    omega
  have hmem (a : Document) : a ∈ t.documents.rows ↔
      (a ∈ s.documents.rows ∧ a.pk ≠ b.pk ∧ a.pk ≠ n.pk) ∨
        a = b.withState (Document.withLatest true) := by
    rw [h, Numbered.rows_keep, List.mem_filter, Store.mem_save hb]
    simp only [Bool.not_eq_true', decide_eq_false_iff_not]
    constructor
    · rintro ⟨⟨ha, hpk⟩ | rfl, hne⟩
      · exact .inl ⟨ha, hpk, hne⟩
      · exact .inr rfl
    · rintro (⟨ha, hpk, hne⟩ | rfl)
      · exact ⟨.inl ⟨ha, hpk⟩, hne⟩
      · exact ⟨.inr rfl, hbn⟩
  have hversions : t.versions = s.versions \ {n.version} := by
    ext v
    constructor
    · rintro ⟨a, ha, rfl⟩
      rcases (hmem a).mp ha with ⟨ha, -, hne⟩ | rfl
      · exact ⟨⟨a, ha, rfl⟩, fun hsame => hne (congrArg Version.id hsame)⟩
      · exact ⟨⟨b, hb, rfl⟩, fun hsame => hbn (congrArg Version.id hsame)⟩
    · rintro ⟨⟨a, ha, rfl⟩, hne⟩
      have hpkne : a.pk ≠ n.pk := fun hsame =>
        hne (congrArg Document.version (Table.eq_of_pk ha hn hsame))
      by_cases hsame : a.pk = b.pk
      · obtain rfl : a = b := Table.eq_of_pk ha hb hsame
        exact ⟨_, (hmem _).mpr (.inr rfl), rfl⟩
      · exact ⟨a, (hmem a).mpr (.inl ⟨ha, hsame, hpkne⟩), rfl⟩
  have hlatest : t.latest = insert b.version (s.latest \ {n.version}) := by
    ext v
    constructor
    · rintro ⟨a, ha, haflag, rfl⟩
      rcases (hmem a).mp ha with ⟨ha, -, hne⟩ | rfl
      · exact .inr ⟨⟨a, ha, haflag, rfl⟩, fun hsame => hne (congrArg Version.id hsame)⟩
      · exact .inl rfl
    · rintro (rfl | ⟨⟨a, ha, haflag, rfl⟩, hne⟩)
      · exact ⟨_, (hmem _).mpr (.inr rfl), rfl, rfl⟩
      · have hpkne : a.pk ≠ n.pk := fun hsame =>
          hne (congrArg Document.version (Table.eq_of_pk ha hn hsame))
        by_cases hsame : a.pk = b.pk
        · obtain rfl : a = b := Table.eq_of_pk ha hb hsame
          exact ⟨_, (hmem _).mpr (.inr rfl), rfl, rfl⟩
        · exact ⟨a, (hmem a).mpr (.inl ⟨ha, hsame, hpkne⟩), haflag, rfl⟩
  unfold Store.Intact
  rw [hversions, hlatest]
  exact Version.Intact.withdraw hs ⟨n, hn, hflag, rfl⟩ ⟨b, hb, rfl⟩ hchain hroot hnumber

/-! ## What a worker knows of the chains -/

/-- The two versions of a call that is waiting for its presigned URL; each may be gone. -/
def Compensates (s : Store) (new : ℕ) : Option ℕ → Prop
  | none => new < s.documents.next ∧ ∀ a ∈ s.documents.rows, a.pk = new → a.rootDocument = none
  | some previous => (new < s.documents.next ∧ previous < s.documents.next) ∧
    ∀ a ∈ s.documents.rows, a.pk = new → a.rootDocument.isSome = true ∧
      ∀ b ∈ s.documents.rows, b.pk = previous →
        b.chain = a.chain ∧ a.versionNumber = b.versionNumber + 1

/-- A loaded document has the root of its row. -/
def Loaded (s : Store) (d : Document) : Prop :=
  d.pk < s.documents.next ∧
    ∀ a ∈ s.documents.rows, a.pk = d.pk → a.rootDocument = d.rootDocument

def Worker.Expects (s : Store) : Worker → Prop
  | .versioning _ document _ _ => Loaded s document
  | .presigning new previous => Compensates s new.pk previous
  | .withdrawing new previous => Compensates s new previous
  | _ => True

theorem Document.Follows.version_eq (h : d.Follows a) : a.version = d.version := by
  simp [Document.version, h.pk, h.rootDocument, h.versionNumber]

theorem Loaded.stable (h : Loaded s d) (ht : s.Inherits t) : Loaded t d := by
  refine ⟨lt_of_lt_of_le h.1 ht.1, fun a ha hpk => ?_⟩
  obtain ⟨b, hb, hbpk, hfollows⟩ := ht.row h.1 ha hpk
  exact hfollows.rootDocument.trans (h.2 b hb hbpk)

theorem Compensates.stable {new : ℕ} {previous : Option ℕ} (h : Compensates s new previous)
    (ht : s.Inherits t) : Compensates t new previous := by
  cases previous with
  | none =>
    refine ⟨lt_of_lt_of_le h.1 ht.1, fun a ha hpk => ?_⟩
    obtain ⟨b, hb, hbpk, hfollows⟩ := ht.row h.1 ha hpk
    exact hfollows.rootDocument.trans (h.2 b hb hbpk)
  | some previous =>
    obtain ⟨⟨hnew, hprevious⟩, hrows⟩ := h
    refine ⟨⟨lt_of_lt_of_le hnew ht.1, lt_of_lt_of_le hprevious ht.1⟩, fun a ha hpk => ?_⟩
    obtain ⟨n, hn, hnpk, hafollows⟩ := ht.row hnew ha hpk
    obtain ⟨hsome, hpair⟩ := hrows n hn hnpk
    refine ⟨hafollows.rootDocument ▸ hsome, fun b hb hbpk => ?_⟩
    obtain ⟨m, hm, hmpk, hbfollows⟩ := ht.row hprevious hb hbpk
    obtain ⟨hchain, hnumber⟩ := hpair m hm hmpk
    have hbchain : b.chain = m.chain := congrArg Version.chain hbfollows.version_eq
    have hachain : a.chain = n.chain := congrArg Version.chain hafollows.version_eq
    have hb := hbfollows.versionNumber
    have ha := hafollows.versionNumber
    exact ⟨hbchain.trans (hchain.trans hachain.symm), by omega⟩

theorem Worker.Expects.stable (h : p.Expects s) (ht : s.Inherits t) : p.Expects t := by
  cases p with
  | versioning | presigning | withdrawing =>
    first
      | exact Loaded.stable h ht
      | exact Compensates.stable h ht
  | _ => trivial

theorem announceUpload_expects {user : Actor} {categorySlug : String} {file : FileRequest}
    {uuid : ℕ} (h : announceUpload cfg user categorySlug file uuid s = .ok (d, t)) :
    Compensates t d.pk none := by
  obtain ⟨c, rfl, T, hT, rfl⟩ := announceUpload_ok h
  obtain ⟨hrows, hnext, -⟩ := Numbered.insert_ok hT rfl
  refine ⟨?_, fun a ha hpk => ?_⟩
  · have hlt : s.documents.next < T.next := by omega
    exact hlt
  · have ha : a ∈ T.rows := ha
    rw [hrows, List.mem_append, List.mem_singleton] at ha
    rcases ha with ha | rfl
    · exact absurd hpk (Nat.ne_of_lt (s.documents.used a ha))
    · rfl

theorem announceVersion_expects {user : Actor} {document new previous : Document}
    {file : FileRequest} {description : String} (hs : s.Intact) (hdocument : Loaded s document)
    (h : announceVersion cfg e user document file description s = .ok ((new, previous), t)) :
    Compensates t new.pk (some previous.pk) := by
  obtain ⟨c, root, hroot, hchain, -, hlatest, rfl, T, hT, rfl⟩ := announceVersion_ok h
  have htop : root.rootDocument = none := by
    rcases hchain with ⟨hnone, hpk⟩ | ⟨-, htop⟩
    · exact (hdocument.2 root hroot hpk).trans hnone
    · exact htop
  obtain ⟨hprevious, -, hpchain⟩ := currentLatest_latest hs hroot htop hlatest
  obtain ⟨hrows, hnext, -⟩ := Numbered.insert_ok hT rfl
  have hdocs : (((Store.documentTable.set T (s.save previous.pk (Document.withLatest false))).log
      e.audited (versionEntry c user file root (nextVersion c user file description root previous
        s.now e.token s.documents.next))).documents) = T := Store.documents_log
  have hnew : (s.documents.next < T.next) := by
    rw [hnext]
    exact Nat.lt_succ_self _
  unfold Compensates
  rw [hdocs]
  have hlt := s.documents.used previous hprevious
  refine ⟨⟨hnew, lt_trans hlt hnew⟩, fun a ha hpk => ?_⟩
  -- The row of the new version is the one that has just been inserted.
  obtain rfl : a = nextVersion c user file description root previous s.now e.token
      s.documents.next := by
    rw [hrows, List.mem_append, List.mem_singleton] at ha
    rcases ha with ha | ha
    · have hused := (s.save previous.pk (Document.withLatest false)).documents.used a ha
      exact absurd hpk (Nat.ne_of_lt hused)
    · exact ha
  refine ⟨rfl, fun b hb hbpk => ?_⟩
  rw [hrows, List.mem_append, List.mem_singleton, Store.mem_save hprevious] at hb
  rcases hb with (⟨-, hne⟩ | rfl) | rfl
  · exact absurd hbpk hne
  · exact ⟨hpchain, rfl⟩
  · exact absurd hbpk (Nat.ne_of_gt hlt)

theorem Next.expects (h : Next cfg e s t p q) (hs : s.Intact) (hp : p.Expects s)
    (ht : s.Inherits t) : q.Expects t := by
  cases h with
  | announced hrun => exact announceUpload_expects hrun
  | loaded hd hst =>
    subst hst
    exact ⟨t.documents.used _ hd, fun a ha hpk => congrArg Document.rootDocument
      (Table.eq_of_pk ha hd hpk)⟩
  | versioned hrun => exact announceVersion_expects hs hp hrun
  | unsigned => exact Compensates.stable hp ht
  | cleanup | deleted =>
    unfold Worker.nextStale
    split <;> trivial
  | _ => trivial

/-! ## The invariant -/

/-- The clean-up takes a latest version only with its whole chain, and a version that is taken back
is still the latest, after one that is still there. -/
def Orderly (s : Store) (p : Worker) (_ : Choice) : Prop :=
  match p with
  | .collected _ pks _ => ∀ d ∈ s.documents.rows, d.pk ∈ pks → d.isLatestVersion = true →
    ∀ a ∈ s.documents.rows, a.chain = d.chain → a = d
  | .withdrawing new (some previous) =>
    (∃ n ∈ s.documents.rows, n.pk = new ∧ n.isLatestVersion = true) ∧
      ∃ b ∈ s.documents.rows, b.pk = previous
  | _ => True

instance (s : Store) (p : Worker) (e : Choice) : Decidable (Orderly s p e) :=
  match p with
  | .collected _ pks _ => inferInstanceAs (Decidable (∀ d ∈ s.documents.rows, d.pk ∈ pks →
      d.isLatestVersion = true → ∀ a ∈ s.documents.rows, a.chain = d.chain → a = d))
  | .withdrawing new (some previous) => inferInstanceAs (Decidable
      ((∃ n ∈ s.documents.rows, n.pk = new ∧ n.isLatestVersion = true) ∧
        ∃ b ∈ s.documents.rows, b.pk = previous))
  | .withdrawing _ none => inferInstanceAs (Decidable True)
  | .calling _ | .deleting .. | .disposal | .disposing .. | .hardDeleting _ | .purge | .purging ..
  | .clearing .. | .cleared .. | .uploading .. | .loading .. | .versioning .. | .presigning ..
  | .scanning _ | .claimed .. | .scanned .. | .failing .. | .sweeping _ | .cleanup | .cleaning ..
  | .cleaned _ | .redeeming .. | .redemption .. | .returned | .raised _ | .dead =>
    inferInstanceAs (Decidable True)

theorem Change.intact (h : Change cfg e s p t) (hs : s.Intact) (hp : p.Expects s)
    (hc : Orderly s p e) : t.Intact := by
  cases h with
  | kept hdocs | taken _ hdocs | copied _ _ _ _ _ hdocs => exact intact_of_eq hs hdocs
  | touched hd touch hdocs => exact intact_touched hs hd touch hdocs
  | announced _ hdocs =>
    obtain ⟨hrows, -⟩ := Numbered.insert_ok hdocs rfl
    exact intact_first hs hrows rfl rfl rfl rfl
  | @versioned c user document root previous file description es hp' hroot hchain _ hlatest hdocs =>
    subst hp'
    have htop : root.rootDocument = none := by
      rcases hchain with ⟨hnone, hpk⟩ | ⟨-, htop⟩
      · exact (hp.2 root hroot hpk).trans hnone
      · exact htop
    obtain ⟨hrows, -⟩ := Numbered.insert_ok hdocs rfl
    exact intact_next hs hroot htop hlatest hrows rfl rfl rfl rfl
  | removed hfree hdocs _ _ hfirst =>
    refine intact_removed hs hfree (fun d hd hgone hflag a ha hchain => ?_) hdocs
    cases p with
    | collected stale pks rest => exact hc d hd (of_decide_eq_true hgone) hflag a ha hchain
    | withdrawing new previous =>
      cases previous with
      | some previous => exact absurd rfl (hfirst new previous)
      | none =>
        -- Nothing names the first version of a chain that is taken back, so that it is alone.
        have htop : d.rootDocument = none := hp.2 d hd (of_decide_eq_true hgone)
        have hid : a.chain = d.pk := by simpa [Document.chain, htop] using hchain
        cases hroot : a.rootDocument with
        | none =>
          have hpk : a.pk = d.pk := by simpa [Document.chain, hroot] using hid
          exact Table.eq_of_pk ha hd hpk
        | some r =>
          have hname : a.rootDocument = some d.pk := by simpa [Document.chain, hroot] using hid
          have hprotected := isProtected_of_root ha hname
          rw [hfree d hd hgone] at hprotected
          cases hprotected
    | _ => cases hgone
  | withdrawn hp' hdocs =>
    subst hp'
    obtain ⟨⟨n, hn, rfl, hflag⟩, b, hb, rfl⟩ := hc
    obtain ⟨hroot, hpair⟩ := hp.2 n hn rfl
    obtain ⟨hchain, hnumber⟩ := hpair b hb rfl
    exact intact_withdrawn hs hn hflag hb hchain hroot hnumber hdocs

theorem Change.expects (h : Change cfg e s p t) (hq : q.Expects s) : q.Expects t :=
  hq.stable h.inherits

theorem env_intact {x : Event} (hs : s.Intact) (h : (documents cfg).env s x = some t) :
    t.Intact := by
  obtain ⟨-, ⟨hdocs, -⟩ | ⟨k, content, -, hdocs, -⟩ | ⟨document, file, content, -, hdocs, -⟩⟩ :=
    env_change h
  · exact intact_of_eq hs hdocs
  · exact intact_of_eq hs hdocs
  · exact intact_first hs (Numbered.insert_ok hdocs rfl).1 rfl rfl rfl rfl

theorem intact_of_reachable {s : Pool.State Store Worker}
    (h : ((documents cfg).under Orderly).machine.Reachable s) : s.store.Intact := by
  refine (Program.invariant (I := Store.Intact) (J := fun s p => p.Expects s) ?_ ?_ ?_ ?_ ?_ h).1
  · intro st h₀
    have hrows : st.documents.rows = [] := congrArg (fun T => T.rows) h₀.1
    have hversions : st.versions = ∅ := by simp [Store.versions, hrows]
    have hlatest : st.latest = ∅ := by simp [Store.latest, hrows]
    unfold Store.Intact
    rw [hversions, hlatest]
    exact .empty
  · intro st p _ hentry
    cases p <;> trivial
  · intro st _
    trivial
  · intro st p e st' q hI hJ hact
    obtain ⟨hc, hact⟩ := Program.under_act.mp hact
    have hchange := (act_change hact).2
    exact ⟨hchange.intact hI hJ hc, (act_next hact).expects hI hJ hchange.inherits,
      fun _ hr => hchange.expects hr⟩
  · intro st x st' hI henv
    have henv : (documents cfg).env st x = some st' := henv
    exact ⟨env_intact hI henv, fun _ hr => hr.stable (env_inherits henv)⟩

/-- The chain of a document: its first version, its only latest version and its numbers. -/
structure Chained (s : Store) (root : ℕ) : Prop where
  first : ∃ r ∈ s.documents.rows, r.pk = root ∧ r.rootDocument = none ∧ r.versionNumber = 1
  latest : ∃! l, l ∈ s.documents.rows ∧ l.chain = root ∧ l.isLatestVersion = true
  apart : ∀ a ∈ s.documents.rows, ∀ b ∈ s.documents.rows, a.chain = root → b.chain = root →
    a.versionNumber = b.versionNumber → a = b
  highest : ∀ l ∈ s.documents.rows, l.chain = root → l.isLatestVersion = true →
    ∀ a ∈ s.documents.rows, a.chain = root → a.versionNumber ≤ l.versionNumber

theorem chained_of_intact (hs : s.Intact) (hd : d ∈ s.documents.rows) : Chained s d.chain where
  first := by
    obtain ⟨_, ⟨r, hr, rfl⟩, hid, hroot, hnumber⟩ := hs.rooted d.version ⟨d, hd, rfl⟩
    exact ⟨r, hr, hid, hroot, hnumber⟩
  latest := by
    obtain ⟨_, ⟨l, hl, hflag, rfl⟩, hchain⟩ := hs.lead d.version ⟨d, hd, rfl⟩
    refine ⟨l, ⟨hl, hchain, hflag⟩, ?_⟩
    rintro m ⟨hm, hmchain, hmflag⟩
    exact eq_of_version hm hl (hs.one m.version ⟨m, hm, hmflag, rfl⟩ l.version ⟨l, hl, hflag, rfl⟩
      (hmchain.trans hchain.symm))
  apart a ha b hb hachain hbchain hsame :=
    eq_of_version ha hb (hs.apart a.version ⟨a, ha, rfl⟩ b.version ⟨b, hb, rfl⟩
      (hachain.trans hbchain.symm) hsame)
  highest l hl hlchain hflag a ha hachain :=
    hs.highest l.version ⟨l, hl, hflag, rfl⟩ a.version ⟨a, ha, rfl⟩ (hlchain.trans hachain.symm)

/-- Every chain stays whole, as long as the clean-up takes no latest version from a longer chain and
no version is taken back after a later one. -/
theorem chains_whole {s : Pool.State Store Worker}
    (h : ((documents cfg).under Orderly).machine.Reachable s) (hd : d ∈ s.store.documents.rows) :
    Chained s.store d.chain :=
  chained_of_intact (intact_of_reachable h) hd

def scannedCopy : FileRequest := ⟨"copy.pdf", "application/pdf", 3⟩

/-- A receipt of the server, and a second version that somebody is going to upload. -/
def versionedReceipt : List (Pool.Label Worker Choice Event) :=
  [.env (.generate receipt 1 [80]), .spawn (.loading officer 1 scannedCopy ""), .act 0 {},
    .act 0 {}, .act 0 {}]

theorem versionedReceipt_whole : Chained
    (((documents plainSettings).under Orderly).machine.final ⟨emptyStore, []⟩
      versionedReceipt).store 1 := by
  have hreach := Machine.Reachable.final
    (M := ((documents plainSettings).under Orderly).machine) (s := ⟨emptyStore, []⟩)
    ⟨init_emptyStore plainSettings, rfl⟩ versionedReceipt
  have hrow : (((documents plainSettings).under Orderly).machine.final ⟨emptyStore, []⟩
      versionedReceipt).store.documents.rows.any (fun d => d.versionNumber = 2 ∧ d.chain = 1) =
        true := by decide +kernel
  obtain ⟨d, hd, hprop⟩ := List.any_eq_true.mp hrow
  have hchained := chains_whole hreach hd
  rwa [(of_decide_eq_true hprop).2] at hchained

/-- The upload never comes, and the clean-up takes the second version away. -/
def abandonedVersion : Pool.State Store Worker :=
  (documents plainSettings).machine.final ⟨emptyStore, []⟩ (versionedReceipt ++
    [.env (.pass (seconds 1200)), .spawn .cleanup, .act 1 {}, .act 1 {}, .act 1 {}, .act 1 {}])

/-- The receipt is left, and is not marked as the latest. -/
theorem abandonedVersion_fails : ¬ ∀ s : Pool.State Store Worker,
    (documents plainSettings).machine.Reachable s →
      ∀ d ∈ s.store.documents.rows, Chained s.store d.chain := by
  intro h
  have hreach : (documents plainSettings).machine.Reachable abandonedVersion :=
    Machine.Reachable.final (M := (documents plainSettings).machine)
      (s := ⟨emptyStore, []⟩) ⟨init_emptyStore plainSettings, rfl⟩ _
  have hrow : abandonedVersion.store.documents.rows.any (fun d => d.pk = 1) = true := by
    decide +kernel
  obtain ⟨d, hd, -⟩ := List.any_eq_true.mp hrow
  obtain ⟨l, ⟨hl, -, hflag⟩, -⟩ := (h _ hreach d hd).latest
  have hnone : ∀ l ∈ abandonedVersion.store.documents.rows, l.isLatestVersion = false := by
    decide +kernel
  rw [hnone l hl] at hflag
  cases hflag

end Civicos.Documents
