import Civicos.Consent.Steps

/-!
# The verification list

The list of the data consumers looks for signed records, current or not; `has_consent` looks for a
current one. A grant that replaces a signed record leaves it on the list, so that a later withdrawal
does not take the citizen off it; and a signature can be attached to a record that is no longer
current.
-/
namespace Civicos.Consent

open Library Library.Transaction

variable {s t : Store} {r a : ConsentRecord} {g : Grant} {c : ConsentCategory}

namespace ConsentRecord

/-- What `has_consent` looks for -/
def Consents (a : ConsentRecord) : Prop :=
  a.isCurrent = true ∧ a.status = .granted ∧ a.state = .signed

instance (a : ConsentRecord) : Decidable a.Consents := inferInstanceAs (Decidable (_ ∧ _ ∧ _))

end ConsentRecord

namespace Store

/-- The list contains a record for a citizen and an agreement exactly when the citizen consents. -/
def ListAgrees (citizen : ℕ) (c : ConsentCategory) (s : Store) : Prop :=
  ∀ slug, c.value .slug = .str slug →
    (s.verificationRecords (some citizen) (some c.pk) ≠ [] ↔ s.hasConsent citizen slug = true)

/-- A category that has records is active. -/
def inUse (category : ℕ) (s : Store) : Bool := (s.categoryOf category).any (·.isActive)

end Store

/-- The condition on a block: a withdrawal leaves no other signed record of the citizen and the
category, a signature signs a record of an active category that is current, or whose citizen
consents anyway, and no agreement is deactivated. -/
def Upright (s : Store) : Worker → Bool
  | .revoking call category seen =>
    (Worker.locked seen (fun r => r.currentOf call.citizen category && r.status = .granted) s).all
      fun r => s.records.rows.all fun a => !decide (a.Shares r) || a.pk = r.pk || a.state ≠ .signed
  | .calling (.attachSignature user record q _) =>
    q.signature = "" || q.verificationSignedBy = "" || ((s.records.get record).filter fun r =>
      r.citizen = user && (s.signatureOf r.pk).isNone && r.state ≠ .signed).all fun r =>
        s.inUse r.category &&
          (r.isCurrent || s.records.rows.any fun a => decide (a.Shares r) && decide a.Consents)
  | .savingCategory loaded edit _ =>
    ConsentCategory.isActive (loaded.assign (edit.named categoryModel)) || !s.inUse loaded.pk
  | _ => true

/-- Who has signed consents. -/
structure Consistent (s : Store) : Prop where
  consents : ∀ r ∈ s.records.rows, r.state = .signed → ∃ a ∈ s.records.rows, a.Shares r ∧ a.Consents
  inUse : ∀ r ∈ s.records.rows, r.state = .signed → s.inUse r.category = true
  latest : ∀ a ∈ s.records.rows, a.isCurrent = true → ∀ r ∈ s.records.rows, a.Shares r → r.pk ≤ a.pk

/-! ## What the list says -/

theorem eq_of_slug {d : ConsentCategory} (hc : c ∈ s.categories.rows) (hd : d ∈ s.categories.rows)
    (h : c.value .slug = d.value .slug) : c = d :=
  Table.eq_of_clash (List.mem_singleton.mpr rfl) hc hd
    ⟨by simp [ConsentCategory.slugUnique], congrArg some h⟩

theorem activeCategory_eq_some {slug : String} : s.activeCategory slug = some c ↔
    c ∈ s.categories.rows ∧ c.value .slug = .str slug ∧ c.isActive = true := by
  unfold Store.activeCategory
  constructor
  · intro h
    have hfound := List.find?_some h
    simp only [Bool.and_eq_true, decide_eq_true_eq] at hfound
    exact ⟨List.mem_of_find?_eq_some h, hfound⟩
  · rintro ⟨hc, hslug, hactive⟩
    cases hfind : s.categories.rows.find? fun c => c.value .slug = .str slug && c.isActive with
    | none => simpa [hslug, hactive] using List.find?_eq_none.mp hfind c hc
    | some d =>
      have hfound := List.find?_some hfind
      simp only [Bool.and_eq_true, decide_eq_true_eq] at hfound
      exact congrArg some
        (eq_of_slug (List.mem_of_find?_eq_some hfind) hc (hfound.1.trans hslug.symm))

theorem mem_verificationRecords {citizen category : ℕ} :
    r ∈ s.verificationRecords (some citizen) (some category) ↔
      r ∈ s.records.rows ∧ r.state = .signed ∧ r.citizen = citizen ∧ r.category = category := by
  simp [Store.verificationRecords, and_assoc]

theorem inUse_iff {category : ℕ} : s.inUse category = true ↔
    ∃ c ∈ s.categories.rows, c.pk = category ∧ c.isActive = true := by
  unfold Store.inUse Store.categoryOf
  rw [Option.any_eq_true]
  exact exists_congr fun c => by rw [Numbered.get_eq_some, and_assoc]; rfl

theorem hasConsent_iff {slug : String} {citizen : ℕ} (hc : c ∈ s.categories.rows)
    (hslug : c.value .slug = .str slug) (hrequired : c.isRequired = false) :
    s.hasConsent citizen slug = true ↔ c.isActive = true ∧
      ∃ a ∈ s.records.rows, a.citizen = citizen ∧ a.category = c.pk ∧ a.Consents := by
  unfold Store.hasConsent
  rw [Option.any_eq_true]
  constructor
  · rintro ⟨d, hd, hrecord⟩
    obtain ⟨hdmem, hdslug, hdactive⟩ := activeCategory_eq_some.mp hd
    obtain rfl := eq_of_slug hdmem hc (hdslug.trans hslug.symm)
    rw [hrequired, Bool.false_or, List.any_eq_true] at hrecord
    obtain ⟨a, ha, hconsents⟩ := hrecord
    simp only [Bool.and_eq_true, decide_eq_true_eq] at hconsents
    obtain ⟨⟨hcurrent, hstatus⟩, hstate⟩ := hconsents
    obtain ⟨hcitizen, hcategory, hnow⟩ := currentOf_iff.mp hcurrent
    exact ⟨hdactive, a, ha, hcitizen, hcategory, hnow, hstatus, hstate⟩
  · rintro ⟨hactive, a, ha, hcitizen, hcategory, hnow, hstatus, hstate⟩
    refine ⟨c, activeCategory_eq_some.mpr ⟨hc, hslug, hactive⟩, ?_⟩
    rw [hrequired, Bool.false_or, List.any_eq_true]
    exact ⟨a, ha, by simp [currentOf_iff.mpr ⟨hcitizen, hcategory, hnow⟩, hstatus, hstate]⟩

theorem Consistent.listAgrees (h : Consistent s) (hc : c ∈ s.categories.rows)
    (hrequired : c.isRequired = false) (citizen : ℕ) : s.ListAgrees citizen c := by
  intro slug hslug
  rw [hasConsent_iff hc hslug hrequired]
  constructor
  · intro hlist
    obtain ⟨r, hlisted⟩ := List.exists_mem_of_ne_nil _ hlist
    obtain ⟨hr, hsigned, rfl, hcategory⟩ := mem_verificationRecords.mp hlisted
    obtain ⟨d, hd, hpk, hactive⟩ := inUse_iff.mp (h.inUse r hr hsigned)
    obtain rfl : d = c := Table.eq_of_pk hd hc (hpk.trans hcategory)
    obtain ⟨a, ha, ⟨hcitizen, hshared⟩, hconsents⟩ := h.consents r hr hsigned
    exact ⟨hactive, a, ha, hcitizen, hshared.trans hcategory, hconsents⟩
  · rintro ⟨-, a, ha, hcitizen, hcategory, -, -, hstate⟩
    exact List.ne_nil_of_mem (mem_verificationRecords.mpr ⟨ha, hstate, hcitizen, hcategory⟩)

/-! ## Blocks -/

/-- An erasure takes the earlier records of a citizen and a category with a later one. -/
structure Closed (collected : List ℕ) (s : Store) : Prop where
  lt_next : ∀ k ∈ collected, k < s.records.next
  closed : ∀ a ∈ s.records.rows, a.pk ∈ collected → ∀ r ∈ s.records.rows, a.Shares r →
    r.pk ≤ a.pk → r.pk ∈ collected

/-- What a request relies on between two of its blocks. -/
def Worker.Fits (s : Store) : Worker → Prop
  | .matching g _ | .writing g _ | .losing g | .winning g _ => s.inUse g.category = true
  | .erasing _ _ _ _ collected => Closed collected s
  | _ => True

theorem Consistent.granted (hs : Consistent s) {seen : Option ℕ} (h : Granted g seen s t)
    (huse : ∀ k, s.inUse k = true → t.inUse k = true) (hactive : s.inUse g.category = true) :
    Consistent t := by
  have hnew : g.signed s.now s.records.next ∈ t.records.rows := by
    rw [h.records]
    exact List.mem_append_right _ (List.mem_singleton.mpr rfl)
  -- A record of another citizen or category is left alone.
  have hother : ∀ a ∈ s.records.rows, ¬ a.Shares (g.signed s.now s.records.next) →
      a ∈ t.records.rows := by
    intro a ha hapart
    rw [h.records]
    refine List.mem_append_left _ (List.mem_map.mpr ⟨a, ha, if_neg fun hseen => hapart ?_⟩)
    obtain ⟨hcitizen, hcategory, -⟩ := currentOf_iff.mp hseen.2
    exact ⟨hcitizen, hcategory⟩
  have hold : ∀ r ∈ t.records.rows, r ≠ g.signed s.now s.records.next →
      ∃ a ∈ s.records.rows, r = g.archive seen a := by
    intro r hr hne
    rw [h.records] at hr
    rcases List.mem_append.mp hr with hr | hr
    · obtain ⟨a, ha, rfl⟩ := List.mem_map.mp hr
      exact ⟨a, ha, rfl⟩
    · exact absurd (List.mem_singleton.mp hr) hne
  refine ⟨fun r hr hsigned => ?_, fun r hr hsigned => ?_, fun a ha hcurrent r hr hshares => ?_⟩
  · by_cases hshares : (g.signed s.now s.records.next).Shares r
    · exact ⟨_, hnew, hshares, rfl, rfl, rfl⟩
    · have hne : r ≠ g.signed s.now s.records.next := by
        rintro rfl
        exact hshares ⟨rfl, rfl⟩
      obtain ⟨b, hb, rfl⟩ := hold r hr hne
      have hstate : b.state = .signed := by simpa using hsigned
      obtain ⟨a, ha, ⟨hcitizen, hcategory⟩, hconsents⟩ := hs.consents b hb hstate
      refine ⟨a, hother a ha fun hgiven => hshares ?_, ⟨?_, ?_⟩, hconsents⟩
      · exact ⟨by simpa using (hcitizen.symm.trans hgiven.1).symm,
          by simpa using (hcategory.symm.trans hgiven.2).symm⟩
      · simpa using hcitizen
      · simpa using hcategory
  · by_cases hne : r = g.signed s.now s.records.next
    · subst hne
      exact huse _ hactive
    · obtain ⟨b, hb, rfl⟩ := hold r hr hne
      rw [category_archive]
      exact huse _ (hs.inUse b hb (by simpa using hsigned))
  · by_cases hlast : a = g.signed s.now s.records.next
    · subst hlast
      by_cases hne : r = g.signed s.now s.records.next
      · rw [hne]
      · obtain ⟨b, hb, rfl⟩ := hold r hr hne
        rw [pk_archive]
        exact (s.records.used b hb).le
    · obtain ⟨b, hb, rfl⟩ := hold a ha hlast
      have hnow := isCurrent_of_archive hcurrent
      -- The archiving statement has not seen `b`, so that `b` is not in the way of the grant.
      have hapart : b.currentOf g.citizen g.category ≠ true := by
        intro hgiven
        obtain ⟨-, hunseen⟩ := archive_eq hgiven hcurrent
        exact hunseen (h.free b hb hgiven)
      by_cases hne : r = g.signed s.now s.records.next
      · subst hne
        refine absurd (currentOf_iff.mpr ⟨?_, ?_, hnow⟩) hapart
        · exact citizen_archive.symm.trans hshares.1
        · exact category_archive.symm.trans hshares.2
      · obtain ⟨d, hd, rfl⟩ := hold r hr hne
        rw [pk_archive, pk_archive]
        exact hs.latest b hb hnow d hd
          ⟨by simpa using hshares.1, by simpa using hshares.2⟩

theorem Consistent.created (hs : Consistent s) {citizen category : ℕ}
    (hfree : ∀ r ∈ s.records.rows, r.currentOf citizen category = false)
    (hrows : t.records.rows = s.records.rows ++ [{ pk := s.records.next, citizen, category }])
    (huse : ∀ k, s.inUse k = true → t.inUse k = true) : Consistent t := by
  have hcases : ∀ r ∈ t.records.rows, r ∈ s.records.rows ∨
      r = { pk := s.records.next, citizen, category } := by
    intro r hr
    rw [hrows] at hr
    exact (List.mem_append.mp hr).imp_right List.mem_singleton.mp
  have hkept : ∀ r ∈ s.records.rows, r ∈ t.records.rows := fun r hr => by
    rw [hrows]
    exact List.mem_append_left _ hr
  refine ⟨fun r hr hsigned => ?_, fun r hr hsigned => ?_, fun a ha hcurrent r hr hshares => ?_⟩
  · rcases hcases r hr with hr | rfl
    · obtain ⟨a, ha, hconsents⟩ := hs.consents r hr hsigned
      exact ⟨a, hkept a ha, hconsents⟩
    · cases hsigned
  · rcases hcases r hr with hr | rfl
    · exact huse _ (hs.inUse r hr hsigned)
    · cases hsigned
  · rcases hcases a ha with ha | rfl
    · rcases hcases r hr with hr | rfl
      · exact hs.latest a ha hcurrent r hr hshares
      · have hgiven := currentOf_iff.mpr ⟨hshares.1, hshares.2, hcurrent⟩
        rw [hfree a ha] at hgiven
        cases hgiven
    · rcases hcases r hr with hr | rfl
      · exact (s.records.used r hr).le
      · exact le_rfl

/-- A record is decided upon; the others, and what all of them are about, stay. -/
theorem Consistent.decided (hs : Consistent s) {f : ConsentRecord → Decision}
    (hr : r ∈ s.records.rows)
    (hrecords : t.records = s.records.rewrite (·.pk = r.pk) (.withDecision f)
      (ConsentRecord.preserves f))
    (huse : ∀ k, s.inUse k = true → t.inUse k = true)
    (hself : (f r).state = .signed → s.inUse r.category = true ∧ ((r.withDecision f).Consents ∨
      ∃ a ∈ s.records.rows, a.pk ≠ r.pk ∧ a.Shares r ∧ a.Consents))
    (hothers : ∀ a ∈ s.records.rows, a.pk ≠ r.pk → a.state = .signed → r.Shares a →
      ¬ r.Consents) : Consistent t := by
  have hmem : ∀ a, a ∈ t.records.rows ↔
      (a ∈ s.records.rows ∧ a.pk ≠ r.pk) ∨ a = r.withDecision f := fun a => by
    rw [hrecords]
    exact Numbered.mem_rewrite_row (ConsentRecord.preserves f) hr
  have horigin : ∀ a ∈ t.records.rows, ∃ b ∈ s.records.rows, b.pk = a.pk ∧ b.Shares a ∧
      b.isCurrent = a.isCurrent := by
    intro a ha
    rcases (hmem a).mp ha with ⟨ha, -⟩ | rfl
    · exact ⟨a, ha, rfl, ⟨rfl, rfl⟩, rfl⟩
    · exact ⟨r, hr, rfl, ⟨rfl, rfl⟩, rfl⟩
  refine ⟨fun x hx hsigned => ?_, fun x hx hsigned => ?_, fun a ha hcurrent x hx hshares => ?_⟩
  · rcases (hmem x).mp hx with ⟨hx, hne⟩ | rfl
    · obtain ⟨a, ha, hshares, hconsents⟩ := hs.consents x hx hsigned
      refine ⟨a, (hmem a).mpr (.inl ⟨ha, fun hpk => ?_⟩), hshares, hconsents⟩
      obtain rfl : a = r := Table.eq_of_pk ha hr hpk
      exact hothers x hx hne hsigned hshares hconsents
    · rcases (hself hsigned).2 with hconsents | ⟨a, ha, hne, hshares, hconsents⟩
      · exact ⟨_, hx, ⟨rfl, rfl⟩, hconsents⟩
      · exact ⟨a, (hmem a).mpr (.inl ⟨ha, hne⟩), hshares, hconsents⟩
  · rcases (hmem x).mp hx with ⟨hx, -⟩ | rfl
    · exact huse _ (hs.inUse x hx hsigned)
    · exact huse _ (hself hsigned).1
  · obtain ⟨b, hb, hbpk, hbshares, hbcurrent⟩ := horigin a ha
    obtain ⟨d, hd, hdpk, hdshares, -⟩ := horigin x hx
    rw [← hbpk, ← hdpk]
    refine hs.latest b hb (hbcurrent.trans hcurrent) d hd ⟨?_, ?_⟩
    · exact hbshares.1.trans (hshares.1.trans hdshares.1.symm)
    · exact hbshares.2.trans (hshares.2.trans hdshares.2.symm)

theorem Consistent.erased (hs : Consistent s) {listed collected : List ℕ}
    (h : Erased listed collected s t) (hclosed : Closed collected s)
    (huse : ∀ k, s.inUse k = true → t.inUse k = true) : Consistent t := by
  have hmem : ∀ a, a ∈ t.records.rows ↔ a ∈ s.records.rows ∧ a.pk ∉ collected := fun a => by
    rw [h.frame]
    exact List.mem_filter.trans (and_congr_right fun _ => by simp)
  refine ⟨fun x hx hsigned => ?_, fun x hx hsigned => ?_, fun a ha hcurrent x hx hshares => ?_⟩
  · obtain ⟨hx, hleft⟩ := (hmem x).mp hx
    obtain ⟨a, ha, hshares, hconsents⟩ := hs.consents x hx hsigned
    refine ⟨a, (hmem a).mpr ⟨ha, fun htaken => hleft ?_⟩, hshares, hconsents⟩
    exact hclosed.closed a ha htaken x hx hshares (hs.latest a ha hconsents.1 x hx hshares)
  · exact huse _ (hs.inUse x ((hmem x).mp hx).1 hsigned)
  · exact hs.latest a ((hmem a).mp ha).1 hcurrent x ((hmem x).mp hx).1 hshares

/-! ## Requests -/

theorem Closed.step {p : Worker} {collected : List ℕ} (hc : Closed collected s)
    (h : RecordStep s t p) : Closed collected t := by
  refine ⟨fun k hk => (hc.lt_next k hk).trans_le h.next_le, fun a ha htaken r hr hshares hle => ?_⟩
  have hlt := hc.lt_next a.pk htaken
  obtain ⟨b, hb, hbpk, hbshares⟩ := h.origin ha hlt
  obtain ⟨d, hd, hdpk, hdshares⟩ := h.origin hr (hle.trans_lt hlt)
  rw [← hdpk]
  refine hc.closed b hb (hbpk ▸ htaken) d hd ⟨?_, ?_⟩ (by omega)
  · exact hbshares.1.trans (hshares.1.trans hdshares.1.symm)
  · exact hbshares.2.trans (hshares.2.trans hdshares.2.symm)

theorem closed_forgettable (citizen : ℕ) :
    Closed ((s.forgettableRecords citizen).map (·.pk)) s := by
  refine ⟨fun k hk => ?_, fun a ha htaken r hr hshares _ => ?_⟩
  · obtain ⟨r, hr, rfl⟩ := List.mem_map.mp hk
    exact s.records.used r (List.mem_filter.mp hr).1
  · obtain ⟨b, hb, hpk⟩ := List.mem_map.mp htaken
    obtain ⟨hb, hforgettable⟩ := List.mem_filter.mp hb
    obtain rfl : b = a := Table.eq_of_pk hb ha hpk
    refine List.mem_map.mpr ⟨r, List.mem_filter.mpr ⟨hr, ?_⟩, rfl⟩
    rw [← hshares.1, ← hshares.2]
    exact hforgettable

namespace Worker

variable {p q w : Worker}

/-- An active agreement stays active. -/
theorem Does.inUse (h : Does s p t q) (hp : Upright s p = true) (k : ℕ)
    (hk : s.inUse k = true) : t.inUse k = true := by
  obtain ⟨c, hc, hpk, hactive⟩ := inUse_iff.mp hk
  have hsame : t.categories = s.categories → t.inUse k = true := fun hcategories =>
    inUse_iff.mpr ⟨c, hcategories ▸ hc, hpk, hactive⟩
  cases h.configStep with
  | kept _ hconfig => exact hsame (congrArg Config.categories hconfig)
  | createdPolicy _ hconfigured | savedPolicy hconfigured =>
    have hcategories := congrArg Config.categories hconfigured.config
    exact hsame hcategories
  | createdAgreement _ hconfigured =>
    exact inUse_iff.mpr ⟨c, hconfigured.rows ▸ List.mem_append_left _ hc, hpk, hactive⟩
  | savedAgreement hconfigured =>
    next loaded edit actor =>
    by_cases hsaved : c.pk = loaded.pk
    · refine inUse_iff.mpr ⟨loaded.assign (edit.named categoryModel), ?_, ?_, ?_⟩
      · exact hconfigured.rows ▸ List.mem_map.mpr ⟨c, hc, if_pos hsaved⟩
      · exact hsaved.symm.trans hpk
      · have hused : s.inUse loaded.pk = true := inUse_iff.mpr ⟨c, hc, hsaved, hactive⟩
        simpa [Upright, hused] using hp
    · refine inUse_iff.mpr ⟨c, ?_, hpk, hactive⟩
      exact hconfigured.rows ▸ List.mem_map.mpr ⟨c, hc, if_neg hsaved⟩

theorem Fits.step (hw : w.Fits s) (h : RecordStep s t p)
    (huse : ∀ k, s.inUse k = true → t.inUse k = true) : w.Fits t := by
  cases w with
  | matching g seen | writing g seen | losing g | winning g seen => exact huse _ hw
  | erasing => exact Closed.step hw h
  | _ => trivial

theorem Does.fits (h : Does s p t q) (hp : p.Fits s) : q.Fits t := by
  cases h with
  | opened hopened =>
    obtain ⟨hc, -, hactive⟩ := activeCategory_eq_some.mp hopened.active
    exact inUse_iff.mpr ⟨_, hc, hopened.found.symm, hactive⟩
  | unmatched g seen | lost g seen | reread g => exact hp
  | collected citizen => exact closed_forgettable citizen
  | _ => trivial

theorem fits_of_entry (h : p.entry = true) : p.Fits s := by
  cases p with
  | matching | writing | losing | winning | erasing => cases h
  | _ => trivial

/-- A block that meets the condition keeps those who have signed among those who consent. -/
theorem Does.consistent (h : Does s p t q) (hp : p.Fits s) (hcondition : Upright s p = true)
    (huse : ∀ k, s.inUse k = true → t.inUse k = true) (hs : Consistent s) : Consistent t := by
  cases h.recordStep with
  | kept _ hrecords =>
    refine ⟨?_, ?_, ?_⟩ <;> rw [hrecords]
    · exact hs.consents
    · exact fun r hr hsigned => huse _ (hs.inUse r hr hsigned)
    · exact hs.latest
  | granted hgranted => exact hs.granted hgranted huse hp
  | created hfree hrows _ => exact hs.created hfree hrows huse
  | revoked hwithdrawn =>
    next call category r =>
    refine hs.decided hwithdrawn.mem (congrArg Store.records hwithdrawn.frame) huse
      (fun hstate => by cases hstate) fun a ha hne hsigned hshares _ => ?_
    have hlocked : locked (some r.pk)
        (fun r => r.currentOf call.citizen category && r.status = .granted) s = some r := by
      refine Option.filter_eq_some_iff.mpr ⟨Numbered.get_eq_some.mpr ⟨hwithdrawn.mem, rfl⟩, ?_⟩
      simp [hwithdrawn.current, hwithdrawn.granted]
    simp only [Upright, hlocked, Option.all_some, List.all_eq_true] at hcondition
    have hother := hcondition a ha
    have hshared : a.Shares r := ⟨hshares.1.symm, hshares.2.symm⟩
    simp [hshared, hne, hsigned] at hother
  | signed hattached hunsigned hrecords =>
    next user q caller r =>
    refine hs.decided hattached.mem hrecords huse (fun _ => ?_) fun _ _ _ _ _ hconsents =>
      hunsigned hconsents.2.2
    have hget : s.records.get r.pk = some r := Numbered.get_eq_some.mpr ⟨hattached.mem, rfl⟩
    simp only [Upright, hattached.given.1, hattached.given.2, hget, Option.filter_some,
      hattached.citizen, hattached.unsigned, hunsigned, decide_false, decide_true, Bool.false_or,
      Option.isNone_none, Bool.true_and, ne_eq, not_false_eq_true, ↓reduceIte, Option.all_some,
      Bool.and_eq_true, Bool.or_eq_true, List.any_eq_true, decide_eq_true_eq] at hcondition
    obtain ⟨hactive, hcurrent | ⟨a, ha, hshares, hconsents⟩⟩ := hcondition
    · exact ⟨hactive, .inl ⟨hcurrent, rfl, rfl⟩⟩
    · refine ⟨hactive, .inr ⟨a, ha, fun hpk => hunsigned ?_, hshares, hconsents⟩⟩
      obtain rfl : a = r := Table.eq_of_pk ha hattached.mem hpk
      exact hconsents.2.2
  | erased herased => exact hs.erased herased hp huse

end Worker

/-! ## Runs -/

/-- The condition on a step. -/
def Calm (s : Pool.State Store Worker) : Label → Bool
  | .act i _ => (s.workers[i]?).all (Upright s.store)
  | _ => true

/-- In every run whose steps meet the condition, the list has a record of a citizen for an agreement
that is not required exactly when the citizen consents. -/
theorem list_agrees {s : Pool.State Store Worker}
    (h : (consent.machine.under fun s l => Calm s l = true).Reachable s) (citizen : ℕ)
    (hc : c ∈ s.store.categories.rows) (hrequired : c.isRequired = false) :
    s.store.ListAgrees citizen c := by
  refine Consistent.listAgrees ?_ hc hrequired citizen
  refine (Program.invariant_under (I := Consistent) (J := fun st p => p.Fits st) ?_ ?_ ?_ ?_ ?_ h).1
  · rintro st ⟨-, hrecords, -⟩
    have hnone : ∀ r, r ∉ st.records.rows := fun r => by
      rw [hrecords]
      exact List.not_mem_nil
    exact ⟨fun r hr => absurd hr (hnone r), fun r hr => absurd hr (hnone r),
      fun a ha => absurd ha (hnone a)⟩
  · exact fun _ _ _ hentry => Worker.fits_of_entry hentry
  · exact fun _ _ => trivial
  · intro s i p e st q hcalm hs hfits hp hact
    have hdoes := act_does hact
    have hcondition : Upright s.store p = true := by
      simpa [Calm, hp] using hcalm
    have huse := hdoes.inUse hcondition
    have hp' := hfits p (List.mem_of_getElem? hp)
    exact ⟨hdoes.consistent hp' hcondition huse hs, hdoes.fits hp', fun j w _ hw =>
      (hfits w (List.mem_of_getElem? hw)).step hdoes.recordStep huse⟩
  · rintro s x st - hs hfits henv
    obtain rfl := Option.some.inj henv
    exact ⟨⟨hs.consents, hs.inUse, hs.latest⟩, fun w hw =>
      (hfits w hw).step (.kept w rfl) fun _ => id⟩

/-! ## A second grant -/

/-- A citizen consents. -/
def consented : List Label :=
  [.spawn (.calling (.createDataAgreement [(.slug, .str "news")] none)), .act 0 (),
    .spawn (.granting { citizen := 5, categorySlug := "news" }), .act 1 (), .act 1 (), .act 1 ()]

/-- The agreement is revised, the citizen grants the new revision, and withdraws. -/
def regranted : List Label :=
  consented ++ [.spawn (.editingCategory 1 (.put [(.version, .str "2")]) none), .act 2 (),
    .act 2 (),
    .spawn (.granting { citizen := 5, categorySlug := "news" }), .act 3 (), .act 3 (), .act 3 (),
    .spawn (.withdrawing { citizen := 5, categorySlug := "news" }), .act 4 (), .act 4 ()]

theorem consented_agrees :
    let s := (consent.machine.under fun s l => Calm s l = true).final start consented
    s.store.ListAgrees 5 (agreement s) ∧ s.store.hasConsent 5 "news" = true := by
  intro s
  have hagreement : s.store.categories.get 1 = some (agreement s) := rfl
  refine ⟨list_agrees (.final (M := consent.machine.under _) start_init consented) 5
    (Numbered.get_eq_some.mp hagreement).1 (by decide +kernel), by decide +kernel⟩

/-- The first record is still on the list. -/
theorem regranted_listed : ∃ s citizen c, consent.machine.Reachable s ∧
    c ∈ s.store.categories.rows ∧ c.isRequired = false ∧ ¬ s.store.ListAgrees citizen c := by
  have hagreement : (consent.machine.final start regranted).store.categories.get 1 =
      some (agreement (consent.machine.final start regranted)) := rfl
  refine ⟨consent.machine.final start regranted, 5, _, .final start_init regranted,
    (Numbered.get_eq_some.mp hagreement).1, by decide +kernel, fun h => ?_⟩
  have hlisted := (h "news" rfl).mp (by decide +kernel)
  revert hlisted
  decide +kernel

end Civicos.Consent
