import Civicos.Volunteers.Photos

/-!
# Photos under standing consent

A photo is kept under standing consent as long as nobody withdraws the consent for a photo, nobody
puts a photo under a record that is not granted, and every file that an erasure has to delete is
the photo of a profile and the storage deletes it. A withdrawal only changes the record, and the
receiver waits for its deletion.
-/
namespace Civicos.Volunteers.Photos

open Library Library.Transaction

variable {s t u : Store} {k n : ℕ} {undeleted records : List ℕ} {p q : VolunteerProfile}

/-! ## What the receiver takes away -/

/-- Photos and files disappear, together; nothing else happens to the profiles. -/
structure Shrinks (s t : Store) : Prop where
  row : ∀ q ∈ t.profiles.rows, ∃ p ∈ s.profiles.rows, p.pk = q.pk ∧
    p.photoConsent = q.photoConsent ∧ ∀ n, q.photo = some n → p.photo = some n
  photo : ∀ f ∈ t.photos, f ∈ s.photos
  gone : ∀ p ∈ s.profiles.rows, ∀ n, p.photo = some n →
    (∃ q ∈ t.profiles.rows, q.photoConsent = p.photoConsent ∧ q.photo = some n ∧ q.pk = p.pk) ∨
      ∀ f ∈ t.photos, f.name ≠ n

theorem Shrinks.refl (s : Store) : Shrinks s s :=
  ⟨fun q hq => ⟨q, hq, rfl, rfl, fun _ => id⟩, fun _ hf => hf,
    fun p hp _ hn => .inl ⟨p, hp, rfl, hn, rfl⟩⟩

theorem Shrinks.trans (h : Shrinks s t) (g : Shrinks t u) : Shrinks s u := by
  refine ⟨fun r hr => ?_, fun f hf => h.photo f (g.photo f hf), fun p hp n hn => ?_⟩
  · obtain ⟨q, hq, hqr, hqconsent, hqphoto⟩ := g.row r hr
    obtain ⟨p, hp, hpq, hpconsent, hpphoto⟩ := h.row q hq
    exact ⟨p, hp, hpq.trans hqr, hpconsent.trans hqconsent, fun n hn => hpphoto n (hqphoto n hn)⟩
  · rcases h.gone p hp n hn with ⟨q, hq, hconsent, hphoto, hpk⟩ | hfile
    · rcases g.gone q hq n hphoto with ⟨r, hr, hrconsent, hrphoto, hrpk⟩ | hfile
      · exact .inl ⟨r, hr, hrconsent.trans hconsent, hrphoto, hrpk.trans hpk⟩
      · exact .inr hfile
    · exact .inr fun f hf => hfile f (g.photo f hf)

/-- What the storage still has of the photos that `P` is about, it has failed to delete. -/
def Cleared (undeleted : List ℕ) (P : VolunteerProfile → Prop) (s : Store) : Prop :=
  ∀ q ∈ s.profiles.rows, P q → ∀ n, q.photo = some n → n ∈ undeleted

theorem Shrinks.cleared {P : VolunteerProfile → Prop} (h : Shrinks s t)
    (hP : ∀ p q, p.pk = q.pk → p.photoConsent = q.photoConsent → P q → P p)
    (hs : Cleared undeleted P s) : Cleared undeleted P t := by
  intro q hq hPq n hn
  obtain ⟨p, hp, hpk, hconsent, hphoto⟩ := h.row q hq
  exact hs p hp (hP p q hpk hconsent hPq) n (hphoto n hn)

/-- A loop that only takes away, and clears what each of its turns is about. -/
theorem foldl_shrinks {turn : Store → ℕ → Store} {P : ℕ → VolunteerProfile → Prop}
    (hP : ∀ k p q, p.pk = q.pk → p.photoConsent = q.photoConsent → P k q → P k p)
    (hturn : ∀ s k, Shrinks s (turn s k) ∧ Cleared undeleted (P k) (turn s k)) (ks : List ℕ)
    (s : Store) : Shrinks s (ks.foldl turn s) ∧
      ∀ k ∈ ks, Cleared undeleted (P k) (ks.foldl turn s) := by
  induction ks generalizing s with
  | nil => exact ⟨.refl s, fun _ hk => by cases hk⟩
  | cons k ks ih =>
    obtain ⟨hshrinks, hcleared⟩ := hturn s k
    obtain ⟨hrest, hclears⟩ := ih (turn s k)
    refine ⟨hshrinks.trans hrest, fun j hj => ?_⟩
    rcases List.mem_cons.mp hj with rfl | hj
    · exact hrest.cleared (hP j) hcleared
    · exact hclears j hj

theorem deletePhoto_shrinks (s : Store) (k : ℕ) : Shrinks s (s.deletePhoto undeleted k) ∧
    Cleared undeleted (·.pk = k) (s.deletePhoto undeleted k) := by
  unfold Store.deletePhoto
  cases hphoto : (s.profiles.get k).bind (·.photo) with
  | none =>
    refine ⟨.refl s, fun q hq hpk n hn => ?_⟩
    rw [Numbered.get_eq_some.mpr ⟨hq, hpk⟩, Option.bind_some, hn] at hphoto
    cases hphoto
  | some name =>
    obtain ⟨p, hget, hname⟩ := Option.bind_eq_some_iff.mp hphoto
    obtain ⟨hp, rfl⟩ := Numbered.get_eq_some.mp hget
    have heq : ∀ q ∈ s.profiles.rows, q.pk = p.pk → q = p :=
      fun q hq hpk => Table.eq_of_pk hq hp hpk
    dsimp only
    by_cases hfails : name ∈ undeleted
    · rw [if_pos hfails]
      refine ⟨.refl s, fun q hq hpk n hn => ?_⟩
      obtain rfl := heq q hq hpk
      obtain rfl := Option.some.inj (hname.symm.trans hn)
      exact hfails
    rw [if_neg hfails]
    refine ⟨⟨fun q hq => ?_, fun f hf => (List.mem_filter.mp hf).1, fun q hq n hn => ?_⟩,
      fun q hq hpk n hn => ?_⟩
    · obtain ⟨a, ha, rfl⟩ := List.mem_map.mp hq
      split
      · exact ⟨a, ha, rfl, rfl, fun _ hn => by cases hn⟩
      · exact ⟨a, ha, rfl, rfl, fun _ => id⟩
    · by_cases hpk : q.pk = p.pk
      · obtain rfl := heq q hq hpk
        obtain rfl := Option.some.inj (hname.symm.trans hn)
        exact .inr fun f hf => of_decide_eq_true (List.mem_filter.mp hf).2
      · refine .inl ⟨q, ?_, rfl, hn, rfl⟩
        exact List.mem_map.mpr ⟨q, hq, if_neg fun h => hpk (of_decide_eq_true h)⟩
    · obtain ⟨a, ha, rfl⟩ := List.mem_map.mp hq
      split at hn
      · cases hn
      · next hother =>
        rw [if_neg hother] at hpk
        exact absurd (decide_eq_true hpk) hother

theorem deleteVolunteerPhoto_shrinks (undeleted : List ℕ) (s : Store) (record : ℕ) :
    Shrinks s (s.deleteVolunteerPhoto undeleted record) ∧
      Cleared undeleted (·.photoConsent = some record)
        (s.deleteVolunteerPhoto undeleted record) := by
  obtain ⟨hshrinks, hcleared⟩ := foldl_shrinks (P := fun k p => p.pk = k)
    (fun _ _ _ hpk _ hk => hpk.trans hk) deletePhoto_shrinks
    ((s.profiles.rows.filter fun p => p.photoConsent = some record).map (·.pk)) s
  refine ⟨hshrinks, fun q hq hconsent n hn => ?_⟩
  obtain ⟨p, hp, hpk, hpconsent, -⟩ := hshrinks.row q hq
  refine hcleared q.pk (List.mem_map.mpr ⟨p, List.mem_filter.mpr ⟨hp, ?_⟩, hpk⟩) q hq rfl n hn
  exact decide_eq_true (hpconsent.trans hconsent)

/-! ## Standing records -/

section Standing

open Consent (Worker ConsentRecord)

variable {c d : Consent.Store} {w v : Worker}

def Standing (c : Consent.Store) (k : ℕ) : Prop :=
  ∃ r ∈ c.records.rows, r.pk = k ∧ r.status = .granted

theorem Standing.rewritten {a : ConsentRecord} {f : ConsentRecord → Consent.Decision}
    (h : Standing c k) (hd : d.records = c.records.rewrite (·.pk = a.pk) (.withDecision f)
      (ConsentRecord.preserves f)) (hkept : a.pk ≠ k ∨ ∀ r, (f r).status = .granted) :
    Standing d k := by
  obtain ⟨r, hr, rfl, hgranted⟩ := h
  rw [Standing, hd]
  by_cases hpk : r.pk = a.pk
  · refine ⟨_, Numbered.mem_rewrite.mpr ⟨r, hr, if_pos (decide_eq_true hpk)⟩, rfl, ?_⟩
    exact hkept.resolve_left (not_not_intro hpk.symm) r
  · exact ⟨r, Numbered.mem_rewrite.mpr ⟨r, hr, if_neg fun h => hpk (of_decide_eq_true h)⟩, rfl,
      hgranted⟩

theorem Standing.same (h : Standing c k) (hd : d.records = c.records) : Standing d k := by
  rw [Standing, hd]
  exact h

/-- A record stands until it is withdrawn or erased. -/
theorem Standing.does (h : Standing c k) (hdoes : Worker.Does c w d v) :
    Standing d k ∨
    (∃ call category r, w = .revoking call category (some k) ∧ r ∈ c.records.rows ∧ r.pk = k ∧
      r.currentOf call.citizen category = true ∧ r.status = .granted) ∨
    ∃ citizen caller slugs listed collected, w = .erasing citizen caller slugs listed collected ∧
      k ∈ collected := by
  cases hdoes with
  | granted hgranted =>
    next g seen =>
    obtain ⟨r, hr, rfl, hstatus⟩ := h
    refine .inl ⟨g.archive seen r, ?_, Consent.pk_archive, ?_⟩
    · rw [hgranted.records]
      exact List.mem_append_left _ (List.mem_map_of_mem hr)
    · rw [Consent.toDecision_archive]
      exact hstatus
  | revoked record hwithdrawn =>
    next call category r =>
    by_cases hpk : r.pk = k
    · subst hpk
      exact .inr (.inl ⟨call, category, r, rfl, hwithdrawn.mem, rfl, hwithdrawn.current,
        hwithdrawn.granted⟩)
    · exact .inl (h.rewritten (congrArg Consent.Store.records hwithdrawn.frame) (.inl hpk))
  | created hfree hrows hnext =>
    obtain ⟨r, hr, rfl, hstatus⟩ := h
    refine .inl ⟨r, ?_, rfl, hstatus⟩
    rw [hrows]
    exact List.mem_append_left _ hr
  | attached hattached =>
    rcases hattached.rest with ⟨-, hframe⟩ | ⟨-, hframe, -⟩
    · have hrecords := congrArg Consent.Store.records hframe
      exact .inl (h.same hrecords)
    · exact .inl (h.rewritten (congrArg Consent.Store.records hframe) (.inr fun _ => rfl))
  | updated hupdated =>
    have hrecords := congrArg Consent.Store.records hupdated.frame
    exact .inl (h.same hrecords)
  | createdPolicy _ _ hconfigured | createdAgreement _ _ hconfigured | savedPolicy _ hconfigured
    | savedAgreement _ hconfigured =>
    have hrecords := congrArg Consent.Store.records hconfigured.frame
    exact .inl (h.same hrecords)
  | erased herased =>
    next citizen caller slugs listed collected =>
    by_cases hcollected : k ∈ collected
    · exact .inr (.inr ⟨citizen, caller, slugs, listed, collected, rfl, hcollected⟩)
    obtain ⟨r, hr, rfl, hstatus⟩ := h
    refine .inl ⟨r, ?_, rfl, hstatus⟩
    rw [herased.frame]
    exact List.mem_filter.mpr ⟨hr, by simp [hcollected]⟩
  | _ => exact .inl h

end Standing

/-! ## Photos under standing consent -/

namespace Store

/-- The records that a profile with a photo refers to, and those under which a file is kept, are
granted. -/
def PhotosStand (s : Store) : Prop :=
  (∀ p ∈ s.profiles.rows, p.photo ≠ none → p.photoConsent.bind s.statusOf = some .granted) ∧
    ∀ f ∈ s.photos, s.statusOf f.consent = some .granted

instance (s : Store) : Decidable s.PhotosStand :=
  inferInstanceAs (Decidable ((∀ p ∈ s.profiles.rows, _ → _) ∧ ∀ f ∈ s.photos, _))

/-- A photo, or a file, is there under this record. -/
def keptUnder (record : ℕ) (s : Store) : Bool :=
  (s.profiles.rows.any fun p => p.photo.isSome && p.photoConsent = some record) ||
    s.photos.any (·.consent = record)

/-- The files of the profiles that refer to these records are the ones that are kept under them,
and the storage deletes them. -/
def deletable (undeleted records : List ℕ) (s : Store) : Bool :=
  (s.profiles.rows.all fun p => !p.refersTo records || p.photo.all (· ∉ undeleted)) &&
    s.photos.all fun f => decide (f.consent ∉ records) ||
      s.profiles.rows.any fun p => p.refersTo records && p.photo = some f.name

end Store

/-- The condition on a step: no consent for a photo is withdrawn, an erasure deletes all files that
are kept under its records, and an edit puts no photo under a record that is not granted. -/
def Condition (s : Pool.State Store Consent.Worker) :
    Pool.Label Consent.Worker (List ℕ) Event → Bool
  | .act i undeleted =>
    match s.workers[i]? with
    | some (.revoking call category seen) =>
      (Consent.Worker.locked seen
        (fun r => r.currentOf call.citizen category && r.status = .granted) s.store.consents).all
        fun r => !s.store.keptUnder r.pk
    | some (.erasing _ _ _ _ collected) => s.store.deletable undeleted collected
    | _ => true
  | .env (.edit profile e) =>
    (s.store.profiles.get profile).all fun p =>
      let row := e.apply s.store.uploads p
      row.photo.isNone || (row.photoConsent.bind s.store.statusOf).all (· = .granted)
  | _ => true

theorem statusOf_iff : s.statusOf k = some .granted ↔ Standing s.consents k := by
  simp only [Store.statusOf, Option.map_eq_some_iff, Numbered.get_eq_some, Standing]
  exact ⟨fun ⟨r, ⟨hr, hpk⟩, hstatus⟩ => ⟨r, hr, hpk, hstatus⟩,
    fun ⟨r, hr, hpk, hstatus⟩ => ⟨r, ⟨hr, hpk⟩, hstatus⟩⟩

theorem photosStand_iff : s.PhotosStand ↔
    (∀ p ∈ s.profiles.rows, ∀ n, p.photo = some n →
      ∃ k, p.photoConsent = some k ∧ Standing s.consents k) ∧
    ∀ f ∈ s.photos, Standing s.consents f.consent := by
  simp only [Store.PhotosStand, Option.bind_eq_some_iff, statusOf_iff, Option.ne_none_iff_exists',
    forall_exists_index]

/-- What a block leaves alone stands as before. -/
theorem Store.PhotosStand.consents {c : Consent.Store} (h : s.PhotosStand)
    (hstands : ∀ k, Standing s.consents k → s.keptUnder k = true → Standing c k) :
    Store.PhotosStand { s with consents := c } := by
  obtain ⟨hprofiles, hphotos⟩ := photosStand_iff.mp h
  refine photosStand_iff.mpr ⟨fun p hp n hn => ?_, fun f hf => ?_⟩
  · obtain ⟨k, hk, hstanding⟩ := hprofiles p hp n hn
    refine ⟨k, hk, hstands k hstanding ?_⟩
    exact Bool.or_eq_true_iff.mpr (.inl (List.any_eq_true.mpr ⟨p, hp, by simp [hn, hk]⟩))
  · refine hstands f.consent (hphotos f hf) ?_
    exact Bool.or_eq_true_iff.mpr (.inr (List.any_eq_true.mpr ⟨f, hf, by simp⟩))

theorem deleteRecords_stand {c : Consent.Store} (h : s.PhotosStand)
    (hdeletable : s.deletable undeleted records = true)
    (hstands : ∀ k, Standing s.consents k → k ∉ records → Standing c k) :
    Store.PhotosStand { s.deleteRecords undeleted records with consents := c } := by
  obtain ⟨hprofiles, hphotos⟩ := photosStand_iff.mp h
  obtain ⟨hdeleted, hkept⟩ := Bool.and_eq_true_iff.mp hdeletable
  obtain ⟨hshrinks, hcleared⟩ := foldl_shrinks (P := fun k p => p.photoConsent = some k)
    (fun _ _ _ _ hconsent hk => hconsent.trans hk) (deleteVolunteerPhoto_shrinks undeleted)
    records s
  -- No profile that refers to an erased record has a photo left.
  have hnone : ∀ q ∈ (records.foldl (Store.deleteVolunteerPhoto undeleted) s).profiles.rows,
      ∀ k ∈ records, q.photoConsent = some k → ∀ n, q.photo ≠ some n := by
    intro q hq k hk hconsent n hn
    have hundeleted := hcleared k hk q hq hconsent n hn
    obtain ⟨p, hp, -, hpconsent, hpphoto⟩ := hshrinks.row q hq
    have hdel := List.all_eq_true.mp hdeleted p hp
    rw [VolunteerProfile.refersTo, hpconsent, hconsent, hpphoto n hn] at hdel
    simp [hk, hundeleted] at hdel
  refine photosStand_iff.mpr ⟨fun q hq n hn => ?_, fun f hf => ?_⟩
  · obtain ⟨a, ha, rfl⟩ := List.mem_map.mp hq
    by_cases hrefers : a.refersTo records = true
    · rw [if_pos hrefers] at hn
      obtain ⟨k, hconsent, hk⟩ := (Option.any_eq_true _ _).mp hrefers
      exact absurd hn (hnone a ha k (of_decide_eq_true hk) hconsent n)
    · rw [if_neg hrefers] at hn ⊢
      obtain ⟨p, hp, -, hpconsent, hpphoto⟩ := hshrinks.row a ha
      obtain ⟨k, hk, hstanding⟩ := hprofiles p hp n (hpphoto n hn)
      refine ⟨k, hpconsent.symm.trans hk, hstands k hstanding fun hmem => hrefers ?_⟩
      rw [VolunteerProfile.refersTo, ← hpconsent, hk]
      exact decide_eq_true hmem
  · have hold := hshrinks.photo f hf
    refine hstands f.consent (hphotos f hold) fun hmem => ?_
    have hfile := List.all_eq_true.mp hkept f hold
    simp only [hmem, not_true_eq_false, decide_false, Bool.false_or, List.any_eq_true,
      Bool.and_eq_true, decide_eq_true_eq] at hfile
    obtain ⟨p, hp, hrefers, hphoto⟩ := hfile
    obtain ⟨k, hconsent, hk⟩ := (Option.any_eq_true _ _).mp hrefers
    rcases hshrinks.gone p hp f.name hphoto with ⟨q, hq, hqconsent, hqphoto, -⟩ | hgone
    · exact hnone q hq k (of_decide_eq_true hk) (hqconsent.trans hconsent) _ hqphoto
    · exact hgone f hf rfl

/-! ## Blocks and events -/

theorem act_stand {w v : Consent.Worker} (h : s.PhotosStand)
    (hact : act s w undeleted = some (t, v))
    (hrevoking : ∀ call category r, w = .revoking call category (some r.pk) →
      r ∈ s.consents.records.rows → r.currentOf call.citizen category = true →
      r.status = .granted → s.keptUnder r.pk = false)
    (herasing : ∀ citizen caller slugs listed collected,
      w = .erasing citizen caller slugs listed collected →
      s.deletable undeleted collected = true) : t.PhotosStand := by
  obtain ⟨⟨c, v'⟩, hblock, hresult⟩ := Option.map_eq_some_iff.mp hact
  have hdoes := Consent.act_does hblock
  -- A block that deletes nothing keeps what stands, unless it withdraws it.
  have hothers : (∀ k, Standing s.consents k → s.keptUnder k = true → Standing c k) →
      ({ s with consents := c } : Store).PhotosStand := h.consents
  split at hresult
  next citizen caller slugs listed collected record _ =>
    obtain ⟨rfl, rfl⟩ := Prod.mk.inj hresult
    refine deleteRecords_stand h (herasing _ _ _ _ _ rfl) fun k hk hnot => ?_
    rcases hk.does hdoes with hstands | ⟨_, _, _, hw, -⟩ | ⟨_, _, _, _, _, hw, hmem⟩
    · exact hstands
    · cases hw
    · cases hw
      exact absurd hmem hnot
  next hneither =>
    obtain ⟨rfl, rfl⟩ := Prod.mk.inj hresult
    refine hothers fun k hk hkept => ?_
    rcases hk.does hdoes with hstands | ⟨call, category, r, rfl, hr, rfl, hcurrent, hgranted⟩ |
      ⟨citizen, caller, slugs, listed, collected, rfl, -⟩
    · exact hstands
    · rw [hrevoking call category r rfl hr hcurrent hgranted] at hkept
      cases hkept
    · cases hdoes with
      | refused => exact hk
      | erased => exact absurd rfl (hneither _ _ _ _ _ _ rfl)

theorem row_stands {row : VolunteerProfile} {x : Unit} (hclean : row.fullClean s = .ok x)
    (hgranted : ∀ k, row.photoConsent = some k → (s.statusOf k).all (· = .granted) = true)
    (hphoto : row.photo = some n) : ∃ k, row.photoConsent = some k ∧ Standing s.consents k := by
  unfold VolunteerProfile.fullClean VolunteerProfile.clean at hclean
  cases hconsent : row.photoConsent with
  | none => simp [hconsent, hphoto] at hclean
  | some k =>
    refine ⟨k, rfl, statusOf_iff.mp ?_⟩
    have hgranted := hgranted k hconsent
    cases hstatus : s.statusOf k with
    | none => simp [hconsent, hstatus] at hclean
    | some status =>
      rw [hstatus] at hgranted
      exact congrArg some (of_decide_eq_true hgranted)

theorem edit_stand {profile : ℕ} {e : ProfileEdit} {x : Unit} (h : s.PhotosStand)
    (hedit : editProfile profile e s = .ok (x, t))
    (hgranted : ∀ p ∈ s.profiles.rows, p.pk = profile → (e.apply s.uploads p).photo ≠ none →
      ∀ k, e.photoConsent = some k → (s.statusOf k).all (· = .granted) = true) :
    t.PhotosStand := by
  obtain ⟨p, hget, hrest⟩ := fetch_bind.mp hedit
  obtain ⟨hp, hpk⟩ := Numbered.get_eq_some.mp hget
  obtain ⟨_, _, ⟨⟩, hrest⟩ := bind_ok.mp hrest
  obtain ⟨_, hclean, hrest⟩ := lift_bind.mp hrest
  have hrest := rewriteRows_bind.mp hrest
  obtain ⟨-, rfl⟩ := hrest
  obtain ⟨hprofiles, hphotos⟩ := photosStand_iff.mp h
  have hrow : ∀ n, (e.apply s.uploads p).photo = some n →
      ∃ k, e.photoConsent = some k ∧ Standing s.consents k := fun n hn =>
    row_stands hclean (hgranted p hp hpk (by simp [hn])) hn
  refine photosStand_iff.mpr ⟨fun q hq n hn => ?_, fun f hf => ?_⟩
  · obtain ⟨a, ha, rfl⟩ := List.mem_map.mp hq
    by_cases hsame : decide (a.pk = profile) = true
    · rw [if_pos hsame] at hn ⊢
      exact hrow n hn
    · rw [if_neg hsame] at hn ⊢
      exact hprofiles a ha n hn
  · change f ∈ (e.apply s.uploads p).store e s.photos at hf
    unfold VolunteerProfile.store at hf
    split at hf
    next name consent hname hconsent =>
      obtain ⟨k, hk, hstanding⟩ := hrow name hname
      obtain rfl : k = consent := Option.some.inj (hk.symm.trans hconsent)
      split at hf
      · rcases List.mem_append.mp hf with hf | hf
        · exact hphotos f hf
        · obtain rfl := List.mem_singleton.mp hf
          exact hstanding
      · obtain ⟨a, ha, rfl⟩ := List.mem_map.mp hf
        by_cases hfile : a.name = name
        · rw [if_pos hfile]
          exact hstanding
        · rw [if_neg hfile]
          exact hphotos a ha
    next => exact hphotos f hf

theorem env_stand {x : Event} (h : s.PhotosStand) (henv : env s x = some t)
    (hedit : ∀ profile e, x = .edit profile e → ∀ p ∈ s.profiles.rows, p.pk = profile →
      (e.apply s.uploads p).photo ≠ none →
      ∀ k, e.photoConsent = some k → (s.statusOf k).all (· = .granted) = true) :
    t.PhotosStand := by
  cases x with
  | wait time =>
    have hwait : (Consent.consent.env s.consents time).map
        (fun c => { s with consents := c }) = some t := henv
    obtain ⟨c, hc, rfl⟩ := Option.map_eq_some_iff.mp hwait
    obtain rfl := Option.some.inj hc
    exact h.consents fun _ hk _ => hk
  | register user =>
    obtain rfl := Option.some.inj henv
    cases hrun : register user s with
    | error e =>
      rw [commit_of_error hrun]
      exact h
    | ok r =>
      rw [commit_of_ok (a := r.1) (t := r.2) hrun]
      obtain ⟨p, _, happend, hrest⟩ := bind_ok.mp hrun
      obtain ⟨rfl, T, hT, rfl⟩ := append_ok.mp happend
      obtain ⟨-, hr⟩ := pure_ok.mp hrest
      obtain ⟨hrows, -, -⟩ := Numbered.insert_ok hT rfl
      rw [hr]
      refine ⟨fun q hq hphoto => ?_, h.2⟩
      change q ∈ T.rows at hq
      rw [hrows] at hq
      rcases List.mem_append.mp hq with hq | hq
      · exact h.1 q hq hphoto
      · obtain rfl := List.mem_singleton.mp hq
        exact absurd rfl hphoto
  | edit profile e =>
    obtain rfl := Option.some.inj henv
    cases hrun : editProfile profile e s with
    | error e =>
      rw [commit_of_error hrun]
      exact h
    | ok r =>
      rw [commit_of_ok (a := r.1) (t := r.2) hrun]
      exact edit_stand h hrun (hedit profile e rfl)

/-- In every run whose steps meet the condition, a profile with a photo always refers to a granted
record, and no file is left of what has been kept under any other. -/
theorem photos_stand {s : Pool.State Store Consent.Worker}
    (h : (office.machine.under fun s l => Condition s l = true).Reachable s) :
    s.store.PhotosStand := by
  refine h.invariant (I := fun s => s.store.PhotosStand) ?_ ?_
  · rintro s₀ ⟨⟨-, hphotos, hprofiles⟩, -⟩
    exact ⟨fun p hp hphoto => absurd (hprofiles p hp) hphoto, fun f hf => by
      rw [hphotos] at hf
      cases hf⟩
  · intro u l v _ hstand hstep
    obtain ⟨hcondition, hstep⟩ := Machine.under_step.mp hstep
    obtain ⟨_, -, -, rfl⟩ | ⟨i, undeleted, w, st, q, rfl, hw, hact, rfl⟩ | ⟨_, -, rfl⟩ |
      ⟨x, st, rfl, henv, rfl⟩ := Program.step_cases hstep
    · exact hstand
    · refine act_stand hstand hact (fun call category r hworker hr hcurrent hgranted => ?_)
        fun citizen caller slugs listed collected hworker => ?_
      · subst hworker
        simp only [Condition, hw] at hcondition
        have hlocked : Consent.Worker.locked (some r.pk)
            (fun r => r.currentOf call.citizen category && r.status = .granted)
            u.store.consents = some r := by
          refine Option.filter_eq_some_iff.mpr ⟨Numbered.get_eq_some.mpr ⟨hr, rfl⟩, ?_⟩
          simp [hcurrent, hgranted]
        rw [hlocked] at hcondition
        simpa using hcondition
      · subst hworker
        simpa only [Condition, hw] using hcondition
    · exact hstand
    · refine env_stand hstand henv fun profile e hx p hp hpk hphoto k hk => ?_
      subst hx
      simp only [Condition, Numbered.get_eq_some.mpr ⟨hp, hpk⟩, Option.all_some] at hcondition
      rcases Bool.or_eq_true_iff.mp hcondition with hnone | hgranted
      · exact absurd (Option.isNone_iff_eq_none.mp hnone) hphoto
      · change (e.photoConsent.bind u.store.statusOf).all _ = true at hgranted
        rw [hk] at hgranted
        exact hgranted

/-! ## A photo -/

def nothing : Store := ⟨{}, .empty, [], 0⟩

def start : Pool.State Store Consent.Worker := ⟨nothing, []⟩

theorem start_init : office.machine.Init start :=
  ⟨⟨⟨rfl, rfl, rfl, rfl, rfl, rfl⟩, rfl, fun _ hp => by cases hp⟩, rfl⟩

/-- A volunteer consents, and has a photo. -/
def photographed : List (Pool.Label Consent.Worker (List ℕ) Event) :=
  [.spawn (.calling (.createDataAgreement
      [(.slug, .str "photos"), (.forgettable, .bool true)] none)),
    .act 0 [], .spawn (.granting { citizen := 5, categorySlug := "photos" }), .act 1 [], .act 1 [],
    .act 1 [], .env (.register 5), .env (.edit 1 ⟨.uploaded, some 1⟩)]

def withdrawal : List (Pool.Label Consent.Worker (List ℕ) Event) :=
  [.spawn (.withdrawing { citizen := 5, categorySlug := "photos" }), .act 2 [], .act 2 []]

theorem photographed_stands :
    let s := (office.machine.under fun s l => Condition s l = true).final start photographed
    s.store.profiles.rows = [⟨1, 5, some 0, some 1⟩] ∧ s.store.PhotosStand :=
  ⟨by decide +kernel, photos_stand
    (Machine.Reachable.final (M := office.machine.under _) start_init photographed)⟩

/-- The consent is withdrawn and the photo is still there. -/
theorem withdrawn_photo_kept : ∃ s, office.machine.Reachable s ∧ ¬ s.store.PhotosStand :=
  ⟨office.machine.final start (photographed ++ withdrawal), .final start_init _, by decide +kernel⟩

end Civicos.Volunteers.Photos
