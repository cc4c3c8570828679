import Civicos.Consent.Steps

/-!
# Photos

A volunteer's profile may have a photo, and refers to the consent record that allows it. The photo
is taken away when that record is deleted.
-/
namespace Civicos.Volunteers.Photos

open Library Library.Transaction

/-! ## Rows and files -/

/-- A file has its name from the storage, which gives no name twice. -/
structure VolunteerProfile where
  pk : ℕ
  user : ℕ
  photo : Option ℕ := none
  photoConsent : Option ℕ := none
deriving DecidableEq, Repr

namespace VolunteerProfile

def userUnique : Index VolunteerProfile where
  name := "volunteers_volunteerprofile_user_id_key"
  Key := ℕ
  key p := some p.user

def schema : Schema VolunteerProfile where
  pk := pk
  indexes := [userUnique]

def withoutPhoto (p : VolunteerProfile) : VolunteerProfile := { p with photo := none }

def withoutConsent (p : VolunteerProfile) : VolunteerProfile := { p with photoConsent := none }

/-- The columns of an instance, for its row. -/
def withPhoto (photo photoConsent : Option ℕ) (p : VolunteerProfile) : VolunteerProfile :=
  { p with
    photo
    photoConsent }

theorem preserves_withPhoto (photo photoConsent : Option ℕ) :
    schema.Preserves (withPhoto photo photoConsent) where
  pk _ := rfl
  key i hi p := by
    obtain rfl := List.mem_singleton.mp hi
    rfl
  valid _ _ c hc := by cases hc

theorem preserves_withoutPhoto : schema.Preserves withoutPhoto where
  pk _ := rfl
  key i hi p := by
    obtain rfl := List.mem_singleton.mp hi
    rfl
  valid _ _ c hc := by cases hc

theorem preserves_withoutConsent : schema.Preserves withoutConsent where
  pk _ := rfl
  key i hi p := by
    obtain rfl := List.mem_singleton.mp hi
    rfl
  valid _ _ c hc := by cases hc

def refersTo (records : List ℕ) (p : VolunteerProfile) : Bool := p.photoConsent.any (· ∈ records)

end VolunteerProfile

/-- A file below `volunteers/photos/`. The record is not stored with it: it is the one that a
profile with this photo referred to when it was last saved. -/
structure Photo where
  name : ℕ
  consent : ℕ
deriving DecidableEq, Repr

structure Store where
  consents : Consent.Store
  profiles : Numbered VolunteerProfile.schema
  photos : List Photo
  uploads : ℕ

inductive ProfileError where
  | doesNotExist (model : String)
  | invalidReference (field : String)
  | validationError (field message : String)
  | integrityError (name : String)
deriving DecidableEq, Repr

abbrev Tx := Transaction ProfileError Store

namespace Store

def profileTable : Lens Store (Numbered VolunteerProfile.schema) where
  get s := s.profiles
  set t s := { s with profiles := t }
  get_set _ _ := rfl
  set_get _ := rfl
  set_set _ _ _ := rfl

def statusOf (record : ℕ) (s : Store) : Option Consent.Status :=
  (s.consents.records.get record).map (·.status)

end Store

/-! ## Profile edits -/

/-- What a form says of the photo. -/
inductive PhotoInput where
  | kept
  | cleared
  | uploaded
deriving DecidableEq, Repr

structure ProfileEdit where
  photo : PhotoInput
  photoConsent : Option ℕ
deriving DecidableEq, Repr

/-- The instance with the values of the form; `upload` is the name of a new file. -/
def ProfileEdit.apply (e : ProfileEdit) (upload : ℕ) (p : VolunteerProfile) : VolunteerProfile :=
  p.withPhoto (match e.photo with
    | .kept => p.photo
    | .cleared => none
    | .uploaded => some upload) e.photoConsent

/-- `VolunteerProfile.clean` -/
def VolunteerProfile.clean (p : VolunteerProfile) : Except ProfileError Unit :=
  if p.photo.isSome ∧ p.photoConsent = none then
    .error (.validationError "photo"
      "A photo consent record is required before uploading a photo (PIPEDA).")
  else .ok ()

/-- `full_clean`: the field of the reference looks for the record, whatever its status. -/
def VolunteerProfile.fullClean (p : VolunteerProfile) (s : Store) : Except ProfileError Unit :=
  match p.photoConsent with
  | none => p.clean
  | some k =>
    if s.statusOf k = none then .error (.invalidReference "photo_consent") else p.clean

/-- The files once an instance is saved: a new one is stored, and each is kept under the record
that the instance refers to. -/
def VolunteerProfile.store (p : VolunteerProfile) (e : ProfileEdit) (photos : List Photo) :
    List Photo :=
  match p.photo, p.photoConsent with
  | some name, some consent =>
    if e.photo = .uploaded then photos ++ [⟨name, consent⟩]
    else photos.map fun f => if f.name = name then { f with consent } else f
  | _, _ => photos

def editProfile (profile : ℕ) (e : ProfileEdit) : Tx Unit := do
  let p ← fetch Store.profileTable (.doesNotExist "VolunteerProfile") profile
  let s ← get
  let row := e.apply s.uploads p
  liftM (row.fullClean s)
  rewriteRows Store.profileTable (·.pk = profile) (.withPhoto row.photo row.photoConsent)
    (VolunteerProfile.preserves_withPhoto row.photo row.photoConsent)
  modify fun s =>
    { s with
      photos := row.store e s.photos
      uploads := if e.photo = .uploaded then s.uploads + 1 else s.uploads }

/-! ## The end of a record -/

namespace Store

/-- One turn of the loop in `delete_volunteer_photo_on_consent_withdrawal`; `undeleted` are the
files that the storage fails to delete, whose profiles stay as they are. -/
def deletePhoto (undeleted : List ℕ) (s : Store) (profile : ℕ) : Store :=
  match (s.profiles.get profile).bind (·.photo) with
  | none => s
  | some name =>
    if name ∈ undeleted then s
    else
      { s with
        photos := s.photos.filter (·.name ≠ name)
        profiles := s.profiles.rewrite (·.pk = profile) .withoutPhoto
          VolunteerProfile.preserves_withoutPhoto }

/-- `delete_volunteer_photo_on_consent_withdrawal` -/
def deleteVolunteerPhoto (undeleted : List ℕ) (s : Store) (record : ℕ) : Store :=
  ((s.profiles.rows.filter fun p => p.photoConsent = some record).map (·.pk)).foldl
    (deletePhoto undeleted) s

/-- The profiles when these records are deleted: the receiver runs before each, and what still
refers to them is set to null. -/
def deleteRecords (undeleted records : List ℕ) (s : Store) : Store :=
  let t := records.foldl (deleteVolunteerPhoto undeleted) s
  { t with
    profiles := t.profiles.rewrite (·.refersTo records) .withoutConsent
      VolunteerProfile.preserves_withoutConsent }

end Store

/-! ## The office -/

/-- A block of a consent request. The deletion of records is in the block that erases. -/
def act (s : Store) (p : Consent.Worker) (undeleted : List ℕ) : Option (Store × Consent.Worker) :=
  (p.act s.consents).map fun r =>
    match p, r.2 with
    | .erasing _ _ _ _ collected, .returned _ =>
      ({ s.deleteRecords undeleted collected with consents := r.1 }, r.2)
    | _, _ => ({ s with consents := r.1 }, r.2)

inductive Event where
  | wait (time : ℕ)
  | register (user : ℕ)
  | edit (profile : ℕ) (e : ProfileEdit)
deriving DecidableEq, Repr

/-- A new profile has no photo. -/
def register (user : ℕ) : Tx Unit := do
  let _ ← append Store.profileTable
    (fun
      | .unique index => ProfileError.integrityError index
      | .check name => .integrityError name
      | .width column => .integrityError column)
    fun pk => { pk, user }

def env (s : Store) : Event → Option Store
  | .wait time => (Consent.consent.env s.consents time).map fun t => { s with consents := t }
  | .register user => some (commit (register user) s).2
  | .edit profile e => some (commit (editProfile profile e) s).2

/-- Consent requests and profile edits. At first no profile has a photo. -/
def office : Program Store Consent.Worker (List ℕ) Event where
  Init s := Consent.consent.Init s.consents ∧ s.photos = [] ∧
    ∀ p ∈ s.profiles.rows, p.photo = none
  entry := Consent.Worker.entry
  halted := .dead
  act
  env

end Civicos.Volunteers.Photos
