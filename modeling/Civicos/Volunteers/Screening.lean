import Civicos.Library.Pool
import Civicos.Volunteers.Store
import Mathlib.Data.List.Infix

/-!
# Screening

A coordinator records a background check of a volunteer, and later whether it was clear. There is
one record for each volunteer, type and scope.
-/
namespace Civicos.Volunteers.Screening

open Library Library.Transaction

/-! ## Rows -/

inductive CheckType where
  | vulnerableSectorCheck
  | policeRecordCheck
  | referenceCheck
  | driversAbstract
deriving DecidableEq, Repr

namespace CheckType

def value : CheckType → String
  | vulnerableSectorCheck => "vulnerable_sector_check"
  | policeRecordCheck => "police_record_check"
  | referenceCheck => "reference_check"
  | driversAbstract => "drivers_abstract"

def display : CheckType → String
  | vulnerableSectorCheck => "Vulnerable Sector Check (VSC)"
  | policeRecordCheck => "Police Record Check"
  | referenceCheck => "Reference Check"
  | driversAbstract => "Driver's Abstract"

/-- In the order of their values -/
def all : List CheckType :=
  [driversAbstract, policeRecordCheck, referenceCheck, vulnerableSectorCheck]

def ofText (text : String) : Option CheckType := all.find? (·.value = text)

end CheckType

/-- The columns that `complete_check` saves -/
structure Verdict where
  verifiedClear : Option Bool := none
  verifiedAt : Option Instant := none
  verifiedBy : Option ℕ := none
  notes : String := ""
deriving DecidableEq, Repr

/-- A record without its number. Dates count days. -/
structure ScreeningColumns extends Verdict where
  volunteer : ℕ
  checkType : CheckType
  opportunity : Option ℕ
  completedDate : ℕ
  expiresDate : Option ℕ
deriving DecidableEq, Repr

structure ScreeningRecord extends ScreeningColumns where
  pk : ℕ
deriving DecidableEq, Repr

namespace ScreeningColumns

/-- The columns of a record for the whole organisation -/
def generalKey (x : ScreeningColumns) : Option (ℕ × CheckType) :=
  if x.opportunity = none then some (x.volunteer, x.checkType) else none

def scopedKey (x : ScreeningColumns) : Option (ℕ × CheckType × ℕ) :=
  x.opportunity.map fun opportunity => (x.volunteer, x.checkType, opportunity)

end ScreeningColumns

namespace ScreeningRecord

def withoutOpportunity : Index ScreeningRecord where
  name := "vol_screen_unique_vol_type_no_opp"
  Key := ℕ × CheckType
  key r := r.generalKey

def withOpportunity : Index ScreeningRecord where
  name := "vol_screen_unique_vol_type_with_opp"
  Key := ℕ × CheckType × ℕ
  key r := r.scopedKey

def schema : Schema ScreeningRecord where
  pk := pk
  indexes := [withoutOpportunity, withOpportunity]

def withVerdict (v : Verdict) (r : ScreeningRecord) : ScreeningRecord := { r with toVerdict := v }

theorem preserves (v : Verdict) : schema.Preserves (withVerdict v) where
  pk _ := rfl
  key i hi r := by
    rcases List.mem_cons.mp hi with rfl | hi
    · rfl
    · obtain rfl := List.mem_singleton.mp hi
      rfl
  valid _ _ c hc := by cases hc

end ScreeningRecord

/-- The user who calls, with what `has_perm` says. -/
structure Officer where
  pk : ℕ
  addScreeningrecord : Bool := false
  changeScreeningrecord : Bool := false
deriving DecidableEq, Repr

inductive ScreeningError where
  | permissionDenied (message : String)
  | valueError (message : String)
  | validationError (errors : List (String × String))
  | doesNotExist
  | integrityError (constraint : String)
deriving DecidableEq, Repr

def ScreeningError.ofViolation : Violation → ScreeningError
  | .unique index => integrityError index
  | .check name => integrityError name
  | .width column => integrityError column

/-- The arguments of `record_check` -/
structure RecordCall where
  volunteerProfile : ℕ
  checkType : String
  opportunity : Option ℕ := none
  requestedBy : Officer
  notes : String := ""
  expiryDate : Option ℕ := none
  completedDate : Option ℕ := none
deriving DecidableEq, Repr

/-- `users` and `coordinators` are those of the volunteers and of the programmes of opportunities.
`recorded` and `decisions` record which calls have returned. -/
structure Store where
  now : Instant := 0
  today : ℕ := 0
  users : ℕ → ℕ := id
  coordinators : ℕ → Option ℕ := fun _ => none
  records : Numbered ScreeningRecord.schema := .empty
  recorded : List (ℕ × RecordCall) := []
  decisions : List (ℕ × Bool) := []

abbrev Tx := Transaction ScreeningError Store

def Store.recordTable : Lens Store (Numbered ScreeningRecord.schema) where
  get s := s.records
  set t s := { s with records := t }
  get_set _ _ := rfl
  set_get _ := rfl
  set_set _ _ _ := rfl

/-! ## Validation -/

/-- `_PROHIBITED_NOTE_FRAGMENTS` -/
def prohibitedNoteFragments : List String :=
  ["charge", "offence", "offense", "conviction", "criminal record", "finding of guilt",
    "absolute discharge", "conditional discharge", "record suspension", "pardon", "acquit",
    "indictable", "summary conviction", "guilty"]

namespace ScreeningColumns

/-- The fragments that occur in the notes -/
def found (x : ScreeningColumns) : List String :=
  prohibitedNoteFragments.filter fun kw =>
    kw.toList <:+: x.notes.toList.map Char.toLower

def noteErrors (x : ScreeningColumns) : Except (String × String) Unit :=
  if x.notes = "" then .ok ()
  else if x.checkType = .vulnerableSectorCheck ∧ x.verifiedClear ≠ none then
    if 150 < x.notes.length then
      .error ("notes", "Notes on a verified VSC record must be logistical only " ++
        "(e.g. submission date, agency reference). Maximum 150 characters — current entry has " ++
        toString x.notes.length ++ ".")
    else if x.found ≠ [] then
      .error ("notes", "Notes must not contain criminal-record detail. Remove terms related to: " ++
        ", ".intercalate (x.found.map fun t => "\x22" ++ t ++ "\x22") ++
        ". Record only the submission date and agency reference — " ++
        "the result is captured by the verified_clear flag.")
    else .ok ()
  else .ok ()

/-- The expiry of a cleared sector check without one is three years after the check. -/
def filled (x : ScreeningColumns) : ScreeningColumns :=
  if x.checkType = .vulnerableSectorCheck ∧ x.verifiedClear = some true ∧ x.expiresDate = none then
    { x with expiresDate := some (x.completedDate + 3 * 365) }
  else x

/-- `clean`, with the columns as it leaves them -/
def clean (x : ScreeningColumns) : Except (String × String) ScreeningColumns :=
  x.filled.noteErrors.map fun _ => x.filled

def cleanFields (x : ScreeningColumns) : List (String × String) :=
  if 300 < x.notes.length then
    [("notes", "Ensure this value has at most 300 characters (it has " ++
      toString x.notes.length ++ ").")]
  else []

def constraintError (name : String) : String × String :=
  ("__all__", "Constraint “" ++ name ++ "” is violated.")

/-- `validate_constraints`, with `pk` the number of a row that is saved again -/
def validateConstraints (s : Store) (pk : Option ℕ) (x : ScreeningColumns) :
    List (String × String) :=
  (if s.records.rows.any fun r =>
      some r.pk ≠ pk ∧ r.generalKey ≠ none ∧ r.generalKey = x.generalKey then
    [constraintError ScreeningRecord.withoutOpportunity.name] else []) ++
  if s.records.rows.any fun r =>
      some r.pk ≠ pk ∧ r.scopedKey ≠ none ∧ r.scopedKey = x.scopedKey then
    [constraintError ScreeningRecord.withOpportunity.name] else []

def fullClean (s : Store) (pk : Option ℕ) (x : ScreeningColumns) :
    Except ScreeningError ScreeningColumns :=
  match x.clean with
  | .ok y =>
    match x.cleanFields ++ validateConstraints s pk y with
    | [] => .ok y
    | errors => .error (.validationError errors)
  | .error e => .error (.validationError (x.cleanFields ++ e :: validateConstraints s pk x))

end ScreeningColumns

/-! ## `record_check` -/

namespace RecordCall

def screening (c : RecordCall) (type : CheckType) (today : ℕ) : ScreeningColumns where
  volunteer := c.volunteerProfile
  checkType := type
  opportunity := c.opportunity
  completedDate := c.completedDate.getD today
  expiresDate := c.expiryDate
  notes := c.notes
  verifiedBy := some c.requestedBy.pk

/-- Everything up to the validation -/
def validate (c : RecordCall) : Tx ScreeningColumns := do
  if ¬ c.requestedBy.addScreeningrecord then
    throw (.permissionDenied ("User #" ++ toString c.requestedBy.pk ++
      " does not have permission to record screening checks " ++
      "(requires 'volunteers.add_screeningrecord')."))
  let type ← ask (.valueError ("Unknown check_type '" ++ c.checkType ++ "'. Valid values: " ++
    ", ".intercalate (CheckType.all.map (·.value)) ++ ".")) fun _ => CheckType.ofText c.checkType
  let s ← get
  liftM ((c.screening type s.today).fullClean s none)

def save (c : RecordCall) (x : ScreeningColumns) : Tx Unit := do
  let r ← append Store.recordTable .ofViolation fun pk => { toScreeningColumns := x, pk }
  modify fun s => { s with recorded := s.recorded ++ [(r.pk, c)] }

end RecordCall

/-! ## `complete_check` -/

structure CompleteCall where
  screeningRecord : ℕ
  verifiedClear : Bool
  completedBy : Officer
  notes : String := ""
deriving DecidableEq, Repr

namespace CompleteCall

def verdict (c : CompleteCall) (now : Instant) : Verdict where
  verifiedClear := some c.verifiedClear
  verifiedAt := some now
  verifiedBy := some c.completedBy.pk
  notes := c.notes

def perform (c : CompleteCall) : Tx Unit := do
  if ¬ c.completedBy.changeScreeningrecord then
    throw (.permissionDenied ("User #" ++ toString c.completedBy.pk ++
      " does not have permission to complete screening checks " ++
      "(requires 'volunteers.change_screeningrecord')."))
  let r ← fetch Store.recordTable .doesNotExist c.screeningRecord
  if r.verifiedClear ≠ none then
    throw (.validationError
      [("verified_clear", "This screening record has already been verified.")])
  let s ← get
  let x ← liftM ({ r.toScreeningColumns with toVerdict := c.verdict s.now }.fullClean s (some r.pk))
  -- `update_fields` does not name the expiry
  rewriteRows Store.recordTable (·.pk = r.pk) (.withVerdict x.toVerdict)
    (ScreeningRecord.preserves x.toVerdict)
  modify fun s => { s with decisions := s.decisions ++ [(r.pk, c.verifiedClear)] }

end CompleteCall

/-! ## Alerts -/

/-- A mail of `notify_on_screening_expiring`; that to a coordinator names the volunteer. -/
structure Alert where
  recipient : ℕ
  checkType : CheckType
  expiryDate : Option ℕ
  daysRemaining : Option ℤ
  volunteerDisplay : Option String := none
deriving DecidableEq, Repr

namespace Store

/-- `screening_expiring` for one record -/
def notifyOnScreeningExpiring (s : Store) (today : ℕ) (r : ScreeningRecord) : List Alert :=
  let alert : Alert := {
    recipient := s.users r.volunteer
    checkType := r.checkType
    expiryDate := r.expiresDate
    daysRemaining := r.expiresDate.map fun (date : ℕ) => (date - today : ℤ) }
  alert :: (r.opportunity.bind s.coordinators).toList.map fun coordinator =>
    { alert with
      recipient := coordinator
      volunteerDisplay := some ("Volunteer #" ++ toString r.volunteer) }

/-- The filter of the task -/
def expiring (today : ℕ) (r : ScreeningRecord) : Bool :=
  r.checkType = .vulnerableSectorCheck && r.verifiedClear = some true &&
    r.expiresDate.any fun date => today ≤ date && date ≤ today + 30

/-- The mails of one run of `check_expiring_screenings` -/
def checkExpiringScreenings (s : Store) (today : ℕ) : List Alert :=
  (s.records.rows.filter (expiring today)).flatMap (s.notifyOnScreeningExpiring today)

end Store

/-! ## Any number of calls -/

/-- A call between two blocks. -/
inductive Worker where
  | recording (c : RecordCall)
  | saving (c : RecordCall) (x : ScreeningColumns)
  | completing (c : CompleteCall)
  | returned
  | raised (e : ScreeningError)
  | dead
deriving DecidableEq

namespace Worker

def entry : Worker → Bool
  | recording _ | completing _ => true
  | _ => false

/-- Run a block, and go on with what it returns. -/
def next {α : Type} (x : Tx α) (w : α → Worker) (s : Store) : Store × Worker :=
  match commit x s with
  | (.ok a, t) => (t, w a)
  | (.error e, t) => (t, raised e)

def act (s : Store) : Worker → Option (Store × Worker)
  | recording c => some (next c.validate (saving c) s)
  | saving c x => some (next (c.save x) (fun _ => returned) s)
  | completing c => some (next c.perform (fun _ => returned) s)
  | returned | raised _ | dead => none

end Worker

/-- Any number of calls, while the clock moves; nothing has been recorded yet. -/
def screening : Program Store Worker Unit (Instant × ℕ) where
  Init s := s.records = .empty ∧ s.recorded = [] ∧ s.decisions = []
  entry := Worker.entry
  halted := .dead
  act s w _ := w.act s
  env s clock := some {
    s with
    now := clock.1
    today := clock.2 }

end Civicos.Volunteers.Screening
