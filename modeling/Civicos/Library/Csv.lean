import Mathlib.Data.List.Basic
import Mathlib.Logic.Function.Basic

/-!
# Comma separated values

A writer that quotes a field only when it has to and a reader for its dialect, as a machine over
characters. What is written is read back, records without fields and with blank ones included.
-/
namespace Civicos.Library.Csv

structure Dialect where
  delimiter : Char
  quote : Char
  apart : delimiter ≠ quote
  delimiter_inline : delimiter ≠ '\r' ∧ delimiter ≠ '\n'
  quote_inline : quote ≠ '\r' ∧ quote ≠ '\n'

def excel : Dialect where
  delimiter := ','
  quote := '"'
  apart := by decide
  delimiter_inline := by decide
  quote_inline := by decide

abbrev Field := List Char

abbrev Record := List Field

namespace Dialect

variable (d : Dialect)

/-! ## Writing -/

def isSpecial (c : Char) : Bool := c = d.delimiter ∨ c = d.quote ∨ c = '\r' ∨ c = '\n'

def double (s : Field) : List Char := s.flatMap fun c => if c = d.quote then [c, c] else [c]

def writeField (s : Field) : List Char :=
  if s.any d.isSpecial then d.quote :: d.double s ++ [d.quote] else s

/-- The fields of a record. A single blank field is quoted, its line would be blank as well. -/
def writeFields : Record → List Char
  | [] => []
  | [[]] => [d.quote, d.quote]
  | s :: r => d.writeField s ++ r.flatMap fun s => d.delimiter :: d.writeField s

def writeRecord (r : Record) : List Char := d.writeFields r ++ ['\r', '\n']

def write (rs : List Record) : List Char := rs.flatMap d.writeRecord

end Dialect

/-! ## Reading -/

/-- Where the next character stands: `closed` is behind a quote that may have closed its field,
`returned` behind a carriage return. -/
inductive Mode where
  | startRecord
  | startField
  | inField
  | inQuotes
  | closed
  | returned
deriving DecidableEq, Repr

structure Reader where
  mode : Mode := .startRecord
  field : Field := []
  record : Record := []
  done : List Record := []
deriving DecidableEq, Repr

namespace Reader

def push (r : Reader) (c : Char) (mode : Mode) : Reader :=
  { r with mode, field := r.field ++ [c] }

def endField (r : Reader) : Reader :=
  { r with mode := .startField, field := [], record := r.record ++ [r.field] }

def endRecord (r : Reader) : Reader :=
  { r with mode := .startRecord, record := [], done := r.done ++ [r.record] }

/-- The end of a line at a character that ends one -/
def endLine (r : Reader) (c : Char) : Reader :=
  if c = '\n' then r.endRecord else { r with mode := .returned }

/-- A character outside quotes, where `other` is what one does that has no meaning of its own. -/
def plain (d : Dialect) (r : Reader) (c : Char) (other : Reader) : Reader :=
  if c = '\r' ∨ c = '\n' then r.endField.endLine c
  else if c = d.delimiter then r.endField
  else other

def startField (d : Dialect) (r : Reader) (c : Char) : Reader :=
  r.plain d c (if c = d.quote then { r with mode := .inQuotes } else r.push c .inField)

def startRecord (d : Dialect) (r : Reader) (c : Char) : Reader :=
  if c = '\r' ∨ c = '\n' then r.endLine c else r.startField d c

def step (d : Dialect) (r : Reader) (c : Char) : Reader :=
  match r.mode with
  | .startRecord => r.startRecord d c
  | .startField => r.startField d c
  | .inField => r.plain d c (r.push c .inField)
  | .inQuotes => if c = d.quote then { r with mode := .closed } else r.push c .inQuotes
  | .closed => r.plain d c (r.push c (if c = d.quote then .inQuotes else .inField))
  | .returned => if c = '\n' then r.endRecord else r.endRecord.startRecord d c

def feed (d : Dialect) (r : Reader) (text : List Char) : Reader := text.foldl (step d) r

/-- What has been read when the text ends -/
def finish (r : Reader) : List Record :=
  match r.mode with
  | .startRecord => r.done
  | .returned => r.endRecord.done
  | _ => r.endField.endRecord.done

end Reader

def Dialect.read (d : Dialect) (text : List Char) : List Record := (Reader.feed d {} text).finish

/-! ## The round trip -/

namespace Reader

variable {d : Dialect} {acc s : Field} {record : Record} {done : List Record}

@[simp] theorem feed_nil (r : Reader) : r.feed d [] = r := rfl

@[simp] theorem feed_cons (r : Reader) (c : Char) (text : List Char) :
    r.feed d (c :: text) = (r.step d c).feed d text := rfl

theorem feed_append (r : Reader) (t u : List Char) : r.feed d (t ++ u) = (r.feed d t).feed d u :=
  List.foldl_append

/-- The character ends neither a field nor a line. -/
theorem plain_other {r other : Reader} {c : Char} (h : d.isSpecial c = false) :
    r.plain d c other = other := by
  simp only [Dialect.isSpecial, decide_eq_false_iff_not, not_or] at h
  simp [plain, h]

theorem feed_plain (h : s.any d.isSpecial = false) :
    feed d ⟨.inField, acc, record, done⟩ s = ⟨.inField, acc ++ s, record, done⟩ := by
  induction s generalizing acc with
  | nil => simp
  | cons c s ih =>
    rw [List.any_cons, Bool.or_eq_false_iff] at h
    simp [step, plain_other h.1, push, ih h.2]

theorem feed_double :
    feed d ⟨.inQuotes, acc, record, done⟩ (d.double s) = ⟨.inQuotes, acc ++ s, record, done⟩ := by
  have hq := d.quote_inline
  have hd := d.apart
  induction s generalizing acc with
  | nil => simp [Dialect.double]
  | cons c s ih =>
    obtain rfl | hc := eq_or_ne c d.quote
    · have hdouble : d.double (d.quote :: s) = d.quote :: d.quote :: d.double s := by
        simp [Dialect.double]
      simp [hdouble, step, plain, push, hq, hd.symm, ih]
    · have hdouble : d.double (c :: s) = c :: d.double s := by simp [Dialect.double, hc]
      simp [hdouble, step, push, hc, ih]

/-- The modes in which a field has been read -/
def Mode.isRead : Mode → Bool
  | .startField | .inField | .closed => true
  | _ => false

theorem feed_field (d : Dialect) (s : Field) (record : Record) (done : List Record) :
    ∃ mode, Mode.isRead mode = true ∧
      feed d ⟨.startField, [], record, done⟩ (d.writeField s) = ⟨mode, s, record, done⟩ := by
  have hq := d.quote_inline
  have hd := d.apart
  unfold Dialect.writeField
  split
  · refine ⟨.closed, rfl, ?_⟩
    have hopen : step d ⟨.startField, [], record, done⟩ d.quote =
        ⟨.inQuotes, [], record, done⟩ := by
      simp [step, startField, plain, hq, hd.symm]
    rw [List.cons_append, feed_cons, hopen, feed_append, feed_double]
    simp [step]
  next h =>
    cases s with
    | nil => exact ⟨.startField, rfl, rfl⟩
    | cons c s =>
      have h : (c :: s).any d.isSpecial = false := by simpa using h
      rw [List.any_cons, Bool.or_eq_false_iff] at h
      have hc : c ≠ d.quote := by
        rintro rfl
        simp [Dialect.isSpecial] at h
      exact ⟨.inField, rfl, by simp [step, startField, plain_other h.1, hc, push, feed_plain h.2]⟩

theorem step_delimiter {mode : Mode} (h : Mode.isRead mode = true) :
    step d ⟨mode, s, record, done⟩ d.delimiter = ⟨.startField, [], record ++ [s], done⟩ := by
  have hd := d.delimiter_inline
  cases mode with
  | startField | inField | closed => simp [step, startField, plain, hd, endField]
  | startRecord | inQuotes | returned => cases h

theorem feed_return {mode : Mode} (h : Mode.isRead mode = true) :
    feed d ⟨mode, s, record, done⟩ ['\r', '\n'] =
      ⟨.startRecord, [], [], done ++ [record ++ [s]]⟩ := by
  cases mode with
  | startField | inField | closed =>
    simp [step, startField, plain, endField, endLine, endRecord]
  | startRecord | inQuotes | returned => cases h

theorem feed_fields (d : Dialect) (s : Field) (r : Record) (done : List Record) :
    feed d ⟨.startField, [], record, done⟩
        (d.writeField s ++ r.flatMap (fun s => d.delimiter :: d.writeField s) ++ ['\r', '\n']) =
      ⟨.startRecord, [], [], done ++ [record ++ s :: r]⟩ := by
  induction r generalizing s record with
  | nil =>
    obtain ⟨mode, hmode, hfield⟩ := feed_field d s record done
    simp only [List.flatMap_nil, List.append_nil, feed_append, hfield, feed_return hmode]
  | cons s' r ih =>
    obtain ⟨mode, hmode, hfield⟩ := feed_field d s record done
    simp only [List.flatMap_cons, List.cons_append, List.append_assoc] at ih ⊢
    rw [feed_append, hfield, feed_cons, step_delimiter hmode, ih]
    simp

/-- Where a record starts, so does its first field. -/
theorem feed_startRecord {c : Char} (text : List Char) (h : c ≠ '\r' ∧ c ≠ '\n') :
    feed d ⟨.startRecord, [], record, done⟩ (c :: text) =
      feed d ⟨.startField, [], record, done⟩ (c :: text) := by
  simp [step, startRecord, startField, plain, push, endField, h]

theorem isSpecial_of_return {c : Char} (h : c = '\r' ∨ c = '\n') : d.isSpecial c = true := by
  simp only [Dialect.isSpecial, decide_eq_true_eq]
  tauto

/-- What is written of the fields of a record starts with no end of a line. -/
theorem head_fields {c : Char} {r : Record}
    (h : (d.writeField s ++ r.flatMap fun s => d.delimiter :: d.writeField s).head? = some c) :
    c ≠ '\r' ∧ c ≠ '\n' := by
  unfold Dialect.writeField at h
  split at h
  · cases h
    exact d.quote_inline
  next hplain =>
    cases s with
    | nil =>
      cases r with
      | nil => cases h
      | cons s r =>
        cases h
        exact d.delimiter_inline
    | cons a s =>
      cases h
      refine not_or.mp fun hreturn => hplain ?_
      rw [List.any_cons, isSpecial_of_return hreturn, Bool.true_or]

theorem feed_record (r : Record) (done : List Record) :
    feed d ⟨.startRecord, [], [], done⟩ (d.writeRecord r) =
      ⟨.startRecord, [], [], done ++ [r]⟩ := by
  have hq := d.quote_inline
  have hapart := d.apart
  unfold Dialect.writeRecord
  fun_cases Dialect.writeFields d r with
  | case1 => simp [step, startRecord, endLine, endRecord]
  | case2 =>
    simp [step, startRecord, startField, plain, hq, hapart.symm, endField, endLine, endRecord]
  | case3 s r hblank =>
    rw [← List.nil_append (s :: r), ← feed_fields d s r done]
    cases htext : d.writeField s ++ r.flatMap fun s => d.delimiter :: d.writeField s with
    | nil =>
      obtain ⟨hs, hr⟩ := List.append_eq_nil_iff.mp htext
      cases r with
      | cons => cases hr
      | nil =>
        cases s with
        | nil => exact absurd rfl (hblank rfl)
        | cons c s =>
          unfold Dialect.writeField at hs
          split at hs <;> cases hs
    | cons c text => exact feed_startRecord _ (head_fields (s := s) (r := r) (by rw [htext]; rfl))

end Reader

theorem Dialect.read_write (d : Dialect) (rs : List Record) : d.read (d.write rs) = rs := by
  have hfeed : ∀ done, Reader.feed d ⟨.startRecord, [], [], done⟩ (d.write rs) =
      ⟨.startRecord, [], [], done ++ rs⟩ := by
    induction rs with
    | nil => simp [write]
    | cons r rs ih =>
      intro done
      have hcons : d.write (r :: rs) = d.writeRecord r ++ d.write rs := rfl
      rw [hcons, Reader.feed_append, Reader.feed_record, ih]
      simp
  rw [Dialect.read, hfeed]
  rfl

end Civicos.Library.Csv
