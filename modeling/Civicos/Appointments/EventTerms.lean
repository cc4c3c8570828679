import Civicos.Library.Machine
import Civicos.Library.Text

/-!
# The terms of an event

The terms are kept at the end of the description, behind a marker, and are split off again when the
event is read or modified. Terms that hold the marker are split in the wrong place, and a
description without terms that itself ends like one with terms loses its end.
-/
namespace Civicos.Appointments.GovstackEvent

open Library

abbrev Text := List Char

/-- `_TERMS_PREFIX` -/
def termsPrefix : Text := '[' :: "Terms: ".toList

/-- `terms and terms.strip()` -/
def Given (terms : Text) : Prop := terms ≠ [] ∧ Text.strip terms ≠ []

instance : DecidablePred Given := fun _ => inferInstanceAs (Decidable (_ ∧ _))

/-- Drops the blank line between a description and its terms. -/
def dropBlankLine (clean : Text) : Text :=
  if ['\n', '\n'] <:+ clean then clean.take (clean.length - 2) else clean

/-- `_split_description_terms` -/
def splitDescriptionTerms (descriptionEn : Text) : Text × Text :=
  if descriptionEn = [] then (descriptionEn, [])
  else
    match rfind termsPrefix descriptionEn with
    | none => (descriptionEn, [])
    | some i =>
      if [']'] <:+ descriptionEn then
        (dropBlankLine (descriptionEn.take i),
          descriptionEn.dropLast.drop (i + termsPrefix.length))
      else (descriptionEn, [])

/-- The description with the terms appended, when there are any. -/
def appendTerms (description terms : Text) : Text :=
  if Given terms then
    if description ≠ [] then description ++ ['\n', '\n'] ++ termsPrefix ++ terms ++ [']']
    else termsPrefix ++ terms ++ [']']
  else description

/-- The descriptions of an appointment type. -/
structure Descriptions where
  descriptionEn : Text
  descriptionFr : Text
  deriving DecidableEq

/-- What `event_modify` is given, `none` for a field that is not supplied. -/
structure EventChange where
  description : Option Text
  terms : Option Text
  deriving DecidableEq

namespace Descriptions

/-- `_create_appointment_type` -/
def create (description terms : Text) : Descriptions where
  descriptionEn := appendTerms description terms
  descriptionFr := description

/-- `_slot_to_event_dict` -/
def read (a : Descriptions) : Text × Text := splitDescriptionTerms a.descriptionEn

/-- `event_modify` -/
def eventModify (a : Descriptions) (change : EventChange) : Descriptions :=
  if change.description ≠ none ∨ change.terms ≠ none then
    let (currentDesc, existingTerms) := splitDescriptionTerms a.descriptionEn
    let currentDesc := change.description.getD currentDesc
    let currentTerms := change.terms.getD existingTerms
    { descriptionEn := appendTerms currentDesc currentTerms
      descriptionFr := change.description.getD a.descriptionFr }
  else a

def run (a : Descriptions) (changes : List EventChange) : Descriptions :=
  changes.foldl eventModify a

end Descriptions

/-! ## Splitting what was appended -/

/-- A text ends with these terms behind the last marker, and begins with `front`. -/
structure Carries (s front terms : Text) : Prop where
  eq : s = front ++ (termsPrefix ++ (terms ++ [']']))
  last : ¬ termsPrefix <:+: terms

/-- Whether a text ends as if terms had been appended to it. -/
def Tagged (s : Text) : Prop := termsPrefix <:+: s ∧ [']'] <:+ s

instance : DecidablePred Tagged := fun _ => inferInstanceAs (Decidable (_ ∧ _))

section Split

variable {s front description terms u v : Text}

theorem infix_bracket : termsPrefix <:+: u ++ [']'] ↔ termsPrefix <:+: u :=
  infix_concat (by decide) (by decide)

theorem infix_marker : termsPrefix <:+: termsPrefix ++ u := (List.prefix_append ..).isInfix

theorem rfind_termsPrefix (h : ¬ termsPrefix <:+: v) :
    rfind termsPrefix (u ++ (termsPrefix ++ v)) = some u.length :=
  rfind_marker (by decide) h u

/-- Behind the last marker of a text that ends with a bracket come the terms and the bracket. -/
theorem carries_of_tagged (h : Tagged s) : ∃ front terms, Carries s front terms := by
  obtain ⟨hmarker, hbracket⟩ := h
  have hsome : rfind termsPrefix s ≠ none := fun h => rfind_eq_none.mp h hmarker
  obtain ⟨i, hi⟩ := Option.ne_none_iff_exists'.mp hsome
  obtain ⟨u, v, rfl, -, hv⟩ := rfind_ok hi
  obtain ⟨w, hw⟩ := hbracket
  rcases List.eq_nil_or_concat' v with rfl | ⟨terms, c, rfl⟩
  · -- The marker ends with a space.
    have hlast := congrArg List.getLast? hw
    simp at hlast
  · have hlast := congrArg List.getLast? hw
    simp only [← List.append_assoc, List.getLast?_concat, Option.some.injEq] at hlast
    subst hlast
    exact ⟨u, terms, rfl, infix_bracket.not.mp hv⟩

theorem Carries.tagged (h : Carries s front terms) : Tagged s := by
  obtain ⟨rfl, -⟩ := h
  exact ⟨infix_marker.trans (List.suffix_append ..).isInfix,
    ⟨front ++ (termsPrefix ++ terms), by simp⟩⟩

theorem splitDescriptionTerms_carries (h : Carries s front terms) :
    splitDescriptionTerms s = (dropBlankLine front, terms) := by
  have hbracket := h.tagged.2
  obtain ⟨rfl, hlast⟩ := h
  have hfind : rfind termsPrefix (front ++ (termsPrefix ++ (terms ++ [']']))) =
      some front.length := rfind_termsPrefix (infix_bracket.not.mpr hlast)
  have hdrop : (front ++ (termsPrefix ++ (terms ++ [']']))).dropLast.drop
      (front.length + termsPrefix.length) = terms := by
    rw [← List.append_assoc, ← List.append_assoc, List.dropLast_concat, ← List.length_append,
      List.drop_left]
  simp only [splitDescriptionTerms, hfind, if_pos hbracket, hdrop, List.take_left]
  simp [termsPrefix]

theorem splitDescriptionTerms_plain (h : ¬ Tagged s) : splitDescriptionTerms s = (s, []) := by
  simp only [splitDescriptionTerms]
  split
  · rfl
  split
  · rfl
  next i hi =>
    have hmarker : termsPrefix <:+: s := by
      by_contra hnot
      simp [rfind_eq_none.mpr hnot] at hi
    rw [if_neg fun hbracket => h ⟨hmarker, hbracket⟩]

theorem length_dropBlankLine : (dropBlankLine s).length ≤ s.length ∧
    s.length ≤ (dropBlankLine s).length + 2 := by
  unfold dropBlankLine
  split
  · simp only [List.length_take]
    omega
  · omega

/-- Splitting leaves no marker in the terms. -/
theorem last_of_split (s : Text) : ¬ termsPrefix <:+: (splitDescriptionTerms s).2 := by
  by_cases h : Tagged s
  · obtain ⟨front, terms, hs⟩ := carries_of_tagged h
    rw [splitDescriptionTerms_carries hs]
    exact hs.last
  · rw [splitDescriptionTerms_plain h]
    exact fun hempty => absurd (List.infix_nil.mp hempty) (by decide)

theorem splitDescriptionTerms_fst (s : Text) : (splitDescriptionTerms s).1 = s ↔ ¬ Tagged s := by
  refine ⟨fun h hs => ?_, fun h => by rw [splitDescriptionTerms_plain h]⟩
  obtain ⟨front, terms, hcarries⟩ := carries_of_tagged hs
  rw [splitDescriptionTerms_carries hcarries] at h
  have hlength := congrArg List.length hcarries.eq
  rw [← h] at hlength
  have hshort := (length_dropBlankLine (s := front)).1
  simp only [List.length_append, List.length_singleton] at hlength
  omega

/-- What stands before the marker when terms are appended. -/
def lead (description : Text) : Text :=
  if description ≠ [] then description ++ ['\n', '\n'] else []

theorem dropBlankLine_lead : dropBlankLine (lead description) = description := by
  unfold lead
  split
  · simp [dropBlankLine]
  next h => simp [dropBlankLine, not_not.mp h]

theorem appendTerms_of_given (h : Given terms) : appendTerms description terms =
    lead description ++ (termsPrefix ++ (terms ++ [']'])) := by
  simp only [appendTerms, if_pos h, lead]
  split <;> simp

theorem appendTerms_of_blank (h : ¬ Given terms) : appendTerms description terms = description :=
  if_neg h

/-- Terms without the marker come back as they were given. -/
theorem split_appendTerms (h : Given terms) (hlast : ¬ termsPrefix <:+: terms) :
    splitDescriptionTerms (appendTerms description terms) = (description, terms) := by
  have hcarries : Carries (appendTerms description terms) (lead description) terms :=
    ⟨appendTerms_of_given h, hlast⟩
  rw [splitDescriptionTerms_carries hcarries, dropBlankLine_lead]

/-- With the marker in the terms, the first part of them is taken for description. -/
theorem length_lt_of_marker (description : List Char) (h : Given terms)
    (hmarker : termsPrefix <:+: terms) :
    description.length < (splitDescriptionTerms (appendTerms description terms)).1.length := by
  have htagged : Tagged (terms ++ [']']) := ⟨infix_bracket.mpr hmarker, List.suffix_append ..⟩
  obtain ⟨front, rest, heq, hlast⟩ := carries_of_tagged htagged
  have hcarries : Carries (appendTerms description terms)
      (lead description ++ (termsPrefix ++ front)) rest := by
    refine ⟨?_, hlast⟩
    rw [appendTerms_of_given h, heq]
    simp only [List.append_assoc]
  rw [splitDescriptionTerms_carries hcarries]
  have hshort := (length_dropBlankLine (s := lead description ++ (termsPrefix ++ front))).2
  have hlead : description.length ≤ (lead description).length := by
    have hdrop := (length_dropBlankLine (s := lead description)).1
    rwa [dropBlankLine_lead] at hdrop
  have hprefix : termsPrefix.length = 8 := rfl
  simp only [List.length_append] at hshort ⊢
  omega

theorem split_appendTerms_fst (h : Given terms) :
    (splitDescriptionTerms (appendTerms description terms)).1 = description ↔
      ¬ termsPrefix <:+: terms := by
  refine ⟨fun heq hmarker => ?_, fun hlast => by rw [split_appendTerms h hlast]⟩
  have hlt := length_lt_of_marker description h hmarker
  rw [heq] at hlt
  exact Nat.lt_irrefl _ hlt

end Split

/-! ## Modifications -/

/-- Without terms, a description reads back with these when it ends with them itself. -/
def EndsWith (description terms : Text) : Prop :=
  (terms = [] ∧ ¬ Tagged description) ∨ ∃ front, Carries description front terms

theorem endsWith_iff {description terms : Text} :
    EndsWith description terms ↔ (splitDescriptionTerms description).2 = terms := by
  by_cases h : Tagged description
  · obtain ⟨front, rest, hcarries⟩ := carries_of_tagged h
    refine ⟨fun hends => ?_, fun heq => .inr ⟨front, ?_⟩⟩
    · obtain ⟨-, hplain⟩ | ⟨front', hends⟩ := hends
      · exact absurd h hplain
      · rw [splitDescriptionTerms_carries hends]
    · rw [splitDescriptionTerms_carries hcarries] at heq
      exact heq ▸ hcarries
  · rw [splitDescriptionTerms_plain h]
    refine ⟨fun hends => ?_, fun heq => .inl ⟨heq.symm, h⟩⟩
    obtain ⟨heq, -⟩ | ⟨front, hcarries⟩ := hends
    · exact heq.symm
    · exact absurd hcarries.tagged h

namespace Descriptions

variable {a : Descriptions} {change : EventChange} {changes : List EventChange}

/-- A modification that gives only one of the two leaves the other as it was. -/
structure Keeps (a : Descriptions) (change : EventChange) : Prop where
  terms : change.terms = none → (a.eventModify change).read.2 = a.read.2
  description : change.description = none → (a.eventModify change).read.1 = a.read.1

/-- Where there are terms, they are appended to a new description; without them it must not look as
if it had any. New terms do not hold the marker, and blank ones leave a description that does not
look as if it had terms. -/
structure Apart (a : Descriptions) (change : EventChange) : Prop where
  terms : ∀ d, change.description = some d → change.terms = none →
    Given a.read.2 ∨ EndsWith d a.read.2
  description : ∀ t, change.terms = some t → change.description = none →
    if Given t then ¬ termsPrefix <:+: t else ¬ Tagged a.read.1

theorem read_description (d : Text) :
    (a.eventModify ⟨some d, none⟩).read = splitDescriptionTerms (appendTerms d a.read.2) := by
  simp [eventModify, read]

theorem read_terms (t : Text) :
    (a.eventModify ⟨none, some t⟩).read = splitDescriptionTerms (appendTerms a.read.1 t) := by
  simp [eventModify, read]

/-- A new description keeps the terms. -/
theorem terms_kept_iff (d : Text) : (a.eventModify ⟨some d, none⟩).read.2 = a.read.2 ↔
    Given a.read.2 ∨ EndsWith d a.read.2 := by
  rw [read_description]
  by_cases h : Given a.read.2
  · rw [split_appendTerms h (last_of_split _)]
    simp [h]
  · rw [appendTerms_of_blank h, or_iff_right h, endsWith_iff]

/-- New terms keep the description. -/
theorem description_kept_iff (t : Text) : (a.eventModify ⟨none, some t⟩).read.1 = a.read.1 ↔
    if Given t then ¬ termsPrefix <:+: t else ¬ Tagged a.read.1 := by
  rw [read_terms]
  split
  next h => exact split_appendTerms_fst h
  next h => rw [appendTerms_of_blank h, splitDescriptionTerms_fst]

theorem keeps_iff (a : Descriptions) (change : EventChange) : Keeps a change ↔ Apart a change := by
  obtain ⟨_ | d, _ | t⟩ := change
  · exact ⟨fun _ => ⟨nofun, nofun⟩, fun _ => ⟨fun _ => rfl, fun _ => rfl⟩⟩
  · refine ⟨fun h => ⟨nofun, ?_⟩, fun h => ⟨nofun, fun _ => ?_⟩⟩
    · rintro _ ⟨⟩ -
      exact (description_kept_iff t).mp (h.description rfl)
    · exact (description_kept_iff t).mpr (h.description t rfl rfl)
  · refine ⟨fun h => ⟨?_, nofun⟩, fun h => ⟨fun _ => ?_, nofun⟩⟩
    · rintro _ ⟨⟩ -
      exact (terms_kept_iff d).mp (h.terms rfl)
    · exact (terms_kept_iff d).mpr (h.terms d rfl rfl)
  · exact ⟨fun _ => ⟨nofun, nofun⟩, fun _ => ⟨nofun, nofun⟩⟩

/-- Terms come back with their description exactly when they do not hold the marker. A run of
modifications keeps in every step what the step does not give exactly when no step confuses the two,
and then keeps what none of its steps gives. -/
theorem terms_round_trip (description terms : Text) (a : Descriptions)
    (changes : List EventChange) :
    (Given terms →
      ((create description terms).read = (description, terms) ↔ ¬ termsPrefix <:+: terms)) ∧
    (Along eventModify Keeps a changes ↔ Along eventModify Apart a changes) ∧
    (Along eventModify Apart a changes →
      ((∀ change ∈ changes, change.terms = none) → (a.run changes).read.2 = a.read.2) ∧
      ((∀ change ∈ changes, change.description = none) →
        (a.run changes).read.1 = a.read.1)) := by
  refine ⟨fun h => ⟨fun hread => ?_, split_appendTerms h⟩, along_congr keeps_iff a changes,
    fun hrun => ?_⟩
  · exact (split_appendTerms_fst h).mp (Prod.ext_iff.mp hread).1
  · rw [← along_congr keeps_iff] at hrun
    exact ⟨hrun.foldl (f := fun a => a.read.2) fun _ _ hkeeps => hkeeps.terms,
      hrun.foldl (f := fun a => a.read.1) fun _ _ hkeeps => hkeeps.description⟩

theorem terms_round_trip_clinic :
    (create "Clinic".toList "Bring ID".toList).read = ("Clinic".toList, "Bring ID".toList) ∧
    ((create "Clinic".toList "Bring ID".toList).run
      [⟨some "Walk-in clinic".toList, none⟩, ⟨some [], none⟩]).read.2 = "Bring ID".toList := by
  obtain ⟨hread, -, hrun⟩ := terms_round_trip "Clinic".toList "Bring ID".toList
    (create "Clinic".toList "Bring ID".toList)
    [⟨some "Walk-in clinic".toList, none⟩, ⟨some [], none⟩]
  have happart : Along eventModify Apart (create "Clinic".toList "Bring ID".toList)
      [⟨some "Walk-in clinic".toList, none⟩, ⟨some [], none⟩] :=
    ⟨⟨fun _ _ _ => .inl (by decide +kernel), nofun⟩,
      ⟨fun _ _ _ => .inl (by decide +kernel), nofun⟩, trivial⟩
  exact ⟨(hread (by decide +kernel)).mpr (by decide +kernel),
    ((hrun happart).1 (by decide +kernel)).trans (by decide +kernel)⟩

/-- Terms with the marker are cut, and a description with a note in the same form gives an event
terms that it was created without. -/
theorem terms_with_marker_cut :
    Given "As posted: [Terms: cash only".toList ∧
    (create "Clinic".toList "As posted: [Terms: cash only".toList).read =
      ("Clinic\n\n[Terms: As posted: ".toList, "cash only".toList) ∧
    ¬ Along eventModify Keeps (create "Clinic".toList [])
      [⟨some "Walk-in clinic [Terms: cash]".toList, none⟩] :=
  ⟨by decide +kernel, by decide +kernel,
    fun h => absurd (h.1.terms rfl) (by decide +kernel)⟩

end Descriptions

end Civicos.Appointments.GovstackEvent
