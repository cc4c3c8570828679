import Civicos.Library.Sha256
import Mathlib.Data.List.Sort
import Mathlib.Data.Rat.Defs

/-!
# JSON texts and trees

Flat documents as `json.dumps` writes them with sorted keys, where what is nested is text, and
values of any nesting with the paths into them.
-/
namespace Civicos.Library

/-! ## Texts -/

/-- A JSON value; `json` is a nested document in its canonical text. -/
inductive Value where
  | null
  | bool (b : Bool)
  | int (n : ℤ)
  | str (s : String)
  | json (text : String)
deriving DecidableEq, Repr

def Value.ofOption : Option String → Value
  | none => null
  | some s => str s

def unicodeEscape (n : ℕ) : List Char :=
  [Char.ofNat 92, 'u', Sha256.hexDigit (n / 4096), Sha256.hexDigit (n / 256 % 16),
    Sha256.hexDigit (n / 16 % 16), Sha256.hexDigit (n % 16)]

/-- A character inside of a JSON text, with `ensure_ascii`. -/
def escape (c : Char) : List Char :=
  match c.toNat with
  | 34 | 92 => [Char.ofNat 92, c]
  | 8 => [Char.ofNat 92, 'b']
  | 9 => [Char.ofNat 92, 't']
  | 10 => [Char.ofNat 92, 'n']
  | 12 => [Char.ofNat 92, 'f']
  | 13 => [Char.ofNat 92, 'r']
  | n =>
    if 32 ≤ n ∧ n ≤ 126 then [c]
    else if n < 65536 then unicodeEscape n
    else unicodeEscape (55296 + (n - 65536) / 1024) ++ unicodeEscape (56320 + (n - 65536) % 1024)

def dumpsText (s : String) : String :=
  String.ofList ([Char.ofNat 34] ++ s.toList.flatMap escape ++ [Char.ofNat 34])

def Value.dumps : Value → String
  | null => "null"
  | bool true => "true"
  | bool false => "false"
  | int n => toString n
  | str s => dumpsText s
  | json text => text

/-- The order of texts by code points. -/
def textLe : List Char → List Char → Bool
  | [], _ => true
  | _ :: _, [] => false
  | a :: as, b :: bs => a.toNat < b.toNat || (a.toNat == b.toNat && textLe as bs)

/-- `json.dumps(..., sort_keys=True)` of an object whose values have been dumped. -/
def dumpsObject (fields : List (String × String)) : String :=
  let sorted := fields.insertionSort fun a b => textLe a.1.toList b.1.toList = true
  "\x7b" ++ ", ".intercalate (sorted.map fun f => dumpsText f.1 ++ ": " ++ f.2) ++ "\x7d"

def dumps (fields : List (String × Value)) : String :=
  dumpsObject (fields.map fun f => (f.1, f.2.dumps))

example : dumps [("optIn", .bool true), ("id", .str "7")] =
    "\x7b\x22id\x22: \x227\x22, \x22optIn\x22: true\x7d" := by decide +kernel

/-!
## Trees

A dict keeps its keys in order; a path goes down by keys and positions. `redact` replaces what is
under certain keys at any depth, and is characterised by what is found along a path.
-/

inductive JsonTree where
  | null
  | bool (b : Bool)
  | num (x : ℚ)
  | str (s : String)
  | list (items : List JsonTree)
  | dict (fields : List (String × JsonTree))

namespace JsonTree

/-- The truth value of a value in a condition -/
def truthy : JsonTree → Bool
  | null => false
  | bool b => b
  | num x => x ≠ 0
  | str s => s ≠ ""
  | list items => !items.isEmpty
  | dict fields => !fields.isEmpty

inductive Step where
  | key (k : String)
  | index (i : ℕ)
deriving DecidableEq, Repr

def child : JsonTree → Step → Option JsonTree
  | list items, .index i => items[i]?
  | dict fields, .key k => fields.lookup k
  | _, _ => none

/-- The value at the end of a path -/
def find : JsonTree → List Step → Option JsonTree
  | j, [] => some j
  | j, s :: path => (j.child s).bind (find · path)

/-! ## Dicts -/

/-- `d[k] = v` for a key that is there -/
def replace (k : String) (v : JsonTree) (fields : List (String × JsonTree)) :
    List (String × JsonTree) :=
  fields.map fun f => if f.1 = k then (k, v) else f

/-- `d[k] = v` -/
def put (k : String) (v : JsonTree) (fields : List (String × JsonTree)) :
    List (String × JsonTree) :=
  if (fields.lookup k).isSome then replace k v fields else fields ++ [(k, v)]

/-- `d.pop(k, None)` -/
def pop (k : String) (fields : List (String × JsonTree)) : List (String × JsonTree) :=
  fields.filter (·.1 ≠ k)

variable {fields : List (String × JsonTree)} {k k' : String} {v : JsonTree}

theorem lookup_cons_ite (f : String × JsonTree) :
    (f :: fields).lookup k = if k = f.1 then some f.2 else fields.lookup k := by
  rw [List.lookup_cons]
  by_cases h : k = f.1
  · simp [h]
  · rw [beq_false_of_ne h, if_neg h]

theorem lookup_pop : (pop k' fields).lookup k = if k = k' then none else fields.lookup k := by
  induction fields with
  | nil => simp [pop]
  | cons f fields ih =>
    unfold pop at ih ⊢
    by_cases hf : f.1 = k'
    · rw [List.filter_cons_of_neg (by simpa using hf), ih, lookup_cons_ite, hf]
      split <;> rfl
    · rw [List.filter_cons_of_pos (by simpa using hf), lookup_cons_ite, lookup_cons_ite, ih]
      by_cases hk : k = k'
      · have hne : k ≠ f.1 := fun h => hf (h.symm.trans hk)
        rw [if_neg hne, if_pos hk, if_pos hk]
      · rw [if_neg hk, if_neg hk]

theorem lookup_replace : (replace k' v fields).lookup k =
    if k = k' then (fields.lookup k).map fun _ => v else fields.lookup k := by
  induction fields with
  | nil => simp [replace]
  | cons f fields ih =>
    unfold replace at ih ⊢
    rw [List.map_cons, lookup_cons_ite, lookup_cons_ite, ih]
    by_cases hf : f.1 = k'
    · rw [if_pos hf, hf]
      split <;> rfl
    · rw [if_neg hf]
      by_cases hk : k = k'
      · have hne : k ≠ f.1 := fun h => hf (h.symm.trans hk)
        rw [if_neg hne, if_neg hne]
      · rw [if_neg hk, if_neg hk]

theorem lookup_put : (put k' v fields).lookup k = if k = k' then some v else fields.lookup k := by
  unfold put
  split
  next hsome =>
    rw [lookup_replace]
    split
    next hk =>
      obtain ⟨u, hu⟩ := Option.isSome_iff_exists.mp hsome
      rw [hk, hu, Option.map_some]
    next => rfl
  next hnone =>
    rw [Option.not_isSome_iff_eq_none] at hnone
    rw [List.lookup_append, lookup_cons_ite]
    by_cases hk : k = k'
    · rw [if_pos hk, if_pos hk, hk, hnone]
      rfl
    · rw [if_neg hk, if_neg hk]
      exact Option.or_none

/-! ## Redaction -/

mutual

/-- Replace what is under the keys at any depth. -/
def redact (secret : String → Bool) (mark : JsonTree) : JsonTree → JsonTree
  | list items => list (redactItems secret mark items)
  | dict fields => dict (redactFields secret mark fields)
  | j => j

def redactItems (secret : String → Bool) (mark : JsonTree) : List JsonTree → List JsonTree
  | [] => []
  | j :: js => redact secret mark j :: redactItems secret mark js

def redactFields (secret : String → Bool) (mark : JsonTree) :
    List (String × JsonTree) → List (String × JsonTree)
  | [] => []
  | (k, j) :: fs => (k, if secret k then mark else redact secret mark j) ::
      redactFields secret mark fs

end

variable {secret : String → Bool} {mark j : JsonTree} {path : List Step}

theorem redactItems_eq (js : List JsonTree) :
    redactItems secret mark js = js.map (redact secret mark) := by
  induction js with
  | nil => rfl
  | cons j js ih => rw [redactItems, ih, List.map_cons]

theorem redactFields_eq (fs : List (String × JsonTree)) : redactFields secret mark fs =
    fs.map fun f => (f.1, if secret f.1 then mark else redact secret mark f.2) := by
  induction fs with
  | nil => rfl
  | cons f fs ih => rw [redactFields, ih, List.map_cons]

@[simp] theorem find_nil (j : JsonTree) : j.find [] = some j := rfl

@[simp] theorem find_cons (j : JsonTree) (s : Step) :
    j.find (s :: path) = (j.child s).bind (find · path) := rfl

def Step.enters (secret : String → Bool) : Step → Bool
  | .key k => secret k
  | .index _ => false

/-- A path that passes none of the keys -/
def Clear (secret : String → Bool) (path : List Step) : Prop :=
  ∀ s ∈ path, s.enters secret = false

theorem lookup_redactFields (fs : List (String × JsonTree)) :
    (redactFields secret mark fs).lookup k =
      (fs.lookup k).map fun j => if secret k then mark else redact secret mark j := by
  induction fs with
  | nil => rfl
  | cons f fs ih =>
    rw [redactFields, lookup_cons_ite, lookup_cons_ite, ih]
    by_cases h : k = f.1
    · rw [if_pos h, if_pos h, h, Option.map_some]
    · rw [if_neg h, if_neg h]

theorem child_redact (s : Step) : (redact secret mark j).child s =
    (j.child s).map fun v => if s.enters secret then mark else redact secret mark v := by
  cases j with
  | list items =>
    cases s with
    | index i => simp [redact, child, redactItems_eq, Step.enters]
    | key k => rfl
  | dict fields =>
    cases s with
    | index i => rfl
    | key k => exact lookup_redactFields fields
  | _ => cases s <;> rfl

/-- Along a path without the keys one finds what was there, redacted. -/
theorem find_redact (h : Clear secret path) :
    (redact secret mark j).find path = (j.find path).map (redact secret mark) := by
  induction path generalizing j with
  | nil => rfl
  | cons s path ih =>
    obtain ⟨hhead, htail⟩ := List.forall_mem_cons.mp h
    rw [find_cons, find_cons, child_redact, hhead]
    cases j.child s with
    | none => rfl
    | some v => exact ih htail

/-- Nothing is below a text. -/
theorem find_str {text : String} :
    (str text).find path ≠ some (dict fields) := by
  cases path with
  | nil => simp
  | cons s path => cases s <;> simp [child]

/-- At no depth does a dict have one of the keys with anything but the mark. -/
theorem marked_of_find_redact {text : String}
    (h : (redact secret (str text) j).find path = some (dict fields)) (hv : (k, v) ∈ fields)
    (hk : secret k = true) : v = str text := by
  induction path generalizing j with
  | nil =>
    cases j with
    | dict fs =>
      simp only [redact, find_nil, Option.some.injEq, dict.injEq] at h
      rw [← h, redactFields_eq] at hv
      obtain ⟨f, -, hf⟩ := List.mem_map.mp hv
      simp only [Prod.mk.injEq] at hf
      rw [← hf.2, hf.1, if_pos hk]
    | _ => simp [redact] at h
  | cons s path ih =>
    rw [find_cons, child_redact] at h
    cases hs : j.child s with
    | none => simp [hs] at h
    | some u =>
      rw [hs, Option.map_some] at h
      split at h
      · exact absurd h find_str
      · exact ih h

/-- Neither a dict nor a list -/
def Leaf : JsonTree → Prop
  | list _ | dict _ => False
  | _ => True

theorem redact_leaf (h : j.Leaf) : redact secret mark j = j := by
  cases j with
  | list _ | dict _ => exact h.elim
  | _ => rfl

end JsonTree

end Civicos.Library
