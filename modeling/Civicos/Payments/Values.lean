import Civicos.Library.Objects
import Mathlib.Algebra.Order.Ring.Int

/-!
# Column values, digests and exceptions

Identifiers and instants are natural numbers (instants in microseconds), money is a whole
number of cents. Text is ASCII for the case mappings.
-/
namespace Civicos.Payments

abbrev Uuid := ℕ

abbrev Instant := ℕ

/-- `DecimalField(decimal_places=2)`. -/
abbrev Cents := ℤ

def minutes (n : ℕ) : Instant := n * 60000000

/-- `s[:n]` -/
def clip (n : ℕ) (s : String) : String :=
  if s.length ≤ n then s else String.ofList (s.toList.take n)

def upper (s : String) : String := String.ofList (s.toList.map Char.toUpper)

def lower (s : String) : String := String.ofList (s.toList.map Char.toLower)

/-- `str.isspace` on the Latin-1 characters. -/
def isSpace (c : Char) : Bool :=
  c.toNat ∈ [9, 10, 11, 12, 13, 28, 29, 30, 31, 32, 133, 160]

def strip (s : String) : String :=
  String.ofList ((s.toList.dropWhile isSpace).reverse.dropWhile isSpace).reverse

/-- `a or b` on strings. -/
def orElse (a b : String) : String := if a = "" then b else a

/-- `str` of a two-place decimal. -/
def decimalText (a : Cents) : String :=
  let digits := toString (a.natAbs / 100) ++ "." ++
    toString (a.natAbs / 10 % 10) ++ toString (a.natAbs % 10)
  if a < 0 then "-" ++ digits else digits

/-- `str(Decimal(cents) / Decimal(100))`, which drops trailing zeros. -/
def quotientText (a : Cents) : String :=
  let whole := toString (a.natAbs / 100)
  let digits :=
    if a.natAbs % 100 = 0 then whole
    else if a.natAbs % 10 = 0 then whole ++ "." ++ toString (a.natAbs / 10 % 10)
    else whole ++ "." ++ toString (a.natAbs / 10 % 10) ++ toString (a.natAbs % 10)
  if a < 0 then "-" ++ digits else digits

/-- `str(amount or "")` -/
def amountOrBlank : Option Cents → String
  | none => ""
  | some a => if a = 0 then "" else decimalText a

/-- `DecimalField(max_digits=14, decimal_places=2)`; PostgreSQL raises on overflow. -/
def digits {α : Type} (column : String) (amount : α → Option Cents) : Library.Check α :=
  ⟨.width column, fun r => ∀ a ∈ amount r, a.natAbs < 100000000000000⟩

theorem clip_of_le {n : ℕ} {s : String} (h : s.length ≤ n) : clip n s = s := if_pos h

theorem length_clip_le (n : ℕ) (s : String) : (clip n s).length ≤ n := by
  unfold clip
  split
  next h => exact h
  next =>
    rw [String.length_ofList, List.length_take]
    exact Nat.min_le_left _ _

/-- Different identifiers print differently. -/
theorem toString_uuid_inj {m n : Uuid} : toString m = toString n ↔ m = n := by
  refine ⟨fun h => ?_, congrArg toString⟩
  have hdigits : Nat.toDigits 10 m = Nat.toDigits 10 n := by
    rw [← Nat.toList_repr, ← Nat.toList_repr]
    exact congrArg String.toList h
  rw [← Nat.ofDigitChars_ten_toDigits (n := m), hdigits, Nat.ofDigitChars_ten_toDigits]

@[simp] theorem length_upper (s : String) : (upper s).length = s.length := by
  simp [upper, String.length_toList]

/-- Values of flat JSON objects. -/
inductive Value where
  | str (s : String)
  | int (n : ℤ)
  | bool (b : Bool)
  | strs (l : List String)
  | null
deriving DecidableEq, Repr

abbrev Json := List (String × Value)

/-- A stored hash: SHA-256 is symbolic, equal digests have equal preimages. Columns that
hold a hash can also hold other text. -/
inductive Digest (α : Type) where
  | text (s : String)
  | sha256 (preimage : α)
deriving DecidableEq, Repr

namespace Digest

/-- `h[:64]`, the length of a hexadecimal SHA-256. -/
def clip64 {α : Type} : Digest α → Digest α
  | text s => text (clip 64 s)
  | sha256 p => sha256 p

end Digest

/-- Exceptions, with their messages. -/
inductive PaymentError where
  | integrityError (constraint : String)
  | dataError (column : String)
  | doesNotExist (model : String)
  | idempotencyConflict (message : String)
  | invalidPaymentTransition (message : String)
  | executionIntentConflict (message : String)
  | paymentScopeDenied (message : String)
  | paymentIdempotencyConflict (message : String)
  | providerRegistryError (message : String)
  | providerUnavailable (message : String)
  | batchLeaseOwnershipLost (message : String)
  | batchDecisionConflict (message : String)
  | duplicateBatchError (batchId : String)
  | duplicateValidationRequestError (requestId : String)
  | duplicateBillPaymentError (requestId : String)
  | apiException (statusCode : ℕ) (defaultCode defaultDetail : String)
  | typeError (message : String)
  | valueError (message : String)
  | overflowError (message : String)
  | attributeError (message : String)
  | multipleObjectsReturned (model : String)
deriving DecidableEq, Repr

open Library in
/-- `try: x except IntegrityError: handler`, with `x` in a savepoint of its own. -/
def exceptIntegrityError {σ α : Type} (x handler : Transaction PaymentError σ α) :
    Transaction PaymentError σ α := fun s =>
  match x s with
  | .error (.integrityError _) => handler s
  | r => r

open Library Transaction in
theorem exceptIntegrityError_within {σ α : Type} {R : σ → σ → Prop}
    {x handler : Transaction PaymentError σ α} (hx : Within R x) (hh : Within R handler) :
    Within R (exceptIntegrityError x handler) := by
  intro s a t h
  unfold exceptIntegrityError at h
  split at h
  · exact hh _ _ _ h
  · exact hx _ _ _ h

/-- PostgreSQL's answer to a violated constraint. -/
def PaymentError.ofViolation : Library.Violation → PaymentError
  | .unique index => integrityError index
  | .check name => integrityError name
  | .width column => dataError column

/-!
## Decimal literals

The finite literals that `Decimal(text)` accepts, and rounding to cents. Infinities and NaNs do
not survive `quantize` and a comparison, so they are left out like malformed text.
-/

structure DecimalLiteral where
  negative : Bool
  coefficient : ℕ
  exponent : ℤ
deriving DecidableEq, Repr

namespace DecimalLiteral

def digitsValue (cs : List Char) : ℕ := cs.foldl (fun n c => 10 * n + (c.toNat - 48)) 0

/-- An optional sign. -/
def signOf : List Char → Bool × List Char
  | '-' :: cs => (true, cs)
  | '+' :: cs => (false, cs)
  | cs => (false, cs)

/-- The part after the digits: nothing, or `E` and a signed number. -/
def exponentOf : List Char → Option ℤ
  | [] => some 0
  | c :: cs =>
    let (negative, digits) := signOf cs
    if (c = 'e' ∨ c = 'E') ∧ digits ≠ [] ∧ digits.all Char.isDigit then
      some (if negative then -(digitsValue digits : ℤ) else digitsValue digits)
    else none

/-- `Decimal(text)` -/
def parse (text : String) : Option DecimalLiteral :=
  let (negative, cs) := signOf ((strip text).toList.filter (· ≠ '_'))
  let whole := cs.takeWhile Char.isDigit
  let rest := cs.dropWhile Char.isDigit
  let (fraction, rest) :=
    match rest with
    | '.' :: cs => (cs.takeWhile Char.isDigit, cs.dropWhile Char.isDigit)
    | cs => ([], cs)
  if whole = [] ∧ fraction = [] then none
  else (exponentOf rest).map fun e => ⟨negative, digitsValue (whole ++ fraction),
    e - fraction.length⟩

/-- `d.quantize(Decimal("0.01"), rounding=ROUND_HALF_UP)` in the default context of 28 digits. -/
def quantize (d : DecimalLiteral) : Option Cents :=
  let scale := d.exponent + 2
  let cents : ℕ :=
    if 0 ≤ scale then d.coefficient * 10 ^ scale.toNat
    else (d.coefficient + 10 ^ (-scale).toNat / 2) / 10 ^ (-scale).toNat
  if cents < 10000000000000000000000000000 then some (if d.negative then -(cents : ℤ) else cents)
  else none

example : (parse " 12.345 ").bind quantize = some 1235 := by decide
example : (parse "-1e1").bind quantize = some (-1000) := by decide
example : parse "1,5" = none := by decide

end DecimalLiteral

end Civicos.Payments
