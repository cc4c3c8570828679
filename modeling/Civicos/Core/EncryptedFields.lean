import Civicos.Library.Machine
import Civicos.Library.Sha256

/-!
# Encrypted fields

A field keeps its text encrypted under the first key of a list, and reads it with any of them. What
cannot be read is taken for an empty text, which a save then stores.
-/
namespace Civicos.Core

open Library

/-! ## Keys and texts -/

abbrev Bytes := List UInt8

def encodeUtf8 (text : String) : Bytes := text.toUTF8.data.toList

def decodeUtf8 (bytes : Bytes) : Option String := String.fromUTF8? ⟨bytes.toArray⟩

/-- A character of the alphabet for URLs -/
def base64Char (n : ℕ) : UInt8 :=
  if n < 26 then .ofNat (65 + n)
  else if n < 52 then .ofNat (71 + n)
  else if n < 62 then .ofNat (n - 4)
  else if n = 62 then 45 else 95

/-- `base64.urlsafe_b64encode` -/
def urlsafeB64encode : List ℕ → Bytes
  | [] => []
  | [a] => [base64Char (a / 4), base64Char (a % 4 * 16), 61, 61]
  | [a, b] => [base64Char (a / 4), base64Char (a % 4 * 16 + b / 16), base64Char (b % 16 * 4), 61]
  | a :: b :: c :: bytes =>
    [base64Char (a / 4), base64Char (a % 4 * 16 + b / 16), base64Char (b % 16 * 4 + c / 64),
      base64Char (c % 64)] ++ urlsafeB64encode bytes

/-- The key for a text that is none -/
def derived (raw : Bytes) : Bytes := urlsafeB64encode (Sha256.hash (raw.map UInt8.toNat))

/-- The class of the cryptography package. A new one refuses what is no key, and a token that is not
its own is not decrypted. -/
structure Fernet where
  Key : Type
  new : Bytes → Option Key
  encrypt : Key → ℕ → Bytes → Bytes
  decrypt : Key → Bytes → Option Bytes

/-- What is relied on: a derived key is one, tokens are not empty, and exactly the key that has
encrypted a token decrypts it. -/
structure Fernet.Lawful (F : Fernet) : Prop where
  new_derived : ∀ raw, (F.new (derived raw)).isSome = true
  encrypt_ne_nil : ∀ k nonce text, F.encrypt k nonce text ≠ []
  decrypt_encrypt : ∀ k nonce text, F.decrypt k (F.encrypt k nonce text) = some text
  decrypt_other : ∀ k k' nonce text, k' ≠ k → F.decrypt k' (F.encrypt k nonce text) = none

structure Settings where
  fernetKeys : List Bytes
  secretKey : Bytes
deriving DecidableEq, Repr

namespace Fernet

variable (F : Fernet)

def rawKeys (settings : Settings) : List Bytes :=
  if settings.fernetKeys.isEmpty then [settings.secretKey] else settings.fernetKeys

/-- `_get_fernet`: the keys of the list, or none where the constructor raises twice -/
def getFernet (settings : Settings) : Option (List F.Key) :=
  (rawKeys settings).mapM fun raw => (F.new raw).or (F.new (derived raw))

/-- `MultiFernet.decrypt` -/
def decryptAny (keys : List F.Key) (token : Bytes) : Option Bytes :=
  keys.findSome? (F.decrypt · token)

/-- `MultiFernet.encrypt` -/
def encryptFirst (keys : List F.Key) (nonce : ℕ) (text : Bytes) : Option Bytes :=
  keys.head?.map (F.encrypt · nonce text)

/-- The text of a token, where no exception is raised -/
def readToken (settings : Settings) (token : Bytes) : Option String :=
  (F.getFernet settings).bind fun keys => (F.decryptAny keys token).bind decodeUtf8

/-- `from_db_value` -/
def fromDbValue (settings : Settings) : Option Bytes → String
  | none | some [] => ""
  | some token => (F.readToken settings token).getD ""

/-- `get_prep_value` of a text -/
def getPrepValue (settings : Settings) (nonce : ℕ) (text : String) : Option Bytes :=
  if text = "" then some []
  else (F.getFernet settings).bind fun keys => F.encryptFirst keys nonce (encodeUtf8 text)

end Fernet

/-! ## A row -/

/-- An instance in memory, and whether the value could be read when it was loaded -/
structure Instance where
  text : String
  readable : Bool
deriving DecidableEq, Repr

/-- A row with the settings of the running processes, the instances that they have loaded, and the
keys that have ever been in use -/
structure FieldRow (F : Fernet) where
  settings : Settings
  stored : Option Bytes
  instances : List Instance
  used : List F.Key

inductive FieldLabel where
  | setKeys (settings : Settings)
  | load
  | save (i nonce : ℕ)

section Row

variable (F : Fernet)

/-- What can be read from a column with some keys -/
def recoverable (keys : List F.Key) : Option Bytes → Option String
  | none | some [] => some ""
  | some token => (F.decryptAny keys token).bind decodeUtf8

def isReadable (settings : Settings) : Option Bytes → Bool
  | none | some [] => true
  | some token => (F.readToken settings token).isSome

/-- A row that has been saved with the text `plain`. -/
def fieldRow (plain : String) : Machine (FieldRow F) FieldLabel where
  Init s := (∃ nonce, F.getPrepValue s.settings nonce plain = s.stored ∧ s.stored.isSome = true) ∧
    s.instances = [] ∧ some s.used = F.getFernet s.settings
  step s
    | .setKeys settings => (F.getFernet settings).map fun keys =>
      { s with
        settings
        used := s.used ++ keys }
    | .load => some { s with instances := s.instances ++
        [⟨F.fromDbValue s.settings s.stored, isReadable F s.settings s.stored⟩] }
    | .save i nonce => (s.instances[i]?).bind fun x =>
      (F.getPrepValue s.settings nonce x.text).map fun token => { s with stored := some token }

/-- What is saved has been read, or there was nothing to read. -/
def SavesWhatWasRead (plain : String) (s : FieldRow F) : FieldLabel → Prop
  | .save i _ => ∀ x ∈ s.instances[i]?, x.readable = true ∨ plain = ""
  | _ => True

instance (plain : String) (s : FieldRow F) (l : FieldLabel) :
    Decidable (SavesWhatWasRead F plain s l) :=
  match l with
  | .save i _ => inferInstanceAs
      (Decidable (∀ x ∈ s.instances[i]?, x.readable = true ∨ plain = ""))
  | .setKeys _ | .load => inferInstanceAs (Decidable True)

end Row

/-! ## What the keys can read -/

section Keys

variable {F : Fernet} {settings : Settings} {keys : List F.Key} {k : F.Key} {nonce : ℕ}
  {text plain : String} {token : Bytes}

theorem decodeUtf8_encodeUtf8 (text : String) : decodeUtf8 (encodeUtf8 text) = some text := by
  unfold decodeUtf8 encodeUtf8 String.fromUTF8?
  rw [Array.toArray_toList]
  exact dif_pos text.isValidUTF8

theorem Fernet.getFernet_some (hF : F.Lawful) (settings : Settings) :
    ∃ keys, F.getFernet settings = some keys := by
  have hkey : ∀ raw, ∃ key, (F.new raw).or (F.new (derived raw)) = some key := by
    intro raw
    rw [← Option.isSome_iff_exists, Option.isSome_or, hF.new_derived raw, Bool.or_true]
  unfold Fernet.getFernet
  induction Fernet.rawKeys settings with
  | nil => exact ⟨[], rfl⟩
  | cons raw raws ih =>
    obtain ⟨key, hraw⟩ := hkey raw
    obtain ⟨keys, hkeys⟩ := ih
    exact ⟨key :: keys, by simp [hraw, hkeys]⟩

theorem Fernet.decryptAny_own (hF : F.Lawful) (hk : k ∈ keys) (bytes : Bytes) :
    F.decryptAny keys (F.encrypt k nonce bytes) = some bytes := by
  unfold Fernet.decryptAny
  induction keys with
  | nil => cases hk
  | cons k' keys ih =>
    rw [List.findSome?_cons]
    by_cases hsame : k' = k
    · rw [hsame, hF.decrypt_encrypt]
    · rw [hF.decrypt_other k k' nonce bytes hsame]
      exact ih (List.mem_of_ne_of_mem (Ne.symm hsame) hk)

theorem Fernet.decryptAny_foreign (hF : F.Lawful) (hk : k ∉ keys) (bytes : Bytes) :
    F.decryptAny keys (F.encrypt k nonce bytes) = none := by
  unfold Fernet.decryptAny
  rw [List.findSome?_eq_none_iff]
  intro k' hk'
  exact hF.decrypt_other k k' nonce bytes fun h => hk (h ▸ hk')

theorem Fernet.readToken_own (hF : F.Lawful) (hkeys : F.getFernet settings = some keys)
    (hk : k ∈ keys) : F.readToken settings (F.encrypt k nonce (encodeUtf8 text)) = some text := by
  rw [Fernet.readToken, hkeys, Option.bind_some, Fernet.decryptAny_own hF hk, Option.bind_some,
    decodeUtf8_encodeUtf8]

theorem Fernet.readToken_foreign (hF : F.Lawful) (hkeys : F.getFernet settings = some keys)
    (hk : k ∉ keys) : F.readToken settings (F.encrypt k nonce (encodeUtf8 text)) = none := by
  rw [Fernet.readToken, hkeys, Option.bind_some, Fernet.decryptAny_foreign hF hk, Option.bind_none]

theorem fromDbValue_token (h : token ≠ []) :
    F.fromDbValue settings (some token) = (F.readToken settings token).getD "" := by
  cases token with
  | nil => exact absurd rfl h
  | cons b token => rfl

theorem isReadable_token (h : token ≠ []) :
    isReadable F settings (some token) = (F.readToken settings token).isSome := by
  cases token with
  | nil => exact absurd rfl h
  | cons b token => rfl

theorem recoverable_of_ne_nil (h : token ≠ []) :
    recoverable F keys (some token) = (F.decryptAny keys token).bind decodeUtf8 := by
  cases token with
  | nil => exact absurd rfl h
  | cons b token => rfl

theorem recoverable_token (hF : F.Lawful) (hk : k ∈ keys) :
    recoverable F keys (some (F.encrypt k nonce (encodeUtf8 text))) = some text := by
  rw [recoverable_of_ne_nil (hF.encrypt_ne_nil k nonce _), Fernet.decryptAny_own hF hk,
    Option.bind_some, decodeUtf8_encodeUtf8]

/-- A save stores nothing for an empty text, and else a token of the first key. -/
theorem getPrepValue_cases (h : F.getPrepValue settings nonce text = some token) :
    text = "" ∧ token = [] ∨
      text ≠ "" ∧ ∃ keys k, F.getFernet settings = some keys ∧ k ∈ keys ∧
        token = F.encrypt k nonce (encodeUtf8 text) := by
  unfold Fernet.getPrepValue at h
  split at h
  next hempty =>
    cases h
    exact .inl ⟨hempty, rfl⟩
  next hfull =>
    right
    obtain ⟨keys, hkeys, h⟩ := Option.bind_eq_some_iff.mp h
    obtain ⟨k, hk, rfl⟩ := Option.map_eq_some_iff.mp h
    exact ⟨hfull, keys, k, hkeys, List.mem_of_mem_head? hk, rfl⟩

end Keys

/-! ## Runs -/

section Runs

variable {F : Fernet} {plain : String} {s t u v : FieldRow F} {l : FieldLabel}
  {ls : List FieldLabel}

/-- The row still holds the text, and each instance has it if it could be read. -/
structure Holding (plain : String) (s : FieldRow F) : Prop where
  used : ∀ keys, F.getFernet s.settings = some keys → ∀ k ∈ keys, k ∈ s.used
  stored : plain = "" ∧ s.stored = some [] ∨
    ∃ k ∈ s.used, ∃ nonce, s.stored = some (F.encrypt k nonce (encodeUtf8 plain))
  instances : ∀ x ∈ s.instances, x.text = if x.readable then plain else ""

theorem Holding.recoverable (hF : F.Lawful) (h : Holding plain s) :
    recoverable F s.used s.stored = some plain := by
  rcases h.stored with ⟨rfl, hstored⟩ | ⟨k, hk, nonce, hstored⟩
  · rw [hstored]
    rfl
  · rw [hstored, recoverable_token hF hk]

theorem holding_init (h : (fieldRow F plain).Init s) : Holding plain s := by
  obtain ⟨⟨nonce, hprep, hsome⟩, hinstances, hused⟩ := h
  obtain ⟨token, htoken⟩ := Option.isSome_iff_exists.mp hsome
  refine ⟨fun keys hkeys k hk => ?_, ?_, by simp [hinstances]⟩
  · rw [hkeys, Option.some.injEq] at hused
    exact hused ▸ hk
  · rw [htoken] at hprep ⊢
    rcases getPrepValue_cases hprep with ⟨hempty, rfl⟩ | ⟨-, keys, k, hkeys, hk, rfl⟩
    · exact .inl ⟨hempty, rfl⟩
    · rw [hkeys, Option.some.injEq] at hused
      exact .inr ⟨k, hused ▸ hk, nonce, rfl⟩

/-- What is loaded is the text, or cannot be read. -/
theorem Holding.loaded (hF : F.Lawful) (h : Holding plain s) :
    F.fromDbValue s.settings s.stored =
      if isReadable F s.settings s.stored then plain else "" := by
  obtain ⟨keys, hkeys⟩ := Fernet.getFernet_some hF s.settings
  rcases h.stored with ⟨rfl, hstored⟩ | ⟨k, -, nonce, hstored⟩
  · rw [hstored]
    rfl
  · have hne := hF.encrypt_ne_nil k nonce (encodeUtf8 plain)
    rw [hstored, fromDbValue_token hne, isReadable_token hne]
    by_cases hk : k ∈ keys
    · rw [Fernet.readToken_own hF hkeys hk]
      rfl
    · rw [Fernet.readToken_foreign hF hkeys hk]
      rfl

theorem Holding.setKeys {settings : Settings} (h : Holding plain s)
    (hstep : (fieldRow F plain).step s (.setKeys settings) = some t) : Holding plain t := by
  obtain ⟨keys, hkeys, rfl⟩ := Option.map_eq_some_iff.mp hstep
  refine ⟨fun keys' hkeys' k hk => ?_, ?_, h.instances⟩
  · obtain rfl : keys = keys' := Option.some.inj (hkeys.symm.trans hkeys')
    exact List.mem_append_right _ hk
  · refine h.stored.imp_right ?_
    rintro ⟨k, hk, hnonce⟩
    exact ⟨k, List.mem_append_left _ hk, hnonce⟩

theorem Holding.load (hF : F.Lawful) (h : Holding plain s)
    (hstep : (fieldRow F plain).step s .load = some t) : Holding plain t := by
  cases hstep
  refine ⟨h.used, h.stored, fun x hx => ?_⟩
  rcases List.mem_append.mp hx with hx | hx
  · exact h.instances x hx
  · obtain rfl := List.mem_singleton.mp hx
    exact h.loaded hF

/-- A save keeps the text exactly if it stores what has been read. -/
theorem Holding.save (hF : F.Lawful) {i nonce : ℕ} (h : Holding plain s)
    (hstep : (fieldRow F plain).step s (.save i nonce) = some t) :
    (Civicos.Core.recoverable F t.used t.stored = some plain ↔
      SavesWhatWasRead F plain s (.save i nonce)) ∧
    (Civicos.Core.recoverable F t.used t.stored = some plain → Holding plain t) := by
  obtain ⟨x, hx, hstep⟩ := Option.bind_eq_some_iff.mp hstep
  obtain ⟨token, hprep, rfl⟩ := Option.map_eq_some_iff.mp hstep
  have htext := h.instances x (List.mem_of_getElem? hx)
  have hcond : SavesWhatWasRead F plain s (.save i nonce) ↔ x.readable = true ∨ plain = "" := by
    simp [SavesWhatWasRead, hx]
  rw [hcond]
  rcases getPrepValue_cases hprep with ⟨hempty, rfl⟩ |
    ⟨hfull, keys, k, hkeys, hk, rfl⟩
  · have hrecoverable : Civicos.Core.recoverable F s.used (some []) = some plain ↔ plain = "" := by
      simp [Civicos.Core.recoverable, eq_comm]
    rw [hrecoverable]
    refine ⟨⟨.inr, ?_⟩, fun hplain => ⟨h.used, .inl ⟨hplain, rfl⟩, h.instances⟩⟩
    rintro (hreadable | hplain)
    · rw [hreadable, if_pos rfl, hempty] at htext
      exact htext.symm
    · exact hplain
  · have hreadable : x.readable = true := by
      by_contra hunread
      rw [if_neg hunread] at htext
      exact hfull htext
    rw [hreadable, if_pos rfl] at htext
    rw [htext] at hfull ⊢
    have hused := h.used keys hkeys k hk
    have hkept : Civicos.Core.recoverable F s.used
        (some (F.encrypt k nonce (encodeUtf8 plain))) = some plain := recoverable_token hF hused
    exact ⟨iff_of_true hkept (.inl hreadable),
      fun _ => ⟨h.used, .inr ⟨k, hused, nonce, rfl⟩, h.instances⟩⟩

/-- In the states of a run the text can be recovered with the keys that have been in use if and only
if every save stores what has been read. -/
theorem encrypted_field_survives_iff (hF : F.Lawful) (hinit : (fieldRow F plain).Init s)
    (hrun : (fieldRow F plain).run s ls = some t) :
    (∀ ls' u, ls' <+: ls → (fieldRow F plain).run s ls' = some u →
      recoverable F u.used u.stored = some plain) ↔
      ((fieldRow F plain).under (SavesWhatWasRead F plain)).run s ls = some t := by
  have hstart := holding_init hinit
  refine Machine.always_iff_under (I := Holding plain) hstart (hstart.recoverable hF)
    (fun u l v hu hstep => ?_) hrun
  cases l with
  | setKeys settings =>
    have hv := hu.setKeys hstep
    exact ⟨iff_of_true (hv.recoverable hF) trivial, fun _ => hv⟩
  | load =>
    have hv := hu.load hF hstep
    exact ⟨iff_of_true (hv.recoverable hF) trivial, fun _ => hv⟩
  | save i nonce => exact hu.save hF hstep

end Runs

/-! ## Keys that are taken away -/

/-- Keys are texts of 44 characters, and a token is the key before the text. -/
def plainFernet : Fernet where
  Key := { raw : Bytes // raw.length = 44 }
  new raw := if h : raw.length = 44 then some ⟨raw, h⟩ else none
  encrypt k nonce text := 128 :: .ofNat nonce :: (k.1 ++ text)
  decrypt k token :=
    if token.length < 46 then none
    else if (token.drop 2).take 44 = k.1 then some (token.drop 46) else none

theorem length_bytes (n x : ℕ) : (Sha256.bytes n x).length = n := by
  simp [Sha256.bytes]

theorem length_hash (message : List ℕ) : (Sha256.hash message).length = 32 := by
  simp [Sha256.hash, Sha256.Hash.words, length_bytes]

theorem length_urlsafeB64encode (bytes : List ℕ) :
    (urlsafeB64encode bytes).length = (bytes.length + 2) / 3 * 4 := by
  fun_induction urlsafeB64encode bytes with
  | case1 => rfl
  | case2 => simp
  | case3 => simp
  | case4 a b c bytes ih =>
    simp only [List.length_append, List.length_cons, List.length_nil, ih]
    omega

theorem plainFernet_lawful : plainFernet.Lawful where
  new_derived raw := by
    have hlength : (derived raw).length = 44 := by
      rw [derived, length_urlsafeB64encode, length_hash]
    simp [plainFernet, hlength]
  encrypt_ne_nil k nonce text := List.cons_ne_nil _ _
  decrypt_encrypt k nonce text := by
    have hk := k.2
    simp [plainFernet, hk]
  decrypt_other k k' nonce text h := by
    have hk := k.2
    have hne : k.1 ≠ k'.1 := fun heq => h (Subtype.ext heq.symm)
    simp [plainFernet, hk, hne]

def oldKey : Bytes := List.replicate 44 65

def newKey : Bytes := List.replicate 44 66

/-- A secret under the old key -/
def secretRow : FieldRow plainFernet where
  settings := ⟨[oldKey], []⟩
  stored := some (plainFernet.encrypt ⟨oldKey, rfl⟩ 7 (encodeUtf8 "s3cret"))
  instances := []
  used := [⟨oldKey, rfl⟩]

theorem secretRow_init : (fieldRow plainFernet "s3cret").Init secretRow :=
  ⟨⟨7, by decide +kernel⟩, rfl, rfl⟩

/-- The new key is put in front, and the row is loaded and saved. -/
def rotated : List FieldLabel := [.setKeys ⟨[newKey, oldKey], []⟩, .load, .save 0 8]

theorem rotated_survives : ∃ u, (fieldRow plainFernet "s3cret").run secretRow rotated = some u ∧
    recoverable plainFernet u.used u.stored = some "s3cret" := by
  have hrun : (fieldRow plainFernet "s3cret").run secretRow rotated =
      some ((fieldRow plainFernet "s3cret").final secretRow rotated) :=
    Machine.run_final (by decide +kernel)
  exact ⟨_, hrun, (encrypted_field_survives_iff plainFernet_lawful secretRow_init hrun).mpr
    (by rfl) rotated _ List.prefix_rfl hrun⟩

/-- The old key is missing when the row is loaded and saved, and is put back. -/
theorem removed_key_destroys :
    recoverable plainFernet secretRow.used secretRow.stored = some "s3cret" ∧
    ((fieldRow plainFernet "s3cret").run secretRow [.setKeys ⟨[newKey], []⟩, .load, .save 0 8,
      .setKeys ⟨[newKey, oldKey], []⟩]).map (fun s => (s.stored, recoverable plainFernet s.used
        s.stored)) = some (some [], some "") := by
  constructor
  · decide +kernel
  · decide +kernel

end Civicos.Core
