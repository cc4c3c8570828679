import Civicos.Documents.Store
import Civicos.Library.Doubles

/-!
# Archives

The entries of an uploaded archive are counted, and the size that each declares is compared with its
compressed size as a quotient of doubles. An entry without a compressed size is passed over.
-/
namespace Civicos.Documents

open Library

/-! ## The check -/

/-- The sizes that the directory of the archive declares for an entry, and its flags -/
structure ZipInfo where
  fileSize : ℕ
  compressSize : ℕ
  flagBits : ℕ := 0
deriving DecidableEq, Repr

/-- What `zipfile` makes of the bytes -/
inductive ZipArchive where
  | infolist (entries : List ZipInfo)
  | badZipFile
  | unreadable
deriving DecidableEq, Repr

structure ZipLimits where
  maxEntries : ℕ := 1000
  maxRatio : ℕ := 100
deriving DecidableEq, Repr

namespace ZipInfo

/-- `entry.file_size / entry.compress_size` -/
def ratio (entry : ZipInfo) : ℚ := nearestDouble (entry.fileSize / entry.compressSize)

/-- The flag that marks a password -/
def isEncrypted (entry : ZipInfo) : Bool := entry.flagBits % 2 = 1

end ZipInfo

/-- `%.1f` of a number that is not negative -/
def oneDecimal (x : ℚ) : String :=
  let tenths := halfEven (x * 10)
  toString (tenths / 10) ++ "." ++ toString (tenths % 10)

def checkRatio (limits : ZipLimits) (entry : ZipInfo) : Except DocumentError Unit := do
  if 0 < entry.compressSize then
    if limits.maxRatio < entry.ratio then
      throw (.validationError ("Archive compression ratio is suspicious (" ++
        oneDecimal entry.ratio ++ ":1). The file may be a ZIP bomb."))

def checkPassword (entry : ZipInfo) : Except DocumentError Unit := do
  if entry.isEncrypted then
    throw (.validationError ("Password-protected archives are not accepted. " ++
      "Please remove the password before uploading."))

/-- `_check_zip_bomb` -/
def checkZipBomb (limits : ZipLimits) : ZipArchive → Except DocumentError Unit
  | .badZipFile => throw (.validationError ("File is not a valid archive. " ++
      "Please ensure the file is not corrupted before uploading."))
  | .unreadable => throw (.validationError ("Could not read archive structure. " ++
      "Please ensure the file is not corrupted."))
  | .infolist entries => do
    if limits.maxEntries < entries.length then
      throw (.validationError ("Archive contains too many entries (" ++ toString entries.length ++
        "). Maximum allowed is " ++ toString limits.maxEntries ++ "."))
    entries.forM (checkRatio limits)
    entries.forM checkPassword

example : checkZipBomb {} (.infolist [⟨2010, 10, 0⟩]) = .error (.validationError
    "Archive compression ratio is suspicious (201.0:1). The file may be a ZIP bomb.") := by
  decide +kernel

/-! ## What is accepted -/

section Accepted

variable {limits : ZipLimits} {entries : List ZipInfo} {entry : ZipInfo}

theorem forM_ok {f : ZipInfo → Except DocumentError Unit} :
    entries.forM f = .ok () ↔ ∀ entry ∈ entries, f entry = .ok () := by
  induction entries with
  | nil => simp [pure, Except.pure]
  | cons entry entries ih =>
    rw [List.forall_mem_cons, ← ih]
    show (f entry >>= fun _ => entries.forM f) = .ok () ↔ _
    cases f entry with
    | error _ => simp [bind, Except.bind]
    | ok _ => simp [bind, Except.bind]

theorem checkRatio_ok : checkRatio limits entry = .ok () ↔
    (0 < entry.compressSize → entry.ratio ≤ limits.maxRatio) := by
  unfold checkRatio
  split_ifs with hsize hratio
  · simp [hsize, hratio]
  · simp [not_lt.mp hratio, pure, Except.pure]
  · simp [hsize, pure, Except.pure]

theorem checkPassword_ok : checkPassword entry = .ok () ↔ entry.isEncrypted = false := by
  unfold checkPassword
  split_ifs with h
  · simp [h]
  · simpa [pure, Except.pure] using h

theorem checkZipBomb_ok : checkZipBomb limits (.infolist entries) = .ok () ↔
    entries.length ≤ limits.maxEntries ∧
      (∀ entry ∈ entries, 0 < entry.compressSize → entry.ratio ≤ limits.maxRatio) ∧
        ∀ entry ∈ entries, entry.isEncrypted = false := by
  simp only [← checkRatio_ok, ← checkPassword_ok, ← forM_ok]
  simp only [checkZipBomb]
  split_ifs with h
  · simp [not_le.mpr h, throw, throwThe, MonadExceptOf.throw, bind, Except.bind]
  · cases hratio : entries.forM (checkRatio limits) with
    | error _ => simp [bind, Except.bind]
    | ok _ => simp [not_lt.mp h, bind, Except.bind]

end Accepted

/-! ## The bound -/

/-- What the two limits are for -/
def Bounded (limits : ZipLimits) (entries : List ZipInfo) : Prop :=
  entries.length ≤ limits.maxEntries ∧
    (entries.map (·.fileSize)).sum ≤ limits.maxRatio * (entries.map (·.compressSize)).sum

/-- The quotient tells when the entry is above the ratio: there is a compressed size to divide by,
and the rounding does not hide the excess. -/
def Measured (limits : ZipLimits) (entry : ZipInfo) : Prop :=
  if entry.compressSize = 0 then entry.fileSize = 0
  else limits.maxRatio * entry.compressSize < entry.fileSize →
    (limits.maxRatio : ℚ) < nearestDouble (entry.fileSize / entry.compressSize)

section Bound

variable {limits : ZipLimits} {entries : List ZipInfo} {entry : ZipInfo}

theorem Measured.fileSize_le (h : Measured limits entry)
    (hratio : 0 < entry.compressSize → entry.ratio ≤ limits.maxRatio) :
    entry.fileSize ≤ limits.maxRatio * entry.compressSize := by
  unfold Measured at h
  split at h
  next hzero => simp [h]
  next hpos =>
    by_contra hlt
    exact absurd (hratio (Nat.pos_of_ne_zero hpos)) (not_le.mpr (h (not_le.mp hlt)))

theorem sum_fileSize_le
    (h : ∀ entry ∈ entries, entry.fileSize ≤ limits.maxRatio * entry.compressSize) :
    (entries.map (·.fileSize)).sum ≤ limits.maxRatio * (entries.map (·.compressSize)).sum := by
  induction entries with
  | nil => simp
  | cons entry entries ih =>
    obtain ⟨hhead, htail⟩ := List.forall_mem_cons.mp h
    simp only [List.map_cons, List.sum_cons, Nat.mul_add]
    exact Nat.add_le_add hhead (ih htail)

/-- An archive of one entry that is not measured is accepted, and is above the ratio. -/
theorem Measured.of_singleton (hentries : 0 < limits.maxEntries)
    (hplain : entry.isEncrypted = false)
    (h : checkZipBomb limits (.infolist [entry]) = .ok () → Bounded limits [entry]) :
    Measured limits entry := by
  have hbound (hratio : 0 < entry.compressSize → entry.ratio ≤ limits.maxRatio) :
      entry.fileSize ≤ limits.maxRatio * entry.compressSize := by
    have haccepted : checkZipBomb limits (.infolist [entry]) = .ok () :=
      checkZipBomb_ok.mpr ⟨hentries, by simpa using hratio, by simpa using hplain⟩
    simpa using (h haccepted).2
  unfold Measured
  split_ifs with hzero
  · have hsize := hbound fun hpos => absurd hzero hpos.ne'
    rw [hzero] at hsize
    exact Nat.le_zero.mp hsize
  · intro hexceeds
    by_contra hle
    exact absurd (hbound fun _ => not_lt.mp hle) (not_le.mpr hexceeds)

/-- For the archives whose entries are of a given kind, the check enforces the limits exactly when
the quotient tells of each such entry whether it is above the ratio. -/
theorem zip_bomb_bounded_iff (limits : ZipLimits) (S : ZipInfo → Prop) :
    (∀ entries : List ZipInfo, (∀ entry ∈ entries, S entry) →
        checkZipBomb limits (.infolist entries) = .ok () → Bounded limits entries) ↔
      (0 < limits.maxEntries → ∀ entry, S entry → entry.isEncrypted = false →
        Measured limits entry) := by
  constructor
  · intro h hentries entry hS hplain
    exact .of_singleton hentries hplain (h [entry] (by simpa using hS))
  · intro h entries hS haccepted
    obtain ⟨hlength, hratio, hplain⟩ := checkZipBomb_ok.mp haccepted
    refine ⟨hlength, sum_fileSize_le fun entry hentry => ?_⟩
    have hpos : 0 < limits.maxEntries := (List.length_pos_of_mem hentry).trans_le hlength
    exact (h hpos entry (hS entry hentry) (hplain entry hentry)).fileSize_le (hratio entry hentry)

end Bound

/-- Under the default limits a gigabyte declared with a compressed size of zero is accepted, and so
is an entry whose excess the division rounds away. -/
theorem unmeasured_accepted :
    (checkZipBomb {} (.infolist [⟨1000000000, 0, 0⟩]) = .ok () ∧
        ¬ Bounded {} [⟨1000000000, 0, 0⟩]) ∧
      checkZipBomb {} (.infolist [⟨100 * 2 ^ 50 + 1, 2 ^ 50, 0⟩]) = .ok () ∧
        ¬ Bounded {} [⟨100 * 2 ^ 50 + 1, 2 ^ 50, 0⟩] := by
  refine ⟨⟨by decide +kernel, fun h => ?_⟩, by decide +kernel, fun h => ?_⟩
  · exact absurd h.2 (by decide)
  · exact absurd h.2 (by decide)

end Civicos.Documents
