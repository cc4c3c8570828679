import Civicos.Audit.Tampering

/-!
# Entries for requests

A request reaches `record_event_from_request` with the context that the middleware has attached, or
without one. The database refuses texts that are too long and addresses that are none; what it
refuses is caught, and nothing is written.
-/
namespace Civicos.Audit

open Library Library.Sha256

/-! ## The middleware -/

/-- Digits with hyphens after the eighth, the twelfth, the sixteenth and the twentieth -/
def hyphenate (digits : List Char) : List Char :=
  digits.take 8 ++ '-' :: (digits.drop 8).take 4 ++ '-' :: (digits.drop 12).take 4 ++
    '-' :: (digits.drop 16).take 4 ++ '-' :: digits.drop 20

/-- `str(uuid.UUID(int=n))` -/
def uuidText (n : BitVec 128) : String :=
  String.ofList (hyphenate ((List.range 32).map fun i =>
    hexDigit (n.toNat / 16 ^ (31 - i) % 16)))

example : uuidText 0x123e4567e89b12d3a456426614174000 = "123e4567-e89b-12d3-a456-426614174000" := by
  decide

namespace Request

/-- The request behind `RequestIDMiddleware` and `AuditMiddleware`; the number of the identifier is
the one of the header, or a random one. -/
def received (r : Request) (n : BitVec 128) : Request :=
  let r := { r with requestId := uuidText n }
  { r with auditContext := some r.context }

/-- The request behind the middleware, or one that has not come through it -/
def given (r : Request) : Option (BitVec 128) → Request
  | some n => r.received n
  | none => { r with auditContext := none }

/-- The address that goes to the database -/
def sentIp (r : Request) (n : Option (BitVec 128)) : String :=
  if n.isSome then r.context.actorIp else ""

end Request

/-! ## The database -/

/-- The database tells what an address is. -/
structure Database extends Platform where
  isAddress : String → Bool

/-- The columns of a bounded length, with the bound and the text -/
def Draft.columns (d : Draft) : List (String × ℕ × String) :=
  [("event_type", 64, d.eventType), ("outcome", 16, d.outcome),
    ("actor_id", 64, d.actorId.getD ""), ("actor_email", 254, d.actorEmail),
    ("actor_user_agent", 512, d.actorUserAgent), ("resource_type", 128, d.resourceType),
    ("resource_id", 64, d.resourceId), ("request_id", 64, d.requestId),
    ("session_id", 64, d.sessionId)]

/-- The keyword arguments of a call -/
structure Event where
  eventType : String
  outcome : String := "success"
  actorEmail : Option String := none
  resourceType : String := ""
  resourceId : String := ""
  beforeState : Option Detail := none
  afterState : Option Detail := none
  eventDetail : Detail := []
deriving DecidableEq, Repr

def Event.draft (ev : Event) (r : Request) : Draft :=
  draftFromRequest r ev.eventType ev.outcome ev.actorEmail ev.resourceType ev.resourceId
    ev.beforeState ev.afterState ev.eventDetail

namespace Database

variable (db : Database)

/-- `INSERT` -/
def insert (d : Draft) (id : ℕ) (timestamp : Instant) (prevHash : String) :
    Except String AuditLogEntry :=
  if ∃ c ∈ d.columns, c.2.1 < c.2.2.length then .error "value too long"
  else if ∃ ip ∈ d.actorIp, ip ≠ "" ∧ db.isAddress ip = false then
    .error "invalid input syntax for type inet"
  else .ok (db.save d id timestamp prevHash)

/-- `last_entry["entry_hash"] if last_entry else ""` -/
def lastHash (s : Log) : String := (s.getLast?.map (·.entryHash)).getD ""

/-- `record_event`; `skipped` numbers have been given out in vain. -/
def recordEvent (s : Log) (d : Draft) (timestamp : Instant) (skipped : ℕ) :
    Option AuditLogEntry × Log :=
  match db.insert d (nextId s + skipped) timestamp (lastHash s) with
  | .ok e => (some e, s ++ [e])
  | .error _ => (none, s)

def recordEventFromRequest (s : Log) (r : Request) (ev : Event) (timestamp : Instant)
    (skipped : ℕ) : Option AuditLogEntry × Log :=
  db.recordEvent s (ev.draft r) timestamp skipped

end Database

/-- The log after the request: with `ATOMIC_REQUESTS`, what the view has written lasts if the view
returns. -/
def afterRequest (s : Log) (returns : Bool) (answer : Option AuditLogEntry × Log) : Log :=
  if returns then answer.2 else s

/-! ## What lasts -/

section Recorded

variable {db : Database} {s t : Log} {d : Draft} {r : Request} {ev : Event}
  {n : Option (BitVec 128)} {e : AuditLogEntry} {prevHash : String} {timestamp : Instant}
  {skipped id : ℕ} {returns : Bool}

/-- One more entry, and its columns hash to what is stored with it. -/
def Recorded (s t : Log) : Prop := ∃ e, t = s ++ [e] ∧ e.Genuine

/-- The columns of a call that are neither the client's nor cut to their length -/
def Event.columns (ev : Event) (r : Request) : List (String × ℕ × String) :=
  [("event_type", 64, ev.eventType), ("outcome", 16, ev.outcome),
    ("actor_id", 64, r.userPk.getD ""),
    ("actor_email", 254, ev.actorEmail.getD ((r.user.map (·.email)).getD "")),
    ("resource_type", 128, ev.resourceType), ("resource_id", 64, ev.resourceId),
    ("session_id", 64, r.sessionKey.getD "")]

/-- Two payloads with one hash -/
def Collides (db : Database) (d : Draft) (prevHash : String) : Prop :=
  (db.save d 0 0 prevHash).payload ≠ d.payload prevHash ∧
    (db.save d 0 0 prevHash).computeHash prevHash = d.computeHash prevHash

/-- The view returns, all texts have their place, the address is one, and the database gives back
what has been hashed. -/
structure Storable (db : Database) (s : Log) (r : Request) (n : Option (BitVec 128)) (ev : Event)
    (returns : Bool) : Prop where
  returned : returns = true
  texts : ∀ c ∈ ev.columns r, c.2.2.length ≤ c.2.1
  address : r.sentIp n = "" ∨ db.isAddress (r.sentIp n) = true
  unaltered : (r.sentIp n ≠ "" ∧ db.storedAddress (r.sentIp n) = r.sentIp n ∧
      dumps (db.storedDetail ev.eventDetail) = dumps ev.eventDetail) ∨
    Collides db (ev.draft (r.given n)) (Database.lastHash s)

/-! ### What the middleware gives -/

theorem length_uuidText (x : BitVec 128) : (uuidText x).length = 36 := by
  have hlength : ∀ digits : List Char, digits.length = 32 → (hyphenate digits).length = 36 := by
    intro digits hdigits
    simp [hyphenate, hdigits]
  unfold uuidText
  rw [String.length_ofList]
  apply hlength
  rw [List.length_map, List.length_range]

theorem draft_actorIp : (ev.draft (r.given n)).actorIp = some (r.sentIp n) := by
  cases n <;> rfl

theorem draft_actorId : (ev.draft (r.given n)).actorId = r.userPk := by
  cases n with
  | none => rfl
  | some x =>
    change (r.userPk.filter (· ≠ "")).or r.userPk = r.userPk
    cases r.userPk with
    | none => rfl
    | some pk => by_cases hpk : pk = "" <;> simp [Option.filter, hpk]

/-- The identifier of a request always has its place, -/
theorem requestId_fits : (ev.draft (r.given n)).requestId.length ≤ 64 := by
  cases n with
  | none => exact Nat.zero_le _
  | some x =>
    have hlength : (ev.draft (r.given (some x))).requestId.length = 36 := length_uuidText x
    omega

/-- and so has its user agent. -/
theorem userAgent_fits : (ev.draft (r.given n)).actorUserAgent.length ≤ 512 := by
  cases n with
  | none => exact Nat.zero_le _
  | some x =>
    change (String.ofList (r.userAgent.toList.take 512)).length ≤ 512
    rw [String.length_ofList, List.length_take]
    exact Nat.min_le_left _ _

theorem columns_fit : (∀ c ∈ (ev.draft (r.given n)).columns, c.2.2.length ≤ c.2.1) ↔
    ∀ c ∈ ev.columns r, c.2.2.length ≤ c.2.1 := by
  have hid : (ev.draft (r.given n)).requestId.length ≤ 64 := requestId_fits
  have hagent : (ev.draft (r.given n)).actorUserAgent.length ≤ 512 := userAgent_fits
  have huser : (r.given n).user = r.user := by cases n <;> rfl
  have hsession : (r.given n).sessionKey = r.sessionKey := by cases n <;> rfl
  unfold Draft.columns Event.columns
  rw [draft_actorId]
  simp only [List.forall_mem_cons, List.not_mem_nil, false_implies, implies_true, and_true, hid,
    hagent, true_and]
  simp only [Event.draft, draftFromRequest, huser, hsession]

/-! ### What the database gives back -/

theorem insert_ok : db.insert d id timestamp prevHash = .ok e ↔
    ((∀ c ∈ d.columns, c.2.2.length ≤ c.2.1) ∧
      ∀ ip ∈ d.actorIp, ip = "" ∨ db.isAddress ip = true) ∧
        e = db.save d id timestamp prevHash := by
  unfold Database.insert
  split
  next hlong =>
    obtain ⟨c, hc, hlt⟩ := hlong
    refine iff_of_false nofun fun h => ?_
    exact absurd (h.1.1 c hc) (Nat.not_le.mpr hlt)
  next hshort =>
    have htexts : ∀ c ∈ d.columns, c.2.2.length ≤ c.2.1 := fun c hc =>
      Nat.not_lt.mp fun hlt => hshort ⟨c, hc, hlt⟩
    split
    next hbad =>
      obtain ⟨ip, hip, hne, hnot⟩ := hbad
      refine iff_of_false nofun fun h => ?_
      rcases h.1.2 ip hip with hempty | haddress
      · exact hne hempty
      · exact absurd (hnot.symm.trans haddress) nofun
    next hgood =>
      have haddress : ∀ ip ∈ d.actorIp, ip = "" ∨ db.isAddress ip = true := by
        intro ip hip
        by_contra hbad
        rw [not_or, Bool.not_eq_true] at hbad
        exact hgood ⟨ip, hip, hbad⟩
      rw [Except.ok.injEq, eq_comm, and_iff_right ⟨htexts, haddress⟩]

/-- The hash of a stored row is that of its columns if these have not changed. -/
theorem save_genuine : (db.save d id timestamp prevHash).Genuine ↔
    (db.storedIp d.actorIp = d.actorIp ∧
      dumps (db.storedDetail d.eventDetail) = dumps d.eventDetail) ∨ Collides db d prevHash := by
  have hpayload : (db.save d 0 0 prevHash).payload = d.payload prevHash ↔
      db.storedIp d.actorIp = d.actorIp ∧
        dumps (db.storedDetail d.eventDetail) = dumps d.eventDetail := by
    simp [AuditLogEntry.payload, Draft.payload, Platform.save]
  have hgenuine : (db.save d id timestamp prevHash).Genuine ↔
      (db.save d 0 0 prevHash).computeHash prevHash = d.computeHash prevHash := eq_comm
  rw [← hpayload, hgenuine, Collides]
  constructor
  · intro hsame
    exact or_iff_not_imp_left.mpr fun hne => ⟨hne, hsame⟩
  · rintro (hpayload | ⟨-, hsame⟩)
    · exact computeHash_congr hpayload
    · exact hsame

theorem storedIp_some {ip : String} :
    db.storedIp (some ip) = some ip ↔ ip ≠ "" ∧ db.storedAddress ip = ip := by
  by_cases hempty : ip = ""
  · subst hempty
    simp [Platform.storedIp]
  · simp [Platform.storedIp, hempty]

/-- A request leaves one more entry, with the hash of what is stored, exactly when its texts, its
address and its details are stored as they are, and the view returns. -/
theorem recorded_iff : Recorded s (afterRequest s returns
    (db.recordEventFromRequest s (r.given n) ev timestamp skipped)) ↔
      Storable db s r n ev returns := by
  have hnothing : ¬ Recorded s s := by
    rintro ⟨e, he, -⟩
    simpa using congrArg List.length he
  cases returns with
  | false => exact iff_of_false hnothing fun h => absurd h.returned nofun
  | true =>
    unfold afterRequest Database.recordEventFromRequest Database.recordEvent
    cases hinsert : db.insert (ev.draft (r.given n)) (nextId s + skipped) timestamp
        (Database.lastHash s) with
    | error message =>
      refine iff_of_false hnothing fun h => ?_
      have haddress : ∀ ip ∈ (ev.draft (r.given n)).actorIp, ip = "" ∨ db.isAddress ip = true := by
        simpa [draft_actorIp] using h.address
      rw [insert_ok.mpr ⟨⟨columns_fit.mpr h.texts, haddress⟩, rfl⟩] at hinsert
      cases hinsert
    | ok e =>
      obtain ⟨⟨htexts, haddress⟩, rfl⟩ := insert_ok.mp hinsert
      rw [draft_actorIp] at haddress
      have hone : ∀ e, Recorded s (s ++ [e]) ↔ e.Genuine := by
        intro e
        constructor
        · rintro ⟨e', he, hgenuine⟩
          have hsame : e = e' := by simpa using he
          exact hsame ▸ hgenuine
        · exact fun hgenuine => ⟨e, rfl, hgenuine⟩
      simp only [if_true]
      rw [hone, save_genuine, draft_actorIp, storedIp_some, and_assoc]
      constructor
      · intro hgenuine
        exact ⟨rfl, columns_fit.mp htexts, haddress _ rfl, hgenuine⟩
      · exact fun h => h.unaltered

end Recorded

section Example

/-- A database that takes digits and dots for an address -/
private def digitsAndDots : Database where
  maskAddress := some
  storedAddress := id
  storedDetail := id
  isAddress ip := ip.toList.all fun c => c.isDigit || c = '.'

/-- A user behind a proxy that appends its own address to what the client has sent -/
private def forwarded (client : String) : Request where
  user := some ⟨"7", "ana@example.org"⟩
  remoteAddr := some "10.0.0.2"
  forwardedFor := some (client ++ ", 10.0.0.1")
  behindProxy := true
  userAgent := "curl"

private def view : Event := { eventType := "data.viewed" }

example : Recorded [] (afterRequest [] true (digitsAndDots.recordEventFromRequest []
    ((forwarded "10.1.2.3").given (some 7)) view 100 0)) :=
  ⟨_, rfl, rfl⟩

/-- What the client has sent is no address, and the view is not recorded. -/
theorem unknown_unrecorded :
    (digitsAndDots.recordEventFromRequest [] ((forwarded "unknown").given (some 7)) view 100 0).1 =
      none ∧
    ¬ Recorded [] (afterRequest [] true (digitsAndDots.recordEventFromRequest []
      ((forwarded "unknown").given (some 7)) view 100 0)) := by
  have hnone : digitsAndDots.recordEventFromRequest [] ((forwarded "unknown").given (some 7)) view
      100 0 = (none, []) := by decide +kernel
  rw [hnone]
  refine ⟨rfl, ?_⟩
  rintro ⟨e, he, -⟩
  exact absurd he nofun

end Example

end Civicos.Audit
