import Civicos.Library.Text
import Civicos.Library.Json

/-!
# Error reports

The two hooks through which everything passes that is sent to Sentry. They replace what is under the
names of personal data, remove headers with secrets and mask network addresses.
-/
namespace Civicos.Core

open Library Library.JsonTree Library.Pattern

/-! ## Constants -/

/-- What Python knows of characters -/
structure CharTable where
  lower : String → String
  isDigit : Char → Bool
  isWord : Char → Bool

/-- The tables for texts in ASCII -/
def ascii : CharTable where
  lower s := String.ofList (s.toList.map Char.toLower)
  isDigit := Char.isDigit
  isWord c := c.isAlphanum || c = '_'

/-- `PII_FIELDS` -/
def piiFields : List String :=
  ["email", "name", "legal_name", "donor_name", "donor_email", "donor_legal_name", "full_name",
    "first_name", "last_name", "address", "postal_code", "phone", "ip", "ip_address", "sin",
    "card_number", "cvv", "secret", "token", "password", "api_key", "authorization",
    "webhook_endpoint_secret", "amount", "eligible_amount", "advantage_amount"]

/-- `_DROP_CATEGORIES` -/
def dropCategories : List String := ["stripe", "urllib3", "requests", "httpx", "httpcore"]

/-- `_SENSITIVE_HEADERS` -/
def sensitiveHeaders : List String := ["Authorization", "Cookie", "X-Stripe-Signature"]

/-- The fields of the environment with addresses -/
def ipFields : List String := ["REMOTE_ADDR", "HTTP_X_FORWARDED_FOR"]

def filtered : JsonTree := .str "[Filtered]"

namespace CharTable

variable (t : CharTable)

def isPii (key : String) : Bool := t.lower key ∈ piiFields

def digit : Pattern := one t.isDigit

/-- `_IP_PATTERN` -/
def ipPattern : Pattern :=
  let dots := t.digit.times 1 2
  seq [boundary t.isWord, dots, char '.', dots, char '.', dots, char '.', dots, boundary t.isWord]

def isHex (c : Char) : Bool :=
  '0' ≤ c && c ≤ '9' || 'a' ≤ c && c ≤ 'f' || 'A' ≤ c && c ≤ 'F'

def hexGroup : Pattern := times (one isHex) 1 3

def groupColon : Pattern := cat hexGroup (char ':')

def colonGroup : Pattern := cat (char ':') hexGroup

/-- A number up to 255 -/
def octet : Pattern := any [
  seq [char '2', char '5', one fun c => '0' ≤ c && c ≤ '5'],
  cat (optional (any [
    cat (char '2') (one fun c => '0' ≤ c && c ≤ '4'),
    cat (optional (char '1')) t.digit])) t.digit]

/-- `_IPV6_PATTERN` -/
def ipv6Pattern : Pattern := any [
  cat (groupColon.times 7 0) hexGroup,
  cat (groupColon.times 1 6) (char ':'),
  cat (char ':') (colonGroup.times 1 6),
  cat (groupColon.times 1 5) colonGroup,
  cat (groupColon.times 1 4) (colonGroup.times 1 1),
  cat (groupColon.times 1 3) (colonGroup.times 1 2),
  cat (groupColon.times 1 2) (colonGroup.times 1 3),
  cat (groupColon.times 1 1) (colonGroup.times 1 4),
  seq [hexGroup, char ':', colonGroup.times 1 5],
  seq [char ':', char ':',
    optional (seq [char 'f', char 'f', char 'f', char 'f',
      optional (cat (char ':') ((char '0').times 1 3)), char ':']),
    t.octet, (cat (char '.') t.octet).times 3 0],
  cat (char ':') (char ':')]

/-- Both patterns, the longer addresses first -/
def hideAddresses (repl text : String) : String :=
  t.ipPattern.sub repl (t.ipv6Pattern.sub repl text)

/-- `_mask_ip` -/
def maskIp (text : String) : String := t.hideAddresses "[masked]" text

end CharTable

/-! ## Hooks -/

/-- What Python raises when a value is not of the expected kind -/
inductive HookError where
  | attributeError
  | typeError
deriving DecidableEq, Repr

abbrev Fields := List (String × JsonTree)

/-- The receiver of `get` and `keys` is a dict. -/
def asDict : JsonTree → Except HookError Fields
  | .dict fields => .ok fields
  | _ => .error .attributeError

/-- The receiver of `pop` with a default is a dict. -/
def asPoppable : JsonTree → Except HookError Fields
  | .dict fields => .ok fields
  | .list _ => .error .typeError
  | _ => .error .attributeError

def asText : JsonTree → Except HookError String
  | .str s => .ok s
  | _ => .error .typeError

section Hooks

variable (t : CharTable)

/-- Membership in a set is decided by the hash of the category. -/
def isDropped : Option JsonTree → Except HookError Bool
  | some (.str category) => .ok (category ∈ dropCategories)
  | some (.list _) | some (.dict _) => .error .typeError
  | _ => .ok false

/-- The loop over the keys of the data -/
def scrubKeys (fields : Fields) : Fields :=
  fields.map fun f => (f.1, if t.isPii f.1 then filtered else f.2)

/-- `crumb.get(key) or ""`, and the like for a dict -/
def orElse (default : JsonTree) (v : Option JsonTree) : JsonTree :=
  match v with
  | some v => if v.truthy then v else default
  | none => default

def beforeBreadcrumb (crumb : Fields) : Except HookError (Option Fields) := do
  if ← isDropped (crumb.lookup "category") then return none
  let data ← asDict (orElse (.dict []) (crumb.lookup "data"))
  let scrubbed := if data.isEmpty then crumb else replace "data" (.dict (scrubKeys t data)) crumb
  let message ← asText (orElse (.str "") (crumb.lookup "message"))
  return some (put "message" (.str (t.hideAddresses "[ip]" message)) scrubbed)

/-- `_scrub_dict` -/
def scrubDict : JsonTree → JsonTree := redact t.isPii filtered

def maskField (env : Fields) (field : String) : Except HookError Fields :=
  match env.lookup field with
  | none => .ok env
  | some v => if v.truthy then do
      let text ← asText v
      return replace field (.str (t.maskIp text)) env
    else .ok env

def scrubExtra (event : Fields) : Fields :=
  match event.lookup "extra" with
  | some extra => replace "extra" (scrubDict t extra) event
  | none => event

def scrubBody (request : Fields) : Fields :=
  match request.lookup "data" with
  | some (.dict fields) => replace "data" (scrubDict t (.dict fields)) request
  | some (.str _) => replace "data" filtered request
  | _ => request

/-- The headers and the environment of a request -/
def stripRequest (request : Fields) : Except HookError Fields := do
  let headers ← asPoppable ((request.lookup "headers").getD (.dict []))
  let headers := sensitiveHeaders.foldl (fun hs header => pop header hs) headers
  let env ← asDict ((request.lookup "env").getD (.dict []))
  let env ← ipFields.foldlM (maskField t) env
  return replace "env" (.dict env) (replace "headers" (.dict headers) request)

def beforeSend (event : Fields) : Except HookError Fields := do
  let request ← asDict ((event.lookup "request").getD (.dict []))
  let request ← stripRequest t request
  return replace "request" (.dict (scrubBody t request)) (scrubExtra t event)

end Hooks

/-! ## What is looked up afterwards -/

section Lookups

variable {t : CharTable} {fields env request : Fields} {k f : String} {v : JsonTree}

theorem lookup_scrubKeys : (scrubKeys t fields).lookup k =
    (fields.lookup k).map fun v => if t.isPii k then filtered else v := by
  induction fields with
  | nil => rfl
  | cons f fields ih =>
    rw [scrubKeys, List.map_cons, lookup_cons_ite, lookup_cons_ite, ← scrubKeys, ih]
    by_cases h : k = f.1
    · rw [if_pos h, if_pos h, h, Option.map_some]
    · rw [if_neg h, if_neg h]

theorem lookup_popAll (headers : List String) :
    (headers.foldl (fun hs header => pop header hs) fields).lookup k =
      if k ∈ headers then none else fields.lookup k := by
  induction headers generalizing fields with
  | nil => simp
  | cons header headers ih =>
    rw [List.foldl_cons, ih, lookup_pop]
    by_cases hk : k = header
    · simp [hk]
    · simp [hk]

/-- What becomes of a field with an address -/
def maskText (t : CharTable) : JsonTree → JsonTree
  | .str s => .str (t.maskIp s)
  | v => v

theorem maskText_of_falsy (h : v.truthy = false) : maskText t v = v := by
  cases v with
  | str s =>
    obtain rfl : s = "" := by simpa [truthy] using h
    rfl
  | _ => rfl

theorem maskField_spec
    (h : ∀ v, env.lookup f = some v → v.truthy = true → ∃ s, v = .str s) :
    ∃ env', maskField t env f = .ok env' ∧ ∀ k, env'.lookup k =
      if k = f then (env.lookup k).map (maskText t) else env.lookup k := by
  unfold maskField
  cases hv : env.lookup f with
  | none =>
    refine ⟨env, rfl, fun k => ?_⟩
    by_cases hk : k = f
    · simp [hk, hv]
    · simp [hk]
  | some v =>
    cases htruthy : v.truthy with
    | false =>
      refine ⟨env, by simp [htruthy], fun k => ?_⟩
      by_cases hk : k = f
      · simp [hk, hv, maskText_of_falsy htruthy]
      · simp [hk]
    | true =>
      obtain ⟨s, rfl⟩ := h v hv htruthy
      refine ⟨replace f (.str (t.maskIp s)) env, by simp [htruthy, asText], fun k => ?_⟩
      rw [lookup_replace]
      by_cases hk : k = f
      · simp [hk, hv, maskText]
      · simp [hk]

theorem maskFields_spec
    (h : ∀ f ∈ ipFields, ∀ v, env.lookup f = some v → v.truthy = true → ∃ s, v = .str s) :
    ∃ env', ipFields.foldlM (maskField t) env = .ok env' ∧ ∀ k, env'.lookup k =
      if k ∈ ipFields then (env.lookup k).map (maskText t) else env.lookup k := by
  obtain ⟨env₁, h₁, hlookup₁⟩ :=
    maskField_spec (t := t) (h "REMOTE_ADDR" (by decide))
  have hforwarded : ∀ v, env₁.lookup "HTTP_X_FORWARDED_FOR" = some v → v.truthy = true →
      ∃ s, v = .str s := by
    intro v hv
    rw [hlookup₁, if_neg (by decide)] at hv
    exact h _ (by decide) v hv
  obtain ⟨env₂, h₂, hlookup₂⟩ := maskField_spec (t := t) hforwarded
  refine ⟨env₂, ?_, fun k => ?_⟩
  · simp [ipFields, h₁, h₂, bind, Except.bind, pure, Except.pure]
  · rw [hlookup₂, hlookup₁]
    by_cases hremote : k = "REMOTE_ADDR"
    · simp [hremote, ipFields]
    · simp [hremote, ipFields]

theorem lookup_scrubExtra : (scrubExtra t fields).lookup k =
    if k = "extra" then (fields.lookup k).map (scrubDict t) else fields.lookup k := by
  unfold scrubExtra
  by_cases hk : k = "extra"
  · subst hk
    cases hextra : fields.lookup "extra" with
    | none => simp [hextra]
    | some v => simp [hextra, lookup_replace]
  · split
    · rw [lookup_replace, if_neg hk, if_neg hk]
    · rw [if_neg hk]

/-- What becomes of the body of a request -/
def scrubData (t : CharTable) : JsonTree → JsonTree
  | .dict fields => scrubDict t (.dict fields)
  | .str _ => filtered
  | v => v

theorem lookup_scrubBody : (scrubBody t request).lookup k =
    if k = "data" then (request.lookup k).map (scrubData t) else request.lookup k := by
  unfold scrubBody
  by_cases hk : k = "data"
  · subst hk
    cases hdata : request.lookup "data" with
    | none => simp [hdata]
    | some v => cases v <;> simp [hdata, lookup_replace, scrubData]
  · split
    · rw [lookup_replace]
      simp [hk]
    · rw [lookup_replace]
      simp [hk]
    · simp [hk]

end Lookups

/-! ## Events -/

section Events

variable {t : CharTable} {event event' request : Fields}

/-- The parts of a request that the hook goes into are dicts, and addresses are texts. -/
structure ShapedRequest (request : Fields) : Prop where
  headers : ∀ v, request.lookup "headers" = some v → ∃ fields, v = .dict fields
  env : ∀ v, request.lookup "env" = some v → ∃ env, v = .dict env ∧
    ∀ f ∈ ipFields, ∀ v, env.lookup f = some v → v.truthy = true → ∃ s, v = .str s

/-- An event as the SDK builds it -/
def ShapedEvent (event : Fields) : Prop :=
  ∀ v, event.lookup "request" = some v → ∃ request, v = .dict request ∧ ShapedRequest request

/-- The leaves of an event that the hook changes on purpose, or may change: what is under the names
of personal data, a body that is a text, headers with secrets, and addresses -/
inductive InEvent (t : CharTable) : List Step → JsonTree → Prop where
  | extra {path : List Step} {leaf : JsonTree} (h : ¬ Clear t.isPii path) :
      InEvent t (.key "extra" :: path) leaf
  | data {path : List Step} {leaf : JsonTree} (h : ¬ Clear t.isPii path) :
      InEvent t (.key "request" :: .key "data" :: path) leaf
  | body {s : String} : InEvent t [.key "request", .key "data"] (.str s)
  | header {header : String} {path : List Step} {leaf : JsonTree}
      (h : t.lower header ∈ sensitiveHeaders.map t.lower) :
      InEvent t (.key "request" :: .key "headers" :: .key header :: path) leaf
  | address {f s : String} (h : f ∈ ipFields) :
      InEvent t [.key "request", .key "env", .key f] (.str s)

/-- What the hook sends for an event -/
structure ScrubbedEvent (t : CharTable) (event event' : Fields) : Prop where
  extra : ∀ path fields k v, (dict event').find (.key "extra" :: path) = some (.dict fields) →
    (k, v) ∈ fields → t.isPii k = true → v = filtered
  data : ∀ body, (dict event).find [.key "request", .key "data"] = some (.dict body) →
    ∀ path fields k v,
      (dict event').find (.key "request" :: .key "data" :: path) = some (.dict fields) →
        (k, v) ∈ fields → t.isPii k = true → v = filtered
  body : ∀ s, (dict event).find [.key "request", .key "data"] = some (.str s) →
    (dict event').find [.key "request", .key "data"] = some filtered
  headers : ∀ header ∈ sensitiveHeaders,
    (dict event').find [.key "request", .key "headers", .key header] = none
  addresses : ∀ f ∈ ipFields, ∀ s,
    (dict event).find [.key "request", .key "env", .key f] = some (.str s) →
      (dict event').find [.key "request", .key "env", .key f] = some (.str (t.maskIp s))
  frame : ∀ path leaf, leaf.Leaf → (dict event).find path = some leaf → ¬ InEvent t path leaf →
    (dict event').find path = some leaf

/-- A field that is a dict before and after, if it is there -/
inductive Inner (R : Fields → Fields → Prop) : Option JsonTree → Option JsonTree → Prop where
  | absent : Inner R none none
  | present {a b : Fields} (h : R a b) : Inner R (some (.dict a)) (some (.dict b))

/-- What becomes of a request -/
structure SentRequest (t : CharTable) (request request' : Fields) : Prop where
  headers : Inner
    (fun a b => ∀ k, b.lookup k = if k ∈ sensitiveHeaders then none else a.lookup k)
    (request.lookup "headers") (request'.lookup "headers")
  env : Inner
    (fun a b => ∀ k, b.lookup k =
      if k ∈ ipFields then (a.lookup k).map (maskText t) else a.lookup k)
    (request.lookup "env") (request'.lookup "env")
  data : request'.lookup "data" = (request.lookup "data").map (scrubData t)
  other : ∀ k, k ≠ "headers" → k ≠ "env" → k ≠ "data" → request'.lookup k = request.lookup k

/-- Replacing a field by what has been computed from it, or from the empty dict -/
theorem inner_replace {R : Fields → Fields → Prop} {v : Option JsonTree} {a b : Fields}
    (h : ∀ j, v = some j → ∃ fields, j = .dict fields) (hget : v.getD (.dict []) = .dict a)
    (hR : R a b) : Inner R v (v.map fun _ => .dict b) := by
  cases v with
  | none => exact .absent
  | some j =>
    obtain ⟨fields, rfl⟩ := h j rfl
    obtain rfl : fields = a := by simpa using hget
    exact .present hR

/-- The dict of a field, or the empty one -/
theorem getD_dict {v : Option JsonTree} (h : ∀ j, v = some j → ∃ fields, j = .dict fields) :
    ∃ fields, v.getD (.dict []) = .dict fields := by
  cases v with
  | none => exact ⟨[], rfl⟩
  | some j => exact h j rfl

/-- What holds of the dict of a field, if it is there, and of the empty one -/
theorem of_getD_dict {P : Fields → Prop} {v : Option JsonTree} {fields : Fields}
    (h : ∀ j, v = some j → ∃ inner, j = .dict inner ∧ P inner) (hempty : P [])
    (hget : v.getD (.dict []) = .dict fields) : P fields := by
  cases v with
  | none =>
    obtain rfl : [] = fields := by simpa using hget
    exact hempty
  | some j =>
    obtain ⟨inner, rfl, hP⟩ := h j rfl
    obtain rfl : inner = fields := by simpa using hget
    exact hP

theorem stripRequest_spec (h : ShapedRequest request) : ∃ request',
    stripRequest t request = .ok request' ∧ SentRequest t request (scrubBody t request') := by
  have hdict : ∀ v, request.lookup "env" = some v → ∃ env, v = .dict env := fun v hv =>
    (h.env v hv).imp fun _ hboth => hboth.1
  obtain ⟨hs, hheaders⟩ := getD_dict h.headers
  obtain ⟨env, henv⟩ := getD_dict hdict
  obtain ⟨env', hmasked, hlookup⟩ :=
    maskFields_spec (t := t) (of_getD_dict h.env (by simp) henv)
  let headers := sensitiveHeaders.foldl (fun hs header => pop header hs) hs
  have hrun : stripRequest t request =
      .ok (replace "env" (.dict env') (replace "headers" (.dict headers) request)) := by
    simp only [stripRequest, hheaders, henv, asPoppable, asDict, bind, Except.bind, hmasked]
    rfl
  refine ⟨_, hrun, ⟨?_, ?_, ?_, fun k hheader hk hdata => ?_⟩⟩
  · simp only [lookup_scrubBody, lookup_replace, reduceIte, String.reduceEq]
    exact inner_replace h.headers hheaders fun k => lookup_popAll sensitiveHeaders
  · simp only [lookup_scrubBody, lookup_replace, reduceIte, String.reduceEq]
    exact inner_replace hdict henv hlookup
  · simp only [lookup_scrubBody, lookup_replace, reduceIte, String.reduceEq]
  · simp only [lookup_scrubBody, lookup_replace, hheader, hk, hdata, reduceIte]

theorem beforeSend_spec (h : ShapedEvent event) : ∃ event', beforeSend t event = .ok event' ∧
    Inner (SentRequest t) (event.lookup "request") (event'.lookup "request") ∧
    event'.lookup "extra" = (event.lookup "extra").map (scrubDict t) ∧
    ∀ k, k ≠ "request" → k ≠ "extra" → event'.lookup k = event.lookup k := by
  have hdict : ∀ v, event.lookup "request" = some v → ∃ request, v = .dict request := fun v hv =>
    (h v hv).imp fun _ hboth => hboth.1
  obtain ⟨request, hrequest⟩ := getD_dict hdict
  obtain ⟨request', hstrip, hsent⟩ :=
    stripRequest_spec (t := t) (of_getD_dict h ⟨by simp, by simp⟩ hrequest)
  have hrun : beforeSend t event =
      .ok (replace "request" (.dict (scrubBody t request')) (scrubExtra t event)) := by
    simp only [beforeSend, hrequest, asDict, bind, Except.bind, hstrip]
    rfl
  refine ⟨_, hrun, ?_, ?_, fun k hk hextra => ?_⟩
  · simp only [lookup_replace, lookup_scrubExtra, reduceIte, String.reduceEq]
    exact inner_replace hdict hrequest hsent
  · simp only [lookup_replace, lookup_scrubExtra, reduceIte, String.reduceEq]
  · simp only [lookup_replace, lookup_scrubExtra, hk, hextra, reduceIte]

theorem Inner.before {R : Fields → Fields → Prop} {x y : Option JsonTree}
    {f : JsonTree → Option JsonTree}
    {j : JsonTree} (h : Inner R x y) (hx : x.bind f = some j) :
    ∃ a b, R a b ∧ f (.dict a) = some j ∧ x = some (.dict a) ∧ y = some (.dict b) := by
  cases h with
  | absent => cases hx
  | present hR => exact ⟨_, _, hR, hx, rfl, rfl⟩

theorem Inner.after {R : Fields → Fields → Prop} {x y : Option JsonTree}
    {f : JsonTree → Option JsonTree}
    {j : JsonTree} (h : Inner R x y) (hy : y.bind f = some j) :
    ∃ a b, R a b ∧ f (.dict b) = some j ∧ x = some (.dict a) ∧ y = some (.dict b) := by
  cases h with
  | absent => cases hy
  | present hR => exact ⟨_, _, hR, hy, rfl, rfl⟩

/-- A leaf of a dict lies below a key. -/
theorem leaf_below {fields : Fields} {path : List Step} {leaf : JsonTree} (hleaf : leaf.Leaf)
    (h : (dict fields).find path = some leaf) :
    ∃ k rest, path = .key k :: rest ∧ (fields.lookup k).bind (find · rest) = some leaf := by
  cases path with
  | nil =>
    obtain rfl : dict fields = leaf := by simpa using h
    exact hleaf.elim
  | cons s rest =>
    cases s with
    | index i => cases h
    | key k => exact ⟨k, rest, rfl, h⟩

theorem find_of_str {path : List Step} {s : String} {leaf : JsonTree}
    (h : (str s).find path = some leaf) : path = [] ∧ leaf = str s := by
  cases path with
  | nil => exact ⟨rfl, by simpa using h.symm⟩
  | cons step rest => cases step <;> cases h

variable {path : List Step} {leaf v : JsonTree}

theorem scrubDict_frame (hleaf : leaf.Leaf) (hclear : Clear t.isPii path)
    (h : v.find path = some leaf) : (scrubDict t v).find path = some leaf := by
  rw [scrubDict, find_redact hclear, h, Option.map_some, redact_leaf hleaf]

theorem scrubData_frame (hleaf : leaf.Leaf) (hclear : Clear t.isPii path)
    (hbody : ∀ s, path = [] → leaf ≠ .str s) (h : v.find path = some leaf) :
    (scrubData t v).find path = some leaf := by
  cases v with
  | dict fields => exact scrubDict_frame hleaf hclear h
  | str s =>
    obtain ⟨hpath, hstr⟩ := find_of_str h
    exact absurd hstr (hbody s hpath)
  | _ => exact h

theorem maskText_frame (htext : ∀ s, path = [] → leaf ≠ .str s) (h : v.find path = some leaf) :
    (maskText t v).find path = some leaf := by
  cases v with
  | str s =>
    obtain ⟨hpath, hstr⟩ := find_of_str h
    exact absurd hstr (htext s hpath)
  | _ => exact h

/-- The leaves of a request that are left as they are -/
theorem SentRequest.frame {request' : Fields} (h : SentRequest t request request')
    (hleaf : leaf.Leaf) (hfind : (dict request).find path = some leaf)
    (hpath : ¬ InEvent t (.key "request" :: path) leaf) :
    (dict request').find path = some leaf := by
  obtain ⟨k, rest, rfl, hk⟩ := leaf_below hleaf hfind
  show (request'.lookup k).bind (find · rest) = some leaf
  by_cases hheaders : k = "headers"
  · subst hheaders
    obtain ⟨a, b, hlookup, hrest, -, hb⟩ := h.headers.before hk
    obtain ⟨header, below, rfl, hheader⟩ := leaf_below hleaf hrest
    have hkeep : header ∉ sensitiveHeaders := fun hmem =>
      hpath (.header (List.mem_map_of_mem hmem))
    rw [hb]
    show (b.lookup header).bind (find · below) = some leaf
    rw [hlookup, if_neg hkeep, hheader]
  by_cases henv : k = "env"
  · subst henv
    obtain ⟨a, b, hlookup, hrest, -, hb⟩ := h.env.before hk
    obtain ⟨f, below, rfl, hf⟩ := leaf_below hleaf hrest
    rw [hb]
    show (b.lookup f).bind (find · below) = some leaf
    rw [hlookup]
    split
    next hmem =>
      obtain ⟨v, hv, hbelow⟩ := Option.bind_eq_some_iff.mp hf
      rw [hv]
      refine maskText_frame (fun s hnil hstr => hpath ?_) hbelow
      rw [hnil, hstr]
      exact .address hmem
    next => exact hf
  by_cases hdata : k = "data"
  · subst hdata
    have hclear : Clear t.isPii rest := by
      by_contra hpii
      exact hpath (.data hpii)
    obtain ⟨v, hv, hbelow⟩ := Option.bind_eq_some_iff.mp hk
    rw [h.data, hv]
    refine scrubData_frame hleaf hclear (fun s hnil hstr => hpath ?_) hbelow
    rw [hnil, hstr]
    exact .body
  · rw [h.other k hheaders henv hdata, hk]

theorem beforeSend_scrubs (h : ShapedEvent event) :
    ∃ event', beforeSend t event = .ok event' ∧ ScrubbedEvent t event event' := by
  obtain ⟨event', hrun, hrequest, hextra, hother⟩ := beforeSend_spec (t := t) h
  refine ⟨event', hrun, ⟨?_, ?_, ?_, ?_, ?_, ?_⟩⟩
  · intro path fields k v hfind hv hk
    replace hfind : (event'.lookup "extra").bind (find · path) = some (.dict fields) := hfind
    rw [hextra] at hfind
    obtain ⟨w, hw, hbelow⟩ := Option.bind_eq_some_iff.mp hfind
    obtain ⟨extra, -, rfl⟩ := Option.map_eq_some_iff.mp hw
    exact marked_of_find_redact hbelow hv hk
  · intro body hbody path fields k v hfind hv hk
    obtain ⟨a, b, hsent, hbelow, hbefore, hafter⟩ := hrequest.after hfind
    replace hbelow : (b.lookup "data").bind (find · path) = some (.dict fields) := hbelow
    obtain ⟨_, _, _, hdata, hbefore', -⟩ := hrequest.before hbody
    obtain rfl : a = _ := by simpa [hbefore] using hbefore'
    replace hdata : (a.lookup "data").bind (find · []) = some (.dict body) := hdata
    obtain ⟨w, hw, hwbody⟩ := Option.bind_eq_some_iff.mp hdata
    obtain rfl : w = .dict body := by simpa using hwbody
    rw [hsent.data, hw] at hbelow
    exact marked_of_find_redact hbelow hv hk
  · intro s hbody
    obtain ⟨a, b, hsent, hdata, -, hafter⟩ := hrequest.before hbody
    replace hdata : (a.lookup "data").bind (find · []) = some (.str s) := hdata
    obtain ⟨w, hw, hwbody⟩ := Option.bind_eq_some_iff.mp hdata
    obtain rfl : w = .str s := by simpa using hwbody
    show (event'.lookup "request").bind (find · [.key "data"]) = some filtered
    rw [hafter]
    show (b.lookup "data").bind (find · []) = some filtered
    rw [hsent.data, hw]
    rfl
  · intro header hheader
    rw [Option.eq_none_iff_forall_ne_some]
    intro v hfind
    obtain ⟨a, b, hsent, hbelow, -, -⟩ := hrequest.after hfind
    obtain ⟨c, d, hlookup, hbelow, -, -⟩ := hsent.headers.after hbelow
    replace hbelow : (d.lookup header).bind (find · []) = some v := hbelow
    rw [hlookup, if_pos hheader] at hbelow
    cases hbelow
  · intro f hf s hfind
    obtain ⟨a, b, hsent, hbelow, -, hafter⟩ := hrequest.before hfind
    obtain ⟨c, d, hlookup, hbelow, -, hafter'⟩ := hsent.env.before hbelow
    replace hbelow : (c.lookup f).bind (find · []) = some (.str s) := hbelow
    obtain ⟨w, hw, hwtext⟩ := Option.bind_eq_some_iff.mp hbelow
    obtain rfl : w = .str s := by simpa using hwtext
    show (event'.lookup "request").bind (find · [.key "env", .key f]) = some (.str (t.maskIp s))
    rw [hafter]
    show (b.lookup "env").bind (find · [.key f]) = some (.str (t.maskIp s))
    rw [hafter']
    show (d.lookup f).bind (find · []) = some (.str (t.maskIp s))
    rw [hlookup, if_pos hf, hw]
    rfl
  · intro path leaf hleaf hfind hpath
    obtain ⟨k, rest, rfl, hk⟩ := leaf_below hleaf hfind
    show (event'.lookup k).bind (find · rest) = some leaf
    by_cases hkextra : k = "extra"
    · subst hkextra
      have hclear : Clear t.isPii rest := by
        by_contra hpii
        exact hpath (.extra hpii)
      obtain ⟨v, hv, hbelow⟩ := Option.bind_eq_some_iff.mp hk
      rw [hextra, hv]
      exact scrubDict_frame hleaf hclear hbelow
    by_cases hkrequest : k = "request"
    · subst hkrequest
      obtain ⟨a, b, hsent, hbelow, -, hafter⟩ := hrequest.before hk
      rw [hafter]
      exact hsent.frame hleaf hbelow hpath
    · rw [hother k hkrequest hkextra, hk]

end Events

/-! ## Breadcrumbs -/

section Breadcrumbs

variable {t : CharTable} {crumb : Fields}

/-- A breadcrumb as the SDK builds it: its category can be hashed, and its data and its message are
a dict and a text unless they are empty. -/
structure ShapedCrumb (crumb : Fields) : Prop where
  category : ∀ v, crumb.lookup "category" = some v → v.Leaf
  data : ∀ v, crumb.lookup "data" = some v → v.truthy = true → ∃ fields, v = .dict fields
  message : ∀ v, crumb.lookup "message" = some v → v.truthy = true → ∃ s, v = .str s

/-- The message, or the empty text -/
def messageText (crumb : Fields) : String :=
  match crumb.lookup "message" with
  | some (.str s) => s
  | _ => ""

/-- Breadcrumbs that are not sent at all -/
def Dropped (crumb : Fields) : Prop :=
  ∃ category ∈ dropCategories, crumb.lookup "category" = some (.str category)

/-- The leaves of a breadcrumb that the hook changes on purpose, or may change -/
inductive InCrumb (t : CharTable) : List Step → JsonTree → Prop where
  | data {path : List Step} {leaf : JsonTree} (h : ¬ Clear t.isPii path) :
      InCrumb t (.key "data" :: path) leaf
  | message {path : List Step} {leaf : JsonTree} : InCrumb t (.key "message" :: path) leaf

/-- What the hook keeps for a breadcrumb -/
structure ScrubbedCrumb (t : CharTable) (crumb crumb' : Fields) : Prop where
  data : ∀ fields k v, (dict crumb').find [.key "data"] = some (.dict fields) → (k, v) ∈ fields →
    t.isPii k = true → v = filtered
  message : (dict crumb').find [.key "message"] =
    some (.str (t.hideAddresses "[ip]" (messageText crumb)))
  frame : ∀ path leaf, leaf.Leaf → (dict crumb).find path = some leaf → ¬ InCrumb t path leaf →
    (dict crumb').find path = some leaf

theorem isDropped_spec (h : ShapedCrumb crumb) :
    isDropped (crumb.lookup "category") = .ok true ∧ Dropped crumb ∨
      isDropped (crumb.lookup "category") = .ok false ∧ ¬ Dropped crumb := by
  unfold Dropped
  cases hv : crumb.lookup "category" with
  | none => exact .inr ⟨rfl, by simp⟩
  | some v =>
    cases v with
    | str category =>
      by_cases hmem : category ∈ dropCategories
      · exact .inl ⟨by simp [isDropped, hmem], category, hmem, rfl⟩
      · right
        refine ⟨by simp [isDropped, hmem], ?_⟩
        rintro ⟨_, hcategory, ⟨⟩⟩
        exact hmem hcategory
    | list _ | dict _ => exact (h.category _ hv).elim
    | _ => exact .inr ⟨rfl, by simp⟩

/-- What becomes of the data -/
def scrubTop (t : CharTable) : JsonTree → JsonTree
  | .dict fields => .dict (scrubKeys t fields)
  | v => v

theorem asText_message (h : ShapedCrumb crumb) :
    asText (orElse (.str "") (crumb.lookup "message")) = .ok (messageText crumb) := by
  unfold orElse messageText
  cases hv : crumb.lookup "message" with
  | none => rfl
  | some v =>
    cases htruthy : v.truthy with
    | true =>
      obtain ⟨s, rfl⟩ := h.message v hv htruthy
      simp [htruthy, asText]
    | false =>
      cases v with
      | str s =>
        obtain rfl : s = "" := by simpa [truthy] using htruthy
        rfl
      | _ => simp [htruthy, asText]

theorem asDict_data (h : ShapedCrumb crumb) : ∃ data,
    asDict (orElse (.dict []) (crumb.lookup "data")) = .ok data ∧
      (if data.isEmpty then crumb else replace "data" (.dict (scrubKeys t data)) crumb).lookup
        "data" = (crumb.lookup "data").map (scrubTop t) := by
  unfold orElse
  cases hv : crumb.lookup "data" with
  | none => exact ⟨[], rfl, by simp [hv]⟩
  | some v =>
    cases htruthy : v.truthy with
    | true =>
      obtain ⟨fields, rfl⟩ := h.data v hv htruthy
      refine ⟨fields, by simp [htruthy, asDict], ?_⟩
      have hfull : fields.isEmpty = false := by simpa [truthy] using htruthy
      simp [hfull, lookup_replace, hv, scrubTop]
    | false =>
      refine ⟨[], by simp [htruthy, asDict], ?_⟩
      have hsame : scrubTop t v = v := by
        cases v with
        | dict fields =>
          obtain rfl : fields = [] := by simpa [truthy] using htruthy
          rfl
        | _ => rfl
      simp [hv, hsame]

theorem scrubTop_frame {path : List Step} {leaf v : JsonTree} (hleaf : leaf.Leaf)
    (hclear : Clear t.isPii path) (h : v.find path = some leaf) :
    (scrubTop t v).find path = some leaf := by
  cases v with
  | dict fields =>
    obtain ⟨k, rest, rfl, hk⟩ := leaf_below hleaf h
    have hkey : t.isPii k = false := hclear (.key k) List.mem_cons_self
    show ((scrubKeys t fields).lookup k).bind (find · rest) = some leaf
    rw [lookup_scrubKeys, hkey]
    simpa using hk
  | _ => exact h

theorem beforeBreadcrumb_scrubs (h : ShapedCrumb crumb) :
    beforeBreadcrumb t crumb = .ok none ∧ Dropped crumb ∨
      ¬ Dropped crumb ∧ ∃ crumb', beforeBreadcrumb t crumb = .ok (some crumb') ∧
        ScrubbedCrumb t crumb crumb' := by
  rcases isDropped_spec h with ⟨hdropped, hmem⟩ | ⟨hkept, hmem⟩
  · left
    refine ⟨?_, hmem⟩
    simp only [beforeBreadcrumb, hdropped, bind, Except.bind]
    rfl
  · right
    refine ⟨hmem, ?_⟩
    obtain ⟨data, hdict, hdata⟩ := asDict_data (t := t) h
    let scrubbed := if data.isEmpty then crumb else replace "data" (.dict (scrubKeys t data)) crumb
    have hother : ∀ k, k ≠ "data" → scrubbed.lookup k = crumb.lookup k := by
      intro k hk
      simp only [scrubbed]
      split
      · rfl
      · rw [lookup_replace, if_neg hk]
    let message := t.hideAddresses "[ip]" (messageText crumb)
    have hrun : beforeBreadcrumb t crumb = .ok (some (put "message" (.str message) scrubbed)) := by
      simp only [beforeBreadcrumb, hkept, hdict, asText_message h, bind, Except.bind]
      rfl
    have hdata' : (put "message" (.str message) scrubbed).lookup "data" =
        (crumb.lookup "data").map (scrubTop t) := by
      rw [lookup_put, if_neg (by decide)]
      exact hdata
    refine ⟨_, hrun, ⟨fun fields k v hfind hv hk => ?_, ?_, fun path leaf hleaf hfind hpath => ?_⟩⟩
    · replace hfind : ((put "message" (.str message) scrubbed).lookup "data").bind (find · []) =
        some (.dict fields) := hfind
      rw [hdata'] at hfind
      obtain ⟨w, hw, hwfields⟩ := Option.bind_eq_some_iff.mp hfind
      obtain rfl : w = .dict fields := by simpa using hwfields
      obtain ⟨u, -, hu⟩ := Option.map_eq_some_iff.mp hw
      cases u with
      | dict inner =>
        simp only [scrubTop, dict.injEq] at hu
        rw [← hu] at hv
        obtain ⟨f, -, hf⟩ := List.mem_map.mp hv
        simp only [Prod.mk.injEq] at hf
        rw [← hf.2, hf.1, if_pos hk]
      | _ => cases hu
    · show ((put "message" (.str message) scrubbed).lookup "message").bind (find · []) = _
      rw [lookup_put, if_pos rfl]
      rfl
    · obtain ⟨k, rest, rfl, hk⟩ := leaf_below hleaf hfind
      show ((put "message" (.str message) scrubbed).lookup k).bind (find · rest) = some leaf
      by_cases hkdata : k = "data"
      · subst hkdata
        have hclear : Clear t.isPii rest := by
          by_contra hpii
          exact hpath (.data hpii)
        obtain ⟨v, hv, hbelow⟩ := Option.bind_eq_some_iff.mp hk
        rw [hdata', hv]
        exact scrubTop_frame hleaf hclear hbelow
      · have hkmessage : k ≠ "message" := by
          rintro rfl
          exact hpath .message
        rw [lookup_put, if_neg hkmessage, hother k hkdata, hk]

/-- Everything that is sent: breadcrumbs of some libraries are dropped, and the others and all
events are scrubbed, where the other leaves stay as they are. -/
theorem reports_scrubbed (t : CharTable) :
    (∀ crumb, ShapedCrumb crumb →
      beforeBreadcrumb t crumb = .ok none ∧ Dropped crumb ∨
        ¬ Dropped crumb ∧ ∃ crumb', beforeBreadcrumb t crumb = .ok (some crumb') ∧
          ScrubbedCrumb t crumb crumb') ∧
    ∀ event, ShapedEvent event →
      ∃ event', beforeSend t event = .ok event' ∧ ScrubbedEvent t event event' :=
  ⟨fun _ => beforeBreadcrumb_scrubs, fun _ => beforeSend_scrubs⟩

end Breadcrumbs

theorem donors_scrubbed : ∃ event', beforeSend ascii
      [("extra", .dict [("donors", .list [.dict [("name", .str "Ana")]])])] = .ok event' ∧
    ScrubbedEvent ascii [("extra", .dict [("donors", .list [.dict [("name", .str "Ana")]])])]
      event' := by
  refine (reports_scrubbed ascii).2 _ fun v hv => ?_
  rw [lookup_cons_ite, if_neg (by decide)] at hv
  cases hv

/-- Leaves that are changed although no name of personal data is above them (an address in a
message, a body that is a text), and what remains: nested data of a breadcrumb, a body that is a
list, a header in another letter case -/
theorem message_and_body_replaced :
    (beforeBreadcrumb ascii [("message", .str "from 192.0.2.7"),
        ("data", .dict [("donor", .dict [("email", .str "a@b.ca")])])]).map (Option.map fun crumb =>
      ((dict crumb).find [.key "message"],
        (dict crumb).find [.key "data", .key "donor", .key "email"])) =
      .ok (some (some (.str "from [ip]"), some (.str "a@b.ca"))) ∧
    (beforeSend ascii [("request", .dict [("data", .str "a=1")])]).map (fun event =>
      (dict event).find [.key "request", .key "data"]) = .ok (some filtered) ∧
    (beforeSend ascii [("request", .dict [("headers", .dict [("cookie", .str "secret")]),
        ("data", .list [.dict [("email", .str "a@b.ca")]])])]).map (fun event =>
      ((dict event).find [.key "request", .key "headers", .key "cookie"],
        (dict event).find [.key "request", .key "data", .index 0, .key "email"])) =
      .ok (some (.str "secret"), some (.str "a@b.ca")) := by
  refine ⟨?_, ?_, ?_⟩ <;> rfl

end Civicos.Core
