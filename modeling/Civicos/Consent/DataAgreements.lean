import Civicos.Consent.Chains
import Civicos.Library.Grouping
import Civicos.Library.Text

/-!
# Consent: bodies of data agreements

A body is read by the fields of the serializer, which name columns, and the columns are rendered
field by field. The linked policy is read from a body and then left out.
-/
namespace Civicos.Consent

open Library Library.Transaction

/-! ## The serializer -/

/-- A value of a request body; what is nested in it is in canonical text, and so is a float. -/
inductive Json where
  | null
  | bool (b : Bool)
  | int (n : ℤ)
  | float (text : String)
  | str (s : String)
  | nested (text : String)
deriving DecidableEq, Repr

/-- The framework's conversions, and whether the database stores a document. -/
structure Platform where
  isUrl : String → Bool
  parseBool : Json → Option Bool
  parseDate : String → Option ℕ
  storesJson : Value → Bool

/-- The classes of fields -/
inductive FieldKind where
  | char (allowBlank : Bool) (maxLength : Option ℕ)
  | url
  | boolean
  | date
  | json
  | policy
deriving DecidableEq, Repr

structure SerializerField where
  name : String
  source : CategoryField
  kind : FieldKind := .char true none
  required : Bool := false
  allowNull : Bool := false
deriving DecidableEq, Repr

namespace DataAgreementSerializer

def slug : SerializerField :=
  { name := "slug", source := .slug, kind := .char false (some 100), required := true }

def policyId : SerializerField :=
  { name := "policy_id", source := .policy, kind := .policy, allowNull := true }

/-- The writable fields -/
def fields : List SerializerField :=
  [slug,
    { name := "version", source := .version, kind := .char true (some 50) },
    { name := "language", source := .language },
    { name := "lifecycle", source := .lifecycle },
    { name := "name_en", source := .nameEn, kind := .char false none, required := true },
    { name := "name_fr", source := .nameFr, kind := .char false none, required := true },
    { name := "purpose", source := .purposeEn, kind := .char false none, required := true },
    { name := "purposeDescription", source := .purposeDescription },
    { name := "purpose_fr", source := .purposeFr, kind := .char false none, required := true },
    { name := "lawfulBasis", source := .lawfulBasis, kind := .char false none, required := true },
    { name := "dataUse", source := .dataUse },
    { name := "dataUsePurpose", source := .dataUsePurpose },
    { name := "dataUsePurposeDescription", source := .dataUsePurposeDescription },
    { name := "dataUsePurposeRestriction", source := .dataUsePurposeRestriction },
    { name := "dataUseActivity", source := .dataUseActivity },
    { name := "dataUsagePolicy", source := .dataUsagePolicy, kind := .url },
    { name := "dpia", source := .dpia, required := true },
    { name := "dpiaDate", source := .dpiaDate, kind := .date, allowNull := true },
    { name := "dpiaEvidenceUrl", source := .dpiaEvidenceUrl, kind := .url },
    { name := "dpiaSummaryUrl", source := .dpiaSummaryUrl, kind := .url },
    { name := "dpiaUrl", source := .dpiaUrl, kind := .url },
    { name := "active", source := .isActive, kind := .boolean },
    { name := "forgettable", source := .forgettable, kind := .boolean },
    policyId,
    { name := "dataControllerName", source := .controllerName },
    { name := "dataControllerUrl", source := .controllerUrl, kind := .url },
    { name := "dataControllerLogoImageUrl", source := .dataControllerLogoImageUrl, kind := .url },
    { name := "attributes", source := .attributes, kind := .json }]

end DataAgreementSerializer

/-- `str.strip` -/
def strip (s : String) : String := String.ofList (Text.strip s.toList)

/-- The text of a value that is a string or a number -/
def Json.text : Json → Option String
  | int n => some (toString n)
  | float t => some t
  | str s => some s
  | _ => none

/-- A value as it is stored in a JSON column -/
def Json.value : Json → Value
  | null => .null
  | bool b => .bool b
  | int n => .int n
  | str s => .str s
  | float t | nested t => .json t

namespace Platform

variable (p : Platform)

/-- `CharField`: blank texts are checked first, and nothing else of them. -/
def convertChar (allowBlank : Bool) (accepts : String → Bool) (v : Json) : Option Value :=
  v.text.bind fun text =>
    if strip text = "" then if allowBlank then some (.str "") else none
    else if Char.ofNat 0 ∈ (strip text).toList ∨ accepts (strip text) = false then none
    else some (.str (strip text))

/-- What a field makes of a value that is not null -/
def convert (s : Store) : FieldKind → Json → Option Value
  | .char allowBlank maxLength, v =>
    convertChar allowBlank (fun text => maxLength.all (text.length ≤ ·)) v
  | .url, v => convertChar true p.isUrl v
  | .boolean, v => (p.parseBool v).map .bool
  | .date, .str text => (p.parseDate text).map fun d => .str (isoDate d)
  | .date, _ => none
  | .json, v => some v.value
  | .policy, v => (s.policies.rows.find? fun policy =>
      policy.value .isActive = .bool true ∧ v = .str (toString policy.pk)).map fun policy =>
        .str (toString policy.pk)

/-- No other agreement has the slug. -/
def isUnique (s : Store) (loaded : Option ConsentCategory) (f : SerializerField) (v : Value) :
    Bool :=
  f.source ≠ .slug || s.categories.rows.all fun c =>
    c.value .slug ≠ v || loaded.any (·.pk = c.pk)

/-- The value of a field that a body carries, once it is accepted -/
def sent (s : Store) (loaded : Option ConsentCategory) (payload : List (String × Json))
    (f : SerializerField) : Option Value :=
  (payload.lookup f.name).bind fun v =>
    if v = .null then if f.allowNull then some .null else none
    else (p.convert s f.kind v).filter (isUnique s loaded f)

/-- Whether a field refuses the body; a request for a loaded agreement is partial. -/
def refuses (s : Store) (loaded : Option ConsentCategory) (payload : List (String × Json))
    (f : SerializerField) : Bool :=
  if (payload.lookup f.name).isSome then (p.sent s loaded payload f).isNone
  else loaded.isNone && f.required

/-- `is_valid` and `validated_data` -/
def validate (s : Store) (loaded : Option ConsentCategory) (payload : List (String × Json)) :
    Option (List (CategoryField × Value)) :=
  if DataAgreementSerializer.fields.any (p.refuses s loaded payload) then none
  else some (DataAgreementSerializer.fields.filterMap fun f =>
    (p.sent s loaded payload f).map fun v => (f.source, v))

end Platform

/-! ## The rendering -/

/-- The linked policy of an agreement -/
def Store.policyOf (s : Store) (category : ConsentCategory) : Option ConsentPolicy :=
  s.policies.rows.find? fun policy => category.value .policy = .str (toString policy.pk)

/-- `get_controller` -/
def ConsentCategory.controller (category : ConsentCategory) : Value :=
  if category.value .controllerName = .str "" then .null
  else .json (dumps [("id", .str (toString category.pk)), ("name", category.value .controllerName),
    ("url", category.value .controllerUrl)])

/-- `DataAgreementSerializer(category).data`; a policy is rendered with the keys of its snapshot. -/
def Store.rendering (s : Store) (category : ConsentCategory) : List (String × Value) :=
  [("id", .str (toString category.pk)),
    ("slug", category.value .slug),
    ("version", category.value .version),
    ("language", category.value .language),
    ("lifecycle", category.value .lifecycle),
    ("name_en", category.value .nameEn),
    ("name_fr", category.value .nameFr),
    ("purpose", category.value .purposeEn),
    ("purposeDescription", category.value .purposeDescription),
    ("purpose_fr", category.value .purposeFr),
    ("lawfulBasis", category.value .lawfulBasis),
    ("dataUse", category.value .dataUse),
    ("dataUsePurpose", category.value .dataUsePurpose),
    ("dataUsePurposeDescription", category.value .dataUsePurposeDescription),
    ("dataUsePurposeRestriction", category.value .dataUsePurposeRestriction),
    ("dataUseActivity", category.value .dataUseActivity),
    ("dataUsagePolicy", category.value .dataUsagePolicy),
    ("dpia", category.value .dpia),
    ("dpiaDate", category.value .dpiaDate),
    ("dpiaEvidenceUrl", category.value .dpiaEvidenceUrl),
    ("dpiaSummaryUrl", category.value .dpiaSummaryUrl),
    ("dpiaUrl", category.value .dpiaUrl),
    ("active", category.value .isActive),
    ("forgettable", category.value .forgettable),
    ("policyId", category.value .policy),
    ("dataRetentionPeriodDays",
      (s.policyOf category).elim .null fun policy => policy.value .dataRetentionPeriodDays),
    ("policy", (s.policyOf category).elim .null fun policy => .json (dumps policy.snapshot)),
    ("dataControllerName", category.value .controllerName),
    ("dataControllerUrl", category.value .controllerUrl),
    ("dataControllerLogoImageUrl", category.value .dataControllerLogoImageUrl),
    ("controller", category.controller),
    ("attributes", category.value .attributes)]

/-- The key under which a writable field is read back -/
def SerializerField.readName (f : SerializerField) : String :=
  if f.name = "policy_id" then "policyId" else f.name

/-! ## The requests -/

/-- `_DA_KEY_ALIASES` -/
def aliases : List (String × String) :=
  [("purpose_en", "purpose"), ("lawful_basis", "lawfulBasis"), ("data_use", "dataUse"),
    ("is_active", "active"), ("controller_name", "dataControllerName"),
    ("controller_url", "dataControllerUrl")]

/-- `_normalize_da_payload` -/
def normalizeDaPayload (payload : List (String × Json)) : List (String × Json) :=
  assignAll (fun e => (aliases.lookup e.1).getD e.1) (fun e => e.2) payload []

/-- `_da_validated_to_model_fields` -/
def daValidatedToModelFields (data : List (CategoryField × Value)) :
    List (CategoryField × Value) :=
  data.filter fun e => e.1 ≠ .policy

/-- `max_length` of the columns; that of a `URLField` is 200. -/
def CategoryField.maxLength : CategoryField → Option ℕ
  | slug => some 100
  | nameEn | nameFr | controllerName | dataUsePurpose => some 255
  | lawfulBasis | dataUse | lifecycle => some 30
  | version => some 50
  | language => some 10
  | controllerUrl | dpiaEvidenceUrl | dpiaSummaryUrl | dpiaUrl | dataControllerLogoImageUrl
  | dataUsagePolicy => some 200
  | _ => none

namespace Platform

variable (p : Platform)

/-- Whether the column takes the value -/
def fits : CategoryField → Value → Bool
  | .attributes, v => p.storesJson v
  | f, .str text => f.maxLength.all (text.length ≤ ·)
  | _, _ => true

def storable (data : List (CategoryField × Value)) : Bool := data.all fun e => p.fits e.1 e.2

def invalid : ConsentError := .validationError none "Invalid input."

/-- `DataError` -/
def tooLong : ConsentError := .ofViolation (.width "consent_consentcategory")

/-- `POST /config/data-agreement/` -/
def post (body : List (String × Json)) (actor : Option ℕ) : Tx Unit := do
  let data ← ask invalid fun s => p.validate s none (normalizeDaPayload body)
  if ¬ p.storable (daValidatedToModelFields data) then throw tooLong
  createDataAgreement (daValidatedToModelFields data) actor

/-- `PUT /config/data-agreement/{id}/` -/
def put (category : ℕ) (body : List (String × Json)) (actor : Option ℕ) : Tx Unit := do
  let loaded ← loadCategory category
  let data ← ask invalid fun s => p.validate s (some loaded) (normalizeDaPayload body)
  if ¬ p.storable (daValidatedToModelFields data) then throw tooLong
  updateDataAgreement loaded (daValidatedToModelFields data) actor

end Platform

/-- `GET /config/data-agreement/{id}/` -/
def Store.readDataAgreement (s : Store) (category : ℕ) : Option (List (String × Value)) :=
  (s.categories.get category).map s.rendering

/-! ## Columns and keys -/

section Fields

open DataAgreementSerializer (fields policyId)

variable {p : Platform} {s : Store} {f : SerializerField} {category : ConsentCategory}

theorem lookup_rendering (hf : f ∈ fields) :
    (s.rendering category).lookup f.readName = some (category.value f.source) := by
  revert f
  simp only [fields, List.forall_mem_cons]
  refine ⟨rfl, rfl, rfl, rfl, rfl, rfl, rfl, rfl, rfl, rfl, rfl, rfl, rfl, rfl, rfl, rfl, rfl, rfl,
    rfl, rfl, rfl, rfl, rfl, rfl, rfl, rfl, rfl, rfl, nofun⟩

theorem sources_nodup : (fields.map (·.source)).Nodup := by decide

theorem eq_policyId (hf : f ∈ fields) : f.source = .policy ↔ f = policyId := by
  revert f
  decide

theorem lookup_validate {loaded : Option ConsentCategory} {payload : List (String × Json)}
    {data : List (CategoryField × Value)} (h : p.validate s loaded payload = some data) :
    (∀ f ∈ fields, p.refuses s loaded payload f = false) ∧
      ∀ f ∈ fields, data.lookup f.source = p.sent s loaded payload f := by
  unfold Platform.validate at h
  split at h
  · cases h
  next haccepted =>
    cases h
    refine ⟨by simpa using haccepted, fun f hf => lookup_filterMap sources_nodup hf⟩

theorem lookup_daValidatedToModelFields (data : List (CategoryField × Value)) (g : CategoryField) :
    (daValidatedToModelFields data).lookup g = if g = .policy then none else data.lookup g := by
  have hfilter := lookup_filter (fun g : CategoryField => decide (g ≠ .policy)) data g
  refine hfilter.trans ?_
  by_cases hg : g = .policy <;> simp [hg]

theorem sent_slug {loaded : Option ConsentCategory} {payload : List (String × Json)} {v : Value}
    (h : p.sent s loaded payload DataAgreementSerializer.slug = some v) :
    ∀ c ∈ s.categories.rows, c.value .slug = v → loaded.any (·.pk = c.pk) = true := by
  obtain ⟨json, -, h⟩ := Option.bind_eq_some_iff.mp h
  split at h
  · cases h
  · have hunique := (Option.filter_eq_some_iff.mp h).2
    intro c hc hslug
    have hall : ∀ c ∈ s.categories.rows,
        c.value .slug ≠ v ∨ loaded.any (·.pk = c.pk) = true := by
      simpa [Platform.isUnique, DataAgreementSerializer.slug] using hunique
    exact (hall c hc).resolve_left (not_not.mpr hslug)

end Fields

/-! ## Writes that succeed -/

section Writes

variable {s : Store} {F : Type} [DecidableEq F] {M : Model F} {loaded : Columns F}
  {data : List (F × Value)} {actor : Option ℕ}

/-- A successor is a revision that has been written. -/
theorem successor_lt (hs : Chained s.revisions.rows) {r : ConsentRevision} {n : ℕ}
    (hr : r ∈ s.revisions.rows) (hn : r.successor = some n) : n < s.revisions.next := by
  have hchain : r ∈ chainOf r.schemaName r.objectId s.revisions.rows :=
    mem_chainOf.mpr ⟨hr, rfl, rfl⟩
  obtain ⟨b, hb, -, hnext, -⟩ :=
    (hs.linked r.schemaName r.objectId).exists_next hchain (by rw [hn]; nofun)
  rw [hn] at hnext
  obtain rfl := Option.some.inj hnext
  exact s.revisions.used b (mem_chainOf.mp hb).1

theorem createFor_returns (hs : Chained s.revisions.rows) {schemaName : SchemaName} {objectId : ℕ}
    {snapshot : List (String × Value)} {authorizedBy : Option ℕ} {authorizedByOther : String} :
    Returns (createFor schemaName objectId snapshot authorizedBy authorizedByOther) s := by
  obtain ⟨T, hT⟩ : ∃ T, s.revisions.insert
      (s.revisionFor schemaName objectId snapshot authorizedBy authorizedByOther) = .ok T := by
    refine (Numbered.insert_returns rfl).mpr ⟨fun c hc => (by cases hc), fun a _ i hi hclash => ?_⟩
    obtain rfl := List.mem_singleton.mp hi
    exact hclash.1 hclash.2
  obtain ⟨hrows, -, -⟩ := Numbered.insert_ok hT rfl
  unfold createFor
  refine returns_get.mpr (returns_bind.mpr ⟨_, _, append_ok.mpr ⟨rfl, T, hT, rfl⟩, ?_⟩)
  cases hprev : s.latestRevision schemaName objectId with
  | none => exact returns_pure
  | some p =>
    obtain ⟨hp, -⟩ := latestOf_mem hprev
    have hget : T.get p.pk = some p :=
      Numbered.get_eq_some.mpr ⟨hrows ▸ List.mem_append_left _ hp, rfl⟩
    obtain ⟨T', hT'⟩ : ∃ T', T.update p.pk (·.withSuccessor s.revisions.next) = .ok T' := by
      refine Numbered.update_returns_of_apart hget (fun c hc => by cases hc) fun a ha hne => ?_
      refine ⟨hne, fun i hi hclash => ?_⟩
      obtain rfl := List.mem_singleton.mp hi
      have hsuccessor : a.successor = some s.revisions.next := hclash.2
      rw [hrows] at ha
      rcases List.mem_append.mp ha with ha | ha
      · exact Nat.lt_irrefl _ (successor_lt hs ha hsuccessor)
      · rw [List.mem_singleton.mp ha] at hsuccessor
        cases hsuccessor
    exact returns_bind.mpr ⟨(), _, updateRow_ok.mpr ⟨T', hT', rfl⟩, returns_pure⟩

omit [DecidableEq F] in
theorem Model.record_returns (hs : Chained s.revisions.rows) {action : AuditAction}
    {row : Columns F} : ∃ t, M.record action row actor s = .ok ((), t) := by
  obtain ⟨⟨rev, t⟩, hrev⟩ : Returns
      (createFor M.schemaName row.pk (M.snapshot row) none (authorOf actor)) s :=
    createFor_returns hs
  exact ⟨_, bind_ok.mpr ⟨rev, t, hrev, writeAudit_ok.mpr rfl⟩⟩

theorem Model.create_returns (actor : Option ℕ) (hs : Chained s.revisions.rows)
    {T : Numbered M.schema}
    (hT : (M.table.get s.config).insert (fun pk => Columns.assign data ⟨pk, M.default⟩) = .ok T) :
    ∃ t, M.create data actor s = .ok ((), t) := by
  have hchained : Chained (M.rows.set T s).revisions.rows := hs
  obtain ⟨t, ht⟩ : ∃ t, M.record M.created
      (Columns.assign data ⟨(M.table.get s.config).next, M.default⟩) actor (M.rows.set T s) =
        .ok ((), t) := Model.record_returns hchained
  exact ⟨_, bind_ok.mpr ⟨_, _, append_ok.mpr ⟨rfl, T, hT, rfl⟩, bind_ok.mpr ⟨(), t, ht, rfl⟩⟩⟩

theorem Model.update_returns (actor : Option ℕ) (hs : Chained s.revisions.rows)
    {T : Numbered M.schema}
    (hT : (M.table.get s.config).update loaded.pk (fun _ => loaded.assign data) = .ok T) :
    ∃ t, M.update loaded data actor s = .ok ((), t) := by
  have hchained : Chained (M.rows.set T s).revisions.rows := hs
  obtain ⟨t, ht⟩ : ∃ t, M.record M.updated (loaded.assign data) actor (M.rows.set T s) =
      .ok ((), t) := Model.record_returns hchained
  exact ⟨_, updateRow_bind.mpr ⟨T, hT, bind_ok.mpr ⟨(), t, ht, rfl⟩⟩⟩

end Writes

/-! ## Round trips -/

section RoundTrips

open DataAgreementSerializer (fields policyId)

variable {p : Platform} {s : Store} {body : List (String × Json)} {actor : Option ℕ}
  {data : List (CategoryField × Value)} {category : ConsentCategory} {k : ℕ}

/-- What a `POST` has sent is read back. -/
def PostReadsBack (p : Platform) (s : Store) (body : List (String × Json)) (actor : Option ℕ) :
    Prop :=
  ∃ t, p.post body actor s = .ok ((), t) ∧
    ∃ view, t.readDataAgreement s.categories.next = some view ∧
      ∀ f ∈ fields, ∀ v ∈ p.sent s none (normalizeDaPayload body) f,
        view.lookup f.readName = some v

/-- What a `PUT` has sent is read back, and what it has not is as it was. -/
def PutReadsBack (p : Platform) (s : Store) (category : ConsentCategory)
    (body : List (String × Json)) (actor : Option ℕ) : Prop :=
  ∃ t, p.put category.pk body actor s = .ok ((), t) ∧
    ∃ view, t.readDataAgreement category.pk = some view ∧
      ∀ f ∈ fields, (∀ v ∈ p.sent s (some category) (normalizeDaPayload body) f,
          view.lookup f.readName = some v) ∧
        ((normalizeDaPayload body).lookup f.name = none →
          view.lookup f.readName = (s.rendering category).lookup f.readName)

/-- The columns take what is sent, and a policy is only sent where it is linked already. -/
structure Sendable (p : Platform) (s : Store) (loaded : Option ConsentCategory)
    (body : List (String × Json)) (data : List (CategoryField × Value)) : Prop where
  storable : p.storable (daValidatedToModelFields data) = true
  policy : ∀ v ∈ p.sent s loaded (normalizeDaPayload body) policyId,
    v = loaded.elim .null fun category => category.value .policy

/-- The columns once a body is assigned to them -/
theorem value_assign (category : ConsentCategory) {loaded : Option ConsentCategory}
    {payload : List (String × Json)}
    {f : SerializerField} (h : p.validate s loaded payload = some data) (hf : f ∈ fields) :
    (category.assign (daValidatedToModelFields data)).value f.source =
      if f.source = .policy then category.value f.source
      else (p.sent s loaded payload f).getD (category.value f.source) := by
  change ((daValidatedToModelFields data).lookup f.source).getD _ = _
  rw [lookup_daValidatedToModelFields, (lookup_validate h).2 f hf]
  split <;> rfl

theorem post_ok {t : Store} (h : p.validate s none (normalizeDaPayload body) = some data)
    (hpost : p.post body actor s = .ok ((), t)) :
    p.storable (daValidatedToModelFields data) = true ∧
      t.categories.get s.categories.next = some (Columns.assign (daValidatedToModelFields data)
        ⟨s.categories.next, ConsentCategory.default⟩) := by
  obtain ⟨data', hdata, hrest⟩ := ask_bind.mp hpost
  obtain rfl := Option.some.inj (h.symm.trans hdata)
  obtain ⟨hstorable, hcreate⟩ := guard_ok hrest
  obtain ⟨row, rfl, -, hconfigured⟩ := Model.create_ok (M := categoryModel) hcreate
  refine ⟨not_not.mp hstorable, Numbered.get_eq_some.mpr ⟨?_, rfl⟩⟩
  have hrows : t.categories.rows = s.categories.rows ++ [_] := hconfigured.rows
  rw [hrows]
  exact List.mem_append_right _ (List.mem_singleton_self _)

theorem put_ok {t : Store} (hcategory : s.categories.get k = some category)
    (h : p.validate s (some category) (normalizeDaPayload body) = some data)
    (hput : p.put k body actor s = .ok ((), t)) :
    p.storable (daValidatedToModelFields data) = true ∧
      t.categories.get k = some (category.assign (daValidatedToModelFields data)) := by
  obtain ⟨loaded, hloaded, hrest⟩ := fetch_bind.mp hput
  obtain rfl := Option.some.inj (hcategory.symm.trans hloaded)
  obtain ⟨data', hdata, hrest⟩ := ask_bind.mp hrest
  obtain rfl := Option.some.inj (h.symm.trans hdata)
  obtain ⟨hstorable, hupdate⟩ := guard_ok hrest
  obtain ⟨-, hconfigured⟩ := Model.update_ok (M := categoryModel) hupdate
  obtain ⟨hmem, hpk⟩ := Numbered.get_eq_some.mp hcategory
  refine ⟨not_not.mp hstorable, Numbered.get_eq_some.mpr ⟨?_, hpk⟩⟩
  have hrows : t.categories.rows = replaced _ s.categories.rows := hconfigured.rows
  rw [hrows]
  exact List.mem_map.mpr ⟨category, hmem, if_pos rfl⟩

/-- The slug of a row that is about to be written is that of no other row. -/
theorem slug_apart {loaded : Option ConsentCategory} {payload : List (String × Json)}
    (h : p.validate s loaded payload = some data) {a : ConsentCategory}
    (ha : a ∈ s.categories.rows) (hother : loaded.any (·.pk = a.pk) = false)
    (hkept : a.value .slug = category.value .slug →
      p.sent s loaded payload DataAgreementSerializer.slug ≠ none) :
    ∀ i ∈ ConsentCategory.schema.indexes,
      ¬ i.Clash a (category.assign (daValidatedToModelFields data)) := by
  intro i hi hclash
  obtain rfl := List.mem_singleton.mp hi
  have hslug : a.value .slug = (category.assign (daValidatedToModelFields data)).value .slug :=
    Option.some.inj hclash.2
  have hvalue := value_assign category h (List.mem_cons_self : _ ∈ fields)
  change _ = (p.sent s loaded payload DataAgreementSerializer.slug).getD _ at hvalue
  rw [hslug] at hkept
  cases hsent : p.sent s loaded payload DataAgreementSerializer.slug with
  | none =>
    rw [hsent] at hvalue
    exact hkept hvalue hsent
  | some v =>
    rw [hsent] at hvalue
    have hclaimed := sent_slug hsent a ha (hslug.trans hvalue)
    rw [hother] at hclaimed
    cases hclaimed

theorem post_returns (actor : Option ℕ) (hs : Chained s.revisions.rows)
    (h : p.validate s none (normalizeDaPayload body) = some data)
    (hstorable : p.storable (daValidatedToModelFields data) = true) :
    ∃ t, p.post body actor s = .ok ((), t) := by
  obtain ⟨T, hT⟩ : ∃ T, s.categories.insert (fun pk =>
      Columns.assign (daValidatedToModelFields data) ⟨pk, ConsentCategory.default⟩) = .ok T := by
    refine (Numbered.insert_returns rfl).mpr ⟨fun c hc => (by cases hc), fun a ha => ?_⟩
    refine slug_apart h ha rfl fun _ hnone => ?_
    have hrequired := (lookup_validate h).1 DataAgreementSerializer.slug (List.mem_cons_self ..)
    unfold Platform.refuses at hrequired
    rw [hnone] at hrequired
    split at hrequired
    · cases hrequired
    · cases hrequired
  obtain ⟨t, ht⟩ := Model.create_returns (M := categoryModel) actor hs hT
  refine ⟨t, ask_bind.mpr ⟨data, h, ?_⟩⟩
  rw [if_neg (not_not.mpr hstorable)]
  exact ht

theorem put_returns (actor : Option ℕ) (hs : Chained s.revisions.rows)
    (hcategory : s.categories.get k = some category)
    (h : p.validate s (some category) (normalizeDaPayload body) = some data)
    (hstorable : p.storable (daValidatedToModelFields data) = true) :
    ∃ t, p.put k body actor s = .ok ((), t) := by
  obtain ⟨hmem, hpk⟩ := Numbered.get_eq_some.mp hcategory
  obtain ⟨T, hT⟩ : ∃ T, s.categories.update category.pk
      (fun _ => category.assign (daValidatedToModelFields data)) = .ok T := by
    refine Numbered.update_returns_of_apart (hpk.symm ▸ hcategory) (fun c hc => by cases hc)
      fun a ha hne => ⟨hne, slug_apart h ha ?_ fun hsame => ?_⟩
    · exact decide_eq_false fun heq : category.pk = a.pk => hne heq.symm
    -- Another row does not have the slug that the agreement has now.
    have happart := Table.apart_of_ne ha hmem fun heq => hne (congrArg Columns.pk heq)
    exact absurd ⟨nofun, congrArg some hsame⟩ (happart.2 _ (List.mem_singleton_self _))
  obtain ⟨t, ht⟩ := Model.update_returns (M := categoryModel) actor hs hT
  refine ⟨t, fetch_bind.mpr ⟨category, hcategory, ask_bind.mpr ⟨data, h, ?_⟩⟩⟩
  rw [if_neg (not_not.mpr hstorable)]
  exact ht

theorem mem_policyId : policyId ∈ fields := by decide

theorem post_reads_back_iff (hs : Chained s.revisions.rows)
    (h : p.validate s none (normalizeDaPayload body) = some data) :
    PostReadsBack p s body actor ↔ Sendable p s none body data := by
  constructor
  · rintro ⟨t, hpost, view, hview, hread⟩
    obtain ⟨hstorable, hget⟩ := post_ok h hpost
    refine ⟨hstorable, fun v hv => ?_⟩
    have hpolicy := hread policyId mem_policyId v hv
    unfold Store.readDataAgreement at hview
    rw [hget] at hview
    cases hview
    rw [lookup_rendering mem_policyId, value_assign _ h mem_policyId] at hpolicy
    exact (Option.some.inj hpolicy).symm
  · rintro ⟨hstorable, hpolicy⟩
    obtain ⟨t, hpost⟩ := post_returns actor hs h hstorable
    obtain ⟨-, hget⟩ := post_ok h hpost
    refine ⟨t, hpost, _, congrArg (Option.map t.rendering) hget, fun f hf v hv => ?_⟩
    rw [lookup_rendering hf, value_assign _ h hf]
    split
    next hsource =>
      obtain rfl := (eq_policyId hf).mp hsource
      exact congrArg some (hpolicy v hv).symm
    next => rw [Option.mem_def.mp hv, Option.getD_some]

theorem put_reads_back_iff (hs : Chained s.revisions.rows)
    (hcategory : s.categories.get category.pk = some category)
    (h : p.validate s (some category) (normalizeDaPayload body) = some data) :
    PutReadsBack p s category body actor ↔ Sendable p s (some category) body data := by
  constructor
  · rintro ⟨t, hput, view, hview, hread⟩
    obtain ⟨hstorable, hget⟩ := put_ok hcategory h hput
    refine ⟨hstorable, fun v hv => ?_⟩
    have hpolicy := (hread policyId mem_policyId).1 v hv
    unfold Store.readDataAgreement at hview
    rw [hget] at hview
    cases hview
    rw [lookup_rendering mem_policyId, value_assign _ h mem_policyId] at hpolicy
    exact (Option.some.inj hpolicy).symm
  · rintro ⟨hstorable, hpolicy⟩
    obtain ⟨t, hput⟩ := put_returns actor hs hcategory h hstorable
    obtain ⟨-, hget⟩ := put_ok hcategory h hput
    refine ⟨t, hput, _, congrArg (Option.map t.rendering) hget, fun f hf => ⟨fun v hv => ?_,
      fun habsent => ?_⟩⟩
    · rw [lookup_rendering hf, value_assign _ h hf]
      split
      next hsource =>
        obtain rfl := (eq_policyId hf).mp hsource
        exact congrArg some (hpolicy v hv).symm
      next => rw [Option.mem_def.mp hv, Option.getD_some]
    · have hnone : p.sent s (some category) (normalizeDaPayload body) f = none := by
        rw [Platform.sent, habsent]
        rfl
      rw [lookup_rendering hf, lookup_rendering hf, value_assign _ h hf, hnone]
      split <;> rfl

/-- In every reachable state, what an accepted body has sent is read back, and what a `PUT` has not
sent is as before, exactly when the columns take it and no other policy is sent than the one that
is linked. -/
theorem agreements_read_back {σ : Pool.State Store Worker} (hσ : consent.machine.Reachable σ)
    (p : Platform) (body : List (String × Json)) (actor : Option ℕ)
    (data : List (CategoryField × Value)) :
    (p.validate σ.store none (normalizeDaPayload body) = some data →
      (PostReadsBack p σ.store body actor ↔ Sendable p σ.store none body data)) ∧
    ∀ category ∈ σ.store.categories.rows,
      p.validate σ.store (some category) (normalizeDaPayload body) = some data →
      (PutReadsBack p σ.store category body actor ↔
        Sendable p σ.store (some category) body data) := by
  have hs := (chains_of_reachable hσ).chained
  refine ⟨post_reads_back_iff hs, fun category hcategory => put_reads_back_iff hs ?_⟩
  exact Numbered.get_eq_some.mpr ⟨hcategory, rfl⟩

end RoundTrips

section Example

private def platform : Platform where
  isUrl s := "https://".toList.isPrefixOf s.toList
  parseBool
    | .bool b => some b
    | _ => none
  parseDate _ := none
  storesJson _ := true

/-- The required fields of a `POST`, and one more -/
private def newsBody (extra : String × Json) : List (String × Json) :=
  [("slug", .str "news"), ("name_en", .str " News "), ("name_fr", .str "Nouvelles"),
    ("purpose_en", .str "Letters"), ("purpose_fr", .str "Lettres"), ("lawfulBasis", .str "consent"),
    ("dpia", .str ""), extra]

private def sentData (s : Store) (loaded : Option ConsentCategory) (body : List (String × Json)) :
    List (CategoryField × Value) :=
  (platform.validate s loaded (normalizeDaPayload body)).getD []

/-- An agreement and a policy -/
private def configured : Pool.State Store Worker := consent.machine.final start
  [.spawn (.calling (.createDataAgreement [(.slug, .str "surveys")] none)), .act 0 (),
    .spawn (.calling (.createPolicy [(.name, .str "Privacy")] none)), .act 1 ()]

theorem news_read_back :
    PostReadsBack platform configured.store (newsBody ("version", .str "2.0")) none ∧
    PutReadsBack platform configured.store (agreement configured) [("dataUse", .str "")] none := by
  have hreachable : consent.machine.Reachable configured := .final start_init _
  obtain ⟨hpost, -⟩ := agreements_read_back hreachable platform (newsBody ("version", .str "2.0"))
    none (sentData configured.store none (newsBody ("version", .str "2.0")))
  obtain ⟨-, hput⟩ := agreements_read_back hreachable platform [("dataUse", .str "")] none
    (sentData configured.store (some (agreement configured)) [("dataUse", .str "")])
  have hget : configured.store.categories.get 1 = some (agreement configured) := rfl
  have hmem := (Numbered.get_eq_some.mp hget).1
  exact ⟨(hpost (by decide +kernel)).mpr ⟨by decide +kernel, by decide +kernel⟩,
    (hput _ hmem (by decide +kernel)).mpr ⟨by decide +kernel, by decide +kernel⟩⟩

/-- A policy that is sent is not linked, and a lawful basis that is too long is not saved. -/
theorem sent_policy_left_out : consent.machine.Reachable configured ∧
    (platform.validate configured.store none
      (normalizeDaPayload (newsBody ("policy_id", .str "1")))).isSome = true ∧
    ¬ PostReadsBack platform configured.store (newsBody ("policy_id", .str "1")) none ∧
    (platform.validate configured.store (some (agreement configured))
      (normalizeDaPayload [("lawfulBasis", .str "legitimate_interests_of_society")])).isSome =
        true ∧
    ¬ PutReadsBack platform configured.store (agreement configured)
      [("lawfulBasis", .str "legitimate_interests_of_society")] none := by
  have hreachable : consent.machine.Reachable configured := .final start_init _
  have hs := (chains_of_reachable hreachable).chained
  have hpost : platform.validate configured.store none
      (normalizeDaPayload (newsBody ("policy_id", .str "1"))) =
        some (sentData configured.store none (newsBody ("policy_id", .str "1"))) := by
    decide +kernel
  have hput : platform.validate configured.store (some (agreement configured))
      (normalizeDaPayload [("lawfulBasis", .str "legitimate_interests_of_society")]) =
        some [(.lawfulBasis, .str "legitimate_interests_of_society")] := by decide +kernel
  refine ⟨hreachable, by rw [hpost]; rfl, fun h => ?_, by rw [hput]; rfl, fun h => ?_⟩
  · have hpolicy := ((post_reads_back_iff hs hpost).mp h).policy
    revert hpolicy
    decide +kernel
  · have hstorable := ((put_reads_back_iff hs rfl hput).mp h).storable
    revert hstorable
    decide +kernel

end Example

end Civicos.Consent
