import KnowledgePlatform.Graph.Canonical
import KnowledgePlatform.Graph.Memory
import KnowledgePlatform.Lib.OrderedMap

/-! Compiled projections of resources, their canonical form and the digest of a generation. -/

namespace KnowledgePlatform.Projection

open List
open Graph (ResourceId SourceId ResourceKind TypedValue OffsetDateTime RetentionMode Qualifiers
  TemporalProjection TypedRelationInstance ProjectionGenerationManifest SearchError)

/-! ## Projections -/

structure DirectoryProjection where
  resourceRef : ResourceId
  resourceVersion : Option Uuid
  kind : ResourceKind
  canonicalName : String
  title : Option String
  aliases : List String

inductive FacetState (α : Type) where
  | known (value : α)
  | unknown
  | notApplicable
  | conflict

inductive AssertionOrigin where
  | authoritative
  | declared
  | curated
  | derived
  | extracted
  | observed
  | inferred
deriving DecidableEq

/-- A value that a source asserts of a facet. -/
structure Assertion where
  assertionId : Option Uuid
  (subjectRef predicate : String)
  value : TypedValue
  sourceRef : String
  origin : AssertionOrigin
  authorityScope : String
  evidenceRefs : List String
  observedAt : OffsetDateTime
  (effectiveFrom effectiveTo : Option OffsetDateTime)
  derivedBy : Option String

structure AuthorityConflict where
  (subjectRef predicate authorityScope : String)
  rank : UInt16
  values : List TypedValue

inductive AuthorityResolution where
  | unresolved
  | resolved (value : TypedValue)
  | conflict (conflict : AuthorityConflict)

structure StructuredProjection where
  resourceRef : ResourceId
  conceptRefs : List String
  highSignalFacets : OrderedMap String (FacetState String)
  typedFacets : OrderedMap String (FacetState TypedValue)
  assertions : List Assertion
  authorityResolutions : OrderedMap String AuthorityResolution

structure AccessProjection where
  resourceRef : ResourceId
  (accessScope sourceAccessModel : Option String)

/-- Everything that is compiled from one resource. -/
structure CompiledResourceProjection where
  manifest : ProjectionGenerationManifest
  retentionMode : RetentionMode
  directory : DirectoryProjection
  structured : StructuredProjection
  temporal : TemporalProjection
  access : AccessProjection
  relations : List TypedRelationInstance

/-- The concepts of a version, and how they are linked. -/
structure SemanticRegistrySnapshot where
  version : String
  concepts : OrderedSet String
  (synonyms isA : OrderedSet (String ×ₗ String))
deriving DecidableEq

/-- The JSON library: the bytes it writes, or the text of its error. -/
structure Serializer where
  typedValue : TypedValue → Except String Bytes
  assertion : Assertion → Except String Bytes
  registry : SemanticRegistrySnapshot → Except String Bytes
  resource : RetentionMode → DirectoryProjection → StructuredProjection → TemporalProjection →
    AccessProjection → List TypedRelationInstance → Except String Bytes

def invalid (message : String) : SearchError := .operationFailed message

/-- An error of the JSON library, after what failed. -/
def serialized {α : Type} (what : String) (result : Except String α) : Except SearchError α :=
  result.mapError fun error => invalid (what ++ " serialization failed: " ++ error)

/-! ## Canonical form -/

section

variable (json : Serializer)

/-- Values by their serialized form. -/
def sortTypedValues (values : List TypedValue) : Except SearchError (List TypedValue) :=
  keySort (fun value => serialized "typed value" (json.typedValue value)) values

mutual

/-- Sets are sorted, at every depth. -/
def canonicalTypedValue : TypedValue → Except SearchError TypedValue
  | .list values => do
    let members ← canonicalTypedValues values
    return .list members
  | .set values => do
    let members ← canonicalTypedValues values
    let sorted ← sortTypedValues json members
    return .set sorted
  | value => .ok value

def canonicalTypedValues : List TypedValue → Except SearchError (List TypedValue)
  | [] => .ok []
  | value :: values => do
    let first ← canonicalTypedValue value
    let rest ← canonicalTypedValues values
    return first :: rest

end

def canonicalRelation (r : TypedRelationInstance) : Except SearchError TypedRelationInstance := do
  let qualifiers ← r.qualifiers.mapM (canonicalTypedValue json)
  return { r with
    participants := sortOn (fun p => p.key) r.participants
    evidenceRefs := sortOn id r.evidenceRefs
    qualifiers }

def canonicalFacet : FacetState TypedValue → Except SearchError (FacetState TypedValue)
  | .known value => do
    let value ← canonicalTypedValue json value
    return .known value
  | state => .ok state

def canonicalAssertion (a : Assertion) : Except SearchError Assertion := do
  let value ← canonicalTypedValue json a.value
  return { a with value, evidenceRefs := sortOn id a.evidenceRefs }

def canonicalAssertions (assertions : List Assertion) : Except SearchError (List Assertion) := do
  let members ← assertions.mapM (canonicalAssertion json)
  keySort (fun a => serialized "assertion" (json.assertion a)) members

def canonicalResolution : AuthorityResolution → Except SearchError AuthorityResolution
  | .resolved value => do
    let value ← canonicalTypedValue json value
    return .resolved value
  | .conflict conflict => do
    let members ← canonicalTypedValues json conflict.values
    let values ← sortTypedValues json members
    return .conflict { conflict with values }
  | .unresolved => .ok .unresolved

def canonicalStructured (p : StructuredProjection) : Except SearchError StructuredProjection := do
  let typedFacets ← p.typedFacets.mapM (canonicalFacet json)
  let assertions ← canonicalAssertions json p.assertions
  let authorityResolutions ← p.authorityResolutions.mapM (canonicalResolution json)
  return { p with
    conceptRefs := sortOn id p.conceptRefs
    typedFacets
    assertions
    authorityResolutions }

def canonicalRelations (relations : List TypedRelationInstance) :
    Except SearchError (List TypedRelationInstance) := do
  let members ← relations.mapM (canonicalRelation json)
  return sortOn (fun r => r.relationId) members

/-- The form in which a projection is stored and digested. -/
def canonicalProjection (p : CompiledResourceProjection) :
    Except SearchError CompiledResourceProjection := do
  let structured ← canonicalStructured json p.structured
  let relations ← canonicalRelations json p.relations
  return { p with
    directory := { p.directory with aliases := sortOn id p.directory.aliases }
    structured
    relations }

end

/-! ### A second time -/

section

variable {json : Serializer}

/-- Values that the canonical form leaves as they are. -/
def Settled (json : Serializer) (value : TypedValue) : Prop :=
  canonicalTypedValue json value = .ok value

theorem canonicalTypedValues_eq (values : List TypedValue) :
    canonicalTypedValues json values = values.mapM (canonicalTypedValue json) := by
  induction values with
  | nil => rfl
  | cons value _ ih => rw [canonicalTypedValues, ih, mapM_cons]

/-- Members whose canonical forms are settled, and the order that the sort gives them. -/
theorem sortTypedValues_settled {values members sorted : List TypedValue}
    (again : ∀ value ∈ values, ∀ result, canonicalTypedValue json value = .ok result →
      Settled json result)
    (done : canonicalTypedValues json values = .ok members)
    (h : sortTypedValues json members = .ok sorted) :
    canonicalTypedValues json sorted = .ok sorted ∧ sortTypedValues json sorted = .ok sorted := by
  rw [canonicalTypedValues_eq] at done ⊢
  exact ⟨mapM_settled again done (keySort_perm h), keySort_again h⟩

theorem canonicalTypedValue_again (value : TypedValue) :
    ∀ result, canonicalTypedValue json value = .ok result → Settled json result := by
  induction value using TypedValue.induction with
  | step value ih =>
    intro result h
    cases value with
    | list values =>
      simp only [canonicalTypedValue, except_iffs, canonicalTypedValues_eq] at h
      obtain ⟨members, done, rfl⟩ := h
      rw [Settled, canonicalTypedValue, canonicalTypedValues_eq, mapM_settled ih done (.refl _)]
      rfl
    | set values =>
      simp only [canonicalTypedValue, except_iffs] at h
      obtain ⟨members, done, sorted, order, rfl⟩ := h
      obtain ⟨kept, again⟩ := sortTypedValues_settled ih done order
      rw [Settled, canonicalTypedValue, kept, except_ok_bind, again]
      rfl
    | _ =>
      rw [canonicalTypedValue] at h <;> first | (cases h; rfl) | nofun

theorem canonicalRelation_again (r r' : TypedRelationInstance)
    (h : canonicalRelation json r = .ok r') : canonicalRelation json r' = .ok r' := by
  simp only [canonicalRelation, except_iffs] at h
  obtain ⟨qualifiers, done, rfl⟩ := h
  rw [canonicalRelation, OrderedMap.mapM_again canonicalTypedValue_again done]
  simp only [sortOn_sortOn]
  rfl

theorem canonicalFacet_again (state state' : FacetState TypedValue)
    (h : canonicalFacet json state = .ok state') : canonicalFacet json state' = .ok state' := by
  cases state with
  | known value =>
    simp only [canonicalFacet, except_iffs] at h
    obtain ⟨result, done, rfl⟩ := h
    rw [canonicalFacet, canonicalTypedValue_again value result done]
    rfl
  | unknown | notApplicable | conflict => cases h; rfl

theorem canonicalAssertion_again (a a' : Assertion) (h : canonicalAssertion json a = .ok a') :
    canonicalAssertion json a' = .ok a' := by
  simp only [canonicalAssertion, except_iffs] at h
  obtain ⟨value, done, rfl⟩ := h
  rw [canonicalAssertion, canonicalTypedValue_again _ value done]
  simp only [sortOn_sortOn]
  rfl

theorem canonicalAssertions_again {l l' : List Assertion}
    (h : canonicalAssertions json l = .ok l') :
    canonicalAssertions json l' = .ok l' := by
  simp only [canonicalAssertions, except_bind_iff] at h
  obtain ⟨members, done, sorted⟩ := h
  rw [canonicalAssertions, mapM_settled (fun a _ => canonicalAssertion_again a) done
    (keySort_perm sorted)]
  exact keySort_again sorted

theorem canonicalRelations_again {l l' : List TypedRelationInstance}
    (h : canonicalRelations json l = .ok l') : canonicalRelations json l' = .ok l' := by
  simp only [canonicalRelations, except_iffs] at h
  obtain ⟨members, done, rfl⟩ := h
  rw [canonicalRelations, mapM_settled (fun r _ => canonicalRelation_again r) done
    (sortOn_perm _ members)]
  simp only [except_ok_bind, sortOn_sortOn]
  rfl

theorem canonicalResolution_again (a a' : AuthorityResolution)
    (h : canonicalResolution json a = .ok a') : canonicalResolution json a' = .ok a' := by
  cases a with
  | unresolved => cases h; rfl
  | resolved value =>
    simp only [canonicalResolution, except_iffs] at h
    obtain ⟨result, done, rfl⟩ := h
    rw [canonicalResolution, canonicalTypedValue_again value result done]
    rfl
  | conflict =>
    simp only [canonicalResolution, except_iffs] at h
    obtain ⟨members, done, sorted, order, rfl⟩ := h
    obtain ⟨kept, again⟩ := sortTypedValues_settled
      (fun value _ => canonicalTypedValue_again value) done order
    rw [canonicalResolution, kept, except_ok_bind, again]
    rfl

theorem canonicalStructured_again {p p' : StructuredProjection}
    (h : canonicalStructured json p = .ok p') : canonicalStructured json p' = .ok p' := by
  simp only [canonicalStructured, except_iffs] at h
  obtain ⟨facets, facetsDone, assertions, assertionsDone, resolutions, resolutionsDone, rfl⟩ := h
  rw [canonicalStructured, OrderedMap.mapM_again canonicalFacet_again facetsDone, except_ok_bind,
    canonicalAssertions_again assertionsDone, except_ok_bind,
    OrderedMap.mapM_again canonicalResolution_again resolutionsDone]
  simp only [except_ok_bind, sortOn_sortOn]
  rfl

/-- What the canonical form leaves as it is. -/
def IsCanonical (json : Serializer) (p : CompiledResourceProjection) : Prop :=
  canonicalProjection json p = .ok p

theorem canonicalProjection_again {p p' : CompiledResourceProjection}
    (h : canonicalProjection json p = .ok p') : IsCanonical json p' := by
  simp only [canonicalProjection, except_iffs] at h
  obtain ⟨structured, structuredDone, relations, relationsDone, rfl⟩ := h
  rw [IsCanonical, canonicalProjection, canonicalStructured_again structuredDone, except_ok_bind,
    canonicalRelations_again relationsDone]
  simp only [except_ok_bind, sortOn_sortOn]
  rfl

/-- The manifest has no part in the canonical form. -/
theorem IsCanonical.stamped {p : CompiledResourceProjection} (h : IsCanonical json p)
    (manifest : ProjectionGenerationManifest) : IsCanonical json { p with manifest } := by
  rw [IsCanonical] at h ⊢
  simp only [canonicalProjection, except_iffs] at h ⊢
  obtain ⟨structured, structuredDone, relations, relationsDone, same⟩ := h
  refine ⟨structured, structuredDone, relations, relationsDone, ?_⟩
  rw [CompiledResourceProjection.mk.injEq] at same ⊢
  exact ⟨rfl, same.2⟩

end

/-! ## Registries and digests -/

/-- An undirected edge, the smaller end first. -/
def undirected (edge : String ×ₗ String) : String ×ₗ String :=
  if (ofLex edge).1 ≤ (ofLex edge).2 then edge else toLex ((ofLex edge).2, (ofLex edge).1)

/-- Synonyms are written in one direction. -/
def canonicalRegistry (registry : SemanticRegistrySnapshot) : SemanticRegistrySnapshot :=
  { registry with synonyms := .ofList (registry.synonyms.items.map undirected) }

/-- Nothing is unnamed, and links are between known concepts. -/
def validateRegistry (registry : SemanticRegistrySnapshot) : Except SearchError Unit := do
  ensure (registry.version ≠ "" ∧ "" ∉ registry.concepts)
    (invalid "semantic registry contains an empty version or concept")
  (registry.synonyms.items ++ registry.isA.items).forM fun edge =>
    ensure ((ofLex edge).1 ∈ registry.concepts ∧ (ofLex edge).2 ∈ registry.concepts)
      (invalid "semantic edge refers to an unknown concept")

theorem undirected_undirected (edge : String ×ₗ String) :
    undirected (undirected edge) = undirected edge := by
  unfold undirected
  by_cases first : (ofLex edge).1 ≤ (ofLex edge).2
  · rw [if_pos first, if_pos first]
  · have second : (ofLex edge).2 ≤ (ofLex edge).1 := le_of_not_ge first
    rw [if_neg first]
    exact if_pos second

theorem canonicalRegistry_again (registry : SemanticRegistrySnapshot) :
    canonicalRegistry (canonicalRegistry registry) = canonicalRegistry registry := by
  have edges : ∀ edge ∈ Keyed.ofList id (registry.synonyms.items.map undirected),
      undirected edge = edge := by
    intro edge there
    obtain ⟨old, -, rfl⟩ := mem_map.mp (Keyed.mem_ofList_id.mp there)
    exact undirected_undirected old
  have items : (Keyed.ofList id (registry.synonyms.items.map undirected)).map undirected =
      Keyed.ofList id (registry.synonyms.items.map undirected) :=
    (map_congr_left edges).trans (map_id _)
  have ordered : Keyed.Ordered id (Keyed.ofList id (registry.synonyms.items.map undirected)) :=
    .ofList _
  have same : OrderedSet.ofList ((Keyed.ofList id (registry.synonyms.items.map undirected)).map
      undirected) = .ofList (registry.synonyms.items.map undirected) := by
    rw [items]
    simp only [OrderedSet.ofList, ordered.ofList_eq]
  unfold canonicalRegistry
  rw [show (OrderedSet.ofList (registry.synonyms.items.map undirected)).items =
    Keyed.ofList id (registry.synonyms.items.map undirected) from rfl, same]

section

variable (json : Serializer) (sha256 : Bytes → Digest)

/-- The resources by id, each in its canonical form. -/
def addCanonical (source : SourceId) (byId : OrderedMap ResourceId CompiledResourceProjection)
    (p : CompiledResourceProjection) :
    Except SearchError (OrderedMap ResourceId CompiledResourceProjection) := do
  ensure (p.manifest.sourceId = source) (invalid "projection source does not match digest source")
  let p ← canonicalProjection json p
  ensure ((byId.get p.directory.resourceRef).isNone = true)
    (invalid "duplicate resource in projection digest")
  return byId.insert p.directory.resourceRef p

def resourceFrame (entry : ResourceId × CompiledResourceProjection) : Except SearchError Bytes := do
  let p := entry.2
  let bytes ← serialized "projection"
    (json.resource p.retentionMode p.directory p.structured p.temporal p.access p.relations)
  return entry.1.bytes ++ framed bytes

/-- The manifest embedded in the resources has no part in the digest. -/
def generationDigest (source : SourceId) (resources : List CompiledResourceProjection)
    (registry : SemanticRegistrySnapshot) : Except SearchError String := do
  validateRegistry registry
  let byId ← resources.foldlM (addCanonical json source) .empty
  let registryBytes ← serialized "semantic registry" (json.registry (canonicalRegistry registry))
  let frames ← byId.entries.mapM (resourceFrame json)
  let input := utf8 "search-projection-memory:v1\n".toList ++ source.bytes ++
    framed registryBytes ++ frames.flatten
  return "sha256:" ++ (sha256 input).hex

end

end KnowledgePlatform.Projection
