import KnowledgePlatform.Projection.Canonical
import KnowledgePlatform.Search.Predicate
import KnowledgePlatform.Lib.Avoids

/-! The in-memory projection store: generations of a source, staged, validated and published. -/

namespace KnowledgePlatform.Projection

open List
open Graph (ResourceId SourceId ProjectionGenerationId ProjectionGenerationKey ResourceKind
  RetentionMode Qualifiers TypedRelationInstance TypedValue ProjectionGenerationManifest SearchError
  FederatedCandidate)
open Search (TruthValue FactSet ConceptResolver)
open Relation (ReflTransGen)

/-! ## State -/

inductive Phase where
  | building
  | validated
  | current
  | retired
  | failed
deriving DecidableEq

def Phase.isPublished : Phase → Bool
  | current | retired => true
  | _ => false

structure Segment where
  manifest : ProjectionGenerationManifest
  phase : Phase
  resources : OrderedMap ResourceId CompiledResourceProjection
  registry : Option SemanticRegistrySnapshot
  (stagedIds retiredIds : OrderedSet ResourceId)

structure SourceState where
  generations : OrderedMap ProjectionGenerationId Segment
  current : Option ProjectionGenerationId

def SourceState.default : SourceState := ⟨.empty, none⟩

structure State where
  sources : OrderedMap SourceId SourceState

def State.empty : State := ⟨.empty⟩

namespace State

def segment (s : State) (key : ProjectionGenerationKey) : Option Segment :=
  (s.sources.get key.sourceId).bind fun source => source.generations.get key.generationId

def current (s : State) (source : SourceId) : Option ProjectionGenerationId :=
  (s.sources.get source).bind SourceState.current

/-- Puts a source's state back. -/
def withSource (s : State) (id : SourceId) (source : SourceState) : State :=
  ⟨s.sources.insert id source⟩

def setSegment (s : State) (key : ProjectionGenerationKey) (source : SourceState)
    (segment : Segment) : State :=
  s.withSource key.sourceId
    { source with generations := source.generations.insert key.generationId segment }

def published (s : State) (key : ProjectionGenerationKey) : Except SearchError Segment := do
  let segment ← okOr (s.segment key) (invalid "unknown projection generation")
  ensure (segment.phase.isPublished = true) (invalid "projection generation is not published")
  return segment

end State

/-- What a call answers, and the state it leaves. -/
abbrev Outcome (α : Type) : Type := Except SearchError α × State

/-! ## Validation -/

def baseCompatible (base next : ProjectionGenerationManifest) : Bool :=
  base.sourceId = next.sourceId && base.projectionSchemaVersion = next.projectionSchemaVersion &&
    base.lensVersion = next.lensVersion &&
    base.semanticRegistryVersion = next.semanticRegistryVersion &&
    base.analyzerVersion = next.analyzerVersion &&
    base.embeddingModelVersion = next.embeddingModelVersion &&
    base.graphSchemaVersion = next.graphSchemaVersion && base.coverage = next.coverage

section

variable (json : Serializer) (sha256 : Bytes → Digest)

/-- The relations of one resource, and those of all resources so far. -/
structure Relations where
  localIds : OrderedSet Graph.RelationId
  all : OrderedMap Graph.RelationId TypedRelationInstance

/-- A relation seen before must be the same one. -/
def agrees (seen : Option TypedRelationInstance) (r : TypedRelationInstance) :
    Except SearchError Unit :=
  match seen with
  | none => .ok ()
  | some existing => do
    let old ← canonicalRelation json existing
    let new ← canonicalRelation json r
    ensure (old.same new = true) (invalid "relation ID has conflicting definitions")

def checkRelation (retired : OrderedSet ResourceId) (id : ResourceId) (seen : Relations)
    (r : TypedRelationInstance) : Except SearchError Relations := do
  ensure (r.participants.all (fun p => decide (p.resourceRef ∉ retired)) = true)
    (invalid "projection relation references retired resource")
  ensure (r.validate.isOk = true ∧ r.participants.any (fun p => p.resourceRef = id) = true ∧
      r.relationId ∉ seen.localIds)
    (invalid "invalid or duplicate projection relation")
  agrees json (seen.all.get r.relationId) r
  return ⟨seen.localIds.insert r.relationId, seen.all.insert r.relationId r⟩

def checkResource (retired : OrderedSet ResourceId) (manifest : ProjectionGenerationManifest)
    (all : OrderedMap Graph.RelationId TypedRelationInstance)
    (entry : ResourceId × CompiledResourceProjection) :
    Except SearchError (OrderedMap Graph.RelationId TypedRelationInstance) := do
  let p := entry.2
  ensure (p.manifest.same manifest = true ∧ p.directory.resourceRef = entry.1 ∧
      p.structured.resourceRef = entry.1 ∧ p.temporal.resourceRef = entry.1 ∧
      p.access.resourceRef = entry.1)
    (invalid "projection resource identity or manifest mismatch")
  ensure (p.retentionMode.isPersistent = true)
    (invalid "projection retention mode forbids persistent state")
  let seen ← p.relations.foldlM (checkRelation json retired entry.1) ⟨.empty, all⟩
  return seen.all

def validateSegment (segment : Segment) : Except SearchError Unit := do
  ensure (segment.resources.size = segment.manifest.resourceCount)
    (invalid "projection resource count does not match manifest")
  let registry ← okOr segment.registry (invalid "semantic registry was not staged")
  validateRegistry registry
  ensure (registry.version = segment.manifest.semanticRegistryVersion)
    (invalid "semantic registry version does not match manifest")
  let all ← segment.resources.entries.foldlM
    (checkResource json segment.retiredIds segment.manifest) .empty
  ensure ((segment.manifest.relationCount.all fun count => decide (count = all.size)) = true)
    (invalid "projection relation count does not match manifest")
  let digest ← generationDigest json sha256 segment.manifest.sourceId segment.resources.values
    registry
  ensure (digest = segment.manifest.digest) (invalid "projection digest does not match manifest")

end

/-! ## Calls -/

/-- A projection whose retention mode admits persistent state. -/
structure PersistableResourceProjection where
  projection : CompiledResourceProjection
  persistent : projection.retentionMode.isPersistent = true

section

variable (json : Serializer) (sha256 : Bytes → Digest) (s : State) (key : ProjectionGenerationKey)

def beginGeneration (manifest : ProjectionGenerationManifest) : Outcome Unit :=
  let source := (s.sources.get manifest.sourceId).getD .default
  if source.generations.contains manifest.generationId then
    (.error (invalid "projection generation already exists"), s.withSource manifest.sourceId source)
  else
    (.ok (), s.setSegment manifest.key source ⟨manifest, .building, .empty, none, .empty, .empty⟩)

/-- The base's resources without the retired ones, under the new manifest. -/
def carried (base : Segment) (manifest : ProjectionGenerationManifest)
    (retired : OrderedSet ResourceId) : OrderedMap ResourceId CompiledResourceProjection :=
  (base.resources.filter fun id _ => decide (id ∉ retired)).map fun _ p => { p with manifest }

def incrementalSegment (source : SourceState) (manifest : ProjectionGenerationManifest)
    (base : ProjectionGenerationKey) (retired : OrderedSet ResourceId) :
    Except SearchError Segment := do
  ensure (source.generations.contains manifest.generationId = false)
    (invalid "projection generation already exists")
  let baseSegment ← okOr (source.generations.get base.generationId)
    (invalid "incremental base generation is unknown")
  ensure (baseSegment.phase.isPublished = true ∧
    baseCompatible baseSegment.manifest manifest = true)
    (invalid "incremental base is not published or version-compatible")
  ensure (retired.items.all (baseSegment.resources.contains ·) = true)
    (invalid "retired resource is absent from incremental base")
  return ⟨manifest, .building, carried baseSegment manifest retired, baseSegment.registry, .empty,
    retired⟩

def beginIncrementalGeneration (manifest : ProjectionGenerationManifest)
    (base : ProjectionGenerationKey) (retired : OrderedSet ResourceId) : Outcome Unit :=
  if base.sourceId ≠ manifest.sourceId then
    (.error (invalid "incremental base belongs to another source"), s)
  else
    match s.sources.get manifest.sourceId with
    | none => (.error (invalid "incremental base source is unknown"), s)
    | some source =>
      match incrementalSegment source manifest base retired with
      | .ok segment => (.ok (), s.setSegment manifest.key source segment)
      | .error e => (.error e, s)

/-- The segment with one more resource. -/
def stage (segment : Segment) (p : CompiledResourceProjection) : Except SearchError Segment := do
  let id := p.directory.resourceRef
  ensure (segment.phase = .building) (invalid "generation staging is frozen")
  ensure (p.manifest.same segment.manifest = true) (invalid "projection manifest mismatch")
  ensure (id ∉ segment.retiredIds) (invalid "retired resource cannot be restaged")
  ensure (p.structured.resourceRef = id ∧ p.temporal.resourceRef = id ∧ p.access.resourceRef = id)
    (invalid "projection resource identity mismatch")
  ensure (p.retentionMode.isPersistent = true)
    (invalid "projection retention mode forbids persistent state")
  ensure (id ∉ segment.stagedIds) (invalid "resource was staged twice")
  return { segment with
    stagedIds := segment.stagedIds.insert id
    resources := segment.resources.insert id p }

/-- Applies a change to one generation, or leaves everything as it is. -/
def changeSegment (unknown : SearchError)
    (change : SourceState → Segment → Except SearchError Segment) : Outcome Unit :=
  match s.sources.get key.sourceId with
  | none => (.error unknown, s)
  | some source =>
    match source.generations.get key.generationId with
    | none => (.error (invalid "unknown projection generation"), s)
    | some segment =>
      match change source segment with
      | .ok changed => (.ok (), s.setSegment key source changed)
      | .error e => (.error e, s)

def stageResource (input : PersistableResourceProjection) : Outcome Unit :=
  match canonicalProjection json input.projection with
  | .error e => (.error e, s)
  | .ok p =>
    changeSegment s p.manifest.key (invalid "unknown projection generation") fun _ segment =>
      stage segment p

/-- The segment with its registry; another generation may not have the version for other
contents. -/
def stageRegistry (registry : SemanticRegistrySnapshot) (source : SourceState) (segment : Segment) :
    Except SearchError Segment := do
  ensure (segment.phase = .building) (invalid "generation staging is frozen")
  ensure (registry.version = segment.manifest.semanticRegistryVersion)
    (invalid "semantic registry version mismatch")
  ensure (segment.registry.isNone = true) (invalid "semantic registry already staged or inherited")
  ensure ((source.generations.values.any fun existing => decide (existing.phase ≠ .failed) &&
      existing.registry.any fun staged =>
        decide (staged.version = registry.version ∧ staged ≠ registry)) = false)
    (invalid "semantic registry version has different contents")
  return { segment with registry := some registry }

def stageConceptRegistry (registry : SemanticRegistrySnapshot) : Outcome Unit :=
  match validateRegistry registry with
  | .error e => (.error e, s)
  | .ok () =>
    changeSegment s key (invalid "unknown projection source")
      (stageRegistry (canonicalRegistry registry))

/-- A generation that does not pass has failed. -/
def validateGeneration : Outcome Unit :=
  match s.sources.get key.sourceId with
  | none => (.error (invalid "unknown projection generation"), s)
  | some source =>
    match source.generations.get key.generationId with
    | none => (.error (invalid "unknown projection generation"), s)
    | some segment =>
      if segment.phase ≠ .building then
        (.error (invalid "only building generations can be validated"), s)
      else
        match validateSegment json sha256 segment with
        | .ok () => (.ok (), s.setSegment key source { segment with phase := .validated })
        | .error e => (.error e, s.setSegment key source { segment with phase := .failed })

/-- `get_mut` and `expect`: without the generation the thread panics. -/
def setPhase (source : SourceState) (id : ProjectionGenerationId) (phase : Phase) :
    Except SearchError SourceState := do
  let segment ← okOr (source.generations.get id) .panicked
  return { source with generations := source.generations.insert id { segment with phase } }

/-- Retires the current generation, if there is one. -/
def retirePrevious (source : SourceState) : Except SearchError SourceState :=
  match source.current with
  | some previous => setPhase source previous .retired
  | none => .ok source

def publish (source : SourceState) (id : ProjectionGenerationId) :
    Except SearchError SourceState := do
  ensure ((source.generations.get id).map Segment.phase = some .validated)
    (invalid "generation is not validated")
  let retired ← retirePrevious source
  let published ← setPhase retired id .current
  return { published with current := some id }

def publishGeneration : Outcome Unit :=
  match s.sources.get key.sourceId with
  | none => (.error (invalid "unknown projection source"), s)
  | some source =>
    match publish source key.generationId with
    | .ok published => (.ok (), s.withSource key.sourceId published)
    | .error e => (.error e, s)

def publishGenerationIfCurrent (expectedCurrent : Option ProjectionGenerationKey) : Outcome Bool :=
  if (expectedCurrent.any fun expected => decide (expected.sourceId ≠ key.sourceId)) = true then
    (.error (invalid "expected current belongs to another source"), s)
  else
    match s.sources.get key.sourceId with
    | none => (.error (invalid "unknown projection source"), s)
    | some source =>
      if source.current ≠ expectedCurrent.map ProjectionGenerationKey.generationId then
        (.ok false, s)
      else
        match publish source key.generationId with
        | .ok published => (.ok true, s.withSource key.sourceId published)
        | .error e => (.error e, s)

def fail (segment : Segment) : Except SearchError Segment := do
  ensure (segment.phase = .building ∨ segment.phase = .validated)
    (invalid "published or failed generation cannot be failed")
  return { segment with phase := .failed }

def failGeneration : Outcome Unit :=
  changeSegment s key (invalid "unknown projection generation") fun _ segment => fail segment

/-- A source without generations goes with its last one. -/
def discardUnpublishedGeneration : Outcome Bool :=
  match s.sources.get key.sourceId with
  | none => (.ok false, s)
  | some source =>
    match source.generations.get key.generationId with
    | none => (.ok false, s)
    | some segment =>
      if segment.phase.isPublished = true ∨ source.current = some key.generationId then
        (.error (invalid "published projection generation cannot be discarded"), s)
      else
        let generations := source.generations.erase key.generationId
        if generations.isEmpty then (.ok true, ⟨s.sources.erase key.sourceId⟩)
        else (.ok true, s.withSource key.sourceId { source with generations })

end

/-! ## Queries -/

section

variable (registry : SemanticRegistrySnapshot) (hierarchy : Bool) (target : String)

/-- The other end of an undirected edge. -/
def otherEnd (node : String) (edge : String ×ₗ String) : Option String :=
  if (ofLex edge).1 = node then some (ofLex edge).2
  else if (ofLex edge).2 = node then some (ofLex edge).1
  else none

def parentOf (node : String) (edge : String ×ₗ String) : Option String :=
  if (ofLex edge).1 = node then some (ofLex edge).2 else none

def neighbours (node : String) : List String :=
  registry.synonyms.items.filterMap (otherEnd node) ++
    if hierarchy then registry.isA.items.filterMap (parentOf node) else []

/-- Marks a concept and puts it on the stack, once. -/
def visit (seen : List String × List String) (next : String) : List String × List String :=
  if next ∈ seen.1 then seen else (next :: seen.1, next :: seen.2)

/-- The ends of all edges. -/
def ends : List String :=
  (registry.synonyms.items ++ registry.isA.items).flatMap fun edge =>
    [(ofLex edge).1, (ofLex edge).2]

/-- How many of them are not marked yet. -/
def unmarked (visited : List String) : Nat := ((ends registry).toFinset \ visited.toFinset).card

def work (seen : List String × List String) : Nat := unmarked registry seen.1 + seen.2.length

/-- A synonym link in either direction or, if the hierarchy counts, a link from child to parent. -/
def Linked (node next : String) : Prop :=
  toLex (node, next) ∈ registry.synonyms ∨ toLex (next, node) ∈ registry.synonyms ∨
    hierarchy = true ∧ toLex (node, next) ∈ registry.isA

theorem otherEnd_iff {node next : String} {edge : String ×ₗ String} :
    otherEnd node edge = some next ↔ edge = toLex (node, next) ∨ edge = toLex (next, node) := by
  obtain ⟨left, right⟩ := edge
  show (if left = node then some right else if right = node then some left else none) = _ ↔
    (left, right) = (node, next) ∨ (left, right) = (next, node)
  split_ifs <;> grind

theorem mem_neighbours {node next : String} :
    next ∈ neighbours registry hierarchy node ↔ Linked registry hierarchy node next := by
  have parents : ∀ edge, parentOf node edge = some next ↔ edge = toLex (node, next) := by
    rintro ⟨left, right⟩
    show (if left = node then some right else none) = _ ↔ (left, right) = (node, next)
    simp
  simp only [neighbours, mem_append, mem_filterMap, mem_ite_nil_right, otherEnd_iff, parents,
    and_or_left, exists_or, exists_eq_right, or_assoc]
  rfl

theorem mem_ends {node next : String} (h : next ∈ neighbours registry hierarchy node) :
    next ∈ ends registry := by
  simp only [ends, mem_flatMap, mem_append]
  obtain there | there | ⟨-, there⟩ := (mem_neighbours registry hierarchy).mp h
  · exact ⟨_, .inl there, by simp⟩
  · exact ⟨_, .inl there, by simp⟩
  · exact ⟨_, .inr there, by simp⟩

theorem work_neighbours (node : String) (seen : List String × List String) :
    work registry ((neighbours registry hierarchy node).foldl visit seen) ≤ work registry seen := by
  refine foldlRecOn (motive := fun t => work registry t ≤ work registry seen) _ visit le_rfl ?_
  intro t kept next near
  refine le_trans ?_ kept
  unfold visit
  split
  · exact le_refl _
  next new =>
    have edge := mem_ends registry hierarchy near
    have fewer : unmarked registry (next :: t.1) < unmarked registry t.1 := by
      apply Finset.card_lt_card
      rw [toFinset_cons, Finset.ssubset_iff_of_subset
        (Finset.sdiff_subset_sdiff (Finset.Subset.refl _) (Finset.subset_insert _ _))]
      exact ⟨next, by simp [edge, new], by simp⟩
    simp only [work, length_cons]
    omega

/-- The search of a stack of concepts; every concept is put on it once. -/
def reach : List String × List String → Bool
  | (_, []) => false
  | (visited, node :: rest) =>
    if node = target then true
    else reach ((neighbours registry hierarchy node).foldl visit (visited, rest))
termination_by seen => work registry seen
decreasing_by
  have bounded := work_neighbours registry hierarchy node (visited, rest)
  have popped : work registry (visited, rest) < work registry (visited, node :: rest) := by
    simp only [work, List.length_cons]
    omega
  exact lt_of_le_of_lt bounded popped

/-- The concepts marked and the concepts on the stack after the neighbours were visited. -/
theorem mem_visits {l : List String} {seen : List String × List String} {n : String} :
    (n ∈ (l.foldl visit seen).1 ↔ n ∈ seen.1 ∨ n ∈ l) ∧
      (n ∈ (l.foldl visit seen).2 ↔ n ∈ seen.2 ∨ n ∈ l ∧ n ∉ seen.1) := by
  induction l generalizing seen with
  | nil => simp
  | cons next l ih =>
    rw [foldl_cons, ih.1, ih.2, visit]
    split
    · grind
    · grind

theorem reach_sound {seen : List String × List String}
    (h : reach registry hierarchy target seen = true) :
    ∃ n ∈ seen.2, ReflTransGen (Linked registry hierarchy) n target := by
  induction seen using reach.induct registry hierarchy target with
  | case1 => simp [reach] at h
  | case2 visited rest => exact ⟨target, .head _, .refl⟩
  | case3 visited node rest other ih =>
    rw [reach, if_neg other] at h
    obtain ⟨n, there, path⟩ := ih h
    obtain waiting | ⟨near, -⟩ := mem_visits.2.mp there
    · exact ⟨n, .tail _ waiting, path⟩
    · exact ⟨node, .head _, path.head ((mem_neighbours registry hierarchy).mp near)⟩

/-- A marked concept that left the stack is not the target, and its neighbours are marked. -/
theorem reach_complete {seen : List String × List String} {n : String}
    (closed : ∀ m ∈ seen.1, m ∉ seen.2 →
      m ≠ target ∧ ∀ next, Linked registry hierarchy m next → next ∈ seen.1)
    (marked : n ∈ seen.1) (path : ReflTransGen (Linked registry hierarchy) n target) :
    reach registry hierarchy target seen = true := by
  induction seen using reach.induct registry hierarchy target with
  | case1 visited =>
    have stays : ∀ m, ReflTransGen (Linked registry hierarchy) n m → m ∈ visited := by
      intro m reached
      induction reached with
      | refl => exact marked
      | tail _ link ih => exact (closed _ ih not_mem_nil).2 _ link
    exact absurd rfl (closed target (stays target path) not_mem_nil).1
  | case2 visited rest => simp [reach]
  | case3 visited node rest other ih =>
    rw [reach, if_neg other]
    refine ih ?_ (mem_visits.1.mpr (.inl marked))
    intro m there off
    rw [mem_visits.2, not_or, not_and_not_right] at off
    have before : m ∈ visited := (mem_visits.1.mp there).elim id off.2
    by_cases same : m = node
    · subst same
      exact ⟨other, fun next link => mem_visits.1.mpr (.inr ((mem_neighbours _ _).mpr link))⟩
    · obtain ⟨apart, near⟩ := closed m before (by simp [same, off.1])
      exact ⟨apart, fun next link => mem_visits.1.mpr (.inl (near next link))⟩

def conceptReachable (start : String) : TruthValue :=
  if start ∈ registry.concepts ∧ target ∈ registry.concepts then
    .fromBool (reach registry hierarchy target ([start], [start]))
  else .unknown

end

inductive StructuredFacetOutcome where
  | «match»
  | mismatch
  | unknown
  | notApplicable
  | conflict

structure StructuredRetrievalHit where
  candidate : FederatedCandidate
  outcomes : List StructuredFacetOutcome

def noConceptResolution : ConceptResolver where
  sameConcept _ _ := .error
  isA _ _ := .error
  descendantOf _ _ := .error

def facetOutcome (p : CompiledResourceProjection) (filter : String × Graph.TypedValue) :
    StructuredFacetOutcome :=
  match p.structured.typedFacets.get filter.1 with
  | none | some .unknown => .unknown
  | some .notApplicable => .notApplicable
  | some .conflict => .conflict
  | some (.known actual) =>
    match Search.evaluate (.eq (.value actual) (.value filter.2)) ⟨.empty⟩ noConceptResolution with
    | .true => .match
    | .false => .mismatch
    | .unknown | .error => .unknown

def candidate (key : ProjectionGenerationKey) (p : CompiledResourceProjection) (method : String) :
    FederatedCandidate :=
  { Graph.candidateOf key p.directory.resourceRef with retrievalMethod := method }

def relevantKind (requiredResourceTypes : List ResourceKind) (p : CompiledResourceProjection) :
    Bool :=
  decide (p.directory.kind ≠ .document ∧ p.directory.kind ≠ .folderPlacement) &&
    (requiredResourceTypes.isEmpty || decide (p.directory.kind ∈ requiredResourceTypes))

inductive Query where
  | pinCurrent (source : SourceId)
  | resourceAt (key : ProjectionGenerationKey) (id : ResourceId)
  | assertionsFor (key : ProjectionGenerationKey) (id : ResourceId) (predicate : String)
  | pinView (key : ProjectionGenerationKey)
  | sameConcept (key : ProjectionGenerationKey) (left right : String)
  | isA (key : ProjectionGenerationKey) (child parent : String)
  | directory (key : ProjectionGenerationKey) (requiredResourceTypes : List ResourceKind)
  | structured (key : ProjectionGenerationKey) (requiredResourceTypes : List ResourceKind)
      (hardFilters : List (String × Graph.TypedValue))

inductive Reply where
  | manifest (manifest : Option ProjectionGenerationManifest)
  | resource (resource : Option CompiledResourceProjection)
  | assertions (assertions : List Assertion)
  | view (resolver : ConceptResolver)
  | truth (value : TruthValue)
  | candidates (candidates : List FederatedCandidate)
  | hits (hits : List StructuredRetrievalHit)

def pinnedRegistry (registry : SemanticRegistrySnapshot) : ConceptResolver where
  sameConcept left right := conceptReachable registry false right left
  isA child parent := conceptReachable registry true parent child
  descendantOf child ancestor := conceptReachable registry true ancestor child

theorem conceptReachable_iff {registry : SemanticRegistrySnapshot} {hierarchy : Bool}
    {start target : String} : conceptReachable registry hierarchy target start = .true ↔
      start ∈ registry.concepts ∧ target ∈ registry.concepts ∧
        ReflTransGen (Linked registry hierarchy) start target := by
  have searched : reach registry hierarchy target ([start], [start]) = true ↔
      ReflTransGen (Linked registry hierarchy) start target := by
    constructor
    · intro found
      obtain ⟨n, there, path⟩ := reach_sound registry hierarchy target found
      exact mem_singleton.mp there ▸ path
    · exact reach_complete registry hierarchy target (fun _ there off => absurd there off)
        mem_cons_self
  rw [conceptReachable, ← searched, ← and_assoc]
  split_ifs with known <;> simp [known, TruthValue.fromBool]

/-- The search of a registry's concepts, links in cycles or not, answers true exactly for a concept
that can be reached; being the same concept is an equivalence of the known ones, inside `isA`. -/
theorem concept_reachability_exact (registry : SemanticRegistrySnapshot) :
    (∀ hierarchy start target, conceptReachable registry hierarchy target start = .true ↔
      start ∈ registry.concepts ∧ target ∈ registry.concepts ∧
        ReflTransGen (Linked registry hierarchy) start target) ∧
    (∀ a ∈ registry.concepts, (pinnedRegistry registry).sameConcept a a = .true) ∧
    (∀ a b, (pinnedRegistry registry).sameConcept a b = .true →
      (pinnedRegistry registry).sameConcept b a = .true ∧
      (pinnedRegistry registry).isA a b = .true ∧ (pinnedRegistry registry).isA b a = .true) ∧
    ∀ a b c, (pinnedRegistry registry).sameConcept a b = .true →
      (pinnedRegistry registry).sameConcept b c = .true →
      (pinnedRegistry registry).sameConcept a c = .true := by
  have links : ∀ a b, Linked registry false a b →
      Linked registry false b a ∧ Linked registry true a b := by
    rintro a b (there | there | ⟨absent, -⟩)
    · exact ⟨.inr (.inl there), .inl there⟩
    · exact ⟨.inl there, .inr (.inl there)⟩
    · cases absent
  refine ⟨fun _ _ _ => conceptReachable_iff, ?_⟩
  simp only [pinnedRegistry, conceptReachable_iff]
  refine ⟨fun a known => ⟨known, known, .refl⟩, ?_, ?_⟩
  · rintro a b ⟨knownA, knownB, path⟩
    have back : ReflTransGen (Linked registry false) b a :=
      ReflTransGen.mono (fun b a link => (links a b link).1) _ _ path.swap
    have wider := ReflTransGen.mono fun a b link => (links a b link).2
    exact ⟨⟨knownB, knownA, back⟩, ⟨knownA, knownB, wider a b path⟩, knownB, knownA,
      wider b a back⟩
  · rintro a b c ⟨knownA, -, first⟩ ⟨-, knownC, second⟩
    exact ⟨knownA, knownC, first.trans second⟩

namespace State

def registryOf (s : State) (key : ProjectionGenerationKey) :
    Except SearchError SemanticRegistrySnapshot := do
  let segment ← s.published key
  okOr segment.registry (invalid "published generation has no semantic registry")

def answer (s : State) : Query → Except SearchError Reply
  | .pinCurrent source => .ok (.manifest ((s.current source).bind fun id =>
      (s.segment ⟨source, id⟩).map Segment.manifest))
  | .resourceAt key id => do
    let segment ← s.published key
    return .resource (segment.resources.get id)
  | .assertionsFor key id predicate => do
    let segment ← s.published key
    return .assertions (((segment.resources.get id).map fun p =>
      p.structured.assertions.filter fun a => a.predicate = predicate).getD [])
  | .pinView key => do
    let registry ← s.registryOf key
    return .view (pinnedRegistry registry)
  | .sameConcept key left right => do
    let registry ← s.registryOf key
    return .truth (conceptReachable registry false right left)
  | .isA key child parent => do
    let registry ← s.registryOf key
    return .truth (conceptReachable registry true parent child)
  | .directory key requiredResourceTypes => do
    let segment ← s.published key
    return .candidates ((segment.resources.values.filter (relevantKind requiredResourceTypes)).map
      fun p => candidate key p "directory")
  | .structured key requiredResourceTypes hardFilters => do
    let segment ← s.published key
    return .hits ((segment.resources.values.filter (relevantKind requiredResourceTypes)).map
      fun p => ⟨candidate key p "structured", hardFilters.map (facetOutcome p)⟩)

end State

/-! ## No check panics -/

/-- The computation does not end in a panic. -/
abbrev Calm {α : Type} (x : Except SearchError α) : Prop := Avoids SearchError.panicked x

section

variable {α β : Type} {f : α → Except SearchError β}

@[simp] theorem invalid_ne_panicked (message : String) : invalid message ≠ SearchError.panicked :=
  nofun

@[simp] theorem calm_serialized {what : String} {x : Except String α} :
    Calm (serialized what x) := by
  cases x <;> simp [serialized, Except.mapError]

@[simp] theorem calm_keySort {κ : Type} [LinearOrder κ] {encode : α → Except SearchError κ}
    {xs : List α} (each : ∀ x, Calm (encode x)) : Calm (keySort encode xs) := by
  simp [keySort, withKey, each]

theorem calm_mapValuesM {κ : Type} {entries : List (κ × α)} (each : ∀ x, Calm (f x)) :
    Calm (mapValuesM f entries) := by
  simp [mapValuesM, each]

@[simp] theorem calm_mapM {κ : Type} [LinearOrder κ] {m : OrderedMap κ α}
    (each : ∀ x, Calm (f x)) : Calm (m.mapM f) := by
  have entries : Calm (mapValuesM f m.entries) := calm_mapValuesM each
  unfold OrderedMap.mapM
  split
  · exact avoids_ok _
  next failed =>
    exact entries.passed failed

end

/-! ## Canonical forms -/

section

variable {json : Serializer}

@[simp] theorem calm_sortTypedValues {values : List TypedValue} :
    Calm (sortTypedValues json values) := by
  simp [sortTypedValues]

@[simp] theorem calm_canonicalTypedValues {values : List TypedValue}
    (each : ∀ value ∈ values, Calm (canonicalTypedValue json value)) :
    Calm (canonicalTypedValues json values) := by
  rw [canonicalTypedValues_eq]
  exact avoids_mapM each

@[simp] theorem calm_canonicalTypedValue (value : TypedValue) :
    Calm (canonicalTypedValue json value) := by
  induction value using TypedValue.induction with
  | step value ih =>
    cases value with
    | list values | set values =>
      have members : Calm (canonicalTypedValues json values) := calm_canonicalTypedValues ih
      simp [canonicalTypedValue, members]
    | _ => simp [canonicalTypedValue]

@[simp] theorem calm_canonicalRelation (r : TypedRelationInstance) :
    Calm (canonicalRelation json r) := by
  simp [canonicalRelation]

@[simp] theorem calm_canonicalFacet (state : FacetState TypedValue) :
    Calm (canonicalFacet json state) := by
  cases state <;> simp [canonicalFacet]

@[simp] theorem calm_canonicalResolution (a : AuthorityResolution) :
    Calm (canonicalResolution json a) := by
  cases a <;> simp [canonicalResolution]

@[simp] theorem calm_canonicalProjection (p : CompiledResourceProjection) :
    Calm (canonicalProjection json p) := by
  simp [canonicalProjection, canonicalStructured, canonicalAssertions, canonicalAssertion,
    canonicalRelations]

end

/-! ## Validation and staging -/

section

variable {json : Serializer} {sha256 : Bytes → Digest} {segment : Segment}
  {registry : SemanticRegistrySnapshot} {source : SourceState}
  {manifest : ProjectionGenerationManifest} {retired : OrderedSet ResourceId}

@[simp] theorem calm_validateRegistry : Calm (validateRegistry registry) := by
  simp [validateRegistry]

@[simp] theorem calm_generationDigest {source : Graph.SourceId}
    {resources : List CompiledResourceProjection} :
    Calm (generationDigest json sha256 source resources registry) := by
  simp [generationDigest, addCanonical, resourceFrame]

@[simp] theorem calm_agrees (seen : Option TypedRelationInstance) (r : TypedRelationInstance) :
    Calm (agrees json seen r) := by
  cases seen <;> simp [agrees]

@[simp] theorem calm_checkResource {all : OrderedMap Graph.RelationId TypedRelationInstance}
    {entry : ResourceId × CompiledResourceProjection} :
    Calm (checkResource json retired manifest all entry) := by
  simp [checkResource, checkRelation]

theorem calm_validateSegment : Calm (validateSegment json sha256 segment) := by
  simp [validateSegment]

theorem calm_fail : Calm (fail segment) := by
  simp [fail]

theorem calm_incrementalSegment (base : ProjectionGenerationKey) :
    Calm (incrementalSegment source manifest base retired) := by
  simp [incrementalSegment]

@[simp] theorem calm_published (s : State) (key : ProjectionGenerationKey) :
    Calm (s.published key) := by
  simp [State.published]

theorem calm_answer (s : State) (query : Query) : Calm (s.answer query) := by
  cases query <;> simp [State.answer, State.registryOf]

end

end KnowledgePlatform.Projection
