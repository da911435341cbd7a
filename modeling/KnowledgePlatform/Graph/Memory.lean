import KnowledgePlatform.Graph.Relation
import KnowledgePlatform.Lib.Transaction

/-! The in-memory graph: one immutable incidence index per generation, and its traversal as a
function of what is visible and which relations touch a resource. -/

namespace KnowledgePlatform.Graph

open Transaction List

/-! ## Building an index -/

inductive Coverage where
  | completeEnumeration
  | partialEnumeration
  | queryResult
  | directLookup
deriving DecidableEq

structure ProjectionGenerationManifest where
  sourceId : SourceId
  generationId : ProjectionGenerationId
  projectionSchemaVersion : String
  lensVersion : UInt32
  semanticRegistryVersion : String
  (analyzerVersion embeddingModelVersion graphSchemaVersion : Option String)
  sourceSnapshot : String
  resourceCount : Nat
  relationCount : Option Nat
  coverage : Coverage
  digest : String
  builtAt : OffsetDateTime
deriving DecidableEq

namespace ProjectionGenerationManifest

def key (m : ProjectionGenerationManifest) : ProjectionGenerationKey := ⟨m.sourceId, m.generationId⟩

/-- The derived equality. -/
def same (m n : ProjectionGenerationManifest) : Bool :=
  { m with builtAt := n.builtAt } = n && m.builtAt.same n.builtAt

end ProjectionGenerationManifest

structure DiscoverableSource where
  sourceId : SourceId
  retentionMode : RetentionMode

/-- A compiled projection; of the directory, structured and access parts the index reads only whose
resource they are of. -/
structure CompiledResourceProjection where
  manifest : ProjectionGenerationManifest
  retentionMode : RetentionMode
  (directoryRef structuredRef : ResourceId)
  temporal : TemporalProjection
  accessRef : ResourceId
  relations : List TypedRelationInstance

inductive GraphIndexError where
  | sourceMismatch
  | unsupportedSchemaVersion
  | persistenceDenied
  | projectionMismatch
  | resourceCountMismatch
  | relationCountMismatch
  | invalidRelation
  | duplicateGeneration

/-- The metadata of the resources by id, and the relations in the order of their ids. -/
structure GenerationIndex where
  resources : List (ResourceId × TemporalProjection)
  relations : List TypedRelationInstance
  ordered : Keyed.Ordered TypedRelationInstance.relationId relations

namespace GenerationIndex

def empty : GenerationIndex := ⟨[], [], .nil⟩

def resource (index : GenerationIndex) (id : ResourceId) : Option TemporalProjection :=
  index.resources.lookup id

/-- The relations pushed under a resource and role, one for each such participant. -/
def incident (index : GenerationIndex) (id : ResourceId) (role : String) :
    List TypedRelationInstance :=
  index.relations.flatMap fun r =>
    (r.participants.filter fun p => p.resourceRef = id && p.role = role).map fun _ => r

def addResource (index : GenerationIndex) (id : ResourceId) (temporal : TemporalProjection) :
    GenerationIndex :=
  { index with resources := index.resources ++ [(id, temporal)] }

def addRelation (index : GenerationIndex) (r : TypedRelationInstance) : GenerationIndex :=
  { index with
    relations := Keyed.insert TypedRelationInstance.relationId r index.relations
    ordered := index.ordered.insert r }

end GenerationIndex

/-- Two equal elements side by side. -/
def hasRepeat {α : Type} [DecidableEq α] (l : List α) : Bool :=
  (l.zip l.tail).any fun p => p.1 = p.2

/-- One attached relation of a resource; `seen` are the ids of those before it. -/
def indexRelation (id : ResourceId) (state : GenerationIndex × List RelationId)
    (r : TypedRelationInstance) : Except GraphIndexError (GenerationIndex × List RelationId) := do
  let (index, seen) := state
  ensure (r.validate.isOk = true ∧ r.participants.any (fun p => p.resourceRef = id) = true ∧
    r.relationId ∉ seen) .invalidRelation
  ensure (hasRepeat r.normalized.participants = false) .invalidRelation
  ensure ((Keyed.find TypedRelationInstance.relationId r.relationId index.relations).all
    (fun existing => existing.same r.normalized) = true) .invalidRelation
  return (index.addRelation r.normalized, r.relationId :: seen)

def indexProjection (manifest : ProjectionGenerationManifest) (index : GenerationIndex)
    (p : CompiledResourceProjection) : Except GraphIndexError GenerationIndex := do
  let id := p.directoryRef
  ensure (p.manifest.same manifest = true ∧ p.structuredRef = id ∧ p.temporal.resourceRef = id ∧
    p.accessRef = id ∧ p.retentionMode.isPersistent = true) .projectionMismatch
  ensure (index.resource id = none) .projectionMismatch
  let (index, _) ← p.relations.foldlM (indexRelation id) (index.addResource id p.temporal, [])
  return index

/-- The generations an index holds. -/
abbrev Generations := List (ProjectionGenerationKey × GenerationIndex)

def buildGeneration (generations : Generations) (manifest : ProjectionGenerationManifest)
    (source : DiscoverableSource) (projections : List CompiledResourceProjection) :
    Except GraphIndexError Generations := do
  ensure (source.sourceId = manifest.sourceId) .sourceMismatch
  ensure (source.retentionMode.isPersistent = true) .persistenceDenied
  ensure (manifest.graphSchemaVersion = some "typed-nary-v1") .unsupportedSchemaVersion
  ensure (projections.length = manifest.resourceCount) .resourceCountMismatch
  ensure ((generations.lookup manifest.key).isNone = true) .duplicateGeneration
  let index ← projections.foldlM (indexProjection manifest) .empty
  ensure (manifest.relationCount.all (fun count => decide (count = index.relations.length)) = true)
    .relationCountMismatch
  return generations ++ [(manifest.key, index)]

/-! ## Traversal -/

/-- The current access evaluator: its answer, or its failure, for a resource and a requester. -/
abbrev AccessEvaluator := ResourceId → String → Except SearchError AccessDecision

/-- What was found visible or not. -/
abbrev Visibility := List (ResourceId × Bool)

abbrev MemoryM := Transaction AccessEvaluator Visibility SearchError

def remember (id : ResourceId) (visible : Bool) : MemoryM Bool := do
  update fun cache => (id, visible) :: cache
  return visible

namespace GenerationIndex

variable (index : GenerationIndex) (plan : GraphTraversalPlan)

/-- Present, in its time windows and allowed; a failing evaluator does not allow. -/
def judge (access : AccessEvaluator) (id : ResourceId) : Bool :=
  match index.resource id with
  | none => false
  | some temporal =>
    if temporal.validFor plan then access id plan.accessContext matches .ok .allowed else false

def visible (id : ResourceId) : MemoryM Bool := do
  let cache ← state
  match cache.lookup id with
  | some visible => return visible
  | none => do
    let access ← context
    remember id (index.judge plan access id)

/-- Stops at the first participant that is not visible. -/
def allVisible : List RelationParticipant → MemoryM Bool
  | [] => pure true
  | p :: rest => do
    let seen ← index.visible plan p.resourceRef
    if seen = true then allVisible rest else return false

def visitSeed (frontier : List PartialPath) (id : ResourceId) : MemoryM (List PartialPath) := do
  let seen ← index.visible plan id
  if seen = true then lift (addSeed plan frontier id) else return frontier

def visitRelation (pattern : RelationPathPattern) (path : PartialPath) (level : Level)
    (x : Expansion) (r : TypedRelationInstance) : MemoryM Expansion :=
  if follows plan pattern path r = false then return x
  else do
    -- A n-ary relation is invisible unless every participant is allowed.
    let seen ← index.allVisible plan r.participants
    if seen = true then lift (expandRelation plan pattern path level x r) else return x

def expandPath (pattern : RelationPathPattern) (level : Level) (path : PartialPath) :
    MemoryM Level := do
  let x ← (index.incident path.current pattern.fromRole).foldlM
    (index.visitRelation plan pattern path level) ⟨[], 0⟩
  lift (addPaths level x)

def expandFrontier (frontier : Level) (pattern : RelationPathPattern) : MemoryM Level :=
  frontier.next.foldlM (index.expandPath plan pattern) ⟨[], frontier.expanded⟩

def frontier : MemoryM Level := do
  let seeds ← (Keyed.ofList id plan.seedNodes).foldlM (index.visitSeed plan) []
  plan.pathPatterns.foldlM (index.expandFrontier plan) ⟨seeds, 0⟩

/-- The hits of a plan, with the visibility of this evaluation remembered from resource to
resource. -/
def traverse (generation : ProjectionGenerationKey) : MemoryM GraphRetrievalResult := do
  lift (plan.validate.mapError invalid)
  lift (ensure (plan.pathPatterns.length ≤ plan.expansionBudget.maxHops)
    (invalid "graph path exceeds hop budget"))
  let level ← index.frontier plan
  return group generation level.next

/-- The answer of a traversal that has seen nothing yet. -/
def retrieve (access : AccessEvaluator) (generation : ProjectionGenerationKey) :
    Except SearchError GraphRetrievalResult :=
  (index.traverse plan generation access []).map Prod.fst

end GenerationIndex

/-! ## Walks -/

/-- A graph as a traversal sees it. -/
structure Scene where
  visible : ResourceId → Bool
  incident : ResourceId → String → List TypedRelationInstance

namespace Scene

variable (scene : Scene) (plan : GraphTraversalPlan)

/-- The relations that continue a path: those that follow and hide no participant. -/
def continuing (pattern : RelationPathPattern) (path : PartialPath) : List TypedRelationInstance :=
  (scene.incident path.current pattern.fromRole).filter fun r =>
    follows plan pattern path r && r.participants.all fun p => scene.visible p.resourceRef

def seeds : Except SearchError (List PartialPath) :=
  ((Keyed.ofList id plan.seedNodes).filter scene.visible).foldlM (addSeed plan) []

def expandPath (pattern : RelationPathPattern) (level : Level) (path : PartialPath) :
    Except SearchError Level := do
  let x ← (scene.continuing plan pattern path).foldlM (expandRelation plan pattern path level)
    ⟨[], 0⟩
  addPaths level x

def expandFrontier (frontier : Level) (pattern : RelationPathPattern) : Except SearchError Level :=
  frontier.next.foldlM (scene.expandPath plan pattern) ⟨[], frontier.expanded⟩

def frontier : Except SearchError Level := do
  let seeds ← scene.seeds plan
  plan.pathPatterns.foldlM (scene.expandFrontier plan) ⟨seeds, 0⟩

def walk (generation : ProjectionGenerationKey) : Except SearchError GraphRetrievalResult := do
  plan.validate.mapError invalid
  ensure (plan.pathPatterns.length ≤ plan.expansionBudget.maxHops)
    (invalid "graph path exceeds hop budget")
  let level ← scene.frontier plan
  return group generation level.next

end Scene

/-! ## The memory reader -/

namespace GenerationIndex

variable (index : GenerationIndex) (plan : GraphTraversalPlan) (access : AccessEvaluator)

def scene : Scene := ⟨index.judge plan access, index.incident⟩

/-- Whatever is remembered is what would be judged. -/
def Remembered (cache : Visibility) : Prop :=
  ∀ id v, cache.lookup id = some v → v = index.judge plan access id

variable {index plan access}

theorem Remembered.cons {cache : Visibility} (h : Remembered index plan access cache)
    (id : ResourceId) : Remembered index plan access
      ((id, index.judge plan access id) :: cache) := by
  intro other v found
  rw [lookup_cons] at found
  by_cases same : other = id
  · subst same
    simpa using found.symm
  · rw [beq_false_of_ne same] at found
    exact h other v found

theorem visible_computes (id : ResourceId) :
    Computes (Remembered index plan access) access (index.visible plan id)
      (.ok (index.judge plan access id)) := by
  intro cache kept
  have run : index.visible plan id access cache = (match cache.lookup id with
      | some visible => pure visible
      | none => context >>= fun access => remember id (index.judge plan access id) :
        MemoryM Bool) access cache := rfl
  cases found : cache.lookup id with
  | some v =>
    rw [found, kept id v found] at run
    exact ⟨cache, run, kept⟩
  | none =>
    rw [found] at run
    exact ⟨_, run, kept.cons id⟩

theorem allVisible_computes (participants : List RelationParticipant) :
    Computes (Remembered index plan access) access (index.allVisible plan participants)
      (.ok (participants.all fun p => index.judge plan access p.resourceRef)) := by
  induction participants with
  | nil => exact computes_pure
  | cons p rest ih =>
    rw [all_cons]
    exact computes_and (visible_computes p.resourceRef) ih

theorem visitSeed_computes (frontier : List PartialPath) (id : ResourceId) :
    Computes (Remembered index plan access) access (index.visitSeed plan frontier id)
      (if index.judge plan access id = true then addSeed plan frontier id else .ok frontier) :=
  computes_test (visible_computes id) computes_lift computes_pure

theorem visitRelation_computes (pattern : RelationPathPattern) (path : PartialPath) (level : Level)
    (x : Expansion) (r : TypedRelationInstance) :
    Computes (Remembered index plan access) access
      (index.visitRelation plan pattern path level x r)
      (if (follows plan pattern path r &&
          r.participants.all fun p => index.judge plan access p.resourceRef) = true then
        expandRelation plan pattern path level x r else .ok x) := by
  apply computes_unless
  exact computes_test (allVisible_computes r.participants) computes_lift computes_pure

theorem expandPath_computes (pattern : RelationPathPattern) (level : Level) (path : PartialPath) :
    Computes (Remembered index plan access) access (index.expandPath plan pattern level path)
      ((index.scene plan access).expandPath plan pattern level path) := by
  apply Computes.bind
  · rw [Scene.continuing, foldlM_filter]
    exact computes_foldlM (fun x r _ => visitRelation_computes pattern path level x r) ⟨[], 0⟩
  · intro x
    exact computes_lift

theorem frontier_computes :
    Computes (Remembered index plan access) access (index.frontier plan)
      ((index.scene plan access).frontier plan) := by
  apply Computes.bind
  · rw [Scene.seeds, foldlM_filter]
    exact computes_foldlM (fun frontier id _ => visitSeed_computes frontier id) []
  · intro seeds
    apply computes_foldlM
    intro level pattern _
    apply computes_foldlM
    intro next path _
    exact expandPath_computes pattern next path

/-- The memory reader walks its scene; what it remembers on the way does not show. -/
theorem retrieve_eq_walk (generation : ProjectionGenerationKey) :
    index.retrieve plan access generation = (index.scene plan access).walk plan generation := by
  have whole : Computes (Remembered index plan access) access (index.traverse plan generation)
      ((index.scene plan access).walk plan generation) := by
    apply computes_lift.bind
    intro _
    apply computes_lift.bind
    intro _
    apply frontier_computes.bind
    intro level
    exact computes_pure
  have answer := whole [] (by intro id v found; cases found)
  unfold retrieve
  cases walked : (index.scene plan access).walk plan generation with
  | error e =>
    rw [walked] at answer
    rw [show index.traverse plan generation access [] = .error e from answer]
    rfl
  | ok =>
    rw [walked] at answer
    obtain ⟨cache, traversed, -⟩ := answer
    rw [traversed]
    rfl

end GenerationIndex

/-! ## Hidden resources -/

namespace GenerationIndex

variable {a b : GenerationIndex} {plan : GraphTraversalPlan} {access : AccessEvaluator}

/-- A resource the requester is allowed to see. -/
def Allowed (access : AccessEvaluator) (plan : GraphTraversalPlan) (id : ResourceId) : Prop :=
  access id plan.accessContext = .ok .allowed

/-- Two generations with the same allowed resources, and the same relations among allowed
resources. -/
structure AgreeOnAllowed (a b : GenerationIndex) (access : AccessEvaluator)
    (plan : GraphTraversalPlan) : Prop where
  resources : ∀ id, Allowed access plan id → a.resource id = b.resource id
  relations : ∀ r : TypedRelationInstance,
    (∀ p ∈ r.participants, Allowed access plan p.resourceRef) →
    (r ∈ a.relations ↔ r ∈ b.relations)

theorem allowed_of_judge {index : GenerationIndex} {id : ResourceId}
    (judged : index.judge plan access id = true) : Allowed access plan id := by
  unfold judge at judged
  split at judged
  · cases judged
  · split at judged
    · split at judged
      · assumption
      · cases judged
    · cases judged

theorem AgreeOnAllowed.judge (h : AgreeOnAllowed a b access plan) (id : ResourceId) :
    a.judge plan access id = b.judge plan access id := by
  by_cases allowed : Allowed access plan id
  · unfold GenerationIndex.judge
    rw [h.resources id allowed]
  · have hidden (index : GenerationIndex) : index.judge plan access id = false := by
      by_contra judged
      exact allowed (allowed_of_judge (by simpa using judged))
    rw [hidden a, hidden b]

/-- The relations among visible resources are the same, in the same order. -/
theorem AgreeOnAllowed.shown (h : AgreeOnAllowed a b access plan) :
    (a.relations.filter fun r => r.participants.all fun p => a.judge plan access p.resourceRef) =
      b.relations.filter fun r => r.participants.all fun p =>
        b.judge plan access p.resourceRef := by
  apply Keyed.Ordered.ext (a.ordered.filter _) (b.ordered.filter _)
  intro r
  rw [mem_filter, mem_filter]
  have same : (r.participants.all fun p => a.judge plan access p.resourceRef) =
      r.participants.all fun p => b.judge plan access p.resourceRef := by
    congr 1
    funext p
    exact h.judge p.resourceRef
  rw [same]
  apply and_congr_left
  intro seen
  apply h.relations r
  intro p hp
  exact allowed_of_judge (all_eq_true.mp seen p hp)

/-- What an index shows at a resource is cut out of what it shows at all. -/
theorem continuing_eq (index : GenerationIndex) (pattern : RelationPathPattern)
    (path : PartialPath) :
    (index.scene plan access).continuing plan pattern path =
      ((index.relations.filter fun r =>
        r.participants.all fun p => index.judge plan access p.resourceRef).flatMap fun r =>
          (r.participants.filter fun p => p.resourceRef = path.current &&
            p.role = pattern.fromRole).map fun _ => r).filter (follows plan pattern path) := by
  change (index.relations.flatMap _).filter _ = _
  induction index.relations with
  | nil => rfl
  | cons r rest ih =>
    rw [flatMap_cons, filter_append, ih, filter_cons]
    -- The copies of one relation are kept or dropped together.
    by_cases seen : (r.participants.all fun p => index.judge plan access p.resourceRef) = true
    · rw [if_pos seen, flatMap_cons, filter_append]
      congr 1
      simp [filter_replicate, map_const', scene, seen]
    · rw [if_neg seen]
      simp only [scene, map_const', filter_replicate]
      rw [if_neg (by simp [seen]), nil_append]

theorem AgreeOnAllowed.walk (h : AgreeOnAllowed a b access plan)
    (generation : ProjectionGenerationKey) :
    (a.scene plan access).walk plan generation = (b.scene plan access).walk plan generation := by
  have seeds : (a.scene plan access).seeds plan = (b.scene plan access).seeds plan := by
    unfold Scene.seeds
    rw [show (a.scene plan access).visible = (b.scene plan access).visible from funext h.judge]
  have paths : (a.scene plan access).expandPath plan = (b.scene plan access).expandPath plan := by
    funext pattern level path
    unfold Scene.expandPath
    rw [continuing_eq, continuing_eq, h.shown]
  unfold Scene.walk Scene.frontier Scene.expandFrontier
  rw [seeds, paths]

/-- Denied resources, and relations with a denied participant, do not show: neither in the hits nor
in a budget that stops the traversal. -/
theorem traversal_hides_denied (h : AgreeOnAllowed a b access plan)
    (generation : ProjectionGenerationKey) :
    a.retrieve plan access generation = b.retrieve plan access generation := by
  rw [retrieve_eq_walk, retrieve_eq_walk]
  exact h.walk generation

/-- A citation of one resource by another. -/
def sampleRelation (n first second : UInt8) : TypedRelationInstance where
  relationId := .filled n
  namespaceOf := .semantic
  relationType := "cites"
  participants := [⟨"source", .filled first⟩, ⟨"target", .filled second⟩]
  qualifiers := ⟨[], .nil⟩
  temporalScope := ⟨none, none⟩
  authority := none
  provenance := none
  evidenceRefs := []

def sampleManifest (generation : UInt8) : ProjectionGenerationManifest where
  sourceId := .filled 7
  generationId := .filled generation
  projectionSchemaVersion := "v1"
  lensVersion := 1
  semanticRegistryVersion := "v1"
  analyzerVersion := none
  embeddingModelVersion := none
  graphSchemaVersion := none
  sourceSnapshot := "s1"
  resourceCount := 0
  relationCount := none
  coverage := .completeEnumeration
  digest := "d1"
  builtAt := .epoch

def sampleTemporal (n : UInt8) : ResourceId × TemporalProjection :=
  (.filled n, ⟨.filled n, none, none, ⟨none, none, none, none⟩⟩)

/-- Two resources that cite one another. -/
def samplePublic : GenerationIndex where
  resources := [sampleTemporal 1, sampleTemporal 2]
  relations := [sampleRelation 10 1 2]
  ordered := List.pairwise_singleton _ _

/-- The same, and a third resource that the first one cites as well. -/
def sampleSecret : GenerationIndex where
  resources := [sampleTemporal 1, sampleTemporal 2, sampleTemporal 3]
  relations := [sampleRelation 9 1 3,
    sampleRelation 10 1 2]
  ordered := by
    refine List.pairwise_cons.mpr ⟨?_, List.pairwise_singleton _ _⟩
    intro r hr
    rw [List.mem_singleton.mp hr]
    decide

/-- The third resource is denied to everyone. -/
def sampleAccess : AccessEvaluator := fun id _ =>
  .ok (if id = .filled 3 then .denied else .allowed)

def samplePlan : GraphTraversalPlan where
  seedNodes := [.filled 1]
  pathPatterns := [⟨.semantic, "cites", "source", "target", none, none, []⟩]
  allowedRelationTypes := ["cites"]
  allowedNamespaces := [.semantic]
  authorityRequirement := none
  temporalTarget := some .epoch
  accessContext := "reader"
  expansionBudget := ⟨1, 1, 1, 1, 1⟩
  stopConditions := []

/-- The secret citation is scanned first, and would exhaust every budget if it counted. -/
theorem traversal_hides_sample :
    AgreeOnAllowed samplePublic sampleSecret sampleAccess samplePlan ∧
      samplePublic.retrieve samplePlan sampleAccess ⟨.filled 7, .filled 8⟩ =
        sampleSecret.retrieve samplePlan sampleAccess ⟨.filled 7, .filled 8⟩ := by
  have secret : ¬ Allowed sampleAccess samplePlan (.filled 3) := by
    simp [Allowed, sampleAccess]
  have agree : AgreeOnAllowed samplePublic sampleSecret sampleAccess samplePlan := by
    constructor
    · intro id allowed
      by_cases third : id = .filled 3
      · subst third
        exact absurd allowed secret
      · simp [samplePublic, sampleSecret, resource, lookup_cons, sampleTemporal,
          beq_false_of_ne third]
    · intro r allowed
      simp only [samplePublic, sampleSecret, mem_cons, not_mem_nil, or_false]
      constructor
      · exact .inr
      · rintro (rfl | shown)
        · exact absurd (allowed ⟨"target", .filled 3⟩ (by simp [sampleRelation])) secret
        · exact shown
  exact ⟨agree, traversal_hides_denied agree ⟨.filled 7, .filled 8⟩⟩

end GenerationIndex

end KnowledgePlatform.Graph
