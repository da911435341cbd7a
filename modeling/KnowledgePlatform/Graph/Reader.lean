import KnowledgePlatform.Graph.Memory
import KnowledgePlatform.Graph.Payload

/-! A graph generation in the row tables: writing its rows, and reading a row back. -/

namespace KnowledgePlatform.Graph

open List

/-- Nanoseconds and offset, in columns of their own. -/
structure InstantColumns where
  (nanos offset : Option Int)

structure ResourceRow where
  resourceId : Uuid
  resourceKind : String
  resourceVersionId : Option Uuid
  mappingKind : String
  (ownerDocumentId folderId versionId : Option Uuid)
  (adapterId nativeId : Option String)
  (validFrom validTo freshnessAnchor : InstantColumns)
  freshnessBasis : Option String
  (effectiveFrom effectiveTo : InstantColumns)

structure RelationRow where
  relationId : Uuid
  payload : Json
  canonicalDigest : String

structure ParticipantRow where
  relationId : Uuid
  ordinal : Nat
  role : String
  resourceId : Uuid

/-- The rows of one generation. -/
structure Rows where
  resources : List ResourceRow
  relations : List RelationRow
  participants : List ParticipantRow

/-! ## Writing -/

def nanos (i : Option Instant) : InstantColumns :=
  ⟨i.map Instant.epochNanos, i.map Instant.offsetSeconds⟩

/-- The columns of a row that say where its resource comes from. -/
def withMapping (row : ResourceRow) : GraphSourceMapping → ResourceRow
  | .document documentId =>
    { row with mappingKind := "DOCUMENT", ownerDocumentId := some documentId }
  | .folderPlacement documentId folderId =>
    { row with mappingKind := "FOLDER_PLACEMENT", ownerDocumentId := some documentId,
               folderId := some folderId }
  | .version documentId versionId =>
    { row with mappingKind := "VERSION", ownerDocumentId := some documentId,
               versionId := some versionId }
  | .registered adapterId nativeId =>
    { row with mappingKind := "REGISTERED", adapterId := some adapterId,
               nativeId := some nativeId }

def resourceRow (record : GraphResourceRecord) : Except GraphError ResourceRow := do
  let columns ← encodeTemporal record.temporal
  return withMapping {
    resourceId := record.resourceRef
    resourceKind := kindText record.kind
    resourceVersionId := record.resourceVersionRef
    mappingKind := ""
    ownerDocumentId := none
    folderId := none
    versionId := none
    adapterId := none
    nativeId := none
    validFrom := nanos columns.validFrom
    validTo := nanos columns.validTo
    freshnessAnchor := nanos columns.freshnessAnchorAt
    freshnessBasis := columns.freshnessBasis
    effectiveFrom := nanos columns.effectiveFrom
    effectiveTo := nanos columns.effectiveTo } record.mapping

/-- A participant's resource has a row, and its place is an `i32`. -/
def participantRow (resources : List ResourceRow) (relationId : Uuid)
    (p : RelationParticipant × Nat) : Except GraphError ParticipantRow := do
  ensure (p.2 < 2 ^ 31) (.invalid "participants")
  ensure (resources.any (fun row => row.resourceId = p.1.resourceRef) = true)
    (.integrity "database constraint")
  return ⟨relationId, p.2, p.1.role, p.1.resourceRef⟩

section

variable (sha256 : Bytes → Digest) (time : TimeCodecs)

/-- Writing a number that does not fit panics. -/
def relationRow (r : TypedRelationInstance) : Except GraphError RelationRow := do
  let relation ← okOr ((relationCodec time).encode r) .panicked
  let canonicalDigest ← relationDigest sha256 r
  return ⟨r.relationId, .obj [("dto_version", .str "v1"), ("relation", relation)], canonicalDigest⟩

def relationRows (resources : List ResourceRow) (r : TypedRelationInstance) :
    Except GraphError (RelationRow × List ParticipantRow) := do
  let row ← relationRow sha256 time r
  let participants ← r.participants.zipIdx.mapM (participantRow resources r.relationId)
  return (row, participants)

def insertRows (g : GraphContent) : Except GraphError Rows := do
  let resources ← g.resources.mapM resourceRow
  let relations ← g.relations.mapM (relationRows sha256 time resources)
  return ⟨resources, relations.map Prod.fst, relations.flatMap Prod.snd⟩

/-- Only content with a digest is written, so the rows' keys are unique. -/
def stageFull (g : GraphContent) : Except GraphError Rows := do
  g.relations.forM fun r => r.validate.mapError fun _ => .invalid "relation"
  let _ ← canonicalGraphDigest sha256 g
  insertRows sha256 time g

/-! ## Reading -/

def relationFromRow (row : RelationRow) : Except GraphError TypedRelationInstance := do
  ensure (row.payload.get "dto_version" >>= Json.asStr = some "v1")
    (.integrity "relation payload version")
  ensure ((row.payload.asObj.any fun members => members.length = 2) = true)
    (.integrity "relation payload version")
  let payload ← okOr (row.payload.get "relation") (.integrity "relation payload")
  let r ← okOr ((relationCodec time).decode payload) (.integrity "relation payload")
  ensure (r.relationId = row.relationId) (.integrity "relation digest")
  let digest ← relationDigest sha256 r
  ensure (digest = row.canonicalDigest) (.integrity "relation digest")
  return r

end

def instantOf : InstantColumns → Except GraphError (Option Instant)
  | ⟨none, none⟩ => .ok none
  | ⟨some nanos, some offset⟩ => do
    ensure (InInt128 nanos) (.integrity "stored instant")
    return some ⟨nanos, offset⟩
  | _ => .error (.integrity "stored instant pair")

def mappingFromRow (row : ResourceRow) : Except GraphError GraphSourceMapping :=
  match row.mappingKind with
  | "DOCUMENT" => do
    return .document (← okOr row.ownerDocumentId (.integrity "owner"))
  | "FOLDER_PLACEMENT" => do
    return .folderPlacement (← okOr row.ownerDocumentId (.integrity "owner"))
      (← okOr row.folderId (.integrity "folder"))
  | "VERSION" => do
    return .version (← okOr row.ownerDocumentId (.integrity "owner"))
      (← okOr row.versionId (.integrity "version"))
  | "REGISTERED" => do
    return .registered (← okOr row.adapterId (.integrity "adapter"))
      (← okOr row.nativeId (.integrity "native"))
  | _ => .error (.integrity "mapping kind")

def resourceFromRow (row : ResourceRow) (attachedRelations : List TypedRelationInstance) :
    Except GraphError GraphResourceRecord := do
  let mapping ← mappingFromRow row
  let columns : TemporalColumns := {
    resourceRef := row.resourceId
    validFrom := ← instantOf row.validFrom
    validTo := ← instantOf row.validTo
    freshnessAnchorAt := ← instantOf row.freshnessAnchor
    freshnessBasis := row.freshnessBasis
    effectiveFrom := ← instantOf row.effectiveFrom
    effectiveTo := ← instantOf row.effectiveTo }
  let kind ← kindFrom row.resourceKind
  let temporal ← decodeTemporal columns
  return {
    resourceRef := row.resourceId, kind, resourceVersionRef := row.resourceVersionId, temporal,
    mapping, attachedRelations }

/-! ## The reader -/

open Transaction

/-- A store's failure, as a search reports it. -/
def searchError : GraphError → SearchError
  | .fenceLost => .fenceLost
  | .store => .sourceUnavailable "graph store unavailable"
  | .invalid _ => .operationFailed "graph generation integrity"
  | .integrity _ => .operationFailed "graph generation integrity"
  | .requiresFullRebuild => .operationFailed "graph closure requires a full rebuild"
  | .panicked => .panicked

def unavailable : SearchError := .sourceUnavailable "graph read unavailable"

/-- What was read of the snapshot, and what was found visible or not. -/
structure ReaderState where
  relations : List (RelationId × TypedRelationInstance)
  temporal : List (ResourceId × Option TemporalProjection)
  visible : List (ResourceId × Bool)

/-- The access gate of one generation and one requester. -/
abbrev ScopedAccess := ResourceId → Except SearchError AccessDecision

abbrev ReaderM := Transaction ScopedAccess ReaderState SearchError

namespace Rows

variable (rows : Rows)

/-- The relations a resource takes part in under a role, in id order. -/
def incidentIds (role : String) (resource : ResourceId) : List RelationId :=
  Keyed.ofList id ((rows.participants.filter fun p =>
    p.role = role && p.resourceId = resource).map ParticipantRow.relationId)

/-- The resources that take part in any relation under the role, each with these. -/
def incidence (resources : List ResourceId) (role : String) :
    List (ResourceId × List RelationId) :=
  (resources.map fun resource => (resource, rows.incidentIds role resource)).filter
    fun e => e.2 ≠ []

/-- The participants of a relation by their place. -/
def participantsOf (relation : RelationId) : List (String × Uuid) :=
  ((rows.participants.filter fun p => p.relationId = relation).insertionSort
    fun a b => a.ordinal ≤ b.ordinal).map fun p => (p.role, p.resourceId)

def readResources (ids : List ResourceId) :
    Except GraphError (List (ResourceId × Option TemporalProjection)) := do
  let records ← (rows.resources.filter fun row => row.resourceId ∈ ids).mapM
    fun row => resourceFromRow row []
  return records.map (fun record => (record.resourceRef, some record.temporal)) ++
    ids.map fun id => (id, none)

/-- A resource without a row is remembered as absent. -/
def loadResources (wanted : List ResourceId) : ReaderM Unit := do
  let s ← state
  let ids := wanted.filter fun id => (s.temporal.lookup id).isNone
  if ids = [] then return ()
  else do
    let found ← lift ((rows.readResources ids).mapError searchError)
    update fun s => { s with temporal := found ++ s.temporal }

section

variable (sha256 : Bytes → Digest) (time : TimeCodecs)

/-- The participant rows must be the payload's participants; the relation is then normalized as the
memory index does. -/
def readRelation (row : RelationRow) : Except GraphError (RelationId × TypedRelationInstance) := do
  let r ← relationFromRow sha256 time row
  let stored := rows.participantsOf r.relationId
  ensure (stored ≠ [] ∧ stored = r.participants.map fun p => (p.role, p.resourceRef))
    (.integrity "participant incidence")
  return (r.relationId, r.normalized)

def readRelations (ids : List RelationId) :
    Except GraphError (List (RelationId × TypedRelationInstance)) := do
  let found := rows.relations.filter fun row => row.relationId ∈ ids
  ensure (found.length = ids.length) (.integrity "incident relation row")
  found.mapM (rows.readRelation sha256 time)

def loadRelations (wanted : List RelationId) : ReaderM Unit := do
  let s ← state
  let ids := wanted.filter fun id => (s.relations.lookup id).isNone
  if ids = [] then return ()
  else do
    let found ← lift ((rows.readRelations sha256 time ids).mapError searchError)
    update fun s => { s with relations := found ++ s.relations }

end

section

variable (plan : GraphTraversalPlan)

/-- What the gate decides on a resource inside its time windows; it must decide. -/
def gate (access : ScopedAccess) (temporal : Option TemporalProjection) (resource : ResourceId) :
    Except SearchError Bool :=
  match temporal with
  | none => .ok false
  | some temporal => do
    let target ← okOr plan.temporalTarget
      (invalid "traversal requires access and temporal context")
    if (within temporal.validFrom temporal.validTo target &&
        within temporal.profile.effectiveFrom temporal.profile.effectiveTo target) = true then do
      match ← access resource with
      | .allowed => return true
      | .denied => return false
      | .unknown => .error unavailable
    else return false

def judge (resource : ResourceId) : ReaderM Bool := do
  rows.loadResources [resource]
  let s ← state
  let access ← context
  let visible ← lift (gate plan access ((s.temporal.lookup resource).getD none) resource)
  update fun s => { s with visible := (resource, visible) :: s.visible }
  return visible

def visible (resource : ResourceId) : ReaderM Bool := do
  let s ← state
  match s.visible.lookup resource with
  | some visible => return visible
  | none => rows.judge plan resource

def allVisible : List RelationParticipant → ReaderM Bool
  | [] => pure true
  | p :: rest => do
    let seen ← rows.visible plan p.resourceRef
    if seen = true then allVisible rest else return false

def visitSeed (frontier : List PartialPath) (resource : ResourceId) :
    ReaderM (List PartialPath) := do
  let seen ← rows.visible plan resource
  if seen = true then lift (addSeed plan frontier resource) else return frontier

def expandLoaded (pattern : RelationPathPattern) (path : PartialPath) (level : Level)
    (x : Expansion) (r : TypedRelationInstance) : ReaderM Expansion :=
  if follows plan pattern path r = false then return x
  else do
    -- A relation with a hidden participant consumes no budget.
    let seen ← rows.allVisible plan r.participants
    if seen = true then lift (expandRelation plan pattern path level x r) else return x

def visitRelation (pattern : RelationPathPattern) (path : PartialPath) (level : Level)
    (x : Expansion) (relation : RelationId) : ReaderM Expansion := do
  let s ← state
  let r ← expect (s.relations.lookup relation) unavailable
  rows.expandLoaded plan pattern path level x r

def expandPath (incidence : List (ResourceId × List RelationId)) (pattern : RelationPathPattern)
    (level : Level) (path : PartialPath) : ReaderM Level := do
  let x ← ((incidence.lookup path.current).getD []).foldlM
    (rows.visitRelation plan pattern path level) ⟨[], 0⟩
  lift (addPaths level x)

/-- The resources of the relations a pattern can follow, as far as they are loaded. -/
def membersOf (pattern : RelationPathPattern) (wanted : List RelationId) (s : ReaderState) :
    List ResourceId :=
  let loaded := wanted.filterMap fun id => s.relations.lookup id
  Keyed.ofList id ((loaded.filter fun r => plan.allows r && pattern.matchesRelation r).flatMap
    fun r => r.participants.map RelationParticipant.resourceRef)

variable (sha256 : Bytes → Digest) (time : TimeCodecs)

def expandFrontier (frontier : Level) (pattern : RelationPathPattern) : ReaderM Level := do
  let currents := Keyed.ofList id (frontier.next.map PartialPath.current)
  let incidence := rows.incidence currents pattern.fromRole
  let wanted := Keyed.ofList id (incidence.flatMap Prod.snd)
  rows.loadRelations sha256 time wanted
  let s ← state
  rows.loadResources (membersOf plan pattern wanted s)
  frontier.next.foldlM (rows.expandPath plan incidence pattern) ⟨[], frontier.expanded⟩

def traverse : ReaderM (List PartialPath) := do
  let seeds := Keyed.ofList id plan.seedNodes
  rows.loadResources seeds
  let seeds ← seeds.foldlM (rows.visitSeed plan) []
  let level ← plan.pathPatterns.foldlM (rows.expandFrontier plan sha256 time) ⟨seeds, 0⟩
  return level.next

end

end Rows

/-! ## A pinned read -/

/-- What a read is pinned to: its lease, its trusted binding, its scope, and what the verifier and
the generation's parent row answer. -/
structure PinnedRead where
  key : ProjectionGenerationKey
  (leaseEvaluation evaluation : Uuid)
  (actor scopeActor : String)
  scopeSource : SourceId
  (before after : Except SearchError Unit)
  generationState : Option String
  segmented : Bool

section

variable (rows : Rows) (sha256 : Bytes → Digest) (time : TimeCodecs) (read : PinnedRead)
  (plan : GraphTraversalPlan) (access : ScopedAccess)

/-- A snapshot in which nothing was read yet. -/
def readSnapshot : Except SearchError (List PartialPath) := do
  ensure (read.generationState = some "READY") unavailable
  ensure (read.segmented = false) unavailable
  (rows.traverse plan sha256 time access ⟨[], [], []⟩).map Prod.fst

/-- The lease is verified again before anything is returned. -/
def retrievePinned : Except SearchError GraphRetrievalResult := do
  plan.validate.mapError invalid
  ensure (plan.pathPatterns.length ≤ plan.expansionBudget.maxHops)
    (invalid "graph path exceeds hop budget")
  ensure (read.key.sourceId = read.scopeSource ∧ read.leaseEvaluation = read.evaluation ∧
    read.actor = read.scopeActor) unavailable
  read.before
  let frontier ← readSnapshot rows sha256 time read plan access
  read.after
  return group read.key frontier

end

/-! ## The reader computes a walk

What it loads and remembers on the way, and in which batches, does not show. -/

/-- What rows give a reader: the metadata of every resource, and the relation of every id that a
participant row names. -/
structure Rows.Serves (rows : Rows) (sha256 : Bytes → Digest) (time : TimeCodecs)
    (temporalOf : ResourceId → Option TemporalProjection)
    (relationOf : RelationId → Option TypedRelationInstance) : Prop where
  resources : ∀ ids, ∃ found, rows.readResources ids = .ok found ∧
    (∀ id ∈ ids, found.lookup id = some (temporalOf id)) ∧ ∀ id ∉ ids, found.lookup id = none
  relations : ∀ ids : List RelationId, ids.Nodup → (∀ id ∈ ids, relationOf id ≠ none) →
    ∃ found, rows.readRelations sha256 time ids = .ok found ∧
      (∀ id ∈ ids, found.lookup id = relationOf id) ∧ ∀ id ∉ ids, found.lookup id = none
  incident : ∀ role resource, ∀ id ∈ rows.incidentIds role resource, relationOf id ≠ none

/-- Everyone is answered allowed or denied. -/
def decidedBy (allows : ResourceId → Bool) : ScopedAccess := fun id =>
  .ok (if allows id then .allowed else .denied)

namespace Rows

variable {rows : Rows} {sha256 : Bytes → Digest} {time : TimeCodecs}
  {temporalOf : ResourceId → Option TemporalProjection}
  {relationOf : RelationId → Option TypedRelationInstance} {plan : GraphTraversalPlan}
  {allows : ResourceId → Bool}

def sceneOf (rows : Rows) (temporalOf : ResourceId → Option TemporalProjection)
    (relationOf : RelationId → Option TypedRelationInstance) (plan : GraphTraversalPlan)
    (allows : ResourceId → Bool) : Scene where
  visible resource := (temporalOf resource).any fun temporal =>
    temporal.validFor plan && allows resource
  incident resource role := (rows.incidentIds role resource).filterMap relationOf

/-- What is remembered is what the rows give; the relations `loaded` are remembered. -/
structure Remembers (rows : Rows) (temporalOf : ResourceId → Option TemporalProjection)
    (relationOf : RelationId → Option TypedRelationInstance) (plan : GraphTraversalPlan)
    (allows : ResourceId → Bool) (loaded : List RelationId) (s : ReaderState) : Prop where
  relations : ∀ id r, s.relations.lookup id = some r → relationOf id = some r
  temporal : ∀ id t, s.temporal.lookup id = some t → t = temporalOf id
  visible : ∀ id v, s.visible.lookup id = some v →
    v = (rows.sceneOf temporalOf relationOf plan allows).visible id
  loaded : ∀ id ∈ loaded, s.relations.lookup id ≠ none

/-- Loading resources leaves what is remembered, and the wanted metadata with it. -/
theorem loadResources_run (serves : rows.Serves sha256 time temporalOf relationOf)
    {loaded : List RelationId} {s : ReaderState}
    (h : Remembers rows temporalOf relationOf plan allows loaded s) (wanted : List ResourceId)
    (access : ScopedAccess) :
    ∃ t, rows.loadResources wanted access s = .ok ((), t) ∧
      Remembers rows temporalOf relationOf plan allows loaded t ∧
      ∀ id ∈ wanted, t.temporal.lookup id = some (temporalOf id) := by
  have run : rows.loadResources wanted access s =
      (if (wanted.filter fun id => (s.temporal.lookup id).isNone) = [] then pure ()
      else lift ((rows.readResources (wanted.filter fun id =>
        (s.temporal.lookup id).isNone)).mapError searchError) >>= fun found =>
          update fun s => { s with temporal := found ++ s.temporal } :
        ReaderM Unit) access s := rfl
  have remembered : ∀ id t, s.temporal.lookup id = some t → some (temporalOf id) = some t :=
    fun id t found => congrArg some (h.temporal id t found).symm
  rw [run]
  split
  next none =>
    obtain ⟨-, there⟩ := lookup_filled (l := []) remembered (by rw [none]; simp) (by simp)
    exact ⟨s, rfl, h, there⟩
  · obtain ⟨found, read, inside, outside⟩ := serves.resources (wanted.filter fun id =>
      (s.temporal.lookup id).isNone)
    obtain ⟨kept, there⟩ := lookup_filled remembered inside outside
    refine ⟨{ s with temporal := found ++ s.temporal }, ?_,
      ⟨h.relations, ?_, h.visible, h.loaded⟩, there⟩
    · rw [read]
      rfl
    · intro id t ht
      exact (Option.some.inj (kept id t ht)).symm

/-- Loading relations leaves what is remembered, and the wanted relations with it. -/
theorem loadRelations_leads (serves : rows.Serves sha256 time temporalOf relationOf)
    {wanted : List RelationId} (distinct : wanted.Nodup)
    (there : ∀ id ∈ wanted, relationOf id ≠ none) {access : ScopedAccess} :
    Leads (Remembers rows temporalOf relationOf plan allows [])
      (Remembers rows temporalOf relationOf plan allows wanted) access
      (rows.loadRelations sha256 time wanted) (.ok ()) := by
  intro s h
  have run : rows.loadRelations sha256 time wanted access s =
      (if (wanted.filter fun id => (s.relations.lookup id).isNone) = [] then pure ()
      else lift ((rows.readRelations sha256 time (wanted.filter fun id =>
        (s.relations.lookup id).isNone)).mapError searchError) >>= fun found =>
          update fun s => { s with relations := found ++ s.relations } :
        ReaderM Unit) access s := rfl
  change ∃ t, rows.loadRelations sha256 time wanted access s = .ok ((), t) ∧ _
  rw [run]
  split
  next none =>
    obtain ⟨-, known⟩ := lookup_filled (l := []) h.relations (by rw [none]; simp) (by simp)
    refine ⟨s, rfl, h.relations, h.temporal, h.visible, ?_⟩
    intro id hid
    exact (known id hid).trans_ne (there id hid)
  · obtain ⟨found, read, inside, outside⟩ := serves.relations
      (wanted.filter fun id => (s.relations.lookup id).isNone) (distinct.filter _)
      fun id hid => there id (mem_of_mem_filter hid)
    obtain ⟨kept, known⟩ := lookup_filled h.relations inside outside
    refine ⟨{ s with relations := found ++ s.relations }, ?_, kept, h.temporal, h.visible, ?_⟩
    · rw [read]
      rfl
    · intro id hid
      exact (known id hid).trans_ne (there id hid)

/-! ## Visibility -/

theorem gate_decidedBy (target : plan.temporalTarget ≠ none) (temporal : Option TemporalProjection)
    (resource : ResourceId) : gate plan (decidedBy allows) temporal resource =
      .ok (temporal.any fun temporal => temporal.validFor plan && allows resource) := by
  obtain ⟨t, ht⟩ := Option.ne_none_iff_exists'.mp target
  cases temporal with
  | none => rfl
  | some temporal =>
    unfold gate
    rw [ht]
    simp only [okOr, Option.any_some, TemporalProjection.validFor, ht, decidedBy, except_ok_bind]
    by_cases inside : (within temporal.validFrom temporal.validTo t &&
        within temporal.profile.effectiveFrom temporal.profile.effectiveTo t) = true
    · rw [if_pos inside, inside, Bool.true_and]
      cases allows resource <;> rfl
    · rw [if_neg inside, Bool.not_eq_true _ |>.mp inside, Bool.false_and]
      rfl

section

variable (serves : rows.Serves sha256 time temporalOf relationOf)
  (target : plan.temporalTarget ≠ none) {loaded : List RelationId}

include serves target

theorem visible_computes (resource : ResourceId) :
    Computes (Remembers rows temporalOf relationOf plan allows loaded) (decidedBy allows)
      (rows.visible plan resource)
      (.ok ((rows.sceneOf temporalOf relationOf plan allows).visible resource)) := by
  intro s h
  have run : rows.visible plan resource (decidedBy allows) s =
      (match s.visible.lookup resource with
        | some visible => pure visible
        | none => rows.judge plan resource : ReaderM Bool) (decidedBy allows) s := rfl
  change ∃ t, rows.visible plan resource (decidedBy allows) s = .ok (_, t) ∧ _
  rw [run]
  cases found : s.visible.lookup resource with
  | some v =>
    refine ⟨s, ?_, h⟩
    rw [← h.visible resource v found]
    rfl
  | none =>
    obtain ⟨t, loads, ht, there⟩ := loadResources_run serves h [resource] (decidedBy allows)
    have temporal := there resource mem_cons_self
    have judged : rows.judge plan resource (decidedBy allows) s =
        .ok ((rows.sceneOf temporalOf relationOf plan allows).visible resource,
          { t with visible := (resource, (rows.sceneOf temporalOf relationOf plan allows).visible
            resource) :: t.visible }) := by
      unfold judge
      rw [bind_of_ok loads]
      change (lift (gate plan (decidedBy allows) ((t.temporal.lookup resource).getD none) resource)
        >>= _ : ReaderM Bool) (decidedBy allows) t = _
      rw [temporal, Option.getD_some, gate_decidedBy target]
      rfl
    refine ⟨_, judged, ht.relations, ht.temporal, ?_, ht.loaded⟩
    intro other v seen
    rw [lookup_cons] at seen
    by_cases same : other = resource
    · subst same
      simpa using seen.symm
    · rw [beq_false_of_ne same] at seen
      exact ht.visible other v seen

theorem allVisible_computes (participants : List RelationParticipant) :
    Computes (Remembers rows temporalOf relationOf plan allows loaded) (decidedBy allows)
      (rows.allVisible plan participants)
      (.ok (participants.all fun p =>
        (rows.sceneOf temporalOf relationOf plan allows).visible p.resourceRef)) := by
  induction participants with
  | nil => exact computes_pure
  | cons p rest ih =>
    rw [all_cons]
    exact computes_and (visible_computes serves target p.resourceRef) ih

omit serves target in
/-- What a resource's entry says, if there is one, is what the rows say. -/
theorem incidence_lookup {resources : List ResourceId} {resource : ResourceId}
    (here : resource ∈ resources) (role : String) :
    ((rows.incidence resources role).lookup resource).getD [] = rows.incidentIds role resource := by
  unfold incidence
  rw [filter_map]
  change (lookup resource (map (fun x => (id x, rows.incidentIds role x)) _)).getD [] = _
  rw [lookup_map]
  cases found : (resources.filter _).find? fun x => decide (id x = resource) with
  | some x =>
    obtain rfl : x = resource := by simpa using find?_some found
    rfl
  | none =>
    by_contra listed
    refine find?_eq_none.mp found resource (mem_filter.mpr ⟨here, ?_⟩) (decide_eq_true rfl)
    exact decide_eq_true (Ne.symm listed)

theorem visitRelation_computes {relation : RelationId} {r : TypedRelationInstance}
    (here : relation ∈ loaded) (stored : relationOf relation = some r)
    (pattern : RelationPathPattern) (path : PartialPath) (level : Level) (x : Expansion) :
    Computes (Remembers rows temporalOf relationOf plan allows loaded) (decidedBy allows)
      (rows.visitRelation plan pattern path level x relation)
      (if (follows plan pattern path r && r.participants.all fun p =>
          (rows.sceneOf temporalOf relationOf plan allows).visible p.resourceRef) = true then
        expandRelation plan pattern path level x r else .ok x) := by
  intro s h
  have found : s.relations.lookup relation = some r := by
    obtain ⟨other, ho⟩ := Option.ne_none_iff_exists'.mp (h.loaded relation here)
    rw [ho, ← stored, h.relations relation other ho]
  have run : rows.visitRelation plan pattern path level x relation (decidedBy allows) s =
      rows.expandLoaded plan pattern path level x r (decidedBy allows) s := by
    change (expect (s.relations.lookup relation) unavailable >>= _ : ReaderM Expansion)
      (decidedBy allows) s = _
    rw [found]
    rfl
  have expanded : Computes (Remembers rows temporalOf relationOf plan allows loaded)
      (decidedBy allows) (rows.expandLoaded plan pattern path level x r) _ :=
    computes_unless (computes_test (allVisible_computes serves target r.participants) computes_lift
      computes_pure)
  have answer := expanded s h
  rw [← run] at answer
  exact answer

theorem expandPath_computes {incidence : List (ResourceId × List RelationId)} {path : PartialPath}
    {pattern : RelationPathPattern}
    (entry : (incidence.lookup path.current).getD [] =
      rows.incidentIds pattern.fromRole path.current)
    (inside : ∀ id ∈ rows.incidentIds pattern.fromRole path.current, id ∈ loaded) (level : Level) :
    Computes (Remembers rows temporalOf relationOf plan allows loaded) (decidedBy allows)
      (rows.expandPath plan incidence pattern level path)
      ((rows.sceneOf temporalOf relationOf plan allows).expandPath plan pattern level path) := by
  have there := serves.incident pattern.fromRole path.current
  unfold Rows.expandPath
  rw [entry]
  apply Computes.bind
  · change Computes _ _ _ ((((rows.incidentIds pattern.fromRole path.current).filterMap
      relationOf).filter
      _).foldlM _ _)
    rw [foldlM_filter, foldlM_filterMap]
    apply computes_foldlM
    intro x relation here
    obtain ⟨r, stored⟩ := Option.ne_none_iff_exists'.mp (there relation here)
    rw [stored]
    exact visitRelation_computes serves target (inside relation here) stored pattern path level x
  · intro x
    exact computes_lift

/-- One level: the relations of the whole frontier are loaded first, then each path is expanded. -/
theorem expandFrontier_computes (frontier : Level) (pattern : RelationPathPattern) :
    Computes (Remembers rows temporalOf relationOf plan allows []) (decidedBy allows)
      (rows.expandFrontier plan sha256 time frontier pattern)
      ((rows.sceneOf temporalOf relationOf plan allows).expandFrontier plan frontier pattern) := by
  let currents := Keyed.ofList id (frontier.next.map PartialPath.current)
  let incidence := rows.incidence currents pattern.fromRole
  let wanted := Keyed.ofList id (incidence.flatMap Prod.snd)
  have distinct : wanted.Nodup := (Keyed.Ordered.ofList _).nodup
  have there : ∀ id ∈ wanted, relationOf id ≠ none := by
    intro id hid
    obtain ⟨e, he, hid⟩ := mem_flatMap.mp (Keyed.mem_ofList_id.mp hid)
    obtain ⟨resource, -, rfl⟩ := mem_map.mp (mem_of_mem_filter he)
    exact serves.incident _ _ id hid
  have entry (path : PartialPath) (hpath : path ∈ frontier.next) :
      (incidence.lookup path.current).getD [] = rows.incidentIds pattern.fromRole path.current :=
    incidence_lookup (Keyed.mem_ofList_id.mpr (mem_map_of_mem hpath)) pattern.fromRole
  have inside (path : PartialPath) (hpath : path ∈ frontier.next) :
      ∀ id ∈ rows.incidentIds pattern.fromRole path.current, id ∈ wanted := by
    intro id hid
    rw [← entry path hpath] at hid
    cases found : incidence.lookup path.current with
    | none =>
      rw [found] at hid
      cases hid
    | some ids =>
      rw [found] at hid
      obtain ⟨before, after, whole, -⟩ := lookup_eq_some_iff.mp found
      have mem : (path.current, ids) ∈ incidence := by
        rw [whole]
        simp
      exact Keyed.mem_ofList_id.mpr (mem_flatMap.mpr ⟨_, mem, hid⟩)
  have rest : Leads (Remembers rows temporalOf relationOf plan allows wanted)
      (Remembers rows temporalOf relationOf plan allows []) (decidedBy allows)
      (frontier.next.foldlM (rows.expandPath plan incidence pattern) ⟨[], frontier.expanded⟩)
      ((rows.sceneOf temporalOf relationOf plan allows).expandFrontier plan frontier pattern) := by
    have fold := computes_foldlM (I := Remembers rows temporalOf relationOf plan allows wanted)
      (r := decidedBy allows) (l := frontier.next) (fun level path hpath =>
        expandPath_computes serves target (entry path hpath) (inside path hpath) level)
      ⟨[], frontier.expanded⟩
    exact fold.mono (fun _ h => h) fun s h => ⟨h.relations, h.temporal, h.visible, by simp⟩
  apply (loadRelations_leads serves distinct there).bind (x := .ok ()) (y := fun _ => _)
  intro _
  apply leads_state
  intro u
  have members : Leads (Remembers rows temporalOf relationOf plan allows wanted)
      (Remembers rows temporalOf relationOf plan allows wanted) (decidedBy allows)
      (rows.loadResources (membersOf plan pattern wanted u)) (.ok ()) := by
    intro s h
    obtain ⟨t, run, ht, -⟩ := loadResources_run serves h (membersOf plan pattern wanted u)
      (decidedBy allows)
    exact ⟨t, run, ht⟩
  exact members.bind (x := .ok ()) (y := fun _ => _) fun _ => rest

theorem visitSeed_computes (frontier : List PartialPath) (resource : ResourceId) :
    Computes (Remembers rows temporalOf relationOf plan allows loaded) (decidedBy allows)
      (rows.visitSeed plan frontier resource)
      (if (rows.sceneOf temporalOf relationOf plan allows).visible resource = true then
        addSeed plan frontier resource else .ok frontier) :=
  computes_test (visible_computes serves target resource) computes_lift computes_pure

theorem traverse_computes :
    Computes (Remembers rows temporalOf relationOf plan allows []) (decidedBy allows)
      (rows.traverse plan sha256 time)
      (do
        let level ← (rows.sceneOf temporalOf relationOf plan allows).frontier plan
        return level.next) := by
  have seeds : Computes (Remembers rows temporalOf relationOf plan allows []) (decidedBy allows)
      (rows.loadResources (Keyed.ofList id plan.seedNodes)) (.ok ()) := by
    intro s h
    obtain ⟨t, run, ht, -⟩ := loadResources_run serves h (Keyed.ofList id plan.seedNodes)
      (decidedBy allows)
    exact ⟨t, run, ht⟩
  rw [Scene.frontier, bind_assoc]
  apply seeds.bind (x := .ok ()) (y := fun _ => _)
  intro _
  apply Computes.bind
  · rw [Scene.seeds, foldlM_filter]
    exact computes_foldlM (fun frontier id _ => visitSeed_computes serves target frontier id) []
  · intro seeds
    apply Computes.bind
    · exact computes_foldlM (fun level pattern _ =>
        expandFrontier_computes serves target level pattern) ⟨seeds, 0⟩
    · intro level
      exact computes_pure

end

/-- A reader that has read nothing yet walks the scene of its rows. -/
theorem traverse_eq_frontier (serves : rows.Serves sha256 time temporalOf relationOf)
    (target : plan.temporalTarget ≠ none) :
    (rows.traverse plan sha256 time (decidedBy allows) ⟨[], [], []⟩).map Prod.fst =
      ((rows.sceneOf temporalOf relationOf plan allows).frontier plan).map Level.next := by
  have start : Remembers rows temporalOf relationOf plan allows [] ⟨[], [], []⟩ :=
    ⟨by simp, by simp, by simp, by simp⟩
  have answer := traverse_computes serves target _ start
  cases walked : (rows.sceneOf temporalOf relationOf plan allows).frontier plan with
  | error e =>
    rw [walked] at answer
    rw [show rows.traverse plan sha256 time (decidedBy allows) ⟨[], [], []⟩ = .error e from answer]
    rfl
  | ok =>
    rw [walked] at answer
    obtain ⟨t, traversed, -⟩ := answer
    rw [traversed]
    rfl

end Rows

end KnowledgePlatform.Graph
