import KnowledgePlatform.Graph.Canonical
import KnowledgePlatform.Lib.OrderedMap
import KnowledgePlatform.Search.Applicability

/-! Which sources a need is routed to, and when. -/

namespace KnowledgePlatform.Search

open List
open Graph (ResourceKind SourceId)

inductive DiscoveryMode where
  | localDirectory
  | localContentSearch
  | remoteEnumeration
  | remoteQuery
  | directAddress
  | liveOnly
deriving DecidableEq

inductive EnumerationSemantics where
  | complete
  | partially
  | queryOnly
  | none

/-- A source, with the ways to search it. -/
structure DiscoverableSource where
  sourceId : SourceId
  resourceTypes : List ResourceKind
  discoveryModes : List DiscoveryMode
  enumerationSemantics : EnumerationSemantics

structure DiscoveryNeed where
  requiredResourceTypes : List ResourceKind
  requiredClaims : List Uuid
  (authorityRequirements freshnessRequirements : List String)

inductive SourceRole where
  | required
  | preferred
  | expansion
deriving DecidableEq

inductive RouteStage where
  | initial
  | expansion
deriving DecidableEq

inductive RouteIssue where
  | missingRegistryEntry
  | conflictingRegistryEntries
  | resourceTypesUnknown
  | resourceTypeMismatch
  | noDiscoveryMode
  | runtimePortUnavailable
deriving DecidableEq

/-- Whether a source can be asked, and why not. -/
inductive RouteState where
  | planned
  | unresolved (issue : RouteIssue)
  | unsupported (issue : RouteIssue)
deriving DecidableEq

structure RoutingConstraints where
  (requiredSourceIds preferredSourceIds : List SourceId)
  maxInitialOptionalSources : Nat

/-- A need with its constraints and the modes that have a port, and how a source id is printed. -/
structure RoutingRequest where
  need : DiscoveryNeed
  constraints : RoutingConstraints
  runtimeModes : List DiscoveryMode
  debug : SourceId → String

/-- A source in a plan: when it is asked, and for what. -/
structure SourceRoute where
  sourceId : SourceId
  role : SourceRole
  stage : RouteStage
  discoveryMode : Option DiscoveryMode
  discoveryModes : List DiscoveryMode
  enumerationSemantics : Option EnumerationSemantics
  state : RouteState
  requiredClaims : List Uuid
  (authorityRequirements freshnessRequirements : List String)
  unresolvedGaps : List InformationGap

namespace RouteIssue

def debug : RouteIssue → String
  | missingRegistryEntry => "MissingRegistryEntry"
  | conflictingRegistryEntries => "ConflictingRegistryEntries"
  | resourceTypesUnknown => "ResourceTypesUnknown"
  | resourceTypeMismatch => "ResourceTypeMismatch"
  | noDiscoveryMode => "NoDiscoveryMode"
  | runtimePortUnavailable => "RuntimePortUnavailable"

def reason : RouteIssue → GapReason
  | missingRegistryEntry | conflictingRegistryEntries | noDiscoveryMode | runtimePortUnavailable =>
    .availability
  | resourceTypesUnknown | resourceTypeMismatch => .unsupportedCoverage

end RouteIssue

def RouteState.issue : RouteState → Option RouteIssue
  | planned => none
  | unresolved issue | unsupported issue => some issue

/-- A route that counts against the limit. -/
def SourceRoute.isOptionalInitial (r : SourceRoute) : Bool :=
  r.stage = .initial ∧ r.role ≠ .required

abbrev Sources := OrderedMap SourceId (Option DiscoverableSource)

/-- Any collision leaves the source without an entry, whatever the order. -/
def register (sources : Sources) (source : DiscoverableSource) : Sources :=
  sources.insert source.sourceId ((sources.get source.sourceId).elim (some source) fun _ => none)

def DiscoverableSource.modes (source : DiscoverableSource) : List DiscoveryMode :=
  [DiscoveryMode.localDirectory, .localContentSearch, .remoteEnumeration, .remoteQuery,
    .directAddress, .liveOnly].filter (· ∈ source.discoveryModes)

/-- The stage, and how many optional routes are initial with it. -/
def routeStage (role : SourceRole) (state : RouteState) (limit optionalInitial : Nat) :
    RouteStage × Nat :=
  if role = .required then (.initial, optionalInitial)
  else if role = .preferred ∧ state = .planned ∧ optionalInitial < limit then
    (.initial, optionalInitial + 1)
  else (.expansion, optionalInitial)

namespace RoutingRequest

def gaps (q : RoutingRequest) (id : SourceId) (role : SourceRole) (state : RouteState) :
    List InformationGap :=
  (state.issue.toList.map fun issue =>
    ⟨"source:" ++ q.debug id ++ ":" ++ issue.debug, issue.reason, role = .required⟩) ++
  (q.need.authorityRequirements.map fun text => ⟨"authority:" ++ text, .authority, true⟩) ++
  q.need.freshnessRequirements.map fun text => ⟨"freshness:" ++ text, .freshness, true⟩

/-- The route of a source that was not seen before, if it has one. -/
def route (q : RoutingRequest) (entry : Option (Option DiscoverableSource)) (optionalInitial : Nat)
    (id : SourceId) : Option (SourceRoute × Nat) :=
  let required := decide (id ∈ q.constraints.requiredSourceIds)
  let preferred := decide (id ∈ q.constraints.preferredSourceIds)
  let conflict := entry.any Option.isNone
  let source := entry.join
  let typeMatch := source.any fun source => q.need.requiredResourceTypes.isEmpty ||
    source.resourceTypes.any (· ∈ q.need.requiredResourceTypes)
  let typesUnknown := source.any (fun source => source.resourceTypes.isEmpty) &&
    !q.need.requiredResourceTypes.isEmpty
  if !(required || preferred) && !typeMatch && !typesUnknown && !conflict then none
  else
    let role := if required then SourceRole.required
      else if preferred || typeMatch then .preferred
      else .expansion
    let modes := (source.map DiscoverableSource.modes).getD []
    let state : RouteState := if conflict then .unresolved .conflictingRegistryEntries
      else if source.isNone then .unresolved .missingRegistryEntry
      else if !typeMatch && !typesUnknown then .unresolved .resourceTypeMismatch
      else if typesUnknown then .unresolved .resourceTypesUnknown
      else if modes.head?.isNone then .unresolved .noDiscoveryMode
      else if !modes.any (· ∈ q.runtimeModes) then .unsupported .runtimePortUnavailable
      else .planned
    let staged := routeStage role state q.constraints.maxInitialOptionalSources optionalInitial
    some (⟨id, role, staged.1, modes.head?, modes, source.map (·.enumerationSemantics), state,
      q.need.requiredClaims, q.need.authorityRequirements, q.need.freshnessRequirements,
      q.gaps id role state⟩, staged.2)

def routes (q : RoutingRequest) (sources : Sources) (seen : List SourceId) (optionalInitial : Nat) :
    List SourceId → List SourceRoute
  | [] => []
  | id :: ids =>
    if id ∈ seen then q.routes sources seen optionalInitial ids
    else match q.route (sources.get id) optionalInitial id with
      | none => q.routes sources (id :: seen) optionalInitial ids
      | some (made, optionalInitial) => made :: q.routes sources (id :: seen) optionalInitial ids

/-- Required sources first, then preferred ones, then the others. -/
def planWithRuntimeModes (q : RoutingRequest) (registrySources : List DiscoverableSource) :
    List SourceRoute :=
  let sources := registrySources.foldl register .empty
  q.routes sources [] 0
    (q.constraints.requiredSourceIds ++ q.constraints.preferredSourceIds ++ sources.keys)

variable {q : RoutingRequest} {sources : Sources} {entry : Option (Option DiscoverableSource)}
  {seen ids : List SourceId} {id : SourceId} {n m : Nat} {r : SourceRoute}

theorem routeStage_counted (role : SourceRole) (state : RouteState) (limit n : Nat) :
    (routeStage role state limit n).2 =
      n + (decide ((routeStage role state limit n).1 = .initial ∧ role ≠ .required)).toNat ∧
      (n ≤ limit → (routeStage role state limit n).2 ≤ limit) := by
  unfold routeStage
  split
  next same => simp [same]
  next other =>
    split
    next free => simp [other, Nat.succ_le_of_lt free.2.2]
    · simp

theorem route_ok (h : q.route entry n id = some (r, m)) :
    r.sourceId = id ∧
      (id ∈ q.constraints.requiredSourceIds → r.role = .required ∧ r.stage = .initial) ∧
      m = n + r.isOptionalInitial.toNat ∧ (n ≤ q.constraints.maxInitialOptionalSources →
        m ≤ q.constraints.maxInitialOptionalSources) := by
  unfold route at h
  dsimp only at h
  split at h
  · cases h
  · cases h
    exact ⟨rfl, fun needed => by simp [routeStage, needed], routeStage_counted _ _ _ _⟩

theorem route_required (needed : id ∈ q.constraints.requiredSourceIds) :
    ∃ r m, q.route entry n id = some (r, m) := by
  unfold route
  dsimp only
  rw [if_neg (by simp [needed])]
  exact ⟨_, _, rfl⟩

/-- The routes are of sources not seen before, each of one. -/
theorem routes_apart :
    ((q.routes sources seen n ids).map (·.sourceId)).Nodup ∧
      ∀ r ∈ q.routes sources seen n ids, r.sourceId ∉ seen := by
  induction ids generalizing seen n with
  | nil => simp [routes]
  | cons id ids ih =>
    unfold routes
    split
    · exact ih
    next new =>
      split
      · exact ⟨ih.1, fun r mem old => ih.2 r mem (.tail _ old)⟩
      next made k done =>
        obtain ⟨rfl, -⟩ := route_ok done
        constructor
        · rw [map_cons, nodup_cons]
          refine ⟨fun again => ?_, ih.1⟩
          obtain ⟨r, mem, same⟩ := mem_map.mp again
          exact ih.2 r mem (same ▸ .head _)
        · rw [forall_mem_cons]
          exact ⟨new, fun r mem old => ih.2 r mem (.tail _ old)⟩

theorem routes_bounded (few : n ≤ q.constraints.maxInitialOptionalSources) :
    n + (q.routes sources seen n ids).countP (·.isOptionalInitial) ≤
      q.constraints.maxInitialOptionalSources := by
  induction ids generalizing seen n with
  | nil => exact few
  | cons id ids ih =>
    unfold routes
    split
    · exact ih few
    · split
      · exact ih few
      next made k done =>
        obtain ⟨-, -, counted, within⟩ := route_ok done
        have rest := @ih (id :: seen) k (within few)
        rw [countP_cons]
        cases optional : made.isOptionalInitial <;> simp [optional] at counted ⊢ <;> omega

theorem routes_required (mem : id ∈ ids) (new : id ∉ seen)
    (needed : id ∈ q.constraints.requiredSourceIds) :
    ∃ r ∈ q.routes sources seen n ids,
      r.sourceId = id ∧ r.role = .required ∧ r.stage = .initial := by
  induction ids generalizing seen n with
  | nil => cases mem
  | cons first ids ih =>
    unfold routes
    by_cases here : id = first
    · subst here
      obtain ⟨r, m, made⟩ : ∃ r m, q.route (sources.get id) n id = some (r, m) :=
        route_required needed
      obtain ⟨same, role, -⟩ := route_ok made
      rw [if_neg new, made]
      exact ⟨r, .head _, same, role needed⟩
    · have mem := (mem_cons.mp mem).resolve_left here
      have new' : id ∉ first :: seen := fun old => new ((mem_cons.mp old).resolve_left here)
      split
      · exact ih mem new
      · split
        · exact ih mem new'
        · obtain ⟨r, inside, facts⟩ := ih mem new'
          exact ⟨r, .tail _ inside, facts⟩

/-- Each source has one route at most, a required one an initial route, the other initial routes are
within the limit, and the order of the registry does not matter. -/
theorem routing_plan (q : RoutingRequest) (registry : List DiscoverableSource) :
    ((q.planWithRuntimeModes registry).map (·.sourceId)).Nodup ∧
    (∀ id ∈ q.constraints.requiredSourceIds, ∃ r ∈ q.planWithRuntimeModes registry,
      r.sourceId = id ∧ r.role = .required ∧ r.stage = .initial) ∧
    (q.planWithRuntimeModes registry).countP (·.isOptionalInitial) ≤
      q.constraints.maxInitialOptionalSources ∧
    ∀ other, other.Perm registry →
      q.planWithRuntimeModes other = q.planWithRuntimeModes registry := by
  refine ⟨routes_apart.1, fun id needed => ?_, ?_, fun other perm => ?_⟩
  · exact routes_required (by simp [needed]) not_mem_nil needed
  · exact (Nat.le_add_left _ 0).trans (routes_bounded (Nat.zero_le _))
  · have comm : RightCommutative register := by
      constructor
      intro sources a b
      apply OrderedMap.ext_get
      intro k
      simp only [register, OrderedMap.get_insert]
      by_cases same : a.sourceId = b.sourceId
      · simp only [same, if_true]
        split <;> rfl
      · simp only [same, Ne.symm same, if_false]
        by_cases first : k = a.sourceId
        · simp [first, same]
        · simp [first]
    rw [planWithRuntimeModes, planWithRuntimeModes, perm.foldl_eq]

end RoutingRequest

end KnowledgePlatform.Search
