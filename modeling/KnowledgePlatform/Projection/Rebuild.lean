import KnowledgePlatform.Projection.Lifecycle

/-! An incremental generation is what a full build of its resources gives. -/

namespace KnowledgePlatform.Projection

open List
open Graph (ResourceId SourceId ProjectionGenerationId ProjectionGenerationKey
  ProjectionGenerationManifest SearchError)

/-! ## What every stored generation is -/

variable {json : Serializer} {sha256 : Bytes → Digest} {s t : State} {call : StoreCall}
  {reply : Except SearchError Unit} {trace : List StoreEvent}

/-- A stored generation: its contents are in canonical form, and once frozen they have passed. -/
structure Sound (json : Serializer) (sha256 : Bytes → Digest) (key : ProjectionGenerationKey)
    (segment : Segment) : Prop where
  key : segment.manifest.key = key
  resources : ∀ id p, segment.resources.get id = some p → IsCanonical json p
  registry : ∀ registry, segment.registry = some registry → canonicalRegistry registry = registry
  passed : segment.phase.isFrozen = true → validateSegment json sha256 segment = .ok ()

variable {old : Segment}

theorem Sound.moved {key : ProjectionGenerationKey} (sound : Sound json sha256 key old)
    (frozen : old.phase.isFrozen = true) (phase : Phase) :
    Sound json sha256 key { old with phase } :=
  ⟨sound.key, sound.resources, sound.registry, fun _ => sound.passed frozen⟩

/-- A generation with other resources or another registry is still being built. -/
theorem passed_building {segment : Segment} {P : Prop} (building : segment.phase = .building)
    (frozen : segment.phase.isFrozen = true) : P := by
  rw [building] at frozen
  cases frozen

theorem published_not_failed (h : old.phase.isPublished = true) : old.phase ≠ .failed := by
  intro failed
  rw [failed] at h
  cases h

theorem carried_get {manifest : ProjectionGenerationManifest} {retired : OrderedSet ResourceId}
    {id : ResourceId} :
    (carried old manifest retired).get id =
      if id ∈ retired then none else (old.resources.get id).map fun p => { p with manifest } := by
  rw [carried, OrderedMap.get_map, OrderedMap.get_filter]
  by_cases gone : id ∈ retired <;> cases old.resources.get id <;> simp [gone]

theorem same_key {m n : ProjectionGenerationManifest} (h : m.same n = true) : m.key = n.key := by
  rw [ProjectionGenerationManifest.same, Bool.and_eq_true] at h
  have fields := of_decide_eq_true h.1
  rw [← fields]
  rfl

variable {new : Segment}

theorem Change.sound {key : ProjectionGenerationKey}
    (all : ∀ key segment, s.segment key = some segment → Sound json sha256 key segment)
    (about : call.key = some key) (change : Change json sha256 s call (s.segment key) new) :
    Sound json sha256 key new := by
  generalize held : s.segment key = old at change
  cases change with
  | begun =>
    cases about
    exact ⟨rfl, fun _ _ found => (by cases found), fun _ found => (by cases found),
      passed_building rfl⟩
  | carried manifest base _ old there =>
    cases about
    have sound := all base old there
    refine ⟨rfl, ?_, sound.registry, passed_building rfl⟩
    intro id p found
    rw [carried_get] at found
    split at found
    · cases found
    · obtain ⟨q, carriedThere, rfl⟩ := Option.map_eq_some_iff.mp found
      exact (sound.resources id q carriedThere).stamped manifest
  | staged _ _ old _ canonical done =>
    have sound := all key old held
    obtain ⟨building, rfl, -⟩ := stage_ok done
    refine ⟨sound.key, ?_, sound.registry, passed_building building⟩
    intro id q found
    rw [OrderedMap.get_insert] at found
    split at found
    · cases found
      exact canonicalProjection_again canonical
    · exact sound.resources id q found
  | registered _ registry old _ _ done =>
    have sound := all key old held
    obtain ⟨building, -, rfl⟩ := stageRegistry_ok done
    refine ⟨sound.key, sound.resources, ?_, passed_building building⟩
    intro staged found
    cases found
    exact canonicalRegistry_again registry
  | validated _ old _ valid =>
    have sound := all key old held
    exact ⟨sound.key, sound.resources, sound.registry, fun _ => valid⟩
  | rejected _ old | failed _ old =>
    have sound := all key old held
    exact ⟨sound.key, sound.resources, sound.registry, nofun⟩

/-- A run with what it keeps of every generation. -/
theorem sound_run (run : Run (storeStep json sha256) .empty trace s)
    (key : ProjectionGenerationKey) (segment : Segment) (there : s.segment key = some segment) :
    Sound json sha256 key segment := by
  induction run generalizing key segment with
  | start => cases there
  | next run h ih =>
    have points := pointed_run pointed_empty run
    cases (storeStep_effect points h).fate points key with
    | still _ now => exact ih key segment (now.symm.trans there)
    | changed _ about change _ now =>
      cases now.symm.trans there
      exact change.sound ih about
    | discarded _ _ _ _ now => cases now.symm.trans there
    | published old _ found ready now =>
      cases now.symm.trans there
      exact (ih key old found).moved (by rw [ready]; rfl) .current
    | retired old _ found was now =>
      cases now.symm.trans there
      exact (ih key old found).moved (by rw [was]; rfl) .retired

/-- A generation that has not failed holds the registry. -/
def Holds (s : State) (source : SourceId) (registry : SemanticRegistrySnapshot) : Prop :=
  ∃ key segment, key.sourceId = source ∧ s.segment key = some segment ∧ segment.phase ≠ .failed ∧
    segment.registry = some registry

/-- A source has one registry of each version. -/
def OneRegistry (s : State) : Prop :=
  ∀ source first second, Holds s source first → Holds s source second →
    first.version = second.version → first = second

variable {registry : SemanticRegistrySnapshot} {source : SourceId}

/-- Where a registry that is held after a call comes from. -/
theorem Effect.holds (points : Pointed s) (h : Effect json sha256 s call reply t)
    (holds : Holds t source registry) :
    Holds s source registry ∨ ∃ key given, call = .stageConceptRegistry key given ∧
      registry = canonicalRegistry given ∧
      ∀ held, Holds s source held → held.version = registry.version → held = registry := by
  obtain ⟨key, segment, rfl, there, phase, staged⟩ := holds
  cases h.fate points key with
  | still _ now => exact .inl ⟨key, segment, rfl, now.symm.trans there, phase, staged⟩
  | discarded _ _ _ _ now => cases now.symm.trans there
  | published old _ found was now | retired old _ found was now =>
    cases now.symm.trans there
    exact .inl ⟨key, old, rfl, found, by simp [was], staged⟩
  | changed new about change _ now =>
    cases now.symm.trans there
    generalize held : s.segment key = old at change
    cases change with
    | begun => cases staged
    | carried _ base _ old before published source =>
      cases about
      exact .inl ⟨base, old, source, before, published_not_failed published, staged⟩
    | staged _ _ old _ _ done =>
      obtain ⟨building, rfl, -⟩ := stage_ok done
      exact .inl ⟨key, old, rfl, held, phase, staged⟩
    | registered _ given _ _ _ done =>
      cases about
      obtain ⟨building, -, rfl⟩ := stageRegistry_ok done
      cases staged
      refine .inr ⟨_, given, rfl, rfl, ?_⟩
      rintro held ⟨key, segment, sameSource, there, phase, staged⟩ version
      simp only [stageRegistry, except_iffs] at done
      obtain ⟨-, -, -, agree, -⟩ := done
      rw [any_eq_false] at agree
      rw [segment_eq, sameSource] at there
      have checked := agree segment (OrderedMap.mem_values.mpr ⟨_, there⟩)
      rw [staged] at checked
      by_contra differs
      simp [phase, version, differs] at checked
    | validated k old building =>
      exact .inl ⟨key, old, rfl, held, by simp [building], staged⟩
    | rejected | failed => exact absurd rfl phase

theorem oneRegistry_run (run : Run (storeStep json sha256) .empty trace s) : OneRegistry s := by
  induction run with
  | start =>
    rintro source first second ⟨key, segment, -, there, -⟩
    cases there
  | next run h ih =>
    have points := pointed_run pointed_empty run
    have effect := storeStep_effect points h
    intro source first second firstHeld secondHeld version
    obtain old | ⟨key, given, called, made, agrees⟩ := effect.holds points firstHeld
    · obtain old' | ⟨-, -, -, -, agrees'⟩ := effect.holds points secondHeld
      · exact ih source first second old old' version
      · exact agrees' first old version
    · obtain old' | ⟨key', given', called', made', -⟩ := effect.holds points secondHeld
      · exact (agrees second old' version.symm).symm
      · cases called.symm.trans called'
        exact made.trans made'.symm

/-- Whatever was called, a source has one registry of each version. -/
theorem one_registry_each_version (json : Serializer) (sha256 : Bytes → Digest)
    (calls : List StoreCall) : OneRegistry (State.empty.after json sha256 calls) := by
  obtain ⟨trace, run, -⟩ : ∃ trace, Run (storeStep json sha256) .empty trace _ ∧ _ :=
    State.after_run _ calls
  exact oneRegistry_run run

/-! ## The overlay -/

/-- What the accepted staging calls for a generation brought, in its canonical form. -/
def stagedResources (json : Serializer) (key : ProjectionGenerationKey) :
    List StoreEvent → OrderedMap ResourceId CompiledResourceProjection
  | [] => .empty
  | event :: trace =>
    match event.call, event.reply with
    | .stageResource input, .ok () =>
      if input.projection.manifest.key = key then
        match canonicalProjection json input.projection with
        | .ok p => (stagedResources json key trace).insert p.directory.resourceRef p
        | .error _ => stagedResources json key trace
      else stagedResources json key trace
    | _, _ => stagedResources json key trace

variable {event : StoreEvent}

theorem stagedResources_unstaged {key : ProjectionGenerationKey}
    (unstaged : event.call.staged.isSome = true →
      event.reply ≠ .ok () ∨ event.call.key ≠ some key) :
    stagedResources json key (event :: trace) = stagedResources json key trace := by
  obtain ⟨call, reply⟩ := event
  cases call with
  | stageResource =>
    cases reply with
    | error => rfl
    | ok =>
      obtain refused | other := unstaged rfl
      · exact absurd rfl refused
      · rw [stagedResources]
        simp only
        rw [if_neg fun same => other (congrArg some same)]
  | _ => rfl

/-- An incremental generation while it is built and after: the base's resources without the retired
ones under the new manifest, and over them what was staged. -/
structure Overlaid (json : Serializer) (manifest : ProjectionGenerationManifest)
    (retired : OrderedSet ResourceId) (old : Segment) (trace : List StoreEvent)
    (segment : Segment) : Prop where
  stamped : segment.manifest = manifest
  registry : segment.registry = old.registry
  resources : ∀ id, segment.resources.get id =
    ((stagedResources json manifest.key trace).get id).or ((carried old manifest retired).get id)

variable {manifest : ProjectionGenerationManifest} {retired : OrderedSet ResourceId}
  {segment : Segment}

theorem Overlaid.same (h : Overlaid json manifest retired old trace segment)
    (staged : stagedResources json manifest.key (event :: trace) =
      stagedResources json manifest.key trace) (phase : Phase) :
    Overlaid json manifest retired old (event :: trace) { segment with phase } := by
  refine ⟨h.stamped, h.registry, ?_⟩
  intro id
  rw [staged]
  exact h.resources id

theorem Overlaid.change (h : Overlaid json manifest retired old trace segment)
    (inherited : old.registry.isSome = true) (about : event.call.key = some manifest.key)
    (accepted : event.call.staged.isSome = true → event.reply = .ok ())
    (change : Change json sha256 s event.call (some segment) new) :
    Overlaid json manifest retired old (event :: trace) new := by
  obtain ⟨call, reply⟩ := event
  cases change with
  | staged input _ _ _ canonical done =>
    obtain ⟨-, rfl, -⟩ := stage_ok done
    refine ⟨h.stamped, h.registry, ?_⟩
    intro id
    have replied : reply = .ok () := accepted rfl
    have keyed : input.projection.manifest.key = manifest.key := Option.some.inj about
    rw [replied, stagedResources]
    simp only
    rw [if_pos keyed, canonical]
    simp only
    rw [OrderedMap.get_insert, OrderedMap.get_insert, h.resources]
    split <;> rfl
  | registered _ _ _ _ _ done =>
    obtain ⟨-, absent, -⟩ := stageRegistry_ok done
    rw [h.registry] at absent
    rw [absent] at inherited
    cases inherited
  | validated => exact h.same rfl .validated
  | rejected | failed => exact h.same rfl .failed

theorem Overlaid.step (points : Pointed s) (h : Overlaid json manifest retired old trace segment)
    (inherited : old.registry.isSome = true) (there : s.segment manifest.key = some segment)
    (taken : storeStep json sha256 s event t)
    (kept : event.call ≠ .discardUnpublishedGeneration manifest.key) :
    ∃ new, t.segment manifest.key = some new ∧
      Overlaid json manifest retired old (event :: trace) new := by
  cases (storeStep_effect points taken).fate points manifest.key with
  | still unstaged now =>
    exact ⟨segment, now.trans there, h.same (stagedResources_unstaged unstaged) segment.phase⟩
  | changed new about change accepted now =>
    rw [there] at change
    exact ⟨new, now, h.change inherited about accepted change⟩
  | published _ plain foundThere _ now | retired _ plain foundThere _ now =>
    cases there.symm.trans foundThere
    refine ⟨_, now, h.same (stagedResources_unstaged ?_) _⟩
    rw [plain]
    exact nofun
  | discarded _ about => exact absurd about kept

theorem overlaid_run {earlier : List StoreEvent} (points : Pointed s)
    (h : Overlaid json manifest retired old earlier segment)
    (inherited : old.registry.isSome = true) (there : s.segment manifest.key = some segment)
    (run : Run (storeStep json sha256) s trace t)
    (kept : ∀ event ∈ trace, event.call ≠ .discardUnpublishedGeneration manifest.key) :
    ∃ new, t.segment manifest.key = some new ∧
      Overlaid json manifest retired old (trace ++ earlier) new := by
  induction run with
  | start => exact ⟨segment, there, h⟩
  | next run taken ih =>
    obtain ⟨mid, found, overlaid⟩ := ih fun event inside =>
      kept event (.tail _ inside)
    exact overlaid.step (pointed_run points run) inherited found taken (kept _ mem_cons_self)

/-! ## A full build -/

/-- The state after calls that all succeed. -/
def State.build (json : Serializer) (sha256 : Bytes → Digest) (s : State) :
    List StoreCall → Except SearchError State
  | [] => .ok s
  | call :: calls =>
    match call.run json sha256 s with
    | (.ok (), t) => t.build json sha256 calls
    | (.error e, _) => .error e

/-- A build that stages with the calls between. -/
def fullBuild (manifest : ProjectionGenerationManifest) (calls : List StoreCall) : List StoreCall :=
  .beginGeneration manifest :: calls ++ [.validateGeneration manifest.key]

/-- What a staging call fills: a resource, or the registry. -/
def StoreCall.slot : StoreCall → Option ResourceId
  | stageResource input => some input.projection.directory.resourceRef
  | _ => none

/-- A generation with what a call stages. -/
def Segment.with (segment : Segment) : StoreCall → Segment
  | .stageResource input =>
    { segment with
      stagedIds := segment.stagedIds.insert input.projection.directory.resourceRef
      resources := segment.resources.insert input.projection.directory.resourceRef
        input.projection }
  | .stageConceptRegistry _ registry => { segment with registry := some registry }
  | _ => segment

def Segment.fills (segment : Segment) : Option ResourceId → Prop
  | some id => id ∈ segment.stagedIds
  | none => segment.registry.isSome = true

/-- The generation is not there, and the version of the registry is not taken by another. -/
structure Free (s : State) (key : ProjectionGenerationKey) (registry : SemanticRegistrySnapshot) :
    Prop where
  absent : s.segment key = none
  agrees : ∀ held, Holds s key.sourceId held → held.version = registry.version → held = registry

/-- A registry that a generation with the manifest can stage as it is. -/
structure Registered (manifest : ProjectionGenerationManifest)
    (registry : SemanticRegistrySnapshot) : Prop where
  valid : validateRegistry registry = .ok ()
  canonical : canonicalRegistry registry = registry
  version : registry.version = manifest.semanticRegistryVersion

/-- A resource that a generation with the manifest can stage as it is. -/
structure Stageable (json : Serializer) (manifest : ProjectionGenerationManifest)
    (p : CompiledResourceProjection) : Prop where
  canonical : IsCanonical json p
  stamped : p.manifest.same manifest = true
  ids : p.structured.resourceRef = p.directory.resourceRef ∧
    p.temporal.resourceRef = p.directory.resourceRef ∧
    p.access.resourceRef = p.directory.resourceRef
  persistent : p.retentionMode.isPersistent = true

inductive Fits (json : Serializer) (manifest : ProjectionGenerationManifest)
    (registry : SemanticRegistrySnapshot) : StoreCall → Prop where
  | registry : Fits json manifest registry (.stageConceptRegistry manifest.key registry)
  | resource (input : PersistableResourceProjection)
      (stageable : Stageable json manifest input.projection) :
      Fits json manifest registry (.stageResource input)

/-- The store while a generation is built in it: nothing else changes. -/
structure Underway (start : State) (manifest : ProjectionGenerationManifest) (s : State)
    (segment : Segment) : Prop where
  there : s.segment manifest.key = some segment
  stamped : segment.manifest = manifest
  building : segment.phase = .building
  unretired : segment.retiredIds = .empty
  others : ∀ key, key ≠ manifest.key → s.segment key = start.segment key

section

variable {start : State} {calls : List StoreCall} {key : ProjectionGenerationKey}

/-- A stored generation is in the state of its source. -/
theorem source_of_segment (there : s.segment key = some segment) :
    ∃ source, s.sources.get key.sourceId = some source ∧
      source.generations.get key.generationId = some segment := option_bind_some there

theorem changeSegment_accepts {unknown : SearchError}
    {change : SourceState → Segment → Except SearchError Segment}
    (there : s.segment key = some segment)
    (done : change (s.sourceOf key.sourceId) segment = .ok new) :
    ∃ t, changeSegment s key unknown change = (.ok (), t) ∧
      ∀ k, t.segment k = if k = key then some new else s.segment k := by
  obtain ⟨source, held, found⟩ := source_of_segment there
  have source_eq : s.sourceOf key.sourceId = source := sourceOf_some held
  rw [source_eq] at done
  refine ⟨s.setSegment key source new, ?_, fun k => segment_setSegment source_eq⟩
  simp only [changeSegment, held, found, done]

theorem Underway.set (h : Underway start manifest s segment)
    (segments : ∀ k, t.segment k = if k = manifest.key then some new else s.segment k)
    (stamped : new.manifest = manifest) (building : new.phase = .building)
    (unretired : new.retiredIds = .empty) : Underway start manifest t new := by
  refine ⟨(segments _).trans (if_pos rfl), stamped, building, unretired, ?_⟩
  intro key other
  rw [segments, if_neg other]
  exact h.others key other

/-- A staging call of the build whose slot is open succeeds. -/
theorem Underway.step (registered : Registered manifest registry)
    (free : Free start manifest.key registry) (h : Underway start manifest s segment)
    (fits : Fits json manifest registry call) (unfilled : ¬ segment.fills call.slot) :
    ∃ t, call.run json sha256 s = (.ok (), t) ∧ Underway start manifest t (segment.with call) := by
  cases fits with
  | registry =>
    have bare : segment.registry = none := by
      simpa [Segment.fills, StoreCall.slot] using unfilled
    have done : stageRegistry (canonicalRegistry registry) (s.sourceOf manifest.key.sourceId)
        segment = .ok { segment with registry := some registry } := by
      rw [registered.canonical]
      simp only [stageRegistry, except_iffs]
      refine ⟨h.building, ?_, ?_, ?_, trivial⟩
      · rw [h.stamped]
        exact registered.version
      · rw [bare]
        rfl
      · rw [any_eq_false]
        intro other inside
        obtain ⟨id, found⟩ := OrderedMap.mem_values.mp inside
        have there : s.segment ⟨manifest.key.sourceId, id⟩ = some other := by
          rw [segment_eq]
          exact found
        by_cases same : (⟨manifest.key.sourceId, id⟩ : ProjectionGenerationKey) = manifest.key
        · rw [same, h.there] at there
          cases there
          simp [bare]
        · rw [h.others _ same] at there
          cases held : other.registry with
          | none => simp
          | some staged =>
            have agrees := free.agrees staged
            by_cases failed : other.phase = .failed
            · simp [failed]
            · have agrees := agrees ⟨⟨manifest.key.sourceId, id⟩, other, rfl, there, failed, held⟩
              simpa [failed] using agrees
    obtain ⟨t, ran, segments⟩ : ∃ t, changeSegment s manifest.key
        (invalid "unknown projection source") (stageRegistry (canonicalRegistry registry)) =
          (.ok (), t) ∧ ∀ k, t.segment k = _ := changeSegment_accepts h.there done
    refine ⟨t, ?_, h.set segments h.stamped h.building h.unretired⟩
    change stageConceptRegistry s manifest.key registry = _
    rw [stageConceptRegistry, registered.valid]
    exact ran
  | resource input stageable =>
    have new : input.projection.directory.resourceRef ∉ segment.stagedIds := unfilled
    have done : stage segment input.projection = .ok (segment.with (.stageResource input)) := by
      simp only [stage, except_iffs]
      refine ⟨h.building, ?_, ?_, stageable.ids, stageable.persistent, new, rfl⟩
      · rw [h.stamped]
        exact stageable.stamped
      · rw [h.unretired]
        exact OrderedSet.not_mem_empty
    have key : input.projection.manifest.key = manifest.key := same_key stageable.stamped
    obtain ⟨t, ran, segments⟩ : ∃ t, changeSegment s manifest.key
        (invalid "unknown projection generation")
          (fun _ segment => stage segment input.projection) =
          (.ok (), t) ∧ ∀ k, t.segment k = _ := changeSegment_accepts h.there done
    refine ⟨t, ?_, h.set segments h.stamped h.building h.unretired⟩
    change stageResource json s input = _
    have canonical : canonicalProjection json input.projection = .ok input.projection :=
      stageable.canonical
    simp only [stageResource, canonical, key]
    exact ran

theorem fills_with (fits : Fits json manifest registry call) {slot : Option ResourceId} :
    (segment.with call).fills slot ↔ slot = call.slot ∨ segment.fills slot := by
  cases fits with
  | registry | resource => cases slot <;> simp [Segment.with, Segment.fills, StoreCall.slot]

/-- Calls of the build with slots of their own succeed in any order. -/
theorem Underway.build (registered : Registered manifest registry)
    (free : Free start manifest.key registry) (h : Underway start manifest s segment)
    (fits : ∀ call ∈ calls, Fits json manifest registry call)
    (apart : (calls.map StoreCall.slot).Nodup)
    (unfilled : ∀ call ∈ calls, ¬ segment.fills call.slot) (last : StoreCall) :
    ∃ t, s.build json sha256 (calls ++ [last]) = t.build json sha256 [last] ∧
      Underway start manifest t (calls.foldl Segment.with segment) := by
  induction calls generalizing s segment with
  | nil => exact ⟨s, rfl, h⟩
  | cons call calls ih =>
    rw [map_cons, nodup_cons] at apart
    have first := fits call mem_cons_self
    obtain ⟨mid, ran, underway⟩ : ∃ t, call.run json sha256 s = (.ok (), t) ∧
        Underway start manifest t (segment.with call) :=
      h.step registered free first (unfilled call mem_cons_self)
    have unfilled : ∀ other ∈ calls, ¬ (segment.with call).fills other.slot := by
      intro other inside filled
      obtain same | filled := (fills_with first).mp filled
      · exact apart.1 (same ▸ mem_map_of_mem inside)
      · exact unfilled other (.tail _ inside) filled
    obtain ⟨t, rest, done⟩ := ih underway
      (fun other inside => fits other (.tail _ inside)) apart.2 unfilled
    refine ⟨t, ?_, done⟩
    rw [cons_append, State.build, ran]
    exact rest

/-! ### What is built -/

variable {id : ResourceId}

section

variable (fits : ∀ call ∈ calls, Fits json manifest registry call)
include fits

/-- What no call stages stays. -/
theorem foldl_with_other (other : some id ∉ calls.map StoreCall.slot) :
    (calls.foldl Segment.with segment).resources.get id = segment.resources.get id := by
  induction calls generalizing segment with
  | nil => rfl
  | cons call _ ih =>
    rw [map_cons, mem_cons, not_or] at other
    rw [foldl_cons, ih (fun call inside => fits call (.tail _ inside)) other.2]
    cases fits call mem_cons_self with
    | registry => rfl
    | resource input =>
      have apart : id ≠ input.projection.directory.resourceRef := fun same => other.1 (same ▸ rfl)
      rw [Segment.with, OrderedMap.get_insert, if_neg apart]

theorem foldl_with_resource (apart : (calls.map StoreCall.slot).Nodup)
    {input : PersistableResourceProjection} (inside : .stageResource input ∈ calls) :
    (calls.foldl Segment.with segment).resources.get input.projection.directory.resourceRef =
      some input.projection := by
  induction calls generalizing segment with
  | nil => cases inside
  | cons call calls ih =>
    rw [map_cons, nodup_cons] at apart
    have rest : ∀ call ∈ calls, Fits json manifest registry call := fun call inside =>
      fits call (.tail _ inside)
    rw [foldl_cons]
    obtain same | inside := mem_cons.mp inside
    · subst same
      rw [foldl_with_other rest apart.1, Segment.with, OrderedMap.get_insert, if_pos rfl]
    · exact ih rest apart.2 inside

theorem foldl_with_registry
    (inside : .stageConceptRegistry manifest.key registry ∈ calls ∨
      segment.registry = some registry) :
    (calls.foldl Segment.with segment).registry = some registry := by
  induction calls generalizing segment with
  | nil =>
    obtain inside | held := inside
    · cases inside
    · exact held
  | cons call _ ih =>
    rw [foldl_cons]
    apply ih fun call inside => fits call (.tail _ inside)
    -- The call that is first either stages the registry or leaves it.
    cases fits call mem_cons_self with
    | registry => exact .inr rfl
    | resource =>
      obtain inside | held := inside
      · obtain same | inside := mem_cons.mp inside
        · cases same
        · exact .inl inside
      · exact .inr held

end

/-! ### Validation of both -/

theorem validateSegment_entry (h : validateSegment json sha256 segment = .ok ())
    {p : CompiledResourceProjection} (there : segment.resources.get id = some p) :
    p.directory.resourceRef = id ∧ p.manifest.same segment.manifest = true ∧
      (p.structured.resourceRef = id ∧ p.temporal.resourceRef = id ∧ p.access.resourceRef = id) ∧
      p.retentionMode.isPersistent = true := by
  simp only [validateSegment, except_iffs] at h
  obtain ⟨-, registry, -, -, -, all, checked, -⟩ := h
  obtain ⟨before, after, visited⟩ := foldlM_visits checked (OrderedMap.mem_entries.mpr there)
  simp only [checkResource, except_iffs] at visited
  obtain ⟨⟨stamped, ref, structured, temporal, access⟩, persistent, -⟩ := visited
  exact ⟨ref, stamped, ⟨structured, temporal, access⟩, persistent⟩

theorem validateSegment_registered (h : validateSegment json sha256 segment = .ok ()) :
    ∃ registry, segment.registry = some registry ∧ validateRegistry registry = .ok () ∧
      registry.version = segment.manifest.semanticRegistryVersion := by
  simp only [validateSegment, except_iffs] at h
  obtain ⟨-, registry, staged, valid, version, -⟩ := h
  exact ⟨registry, staged, valid, version⟩

/-- What validation reads: a generation with the same contents and nothing retired passes too. -/
theorem validateSegment_unretired {full : Segment}
    (h : validateSegment json sha256 segment = .ok ()) (stamped : full.manifest = segment.manifest)
    (resources : full.resources = segment.resources) (staged : full.registry = segment.registry)
    (unretired : full.retiredIds = .empty) : validateSegment json sha256 full = .ok () := by
  simp only [validateSegment, except_iffs] at h ⊢
  rw [stamped, resources, staged, unretired]
  obtain ⟨count, registry, held, valid, version, all, checked, rest⟩ := h
  refine ⟨count, registry, held, valid, version, all, foldlM_image (p := id) ?_ checked, rest⟩
  intro _ _ _ _ h
  simp only [id_eq, checkResource, except_iffs] at h ⊢
  obtain ⟨identity, persistent, seen, relations, done⟩ := h
  refine ⟨identity, persistent, seen, foldlM_image (p := id) ?_ relations, done⟩
  intro _ _ _ _ h
  simp only [id_eq, checkRelation, except_iffs] at h ⊢
  refine ⟨?_, h.2⟩
  rw [all_eq_true]
  intro participant _
  exact decide_eq_true OrderedSet.not_mem_empty

/-! ### The whole build -/

theorem beginGeneration_accepts (absent : s.segment manifest.key = none) :
    ∃ t, beginGeneration s manifest = (.ok (), t) ∧
      ∀ k, t.segment k = if k = manifest.key then
        some ⟨manifest, .building, .empty, none, .empty, .empty⟩ else s.segment k := by
  have held : s.sourceOf manifest.key.sourceId = (s.sources.get manifest.sourceId).getD .default :=
    rfl
  have new : ((s.sources.get manifest.sourceId).getD .default).generations.contains
      manifest.generationId = false := by
    rw [segment_eq, held] at absent
    exact OrderedMap.contains_eq_false.mpr absent
  refine ⟨_, ?_, fun k => segment_setSegment held⟩
  simp only [beginGeneration, new, Bool.false_eq_true, if_false]

theorem validateGeneration_accepts (there : s.segment key = some segment)
    (building : segment.phase = .building) (valid : validateSegment json sha256 segment = .ok ()) :
    ∃ t, validateGeneration json sha256 s key = (.ok (), t) ∧
      t.segment key = some { segment with phase := .validated } := by
  obtain ⟨source, held, found⟩ := source_of_segment there
  refine ⟨_, ?_, (segment_setSegment (sourceOf_some held)).trans (if_pos rfl)⟩
  simp only [validateGeneration, held, found, building, valid, ne_eq, not_true_eq_false, if_false]

theorem build_run {b : State} (h : s.build json sha256 calls = .ok b) :
    ∃ trace, Run (storeStep json sha256) s trace b := by
  induction calls generalizing s with
  | nil =>
    cases h
    exact ⟨[], .start⟩
  | cons call _ ih =>
    rw [State.build] at h
    split at h
    next t ran =>
      obtain ⟨trace, run⟩ := ih h
      have first : Run (storeStep json sha256) s [⟨call, .ok ()⟩] t := Run.start.next ran
      exact ⟨_, first.append run⟩
    · cases h

/-- The calls that stage a generation's contents. -/
def stagings (key : ProjectionGenerationKey) (registry : SemanticRegistrySnapshot)
    (inputs : List PersistableResourceProjection) : List StoreCall :=
  .stageConceptRegistry key registry :: inputs.map .stageResource

variable {built : Segment} {inputs : List PersistableResourceProjection}
  (resources : (inputs.map PersistableResourceProjection.projection).Perm built.resources.values)
include resources

/-- The slots of a validated generation's resources are apart. -/
theorem stagings_apart (valid : validateSegment json sha256 built = .ok ())
    (key : ProjectionGenerationKey) :
    ((stagings key registry inputs).map StoreCall.slot).Nodup := by
  have refs : built.resources.values.map (·.directory.resourceRef) = built.resources.keys := by
    rw [OrderedMap.values, OrderedMap.keys, map_map]
    apply map_congr_left
    intro entry inside
    exact (validateSegment_entry valid (OrderedMap.mem_entries.mp inside)).1
  have nodup : (inputs.map fun input => input.projection.directory.resourceRef).Nodup := by
    have perm := resources.map (·.directory.resourceRef)
    rw [refs, map_map] at perm
    exact perm.nodup_iff.mpr built.resources.keys_nodup
  rw [stagings, map_cons, map_map, nodup_cons]
  constructor
  · intro inside
    obtain ⟨input, -, same⟩ := mem_map.mp inside
    cases same
  · have slots : inputs.map (StoreCall.slot ∘ .stageResource) =
        (inputs.map fun input => input.projection.directory.resourceRef).map some := by
      rw [map_map]
      rfl
    rw [slots]
    exact nodup.map (Option.some_injective _)

/-- What is staged is an entry of the generation. -/
theorem staged_entry {input : PersistableResourceProjection} (member : input ∈ inputs) :
    ∃ id, built.resources.get id = some input.projection :=
  OrderedMap.mem_values.mp (resources.mem_iff.mp (mem_map_of_mem member))

/-- The same registry and resources, staged in any order, give the same contents. -/
theorem fullBuild_same (sound : Sound json sha256 manifest.key built)
    (stamped : built.manifest = manifest) (frozen : built.phase.isFrozen = true)
    (staged : built.registry = some registry) (free : Free start manifest.key registry)
    (order : calls.Perm (stagings manifest.key registry inputs)) :
    ∃ b full, start.build json sha256 (fullBuild manifest calls) = .ok b ∧
      b.segment manifest.key = some full ∧ full.phase = .validated ∧ full.manifest = manifest ∧
      full.resources = built.resources ∧ full.registry = built.registry := by
  have valid := sound.passed frozen
  obtain ⟨held, stagedHeld, registryValid, version⟩ := validateSegment_registered valid
  cases staged.symm.trans stagedHeld
  have registered : Registered manifest registry :=
    ⟨registryValid, sound.registry registry staged, stamped ▸ version⟩
  have fits : ∀ call ∈ calls, Fits json manifest registry call := by
    intro call inside
    obtain rfl | inside := mem_cons.mp (order.mem_iff.mp inside)
    · exact .registry
    · obtain ⟨input, member, rfl⟩ := mem_map.mp inside
      obtain ⟨id, there⟩ := staged_entry resources member
      obtain ⟨ref, same, ids, persistent⟩ := validateSegment_entry valid there
      refine .resource input ⟨sound.resources id _ there, stamped ▸ same, ?_, persistent⟩
      rw [ref]
      exact ids
  have apart : (calls.map StoreCall.slot).Nodup :=
    (order.map StoreCall.slot).nodup_iff.mpr (stagings_apart resources valid manifest.key)
  obtain ⟨s, begun, segments⟩ := beginGeneration_accepts free.absent
  have underway : Underway start manifest s ⟨manifest, .building, .empty, none, .empty, .empty⟩ :=
    ⟨(segments _).trans (if_pos rfl), rfl, rfl, rfl,
      fun key other => (segments key).trans (if_neg other)⟩
  have unfilled : ∀ call ∈ calls,
      ¬ (⟨manifest, .building, .empty, none, .empty, .empty⟩ : Segment).fills call.slot := by
    intro call _
    cases call.slot <;> simp [Segment.fills, OrderedSet.not_mem_empty]
  obtain ⟨t, building, done⟩ : ∃ t, s.build json sha256 (calls ++
      [.validateGeneration manifest.key]) = t.build json sha256 [.validateGeneration manifest.key] ∧
      Underway start manifest t _ := underway.build registered free fits apart unfilled _
  generalize contents : calls.foldl Segment.with _ = full at done
  have registryStaged : full.registry = built.registry := by
    rw [staged, ← contents]
    exact foldl_with_registry fits (.inl (order.mem_iff.mpr mem_cons_self))
  have resourcesStaged : full.resources = built.resources := by
    apply OrderedMap.ext_get
    intro id
    rw [← contents]
    cases there : built.resources.get id with
    | some p =>
      have stored : p ∈ inputs.map PersistableResourceProjection.projection :=
        resources.mem_iff.mpr (OrderedMap.mem_values.mpr ⟨id, there⟩)
      obtain ⟨input, member, rfl⟩ := mem_map.mp stored
      have called : .stageResource input ∈ calls :=
        order.mem_iff.mpr (.tail _ (mem_map_of_mem member))
      rw [← (validateSegment_entry valid there).1]
      exact foldl_with_resource fits apart called
    | none =>
      apply foldl_with_other fits
      -- A call that stages it would be for a resource of the generation.
      intro inside
      obtain ⟨call, called, slot⟩ := mem_map.mp inside
      obtain rfl | called := mem_cons.mp (order.mem_iff.mp called)
      · cases slot
      · obtain ⟨input, member, rfl⟩ := mem_map.mp called
        obtain ⟨k, found⟩ := staged_entry resources member
        have ref := (validateSegment_entry valid found).1
        cases ref.symm.trans (Option.some.inj slot)
        cases there.symm.trans found
  obtain ⟨b, validated, after⟩ := validateGeneration_accepts done.there done.building
    (validateSegment_unretired valid (done.stamped.trans stamped.symm) resourcesStaged
      registryStaged done.unretired)
  refine ⟨b, _, ?_, after, rfl, done.stamped, resourcesStaged, registryStaged⟩
  have first : StoreCall.run json sha256 start (.beginGeneration manifest) = (.ok (), s) := begun
  have last : StoreCall.run json sha256 t (.validateGeneration manifest.key) = (.ok (), b) :=
    validated
  rw [fullBuild, cons_append, State.build, first]
  simp only
  rw [building, State.build, last]
  rfl

end

/-! ## Queries -/

/-- The generation a query names. -/
def Query.key : Query → Option ProjectionGenerationKey
  | pinCurrent _ => none
  | resourceAt key _ => some key
  | assertionsFor key .. => some key
  | pinView key => some key
  | sameConcept key .. => some key
  | isA key .. => some key
  | directory key _ => some key
  | structured key .. => some key

variable {key : ProjectionGenerationKey} {built : Segment}

theorem published_eq (there : s.segment key = some built) :
    s.published key = if built.phase.isPublished = true then .ok built
      else .error (invalid "projection generation is not published") := by
  simp only [State.published, there, okOr, except_ok_bind, ensure]
  split <;> rfl

/-- A frozen phase is come to from a frozen one, or from building. -/
theorem Phase.Moves.settled {p q : Phase} (h : p.Moves q) (begun : p ≠ .building) :
    q ≠ .building ∧ (q.isFrozen = true → p.isFrozen = true) := by
  cases h <;> simp_all [Phase.isFrozen]

/-- What was validated keeps its contents for as long as it is not discarded. -/
theorem validated_kept (points : Pointed s) (there : s.segment key = some built)
    (begun : built.phase ≠ .building) (run : Run (storeStep json sha256) s trace t)
    (kept : ∀ event ∈ trace, event.call ≠ .discardUnpublishedGeneration key) :
    ∃ new, t.segment key = some new ∧ new.phase ≠ .building ∧ (new.phase.isFrozen = true →
      new.manifest = built.manifest ∧ new.resources = built.resources ∧
        new.registry = built.registry) := by
  induction run with
  | start => exact ⟨built, there, begun, fun _ => ⟨rfl, rfl, rfl⟩⟩
  | next run h ih =>
    obtain ⟨mid, found, notBuilding, same⟩ := ih fun event inside =>
      kept event (.tail _ inside)
    have points := pointed_run points run
    obtain ⟨new, after, keeps⟩ | ⟨-, -, discarded⟩ := (storeStep_effect points h).keeps points found
    · obtain ⟨notBuilding, wasFrozen⟩ := keeps.phase.settled notBuilding
      refine ⟨new, after, notBuilding, ?_⟩
      intro frozen
      obtain ⟨manifest, resources, registry⟩ := same (wasFrozen frozen)
      obtain ⟨resourcesKept, registryKept⟩ := keeps.frozen (wasFrozen frozen)
      exact ⟨keeps.manifest.trans manifest, resourcesKept.trans resources,
        registryKept.trans registry⟩
    · exact absurd discarded (kept _ mem_cons_self)

/-! ## Incremental and full builds -/

variable {s₀ s₁ : State} {earlier : List StoreEvent} {base : ProjectionGenerationKey}

/-- However an incremental generation came to be validated, its resources are the base's without
the retired ones, under its own manifest, and over them the staged ones in their canonical form.
A full build under the same manifest, in any store that has room for it, of the same registry and
resources in any order, is validated with the same contents and can be published; wherever it is
then published as the incremental one is, queries get the same answers. -/
theorem incremental_equals_rebuild (before : Run (storeStep json sha256) .empty earlier s₀)
    (begun : storeStep json sha256 s₀ ⟨.beginIncrementalGeneration manifest base retired,
      .ok ()⟩ s₁)
    (staging : Run (storeStep json sha256) s₁ trace s)
    (kept : ∀ event ∈ trace, event.call ≠ .discardUnpublishedGeneration manifest.key)
    (there : s.segment manifest.key = some built) (validated : built.phase.isFrozen = true) :
    ∃ old registry, s₀.segment base = some old ∧ built.manifest = manifest ∧
      built.registry = some registry ∧
      (∀ id, built.resources.get id = ((stagedResources json manifest.key trace).get id).or
        (if id ∈ retired then none else (old.resources.get id).map fun p => { p with manifest })) ∧
      (∀ p ∈ built.resources.values, p.retentionMode.isPersistent = true) ∧
      Free .empty manifest.key registry ∧ Free s₀ manifest.key registry ∧
      ∀ other start inputs calls, Run (storeStep json sha256) .empty other start →
        Free start manifest.key registry →
        (inputs.map PersistableResourceProjection.projection).Perm built.resources.values →
        calls.Perm (stagings manifest.key registry inputs) →
        ∃ b full, start.build json sha256 (fullBuild manifest calls) = .ok b ∧
          b.segment manifest.key = some full ∧ full.phase = .validated ∧
          full.manifest = manifest ∧ full.resources = built.resources ∧
          full.registry = built.registry ∧ (publishGeneration b manifest.key).1 = .ok () ∧
          ∀ later t new, Run (storeStep json sha256) b later t →
            (∀ event ∈ later, event.call ≠ .discardUnpublishedGeneration manifest.key) →
            t.segment manifest.key = some new → new.phase.isFrozen = true →
            new.phase.isPublished = built.phase.isPublished →
            (∀ query, query.key = some manifest.key → s.answer query = t.answer query) ∧
            (s.current manifest.sourceId = some manifest.generationId →
              t.current manifest.sourceId = some manifest.generationId →
              s.answer (.pinCurrent manifest.sourceId) =
                t.answer (.pinCurrent manifest.sourceId)) := by
  have ran : beginIncrementalGeneration s₀ manifest base retired = (.ok (), s₁) := begun
  obtain ⟨e, refused⟩ | ⟨source, old, held, absent, baseThere, published, sameSource, -, done⟩ :=
    beginIncrementalGeneration_parts s₀ manifest base retired
  · cases refused.symm.trans ran
  have first : s₁.segment manifest.key = some ⟨manifest, .building, carried old manifest retired,
      old.registry, .empty, retired⟩ := by
    cases done.symm.trans ran
    rw [segment_setSegment (sourceOf_some held), if_pos rfl]
  have reached : Run (storeStep json sha256) .empty _ s₁ := before.next begun
  have points₁ : Pointed s₁ := pointed_run pointed_empty reached
  -- The base was validated, so there is a registry to inherit.
  have baseSound := sound_run before base old baseThere
  obtain ⟨registry, inherited, -, -⟩ :=
    validateSegment_registered (baseSound.passed (published_frozen published))
  have start : Overlaid json manifest retired old [] ⟨manifest, .building,
      carried old manifest retired, old.registry, .empty, retired⟩ := ⟨rfl, rfl, fun _ => rfl⟩
  obtain ⟨final, found, overlaid⟩ := overlaid_run points₁ start (by rw [inherited]; rfl) first
    staging kept
  cases there.symm.trans found
  rw [append_nil] at overlaid
  have sound := sound_run (reached.append staging) manifest.key built there
  have staged : built.registry = some registry := overlaid.registry.trans inherited
  have valid := sound.passed validated
  refine ⟨old, registry, baseThere, overlaid.stamped, staged, ?_, ?_, ?_, ?_, ?_⟩
  · intro id
    rw [overlaid.resources, carried_get]
  · intro p stored
    obtain ⟨id, held⟩ := OrderedMap.mem_values.mp stored
    exact (validateSegment_entry valid held).2.2.2
  · refine ⟨rfl, ?_⟩
    rintro held ⟨key, segment, -, none, -⟩
    cases none
  · refine ⟨absent, ?_⟩
    intro held holds version
    have baseHolds : Holds s₀ manifest.key.sourceId registry :=
      ⟨base, old, sameSource, baseThere, published_not_failed published, inherited⟩
    exact oneRegistry_run before _ _ _ holds baseHolds version
  · intro other start inputs calls run free resources order
    obtain ⟨b, full, done, fullThere, phase, fullManifest, fullResources, fullRegistry⟩ :=
      fullBuild_same resources sound overlaid.stamped validated staged free order
    obtain ⟨buildTrace, buildRun⟩ := build_run done
    have points : Pointed b := pointed_run pointed_empty (run.append buildRun)
    refine ⟨b, full, done, fullThere, phase, fullManifest, fullResources, fullRegistry, ?_, ?_⟩
    · obtain ⟨source, held, found⟩ := source_of_segment fullThere
      obtain ⟨published, done⟩ : ∃ published,
          publish source manifest.key.generationId = .ok published := by
        apply publish_accepts points held
        rw [found, Option.map_some, phase]
      simp only [publishGeneration, held, done]
    intro later t new laterRun laterKept newThere frozen samePublished
    obtain ⟨new', newThere', -, same⟩ := validated_kept points fullThere (by rw [phase]; rintro ⟨⟩)
      laterRun laterKept
    cases newThere.symm.trans newThere'
    obtain ⟨newManifest, newResources, newRegistry⟩ := same frozen
    refine ⟨?_, ?_⟩
    · intro query about
      have found := published_eq there
      have foundToo := published_eq newThere
      rw [samePublished] at foundToo
      cases query with
      | pinCurrent => cases about
      | _ =>
        cases about
        simp only [State.answer, State.registryOf, found, foundToo]
        split
        · simp only [except_ok_bind, newResources, fullResources, newRegistry, fullRegistry]
        · rfl
    intro current currentToo
    have here : s.segment ⟨manifest.sourceId, manifest.generationId⟩ = some built := there
    have hereToo : t.segment ⟨manifest.sourceId, manifest.generationId⟩ = some new := newThere
    rw [State.answer, State.answer, current, currentToo, Option.bind_some, Option.bind_some, here,
      hereToo, Option.map_some, Option.map_some, newManifest, fullManifest, overlaid.stamped]

/-! ### A generation that retires, carries and adds a resource -/

def sampleOf (generation : UInt8) : ProjectionGenerationManifest :=
  { sampleManifest generation with resourceCount := 2 }

def sampleResource (generation id : UInt8) : PersistableResourceProjection where
  projection := {
    manifest := sampleOf generation
    retentionMode := .persistentResource
    directory := ⟨.filled id, none, .knowledge, "n", none, []⟩
    structured := ⟨.filled id, [], .empty, .empty, [], .empty⟩
    temporal := ⟨.filled id, none, none, ⟨none, none, none, none⟩⟩
    access := ⟨.filled id, none, none⟩
    relations := [] }
  persistent := rfl

/-- The resources 8 and 9, published. -/
def sampleBase : State :=
  State.empty.after sampleSerializer sampleSha
    [.beginGeneration (sampleOf 3), .stageConceptRegistry (sampleOf 3).key sampleRegistry,
      .stageResource (sampleResource 3 8), .stageResource (sampleResource 3 9),
      .validateGeneration (sampleOf 3).key, .publishGeneration (sampleOf 3).key]

/-- The call that retires 8 and carries 9. -/
def sampleIncrement : StoreCall :=
  .beginIncrementalGeneration (sampleOf 4) (sampleOf 3).key (.ofList [.filled 8])

def sampleBegun : State := (StoreCall.run sampleSerializer sampleSha sampleBase sampleIncrement).2

def sampleBuilt : State :=
  sampleBegun.after sampleSerializer sampleSha
    [.stageResource (sampleResource 4 10), .validateGeneration (sampleOf 4).key]

/-- What carries one resource, retires one and stages one is what a store without the base builds
from nothing. -/
theorem incremental_equals_rebuild_sample :
    ∃ built, sampleBuilt.segment (sampleOf 4).key = some built ∧ built.phase = .validated ∧
      built.resources.keys = [.filled 9, .filled 10] ∧ ∃ registry,
      Free .empty (sampleOf 4).key registry ∧ ∀ inputs calls,
        (inputs.map PersistableResourceProjection.projection).Perm built.resources.values →
        calls.Perm (stagings (sampleOf 4).key registry inputs) →
        ∃ b, State.empty.build sampleSerializer sampleSha
          (fullBuild (sampleOf 4) calls) = .ok b := by
  obtain ⟨earlier, before, -⟩ : ∃ trace, Run (storeStep sampleSerializer sampleSha) .empty trace
      sampleBase ∧ _ := State.after_run _ _
  have begun : storeStep sampleSerializer sampleSha sampleBase ⟨sampleIncrement, .ok ()⟩
      sampleBegun := by
    have accepted : (StoreCall.run sampleSerializer sampleSha sampleBase sampleIncrement).1.isOk =
        true := by
      decide +kernel
    obtain ⟨_, accepted⟩ := isOk_exists accepted
    exact Prod.ext accepted rfl
  obtain ⟨trace, staging, called⟩ : ∃ trace, Run (storeStep sampleSerializer sampleSha) sampleBegun
      trace sampleBuilt ∧ ∀ event ∈ trace, event.call ∈ _ := State.after_run _ _
  have kept : ∀ event ∈ trace, event.call ≠ .discardUnpublishedGeneration (sampleOf 4).key := by
    intro event inside discarded
    have listed := called event inside
    rw [discarded] at listed
    simp at listed
  have built : (sampleBuilt.segment (sampleOf 4).key).any (fun built =>
      decide (built.phase = .validated ∧ built.resources.keys = [.filled 9, .filled 10])) =
        true := by
    decide +kernel
  obtain ⟨built, there, facts⟩ := any_exists built
  obtain ⟨phase, keys⟩ := of_decide_eq_true facts
  obtain ⟨old, registry, -, -, -, -, -, free, -, rebuild⟩ :=
    incremental_equals_rebuild before begun staging kept there (by rw [phase]; rfl)
  refine ⟨built, there, phase, keys, registry, free, ?_⟩
  intro inputs calls resources order
  obtain ⟨b, -, done, -⟩ := rebuild [] .empty inputs calls .start free resources order
  exact ⟨b, done⟩

end KnowledgePlatform.Projection
