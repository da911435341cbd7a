import KnowledgePlatform.Lib.Run
import KnowledgePlatform.Projection.Store

/-! What the calls of the projection store can do to its generations, over whole runs: the current
pointer and the phases agree, and what was validated stays as it is. -/

namespace KnowledgePlatform.Projection

open Graph (ResourceId SourceId ProjectionGenerationId ProjectionGenerationKey
  ProjectionGenerationManifest SearchError)

/-! ## Calls -/

inductive StoreCall where
  | beginGeneration (manifest : ProjectionGenerationManifest)
  | beginIncrementalGeneration (manifest : ProjectionGenerationManifest)
      (base : ProjectionGenerationKey) (retired : OrderedSet ResourceId)
  | stageResource (input : PersistableResourceProjection)
  | stageConceptRegistry (key : ProjectionGenerationKey) (registry : SemanticRegistrySnapshot)
  | validateGeneration (key : ProjectionGenerationKey)
  | publishGeneration (key : ProjectionGenerationKey)
  | publishGenerationIfCurrent (key : ProjectionGenerationKey)
      (expectedCurrent : Option ProjectionGenerationKey)
  | failGeneration (key : ProjectionGenerationKey)
  | discardUnpublishedGeneration (key : ProjectionGenerationKey)
  | answer (query : Query)

/-- Whether the call succeeded, and the state it leaves. -/
def StoreCall.run (json : Serializer) (sha256 : Bytes → Digest) (s : State) :
    StoreCall → Outcome Unit
  | beginGeneration manifest => Projection.beginGeneration s manifest
  | beginIncrementalGeneration manifest base retired =>
    Projection.beginIncrementalGeneration s manifest base retired
  | stageResource input => Projection.stageResource json s input
  | stageConceptRegistry key registry => Projection.stageConceptRegistry s key registry
  | validateGeneration key => Projection.validateGeneration json sha256 s key
  | publishGeneration key => Projection.publishGeneration s key
  | publishGenerationIfCurrent key expectedCurrent =>
    (Projection.publishGenerationIfCurrent s key expectedCurrent).map (·.map fun _ => ()) id
  | failGeneration key => Projection.failGeneration s key
  | discardUnpublishedGeneration key =>
    (Projection.discardUnpublishedGeneration s key).map (·.map fun _ => ()) id
  | answer query => ((s.answer query).map fun _ => (), s)

/-! ## Views of a changed state -/

section

variable {s : State} {id : SourceId} {source : SourceState} {key k : ProjectionGenerationKey}
  {segment : Segment}

/-- The state of a source, where a missing one has no generations. -/
def State.sourceOf (s : State) (id : SourceId) : SourceState := (s.sources.get id).getD .default

theorem segment_eq : s.segment k = (s.sourceOf k.sourceId).generations.get k.generationId := by
  rw [State.segment, State.sourceOf]
  cases s.sources.get k.sourceId <;> rfl

theorem current_eq : s.current id = (s.sourceOf id).current := by
  rw [State.current, State.sourceOf]
  cases s.sources.get id <;> rfl

theorem sourceOf_some (h : s.sources.get id = some source) : s.sourceOf id = source := by
  rw [State.sourceOf, h]
  rfl

theorem sourceOf_withSource {j : SourceId} :
    (s.withSource id source).sourceOf j = if j = id then source else s.sourceOf j := by
  rw [State.sourceOf, State.withSource, OrderedMap.get_insert]
  split <;> rfl

/-- A source written back as it is. -/
theorem sourceOf_same {j : SourceId} :
    (s.withSource id (s.sourceOf id)).sourceOf j = s.sourceOf j := by
  rw [sourceOf_withSource]
  by_cases here : j = id
  · rw [if_pos here, here]
  · rw [if_neg here]

attribute [ext] ProjectionGenerationKey

theorem segment_setSegment (held : s.sourceOf key.sourceId = source) :
    (s.setSegment key source segment).segment k =
      if k = key then some segment else s.segment k := by
  rw [segment_eq, segment_eq, State.setSegment, sourceOf_withSource]
  by_cases here : k.sourceId = key.sourceId <;>
    simp [ProjectionGenerationKey.ext_iff, here, held, OrderedMap.get_insert]

end

/-! ## What a call can do -/

/-- How one generation comes about or changes, by a call. -/
inductive Change (json : Serializer) (sha256 : Bytes → Digest) (s : State) :
    StoreCall → Option Segment → Segment → Prop where
  | begun (manifest : ProjectionGenerationManifest) :
      Change json sha256 s (.beginGeneration manifest) none
        ⟨manifest, .building, .empty, none, .empty, .empty⟩
  | carried (manifest : ProjectionGenerationManifest) (base : ProjectionGenerationKey)
      (retired : OrderedSet ResourceId) (old : Segment) (there : s.segment base = some old)
      (published : old.phase.isPublished = true) (source : base.sourceId = manifest.sourceId)
      (compatible : baseCompatible old.manifest manifest = true) :
      Change json sha256 s (.beginIncrementalGeneration manifest base retired) none
        ⟨manifest, .building, carried old manifest retired, old.registry, .empty, retired⟩
  | staged (input : PersistableResourceProjection) (p : CompiledResourceProjection)
      (old new : Segment) (canonical : canonicalProjection json input.projection = .ok p)
      (done : stage old p = .ok new) :
      Change json sha256 s (.stageResource input) (some old) new
  | registered (key : ProjectionGenerationKey) (registry : SemanticRegistrySnapshot)
      (old new : Segment) (valid : validateRegistry registry = .ok ())
      (done : stageRegistry (canonicalRegistry registry) (s.sourceOf key.sourceId) old = .ok new) :
      Change json sha256 s (.stageConceptRegistry key registry) (some old) new
  | validated (key : ProjectionGenerationKey) (old : Segment) (building : old.phase = .building)
      (valid : validateSegment json sha256 old = .ok ()) :
      Change json sha256 s (.validateGeneration key) (some old) { old with phase := .validated }
  | rejected (key : ProjectionGenerationKey) (old : Segment) (building : old.phase = .building) :
      Change json sha256 s (.validateGeneration key) (some old) { old with phase := .failed }
  | failed (key : ProjectionGenerationKey) (old : Segment)
      (unpublished : old.phase = .building ∨ old.phase = .validated) :
      Change json sha256 s (.failGeneration key) (some old) { old with phase := .failed }

/-- The generation a call is about. -/
def StoreCall.key : StoreCall → Option ProjectionGenerationKey
  | beginGeneration manifest => some manifest.key
  | beginIncrementalGeneration manifest .. => some manifest.key
  | stageResource input => some input.projection.manifest.key
  | stageConceptRegistry key _ => some key
  | validateGeneration key => some key
  | publishGeneration key => some key
  | publishGenerationIfCurrent key _ => some key
  | failGeneration key => some key
  | discardUnpublishedGeneration key => some key
  | answer _ => none

/-- What a call stages. -/
def StoreCall.staged : StoreCall → Option PersistableResourceProjection
  | stageResource input => some input
  | _ => none

/-- The segments after one of them was published: the one before it is retired. -/
def afterPublishing (s : State) (key : ProjectionGenerationKey) (segment : Segment)
    (k : ProjectionGenerationKey) : Option Segment :=
  if k = key then some { segment with phase := .current }
  else if k.sourceId = key.sourceId ∧ s.current key.sourceId = some k.generationId then
    (s.segment k).map fun old => { old with phase := .retired }
  else s.segment k

inductive Effect (json : Serializer) (sha256 : Bytes → Digest) (s : State) (call : StoreCall)
    (reply : Except SearchError Unit) (t : State) : Prop where
  | unchanged (refused : call.staged.isSome = true → reply ≠ .ok ())
      (segments : ∀ k, t.segment k = s.segment k)
      (currents : ∀ source, t.current source = s.current source)
  | changed (key : ProjectionGenerationKey) (new : Segment) (about : call.key = some key)
      (change : Change json sha256 s call (s.segment key) new)
      (accepted : call.staged.isSome = true → reply = .ok ())
      (segments : ∀ k, t.segment k = if k = key then some new else s.segment k)
      (currents : ∀ source, t.current source = s.current source)
  | published (key : ProjectionGenerationKey) (segment : Segment) (about : call.key = some key)
      (plain : call.staged = none) (there : s.segment key = some segment)
      (ready : segment.phase = .validated)
      (segments : ∀ k, t.segment k = afterPublishing s key segment k)
      (currents : ∀ source, t.current source =
        if source = key.sourceId then some key.generationId else s.current source)
  | discarded (key : ProjectionGenerationKey) (segment : Segment)
      (about : call = .discardUnpublishedGeneration key) (there : s.segment key = some segment)
      (unpublished : segment.phase.isPublished = false)
      (other : s.current key.sourceId ≠ some key.generationId)
      (segments : ∀ k, t.segment k = if k = key then none else s.segment k)
      (currents : ∀ source, t.current source = s.current source)

/-- A source's pointer names a generation exactly when that generation is current. -/
def Pointed (s : State) : Prop :=
  ∀ source id, s.current source = some id ↔
    ∃ segment, s.segment ⟨source, id⟩ = some segment ∧ segment.phase = .current

variable {json : Serializer} {sha256 : Bytes → Digest} {s : State} {call : StoreCall}
  {reply : Except SearchError Unit} {key : ProjectionGenerationKey} {source : SourceState}

/-- A refused call leaves the state as it is. -/
theorem Effect.refused {e : SearchError} : Effect json sha256 s call (.error e) s :=
  .unchanged (fun _ => nofun) (fun _ => rfl) fun _ => rfl

/-- A call that stages nothing may answer without a change. -/
theorem Effect.idle (plain : call.staged = none) : Effect json sha256 s call reply s :=
  .unchanged (plain ▸ nofun) (fun _ => rfl) fun _ => rfl

theorem Effect.set {new : Segment} (held : s.sourceOf key.sourceId = source)
    (about : call.key = some key) (change : Change json sha256 s call (s.segment key) new)
    (accepted : call.staged.isSome = true → reply = .ok ()) :
    Effect json sha256 s call reply (s.setSegment key source new) := by
  refine .changed key new about change accepted (fun _ => segment_setSegment held) fun id => ?_
  rw [current_eq, current_eq, State.setSegment, sourceOf_withSource]
  by_cases here : id = key.sourceId
  · rw [if_pos here, here, held]
  · rw [if_neg here]

/-- What is in the source's state is in the store. -/
theorem segment_of_source (held : s.sources.get key.sourceId = some source) :
    s.segment key = source.generations.get key.generationId := by
  rw [segment_eq, sourceOf_some held]

theorem beginGeneration_effect (manifest : ProjectionGenerationManifest) :
    Effect json sha256 s (.beginGeneration manifest) (beginGeneration s manifest).1
      (beginGeneration s manifest).2 := by
  have held : s.sourceOf manifest.key.sourceId = (s.sources.get manifest.sourceId).getD .default :=
    rfl
  unfold beginGeneration
  simp only
  split
  · refine .unchanged nofun ?_ ?_
    · intro k
      rw [segment_eq, segment_eq]
      exact congrArg (·.generations.get k.generationId) sourceOf_same
    · intro id
      rw [current_eq, current_eq]
      exact congrArg SourceState.current sourceOf_same
  next absent =>
    have fresh : s.segment manifest.key = none := by
      rw [Bool.not_eq_true, OrderedMap.contains_eq_false] at absent
      rw [segment_eq, held]
      exact absent
    exact .set held rfl (fresh ▸ .begun manifest) fun _ => rfl

/-- An incremental generation is refused, or begins with what its base has. -/
theorem beginIncrementalGeneration_parts (s : State) (manifest : ProjectionGenerationManifest)
    (base : ProjectionGenerationKey) (retired : OrderedSet ResourceId) :
    (∃ e, beginIncrementalGeneration s manifest base retired = (.error e, s)) ∨
      ∃ source old, s.sources.get manifest.key.sourceId = some source ∧
        s.segment manifest.key = none ∧ s.segment base = some old ∧
        old.phase.isPublished = true ∧ base.sourceId = manifest.sourceId ∧
        baseCompatible old.manifest manifest = true ∧
        beginIncrementalGeneration s manifest base retired = (.ok (), s.setSegment manifest.key
          source ⟨manifest, .building, carried old manifest retired, old.registry, .empty,
            retired⟩) := by
  unfold beginIncrementalGeneration
  split
  · exact .inl ⟨_, rfl⟩
  next sameSource =>
    have sameSource := not_not.mp sameSource
    split
    · exact .inl ⟨_, rfl⟩
    next source held =>
      split
      next new done =>
        simp only [incrementalSegment, except_iffs] at done
        obtain ⟨absent, old, there, ⟨published, compatible⟩, -, rfl⟩ := done
        have held : s.sources.get manifest.key.sourceId = some source := held
        have baseHeld : s.sources.get base.sourceId = some source := sameSource ▸ held
        exact .inr ⟨source, old, held,
          (segment_of_source held).trans (OrderedMap.contains_eq_false.mp absent),
          (segment_of_source baseHeld).trans there, published, sameSource, compatible, rfl⟩
      · exact .inl ⟨_, rfl⟩

/-- A change of one generation, where the change itself says what it did. -/
theorem changeSegment_effect {unknown : SearchError}
    {change : SourceState → Segment → Except SearchError Segment} (about : call.key = some key)
    (done : ∀ old new, s.segment key = some old → change (s.sourceOf key.sourceId) old = .ok new →
      Change json sha256 s call (some old) new) :
    Effect json sha256 s call (changeSegment s key unknown change).1
      (changeSegment s key unknown change).2 := by
  unfold changeSegment
  split
  · exact .refused
  next source held =>
    split
    · exact .refused
    next old there =>
      split
      next new changed =>
        have here : s.segment key = some old := (segment_of_source held).trans there
        rw [← sourceOf_some held] at changed
        exact .set (sourceOf_some held) about (here ▸ done old new here changed) fun _ => rfl
      · exact .refused

theorem setPhase_ok {changed : SourceState} {id : ProjectionGenerationId} {phase : Phase}
    (h : setPhase source id phase = .ok changed) :
    ∃ segment, source.generations.get id = some segment ∧ changed.current = source.current ∧
      ∀ j, changed.generations.get j =
        if j = id then some { segment with phase } else source.generations.get j := by
  simp only [setPhase, except_iffs] at h
  obtain ⟨segment, there, rfl⟩ := h
  exact ⟨segment, there, rfl, fun j => OrderedMap.get_insert⟩

theorem retirePrevious_ok {changed : SourceState} (h : retirePrevious source = .ok changed)
    (j : ProjectionGenerationId) :
    changed.generations.get j =
      if source.current = some j then
        (source.generations.get j).map fun old => { old with phase := .retired }
      else source.generations.get j := by
  unfold retirePrevious at h
  split at h
  next previous pointed =>
    obtain ⟨segment, there, -, gets⟩ := setPhase_ok h
    rw [gets, pointed]
    by_cases same : j = previous
    · subst same
      rw [if_pos rfl, if_pos rfl, there]
      rfl
    · rw [if_neg same, if_neg fun other => same (Option.some.inj other).symm]
  next pointed =>
    cases h
    rw [pointed, if_neg nofun]

theorem publish_ok {published : SourceState} {id : ProjectionGenerationId}
    (h : publish source id = .ok published) :
    ∃ segment, source.generations.get id = some segment ∧ segment.phase = .validated ∧
      published.current = some id ∧ ∀ j, published.generations.get j =
        if j = id then some { segment with phase := .current }
        else if source.current = some j then
          (source.generations.get j).map fun old => { old with phase := .retired }
        else source.generations.get j := by
  simp only [publish, except_iffs] at h
  obtain ⟨ready, retired, first, changed, second, rfl⟩ := h
  obtain ⟨segment, there, phase⟩ := Option.map_eq_some_iff.mp ready
  obtain ⟨held, heldThere, -, gets⟩ := setPhase_ok second
  refine ⟨segment, there, phase, rfl, ?_⟩
  intro j
  rw [gets]
  by_cases same : j = id
  · subst same
    have whole := heldThere.symm.trans (retirePrevious_ok first j)
    rw [if_pos rfl, if_pos rfl]
    -- The phase that is set last is the one that stays.
    split at whole
    · rw [there, Option.map_some] at whole
      rw [Option.some.inj whole]
    · rw [there] at whole
      rw [Option.some.inj whole]
  · rw [if_neg same, if_neg same]
    exact retirePrevious_ok first j

theorem Effect.publish {published : SourceState} (about : call.key = some key)
    (plain : call.staged = none) (held : s.sources.get key.sourceId = some source)
    (done : Projection.publish source key.generationId = .ok published) :
    Effect json sha256 s call reply (s.withSource key.sourceId published) := by
  obtain ⟨segment, there, ready, current, gets⟩ := publish_ok done
  have here : s.segment key = some segment := (segment_of_source held).trans there
  refine .published key segment about plain here ready ?_ ?_
  · intro k
    rw [segment_eq, sourceOf_withSource, afterPublishing, current_eq, sourceOf_some held]
    by_cases here : k.sourceId = key.sourceId <;>
      simp [ProjectionGenerationKey.ext_iff, here, gets, segment_eq, sourceOf_some held]
  · intro id
    rw [current_eq, current_eq, sourceOf_withSource]
    split
    · exact current
    · rfl

/-- Only generations of the source that has them keep its pointer. -/
theorem discardUnpublishedGeneration_effect (points : Pointed s) (key : ProjectionGenerationKey) :
    Effect json sha256 s (.discardUnpublishedGeneration key) reply
      (discardUnpublishedGeneration s key).2 := by
  unfold discardUnpublishedGeneration
  split
  · exact .idle rfl
  next source held =>
    split
    · exact .idle rfl
    next segment there =>
      have here : s.segment key = some segment := (segment_of_source held).trans there
      split
      · exact .idle rfl
      next kept =>
        rw [not_or, Bool.not_eq_true] at kept
        have pointed : s.current key.sourceId ≠ some key.generationId := by
          rw [current_eq, sourceOf_some held]
          exact kept.2
        -- Both ways the source's other generations stay and its pointer is as it was.
        have views : ∀ t : State, (∀ id, t.sourceOf id = if id = key.sourceId then
              { source with generations := source.generations.erase key.generationId }
            else s.sourceOf id) →
            Effect json sha256 s (.discardUnpublishedGeneration key) reply t := by
          intro t sources
          refine .discarded key segment rfl here kept.1 pointed ?_ ?_
          · intro k
            rw [segment_eq, segment_eq, sources]
            by_cases same : k.sourceId = key.sourceId <;>
              simp [ProjectionGenerationKey.ext_iff, same, OrderedMap.get_erase, sourceOf_some held]
          · intro id
            rw [current_eq, current_eq, sources]
            split
            next same =>
              rw [same, sourceOf_some held]
            · rfl
        simp only
        split
        next bare =>
          rw [OrderedMap.isEmpty_iff] at bare
          have generations : source.generations.erase key.generationId = .empty :=
            OrderedMap.ext_get bare
          have unpointed : source.current = none := by
            cases named : source.current with
            | none => rfl
            | some id =>
              have current : s.current key.sourceId = some id := by
                rw [current_eq, sourceOf_some held, named]
              obtain ⟨pointee, found, -⟩ := (points _ _).mp current
              have other : id ≠ key.generationId := fun same => kept.2 (same ▸ named)
              have gone := bare id
              rw [OrderedMap.get_erase, if_neg other] at gone
              rw [segment_eq, sourceOf_some held, gone] at found
              cases found
          apply views
          intro id
          rw [State.sourceOf, OrderedMap.get_erase]
          split
          · rw [generations, unpointed]
            rfl
          · rfl
        · apply views
          intro id
          exact sourceOf_withSource

theorem run_effect (points : Pointed s) (call : StoreCall) :
    Effect json sha256 s call (call.run json sha256 s).1 (call.run json sha256 s).2 := by
  cases call with
  | beginGeneration manifest => exact beginGeneration_effect manifest
  | beginIncrementalGeneration manifest base retired =>
    simp only [StoreCall.run]
    obtain ⟨e, refused⟩ | ⟨source, old, held, fresh, there, published, same, compatible, done⟩ :=
      beginIncrementalGeneration_parts s manifest base retired
    · rw [refused]
      exact .refused
    · rw [done]
      exact .set (sourceOf_some held) rfl
        (fresh ▸ .carried manifest base retired old there published same compatible) fun _ => rfl
  | stageResource input =>
    simp only [StoreCall.run, stageResource]
    split
    · exact .refused
    next p canonical =>
      have key : p.manifest = input.projection.manifest := by
        simp only [canonicalProjection, except_iffs] at canonical
        obtain ⟨structured, -, relations, -, rfl⟩ := canonical
        rfl
      rw [key]
      exact changeSegment_effect rfl fun old new _ changed =>
        .staged input p old new canonical changed
  | stageConceptRegistry key registry =>
    simp only [StoreCall.run, stageConceptRegistry]
    split
    · exact .refused
    next valid =>
      exact changeSegment_effect rfl fun old new _ changed =>
        .registered key registry old new valid changed
  | validateGeneration key =>
    simp only [StoreCall.run, validateGeneration]
    split
    · exact .refused
    next source held =>
      split
      · exact .refused
      next old there =>
        have here : s.segment key = some old := (segment_of_source held).trans there
        split
        · exact .refused
        next building =>
          have building := not_not.mp building
          split
          next valid =>
            exact .set (sourceOf_some held) rfl (here ▸ .validated key old building valid)
              fun _ => rfl
          · exact .set (sourceOf_some held) rfl (here ▸ .rejected key old building)
              fun staged => absurd staged Bool.false_ne_true
  | publishGeneration key =>
    simp only [StoreCall.run, publishGeneration]
    split
    · exact .refused
    next source held =>
      split
      next published done =>
        exact .publish rfl rfl held done
      · exact .refused
  | publishGenerationIfCurrent key expected =>
    simp only [StoreCall.run, publishGenerationIfCurrent]
    split
    · exact .refused
    · split
      · exact .refused
      next source held =>
        split
        · exact .idle rfl
        · split
          next published done =>
            exact .publish rfl rfl held done
          · exact .refused
  | failGeneration key =>
    apply changeSegment_effect rfl
    intro old new _ changed
    simp only [fail, except_iffs] at changed
    obtain ⟨unpublished, rfl⟩ := changed
    exact .failed key old unpublished
  | discardUnpublishedGeneration key => exact discardUnpublishedGeneration_effect points key
  | answer => exact .idle rfl

/-! ## One step -/

variable {t : State}

/-- Where a phase may go. -/
inductive Phase.Moves : Phase → Phase → Prop where
  | stay (phase : Phase) : Moves phase phase
  | validate : Moves building validated
  | publish : Moves validated current
  | retire : Moves current retired
  | failBuilding : Moves building failed
  | failValidated : Moves validated failed

def Phase.isFrozen : Phase → Bool
  | validated | current | retired => true
  | _ => false

/-- What a step may do to a generation that was there. -/
structure Keeps (old new : Segment) : Prop where
  phase : old.phase.Moves new.phase
  manifest : new.manifest = old.manifest
  frozen : old.phase.isFrozen = true → new.resources = old.resources ∧ new.registry = old.registry

variable {old new : Segment}

theorem Keeps.phased {phase : Phase} (moves : old.phase.Moves phase) :
    Keeps old { old with phase } :=
  ⟨moves, rfl, fun _ => ⟨rfl, rfl⟩⟩

theorem stage_ok {p : CompiledResourceProjection} (h : stage old p = .ok new) :
    old.phase = .building ∧ new = { old with
      stagedIds := old.stagedIds.insert p.directory.resourceRef
      resources := old.resources.insert p.directory.resourceRef p } ∧
    p.directory.resourceRef ∉ old.stagedIds ∧ p.directory.resourceRef ∉ old.retiredIds := by
  simp only [stage, except_iffs] at h
  obtain ⟨building, -, kept, -, -, new, rfl⟩ := h
  exact ⟨building, rfl, new, kept⟩

theorem stageRegistry_ok {registry : SemanticRegistrySnapshot}
    (h : stageRegistry registry source old = .ok new) :
    old.phase = .building ∧ old.registry = none ∧ new = { old with registry := some registry } := by
  simp only [stageRegistry, except_iffs] at h
  obtain ⟨building, -, absent, -, rfl⟩ := h
  exact ⟨building, Option.isNone_iff_eq_none.mp absent, rfl⟩

theorem Change.begins (h : Change json sha256 s call none new) :
    new.phase = .building := by
  cases h <;> rfl

theorem Change.keeps (h : Change json sha256 s call (some old) new) :
    Keeps old new := by
  cases h with
  | staged _ _ _ _ _ done =>
    obtain ⟨building, rfl, -⟩ := stage_ok done
    exact ⟨.stay _, rfl, by simp [building, Phase.isFrozen]⟩
  | registered _ _ _ _ _ done =>
    obtain ⟨building, -, rfl⟩ := stageRegistry_ok done
    exact ⟨.stay _, rfl, by simp [building, Phase.isFrozen]⟩
  | validated _ _ building => exact .phased (building ▸ .validate)
  | rejected _ _ building => exact .phased (building ▸ .failBuilding)
  | failed _ _ unpublished =>
    obtain building | validated := unpublished
    · exact .phased (building ▸ .failBuilding)
    · exact .phased (validated ▸ .failValidated)

/-- Only generations that are not published change. -/
theorem Change.unpublished (h : Change json sha256 s call (some old) new) :
    old.phase = .building ∨ old.phase = .validated := by
  cases h with
  | staged _ _ _ _ _ done => exact .inl (stage_ok done).1
  | registered _ _ _ _ _ done => exact .inl (stageRegistry_ok done).1
  | validated _ _ building => exact .inl building
  | rejected _ _ building => exact .inl building
  | failed _ _ unpublished => exact unpublished

theorem Change.not_current {old : Option Segment} (h : Change json sha256 s call old new) :
    new.phase ≠ .current := by
  cases h with
  | staged _ _ _ _ _ done =>
    obtain ⟨building, rfl, -⟩ := stage_ok done
    simp [building]
  | registered _ _ _ _ _ done =>
    obtain ⟨building, -, rfl⟩ := stageRegistry_ok done
    simp [building]
  | begun | carried | validated | rejected | failed => exact nofun

/-- Which generations are current changes with the pointers only. -/
theorem Effect.pointed (points : Pointed s) (h : Effect json sha256 s call reply t) :
    Pointed t := by
  intro source id
  cases h with
  | unchanged _ segments currents => rw [segments, currents, points]
  | changed key _ _ change _ segments currents =>
    rw [currents, points, segments]
    by_cases same : (⟨source, id⟩ : ProjectionGenerationKey) = key
    · subst same
      rw [if_pos rfl]
      refine iff_of_false ?_ ?_
      · rintro ⟨segment, there, current⟩
        rw [there] at change
        simpa [current] using change.unpublished
      · rintro ⟨_, made, current⟩
        exact change.not_current (Option.some.inj made ▸ current)
    · rw [if_neg same]
  | discarded key segment _ there unpublished _ segments currents =>
    rw [currents, points, segments]
    by_cases same : (⟨source, id⟩ : ProjectionGenerationKey) = key
    · subst same
      have live : segment.phase ≠ .current := by
        intro current
        rw [current] at unpublished
        cases unpublished
      simp [there, live]
    · rw [if_neg same]
  | published key _ _ _ _ _ segments currents =>
    rw [currents, segments, afterPublishing]
    by_cases same : (⟨source, id⟩ : ProjectionGenerationKey) = key
    · subst same
      rw [if_pos rfl, if_pos rfl]
      exact ⟨fun _ => ⟨_, rfl, rfl⟩, fun _ => rfl⟩
    · rw [if_neg same]
      by_cases here : source = key.sourceId
      · subst here
        have other : key.generationId ≠ id := by
          rintro rfl
          exact same rfl
        rw [if_pos rfl]
        constructor
        · intro pointed
          exact absurd (Option.some.inj pointed) other
        · rintro ⟨held, found, current⟩
          -- The one that was current is retired, and no other was.
          by_cases was : s.current key.sourceId = some id
          · rw [if_pos ⟨rfl, was⟩] at found
            obtain ⟨old, -, rfl⟩ := Option.map_eq_some_iff.mp found
            cases current
          · rw [if_neg fun both => was both.2] at found
            exact absurd ((points _ _).mpr ⟨held, found, current⟩) was
      · rw [if_neg here, points, if_neg fun both => here both.1]

/-- What a call does to one generation. -/
inductive Fate (json : Serializer) (sha256 : Bytes → Digest) (s : State) (call : StoreCall)
    (reply : Except SearchError Unit) (t : State) (key : ProjectionGenerationKey) : Prop where
  | still (unstaged : call.staged.isSome = true → reply ≠ .ok () ∨ call.key ≠ some key)
      (now : t.segment key = s.segment key)
  | changed (new : Segment) (about : call.key = some key)
      (change : Change json sha256 s call (s.segment key) new)
      (accepted : call.staged.isSome = true → reply = .ok ()) (now : t.segment key = some new)
  | published (segment : Segment) (plain : call.staged = none)
      (there : s.segment key = some segment) (ready : segment.phase = .validated)
      (now : t.segment key = some { segment with phase := .current })
  | retired (segment : Segment) (plain : call.staged = none)
      (there : s.segment key = some segment) (was : segment.phase = .current)
      (now : t.segment key = some { segment with phase := .retired })
  | discarded (segment : Segment) (about : call = .discardUnpublishedGeneration key)
      (there : s.segment key = some segment) (unpublished : segment.phase.isPublished = false)
      (now : t.segment key = none)

theorem Effect.fate (points : Pointed s) (h : Effect json sha256 s call reply t)
    (key : ProjectionGenerationKey) : Fate json sha256 s call reply t key := by
  cases h with
  | unchanged refused segments => exact .still (fun staged => .inl (refused staged)) (segments key)
  | changed k new about change accepted segments =>
    by_cases same : key = k
    · subst same
      exact .changed new about change accepted ((segments key).trans (if_pos rfl))
    · refine .still (fun _ => .inr ?_) ((segments key).trans (if_neg same))
      rw [about]
      exact fun other => same (Option.some.inj other).symm
  | discarded k segment about there unpublished _ segments =>
    by_cases same : key = k
    · subst same
      exact .discarded segment about there unpublished ((segments key).trans (if_pos rfl))
    · refine .still ?_ ((segments key).trans (if_neg same))
      rw [about]
      exact nofun
  | published k segment _ plain there ready segments =>
    have now := segments key
    rw [afterPublishing] at now
    by_cases same : key = k
    · subst same
      exact .published segment plain there ready (now.trans (if_pos rfl))
    · rw [if_neg same] at now
      by_cases was : key.sourceId = k.sourceId ∧ s.current k.sourceId = some key.generationId
      · obtain ⟨old, found, current⟩ := (points key.sourceId key.generationId).mp (was.1 ▸ was.2)
        have found : s.segment key = some old := found
        rw [if_pos was, found] at now
        exact .retired old plain found current now
      · refine .still ?_ (now.trans (if_neg was))
        rw [plain]
        exact nofun

/-- What becomes of a generation that is there. -/
theorem Effect.keeps (points : Pointed s) (h : Effect json sha256 s call reply t)
    (there : s.segment key = some old) :
    (∃ new, t.segment key = some new ∧ Keeps old new) ∨
      t.segment key = none ∧ old.phase.isPublished = false ∧
        call = .discardUnpublishedGeneration key := by
  cases h.fate points key with
  | still _ now => exact .inl ⟨old, now.trans there, .phased (.stay _)⟩
  | changed new _ change _ now =>
    rw [there] at change
    exact .inl ⟨new, now, change.keeps⟩
  | discarded _ about found unpublished now =>
    cases there.symm.trans found
    exact .inr ⟨now, unpublished, about⟩
  | published _ _ found ready now =>
    cases there.symm.trans found
    exact .inl ⟨_, now, .phased (ready ▸ .publish)⟩
  | retired _ _ found was now =>
    cases there.symm.trans found
    exact .inl ⟨_, now, .phased (was ▸ .retire)⟩

/-- A generation that comes about is being built. -/
theorem Effect.begins (points : Pointed s) (h : Effect json sha256 s call reply t)
    (absent : s.segment key = none) (there : t.segment key = some new) :
    new.phase = .building := by
  cases h.fate points key with
  | still _ now => cases absent.symm.trans (now.symm.trans there)
  | changed _ _ change _ now =>
    cases now.symm.trans there
    rw [absent] at change
    exact change.begins
  | discarded _ _ found | published _ _ found | retired _ _ found =>
    cases absent.symm.trans found

/-! ### No expectation fails -/

theorem setPhase_accepts {id : ProjectionGenerationId} {phase : Phase}
    (there : (source.generations.get id).isSome = true) :
    ∃ changed, setPhase source id phase = .ok changed := by
  obtain ⟨segment, found⟩ := Option.isSome_iff_exists.mp there
  refine ⟨{ source with generations := source.generations.insert id { segment with phase } }, ?_⟩
  rw [setPhase, found]
  rfl

/-- The pointer of a source names one of its generations, so a validated one can be published. -/
theorem publish_accepts (points : Pointed s) {id : SourceId} (held : s.sources.get id = some source)
    {generation : ProjectionGenerationId}
    (ready : (source.generations.get generation).map Segment.phase = some .validated) :
    ∃ published, publish source generation = .ok published := by
  have retiring : ∃ retired, retirePrevious source = .ok retired := by
    unfold retirePrevious
    split
    next previous pointed =>
      have current : s.current id = some previous := by
        rw [current_eq, sourceOf_some held, pointed]
      obtain ⟨segment, found, -⟩ := (points id previous).mp current
      rw [segment_eq, sourceOf_some held] at found
      exact setPhase_accepts (Option.isSome_iff_exists.mpr ⟨segment, found⟩)
    · exact ⟨source, rfl⟩
  obtain ⟨segment, there, -⟩ := Option.map_eq_some_iff.mp ready
  obtain ⟨retired, first⟩ := retiring
  have still : (retired.generations.get generation).isSome = true := by
    rw [retirePrevious_ok first, there]
    split <;> rfl
  obtain ⟨changed, second⟩ : ∃ changed, setPhase retired generation .current = .ok changed :=
    setPhase_accepts still
  refine ⟨{ changed with current := some generation }, ?_⟩
  simp only [publish, except_bind_iff, except_pure_iff]
  exact ⟨(), ensure_iff.mpr ready, retired, first, changed, second, rfl⟩

theorem calm_publish (points : Pointed s) {id : SourceId} (held : s.sources.get id = some source)
    (generation : ProjectionGenerationId) :
    Calm (publish source generation) := by
  by_cases ready : (source.generations.get generation).map Segment.phase = some .validated
  · obtain ⟨published, done⟩ := publish_accepts points held ready
    exact avoids_of_ok done
  · refine avoids_bind.mpr ⟨by simp, ?_⟩
    intro _ passed
    exact absurd (ensure_iff.mp passed) ready

/-- A refusal of the change is the only answer that comes from it. -/
theorem calm_changeSegment {message : String}
    {change : SourceState → Segment → Except SearchError Segment}
    (each : ∀ source segment, Calm (change source segment)) :
    Calm (changeSegment s key (invalid message) change).1 := by
  unfold changeSegment
  split
  · simp
  · split
    · simp
    · split
      · simp
      · exact (each _ _).passed (by assumption)

theorem calm_run (points : Pointed s) (call : StoreCall) : Calm (call.run json sha256 s).1 := by
  cases call with
  | beginGeneration manifest =>
    change Calm (beginGeneration s manifest).1
    unfold beginGeneration
    simp only
    split <;> simp
  | beginIncrementalGeneration manifest base retired =>
    change Calm (beginIncrementalGeneration s manifest base retired).1
    unfold beginIncrementalGeneration
    repeat' split
    all_goals first | exact (calm_incrementalSegment _).passed (by assumption) | simp
  | stageResource input =>
    change Calm (stageResource json s input).1
    unfold stageResource
    split
    · exact (calm_canonicalProjection _).passed (by assumption)
    · exact calm_changeSegment fun _ _ => by simp [stage]
  | stageConceptRegistry key registry =>
    change Calm (stageConceptRegistry s key registry).1
    unfold stageConceptRegistry
    split
    · exact calm_validateRegistry.passed (by assumption)
    · exact calm_changeSegment fun _ _ => by simp [stageRegistry]
  | validateGeneration key =>
    change Calm (validateGeneration json sha256 s key).1
    unfold validateGeneration
    repeat' split
    all_goals first | exact calm_validateSegment.passed (by assumption) | simp
  | publishGeneration key =>
    change Calm (publishGeneration s key).1
    unfold publishGeneration
    split
    · simp
    next source held =>
      split
      · simp
      · exact (calm_publish points held _).passed (by assumption)
  | publishGenerationIfCurrent key expected =>
    apply (avoids_map (x := (publishGenerationIfCurrent s key expected).1)).mpr
    unfold publishGenerationIfCurrent
    repeat' split
    all_goals first | exact (calm_publish points (by assumption) _).passed (by assumption) | simp
  | failGeneration => exact calm_changeSegment fun _ _ => calm_fail
  | discardUnpublishedGeneration key =>
    apply (avoids_map (x := (discardUnpublishedGeneration s key).1)).mpr
    simp only [discardUnpublishedGeneration]
    repeat' split
    all_goals simp
  | answer query => exact (avoids_map (x := s.answer query)).mpr (calm_answer s query)

/-! ## Runs -/

structure StoreEvent where
  call : StoreCall
  reply : Except SearchError Unit

def storeStep (json : Serializer) (sha256 : Bytes → Digest) (s : State) (event : StoreEvent)
    (t : State) : Prop :=
  event.call.run json sha256 s = (event.reply, t)

variable {trace : List StoreEvent}

theorem storeStep_effect (points : Pointed s) {event : StoreEvent}
    (h : storeStep json sha256 s event t) : Effect json sha256 s event.call event.reply t := by
  have effect : Effect json sha256 s event.call _ _ := run_effect points event.call
  rw [storeStep] at h
  rw [h] at effect
  exact effect

theorem pointed_empty : Pointed State.empty := by
  intro source id
  have bare : State.empty.sources.get source = none := rfl
  rw [State.current, State.segment, bare]
  constructor
  · exact nofun
  · rintro ⟨segment, found, -⟩
    cases found

theorem pointed_run (points : Pointed s) (run : Run (storeStep json sha256) s trace t) :
    Pointed t :=
  run.invariant (P := fun _ t => Pointed t) points
    fun _ _ _ _ ih h => (storeStep_effect ih h).pointed ih

/-- What a published generation is in every later state. -/
structure Kept (old new : Segment) : Prop where
  published : new.phase.isPublished = true
  manifest : new.manifest = old.manifest
  resources : new.resources = old.resources
  registry : new.registry = old.registry

theorem published_frozen {phase : Phase} (h : phase.isPublished = true) :
    phase.isFrozen = true := by
  cases phase <;> first | rfl | cases h

theorem Phase.Moves.published {p q : Phase} (h : p.Moves q) (was : p.isPublished = true) :
    q.isPublished = true := by
  cases h <;> first | exact was | rfl

theorem Kept.step {mid : Segment} (kept : Kept old mid) (keeps : Keeps mid new) :
    Kept old new := by
  obtain ⟨resources, registry⟩ := keeps.frozen (published_frozen kept.published)
  exact ⟨keeps.phase.published kept.published, keeps.manifest.trans kept.manifest,
    resources.trans kept.resources, registry.trans kept.registry⟩

theorem published_kept (points : Pointed s) (run : Run (storeStep json sha256) s trace t)
    (there : s.segment key = some old) (published : old.phase.isPublished = true) :
    ∃ new, t.segment key = some new ∧ Kept old new := by
  induction run with
  | start => exact ⟨old, there, published, rfl, rfl, rfl⟩
  | next run h ih =>
    obtain ⟨mid, found, kept⟩ := ih
    have points := pointed_run points run
    obtain ⟨new, after, keeps⟩ | ⟨-, unpublished, -⟩ :=
      (storeStep_effect points h).keeps points found
    · exact ⟨new, after, kept.step keeps⟩
    · rw [kept.published] at unpublished
      cases unpublished

/-- In every run of the store, a source's pointer names exactly its current generation. Whatever
call comes next does not panic, moves phases forward only, leaves what was validated as it is and
removes no published generation, so that a published one is there in every later state. -/
theorem store_generations_sound (run : Run (storeStep json sha256) .empty trace s) :
    (∀ source id, s.current source = some id ↔
      ∃ segment, s.segment ⟨source, id⟩ = some segment ∧ segment.phase = .current) ∧
    (∀ source id segment id' segment', s.segment ⟨source, id⟩ = some segment →
      segment.phase = .current → s.segment ⟨source, id'⟩ = some segment' →
      segment'.phase = .current → id = id') ∧
    (∀ event t, storeStep json sha256 s event t →
      event.reply ≠ .error .panicked ∧
      (∀ key old, s.segment key = some old →
        (∃ new, t.segment key = some new ∧ Keeps old new) ∨
        t.segment key = none ∧ old.phase.isPublished = false ∧
          event.call = .discardUnpublishedGeneration key) ∧
      (∀ key new, s.segment key = none → t.segment key = some new → new.phase = .building)) ∧
    (∀ later t key old, Run (storeStep json sha256) s later t → s.segment key = some old →
      old.phase.isPublished = true → ∃ new, t.segment key = some new ∧ Kept old new) := by
  have points : Pointed s := pointed_run pointed_empty run
  refine ⟨points, ?_, ?_, ?_⟩
  · intro source id segment id' segment' there current there' current'
    have first := (points source id).mpr ⟨segment, there, current⟩
    have second := (points source id').mpr ⟨segment', there', current'⟩
    exact Option.some.inj (first.symm.trans second)
  · intro event t h
    have effect := storeStep_effect points h
    refine ⟨?_, fun key old there => effect.keeps points there,
      fun key new absent there => effect.begins points absent there⟩
    have calm : Calm (event.call.run json sha256 s).1 := calm_run points event.call
    rw [storeStep] at h
    rw [h] at calm
    exact calm
  · intro later t key old rest there published
    exact published_kept points rest there published

/-- The state after the calls. -/
def State.after (json : Serializer) (sha256 : Bytes → Digest) (s : State) (calls : List StoreCall) :
    State :=
  calls.foldl (fun s call => (call.run json sha256 s).2) s

theorem State.after_run (s : State)
    (calls : List StoreCall) :
    ∃ trace, Run (storeStep json sha256) s trace (s.after json sha256 calls) ∧
      ∀ event ∈ trace, event.call ∈ calls := by
  obtain ⟨trace, run, called⟩ : ∃ trace, Run (storeStep json sha256) s trace _ ∧ _ :=
    Run.of_calls (fun s call => StoreCall.run json sha256 s call) StoreEvent.mk (fun _ _ => rfl) s
      calls
  refine ⟨trace, run, ?_⟩
  intro event inside
  obtain ⟨call, listed, answer, rfl⟩ := called event inside
  exact listed

/-- A serializer that writes nothing. -/
def sampleSerializer : Serializer where
  typedValue _ := .ok []
  assertion _ := .ok []
  registry _ := .ok []
  resource _ _ _ _ _ _ := .ok []

def sampleSha (_ : Bytes) : Digest := .filled 0

def sampleRegistry : SemanticRegistrySnapshot := ⟨"v1", .empty, .empty, .empty⟩

/-- The manifest of a generation without resources. -/
def sampleManifest (generation : UInt8) : ProjectionGenerationManifest :=
  { Graph.GenerationIndex.sampleManifest generation with
    digest := "sha256:" ++ (sampleSha []).hex }

/-- A generation built and published. -/
def sampleCalls (generation : UInt8) : List StoreCall :=
  [.beginGeneration (sampleManifest generation),
    .stageConceptRegistry (sampleManifest generation).key sampleRegistry,
    .validateGeneration (sampleManifest generation).key,
    .publishGeneration (sampleManifest generation).key]

def sampleState : State :=
  State.empty.after sampleSerializer sampleSha (sampleCalls 1 ++ sampleCalls 2)

/-- With a second generation published the first is retired, and stays. -/
theorem store_generations_sound_republished :
    ∃ trace old, Run (storeStep sampleSerializer sampleSha) .empty trace sampleState ∧
      sampleState.current (sampleManifest 2).sourceId = some (sampleManifest 2).generationId ∧
      sampleState.segment (sampleManifest 1).key = some old ∧ old.phase = .retired ∧
      ∀ later t, Run (storeStep sampleSerializer sampleSha) sampleState later t →
        ∃ new, t.segment (sampleManifest 1).key = some new ∧ Kept old new := by
  obtain ⟨trace, run, -⟩ : ∃ trace, Run (storeStep sampleSerializer sampleSha) .empty trace
      sampleState ∧ _ := State.after_run _ _
  have retired : (sampleState.segment (sampleManifest 1).key).any
      (fun old => decide (old.phase = .retired)) = true := by decide +kernel
  obtain ⟨old, there, phase⟩ := any_exists retired
  have phase := of_decide_eq_true phase
  refine ⟨trace, old, run, by decide +kernel, there, phase, ?_⟩
  intro later t rest
  have sound := (store_generations_sound run).2.2.2
  exact sound later t _ old rest there (by rw [phase]; rfl)

end KnowledgePlatform.Projection
