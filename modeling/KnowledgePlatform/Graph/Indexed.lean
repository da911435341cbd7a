import KnowledgePlatform.Graph.Memory

/-! What a built index holds of its projections, and that a walk sees relations only up to the
derived equality. -/

namespace KnowledgePlatform.Graph

open List

/-! ## Built indexes -/

/-- The index holds these resources, one normalized copy for each id of these relations, and no
other relation. -/
structure GenerationIndex.Indexes (resources : List (ResourceId × TemporalProjection))
    (attached : List TypedRelationInstance) (index : GenerationIndex) : Prop where
  resources : index.resources = resources
  copies : ∀ r ∈ index.relations, ∃ x ∈ attached, r = x.normalized
  covered : ∀ x ∈ attached, ∃ r ∈ index.relations, r.relationId = x.relationId

namespace GenerationIndex.Indexes

variable {resources : List (ResourceId × TemporalProjection)}
  {attached : List TypedRelationInstance} {index after : GenerationIndex}

section

variable (h : index.Indexes resources attached)
include h

theorem addRelation (x : TypedRelationInstance) :
    (index.addRelation x.normalized).Indexes resources (attached ++ [x]) := by
  have held (r : TypedRelationInstance) : r ∈ (index.addRelation x.normalized).relations ↔
      r = x.normalized ∨ r ∈ index.relations ∧ r.relationId ≠ x.relationId :=
    index.ordered.mem_insert
  refine ⟨h.resources, ?_, ?_⟩
  · intro r hr
    rcases (held r).mp hr with rfl | ⟨hr, -⟩
    · exact ⟨x, by simp, rfl⟩
    · obtain ⟨y, hy, same⟩ := h.copies r hr
      exact ⟨y, mem_append_left _ hy, same⟩
  · intro y hy
    -- a relation of the same id is replaced, any other stays
    by_cases same : y.relationId = x.relationId
    · exact ⟨x.normalized, (held _).mpr (.inl rfl), same.symm⟩
    · rcases mem_append.mp hy with hy | hy
      · obtain ⟨r, hr, id⟩ := h.covered y hy
        exact ⟨r, (held r).mpr (.inr ⟨hr, id ▸ same⟩), id⟩
      · rw [mem_singleton.mp hy] at same
        exact absurd rfl same

theorem indexRelation_fold {id : ResourceId} {rs : List TypedRelationInstance}
    {seen seen' : List RelationId}
    (run : rs.foldlM (indexRelation id) (index, seen) = .ok (after, seen')) :
    after.Indexes resources (attached ++ rs) := by
  induction rs generalizing index seen attached with
  | nil =>
    cases run
    rw [append_nil]
    exact h
  | cons x rs ih =>
    obtain ⟨⟨next, later⟩, step, run⟩ := except_bind_ok run
    simp only [indexRelation, except_iffs] at step
    obtain ⟨-, -, -, step⟩ := step
    cases step
    have whole := ih (h.addRelation x) run
    rwa [append_assoc] at whole

theorem indexProjection_fold {manifest : ProjectionGenerationManifest}
    {projections : List CompiledResourceProjection}
    (run : projections.foldlM (indexProjection manifest) index = .ok after) :
    after.Indexes (resources ++ projections.map fun p => (p.directoryRef, p.temporal))
      (attached ++ projections.flatMap CompiledResourceProjection.relations) := by
  induction projections generalizing index resources attached with
  | nil =>
    cases run
    simpa using h
  | cons p projections ih =>
    obtain ⟨next, step, run⟩ := except_bind_ok run
    obtain ⟨-, step⟩ := ensure_bind_iff.mp step
    obtain ⟨-, step⟩ := ensure_bind_iff.mp step
    obtain ⟨⟨last, seen⟩, fold, step⟩ := except_bind_ok step
    cases step
    have added : (index.addResource p.directoryRef p.temporal).Indexes
        (resources ++ [(p.directoryRef, p.temporal)]) attached :=
      ⟨congrArg (· ++ _) h.resources, h.copies, h.covered⟩
    have whole := ih (added.indexRelation_fold fold) run
    simpa using whole

end

end GenerationIndex.Indexes

/-! ## Equal relations -/

section

variable {a b c d : Option OffsetDateTime}

theorem within_same (start : sameInstant a b = true) (stop : sameInstant c d = true)
    (target : OffsetDateTime) : within a c target = within b d target := by
  cases a <;> cases b <;> cases c <;> cases d <;>
    simp_all [sameInstant, OffsetDateTime.same, within, OffsetDateTime.before]

theorem before_same (start : sameInstant a b = true) (stop : sameInstant c d = true) :
    (∀ s ∈ a, ∀ t ∈ c, s.before t = true) ↔ ∀ s ∈ b, ∀ t ∈ d, s.before t = true := by
  cases a <;> cases b <;> cases c <;> cases d <;>
    simp_all [sameInstant, OffsetDateTime.same, OffsetDateTime.before]

end

namespace TypedRelationInstance

variable {a b : TypedRelationInstance}

/-- What the derived equality says of everything but the qualifiers. -/
structure Alike (a b : TypedRelationInstance) : Prop where
  relationId : a.relationId = b.relationId
  namespaceOf : a.namespaceOf = b.namespaceOf
  relationType : a.relationType = b.relationType
  participants : a.participants = b.participants
  validFrom : sameInstant a.temporalScope.validFrom b.temporalScope.validFrom = true
  validTo : sameInstant a.temporalScope.validTo b.temporalScope.validTo = true
  authority : a.authority = b.authority
  provenance : a.provenance = b.provenance
  evidenceRefs : a.evidenceRefs = b.evidenceRefs

theorem alike_of_same (same : a.same b = true) : a.Alike b := by
  simp only [TypedRelationInstance.same, Bool.and_eq_true, decide_eq_true_eq] at same
  obtain ⟨⟨⟨⟨⟨⟨⟨⟨⟨relationId, namespaceOf⟩, relationType⟩, participants⟩, -⟩, validFrom⟩, validTo⟩,
    authority⟩, provenance⟩, evidenceRefs⟩ := same
  exact ⟨relationId, namespaceOf, relationType, participants, validFrom, validTo, authority,
    provenance, evidenceRefs⟩

theorem Alike.validate (h : a.Alike b) : a.validate = b.validate := by
  unfold TypedRelationInstance.validate
  rw [h.relationType, h.participants]
  simp only [before_same h.validFrom h.validTo]

theorem Alike.hasParticipant (h : a.Alike b) : a.hasParticipant = b.hasParticipant := by
  unfold TypedRelationInstance.hasParticipant
  rw [h.participants]

end TypedRelationInstance

section

variable {a b : TypedRelationInstance} {plan : GraphTraversalPlan} {pattern : RelationPathPattern}

theorem matchesRelation_alike (h : a.Alike b) :
    pattern.matchesRelation a = pattern.matchesRelation b := by
  unfold RelationPathPattern.matchesRelation
  rw [h.namespaceOf, h.relationType, h.hasParticipant]

theorem follows_alike (h : a.Alike b) (path : PartialPath) :
    follows plan pattern path a = follows plan pattern path b := by
  have contains : a.temporalScope.contains = b.temporalScope.contains :=
    funext (within_same h.validFrom h.validTo)
  unfold follows GraphTraversalPlan.allows
  simp only [matchesRelation_alike h, h.validate, h.namespaceOf, h.relationType, h.authority,
    contains, h.hasParticipant]

/-- Scenes that show the same resources, and equal relations in the same order. -/
structure Scene.Agrees (s t : Scene) : Prop where
  visible : s.visible = t.visible
  incident : ∀ id role, Forall₂ TypedRelationInstance.Alike (s.incident id role)
    (t.incident id role)

theorem Scene.Agrees.frontier {s t : Scene} (h : s.Agrees t) (plan : GraphTraversalPlan) :
    s.frontier plan = t.frontier plan := by
  have continuing (pattern : RelationPathPattern) (path : PartialPath) :
      Forall₂ TypedRelationInstance.Alike (s.continuing plan pattern path)
        (t.continuing plan pattern path) := by
    apply rel_filter _ (h.incident _ _)
    intro a b alike
    simp only [follows_alike alike, alike.participants, h.visible]
  have paths : s.expandPath plan = t.expandPath plan := by
    funext pattern level path
    have step (x : Expansion) (a b : TypedRelationInstance) (alike : a.Alike b) :
        expandRelation plan pattern path level x a =
          expandRelation plan pattern path level x b := by
      have step : addBranch plan pattern path level a = addBranch plan pattern path level b := by
        funext branches p
        unfold addBranch PartialPath.extend
        rw [alike.relationId, alike.namespaceOf, alike.relationType, alike.participants,
          alike.evidenceRefs, alike.provenance]
      unfold expandRelation targets
      rw [step, alike.participants]
    have fold := foldlM_forall₂ step (continuing pattern path) ⟨[], 0⟩
    exact congrArg (· >>= addPaths level) fold
  have seeds : s.seeds plan = t.seeds plan := by
    unfold Scene.seeds
    rw [h.visible]
  unfold Scene.frontier Scene.expandFrontier
  rw [seeds, paths]

end

end KnowledgePlatform.Graph
