import KnowledgePlatform.Graph.Indexed
import KnowledgePlatform.Graph.Reader
import KnowledgePlatform.Graph.RoundTrip

/-! The reader over the row tables refines the memory reader: on the rows of a generation the memory
index accepts, both give the same hits or the same error. -/

namespace KnowledgePlatform.Graph

open TypedRelationInstance (alike_of_same normalized relationId)
open List

/-! ## Rows of accepted content -/

def GraphContent.temporalOf (g : GraphContent) (id : ResourceId) : Option TemporalProjection :=
  (g.resources.find? fun record => record.resourceRef = id).map GraphResourceRecord.temporal

def GraphContent.relationOf (g : GraphContent) (id : RelationId) : Option TypedRelationInstance :=
  (g.relations.find? fun r => r.relationId = id).map normalized

theorem instantOf_nanos (t : Option OffsetDateTime) :
    instantOf (nanos (t.map .fromDatetime)) = .ok (t.map .fromDatetime) := by
  cases t with
  | none => rfl
  | some t => exact ensure_bind_iff.mpr ⟨t.nanos_in, rfl⟩

/-- An accepted record is read back from its row. -/
theorem resourceFromRow_resourceRow {record : GraphResourceRecord} {b : Bytes}
    (h : canonicalResource record = .ok b) {row : ResourceRow}
    (hrow : resourceRow record = .ok row) :
    row.resourceId = record.resourceRef ∧ resourceFromRow row [] = .ok record.detached := by
  obtain ⟨own, encoded, written⟩ := canonicalResource_iff.mp h
  obtain ⟨columns, same, hrow⟩ := except_bind_ok hrow
  rw [encoded] at same
  cases same
  have temporal := decodeTemporal_columnsOf h
  have mapping : mappingFromRow row = .ok record.mapping ∧ row.resourceId = record.resourceRef := by
    cases hrow
    cases record.mapping <;> exact ⟨rfl, rfl⟩
  refine ⟨mapping.2, ?_⟩
  unfold resourceFromRow
  rw [mapping.1]
  cases hrow
  have fields (row : ResourceRow) (m : GraphSourceMapping) :
      (withMapping row m).resourceId = row.resourceId ∧
      (withMapping row m).resourceKind = row.resourceKind ∧
      (withMapping row m).resourceVersionId = row.resourceVersionId ∧
      (withMapping row m).validFrom = row.validFrom ∧ (withMapping row m).validTo = row.validTo ∧
      (withMapping row m).freshnessAnchor = row.freshnessAnchor ∧
      (withMapping row m).freshnessBasis = row.freshnessBasis ∧
      (withMapping row m).effectiveFrom = row.effectiveFrom ∧
      (withMapping row m).effectiveTo = row.effectiveTo := by
    cases m <;> simp [withMapping]
  simp only [fields, columnsOf, instantOf_nanos, except_ok_bind, kindFrom_kindText]
  unfold columnsOf at temporal
  rw [temporal]
  rfl

def participantRows (r : TypedRelationInstance) : List ParticipantRow :=
  r.participants.zipIdx.map fun p => ⟨r.relationId, p.2, p.1.role, p.1.resourceRef⟩

section Staged

variable {sha256 : Bytes → Digest} {time : TimeCodecs} {g : GraphContent} {rows : Rows}

/-- What a staged generation's rows are. -/
structure Staged (sha256 : Bytes → Digest) (time : TimeCodecs) (g : GraphContent) (rows : Rows) :
    Prop where
  accepted : ∃ edges nodes, g.Accepted edges nodes
  valid : ∀ r ∈ g.relations, r.validate = .ok ()
  resources : Forall₂ (fun record row => resourceRow record = .ok row) g.resources rows.resources
  relations : Forall₂ (fun r row => relationRow sha256 time r = .ok row) g.relations
    rows.relations
  participants : rows.participants = g.relations.flatMap participantRows
  present : ∀ r ∈ g.relations, ∀ p ∈ r.participants, ∃ record ∈ g.resources,
    record.resourceRef = p.resourceRef

theorem relationRows_ok {resources : List ResourceRow} {r : TypedRelationInstance}
    {row : RelationRow} {participants : List ParticipantRow}
    (h : relationRows sha256 time resources r = .ok (row, participants)) :
    relationRow sha256 time r = .ok row ∧ participants = participantRows r ∧
      ∀ p ∈ r.participants, ∃ row ∈ resources, row.resourceId = p.resourceRef := by
  simp only [relationRows, except_bind_iff] at h
  obtain ⟨row', hrow, ps, hps, h⟩ := h
  cases h
  obtain ⟨placed, same⟩ := (mapM_ok_iff fun p _ y => by
    simp only [participantRow, ensure_bind_iff, except_pure_iff, ← and_assoc, @eq_comm _ _ y]
    rfl).mp hps
  refine ⟨hrow, same, ?_⟩
  intro p hp
  obtain ⟨i, hi, rfl⟩ := getElem_of_mem hp
  have here := mk_mem_zipIdx_iff_getElem?.mpr (getElem?_eq_getElem hi)
  obtain ⟨row, hmem, found⟩ := any_eq_true.mp (placed _ here).2
  exact ⟨row, hmem, by simpa using found⟩

theorem resourceRow_id {record : GraphResourceRecord} {row : ResourceRow}
    (h : resourceRow record = .ok row) : row.resourceId = record.resourceRef := by
  obtain ⟨columns, -, h⟩ := except_bind_ok h
  cases h
  cases record.mapping <;> rfl

theorem staged_of_stageFull (h : stageFull sha256 time g = .ok rows) :
    Staged sha256 time g rows := by
  simp only [stageFull, insertRows, except_bind_iff] at h
  obtain ⟨_, valid, d, digest, resources, hresources, pairs, hpairs, h⟩ := h
  cases h
  obtain ⟨b, bytes, -⟩ := canonicalGraphDigest_ok digest
  obtain ⟨edges, nodes, hedges, hnodes, attachments, -⟩ := graphBytes_iff.mp bytes
  have rowsOf := forall₂_of_mapM hresources
  have pairsOf := forall₂_of_mapM hpairs
  refine ⟨⟨edges, nodes, hedges, hnodes, attachments⟩, ?_, rowsOf, ?_, ?_, ?_⟩
  · intro r hr
    have valid := forM_iff.mp valid r hr
    cases validated : r.validate with
    | ok => rfl
    | error => simp [validated, Except.mapError] at valid
  · rw [forall₂_map_right_iff]
    exact pairsOf.imp fun r pair h => (relationRows_ok h).1
  · change pairs.flatMap Prod.snd = g.relations.flatMap participantRows
    clear hpairs valid digest bytes hedges attachments
    generalize g.relations = relations at pairsOf
    induction pairsOf with
    | nil => rfl
    | cons first _ ih =>
      rw [flatMap_cons, flatMap_cons, ih, (relationRows_ok first).2.1]
  · intro r hr p hp
    obtain ⟨pair, -, hpair⟩ := exists_right pairsOf hr
    obtain ⟨-, -, present⟩ := relationRows_ok hpair
    obtain ⟨row, hrow, found⟩ := present p hp
    obtain ⟨record, hrecord, same⟩ := exists_right rowsOf.flip hrow
    exact ⟨record, hrecord, (resourceRow_id same).symm.trans found⟩

/-- A relation is read back from its row. -/
theorem relationFromRow_relationRow {r : TypedRelationInstance} {row : RelationRow}
    (h : relationRow sha256 time r = .ok row) :
    row.relationId = r.relationId ∧ relationFromRow sha256 time row = .ok r := by
  simp only [relationRow, except_iffs] at h
  obtain ⟨relation, encoded, d, hd, h⟩ := h
  cases h
  refine ⟨rfl, ?_⟩
  simp only [relationFromRow, except_iffs]
  refine ⟨?_, ?_, relation, ?_, r, (relationCodec time).decode_encode encoded, rfl, d, hd, rfl, rfl⟩
  · simp [Json.get, Json.asStr]
  · simp [Json.asObj]
  · simp [Json.get, lookup_cons]

namespace Staged

section

variable (h : Staged sha256 time g rows)
include h

theorem participantsOf {r : TypedRelationInstance} (hr : r ∈ g.relations) :
    rows.participantsOf r.relationId = r.participants.map fun p => (p.role, p.resourceRef) := by
  obtain ⟨edges, nodes, accepted⟩ := h.accepted
  have carry : ∀ x ∈ g.relations, ∀ y ∈ participantRows x, y.relationId = x.relationId := by
    intro x _ y hy
    obtain ⟨p, -, rfl⟩ := mem_map.mp hy
    rfl
  have placed : (participantRows r).Pairwise fun a b => a.ordinal ≤ b.ordinal := by
    have ordinals : (r.participants.zipIdx.map Prod.snd).Pairwise (· ≤ ·) := by
      rw [zipIdx_map_snd]
      exact (pairwise_lt_range' 1 Nat.one_pos).imp le_of_lt
    exact pairwise_map.mpr (pairwise_map.mp ordinals)
  unfold Rows.participantsOf
  rw [h.participants, filter_flatMap_key accepted.distinctRelations carry hr,
    placed.insertionSort_eq, participantRows, map_map]
  have first : r.participants = r.participants.zipIdx.map Prod.fst := (zipIdx_map_fst _ _).symm
  conv_rhs => rw [first, map_map]
  rfl

theorem readRelations {ids : List RelationId} (distinct : ids.Nodup)
    (there : ∀ id ∈ ids, g.relationOf id ≠ none) :
    rows.readRelations sha256 time ids = .ok ((g.relations.filter fun r => r.relationId ∈ ids).map
      fun r => (r.relationId, r.normalized)) := by
  obtain ⟨edges, nodes, accepted⟩ := h.accepted
  have related : Forall₂ (fun r row => relationRow sha256 time r = .ok row)
      (g.relations.filter fun r => r.relationId ∈ ids)
      (rows.relations.filter fun row => row.relationId ∈ ids) := by
    apply rel_filter _ h.relations
    intro r row hrow
    simp only [(relationFromRow_relationRow hrow).1]
  have listed : ((g.relations.filter fun r => r.relationId ∈ ids).map
      relationId).Perm ids := by
    apply (perm_ext_iff_of_nodup _ distinct).mpr
    · intro id
      simp only [mem_map, mem_filter, decide_eq_true_eq]
      constructor
      · rintro ⟨r, ⟨-, inside⟩, rfl⟩
        exact inside
      · intro hid
        obtain ⟨r, found⟩ := Option.ne_none_iff_exists'.mp (there id hid)
        obtain ⟨s, found, -⟩ := Option.map_eq_some_iff.mp found
        have same : s.relationId = id := by simpa using find?_some found
        exact ⟨s, ⟨mem_of_find?_eq_some found, same ▸ hid⟩, same⟩
    · exact accepted.distinctRelations.sublist (filter_sublist.map _)
  have size : (rows.relations.filter fun row => row.relationId ∈ ids).length = ids.length := by
    rw [← related.length_eq, ← listed.length_eq, length_map]
  apply ensure_bind_iff.mpr
  refine ⟨size, mapM_of_forall₂ related ?_⟩
  intro r hr row hrow
  have hr := (mem_filter.mp hr).1
  have some : r.participants ≠ [] := by
    intro none
    have valid := h.valid r hr
    unfold TypedRelationInstance.validate at valid
    exact (ensure_bind_iff.mp valid).1 (.inr (by simp [none]))
  unfold Rows.readRelation
  rw [(relationFromRow_relationRow hrow).2]
  refine ensure_bind_iff.mpr ⟨⟨?_, h.participantsOf hr⟩, rfl⟩
  rw [h.participantsOf hr]
  simpa using some

theorem readResources (ids : List ResourceId) :
    rows.readResources ids = .ok ((g.resources.filter fun record => record.resourceRef ∈ ids).map
      (fun record => (record.resourceRef, some record.temporal)) ++
        ids.map fun id => (id, none)) := by
  obtain ⟨edges, nodes, accepted⟩ := h.accepted
  have related : Forall₂ (fun record row => resourceRow record = .ok row)
      (g.resources.filter fun record => record.resourceRef ∈ ids)
      (rows.resources.filter fun row => row.resourceId ∈ ids) := by
    apply rel_filter _ h.resources
    intro record row hrow
    simp only [resourceRow_id hrow]
  have read : (rows.resources.filter fun row => row.resourceId ∈ ids).mapM
      (fun row => resourceFromRow row []) =
        .ok ((g.resources.filter fun record => record.resourceRef ∈ ids).map
          GraphResourceRecord.detached) := by
    apply mapM_of_forall₂ related
    intro record hrecord row hrow
    obtain ⟨b, hb, -⟩ := insertNew_entry accepted.resources (mem_filter.mp hrecord).1
    exact (resourceFromRow_resourceRow hb hrow).2
  unfold Rows.readResources
  rw [read, except_ok_bind, map_map]
  rfl

theorem serves :
    rows.Serves sha256 time g.temporalOf g.relationOf where
  resources ids := by
    have absent (id : ResourceId) :
        (ids.map fun id => (id, (none : Option TemporalProjection))).lookup id =
          if id ∈ ids then some none else none := by
      rw [lookup_map]
      split
      next hid =>
        obtain ⟨x, found⟩ := Option.isSome_iff_exists.mp
          (find?_isSome.mpr ⟨id, hid, decide_eq_true rfl⟩ :
            (ids.find? fun x => decide (x = id)).isSome)
        rw [found]
        rfl
      next hid =>
        simpa using fun x hx (same : x = id) => hid (same ▸ hx)
    refine ⟨_, h.readResources ids, ?_, ?_⟩
    · intro id hid
      rw [lookup_append, lookup_map_filter, if_pos hid, absent, if_pos hid]
      unfold GraphContent.temporalOf
      cases g.resources.find? fun record => decide (record.resourceRef = id) <;> rfl
    · intro id hid
      rw [lookup_append, lookup_map_filter, if_neg hid, absent, if_neg hid]
      rfl
  relations ids distinct there := by
    refine ⟨_, h.readRelations distinct there, ?_, ?_⟩
    · intro id hid
      rw [lookup_map_filter, if_pos hid]
      rfl
    · intro id hid
      rw [lookup_map_filter, if_neg hid]
  incident role resource id hid := by
    obtain ⟨p, hp, rfl⟩ := mem_map.mp (Keyed.mem_ofList_id.mp hid)
    rw [h.participants] at hp
    obtain ⟨r, hr, carried⟩ := mem_flatMap.mp (mem_of_mem_filter hp)
    obtain ⟨q, -, rfl⟩ := mem_map.mp carried
    simp only [GraphContent.relationOf, ne_eq, Option.map_eq_none_iff, find?_eq_none, not_forall]
    exact ⟨r, hr, by simp⟩

end

end Staged

end Staged

/-! ## The same generation -/

/-- The graph is of the projections: the same resources with the same metadata, and the same
relations, up to the order they are written in. -/
structure SameGeneration (projections : List CompiledResourceProjection) (g : GraphContent) :
    Prop where
  resources : (projections.map fun p => (p.directoryRef, p.temporal)).Perm
    (g.resources.map fun record => (record.resourceRef, record.temporal))
  stored : ∀ p ∈ projections, ∀ x ∈ p.relations, ∃ r ∈ g.relations,
    x.normalized.same r.normalized = true
  projected : ∀ r ∈ g.relations, ∃ p ∈ projections, ∃ x ∈ p.relations,
    x.normalized.same r.normalized = true

/-- The stored relations as both readers order them. -/
def GraphContent.sortedRelations (g : GraphContent) : List TypedRelationInstance :=
  Keyed.ofList relationId (g.relations.map normalized)

section

variable {sha256 : Bytes → Digest} {time : TimeCodecs} {g : GraphContent} {rows : Rows}
  {projections : List CompiledResourceProjection} {index : GenerationIndex}

theorem Staged.mem_sortedRelations (h : Staged sha256 time g rows) {r : TypedRelationInstance} :
    r ∈ g.sortedRelations ↔ ∃ x ∈ g.relations, x.normalized = r := by
  obtain ⟨edges, nodes, accepted⟩ := h.accepted
  have distinct : ((g.relations.map normalized).map
      relationId).Nodup := by
    rw [map_map]
    exact accepted.distinctRelations
  rw [GraphContent.sortedRelations, (Keyed.ofList_perm distinct).mem_iff, mem_map]

theorem TypedRelationInstance.hasParticipant_iff {r : TypedRelationInstance} {role : String}
    {id : ResourceId} : r.hasParticipant role (some id) = true ↔ ⟨role, id⟩ ∈ r.participants := by
  simp only [hasParticipant, any_eq_true, Option.all_some, Bool.and_eq_true, decide_eq_true_eq]
  constructor
  · rintro ⟨⟨_, _⟩, hp, rfl, rfl⟩
    exact hp
  · intro hp
    exact ⟨_, hp, rfl, rfl⟩

section

variable (h : Staged sha256 time g rows)
include h

/-- The ids under a role and resource, with the relations they name. -/
theorem Staged.incident (id : ResourceId) (role : String) :
    (rows.incidentIds role id).filterMap g.relationOf =
      g.sortedRelations.filter fun r => r.hasParticipant role (some id) := by
  have named (key : RelationId) (r : TypedRelationInstance) (found : g.relationOf key = some r) :
      ∃ x ∈ g.relations, x.normalized = r ∧ x.relationId = key := by
    obtain ⟨x, here, rfl⟩ := Option.map_eq_some_iff.mp found
    exact ⟨x, mem_of_find?_eq_some here, rfl, by simpa using find?_some here⟩
  have ordered : Keyed.Ordered relationId
      ((rows.incidentIds role id).filterMap g.relationOf) := by
    apply Pairwise.filterMap g.relationOf _ (Keyed.Ordered.ofList _)
    intro key other less r hr s hs
    obtain ⟨x, -, rfl, rfl⟩ := named key r hr
    obtain ⟨y, -, rfl, rfl⟩ := named other s hs
    exact less
  have sorted : Keyed.Ordered relationId
      (g.sortedRelations.filter fun r => r.hasParticipant role (some id)) :=
    Pairwise.filter _ (Keyed.Ordered.ofList _)
  apply ordered.ext sorted
  intro r
  obtain ⟨edges, nodes, accepted⟩ := h.accepted
  have takes (x : TypedRelationInstance) :
      x.normalized.hasParticipant role (some id) = true ↔ ⟨role, id⟩ ∈ x.participants := by
    have perm : x.normalized.participants.Perm x.participants := perm_insertionSort _ _
    rw [TypedRelationInstance.hasParticipant_iff, perm.mem_iff]
  have listed (key : RelationId) : key ∈ rows.incidentIds role id ↔
      ∃ x ∈ g.relations, x.relationId = key ∧ ⟨role, id⟩ ∈ x.participants := by
    rw [Rows.incidentIds, Keyed.mem_ofList_id, h.participants]
    simp only [mem_map, mem_filter, mem_flatMap, Bool.and_eq_true, decide_eq_true_eq]
    constructor
    · rintro ⟨row, ⟨⟨x, hx, carried⟩, rfl, rfl⟩, rfl⟩
      obtain ⟨⟨p, place⟩, hp, rfl⟩ := mem_map.mp carried
      exact ⟨x, hx, rfl, fst_mem_of_mem_zipIdx hp⟩
    · rintro ⟨x, hx, rfl, inside⟩
      obtain ⟨place, hplace⟩ := mem_iff_getElem?.mp inside
      refine ⟨⟨x.relationId, place, role, id⟩, ⟨⟨x, hx, ?_⟩, rfl, rfl⟩, rfl⟩
      exact mem_map.mpr ⟨_, mk_mem_zipIdx_iff_getElem?.mpr hplace, rfl⟩
  rw [mem_filterMap, mem_filter, h.mem_sortedRelations]
  constructor
  · rintro ⟨key, hkey, found⟩
    obtain ⟨x, hx, rfl, rfl⟩ := named key r found
    obtain ⟨y, hy, same, inside⟩ := (listed _).mp hkey
    rw [inj_on_of_nodup_map accepted.distinctRelations hy hx same] at inside
    exact ⟨⟨x, hx, rfl⟩, (takes x).mpr inside⟩
  · rintro ⟨⟨x, hx, rfl⟩, inside⟩
    refine ⟨x.relationId, (listed _).mpr ⟨x, hx, rfl, (takes x).mp inside⟩, ?_⟩
    rw [GraphContent.relationOf, find?_of_mem accepted.distinctRelations hx]
    rfl

/-- The index has the stored relations, up to the derived equality, in the same order. -/
theorem Staged.relations_alike
    (indexed : index.Indexes (projections.map fun p => (p.directoryRef, p.temporal))
      (projections.flatMap CompiledResourceProjection.relations))
    (same : SameGeneration projections g) :
    Forall₂ TypedRelationInstance.Alike index.relations g.sortedRelations := by
  have sorted : Keyed.Ordered relationId g.sortedRelations :=
    Keyed.Ordered.ofList _
  have held (r : TypedRelationInstance) (hr : r ∈ index.relations) :
      ∃ s ∈ g.sortedRelations, r.Alike s := by
    obtain ⟨x, hx, rfl⟩ := indexed.copies r hr
    obtain ⟨p, hp, hx⟩ := mem_flatMap.mp hx
    obtain ⟨s, hs, equal⟩ := same.stored p hp x hx
    exact ⟨s.normalized, h.mem_sortedRelations.mpr ⟨s, hs, rfl⟩, alike_of_same equal⟩
  have ids : index.relations.map relationId =
      g.sortedRelations.map relationId := by
    have left : Keyed.Ordered id (index.relations.map relationId) :=
      pairwise_map.mpr index.ordered
    apply left.ext (pairwise_map.mpr sorted)
    intro key
    simp only [mem_map]
    constructor
    · rintro ⟨r, hr, rfl⟩
      obtain ⟨s, hs, alike⟩ := held r hr
      exact ⟨s, hs, alike.relationId.symm⟩
    · rintro ⟨s, hs, rfl⟩
      obtain ⟨x, hx, rfl⟩ := h.mem_sortedRelations.mp hs
      obtain ⟨p, hp, y, hy, equal⟩ := same.projected x hx
      obtain ⟨r, hr, id⟩ := indexed.covered y (mem_flatMap.mpr ⟨p, hp, hy⟩)
      exact ⟨r, hr, id.trans (alike_of_same equal).relationId⟩
  apply forall₂_of_map_eq _ ids
  intro r hr s hs id
  obtain ⟨t, ht, alike⟩ := held r hr
  rwa [sorted.eq_of_key hs ht (id.symm.trans alike.relationId)]

/-- A participant is listed once. -/
theorem Staged.participants_nodup {r : TypedRelationInstance} (hr : r ∈ g.sortedRelations) :
    r.participants.Nodup := by
  obtain ⟨edges, nodes, accepted⟩ := h.accepted
  obtain ⟨x, hx, rfl⟩ := h.mem_sortedRelations.mp hr
  obtain ⟨b, hb, -⟩ := insertNew_entry accepted.relations hx
  obtain ⟨-, -, ms, written, hb⟩ := canonicalRelation_iff.mp hb
  obtain ⟨c, hc⟩ := Framing.parts_ok_iff.mp ⟨b, hb⟩
    (Framing.set tooLarge (.invalid "duplicate participant role and resource") ms)
      (by simp [relationParts])
  obtain ⟨size, -⟩ := ensure_bind_iff.mp hc
  have once : (x.participants.map participantBytes).Nodup := by
    rw [written]
    apply Nodup.map (fun _ _ => Except.ok.inj)
    exact (Keyed.ofList_id_perm size).nodup_iff.mpr (Keyed.Ordered.ofList _).nodup
  exact (perm_insertionSort _ _).nodup_iff.mpr (once.of_map _)

end

theorem Staged.scenes_agree (h : Staged sha256 time g rows)
    (indexed : index.Indexes (projections.map fun p => (p.directoryRef, p.temporal))
      (projections.flatMap CompiledResourceProjection.relations))
    (same : SameGeneration projections g) (plan : GraphTraversalPlan) (allows : ResourceId → Bool) :
    (index.scene plan fun id _ => decidedBy allows id).Agrees
      (rows.sceneOf g.temporalOf g.relationOf plan allows) where
  visible := by
    funext id
    obtain ⟨edges, nodes, accepted⟩ := h.accepted
    have pairs (l : List (ResourceId × TemporalProjection)) :
        l.lookup id = (l.find? fun e => decide (e.1 = id)).map Prod.snd := by
      conv_lhs => rw [← map_id l]
      exact lookup_map
    have distinct : ((g.resources.map fun record => (record.resourceRef, record.temporal)).map
        Prod.fst).Nodup := by
      rw [map_map]
      exact accepted.distinctResources
    have metadata : index.resource id = g.temporalOf id := by
      have stored : (g.resources.map fun record =>
          (record.resourceRef, record.temporal)).lookup id = g.temporalOf id := lookup_map
      rw [GenerationIndex.resource, indexed.resources, ← stored, pairs, pairs,
        find?_perm (fun x hx y hy first second => inj_on_of_nodup_map distinct hx hy
          ((of_decide_eq_true first).trans (of_decide_eq_true second).symm)) same.resources.symm]
    change index.judge plan (fun id _ => decidedBy allows id) id =
      (g.temporalOf id).any fun temporal => temporal.validFor plan && allows id
    unfold GenerationIndex.judge decidedBy
    rw [metadata]
    cases g.temporalOf id with
    | none => rfl
    | some temporal =>
      cases valid : temporal.validFor plan <;> cases allowed : allows id <;> simp [*]
  incident id role := by
    change Forall₂ _ (index.incident id role) ((rows.incidentIds role id).filterMap g.relationOf)
    have alike := h.relations_alike indexed same
    have once : index.incident id role =
        index.relations.filter fun r => r.hasParticipant role (some id) := by
      apply flatMap_eq_filter
      intro r hr
      obtain ⟨s, hs, alike⟩ := exists_right alike hr
      have distinct := h.participants_nodup hs
      rw [← alike.participants] at distinct
      have only : (fun p : RelationParticipant => decide (p.resourceRef = id) &&
          decide (p.role = role)) = (· == ⟨role, id⟩) := by
        funext p
        cases p
        rw [Bool.eq_iff_iff]
        simp [and_comm]
      rw [only, filter_beq, distinct.count]
      simp only [TypedRelationInstance.hasParticipant_iff]
      split <;> rfl
    rw [once, h.incident]
    apply rel_filter _ alike
    intro r s alike
    simp only [alike.hasParticipant]

/-- A read of a ready row-stored generation whose lease, binding and scope agree and verify. -/
structure PinnedRead.Admitted (read : PinnedRead) (key : ProjectionGenerationKey) : Prop where
  key : read.key = key
  scope : read.key.sourceId = read.scopeSource ∧ read.leaseEvaluation = read.evaluation ∧
    read.actor = read.scopeActor
  before : read.before = .ok ()
  after : read.after = .ok ()
  ready : read.generationState = some "READY"
  stored : read.segmented = false

/-- The answer made of the paths of a level. -/
theorem grouped {paths : Except SearchError (List PartialPath)} {level : Except SearchError Level}
    {key : ProjectionGenerationKey} (walked : paths = level.map Level.next) :
    paths.map (group key) = level >>= fun level => pure (group key level.next) := by
  rw [walked]
  cases level <;> rfl

/-- Both readers give the same hits or the same error. The memory reader refuses a plan over its hop
budget in its traversal, the reader over rows before it. -/
theorem reader_refines_memory {generations after : Generations}
    {manifest : ProjectionGenerationManifest} {source : DiscoverableSource}
    (built : buildGeneration generations manifest source projections = .ok after)
    (found : after.lookup manifest.key = some index) (staged : stageFull sha256 time g = .ok rows)
    (same : SameGeneration projections g) (plan : GraphTraversalPlan) (allows : ResourceId → Bool) :
    (plan.validate = .ok () → plan.pathPatterns.length ≤ plan.expansionBudget.maxHops →
      (rows.traverse plan sha256 time (decidedBy allows) ⟨[], [], []⟩).map
          (fun answer => group manifest.key answer.1) =
        index.retrieve plan (fun id _ => decidedBy allows id) manifest.key) ∧
    ∀ read : PinnedRead, read.Admitted manifest.key →
      retrievePinned rows sha256 time read plan (decidedBy allows) =
        index.retrieve plan (fun id _ => decidedBy allows id) manifest.key := by
  have stored := staged_of_stageFull staged
  have indexes : index.Indexes (projections.map fun p => (p.directoryRef, p.temporal))
      (projections.flatMap CompiledResourceProjection.relations) := by
    simp only [buildGeneration, except_iffs] at built
    obtain ⟨-, -, -, -, new, held, run, -, built⟩ := built
    cases built
    rw [lookup_append, Option.isNone_iff_eq_none.mp new] at found
    have same : held = index := by simpa using found
    subst same
    have start : GenerationIndex.empty.Indexes [] [] :=
      ⟨rfl, by simp [GenerationIndex.empty], by simp⟩
    simpa using start.indexProjection_fold run
  have agrees := (stored.scenes_agree indexes same plan allows).frontier plan
  have walked (target : plan.temporalTarget ≠ none) :
      (rows.traverse plan sha256 time (decidedBy allows) ⟨[], [], []⟩).map Prod.fst =
        ((index.scene plan fun id _ => decidedBy allows id).frontier plan).map Level.next := by
    rw [agrees]
    exact Rows.traverse_eq_frontier stored.serves target
  have targeted (valid : plan.validate = .ok ()) : plan.temporalTarget ≠ none := by
    simp only [GraphTraversalPlan.validate, except_iffs] at valid
    obtain ⟨-, context, -⟩ := valid
    exact fun absent => context (.inr absent)
  rw [GenerationIndex.retrieve_eq_walk]
  unfold Scene.walk
  constructor
  · intro valid hops
    have checked : plan.validate.mapError invalid = .ok () := by
      rw [valid]
      rfl
    have fits : ensure (plan.pathPatterns.length ≤ plan.expansionBudget.maxHops)
        (invalid "graph path exceeds hop budget") = .ok () := ensure_iff.mpr hops
    rw [checked, fits, except_ok_bind, except_ok_bind, ← grouped (walked (targeted valid))]
    cases rows.traverse plan sha256 time (decidedBy allows) ⟨[], [], []⟩ <;> rfl
  · intro read admitted
    unfold retrievePinned
    cases valid : plan.validate with
    | error => rfl
    | ok checked =>
      -- both make the same two checks first, and give the same error there
      apply congrArg
      funext _
      apply congrArg
      funext _
      have scope : ensure (read.key.sourceId = read.scopeSource ∧
          read.leaseEvaluation = read.evaluation ∧ read.actor = read.scopeActor) unavailable =
            .ok () :=
        ensure_iff.mpr admitted.scope
      have snapshot : readSnapshot rows sha256 time read plan (decidedBy allows) =
          (rows.traverse plan sha256 time (decidedBy allows) ⟨[], [], []⟩).map Prod.fst := by
        unfold readSnapshot
        rw [admitted.ready, admitted.stored]
        rfl
      rw [scope, admitted.before, admitted.after, snapshot, admitted.key,
        ← grouped (walked (targeted valid))]
      cases rows.traverse plan sha256 time (decidedBy allows) ⟨[], [], []⟩ <;> rfl

end

section

open GenerationIndex (sampleRelation sampleTemporal samplePlan)

def sampleManifest : ProjectionGenerationManifest :=
  { GenerationIndex.sampleManifest 8 with
    graphSchemaVersion := some "typed-nary-v1"
    resourceCount := 2
    relationCount := some 1 }

/-- A resource that takes part in the one citation of the generation. -/
def sampleProjection (n : UInt8) : CompiledResourceProjection where
  manifest := sampleManifest
  retentionMode := .persistentResource
  directoryRef := .filled n
  structuredRef := .filled n
  temporal := (sampleTemporal n).2
  accessRef := .filled n
  relations := [sampleRelation 10 1 2]

def sampleRecord (n : UInt8) : GraphResourceRecord where
  resourceRef := .filled n
  kind := .document
  resourceVersionRef := none
  temporal := (sampleTemporal n).2
  mapping := .document (.filled n)
  attachedRelations := [sampleRelation 10 1 2]

def sampleStored : GraphContent where
  source := .filled 7
  schema := "typed-nary-v1"
  resources := [sampleRecord 1, sampleRecord 2]
  relations := [sampleRelation 10 1 2]

def sampleBuilt : Except GraphIndexError Generations :=
  buildGeneration [] sampleManifest ⟨.filled 7, .persistentResource⟩
    [sampleProjection 1, sampleProjection 2]

/-- A plan of two steps that may take one. -/
def sampleLongPlan : GraphTraversalPlan :=
  { samplePlan with pathPatterns := samplePlan.pathPatterns ++ samplePlan.pathPatterns }

theorem sameGeneration_sample :
    SameGeneration [sampleProjection 1, sampleProjection 2] sampleStored where
  resources := .refl _
  stored := by
    intro p hp x hx
    have only : x = sampleRelation 10 1 2 := by
      rcases mem_pair.mp hp with rfl | rfl <;> exact mem_singleton.mp hx
    exact ⟨x, mem_singleton.mpr only, by rw [only]; decide⟩
  projected := by
    intro r hr
    refine ⟨sampleProjection 1, .head _, r, hr, ?_⟩
    rw [mem_singleton.mp hr]
    decide

theorem sampleBuilt_found {p : GenerationIndex → Bool}
    (holds :
      (sampleBuilt.toOption.bind fun after => after.lookup sampleManifest.key).any p = true) :
    ∃ after index, sampleBuilt = .ok after ∧ after.lookup sampleManifest.key = some index ∧
      p index = true := by
  obtain ⟨index, found, holds⟩ := any_exists holds
  obtain ⟨after, built, found⟩ := Option.bind_eq_some_iff.mp found
  exact ⟨after, index, toOption_some built, found, holds⟩

/-- The reader's traversal alone does not look at the hop budget. -/
theorem hops_unchecked : ∃ after index rows,
    sampleBuilt = .ok after ∧ after.lookup sampleManifest.key = some index ∧
      stageFull sampleHash sampleTime sampleStored = .ok rows ∧
      SameGeneration [sampleProjection 1, sampleProjection 2] sampleStored ∧
      sampleLongPlan.validate = .ok () ∧
      (rows.traverse sampleLongPlan sampleHash sampleTime (decidedBy fun _ => true)
        ⟨[], [], []⟩).map
        Prod.fst = .ok [] ∧
      index.retrieve sampleLongPlan (fun id _ => decidedBy (fun _ => true) id) sampleManifest.key =
        .error (invalid "graph path exceeds hop budget") := by
  let Refused (index : GenerationIndex) : Prop :=
    index.retrieve sampleLongPlan (fun id _ => decidedBy (fun _ => true) id) sampleManifest.key =
      .error (invalid "graph path exceeds hop budget")
  let Walked (rows : Rows) : Prop :=
    (rows.traverse sampleLongPlan sampleHash sampleTime (decidedBy fun _ => true) ⟨[], [], []⟩).map
      Prod.fst = .ok []
  have refused : (sampleBuilt.toOption.bind fun after => after.lookup sampleManifest.key).any
      (fun index => decide (Refused index)) = true := by decide +kernel
  have walked : (stageFull sampleHash sampleTime sampleStored).toOption.any
      (fun rows => decide (Walked rows)) = true := by decide +kernel
  obtain ⟨after, index, built, found, refused⟩ := sampleBuilt_found refused
  obtain ⟨rows, staged, walked⟩ := any_exists walked
  exact ⟨after, index, rows, built, found, toOption_some staged, sameGeneration_sample,
    by decide, of_decide_eq_true walked, of_decide_eq_true refused⟩

theorem reader_refines_sample : ∃ after index rows,
    sampleBuilt = .ok after ∧ after.lookup sampleManifest.key = some index ∧
      stageFull sampleHash sampleTime sampleStored = .ok rows ∧
      (rows.traverse samplePlan sampleHash sampleTime (decidedBy fun _ => true) ⟨[], [], []⟩).map
          (fun answer => group sampleManifest.key answer.1) =
        index.retrieve samplePlan (fun id _ => decidedBy (fun _ => true) id) sampleManifest.key ∧
      (index.retrieve samplePlan (fun id _ => decidedBy (fun _ => true) id)
        sampleManifest.key).isOk =
        true := by
  have answered : (sampleBuilt.toOption.bind fun after => after.lookup sampleManifest.key).any
      (fun index => (index.retrieve samplePlan (fun id _ => decidedBy (fun _ => true) id)
        sampleManifest.key).isOk) = true := by decide +kernel
  have written : (stageFull sampleHash sampleTime sampleStored).toOption.isSome = true := by
    decide +kernel
  obtain ⟨after, index, built, found, answered⟩ := sampleBuilt_found answered
  obtain ⟨rows, staged⟩ := Option.isSome_iff_exists.mp written
  have staged := toOption_some staged
  have agree := (reader_refines_memory built found staged sameGeneration_sample samplePlan
    fun _ => true).1 (by decide) (by decide)
  exact ⟨after, index, rows, built, found, staged, agree, answered⟩

end

end KnowledgePlatform.Graph
