import KnowledgePlatform.Graph.Segments
import Mathlib.Data.List.Flatten

/-! A graph written as segments and read back is the same graph, in key order. -/

namespace KnowledgePlatform.Graph

open GraphResourceRecord (detached resourceRef)
open TypedRelationInstance (relationId)
open Framing List

/-! ## Splitting -/

def Groups.resources (groups : Groups) : List GraphResourceRecord :=
  groups.flatMap fun e => e.2.resources

def Groups.relations (groups : Groups) : List TypedRelationInstance :=
  groups.flatMap fun e => e.2.relations

theorem placeResource_fold (records : List GraphResourceRecord) {state : Owners × Groups}
    (ordered : Keyed.Ordered Prod.fst state.2) :
    Keyed.Ordered Prod.fst (records.foldl placeResource state).2 ∧
      (records.foldl placeResource state).2.resources.Perm
        (records.map detached ++ state.2.resources) ∧
      (records.foldl placeResource state).2.relations.Perm state.2.relations := by
  induction records generalizing state with
  | nil => exact ⟨ordered, .refl _, .refl _⟩
  | cons record records ih =>
    have next : Keyed.Ordered Prod.fst (placeResource state record).2 := ordered.upsert _ _
    obtain ⟨ordered', resources, relations⟩ := ih next
    have pushed : (placeResource state record).2.resources.Perm
        ([record.detached] ++ state.2.resources) := by
      apply ordered.flatMap_upsert
      rintro (_ | group) <;> simp [pushResource]
    have kept : (placeResource state record).2.relations.Perm ([] ++ state.2.relations) := by
      apply ordered.flatMap_upsert
      rintro (_ | group) <;> simp [pushResource]
    refine ⟨ordered', resources.trans ?_, relations.trans kept⟩
    rw [map_cons, cons_append]
    exact (pushed.append_left _).trans perm_middle

theorem placeRelation_fold (rs : List TypedRelationInstance) (owners : Owners) {groups : Groups}
    (ordered : Keyed.Ordered Prod.fst groups) :
    (rs.foldl (placeRelation owners) groups).resources.Perm groups.resources ∧
      (rs.foldl (placeRelation owners) groups).relations.Perm (rs ++ groups.relations) := by
  induction rs generalizing groups with
  | nil => exact ⟨.refl _, .refl _⟩
  | cons r rs ih =>
    have next : Keyed.Ordered Prod.fst (placeRelation owners groups r) := ordered.upsert _ _
    obtain ⟨resources, relations⟩ := ih next
    have kept : (placeRelation owners groups r).resources.Perm ([] ++ groups.resources) := by
      apply ordered.flatMap_upsert
      rintro (_ | group) <;> simp [pushRelation]
    have pushed : (placeRelation owners groups r).relations.Perm ([r] ++ groups.relations) := by
      apply ordered.flatMap_upsert
      rintro (_ | group) <;> simp [pushRelation]
    refine ⟨resources.trans kept, relations.trans ?_⟩
    rw [cons_append]
    exact (pushed.append_left _).trans perm_middle

/-- Every resource and every relation is in one group, once. -/
theorem groupsOf_perm (records : List GraphResourceRecord) (rs : List TypedRelationInstance) :
    (groupsOf records rs).resources.Perm (records.map detached) ∧
      (groupsOf records rs).relations.Perm rs := by
  have start : Keyed.Ordered Prod.fst (([], []) : Owners × Groups).2 := Keyed.Ordered.nil
  obtain ⟨ordered, resources, relations⟩ := placeResource_fold records start
  obtain ⟨resources', relations'⟩ :=
    placeRelation_fold rs (records.foldl placeResource ([], [])).1 ordered
  constructor
  · apply resources'.trans
    simpa [Groups.resources] using resources
  · apply relations'.trans
    have none := relations.length_eq
    rw [show (([], []) : Owners × Groups).2.relations = [] from rfl, length_nil,
      length_eq_zero_iff] at none
    rw [none, append_nil]

/-! ## Putting together -/

def TypedRelationInstance.touches (r : TypedRelationInstance) (id : ResourceId) : Bool :=
  r.participants.any fun p => p.resourceRef = id

variable {id : ResourceId}

theorem TypedRelationInstance.touches_iff {r : TypedRelationInstance} :
    r.touches id = true ↔ id ∈ r.participants.map RelationParticipant.resourceRef := by
  simp [touches]

/-- The relations attached to a resource. -/
def Attached.of (attached : Attached) (id : ResourceId) : List TypedRelationInstance :=
  ((Keyed.find Prod.fst id attached).map Prod.snd).getD []

variable {attached : Attached}

theorem attach_fold {members : List ResourceId} (distinct : members.Nodup)
    (ordered : Keyed.Ordered Prod.fst attached) (r : TypedRelationInstance) (id : ResourceId) :
    Keyed.Ordered Prod.fst (members.foldl (attach r) attached) ∧
      Attached.of (members.foldl (attach r) attached) id =
        if id ∈ members then attached.of id ++ [r] else attached.of id := by
  induction members generalizing attached with
  | nil => exact ⟨ordered, rfl⟩
  | cons member members ih =>
    obtain ⟨fresh, distinct⟩ := nodup_cons.mp distinct
    have next : Keyed.Ordered Prod.fst (attach r attached member) := ordered.upsert _ _
    obtain ⟨ordered', found⟩ := ih distinct next
    refine ⟨ordered', ?_⟩
    rw [foldl_cons, found]
    unfold attach Attached.of
    rw [Keyed.upsert, ordered.find_insert]
    by_cases here : member = id
    · subst here
      simp [fresh]
    · simp [here, Ne.symm here]

/-- A resource has the relations that touch it attached, in their order. -/
theorem attachRelation_fold {rs : List TypedRelationInstance}
    (ordered : Keyed.Ordered Prod.fst attached) (resource : ResourceId) :
    Attached.of (rs.foldl attachRelation attached) resource =
      attached.of resource ++ rs.filter (·.touches resource) := by
  induction rs generalizing attached with
  | nil => exact (append_nil _).symm
  | cons r rs ih =>
    have distinct : (Keyed.ofList id (r.participants.map RelationParticipant.resourceRef)).Nodup :=
      (Keyed.Ordered.ofList _).nodup
    obtain ⟨ordered', found⟩ := attach_fold distinct ordered r resource
    have ordered' : Keyed.Ordered Prod.fst (attachRelation attached r) := ordered'
    have touched :
        (resource ∈ Keyed.ofList id (r.participants.map RelationParticipant.resourceRef)) ↔
          r.touches resource = true := by
      rw [Keyed.mem_ofList_id, r.touches_iff]
    rw [foldl_cons, ih ordered', filter_cons]
    unfold attachRelation
    rw [found]
    simp only [touched]
    split <;> simp

/-- A record with its attachments. -/
def Attached.fill (attached : Attached) (record : GraphResourceRecord) : GraphResourceRecord :=
  { record with
    attachedRelations := (attached.of record.resourceRef).insertionSort
      fun a b => a.relationId ≤ b.relationId }

theorem find_filter {other : ResourceId} (differ : id ≠ other) :
    Attached.of (attached.filter fun e => e.1 ≠ other) id = attached.of id := by
  unfold Attached.of Keyed.find
  rw [find?_filter]
  congr 3
  funext e
  by_cases same : e.1 = id
  · simp [same, differ]
  · simp [same]

theorem addResource_fold {records : List GraphResourceRecord} {start m : List GraphResourceRecord}
    (distinct : (records.map resourceRef).Nodup)
    (h : (records.map attached.fill).foldlM
      (Keyed.insertUnique resourceRef (GraphError.integrity "Resource in two segments")) start =
        .ok m) :
    ∃ rest, records.foldlM addResource (attached, start) = .ok (rest, m) := by
  induction records generalizing attached start with
  | nil =>
    cases h
    exact ⟨attached, rfl⟩
  | cons record records ih =>
    obtain ⟨fresh, distinct⟩ := nodup_cons.mp distinct
    obtain ⟨next, first, rest⟩ := except_bind_ok h
    obtain ⟨new, first⟩ := ensure_bind_iff.mp first
    cases first
    have others : records.map attached.fill =
        records.map (Attached.fill (attached.filter fun e => e.1 ≠ record.resourceRef)) := by
      apply map_congr_left
      intro other mem
      unfold Attached.fill
      rw [find_filter fun same => fresh (mem_map.mpr ⟨other, mem, same⟩)]
    rw [others] at rest
    obtain ⟨rest', run⟩ := ih distinct rest
    refine ⟨rest', except_bind_iff.mpr ⟨_, ensure_bind_iff.mpr ⟨new, rfl⟩, run⟩⟩

/-- What is read back: every resource once, with the relations that touch it, and every relation
once, in key order. -/
structure GraphContent.Restored (g h : GraphContent) : Prop where
  source : h.source = g.source
  schema : h.schema = g.schema
  resources : (h.resources.map detached).Perm
    (g.resources.map detached)
  attached : ∀ r ∈ h.resources,
    r.attachedRelations = h.relations.filter (·.touches r.resourceRef)
  resourcesOrdered : Keyed.Ordered resourceRef h.resources
  relations : h.relations.Perm g.relations
  relationsOrdered : Keyed.Ordered relationId h.relations

/-- Segments that hold a graph's content, once, are put together as that content. -/
theorem assemble_restores {g : GraphContent} {segments : List Group}
    (resources : (segments.flatMap Group.resources).Perm
      (g.resources.map detached))
    (relations : (segments.flatMap Group.relations).Perm g.relations)
    (distinctResources : (g.resources.map resourceRef).Nodup)
    (distinctRelations : (g.relations.map relationId).Nodup) :
    ∃ records rs, assemble segments = .ok (records, rs) ∧
      g.Restored { g with resources := records, relations := rs } := by
  have distinctR : ((segments.flatMap Group.relations).map relationId).Nodup :=
    (relations.map _).nodup_iff.mpr distinctRelations
  have distinctS : ((segments.flatMap Group.resources).map resourceRef).Nodup := by
    apply (resources.map _).nodup_iff.mpr
    rw [map_map]
    exact distinctResources
  have added : (segments.flatMap Group.relations).foldlM addRelation [] =
      .ok (Keyed.ofList relationId (segments.flatMap Group.relations)) :=
    Keyed.foldlM_unique_nil_iff.mpr ⟨distinctR, rfl⟩
  have orderedR : Keyed.Ordered relationId
      (Keyed.ofList relationId (segments.flatMap Group.relations)) :=
    Keyed.Ordered.ofList _
  have permR := Keyed.ofList_perm distinctR
  generalize Keyed.ofList relationId (segments.flatMap Group.relations) = rs
    at added orderedR permR
  -- the map of attachments gives each resource the relations that touch it, already in order
  have filled (record : GraphResourceRecord) :
      (Attached.fill (rs.foldl attachRelation []) record).attachedRelations =
        rs.filter (·.touches record.resourceRef) := by
    have found : Attached.of (rs.foldl attachRelation []) record.resourceRef =
        rs.filter (·.touches record.resourceRef) := attachRelation_fold Keyed.Ordered.nil _
    have sorted : (rs.filter (·.touches record.resourceRef)).Pairwise
        fun a b => a.relationId ≤ b.relationId :=
      (Pairwise.filter _ orderedR).imp le_of_lt
    unfold Attached.fill
    rw [found]
    exact sorted.insertionSort_eq
  let records := (segments.flatMap Group.resources).map (Attached.fill (rs.foldl attachRelation []))
  have distinctF : (records.map resourceRef).Nodup := by
    rw [map_map]
    exact distinctS
  obtain ⟨rest, run⟩ := addResource_fold distinctS
    (Keyed.foldlM_unique_nil_iff.mpr ⟨distinctF, rfl⟩)
  have permF := Keyed.ofList_perm distinctF
  refine ⟨Keyed.ofList resourceRef records, rs, ?_,
    ⟨rfl, rfl, ?_, ?_, Keyed.Ordered.ofList _, permR.trans relations, orderedR⟩⟩
  · exact except_bind_iff.mpr ⟨rs, added, except_bind_iff.mpr ⟨_, run, rfl⟩⟩
  · apply (permF.map _).trans
    rw [map_map]
    have same : detached ∘ Attached.fill (rs.foldl attachRelation []) =
        detached := rfl
    rw [same]
    apply (resources.map _).trans
    rw [map_map]
    exact .refl _
  · intro r hr
    obtain ⟨record, -, rfl⟩ := mem_map.mp (permF.mem_iff.mp hr)
    exact filled record

/-! ## The digest -/

/-- The maps an accepted graph's bytes are made of. -/
structure GraphContent.Accepted (g : GraphContent) (edges nodes : Canonical) : Prop where
  relations : canonicalRelations g.relations = .ok edges
  resources : canonicalResources g.resources = .ok nodes
  attachments : validateAttachments g.resources g.relations edges = .ok ()

namespace GraphContent.Accepted

variable {g : GraphContent} {edges nodes : Canonical}

theorem distinctRelations (h : g.Accepted edges nodes) :
    (g.relations.map relationId).Nodup :=
  insertNew_distinct h.relations

theorem distinctResources (h : g.Accepted edges nodes) :
    (g.resources.map resourceRef).Nodup :=
  insertNew_distinct h.resources

variable {record : GraphResourceRecord}

/-- An attachment is of a relation of the graph that touches the resource. -/
theorem attached_touches (h : g.Accepted edges nodes) (hrecord : record ∈ g.resources)
    {x : TypedRelationInstance} (hx : x ∈ record.attachedRelations) :
    ∃ r ∈ g.relations, r.relationId = x.relationId ∧ r.touches record.resourceRef = true := by
  obtain ⟨_, attached, -⟩ := except_bind_ok h.attachments
  have each := forM_iff.mp (forM_iff.mp attached record hrecord) x hx
  simp only [validateAttachment, except_iffs] at each
  obtain ⟨b, found, c, hc, rfl, touches⟩ := each
  obtain ⟨⟨k, c⟩, at_id, rfl⟩ := Option.map_eq_some_iff.mp found
  obtain ⟨ordered, perm⟩ := insertNew_fold h.relations
  obtain ⟨entry, rfl⟩ := ordered.find_iff.mp at_id
  have here := perm.mem_iff.mp (mem_map_of_mem (f := Prod.map id Except.ok) entry)
  obtain ⟨r, hr, same⟩ := mem_map.mp here
  obtain ⟨id, bytes⟩ := Prod.mk.inj same
  refine ⟨r, hr, id, ?_⟩
  have reordered := canonicalRelation_inj hc bytes
  rw [TypedRelationInstance.touches_iff,
    ← (reordered.participants.map RelationParticipant.resourceRef).mem_iff]
  exact TypedRelationInstance.touches_iff.mp touches

/-- A record's bytes are those of the record with the relations that touch it. -/
theorem bytes_of_touching (h : g.Accepted edges nodes) (hrecord : record ∈ g.resources)
    {rs : List TypedRelationInstance} (perm : rs.Perm g.relations) :
    canonicalResource record = canonicalResource
      { record.detached with attachedRelations := rs.filter (·.touches record.resourceRef) } := by
  obtain ⟨b, hb, -⟩ := insertNew_entry h.resources hrecord
  obtain ⟨-, -, written⟩ := canonicalResource_iff.mp hb
  have each := parts_ok_iff.mp ⟨b, written⟩
  obtain ⟨c, hc⟩ := each _ (mem_of_mem_getLast? rfl)
  have once : (record.attachedRelations.map fun r => r.relationId.bytes).Nodup := by
    obtain ⟨size, -⟩ := ensure_bind_iff.mp hc
    exact (Keyed.ofList_id_perm size).nodup_iff.mpr (Keyed.Ordered.ofList _).nodup
  have onceId : (record.attachedRelations.map relationId).Nodup := by
    have : (record.attachedRelations.map fun r => r.relationId.bytes) =
        (record.attachedRelations.map relationId).map Uuid.bytes := by
      rw [map_map]
      rfl
    rw [this] at once
    exact once.of_map _
  have onceTouching : ((rs.filter (·.touches record.resourceRef)).map
      relationId).Nodup := by
    have all := (perm.map relationId).nodup_iff.mpr h.distinctRelations
    exact all.sublist (filter_sublist.map _)
  have ids : (record.attachedRelations.map relationId).Perm
      ((rs.filter (·.touches record.resourceRef)).map relationId) := by
    apply (perm_ext_iff_of_nodup onceId onceTouching).mpr
    intro id
    simp only [mem_map, mem_filter]
    constructor
    · rintro ⟨x, hx, rfl⟩
      obtain ⟨r, hr, same, touches⟩ := h.attached_touches hrecord hx
      exact ⟨r, ⟨perm.mem_iff.mpr hr, touches⟩, same⟩
    · rintro ⟨r, ⟨hr, touches⟩, rfl⟩
      obtain ⟨_, -, present⟩ := except_bind_ok h.attachments
      have listed := (Keyed.ofList_perm h.distinctRelations).mem_iff.mpr (perm.mem_iff.mp hr)
      have each := forM_iff.mp present r listed
      have member := Keyed.mem_ofList_id.mpr (TypedRelationInstance.touches_iff.mp touches)
      have attached := ensure_iff.mp (forM_iff.mp each record.resourceRef member)
      -- the first record of the id is the only one
      rw [find?_of_mem h.distinctResources hrecord, Option.all_some] at attached
      obtain ⟨x, hx, same⟩ := any_eq_true.mp attached
      exact ⟨x, hx, by simpa using same⟩
  have bytes := ids.map Uuid.bytes
  simp only [map_map, Function.comp_def] at bytes
  unfold canonicalResource resourceParts
  rw [set_perm bytes]
  rfl

variable {h : GraphContent}

/-- The restored records have the bytes of the graph's. -/
theorem records_perm (hg : g.Accepted edges nodes) (restored : g.Restored h) :
    (h.resources.map fun r => (r.resourceRef, canonicalResource r)).Perm
      (g.resources.map fun r => (r.resourceRef, canonicalResource r)) := by
  let entry (d : GraphResourceRecord) := (d.resourceRef, canonicalResource
    { d with attachedRelations := h.relations.filter (·.touches d.resourceRef) })
  have left : (h.resources.map fun r => (r.resourceRef, canonicalResource r)) =
      (h.resources.map detached).map entry := by
    rw [map_map]
    apply map_congr_left
    intro r hr
    have same : { r.detached with
        attachedRelations := h.relations.filter (·.touches r.resourceRef) } = r := by
      rw [← restored.attached r hr]
      rfl
    exact congrArg (fun x => (r.resourceRef, canonicalResource x)) same.symm
  have right : (g.resources.map fun r => (r.resourceRef, canonicalResource r)) =
      (g.resources.map detached).map entry := by
    rw [map_map]
    apply map_congr_left
    intro r hr
    exact congrArg (Prod.mk r.resourceRef) (hg.bytes_of_touching hr restored.relations)
  rw [left, right]
  exact restored.resources.map entry

theorem attachments_restored (restored : g.Restored h)
    (relations : canonicalRelations h.relations = .ok edges) :
    validateAttachments h.resources h.relations edges = .ok () := by
  apply except_bind_iff.mpr
  refine ⟨(), forM_iff.mpr fun record hrecord => forM_iff.mpr fun r hr => ?_,
    forM_iff.mpr fun r hr => forM_iff.mpr fun member hmember => ensure_iff.mpr ?_⟩
  · rw [restored.attached record hrecord, mem_filter] at hr
    obtain ⟨b, hb, found⟩ := insertNew_entry relations hr.1
    simp only [validateAttachment, except_iffs]
    exact ⟨b, by rw [found, Option.map_some], b, hb, rfl, hr.2⟩
  · have hr : r ∈ h.relations := by
      rwa [restored.relationsOrdered.ofList_eq] at hr
    cases found : h.resources.find? (fun x => x.resourceRef = member) with
    | none => rfl
    | some record =>
      have same : record.resourceRef = member := by simpa using find?_some found
      have touches : r.touches record.resourceRef = true := by
        rw [same]
        exact TypedRelationInstance.touches_iff.mpr (Keyed.mem_ofList_id.mp hmember)
      rw [Option.all_some, restored.attached record (mem_of_find?_eq_some found)]
      exact any_eq_true.mpr ⟨r, mem_filter.mpr ⟨hr, touches⟩, decide_eq_true rfl⟩

/-- What is read back is accepted, with the same bytes. -/
theorem restored (hg : g.Accepted edges nodes) (restored : g.Restored h) :
    h.Accepted edges nodes := by
  have distinct := (restored.relations.map relationId).nodup_iff.mpr
    hg.distinctRelations
  have each : ∀ r ∈ h.relations, ∃ b, canonicalRelation r = .ok b := fun r hr =>
    (insertNew_entry hg.relations (restored.relations.mem_iff.mp hr)).imp fun _ => And.left
  obtain ⟨edges', hedges⟩ := insertNew_ok (.invalid "duplicate relation ID") each distinct
  obtain rfl := insertNew_congr hedges hg.relations (restored.relations.map _)
  have perm := hg.records_perm restored
  have distinct : (h.resources.map resourceRef).Nodup := by
    have keys := perm.map Prod.fst
    rw [map_map, map_map] at keys
    exact keys.nodup_iff.mpr hg.distinctResources
  have each : ∀ r ∈ h.resources, ∃ b, canonicalResource r = .ok b := by
    intro r hr
    have here := perm.mem_iff.mp (mem_map_of_mem
        (f := fun r => (r.resourceRef, canonicalResource r)) hr)
    obtain ⟨s, hs, same⟩ := mem_map.mp here
    obtain ⟨b, hb, -⟩ := insertNew_entry hg.resources hs
    exact ⟨b, (Prod.mk.inj same).2.symm.trans hb⟩
  obtain ⟨nodes', hnodes⟩ := insertNew_ok (.invalid "duplicate Resource") each distinct
  obtain rfl := insertNew_congr hnodes hg.resources perm
  exact ⟨hedges, hnodes, attachments_restored restored hedges⟩

/-- The groups of an accepted graph are accepted, if they are not too large. -/
theorem group (hg : g.Accepted edges nodes)
    (framedEdges : ∃ b, list tooLarge (edges.map Prod.snd) = .ok b)
    (framedNodes : ∃ b, list tooLarge (nodes.map Prod.snd) = .ok b)
    {e : SegmentKey × Group} (he : e ∈ groupsOf g.resources g.relations)
    (fewResources : e.2.resources.length < 2 ^ 31) (fewRelations : e.2.relations.length < 2 ^ 31) :
    e.2.Accepted := by
  obtain ⟨resources, relations⟩ := groupsOf_perm g.resources g.relations
  obtain ⟨-, shortEdges⟩ := list_ok_iff.mp framedEdges
  obtain ⟨-, shortNodes⟩ := list_ok_iff.mp framedNodes
  have subResources : e.2.resources.Sublist (groupsOf g.resources g.relations).resources := by
    simpa [Groups.resources] using (singleton_sublist.mpr he).flatMap fun e => e.2.resources
  have subRelations : e.2.relations.Sublist (groupsOf g.resources g.relations).relations := by
    simpa [Groups.relations] using (singleton_sublist.mpr he).flatMap fun e => e.2.relations
  refine ⟨?_, ?_, ?_, ?_, fewResources, fewRelations⟩
  · intro r hr
    obtain ⟨record, hrecord, rfl⟩ := mem_map.mp (resources.mem_iff.mp (subResources.subset hr))
    obtain ⟨b, hb, found⟩ := insertNew_entry hg.resources hrecord
    have entry := ((insertNew_fold hg.resources).1.find_iff.mp found).1
    have short := shortNodes b (mem_map.mpr ⟨_, entry, rfl⟩)
    obtain ⟨c, hc, shorter⟩ := canonicalResource_detached hb
    exact ⟨rfl, c, hc, shorter.trans_lt short⟩
  · intro r hr
    obtain ⟨b, hb, found⟩ :=
      insertNew_entry hg.relations (relations.mem_iff.mp (subRelations.subset hr))
    have entry := ((insertNew_fold hg.relations).1.find_iff.mp found).1
    exact ⟨b, hb, shortEdges b (mem_map.mpr ⟨_, entry, rfl⟩)⟩
  · have all := (resources.map resourceRef).nodup_iff.mpr (by
      rw [map_map]
      exact hg.distinctResources)
    exact all.sublist (subResources.map _)
  · have all := (relations.map relationId).nodup_iff.mpr hg.distinctRelations
    exact all.sublist (subRelations.map _)

end GraphContent.Accepted

section

variable {sha256 : Bytes → Digest} {time : TimeCodecs}

/-- A graph that is accepted, whose relations have two participants or more and integers the
reader's numbers hold, goes through segments of fewer than `2 ^ 31` rows unchanged. -/
theorem segments_round_trip {g : GraphContent} {d : String}
    (hg : canonicalGraphDigest sha256 g = .ok d)
    (two : ∀ r ∈ g.relations, 2 ≤ r.participants.length)
    (fits : ∀ r ∈ g.relations, r.NumbersFit)
    (small : ∀ e ∈ groupsOf g.resources g.relations,
      e.2.resources.length < 2 ^ 31 ∧ e.2.relations.length < 2 ^ 31) :
    ∃ h, throughSegments sha256 time g = .ok h ∧ g.Restored h ∧
      canonicalGraphDigest sha256 h = .ok d := by
  obtain ⟨b, hb, rfl⟩ := canonicalGraphDigest_ok hg
  obtain ⟨edges, nodes, hedges, hnodes, attachments, whole⟩ := graphBytes_iff.mp hb
  have accepted : g.Accepted edges nodes := ⟨hedges, hnodes, attachments⟩
  obtain ⟨-, -, framedNodes, framedEdges, -⟩ :
      _ ∧ _ ∧ (∃ b, list tooLarge (nodes.map Prod.snd) = .ok b) ∧
      (∃ b, list tooLarge (edges.map Prod.snd) = .ok b) ∧ _ := by
    simpa only [forall_mem_cons] using parts_ok_iff.mp ⟨b, whole⟩
  obtain ⟨resources, relations⟩ := groupsOf_perm g.resources g.relations
  obtain ⟨built, written, read⟩ := mapM_through
    (k := fun e : SegmentKey × Group => e.2.sorted)
    (f := fun e : SegmentKey × Group => buildSegment sha256 time g.source e.2)
    (h := fun b : BuiltSegment =>
      verify sha256 time b.digest g.source b.resourceCount b.relationCount b.payload)
    (l := groupsOf g.resources g.relations) (by
      intro e he
      have held : ∀ r ∈ e.2.relations, r ∈ g.relations := fun r hr =>
        relations.mem_iff.mp (mem_flatMap.mpr ⟨e, he, hr⟩)
      have group := accepted.group framedEdges framedNodes he (small e he).1 (small e he).2
      exact group.verified (fun r hr => two r (held r hr))
        (fun r hr => fits r (held r hr)) g.source)
  have sortedResources : ((((groupsOf g.resources g.relations).map fun e => e.2.sorted)).flatMap
      Group.resources).Perm (g.resources.map detached) := by
    rw [flatMap_map]
    exact (Perm.flatMap_left _ fun e _ => e.2.sorted_resources).trans resources
  have sortedRelations : ((((groupsOf g.resources g.relations).map fun e => e.2.sorted)).flatMap
      Group.relations).Perm g.relations := by
    rw [flatMap_map]
    exact (Perm.flatMap_left _ fun e _ => e.2.sorted_relations).trans relations
  obtain ⟨records, rs, assembled, restored⟩ := assemble_restores sortedResources sortedRelations
    accepted.distinctResources accepted.distinctRelations
  refine ⟨_, ?_, restored, ?_⟩
  · apply except_bind_iff.mpr
    refine ⟨built, written, except_bind_iff.mpr ⟨_, read, ?_⟩⟩
    exact except_bind_iff.mpr ⟨_, assembled, rfl⟩
  · have again := accepted.restored restored
    have bytes := graphBytes_iff.mpr ⟨edges, nodes, again.relations, again.resources,
      again.attachments, whole⟩
    rw [canonicalGraphDigest, bytes]
    rfl

end

/-- Calendar values as plain integers. -/
def sampleTime : TimeCodecs where
  date := {
    encode d := some (.int d.julianDay)
    decode
      | .int n => if h : -2 ^ 31 ≤ n ∧ n < 2 ^ 31 then some ⟨n, h⟩ else none
      | _ => none
    decode_encode {d v} h := by
      cases h
      exact dif_pos d.range }
  dateTime := {
    encode t := some (.arr [.int t.unixTimestampNanos, .int t.offsetSeconds])
    decode
      | .arr [.int n, .int o] =>
        if offset_le : -maxOffset ≤ o ∧ o ≤ maxOffset then
          if local_le : minNanos ≤ n + o * 10 ^ 9 ∧ n + o * 10 ^ 9 ≤ maxNanos then
            some ⟨n, o, offset_le, local_le⟩
          else none
        else none
      | _ => none
    decode_encode {t v} h := by
      cases h
      exact (dif_pos t.offset_le).trans (dif_pos t.local_le) }
  duration := {
    encode d := some (.int d.wholeNanoseconds)
    decode
      | .int n => if h : InInt128 n then some ⟨n, h⟩ else none
      | _ => none
    decode_encode {d v} h := by
      cases h
      exact dif_pos d.wholeNanoseconds.2 }
  date_written _ := rfl
  dateTime_written _ := rfl
  duration_written _ := rfl
  dateTime_ne_null _ := by simp

/-- A graph of one resource, whose only relation has no other participant. -/
def sampleLone : GraphContent := sampleGraph [⟨"source", .filled 1⟩] sampleTags

/-- A relation with one participant has a digest, but no segment of it is verified. -/
theorem lone_participant_lost : (canonicalGraphDigest sampleHash sampleLone).isOk = true ∧
    (throughSegments sampleHash sampleTime sampleLone).isOk = false := by
  decide +kernel

theorem segments_round_trip_sample : ∃ d h, canonicalGraphDigest sampleHash sampleWhole = .ok d ∧
    throughSegments sampleHash sampleTime sampleWhole = .ok h ∧
    canonicalGraphDigest sampleHash h = .ok d := by
  have accepted : (canonicalGraphDigest sampleHash sampleWhole).isOk = true := by decide +kernel
  obtain ⟨d, hd⟩ := isOk_exists accepted
  have two : ∀ r ∈ sampleWhole.relations, 2 ≤ r.participants.length := by decide
  have fits : ∀ r ∈ sampleWhole.relations, r.NumbersFit := by decide
  have small : ∀ e ∈ groupsOf sampleWhole.resources sampleWhole.relations,
      e.2.resources.length < 2 ^ 31 ∧ e.2.relations.length < 2 ^ 31 := by decide +kernel
  obtain ⟨h, through, -, same⟩ : ∃ h, throughSegments sampleHash sampleTime _ = .ok h ∧ _ ∧ _ :=
    segments_round_trip hd two fits small
  exact ⟨d, h, hd, through, same⟩

end KnowledgePlatform.Graph
