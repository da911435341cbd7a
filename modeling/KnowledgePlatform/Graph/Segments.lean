import KnowledgePlatform.Graph.Digest
import KnowledgePlatform.Graph.Payload

/-! Graphs as content-addressed segments: a segment holds one document's resources and the
relations among them, and one remainder holds the rest. -/

namespace KnowledgePlatform.Graph

open List

/-! ## Splitting -/

/-- A document's segment, or the remainder, which comes last. -/
abbrev SegmentKey := Nat ×ₗ Uuid

def remainder : SegmentKey := toLex (1, ⟨List.replicate 16 0, List.length_replicate⟩)

def owner (record : GraphResourceRecord) : Option Uuid :=
  match record.mapping with
  | .document documentId => some documentId
  | .folderPlacement documentId _ => some documentId
  | .version documentId _ => some documentId
  | .registered _ _ => none

def segmentKey (record : GraphResourceRecord) : SegmentKey :=
  (owner record).elim remainder fun document => toLex (0, document)

structure Group where
  resources : List GraphResourceRecord
  relations : List TypedRelationInstance

abbrev Groups := List (SegmentKey × Group)

abbrev Owners := List (ResourceId × SegmentKey)

def GraphResourceRecord.detached (record : GraphResourceRecord) : GraphResourceRecord :=
  { record with attachedRelations := [] }

def pushResource (record : GraphResourceRecord) (group : Option Group) : Group :=
  let group := group.getD ⟨[], []⟩
  { group with resources := group.resources ++ [record.detached] }

def pushRelation (r : TypedRelationInstance) (group : Option Group) : Group :=
  let group := group.getD ⟨[], []⟩
  { group with relations := group.relations ++ [r] }

def placeResource (state : Owners × Groups) (record : GraphResourceRecord) : Owners × Groups :=
  (Keyed.insert Prod.fst (record.resourceRef, segmentKey record) state.1,
    Keyed.upsert (segmentKey record) (pushResource record) state.2)

/-- A relation goes where all its participants are, if that is one place. -/
def relationKey (owners : Owners) (r : TypedRelationInstance) : SegmentKey :=
  let keys := r.participants.map fun p =>
    (Keyed.find Prod.fst p.resourceRef owners).map Prod.snd
  match keys.dedup with
  | [some key] => key
  | _ => remainder

def placeRelation (owners : Owners) (groups : Groups) (r : TypedRelationInstance) : Groups :=
  Keyed.upsert (relationKey owners r) (pushRelation r) groups

def groupsOf (resources : List GraphResourceRecord) (relations : List TypedRelationInstance) :
    Groups :=
  let placed := resources.foldl placeResource ([], [])
  relations.foldl (placeRelation placed.1) placed.2

/-- Resources and relations in id order. -/
def Group.sorted (group : Group) : Group :=
  ⟨group.resources.insertionSort fun a b => a.resourceRef ≤ b.resourceRef,
    group.relations.insertionSort fun a b => a.relationId ≤ b.relationId⟩

structure BuiltSegment where
  digest : String
  (resourceCount relationCount : Nat)
  payload : Json

section

variable (sha256 : Bytes → Digest) (time : TimeCodecs)

/-- Writing a number that does not fit panics. -/
def buildSegment (source : SourceId) (group : Group) : Except GraphError BuiltSegment := do
  let group := group.sorted
  let digest ← segmentDigest sha256 source group.resources group.relations
  let resources ← group.resources.mapM resourceJson
  let relations ← okOr ((relationCodec time).list.encode group.relations) .panicked
  ensure (group.resources.length < 2 ^ 31) (.invalid "segment size")
  ensure (group.relations.length < 2 ^ 31) (.invalid "segment size")
  return {
    digest
    resourceCount := group.resources.length
    relationCount := group.relations.length
    payload := .obj [("dto_version", .str "v1"), ("source_id", uuidJson source),
      ("resources", .arr resources), ("relations", relations)] }

def partition (source : SourceId) (resources : List GraphResourceRecord)
    (relations : List TypedRelationInstance) : Except GraphError (List BuiltSegment) :=
  (groupsOf resources relations).mapM fun group => buildSegment sha256 time source group.2

/-! ## Reading back -/

/-- Decodes a stored segment and checks it against its digest and counts. -/
def verify (digest : String) (source : SourceId) (resourceCount relationCount : Nat)
    (payload : Json) : Except GraphError Group := do
  ensure (payload.get "dto_version" >>= Json.asStr = some "v1") (.integrity "segment payload")
  ensure ((payload.asObj.any fun members => members.length = 4) = true)
    (.integrity "segment payload")
  let stored ← uuidAt payload "source_id"
  ensure (stored = source) (.integrity "segment payload")
  let items ← okOr (index payload "resources").asArr (.integrity "segment Resources")
  let resources ← items.mapM resourceFromJson
  let relations ← okOr ((relationCodec time).list.decode (index payload "relations"))
    (.integrity "segment relations")
  relations.forM fun r => r.validate.mapError fun _ => .integrity "segment relation"
  ensure (resourceCount = resources.length) (.integrity "segment digest")
  ensure (relationCount = relations.length) (.integrity "segment digest")
  let actual ← segmentDigest sha256 source resources relations
  ensure (actual = digest) (.integrity "segment digest")
  return ⟨resources, relations⟩

end

/-! ## Putting together -/

abbrev Attached := List (ResourceId × List TypedRelationInstance)

def attach (r : TypedRelationInstance) (attached : Attached) (member : ResourceId) : Attached :=
  Keyed.upsert member (fun relations => relations.getD [] ++ [r]) attached

/-- Every relation under each of its participants, once. -/
def attachRelation (attached : Attached) (r : TypedRelationInstance) : Attached :=
  (Keyed.ofList id (r.participants.map RelationParticipant.resourceRef)).foldl (attach r) attached

def addRelation (relations : List TypedRelationInstance) (r : TypedRelationInstance) :
    Except GraphError (List TypedRelationInstance) := do
  ensure (Keyed.find TypedRelationInstance.relationId r.relationId relations = none)
    (.integrity "relation in two segments")
  return Keyed.insert TypedRelationInstance.relationId r relations

/-- A resource takes its attachments out of the map. -/
def addResource (state : Attached × List GraphResourceRecord) (record : GraphResourceRecord) :
    Except GraphError (Attached × List GraphResourceRecord) := do
  let found := ((Keyed.find Prod.fst record.resourceRef state.1).map Prod.snd).getD []
  let record := { record with
    attachedRelations := found.insertionSort fun a b => a.relationId ≤ b.relationId }
  ensure (Keyed.find GraphResourceRecord.resourceRef record.resourceRef state.2 = none)
    (.integrity "Resource in two segments")
  return (state.1.filter fun e => e.1 ≠ record.resourceRef,
    Keyed.insert GraphResourceRecord.resourceRef record state.2)

/-- Every resource with its attached relations and every relation, in key order. -/
def assemble (segments : List Group) :
    Except GraphError (List GraphResourceRecord × List TypedRelationInstance) := do
  let relations ← (segments.flatMap Group.relations).foldlM addRelation []
  let attached := relations.foldl attachRelation []
  let final ← (segments.flatMap Group.resources).foldlM addResource (attached, [])
  return (final.2, relations)

/-- A graph written as segments and read back. -/
def throughSegments (sha256 : Bytes → Digest) (time : TimeCodecs) (g : GraphContent) :
    Except GraphError GraphContent := do
  let built ← partition sha256 time g.source g.resources g.relations
  let segments ← built.mapM fun b =>
    verify sha256 time b.digest g.source b.resourceCount b.relationCount b.payload
  let (resources, relations) ← assemble segments
  return { g with resources, relations }

/-! ## Stored resources -/

open Framing

variable {b : Bytes}

theorem instantFrom_stored (t : Option OffsetDateTime) :
    instantFrom (instantJson (t.map .fromDatetime)) = .ok (t.map .fromDatetime) := by
  cases t with
  | none => rfl
  | some t =>
    have nanos := t.nanos_in
    have offset := t.offset_in
    have fits : InInt64 t.offsetSeconds := by
      unfold InInt64
      omega
    apply except_bind_iff.mpr
    refine ⟨t.unixTimestampNanos, okOr_iff.mpr ?_,
      except_bind_iff.mpr ⟨t.offsetSeconds, okOr_iff.mpr ?_, rfl⟩⟩
    · simp [Instant.fromDatetime, Json.asStr, Decimal.readInt_int, Option.filter_some, nanos]
    · simpa [Instant.fromDatetime, Json.asInt64, fits, Option.filter_some] using offset

variable {record : GraphResourceRecord}

theorem canonicalResource_iff :
    canonicalResource record = .ok b ↔ record.temporal.resourceRef = record.resourceRef ∧
      encodeTemporal record.temporal = .ok (columnsOf record.temporal) ∧
      parts (resourceParts record (columnsOf record.temporal)
        (record.attachedRelations.map fun r => r.relationId.bytes)) = .ok b := by
  unfold canonicalResource
  rw [ensure_bind_iff, except_bind_iff]
  constructor
  · rintro ⟨own, columns, encoded, h⟩
    have same : columns = columnsOf record.temporal := by
      simp only [encodeTemporal, except_bind_iff] at encoded
      obtain ⟨_, _, _, _, same⟩ := encoded
      exact (Except.ok.inj same).symm
    subst same
    exact ⟨own, encoded, h⟩
  · rintro ⟨own, encoded, h⟩
    exact ⟨own, _, encoded, h⟩

variable {value : Json}

theorem versionFromJson_uuidJson {version : Option ResourceVersionId}
    (h : value.get "version" = some ((version.map uuidJson).getD .null)) :
    versionFromJson value = .ok version := by
  cases version with
  | none => simp [versionFromJson, index, h]
  | some =>
    simp [versionFromJson, index, h, uuidAt, uuidJson, Json.asStr, okOr, Except.map]

theorem basisFromJson_str (basis : Option String) :
    basisFromJson ((basis.map Json.str).getD .null) = .ok basis := by
  cases basis <;> rfl

variable {field : String}

theorem uuidAt_uuidJson {u : Uuid} (h : value.get field = some (uuidJson u)) :
    uuidAt value field = .ok u := by
  simp [uuidAt, h, uuidJson, Json.asStr, okOr]

theorem index_get {v : Json} (h : value.get field = some v) :
    index value field = v := by
  rw [index, h, Option.getD_some]

theorem instantFrom_index {t : Option OffsetDateTime}
    (h : value.get field = some (instantJson (t.map .fromDatetime))) :
    instantFrom (index value field) = .ok (t.map .fromDatetime) := by
  rw [index_get h]
  exact instantFrom_stored t

section

variable (h : canonicalResource record = .ok b)
include h

/-- The temporal projection of an accepted record is read back from its columns. -/
theorem decodeTemporal_columnsOf :
    decodeTemporal { columnsOf record.temporal with resourceRef := record.resourceRef } =
      .ok record.temporal := by
  obtain ⟨own, encoded, written⟩ := canonicalResource_iff.mp h
  have each := parts_ok_iff.mp ⟨b, written⟩
  simp only [resourceParts, forall_mem_cons] at each
  obtain ⟨-, -, -, ⟨_, h₁⟩, ⟨_, h₂⟩, ⟨_, h₃⟩, -, ⟨_, h₄⟩, ⟨_, h₅⟩, -⟩ := each
  simp only [encodeTemporal, except_bind_iff] at encoded
  obtain ⟨_, first, _, second, -⟩ := encoded
  unfold decodeTemporal
  simp only [columnsOf, (storedInstant_ok h₁).1, (storedInstant_ok h₂).1,
    (storedInstant_ok h₃).1, (storedInstant_ok h₄).1, (storedInstant_ok h₅).1, except_ok_bind,
      ← own]
  exact except_bind_iff.mpr ⟨(), first, except_bind_iff.mpr ⟨(), second, rfl⟩⟩

/-- An accepted record is read back from what is written of it. -/
theorem resourceFromJson_resourceJson :
    ∃ v, resourceJson record = .ok v ∧ resourceFromJson v = .ok record.detached := by
  obtain ⟨own, encoded, written⟩ := canonicalResource_iff.mp h
  have temporal := decodeTemporal_columnsOf h
  refine ⟨_, except_bind_iff.mpr ⟨_, encoded, rfl⟩, ?_⟩
  simp only [resourceFromJson, except_iffs]
  refine ⟨_, rfl, rfl, record.resourceRef, uuidAt_uuidJson ?_, record.mapping, ?_,
    record.resourceVersionRef, versionFromJson_uuidJson ?_,
      record.temporal.profile.freshnessBasis, ?_,
    _, instantFrom_index ?_, _, instantFrom_index ?_, _, instantFrom_index ?_,
    _, instantFrom_index ?_, _, instantFrom_index ?_, kindText record.kind, ?_, record.kind,
    kindFrom_kindText record.kind, record.temporal, temporal, rfl⟩
  case refine_2 =>
    rw [index_get (v := mappingJson record.mapping) (by simp [Json.get, lookup_cons])]
    exact mappingFromJson_mappingJson _
  case refine_4 =>
    rw [index_get (v := ((columnsOf record.temporal).freshnessBasis.map Json.str).getD .null)
      (by simp [Json.get, lookup_cons])]
    exact basisFromJson_str _
  case refine_10 =>
    rw [index_get (v := .str (kindText record.kind)) (by simp [Json.get, lookup_cons])]
    rfl
  all_goals simp [Json.get, lookup_cons, columnsOf]

/-- Without its attachments an accepted record is accepted, and no longer. -/
theorem canonicalResource_detached :
    ∃ b', canonicalResource record.detached = .ok b' ∧ b'.length ≤ b.length := by
  obtain ⟨own, encoded, written⟩ := canonicalResource_iff.mp h
  have split (attached : List Bytes) : resourceParts record (columnsOf record.temporal) attached =
      (resourceParts record (columnsOf record.temporal) []).dropLast ++
        [set tooLarge (.invalid "relation attached twice to one Resource") attached] := rfl
  rw [split, parts_append_iff] at written
  obtain ⟨x, y, front, last, rfl⟩ := written
  obtain ⟨y', z, hy, hz, rfl⟩ := parts_cons_iff.mp last
  cases hz
  refine ⟨x ++ bigEndian 4 0, canonicalResource_iff.mpr ⟨own, encoded, ?_⟩, ?_⟩
  · refine (congrArg parts (split [])).trans (parts_append_iff.mpr ⟨x, _, front, ?_, rfl⟩)
    rw [Framing.set_nil]
    rfl
  · have := set_length hy
    simp
    omega

end

/-! ## Digests -/

section

variable {α : Type} {encode : α → Except GraphError Bytes} {ident : α → Uuid}
  {repeated : GraphError} {xs : List α}

/-- Elements with distinct ids that are accepted make a map. -/
theorem insertNew_ok (repeated : GraphError) (accepted : ∀ x ∈ xs, ∃ b, encode x = .ok b)
    (distinct : (xs.map ident).Nodup) : ∃ m, insertAll repeated encode ident xs = .ok m := by
  have unique : ∃ es : Canonical, es.map Prod.fst = xs.map ident ∧ ∀ start,
      xs.foldlM (fun map x => insertNew repeated (encode x) (ident x) map) start =
        es.foldlM (Keyed.insertUnique Prod.fst repeated) start := by
    clear distinct
    induction xs with
    | nil => exact ⟨[], rfl, fun _ => rfl⟩
    | cons x xs ih =>
      obtain ⟨⟨b, hb⟩, others⟩ := forall_mem_cons.mp accepted
      obtain ⟨es, keys, same⟩ := ih others
      refine ⟨(ident x, b) :: es, by rw [map_cons, map_cons, keys], fun start => ?_⟩
      simp only [foldlM_cons, hb, same]
      rfl
  obtain ⟨es, keys, same⟩ := unique
  refine ⟨Keyed.ofList Prod.fst es, ?_⟩
  rw [insertAll, same, Keyed.foldlM_unique_nil_iff, keys]
  exact ⟨distinct, rfl⟩

/-- Short elements with distinct ids make a map whose bytes are framed. -/
theorem insertNew_framed (repeated : GraphError)
    (accepted : ∀ x ∈ xs, ∃ b, encode x = .ok b ∧ b.length < 2 ^ 32)
    (distinct : (xs.map ident).Nodup) (few : xs.length < 2 ^ 31) :
    ∃ m b, insertAll repeated encode ident xs = .ok m ∧ list tooLarge (m.map Prod.snd) = .ok b := by
  obtain ⟨m, h⟩ := insertNew_ok repeated
    (fun x hx => (accepted x hx).imp fun _ => And.left) distinct
  have bytes := insertNew_bytes h
  have framed : ∃ b, list tooLarge (m.map Prod.snd) = .ok b := by
    apply list_ok_iff.mpr
    constructor
    · have := bytes.length_eq
      simp only [length_map] at this ⊢
      omega
    · intro b hb
      obtain ⟨x, hx, same⟩ := mem_map.mp (bytes.mem_iff.mp (mem_map_of_mem hb))
      obtain ⟨c, hc, short⟩ := accepted x hx
      exact Except.ok.inj (same.symm.trans hc) ▸ short
  exact ⟨m, framed.choose, h, framed.choose_spec⟩

end

/-- A group whose content is accepted, as the content of a segment. -/
structure Group.Accepted (group : Group) : Prop where
  resources : ∀ r ∈ group.resources, r.attachedRelations = [] ∧
    ∃ b, canonicalResource r = .ok b ∧ b.length < 2 ^ 32
  relations : ∀ r ∈ group.relations, ∃ b, canonicalRelation r = .ok b ∧ b.length < 2 ^ 32
  distinctResources : (group.resources.map GraphResourceRecord.resourceRef).Nodup
  distinctRelations : (group.relations.map TypedRelationInstance.relationId).Nodup
  fewResources : group.resources.length < 2 ^ 31
  fewRelations : group.relations.length < 2 ^ 31

theorem Group.sorted_resources (group : Group) : group.sorted.resources.Perm group.resources :=
  perm_insertionSort _ _

theorem Group.sorted_relations (group : Group) : group.sorted.relations.Perm group.relations :=
  perm_insertionSort _ _

variable {group : Group}

theorem Group.Accepted.sorted (h : group.Accepted) : group.sorted.Accepted where
  resources r hr := h.resources r (group.sorted_resources.mem_iff.mp hr)
  relations r hr := h.relations r (group.sorted_relations.mem_iff.mp hr)
  distinctResources := (group.sorted_resources.map _).nodup_iff.mpr h.distinctResources
  distinctRelations := (group.sorted_relations.map _).nodup_iff.mpr h.distinctRelations
  fewResources := group.sorted_resources.length_eq ▸ h.fewResources
  fewRelations := group.sorted_relations.length_eq ▸ h.fewRelations

variable {sha256 : Bytes → Digest} {time : TimeCodecs}

theorem Group.Accepted.segmentDigest (h : group.Accepted) (sha256 : Bytes → Digest)
    (source : SourceId) :
    ∃ d, segmentDigest sha256 source group.resources group.relations = .ok d := by
  obtain ⟨resources, nodes, hresources, framedResources⟩ := insertNew_framed
    (.invalid "duplicate Resource") (fun r hr => (h.resources r hr).2) h.distinctResources
    h.fewResources
  obtain ⟨relations, edges, hrelations, framedRelations⟩ := insertNew_framed
    (.invalid "duplicate relation ID") h.relations h.distinctRelations h.fewRelations
  have detached : group.resources.foldlM (fun map record => do
      ensure (record.attachedRelations.isEmpty = true)
        (GraphError.invalid "segment Resource carries attachments")
      insertNew (.invalid "duplicate Resource") (canonicalResource record) record.resourceRef map)
        [] = .ok resources := by
    refine foldlM_image (p := id) ?_ hresources
    intro map record hrecord _ inserted
    rw [(h.resources record hrecord).1]
    exact inserted
  have all : ∃ b, parts [.ok source.bytes, list tooLarge (resources.map Prod.snd),
      list tooLarge (relations.map Prod.snd)] = .ok b := by
    rw [parts_ok_iff]
    simp only [forall_mem_cons]
    exact ⟨⟨_, rfl⟩, ⟨_, framedResources⟩, ⟨_, framedRelations⟩, by simp⟩
  obtain ⟨b, hb⟩ := all
  have whole : segmentBytes source group.resources group.relations = .ok b := by
    unfold segmentBytes
    rw [detached]
    exact except_bind_iff.mpr ⟨resources, rfl, except_bind_iff.mpr ⟨relations, hrelations, hb⟩⟩
  exact ⟨_, by rw [Graph.segmentDigest, whole]; rfl⟩

/-! ## Segments -/

/-- An accepted relation is valid if it has a second participant. -/
theorem canonicalRelation_valid {r : TypedRelationInstance} (h : canonicalRelation r = .ok b)
    (two : 2 ≤ r.participants.length) : r.validate = .ok () := by
  obtain ⟨ordered, required, ms, members, -⟩ := canonicalRelation_iff.mp h
  have blank : isBlank "" = true := by decide
  have type : ¬ (r.relationType = "" ∨ r.participants.length < 2) := by
    rintro (empty | few)
    · exact required (.inl (empty ▸ blank))
    · omega
  have roles : ¬ r.participants.any (fun p => p.role = "") = true := by
    intro any
    obtain ⟨p, hp, empty⟩ := any_eq_true.mp any
    obtain ⟨m, -, hm⟩ := mapM_each (mapM_iff_map.mpr members) hp
    obtain ⟨given, -⟩ := ensure_bind_iff.mp hm
    rw [decide_eq_true_eq.mp empty, blank] at given
    cases given
  unfold TypedRelationInstance.validate
  rw [ensure_bind_iff, ensure_bind_iff]
  exact ⟨type, roles, ensure_iff.mpr (ensure_iff.mp ordered)⟩

/-- A group of accepted content is written as a segment, and verified as it was written. -/
theorem Group.Accepted.verified (h : group.Accepted)
    (two : ∀ r ∈ group.relations, 2 ≤ r.participants.length)
    (fits : ∀ r ∈ group.relations, r.NumbersFit) (source : SourceId) :
    ∃ built, buildSegment sha256 time source group = .ok built ∧
      verify sha256 time built.digest source built.resourceCount built.relationCount built.payload =
        .ok group.sorted := by
  have hs := h.sorted
  obtain ⟨digest, hdigest⟩ := hs.segmentDigest sha256 source
  have resources : ∃ vs, group.sorted.resources.mapM resourceJson = .ok vs ∧
      vs.mapM resourceFromJson = .ok (group.sorted.resources.map id) := by
    apply mapM_through
    intro record hrecord
    obtain ⟨empty, b, hb, -⟩ := hs.resources record hrecord
    have same : record.detached = record := by
      cases record
      cases empty
      rfl
    obtain ⟨v, written, read⟩ := resourceFromJson_resourceJson hb
    rw [same] at read
    exact ⟨v, written, read⟩
  rw [map_id] at resources
  obtain ⟨values, hvalues, hback⟩ := resources
  have relations : ((relationCodec time).list.encode group.sorted.relations).isSome = true := by
    unfold Codec.list
    rw [Option.isSome_map]
    apply Codec.mapM_written
    intro r hr
    exact relationCodec_written (fits r (group.sorted_relations.mem_iff.mp hr))
  obtain ⟨relations, hrelations⟩ := Option.isSome_iff_exists.mp relations
  refine ⟨⟨digest, group.sorted.resources.length, group.sorted.relations.length,
    .obj [("dto_version", .str "v1"), ("source_id", uuidJson source),
      ("resources", .arr values), ("relations", relations)]⟩, ?_, ?_⟩
  · simp only [buildSegment, except_iffs]
    exact ⟨digest, hdigest, values, hvalues, relations, hrelations, hs.fewResources,
      hs.fewRelations, rfl⟩
  · have valid : group.sorted.relations.forM (fun r =>
        r.validate.mapError fun _ => GraphError.integrity "segment relation") = .ok () := by
      rw [forM_iff]
      intro r hr
      obtain ⟨b, hb, -⟩ := hs.relations r hr
      rw [canonicalRelation_valid hb (two r (group.sorted_relations.mem_iff.mp hr))]
      rfl
    simp only [verify, except_iffs]
    refine ⟨?_, ?_, source, uuidAt_uuidJson ?_, rfl, values, ?_, _, hback,
      group.sorted.relations, ?_, valid, rfl, rfl, digest, hdigest, rfl, rfl⟩
    · simp [Json.get, Json.asStr]
    · simp [Json.asObj]
    · simp [Json.get, lookup_cons]
    · rw [index_get (v := .arr values) (by simp [Json.get, lookup_cons])]
      rfl
    · rw [index_get (v := relations) (by simp [Json.get, lookup_cons])]
      exact (relationCodec time).list.decode_encode hrelations

end KnowledgePlatform.Graph
