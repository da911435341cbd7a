import KnowledgePlatform.Graph.Identity

/-! The digest of a graph identifies its content, up to the orders that mean nothing and to
collisions of the hash. -/

namespace KnowledgePlatform.Graph

open Framing List

/-! ## Resources -/

theorem toDatetime_fromDatetime {t u : OffsetDateTime}
    (h : (Instant.fromDatetime t).toDatetime = .ok u) : u = t := by
  unfold Instant.toDatetime Instant.fromDatetime at h
  split at h
  · split at h
    · split at h
      · cases h
        rfl
      · cases h
    · cases h
  · cases h

variable {t : Option OffsetDateTime}

/-- What is read back is what was stored. -/
theorem datetimeOf_stored {u : Option OffsetDateTime}
    (h : datetimeOf (t.map .fromDatetime) = .ok u) :
    u = t := by
  cases t with
  | none =>
    cases h
    rfl
  | some t =>
    simp only [Option.map_some, datetimeOf] at h
    cases read : (Instant.fromDatetime t).toDatetime with
    | error => simp [read, Except.map] at h
    | ok =>
      rw [read] at h
      cases h
      rw [toDatetime_fromDatetime read]

variable {b : Bytes}

theorem storedInstant_ok (h : storedInstant (t.map .fromDatetime) = .ok b) :
    datetimeOf (t.map .fromDatetime) = .ok t ∧ b = instantBytes t := by
  unfold storedInstant at h
  cases read : datetimeOf (t.map .fromDatetime) with
  | error => simp [read, Except.map] at h
  | ok =>
    rw [read] at h
    cases h
    rw [datetimeOf_stored read]
    exact ⟨rfl, rfl⟩

theorem splits_stored {s : Option OffsetDateTime} :
    Splits (storedInstant (s.map .fromDatetime)) (storedInstant (t.map .fromDatetime)) (s = t) := by
  intro x y u v hx hy same
  obtain ⟨-, rfl⟩ := storedInstant_ok hx
  obtain ⟨-, rfl⟩ := storedInstant_ok hy
  exact splits_instant _ _ u v rfl rfl same

theorem mappingBytes_registered {adapterId nativeId : String}
    (h : mappingBytes (.registered adapterId nativeId) = .ok b) :
    parts [.ok [4], text adapterId, text nativeId] = .ok b :=
  (ensure_bind_iff.mp h).2

def GraphSourceMapping.tag : GraphSourceMapping → UInt8
  | document _ => 1
  | folderPlacement _ _ => 2
  | version _ _ => 3
  | registered _ _ => 4

theorem mappingBytes_head (m : GraphSourceMapping) (b : Bytes) (h : mappingBytes m = .ok b) :
    b.head? = some m.tag := by
  cases m with
  | registered => exact parts_head (mappingBytes_registered h)
  | document | folderPlacement | version => exact ok_head h

theorem splits_uuids {c : UInt8} {a a' b b' : Uuid} :
    Splits (.ok (c :: (a.bytes ++ b.bytes)) : Except GraphError Bytes)
      (.ok (c :: (a'.bytes ++ b'.bytes))) (a = a' ∧ b = b') := by
  apply splits_tagged (by simp [Uuid.size])
  intro same
  obtain ⟨first, second⟩ := append_inj same (a.size.trans a'.size.symm)
  exact ⟨Uuid.ext_bytes first, Uuid.ext_bytes second⟩

theorem splits_mapping {m n : GraphSourceMapping} :
    Splits (mappingBytes m) (mappingBytes n) (m = n) := by
  by_cases tags : m.tag = n.tag
  · cases m <;> cases n <;> try (simp [GraphSourceMapping.tag] at tags; done)
    case document.document a b =>
      exact splits_tagged (a.size.trans b.size.symm) fun same => congrArg _ (Uuid.ext_bytes same)
    case folderPlacement.folderPlacement | version.version =>
      exact splits_uuids.mono fun ⟨first, second⟩ => by rw [first, second]
    case registered.registered =>
      intro x y s t hx hy same
      obtain ⟨⟨-, adapter, native, -⟩, rest⟩ :=
        ((splits_ok rfl id).cons (splits_text.cons (splits_text.cons splits_nil))) x y s t
          (mappingBytes_registered hx) (mappingBytes_registered hy) same
      exact ⟨by rw [adapter, native], rest⟩
  · exact splits_heads tags (mappingBytes_head m) (mappingBytes_head n)

theorem kindTag_inj {m n : ResourceKind} (same : [kindTag m] = [kindTag n]) : m = n := by
  cases m <;> cases n <;> simp_all [kindTag]

/-- Records that differ only in the order of their attachments, and these as relations may. -/
structure GraphResourceRecord.Reordered (a b : GraphResourceRecord) : Prop where
  resourceRef : a.resourceRef = b.resourceRef
  kind : a.kind = b.kind
  resourceVersionRef : a.resourceVersionRef = b.resourceVersionRef
  temporal : a.temporal = b.temporal
  mapping : a.mapping = b.mapping
  attachedRelations : Matched TypedRelationInstance.Reordered a.attachedRelations
    b.attachedRelations

/-- A record's bytes hold its attachments by id. -/
theorem canonicalResource_inj {r s : GraphResourceRecord} (hr : canonicalResource r = .ok b)
    (hs : canonicalResource s = .ok b) :
    { r with attachedRelations := [] } = { s with attachedRelations := [] } ∧
      (r.attachedRelations.map TypedRelationInstance.relationId).Perm
        (s.attachedRelations.map TypedRelationInstance.relationId) := by
  simp only [canonicalResource, encodeTemporal, except_iffs] at hr hs
  obtain ⟨ownR, _, ⟨_, _, hcolumnsR⟩, hr⟩ := hr
  obtain ⟨ownS, _, ⟨_, _, hcolumnsS⟩, hs⟩ := hs
  cases hcolumnsR
  cases hcolumnsS
  have tagged : Splits (.ok [kindTag r.kind] : Except GraphError Bytes)
      (.ok [kindTag s.kind]) _ := splits_ok rfl kindTag_inj
  have agree := (splits_uuid.cons <| tagged.cons <| splits_optionalUuid.cons <|
    splits_stored.cons <| splits_stored.cons <| splits_stored.cons <| splits_optionalText.cons <|
    splits_stored.cons <| splits_stored.cons <| splits_mapping.cons <|
    splits_set.cons splits_nil).eq_ok hr hs
  obtain ⟨resourceRef, kind, version, validFrom, validTo, anchor, basis, effectiveFrom, effectiveTo,
    mapping, attached, -⟩ := agree
  constructor
  · obtain ⟨_, _, _, ⟨_, _, _, ⟨_, _, _, _⟩⟩, _, _⟩ := r
    obtain ⟨_, _, _, ⟨_, _, _, ⟨_, _, _, _⟩⟩, _, _⟩ := s
    simp_all [columnsOf]
  · apply matched_eq_iff.mp
    apply matched_of_map_perm (f := Uuid.bytes) fun _ _ _ _ => Uuid.ext_bytes
    rw [map_map, map_map]
    exact attached

theorem GraphResourceRecord.Reordered.bytes {r s : GraphResourceRecord} (h : r.Reordered s) :
    canonicalResource r = canonicalResource s := by
  have ids : (r.attachedRelations.map fun x => x.relationId.bytes).Perm
      (s.attachedRelations.map fun x => x.relationId.bytes) :=
    h.attachedRelations.map_perm fun x _ y same => by rw [same.relationId]
  unfold canonicalResource resourceParts
  rw [h.resourceRef, h.kind, h.resourceVersionRef, h.temporal, h.mapping, set_perm ids]

/-! ## Graphs -/

/-- Graphs that differ only in orders that mean nothing. -/
structure GraphContent.Reordered (g h : GraphContent) : Prop where
  source : g.source = h.source
  schema : g.schema = h.schema
  resources : Matched GraphResourceRecord.Reordered g.resources h.resources
  relations : Matched TypedRelationInstance.Reordered g.relations h.relations

/-- The entries of a map, as the encoder's results. -/
def Canonical.results (m : Canonical) : List (Uuid × Except GraphError Bytes) :=
  m.map (Prod.map id .ok)

section

variable {α : Type} {encode : α → Except GraphError Bytes} {ident : α → Uuid}
  {repeated : GraphError} {xs : List α} {m : Canonical}

theorem insertNew_foldFrom {start : Canonical} (ordered : Keyed.Ordered Prod.fst start)
    (h : xs.foldlM (fun map x => insertNew repeated (encode x) (ident x) map) start = .ok m) :
    Keyed.Ordered Prod.fst m ∧
      m.results.Perm (xs.map (fun x => (ident x, encode x)) ++ start.results) := by
  induction xs generalizing start with
  | nil =>
    cases h
    exact ⟨ordered, .refl _⟩
  | cons x xs ih =>
    obtain ⟨next, first, rest⟩ := except_bind_ok h
    simp only [insertNew, except_iffs] at first
    obtain ⟨b, hb, new, first⟩ := first
    cases first
    obtain ⟨ordered', perm⟩ := ih (ordered.insert _) rest
    refine ⟨ordered', perm.trans ?_⟩
    have inserted := (ordered.insert_perm (a := (ident x, b)) new).map
        (Prod.map id (Except.ok (ε := GraphError)))
    rw [map_cons, cons_append, hb]
    exact (inserted.append_left _).trans perm_middle

variable (h : insertAll repeated encode ident xs = .ok m)
include h

/-- A map made of elements holds the bytes of each, in key order. -/
theorem insertNew_fold :
    Keyed.Ordered Prod.fst m ∧ m.results.Perm (xs.map fun x => (ident x, encode x)) := by
  simpa [Canonical.results] using insertNew_foldFrom .nil h

theorem insertNew_distinct : (xs.map ident).Nodup := by
  obtain ⟨ordered, perm⟩ := insertNew_fold h
  have keys := perm.map Prod.fst
  rw [map_map, Canonical.results, map_map] at keys
  exact keys.nodup_iff.mp (pairwise_map.mpr (ordered.imp fun less => less.ne))

/-- Elements with the same bytes make the same map. -/
theorem insertNew_congr {ys : List α} {n : Canonical}
    (hy : insertAll repeated encode ident ys = .ok n)
    (same : (xs.map fun x => (ident x, encode x)).Perm (ys.map fun x => (ident x, encode x))) :
    m = n := by
  obtain ⟨orderedM, hm⟩ := insertNew_fold h
  obtain ⟨orderedN, hn⟩ := insertNew_fold hy
  have results : m.results.Perm n.results := hm.trans (same.trans hn.symm)
  have inj : Function.Injective (Prod.map (id : Uuid → Uuid)
      (Except.ok (ε := GraphError) (α := Bytes))) :=
    Function.Injective.prodMap Function.injective_id fun _ _ => Except.ok.inj
  apply orderedM.ext orderedN
  intro e
  rw [← mem_map_of_injective inj, ← mem_map_of_injective inj]
  exact results.mem_iff

/-- Every element has an entry with its bytes. -/
theorem insertNew_entry {x : α} (hx : x ∈ xs) :
    ∃ b, encode x = .ok b ∧ Keyed.find Prod.fst (ident x) m = some (ident x, b) := by
  obtain ⟨ordered, perm⟩ := insertNew_fold h
  have here : (ident x, encode x) ∈ m.results :=
    perm.mem_iff.mpr (mem_map_of_mem (f := fun x => (ident x, encode x)) hx)
  obtain ⟨⟨k, b⟩, hb, same⟩ := mem_map.mp here
  obtain ⟨rfl, bytes⟩ := Prod.mk.inj same
  exact ⟨b, bytes.symm, ordered.find_iff.mpr ⟨hb, rfl⟩⟩

/-- The bytes of a map are those of its elements. -/
theorem insertNew_bytes : ((m.map Prod.snd).map Except.ok).Perm (xs.map encode) := by
  have perm := (insertNew_fold h).2.map Prod.snd
  rw [Canonical.results, map_map, map_map] at perm
  rw [map_map]
  exact perm

end

variable {g : GraphContent}

/-- An accepted attachment has the bytes of the generation's relation. -/
theorem attached_bytes {canonical : Canonical}
    (h : validateAttachments g.resources g.relations canonical = .ok ())
    {record : GraphResourceRecord} (hrecord : record ∈ g.resources) {r : TypedRelationInstance}
    (hr : r ∈ record.attachedRelations) :
    ∃ b, canonicalRelation r = .ok b ∧
      (Keyed.find Prod.fst r.relationId canonical).map Prod.snd = some b := by
  obtain ⟨_, attached, -⟩ := except_bind_ok h
  have each := forM_iff.mp (forM_iff.mp attached record hrecord) r hr
  simp only [validateAttachment, except_iffs] at each
  obtain ⟨expected, found, b, hb, rfl, -⟩ := each
  exact ⟨b, hb, found⟩

theorem graphBytes_iff :
    graphBytes g = .ok b ↔ ∃ relations resources, canonicalRelations g.relations = .ok relations ∧
      canonicalResources g.resources = .ok resources ∧
      validateAttachments g.resources g.relations relations = .ok () ∧
      parts [.ok g.source.bytes, text g.schema, list tooLarge (resources.map Prod.snd),
        list tooLarge (relations.map Prod.snd)] = .ok b := by
  simp only [graphBytes, except_bind_iff, exists_and_left, Unique.exists_iff, PUnit.default_eq_unit]

/-- Reordered graphs have the same bytes. -/
theorem GraphContent.Reordered.bytes {h : GraphContent} (same : g.Reordered h) {x y : Bytes}
    (hg : graphBytes g = .ok x) (hh : graphBytes h = .ok y) : x = y := by
  obtain ⟨relationsG, resourcesG, hrelG, hresG, -, hg⟩ := graphBytes_iff.mp hg
  obtain ⟨relationsH, resourcesH, hrelH, hresH, -, hh⟩ := graphBytes_iff.mp hh
  have relations : relationsG = relationsH := by
    apply insertNew_congr hrelG hrelH
    apply same.relations.map_perm
    intro r hr s reordered
    obtain ⟨b, hb, -⟩ := insertNew_entry hrelG hr
    rw [hb, reordered.bytes hb, reordered.relationId]
  have resources : resourcesG = resourcesH := by
    apply insertNew_congr hresG hresH
    apply same.resources.map_perm
    intro r _ s reordered
    rw [reordered.bytes, reordered.resourceRef]
  rw [relations, resources, same.source, same.schema] at hg
  exact Except.ok.inj (hg.symm.trans hh)

/-- Graphs with the same bytes are reordered. -/
theorem graphBytes_inj {h : GraphContent} (hg : graphBytes g = .ok b) (hh : graphBytes h = .ok b) :
    g.Reordered h := by
  obtain ⟨relationsG, resourcesG, hrelG, hresG, attachedG, hg⟩ := graphBytes_iff.mp hg
  obtain ⟨relationsH, resourcesH, hrelH, hresH, attachedH, hh⟩ := graphBytes_iff.mp hh
  obtain ⟨source, schema, resources, relations, -⟩ :=
    (splits_uuid.cons <| splits_text.cons <| splits_list.cons <| splits_list.cons splits_nil).eq_ok
      hg hh
  have images : (g.relations.map canonicalRelation).Perm (h.relations.map canonicalRelation) := by
    apply (insertNew_bytes hrelG).symm.trans
    rw [relations]
    exact insertNew_bytes hrelH
  have reordered : Matched TypedRelationInstance.Reordered g.relations h.relations := by
    apply matched_of_map_perm _ images
    intro r hr s _ bytes
    obtain ⟨b, hb, -⟩ := insertNew_entry hrelG hr
    exact canonicalRelation_inj hb (bytes.symm.trans hb)
  -- relations of one id have one canonical form in both graphs
  have same : relationsG = relationsH := by
    apply insertNew_congr hrelG hrelH
    apply reordered.map_perm
    intro r hr s reordered
    obtain ⟨b, hb, -⟩ := insertNew_entry hrelG hr
    rw [hb, reordered.bytes hb, reordered.relationId]
  refine ⟨source, schema, ?_, reordered⟩
  have images : (g.resources.map canonicalResource).Perm (h.resources.map canonicalResource) := by
    apply (insertNew_bytes hresG).symm.trans
    rw [resources]
    exact insertNew_bytes hresH
  apply matched_of_map_perm _ images
  intro r hr s hs bytes
  obtain ⟨b, hb, -⟩ := insertNew_entry hresG hr
  obtain ⟨fields, ids⟩ := canonicalResource_inj hb (bytes.symm.trans hb)
  have attached : Matched TypedRelationInstance.Reordered r.attachedRelations
      s.attachedRelations := by
    apply matched_of_map_perm _ ids
    intro x hx y hy id
    obtain ⟨c, hc, foundX⟩ := attached_bytes attachedG hr hx
    obtain ⟨d, hd, foundY⟩ := attached_bytes attachedH hs hy
    rw [id, same, foundY] at foundX
    cases foundX
    exact canonicalRelation_inj hc hd
  cases r
  cases s
  cases fields
  exact ⟨rfl, rfl, rfl, rfl, rfl, attached⟩

variable {sha256 : Bytes → Digest}

theorem canonicalGraphDigest_ok {d : String} (h : canonicalGraphDigest sha256 g = .ok d) :
    ∃ x, graphBytes g = .ok x ∧ d = sha256Text sha256 graphDomain x := by
  unfold canonicalGraphDigest at h
  cases bytes : graphBytes g with
  | error => simp [bytes, Except.map] at h
  | ok x =>
    rw [bytes] at h
    cases h
    exact ⟨x, rfl, rfl⟩

/-- Accepted graphs that differ only in order have one digest; one digest is of such graphs, or of
two byte strings the hash does not tell apart. -/
theorem digest_identifies_content {h : GraphContent} {d e : String}
    (hg : canonicalGraphDigest sha256 g = .ok d) (hh : canonicalGraphDigest sha256 h = .ok e) :
    (g.Reordered h → d = e) ∧
      (d = e → g.Reordered h ∨ ∃ x y, graphBytes g = .ok x ∧ graphBytes h = .ok y ∧
        graphDomain ++ x ≠ graphDomain ++ y ∧
        sha256 (graphDomain ++ x) = sha256 (graphDomain ++ y)) := by
  obtain ⟨x, hx, rfl⟩ := canonicalGraphDigest_ok hg
  obtain ⟨y, hy, rfl⟩ := canonicalGraphDigest_ok hh
  constructor
  · intro reordered
    rw [reordered.bytes hx hy]
  · intro same
    by_cases equal : x = y
    · subst equal
      exact .inl (graphBytes_inj hx hy)
    · exact .inr ⟨x, y, hx, hy, fun whole => equal (append_cancel_left whole),
        Digest.hex_inj (String.append_right_inj _ |>.mp same)⟩

/-- A citation with a set among its qualifiers. -/
def sampleCitation (participants : List RelationParticipant) (tags : List TypedValue) :
    TypedRelationInstance where
  relationId := .filled 9
  namespaceOf := .semantic
  relationType := "cites"
  participants := participants
  qualifiers := ⟨[("tags", .set tags)], List.pairwise_singleton _ _⟩
  temporalScope := ⟨none, none⟩
  authority := none
  provenance := none
  evidenceRefs := []

def sampleGraph (participants : List RelationParticipant) (tags : List TypedValue) :
    GraphContent where
  source := .filled 7
  schema := "v1"
  resources := [{
    resourceRef := .filled 1
    kind := .document
    resourceVersionRef := none
    temporal := ⟨.filled 1, none, none, ⟨none, none, none, none⟩⟩
    mapping := .document (.filled 5)
    attachedRelations := [sampleCitation participants tags] }]
  relations := [sampleCitation participants tags]

/-- A hash that keeps the first bytes. -/
def sampleHash : Bytes → Digest := .padded

def sampleParticipants : List RelationParticipant :=
  [⟨"source", .filled 1⟩, ⟨"target", .filled 2⟩]

def sampleTags : List TypedValue := [.bool true, .bool false]

def sampleWhole : GraphContent := sampleGraph sampleParticipants sampleTags

/-- The same with its lists the other way round. -/
def sampleTurned : GraphContent := sampleGraph sampleParticipants.reverse sampleTags.reverse

theorem sampleCitation_reverse : (sampleCitation sampleParticipants sampleTags).Reordered
    (sampleCitation sampleParticipants.reverse sampleTags.reverse) where
  relationId := rfl
  namespaceOf := rfl
  relationType := rfl
  participants := (reverse_perm _).symm
  qualifiers := .cons ⟨rfl, .order (reverse_perm _).symm⟩ .nil
  temporalScope := rfl
  authority := rfl
  provenance := rfl
  evidenceRefs := .refl _

theorem sampleWhole_turned : sampleWhole.Reordered sampleTurned where
  source := rfl
  schema := rfl
  resources := ⟨sampleTurned.resources,
    .cons ⟨rfl, rfl, rfl, rfl, rfl, _, .cons sampleCitation_reverse .nil, .refl _⟩ .nil, .refl _⟩
  relations := ⟨_, .cons sampleCitation_reverse .nil, .refl _⟩

theorem digest_identifies_sample : ∃ d, canonicalGraphDigest sampleHash sampleWhole = .ok d ∧
    canonicalGraphDigest sampleHash sampleTurned = .ok d := by
  have first : (canonicalGraphDigest sampleHash sampleWhole).isOk = true := by decide +kernel
  have second : (canonicalGraphDigest sampleHash sampleTurned).isOk = true := by decide +kernel
  obtain ⟨d, hd⟩ := isOk_exists first
  obtain ⟨e, he⟩ := isOk_exists second
  have same := (digest_identifies_content hd he).1 sampleWhole_turned
  exact ⟨d, hd, same ▸ he⟩

end KnowledgePlatform.Graph
