import KnowledgePlatform.Graph.Identity
import KnowledgePlatform.Search.Segments

/-! A manifest binds its content: inputs and entries it validates are the same, unless two of the
byte strings hashed on the way collide. -/

namespace KnowledgePlatform.Search

open Framing List
open Graph (RetentionMode int128be int128be_inj)

/-! ## Frames -/

theorem frameBytes_inj {domain : String} {xs ys : List (Except VectorContractError Bytes)}
    {b : Bytes} (hx : frameBytes domain xs = .ok b) (hy : frameBytes domain ys = .ok b) :
    xs = ys := by
  obtain ⟨x, framesX, first⟩ := parts_ok_cons_iff.mp hx
  obtain ⟨y, framesY, second⟩ := parts_ok_cons_iff.mp hy
  rw [← append_cancel_left (first.symm.trans second)] at framesY
  exact frames_inj framesX framesY

@[simp] theorem bytesFrame_inj {x y : Bytes} : bytesFrame x = bytesFrame y ↔ x = y :=
  ⟨Except.ok.inj, congrArg _⟩

@[simp] theorem stringFrame_inj {x y : String} : stringFrame x = stringFrame y ↔ x = y := by
  constructor
  · intro same
    exact String.toList_inj.mp (utf8_inj (Except.ok.inj same))
  · exact congrArg _

@[simp] theorem u32Frame_inj {x y : UInt32} : u32Frame x = u32Frame y ↔ x = y := by
  constructor
  · intro same
    exact u32Bytes_inj (Except.ok.inj same)
  · exact congrArg _

@[simp] theorem u64Frame_inj {x y : UInt64} : u64Frame x.toNat = u64Frame y.toNat ↔ x = y := by
  constructor
  · intro same
    have same := bigEndian_inj (Except.ok.inj same)
    have := x.toNat_lt
    have := y.toNat_lt
    apply UInt64.toNat_inj.mp
    omega
  · intro same
    rw [same]

@[simp] theorem timeFrame_inj {x y : Option Instant} : timeFrame x = timeFrame y ↔ x = y := by
  refine ⟨?_, congrArg _⟩
  intro same
  cases x with
  | none =>
    cases y with
    | none => rfl
    | some => simpa using congrArg length (Except.ok.inj same)
  | some x =>
    cases y with
    | none => simpa using congrArg length (Except.ok.inj same)
    | some y => rw [Subtype.ext (int128be_inj x.2 y.2 (Except.ok.inj same))]

/-- A digest is never taken for a number. -/
theorem u64Frame_ne_digest {n : Nat} {d : Digest} : u64Frame n ≠ bytesFrame d.bytes := by
  intro same
  have sizes := congrArg length (Except.ok.inj same)
  rw [length_bigEndian, d.size] at sizes
  cases sizes

variable {x y : Digest}

@[simp] theorem digest_bytes_inj : x.bytes = y.bytes ↔ x = y :=
  ⟨Digest.ext_bytes, congrArg _⟩

@[simp] theorem uuid_bytes_inj {x y : Uuid} : x.bytes = y.bytes ↔ x = y :=
  ⟨Uuid.ext_bytes, congrArg _⟩

@[simp] theorem unitId_text_inj {x y : UnitId} : x.text = y.text ↔ x = y := by
  refine ⟨?_, congrArg _⟩
  intro same
  have digest := Digest.hex_inj (String.append_right_inj _ |>.mp same)
  cases x
  cases y
  exact congrArg UnitId.mk digest

theorem digestString_inj (same : digestString x = digestString y) : x = y :=
  Digest.hex_inj (String.append_right_inj _ |>.mp same)

@[simp] theorem formatTag_inj {x y : FormatId} : x.tag = y.tag ↔ x = y := by
  cases x <;> cases y <;> decide

@[simp] theorem innerFormatTag_inj {x y : Option FormatId} :
    x.elim 0 FormatId.tag = y.elim 0 FormatId.tag ↔ x = y := by
  have present (z : FormatId) : (0 : UInt8) ≠ z.tag := by
    cases z <;> decide
  cases x with
  | none =>
    cases y with
    | none => simp
    | some y => simp [present y]
  | some x =>
    cases y with
    | none => simp [(present x).symm]
    | some => simp

@[simp] theorem unitKindTag_inj {x y : UnitKind} : unitKindTag x = unitKindTag y ↔ x = y := by
  cases x <;> cases y <;> decide

@[simp] theorem retentionTag_inj {x y : RetentionMode} :
    retentionTag x = retentionTag y ↔ x = y := by
  cases x <;> cases y <;> decide

@[simp] theorem coverageTag_inj {x y : VectorUnitCoverage} : x.tag = y.tag ↔ x = y := by
  cases x <;> cases y <;> decide

theorem fromUnit_iff {α : Type} {x : Except UnitCodecError α} {a : α} :
    fromUnit x = .ok a ↔ x = .ok a := by
  cases x <;> simp [fromUnit]

theorem encode_inj {isNfc : NfcTest} {x y : NativeLocator} {b : Bytes}
    (hx : x.encode isNfc = .ok b) (hy : y.encode isNfc = .ok b) : x = y :=
  Except.ok.inj ((decode_iff.mpr hx).symm.trans (decode_iff.mpr hy))

/-! ## Blocks of a unit and an entry -/

variable {env : Platform} {a b : VectorManifestUnit}

theorem length_hashUnit (env : Platform) (item : VectorManifestUnit) :
    (hashUnit env item).length = 27 + if item.unit.parentUnitId.isSome then 1 else 0 := by
  obtain ⟨⟨_, _, _, parent, _, _, _, _, _, _⟩, _, _⟩ := item
  cases parent <;> rfl

theorem parentFlag_hashUnit (env : Platform) (item : VectorManifestUnit)
    (rest : List (Except VectorContractError Bytes)) :
    (hashUnit env item ++ rest)[7]? =
      some (bytesFrame [if item.unit.parentUnitId.isSome then 1 else 0]) := by
  obtain ⟨⟨_, _, _, parent, _, _, _, _, _, _⟩, _, _⟩ := item
  cases parent <;> rfl

theorem hashUnit_ne_nil (env : Platform) (item : VectorManifestUnit) : hashUnit env item ≠ [] := by
  apply ne_nil_of_length_pos
  rw [length_hashUnit]
  omega

variable {xs ys : List VectorManifestUnit} {bytes : Bytes}

/-! ## What an accepted segment says -/

/-- A unit's fields that are not framed follow from the header and the fields that are. -/
structure Pinned (env : Platform) (header : VectorManifestHeader) (item : VectorManifestUnit) :
    Prop where
  encodes : ∃ bytes, item.unit.locator.encode env.isNfc = .ok bytes
  generation : item.authority.generation = header.bundleKey
  snapshot : item.unit.provenance.sourceSnapshot = header.sourceSnapshot
  version : item.unit.version = item.authority.version
  part : item.unit.part = item.authority.part
  representation : item.unit.provenance.authoritativeRepresentationRef =
    item.authority.authoritativeRepresentationRef
  raw : item.unit.provenance.raw = item.authority.raw
  profile : item.unit.provenance.profile = item.authority.profile

/-- An entry is pinned to its unit and its model, up to the vector. -/
structure Bound (modelId : EmbeddingModelId) (item : VectorManifestUnit) (entry : VectorEntryRef) :
    Prop where
  hit : entry.hit = hitFor item.unit item.authority
  model : entry.modelId = modelId
  cacheKey : entry.cacheKey = {
    embeddingModelId := modelId
    unitId := item.unit.unitId
    textSha256 := item.unit.textSha256
    profile := item.unit.provenance.profile
    sourceId := item.unit.version.sourceId
    authorityScopeKey := item.authority.authorityScopeKey
    retentionLeaseId := item.authority.retentionLeaseId
    lifetimeScopeId := item.authority.lifetimeScopeId }

variable {modelId : EmbeddingModelId} {header : VectorManifestHeader} {storage : VectorStorageKind}
  {scan : SegmentScan}

theorem scanUnit_ok {version : ResourceVersionRef} {part : ContentPartRef} {next : SegmentScan}
    {item : VectorManifestUnit}
    (h : scanUnit env header storage version part scan item = .ok next) :
    Pinned env header item ∧
      Keyed.insertUnique unitKey (VectorContractError.invalid "duplicate Unit or locator") scan.byId
        item = .ok next.byId := by
  simp only [scanUnit, except_iffs] at h
  obtain ⟨valid, -, ⟨generation, snapshot, -⟩, bytes, encoded, -, byId, inserted, rfl⟩ := h
  simp only [validateUnit, except_iffs] at valid
  obtain ⟨-, _, -, ⟨-, -, -, -, -, -, -, -, -, pinned⟩, -⟩ := valid
  simp only [matchesPinnedUnit, hitFor, decide_eq_true_eq] at pinned
  obtain ⟨-, -, -, -, version, -, part, -, representation, -, raw, -, profile, -⟩ := pinned
  exact ⟨⟨⟨bytes, fromUnit_iff.mp encoded⟩, generation, snapshot, version, part,
    representation, raw, profile⟩, inserted⟩

variable {entry : VectorEntryRef}

theorem indexEntry_ok {indexed next : List VectorEntryRef}
    (h : indexEntry modelId scan indexed entry = .ok next) :
    (∃ item ∈ scan.byId, unitKey item = entryKey entry ∧ Bound modelId item entry) ∧
      Keyed.insertUnique entryKey (VectorContractError.invalid "Vector entry binding") indexed
        entry =
        .ok next := by
  simp only [indexEntry, except_iffs] at h
  obtain ⟨item, found, -, _, inserted, ⟨model, cached, pinned, keyed⟩, rfl⟩ := h
  refine ⟨⟨item, mem_of_find?_eq_some found, by simpa using find?_some found, ?_⟩, inserted⟩
  simp only [matchesPinnedUnit, decide_eq_true_eq] at pinned
  simp only [cacheKeyMatchesAuthority, decide_eq_true_eq] at keyed
  obtain ⟨⟨_, _, _, _, _, _, _, _⟩, _, _, ⟨_, _, _, _, _, _, _, _⟩⟩ := entry
  obtain ⟨-, h₁, h₂, h₃, -, h₄, -, h₅, -, h₆, -, h₇, -, h₈⟩ := pinned
  obtain ⟨-, -, k₁, k₂, k₃, k₄, -, k₅, k₆, k₇, -⟩ := keyed
  simp only at h₁ h₂ h₃ h₄ h₅ h₆ h₇ h₈ k₁ k₂ k₃ k₄ k₅ k₆ k₇ model cached
  refine ⟨?_, model, ?_⟩
  · simp only [hitFor, h₁, h₂, h₃, h₄, h₅, h₆, h₇, h₈]
  · simp only [cached, k₁, k₂, k₃, k₄, k₅, k₆, k₇]

/-- What acceptance says of a segment. -/
structure Accepted (env : Platform) (modelId : EmbeddingModelId) (header : VectorManifestHeader)
    (units : List VectorManifestUnit) (entries : List VectorEntryRef)
    (segment : VectorSegmentCheck) : Prop where
  pinned : ∀ item ∈ units, Pinned env header item
  distinctUnits : (units.map unitKey).Nodup
  distinctEntries : (entries.map entryKey).Nodup
  bound : ∀ entry ∈ entries, ∃ item ∈ units, unitKey item = entryKey entry ∧
    Bound modelId item entry
  bindings : ∃ bytes, bindingsBytes env units = .ok bytes ∧
    segment.bindingsDigest = env.sha256 bytes
  hashed : ∃ bytes, entriesBytes units (Keyed.ofList entryKey entries) = .ok bytes ∧
    segment.entriesDigest = env.sha256 bytes

variable {units : List VectorManifestUnit} {segment : VectorSegmentCheck}

theorem checkSegment_accepted
    (h : checkSegment env modelId header storage units entries = .ok segment) :
    Accepted env modelId header units entries segment := by
  simp only [checkSegment, except_iffs] at h
  obtain ⟨first, -, scan, scanned, -, indexed, indexing, -, bindings, hbindings, hashed,
    hhashed, rfl⟩ := h
  have inserted := foldlM_image (p := SegmentScan.byId) (fun _ _ _ _ step => (scanUnit_ok step).2)
    scanned
  obtain ⟨distinctUnits, byId⟩ := Keyed.foldlM_unique_nil_iff.mp inserted
  have entered := foldlM_image (p := id) (fun _ _ _ _ step => (indexEntry_ok step).2) indexing
  obtain ⟨distinctEntries, entered⟩ := Keyed.foldlM_unique_nil_iff.mp entered
  refine ⟨?_, distinctUnits, distinctEntries, ?_, ⟨bindings, hbindings, rfl⟩, ⟨hashed, ?_, rfl⟩⟩
  · intro item hitem
    obtain ⟨_, _, step⟩ := foldlM_visits scanned hitem
    exact (scanUnit_ok step).1
  · intro entry hentry
    obtain ⟨_, _, step⟩ := foldlM_visits indexing hentry
    obtain ⟨item, hitem, facts⟩ := (indexEntry_ok step).1
    rw [byId, (Keyed.ofList_perm distinctUnits).mem_iff] at hitem
    exact ⟨item, hitem, facts⟩
  · rw [← entered]
    exact hhashed

/-! ## Segments of the same bytes -/

variable {other : VectorManifestHeader}

/-- A unit is determined by its frames and what it is pinned to. -/
theorem unit_eq_of_frames (pa : Pinned env header a) (pb : Pinned env other b)
    (generation : header.bundleKey = other.bundleKey)
    (snapshot : header.sourceSnapshot = other.sourceSnapshot)
    (same : hashUnit env a = hashUnit env b) : a = b := by
  obtain ⟨⟨x, hx⟩, generationA, snapshotA, versionA, partA, representationA, rawA, profileA⟩ := pa
  obtain ⟨⟨y, hy⟩, generationB, snapshotB, versionB, partB, representationB, rawB, profileB⟩ := pb
  obtain ⟨⟨_, ⟨_, _, _⟩, ⟨_, _, _⟩, parent, _, _, _, _, _, ⟨_, _, ⟨_, _, _⟩, _, _, _, _⟩⟩,
    ⟨_, _, _, _, _, _, _, _, _, _, _⟩, _⟩ := a
  obtain ⟨⟨_, ⟨_, _, _⟩, ⟨_, _, _⟩, parent', _, _, _, _, _, ⟨_, _, ⟨_, _, _⟩, _, _, _, _⟩⟩,
    ⟨_, _, _, _, _, _, _, _, _, _, _⟩, _⟩ := b
  simp only at *
  subst versionA versionB partA partB representationA representationB rawA rawB profileA profileB
  rw [← generationB, ← generationA] at generation
  rw [← snapshotA, ← snapshotB] at snapshot
  cases parent <;> cases parent' <;> simp [hashUnit, hx, hy, fromUnit] at same
  all_goals
    obtain rfl : x = y := by tauto
    obtain rfl := encode_inj hx hy
    simp [same, snapshot, generation]

theorem hashEntry_unitId {x y : VectorEntryRef} (same : hashEntry x = hashEntry y) :
    entryKey x = entryKey y := by
  simp only [hashEntry, cons.injEq, stringFrame_inj, unitId_text_inj] at same
  rw [entryKey, same.1]
  rfl

/-- Every entry of an accepted segment is hashed with its unit. -/
theorem Accepted.mem_inUnitOrder (h : Accepted env modelId header units entries segment) :
    entry ∈ inUnitOrder units (Keyed.ofList entryKey entries) ↔ entry ∈ entries := by
  have found {item : VectorManifestUnit} : Keyed.find entryKey (unitKey item)
      (Keyed.ofList entryKey entries) = some entry ↔
        entry ∈ entries ∧ entryKey entry = unitKey item := by
    rw [(Keyed.Ordered.ofList _).find_iff, (Keyed.ofList_perm h.distinctEntries).mem_iff]
  simp only [inUnitOrder, mem_filterMap, found]
  constructor
  · rintro ⟨_, -, hentry, -⟩
    exact hentry
  · intro hentry
    obtain ⟨item, hitem, same, -⟩ := h.bound entry hentry
    exact ⟨item, hitem, hentry, same.symm⟩

/-- Segments of the same bytes have the same units and the same entries. -/
theorem Accepted.same {xe ye : List VectorEntryRef} {x y : VectorSegmentCheck}
    (hx : Accepted env modelId header xs xe x) (hy : Accepted env modelId other ys ye y)
    (generation : header.bundleKey = other.bundleKey)
    (snapshot : header.sourceSnapshot = other.sourceSnapshot) {bindings hashed : Bytes}
    (bindingsX : bindingsBytes env xs = .ok bindings)
    (bindingsY : bindingsBytes env ys = .ok bindings)
    (hashedX : entriesBytes xs (Keyed.ofList entryKey xe) = .ok hashed)
    (hashedY : entriesBytes ys (Keyed.ofList entryKey ye) = .ok hashed) :
    xs = ys ∧ ∀ entry, entry ∈ xe ↔ entry ∈ ye := by
  -- The flag before the parent says how long a unit's block is.
  have block (a b : VectorManifestUnit) (s t : List (Except VectorContractError Bytes))
      (same : hashUnit env a ++ s = hashUnit env b ++ t) : hashUnit env a = hashUnit env b := by
    apply append_inj_left same
    have flags := congrArg (·[7]?) same
    rw [length_hashUnit, length_hashUnit]
    simp only [parentFlag_hashUnit, Option.some.injEq, bytesFrame_inj, cons.injEq] at flags
    cases ha : a.unit.parentUnitId.isSome <;> cases hb : b.unit.parentUnitId.isSome <;>
      simp_all
  have units : Forall₂ Eq xs ys := forall₂_of_map_eq
    (fun a ha b hb => unit_eq_of_frames (hx.pinned a ha) (hy.pinned b hb) generation snapshot)
    (blocks_inj block (hashUnit_ne_nil env) (cons.inj (frameBytes_inj bindingsX bindingsY)).2)
  rw [forall₂_eq_eq_eq] at units
  subst units
  refine ⟨rfl, ?_⟩
  have entries : Forall₂ Eq (inUnitOrder xs (Keyed.ofList entryKey xe))
      (inUnitOrder xs (Keyed.ofList entryKey ye)) := by
    refine forall₂_of_map_eq ?_ (blocks_inj (fun _ _ _ _ same => append_inj_left same rfl)
      (fun _ => cons_ne_nil _ _) (cons.inj (frameBytes_inj hashedX hashedY)).2)
    intro e he f hf same
    obtain ⟨item, hitem, key, bound⟩ := hx.bound e (hx.mem_inUnitOrder.mp he)
    obtain ⟨item', hitem', key', bound'⟩ := hy.bound f (hy.mem_inUnitOrder.mp hf)
    have unitKeys : unitKey item = unitKey item' := by
      rw [key, key', hashEntry_unitId same]
    obtain rfl := inj_on_of_nodup_map hx.distinctUnits hitem hitem' unitKeys
    obtain ⟨hit, model, cacheKey⟩ := bound
    obtain ⟨hit', model', cacheKey'⟩ := bound'
    have vectors : e.vectorDigest = f.vectorDigest := by
      simp at same
      tauto
    cases e
    cases f
    simp only at *
    rw [hit, hit', model, model', vectors, cacheKey, cacheKey']
  rw [forall₂_eq_eq_eq] at entries
  intro entry
  rw [← hx.mem_inUnitOrder, ← hy.mem_inUnitOrder, entries]

/-! ## The composed digests -/

/-- What the manifest says of the segments it accepts. -/
structure Sealed (env : Platform) (m : VectorProjectionManifest) (header : VectorManifestHeader)
    (segments : List VectorSegmentCheck) : Prop where
  generation : m.bundleKey = header.bundleKey
  snapshot : m.sourceSnapshot = header.sourceSnapshot
  bindings : ∃ composed bytes, composeSegments env header m.createdAt segments = .ok composed ∧
    unitSetBytes header segments composed.nonindexed = .ok bytes ∧
    m.unitBindingsDigest = digestString (env.sha256 bytes)
  entries : ∃ bytes, entrySetBytes header segments = .ok bytes ∧
    m.indexedEntriesDigest = digestString (env.sha256 bytes)

variable {segments : List VectorSegmentCheck}

theorem validateSegments_sealed {m : VectorProjectionManifest} {receipt : VectorStageReceipt}
    (h : m.validateSegments env header segments = .ok receipt) :
    Sealed env m header segments := by
  simp only [VectorProjectionManifest.validateSegments, except_iffs] at h
  obtain ⟨-, ⟨-, -, -, -, generation, -, snapshot, -⟩, composed, composing,
    ⟨-, -, bindings, entries, -⟩, -⟩ := h
  have parts := composing
  simp only [composeSegments, except_iffs] at parts
  obtain ⟨-, c, -, declared, -, -, u, hu, v, hv, rfl⟩ := parts
  exact ⟨generation, snapshot, ⟨_, u, composing, hu, bindings⟩, ⟨v, hv, entries⟩⟩

/-! ## The manifest binds its content -/

/-- The byte strings hashed while `m` validates an input with entries. -/
inductive Hashed (env : Platform) (m : VectorProjectionManifest) (input : VectorManifestInput)
    (entries : List VectorEntryRef) : Bytes → Prop
  | segmentUnits {run : List VectorManifestUnit} {bytes : Bytes} :
    run ∈ ranges input.units → bindingsBytes env run = .ok bytes → Hashed env m input entries bytes
  | segmentEntries {run : List VectorManifestUnit} {bytes : Bytes} :
    run ∈ ranges input.units →
    entriesBytes run (Keyed.ofList entryKey (entriesOf run entries)) = .ok bytes →
    Hashed env m input entries bytes
  | unitSet {segments : List VectorSegmentCheck} {composed : ComposedSegments} {bytes : Bytes} :
    checkInput env m.modelId input m.storage entries = .ok segments →
    composeSegments env input.header m.createdAt segments = .ok composed →
    unitSetBytes input.header segments composed.nonindexed = .ok bytes →
    Hashed env m input entries bytes
  | entrySet {segments : List VectorSegmentCheck} {bytes : Bytes} :
    checkInput env m.modelId input m.storage entries = .ok segments →
    entrySetBytes input.header segments = .ok bytes → Hashed env m input entries bytes
  | manifest {bytes : Bytes} : m.manifestBytes = .ok bytes → Hashed env m input entries bytes

variable {m : VectorProjectionManifest} {input : VectorManifestInput}
  {entries : List VectorEntryRef}

/-- Every entry of an accepted input stands once. -/
theorem SegmentChecks.nodup (h : SegmentChecks env modelId input storage entries segments) :
    entries.Nodup := by
  rw [nodup_iff_count_le_one]
  intro entry
  by_cases hentry : entry ∈ entries
  · obtain ⟨item, hitem, same⟩ := h.covers entry hentry
    rw [← flatten_splitBy sameSegment input.units] at hitem
    obtain ⟨run, hrun, hitem⟩ := mem_flatten.mp hitem
    obtain ⟨segment, -, checked⟩ := exists_right h.checks hrun
    have distinct : (entriesOf run entries).Nodup :=
      Nodup.of_map _ (checkSegment_accepted checked).distinctEntries
    have kept : (entriesOf run entries).count entry = entries.count entry := by
      apply count_filter
      rw [any_eq_true]
      exact ⟨item, hitem, decide_eq_true same⟩
    rw [← kept]
    exact nodup_iff_count_le_one.mp distinct entry
  · rw [count_eq_zero_of_not_mem hentry]
    exact Nat.zero_le 1

section

variable {input₁ input₂ : VectorManifestInput} {entries₁ entries₂ : List VectorEntryRef}

/-- Without a collision the runs and their entries are the same, one by one. -/
theorem runs_same {segments₁ segments₂ : List VectorSegmentCheck}
    (apart : ∀ a b, Hashed env m input₁ entries₁ a → Hashed env m input₂ entries₂ b →
      env.sha256 a = env.sha256 b → a = b)
    (checked₁ : checkInput env m.modelId input₁ m.storage entries₁ = .ok segments₁)
    (checked₂ : checkInput env m.modelId input₂ m.storage entries₂ = .ok segments₂)
    (sealed₁ : Sealed env m input₁.header segments₁)
    (sealed₂ : Sealed env m input₂.header segments₂) :
    Forall₂ (fun run other => run = other ∧
      ∀ entry, entry ∈ entriesOf run entries₁ ↔ entry ∈ entriesOf other entries₂)
      (ranges input₁.units) (ranges input₂.units) := by
  obtain ⟨generation₁, snapshot₁, ⟨composed₁, u₁, composing₁, hu₁, bindings₁⟩, v₁, hv₁, entered₁⟩ :=
    sealed₁
  obtain ⟨generation₂, snapshot₂, ⟨composed₂, u₂, composing₂, hu₂, bindings₂⟩, v₂, hv₂, entered₂⟩ :=
    sealed₂
  obtain rfl : u₁ = u₂ := apart u₁ u₂ (.unitSet checked₁ composing₁ hu₁)
    (.unitSet checked₂ composing₂ hu₂) (digestString_inj (bindings₁.symm.trans bindings₂))
  obtain rfl : v₁ = v₂ := apart v₁ v₂ (.entrySet checked₁ hv₁) (.entrySet checked₂ hv₂)
    (digestString_inj (entered₁.symm.trans entered₂))
  have checks₁ := (checkInput_iff.mp checked₁).2.checks
  have checks₂ := (checkInput_iff.mp checked₂).2.checks
  rw [← ranges_eq_splitBy] at checks₁ checks₂
  refine forall₂_through checks₁ checks₂ (D := fun x y => x.bindingsDigest = y.bindingsDigest)
    (E := fun x y => x.entriesDigest = y.entriesDigest) ?_ ?_ ?_
  · have frames := frameBytes_inj hu₁ hu₂
    simp only [cons_append, nil_append, cons.injEq] at frames
    have ends (n : Nat) (rest : List (Except VectorContractError Bytes)) (x : VectorSegmentCheck)
        (u : List (Except VectorContractError Bytes)) :
        u64Frame n :: rest ≠ [bytesFrame x.bindingsDigest.bytes, u64Frame x.unitCount] ++ u :=
      fun same => u64Frame_ne_digest (cons.inj same).1
    have blocks := (blocks_append_inj (fun _ _ _ _ same => append_inj_left same rfl)
      (ends _ _) (ends _ _) frames.2.2.2.2).1
    refine forall₂_of_map_eq ?_ blocks
    intro x _ y _ same
    simpa using (cons.inj same).1
  · have frames := frameBytes_inj hv₁ hv₂
    simp only [cons_append, nil_append, cons.injEq] at frames
    have blocks := blocks_inj (fun _ _ _ _ same => append_inj_left same rfl)
      (fun _ => cons_ne_nil _ _) frames.2.2.2
    refine forall₂_of_map_eq ?_ blocks
    intro x _ y _ same
    simpa using (cons.inj same).1
  intro run hrun other hother segment₁ segment₂ check₁ check₂ bindings hashed
  have accepted₁ := checkSegment_accepted check₁
  have accepted₂ := checkSegment_accepted check₂
  obtain ⟨b₁, hb₁, digest₁⟩ := accepted₁.bindings
  obtain ⟨b₂, hb₂, digest₂⟩ := accepted₂.bindings
  obtain ⟨c₁, hc₁, entriesDigest₁⟩ := accepted₁.hashed
  obtain ⟨c₂, hc₂, entriesDigest₂⟩ := accepted₂.hashed
  obtain rfl : b₁ = b₂ := apart b₁ b₂ (.segmentUnits hrun hb₁) (.segmentUnits hother hb₂)
    (digest₁.symm.trans (bindings.trans digest₂))
  obtain rfl : c₁ = c₂ := apart c₁ c₂ (.segmentEntries hrun hc₁) (.segmentEntries hother hc₂)
    (entriesDigest₁.symm.trans (hashed.trans entriesDigest₂))
  exact accepted₁.same accepted₂ (generation₁.symm.trans generation₂)
    (snapshot₁.symm.trans snapshot₂) hb₁ hb₂ hc₁ hc₂

/-- Entries of related runs are entries of the other input. -/
theorem entries_subset {xs ys : List (List VectorManifestUnit)}
    (covers : Covers xs.flatten entries₁)
    (same : Forall₂ (fun run other => run = other ∧
      ∀ entry, entry ∈ entriesOf run entries₁ ↔ entry ∈ entriesOf other entries₂) xs ys) :
    entries₁ ⊆ entries₂ := by
  intro entry hentry
  obtain ⟨item, hitem, unit⟩ := covers entry hentry
  obtain ⟨run, hrun, hitem⟩ := mem_flatten.mp hitem
  obtain ⟨other, -, -, both⟩ := exists_right same hrun
  have inside : entry ∈ entriesOf run entries₁ := by
    refine mem_filter.mpr ⟨hentry, ?_⟩
    rw [any_eq_true]
    exact ⟨item, hitem, decide_eq_true unit⟩
  exact mem_of_mem_filter ((both entry).mp inside)

/-- A manifest validates one content only, unless two of the byte strings hashed collide. -/
theorem manifest_binds_content (m : VectorProjectionManifest)
    {receipt₁ receipt₂ : VectorStageReceipt}
    (first : m.validateAgainst env input₁ entries₁ = .ok receipt₁)
    (second : m.validateAgainst env input₂ entries₂ = .ok receipt₂) :
    (∃ a b, Hashed env m input₁ entries₁ a ∧ Hashed env m input₂ entries₂ b ∧ a ≠ b ∧
      env.sha256 a = env.sha256 b) ∨
    (input₁.units = input₂.units ∧ entries₁.Perm entries₂) := by
  simp only [VectorProjectionManifest.validateAgainst, except_bind_iff] at first second
  obtain ⟨segments₁, checked₁, valid₁⟩ := first
  obtain ⟨segments₂, checked₂, valid₂⟩ := second
  by_cases collision : ∃ a b, Hashed env m input₁ entries₁ a ∧ Hashed env m input₂ entries₂ b ∧
      a ≠ b ∧ env.sha256 a = env.sha256 b
  · exact .inl collision
  right
  have apart (a b : Bytes) (ha : Hashed env m input₁ entries₁ a)
      (hb : Hashed env m input₂ entries₂ b) (same : env.sha256 a = env.sha256 b) : a = b := by
    by_contra differ
    exact collision ⟨a, b, ha, hb, differ, same⟩
  have same := runs_same apart checked₁ checked₂ (validateSegments_sealed valid₁)
    (validateSegments_sealed valid₂)
  have runs : ranges input₁.units = ranges input₂.units := by
    rw [← forall₂_eq_eq_eq]
    exact same.imp fun _ _ => And.left
  have checks₁ := (checkInput_iff.mp checked₁).2
  have checks₂ := (checkInput_iff.mp checked₂).2
  have covers₁ := checks₁.covers
  have covers₂ := checks₂.covers
  rw [← ranges_flatten input₁.units] at covers₁
  rw [← ranges_flatten input₂.units] at covers₂
  refine ⟨?_, (perm_ext_iff_of_nodup checks₁.nodup checks₂.nodup).mpr ?_⟩
  · rw [← ranges_flatten input₁.units, runs, ranges_flatten]
  · intro entry
    refine ⟨fun h => entries_subset covers₁ same h,
      fun h => entries_subset covers₂ (same.flip.imp ?_) h⟩
    rintro run other ⟨units, both⟩
    exact ⟨units.symm, fun entry => (both entry).symm⟩

/-- The manifest of two units validates their entries in either order. -/
theorem manifest_binds_content_sample : ∃ m receipt₁ receipt₂,
    VectorProjectionManifest.validateAgainst samplePlatform m sampleInput sampleEntries =
      .ok receipt₁ ∧
    VectorProjectionManifest.validateAgainst samplePlatform m sampleInput sampleEntries.reverse =
      .ok receipt₂ ∧
    ((∃ a b, Hashed samplePlatform m sampleInput sampleEntries a ∧
      Hashed samplePlatform m sampleInput sampleEntries.reverse b ∧ a ≠ b ∧
      samplePlatform.sha256 a = samplePlatform.sha256 b) ∨
    (sampleInput.units = sampleInput.units ∧ sampleEntries.Perm sampleEntries.reverse)) := by
  have staged : (VectorProjectionManifest.stage samplePlatform sampleModel sampleInput sampleIndex
      sampleEntries .persistent sampleTime).toOption.any (fun m =>
        (m.validateAgainst samplePlatform sampleInput sampleEntries).isOk &&
          (m.validateAgainst samplePlatform sampleInput sampleEntries.reverse).isOk) = true := by
    decide +kernel
  obtain ⟨m, -, accepted⟩ := any_exists staged
  rw [Bool.and_eq_true] at accepted
  obtain ⟨receipt₁, first⟩ := isOk_exists accepted.1
  obtain ⟨receipt₂, second⟩ := isOk_exists accepted.2
  exact ⟨m, receipt₁, receipt₂, first, second, manifest_binds_content m first second⟩

end

end KnowledgePlatform.Search
