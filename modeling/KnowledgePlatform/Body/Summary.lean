import KnowledgePlatform.Body.Payload

/-! A generation is restored without its units just when it is restored with them. -/

namespace KnowledgePlatform.Body

open Framing Gather List
open Graph (ProjectionGenerationManifest)
open Search (Platform digestString textSha256)

section

variable {env : Platform} {manifest : BodyUnitManifest} {entry : BodyItemEntry}
  {item : BodyCoverageItem} {derived : BodyCoverageArtifact} {receipt : ArtifactReceipt}

/-- What an item's part of the coverage repeats. -/
theorem restoredItem_fields (h : restoredItem env manifest entry false = .ok item) :
    entry.version.sourceId = manifest.key.sourceId ∧ item.version = entry.version ∧
      item.part = entry.part ∧ item.unitCount.toNat = entry.unitCount := by
  simp only [restoredItem, except_iffs, Bool.false_eq_true, if_false] at h
  obtain ⟨source, -, small, rfl⟩ := h
  exact ⟨source, rfl, rfl, UInt32.toNat_ofNat_of_lt' small⟩

theorem validatePlainly_iff : validatePlainly env manifest = .ok (derived, receipt) ↔
    (manifest.entries.map BodyItemEntry.orderKey).IsChain (· < ·) ∧
      (∃ items, Forall₂ (fun entry item => restoredItem env manifest entry false = .ok item)
        manifest.entries items ∧ derived = ⟨manifest.key, items⟩) ∧
      ∃ segments, Forall₂ (fun entry segment => segmentOf env entry = .ok segment)
          manifest.entries segments ∧
        unitManifestReceiptFromSegments env manifest.key segments = .ok receipt := by
  simp only [validatePlainly, except_iffs, mapError_iff, validateRestoredManifest,
    validateRestoredManifestSkipping, unitManifestReceipt, ← map_prod_left_eq_zip,
    mapM_map, mapM_iff_forall₂, Prod.mk.injEq]
  constructor
  · rintro ⟨_, ⟨ordered, items, each, rfl⟩, _, ⟨segments, listed, made⟩, rfl, rfl⟩
    exact ⟨ordered, ⟨items, each, rfl⟩, segments, listed, made⟩
  · rintro ⟨ordered, ⟨items, each, rfl⟩, segments, listed, made⟩
    exact ⟨_, ⟨ordered, items, each, rfl⟩, receipt, ⟨segments, listed, made⟩, rfl, rfl⟩

/-- Nothing is skipped by an empty memo. -/
theorem validateUnits_fresh {segments : List (Digest × Nat)}
    (listed : segmentDigests env manifest = .ok segments) :
    (validateUnits env [] manifest segments).1 = validatePlainly env manifest := by
  rw [segmentDigests, mapError_iff] at listed
  have same : checkUnitManifest env [] manifest segments = validatePlainly env manifest := by
    refine checkUnitManifest_skipped listed ?_ fun _ _ _ _ inside => absurd inside not_mem_nil
    rw [all_eq_true]
    rintro ⟨entry, known⟩ inside
    obtain ⟨-, segment, -, rfl⟩ := (mem_known listed).mp inside
    rw [decide_eq_false not_mem_nil]
    rfl
  rw [validateUnits, same]
  cases validatePlainly env manifest <;> rfl

end

variable {env : Platform} {codec : PayloadCodec} {tables : PayloadTables}
  {header : UnitManifestHeader} {entry : BodyItemEntry} {digest : String} {list : List String}

theorem readSegment_fields {row : SegmentRow} (h : readSegment env codec digest row = .ok entry) :
    entry.stored = none ∧ (∃ segment, segmentDigest env entry = .ok segment ∧
      digestString segment = digest) ∧
      ∀ unit ∈ entry.units, textSha256 env unit.text = unit.textSha256 := by
  simp only [readSegment, verifiedSegment, decodeSegment, except_iffs, mapError_iff] at h
  obtain ⟨-, -, _, ⟨_, -, -, _, -, rfl⟩, segment, hashed, same, texts, rfl⟩ := h
  refine ⟨rfl, ⟨segment, hashed, same.1⟩, fun unit inside => ?_⟩
  have checked := all_eq_true.mp texts unit inside
  exact of_decide_eq_true (Bool.and_eq_true_iff.mp checked).1

/-- A summary holds the item's part of the coverage, its digest, profile and seal entries. -/
theorem summarizeEntry_iff (entries : List BodyItemEntry) {summary : SegmentSummary} :
    summarizeEntry env codec header entry = .ok summary ↔
      segmentDigest env entry = .ok summary.digest ∧
      restoredItem env ⟨header.key, header.sourceSnapshot, entries⟩
        (restampSourceSnapshot entry header.sourceSnapshot) false = .ok summary.item ∧
      summary.profile = profileOf entry ∧
        summary.units = entry.units.map (sealEntry env codec) := by
  have single : ∀ item, (∃ coverage, validateRestoredManifest env ⟨header.key,
      header.sourceSnapshot, [restampSourceSnapshot entry header.sourceSnapshot]⟩ = .ok coverage ∧
        coverage.items.head? = some item) ↔
      restoredItem env ⟨header.key, header.sourceSnapshot, entries⟩
        (restampSourceSnapshot entry header.sourceSnapshot) false = .ok item := by
    intro item
    simp only [validateRestoredManifest, validateRestoredManifestSkipping, except_iffs,
      map_cons, map_nil, zip_cons_cons, zip_nil_right, mapM_cons,
      mapM_nil]
    simp
    rfl
  simp only [summarizeEntry, except_iffs, mapError_iff]
  constructor
  · rintro ⟨segment, hashed, coverage, valid, item, here, rfl⟩
    exact ⟨hashed, (single item).mp ⟨coverage, valid, here⟩, rfl, rfl⟩
  · rintro ⟨hashed, made, profile, units⟩
    obtain ⟨coverage, valid, here⟩ := (single _).mpr made
    refine ⟨_, hashed, coverage, valid, _, here, ?_⟩
    rw [← profile, ← units]

theorem mem_missing {α : Type} : digest ∈ missingFrom ([] : List (String × α)) list ↔
    digest ∈ list := by
  rw [missingFrom]
  show digest ∈ Keyed.ofList id _ ↔ _
  rw [Keyed.mem_ofList_id, mem_filter]
  exact and_iff_left rfl

/-- What is looked up for the listed digests was read for each of them. -/
theorem mapM_looked {α β : Type} {visit : String → SegmentRow → Except BundleError α}
    {pairs : List (String × α)} {f : α → Except BundleError β} {made : List β}
    (sound : ∀ pair ∈ pairs, Holds tables.segments visit pair.1 pair.2)
    (there : ∀ digest ∈ list, ∃ v, (digest, v) ∈ pairs) :
    (list.mapM fun digest => do
        let v ← okOr (pairs.lookup digest) BundleError.shape
        f v) = .ok made ↔
      ∃ values, Forall₂ (Holds tables.segments visit) list values ∧ values.mapM f = .ok made := by
  have looked : ∀ digest ∈ list, ∀ v, pairs.lookup digest = some v ↔
      Holds tables.segments visit digest v := by
    intro digest inside v
    obtain ⟨v, listed⟩ := there digest inside
    have present : (pairs.lookup digest).isSome = true := by
      rw [lookup_isSome_iff]
      exact ⟨(digest, v), listed, beq_self_eq_true digest⟩
    obtain ⟨w, found⟩ := Option.isSome_iff_exists.mp present
    obtain ⟨before, after, split, -⟩ := lookup_eq_some_iff.mp found
    have holds : Holds tables.segments visit digest w := sound (digest, w) (by simp [split])
    rw [found, Option.some.injEq]
    exact ⟨fun same => same ▸ holds, fun other => holds.unique other⟩
  simp only [mapM_iff_forall₂, ← forall₂_comp]
  refine forall₂_congr_mem fun digest inside b => ?_
  simp only [except_iffs, looked digest inside]

/-! ## What both need -/

/-- The manifest of the listed segments, bound to the snapshot. -/
def boundManifest (manifest : ProjectionGenerationManifest) (parts : RestoredParts)
    (entries : List BodyItemEntry) : BodyUnitManifest :=
  ⟨manifest.key, parts.header.sourceSnapshot,
    entries.map fun entry => restampSourceSnapshot entry parts.header.sourceSnapshot⟩

/-- The tables hold a generation: its parts, its listed segments and the artifacts they make. -/
structure Restores (env : Platform) (codec : PayloadCodec) (tables : PayloadTables)
    (manifest : ProjectionGenerationManifest) (parts : RestoredParts) (list : List String)
    (entries : List BodyItemEntry) (derived : BodyCoverageArtifact) (receipt : ArtifactReceipt) :
    Prop where
  read : readParts codec tables manifest.key = .ok parts
  bound : parts.Bound manifest
  listed : segmentList tables manifest.key parts.header = .ok list
  each : Forall₂ (Holds tables.segments (readSegment env codec)) list entries
  valid : validatePlainly env (boundManifest manifest parts entries) = .ok (derived, receipt)
  checked : checkRestored env codec manifest parts.projection parts.coverage derived receipt
    parts.columns = .ok ()

variable {manifest : ProjectionGenerationManifest} {arrange : Arrangement (String × SegmentRow)}

theorem assemble_iff {parts : RestoredParts} {unitManifest : BodyUnitManifest} :
    assemble env codec tables arrange [] manifest.key parts.header = .ok unitManifest ↔
      parts.header.key = manifest.key ∧ ∃ list entries,
        segmentList tables manifest.key parts.header = .ok list ∧
        Forall₂ (Holds tables.segments (readSegment env codec)) list entries ∧
        unitManifest = boundManifest manifest parts entries := by
  simp only [assemble, except_iffs, append_nil]
  constructor
  · rintro ⟨key, list, listed, fetched, gathered, made, looked, rfl⟩
    obtain ⟨sound, there⟩ := gather_sound gathered
    obtain ⟨entries, each, restamped⟩ := (mapM_looked sound
      fun digest inside => there digest (mem_missing.mpr inside)).mp looked
    rw [mapM_pure] at restamped
    cases restamped
    exact ⟨key, list, entries, listed, each, rfl⟩
  · rintro ⟨key, list, entries, listed, each, rfl⟩
    obtain ⟨fetched, gathered⟩ : ∃ fetched, gather tables.segments (readSegment env codec)
        BundleError.shape arrange (missingFrom ([] : List (String × BodyItemEntry)) list) =
          .ok fetched := by
      apply gather_total
      intro digest inside
      obtain ⟨entry, -, holds⟩ := exists_right each (mem_missing.mp inside)
      exact ⟨entry, holds⟩
    obtain ⟨sound, there⟩ := gather_sound gathered
    refine ⟨key, list, listed, fetched, gathered, _, (mapM_looked sound
      fun digest inside => there digest (mem_missing.mpr inside)).mpr ⟨entries, each, ?_⟩, rfl⟩
    rw [mapM_pure]
    rfl

theorem restore_iff {restored : RestoredPayload} :
    restore env codec tables arrange ⟨[], []⟩ manifest = .ok restored ↔
      ∃ parts list entries derived receipt,
        Restores env codec tables manifest parts list entries derived receipt ∧
        restored = ⟨parts.projection, boundManifest manifest parts entries, parts.coverage⟩ := by
  simp only [restore, except_iffs]
  constructor
  · rintro ⟨parts, read, unitManifest, assembled, fits, segments, listedToo, ⟨derived, receipt⟩,
      valid, checked, rfl⟩
    obtain ⟨key, list, entries, listed, each, rfl⟩ := assemble_iff.mp assembled
    rw [validateUnits_fresh listedToo] at valid
    exact ⟨parts, list, entries, derived, receipt,
      ⟨read, ⟨key, fits.2⟩, listed, each, valid, checked⟩, rfl⟩
  · rintro ⟨parts, list, entries, derived, receipt, restores, rfl⟩
    obtain ⟨key, fits⟩ := restores.bound
    obtain ⟨-, -, segments, listed, -⟩ := validatePlainly_iff.mp restores.valid
    have listed : segmentDigests env (boundManifest manifest parts entries) = .ok segments := by
      rw [segmentDigests, mapError_iff, mapM_iff_forall₂]
      exact listed
    refine ⟨parts, restores.read, _, assemble_iff.mpr ⟨key, list, entries, restores.listed,
      restores.each, rfl⟩, ⟨rfl, fits⟩, segments, listed, (derived, receipt), ?_,
      restores.checked, rfl⟩
    rw [validateUnits_fresh listed]
    exact restores.valid

/-! ## From summaries -/

/-- The summaries of the entries, one by one. -/
abbrev Summarizes (env : Platform) (codec : PayloadCodec) (header : UnitManifestHeader) :=
  Forall₂ fun entry summary => summarizeEntry env codec header entry = .ok summary

theorem holds_summaries_iff {summaries : List SegmentSummary} :
    Forall₂ (Holds tables.segments (summarizeSegment env codec header)) list summaries ↔
      ∃ entries, Forall₂ (Holds tables.segments (readSegment env codec)) list entries ∧
        Summarizes env codec header entries summaries := by
  rw [← forall₂_comp]
  refine forall₂_congr_mem fun _ _ _ => ?_
  simp only [Holds, summarizeSegment, except_bind_iff, ← exists_and_left, ← exists_and_right,
    and_assoc]
  exact exists_comm

section

variable {α : Type} {visit : String → SegmentRow → Except BundleError α} {order : SummaryOrder}

/-- The batches of the missing digests, as they finish. -/
theorem fetched_sound {fetched : List (List (String × α))}
    (h : (order.finished.apply (batches summaryFetchBatch
      (missingFrom ([] : List (String × SegmentSummary)) list))).mapM
        (gather tables.segments visit .shape order.rows) = .ok fetched) :
    (∀ pair ∈ fetched.flatten, Holds tables.segments visit pair.1 pair.2) ∧
      ∀ digest ∈ list, ∃ v, (digest, v) ∈ fetched.flatten := by
  constructor
  · intro pair inside
    obtain ⟨pairs, among, inside⟩ := mem_flatten.mp inside
    obtain ⟨batch, -, gathered⟩ := (mem_mapM h).mp among
    exact (gather_sound gathered).1 pair inside
  · intro digest inside
    obtain ⟨batch, asked, within⟩ := mem_batches.mp
      (mem_missing.mpr inside : digest ∈ missingFrom ([] : List (String × SegmentSummary)) list)
    obtain ⟨pairs, among, gathered⟩ := mapM_each h ((order.finished.perm _).mem_iff.mpr asked)
    obtain ⟨v, found⟩ := (gather_sound gathered).2 digest within
    exact ⟨v, mem_flatten.mpr ⟨pairs, among, found⟩⟩

theorem fetched_total (all : ∀ digest ∈ list, ∃ v, Holds tables.segments visit digest v) :
    ∃ fetched, (order.finished.apply (batches summaryFetchBatch
      (missingFrom ([] : List (String × SegmentSummary)) list))).mapM
        (gather tables.segments visit .shape order.rows) = .ok fetched := by
  have each : ∀ batch ∈ order.finished.apply (batches summaryFetchBatch
      (missingFrom ([] : List (String × SegmentSummary)) list)),
      ∃ pairs, gather tables.segments visit BundleError.shape order.rows batch = .ok pairs ∧
        True := by
    intro batch inside
    have asked := (order.finished.perm _).mem_iff.mp inside
    obtain ⟨pairs, gathered⟩ : ∃ pairs,
        gather tables.segments visit BundleError.shape order.rows batch = .ok pairs :=
      gather_total fun digest within =>
        all digest (mem_missing.mp (mem_batches.mpr ⟨batch, asked, within⟩))
    exact ⟨pairs, gathered, trivial⟩
  obtain ⟨fetched, gathered, -⟩ := mapM_total each
  exact ⟨fetched, gathered⟩

end

variable {parts : RestoredParts} {entries : List BodyItemEntry} {summaries : List SegmentSummary}
  {derived : BodyCoverageArtifact} {receipt : ArtifactReceipt}

/-- An item and its summary, bound to the snapshot. -/
theorem summarized_fields (entries : List BodyItemEntry) {summary : SegmentSummary}
    (bound : parts.Bound manifest)
    (h : summarizeEntry env codec parts.header entry = .ok summary) :
    restoredItem env (boundManifest manifest parts entries)
        (restampSourceSnapshot entry parts.header.sourceSnapshot) false = .ok summary.item ∧
      segmentOf env (restampSourceSnapshot entry parts.header.sourceSnapshot) =
        .ok (summary.digest, summary.item.unitCount.toNat) := by
  obtain ⟨hashed, made, -, -⟩ := (summarizeEntry_iff entries).mp h
  have item : restoredItem env (boundManifest manifest parts entries)
      (restampSourceSnapshot entry parts.header.sourceSnapshot) false = .ok summary.item := by
    rw [← made, bound.1]
    rfl
  refine ⟨item, ?_⟩
  rw [segmentOf, segmentDigest_restamp, hashed, (restoredItem_fields item).2.2.2]
  rfl

/-- The manifest passes just when the summaries are in order and make its receipt. -/
theorem summarized_valid (bound : parts.Bound manifest)
    (each : Summarizes env codec parts.header entries summaries) :
    validatePlainly env (boundManifest manifest parts entries) = .ok (derived, receipt) ↔
      ((summaries.map SegmentSummary.item).map BodyCoverageItem.coverageOrder).IsChain (· < ·) ∧
      derived = ⟨manifest.key, summaries.map SegmentSummary.item⟩ ∧
      unitManifestReceiptFromSegments env manifest.key (summaries.map fun summary =>
        (summary.digest, summary.item.unitCount.toNat)) = .ok receipt := by
  have order : (boundManifest manifest parts entries).entries.map BodyItemEntry.orderKey =
      (summaries.map SegmentSummary.item).map BodyCoverageItem.coverageOrder := by
    rw [boundManifest, map_map, map_map]
    apply map_eq_of_forall₂ each
    intro entry _ summary made
    obtain ⟨-, version, part, -⟩ := restoredItem_fields (summarized_fields [] bound made).1
    simp only [Function.comp_apply, BodyItemEntry.orderKey, BodyCoverageItem.coverageOrder, version,
      part]
  have items : Forall₂ (fun entry item => restoredItem env (boundManifest manifest parts entries)
      entry false = .ok item) (boundManifest manifest parts entries).entries
        (summaries.map SegmentSummary.item) := by
    rw [boundManifest, forall₂_map_left_iff, forall₂_map_right_iff]
    exact each.imp fun _ _ made => (summarized_fields entries bound made).1
  have segments : Forall₂ (fun entry segment => segmentOf env entry = .ok segment)
      (boundManifest manifest parts entries).entries
        (summaries.map fun summary => (summary.digest, summary.item.unitCount.toNat)) := by
    rw [boundManifest, forall₂_map_left_iff, forall₂_map_right_iff]
    exact each.imp fun _ _ made => (summarized_fields entries bound made).2
  rw [validatePlainly_iff, order]
  rw [← mapM_iff_forall₂] at items segments
  simp only [← mapM_iff_forall₂, items, segments, Except.ok.injEq, exists_eq_left']
  rfl

/-- The items of a restored manifest can be summarized. -/
theorem summaries_of_valid (bound : parts.Bound manifest)
    (valid : validatePlainly env (boundManifest manifest parts entries) = .ok (derived, receipt)) :
    ∃ summaries, Summarizes env codec parts.header entries summaries := by
  obtain ⟨-, ⟨items, each, -⟩, segments, hashed, -⟩ := validatePlainly_iff.mp valid
  have one : ∀ entry ∈ entries, ∃ summary,
      summarizeEntry env codec parts.header entry = .ok summary ∧ True := by
    intro entry inside
    have listed : restampSourceSnapshot entry parts.header.sourceSnapshot ∈
        (boundManifest manifest parts entries).entries := mem_map_of_mem inside
    obtain ⟨item, -, made⟩ := exists_right each listed
    obtain ⟨segment, -, digest⟩ := exists_right hashed listed
    have digest := segmentOf_digest digest
    rw [segmentDigest_restamp] at digest
    refine ⟨⟨item, segment.1, profileOf entry, entry.units.map (sealEntry env codec)⟩,
      (summarizeEntry_iff entries).mpr ⟨digest, ?_, rfl, rfl⟩, trivial⟩
    rw [← made, bound.1]
    rfl
  obtain ⟨summaries, made, -⟩ := mapM_total one
  exact ⟨summaries, mapM_iff_forall₂.mp made⟩

theorem summarized_profiles (each : Summarizes env codec parts.header entries summaries) :
    (boundManifest manifest parts entries).entries.filterMap profileOf =
      summaries.filterMap SegmentSummary.profile := by
  have same : (boundManifest manifest parts entries).entries.map profileOf =
      summaries.map SegmentSummary.profile := by
    rw [boundManifest, map_map]
    apply map_eq_of_forall₂ each
    intro entry _ summary made
    obtain ⟨-, -, profile, -⟩ := (summarizeEntry_iff []).mp made
    exact profile.symm
  have flat := congrArg (filterMap id) same
  rwa [filterMap_map, filterMap_map] at flat

/-- The digest of profiles whose texts were hashed with their items, and that are not too many. -/
theorem profileSetDigestFrom_total {pairs : List (String × String)}
    (short : ∀ pair ∈ pairs, (∃ b, textBytes pair.1 = .ok b) ∧ ∃ b, textBytes pair.2 = .ok b)
    (few : pairs.length < 2 ^ 32) : ∃ digest, profileSetDigestFrom env pairs = .ok digest := by
  have fewer : (OrderedSet.ofList (pairs.map toLex)).items.length ≤ pairs.length := by
    have sub : (OrderedSet.ofList (pairs.map toLex)).items ⊆ pairs.map toLex :=
      fun _ inside => Keyed.mem_ofList_id.mp inside
    have distinct := (OrderedSet.ofList (pairs.map toLex)).ordered.nodup
    have := (distinct.subperm sub).length_le
    rwa [length_map] at this
  obtain ⟨bytes, written⟩ : ∃ bytes, parts (count collectionCount
      (OrderedSet.ofList (pairs.map toLex)).items.length ::
        (OrderedSet.ofList (pairs.map toLex)).items.map fun pair =>
          parts [textBytes (ofLex pair).1, textBytes (ofLex pair).2]) = .ok bytes := by
    rw [parts_ok_iff, forall_mem_cons, count_ok_iff]
    refine ⟨fewer.trans_lt few, ?_⟩
    intro p inside
    obtain ⟨pair, member, rfl⟩ := mem_map.mp inside
    obtain ⟨given, among, rfl⟩ := mem_map.mp (Keyed.mem_ofList_id.mp member)
    rw [parts_ok_iff, forall_mem_cons, forall_mem_singleton]
    exact short given among
  exact ⟨_, except_bind_iff.mpr ⟨bytes, written, rfl⟩⟩

/-- Every summary of a segment has its profile's texts hashed, so the set of them has a digest. -/
theorem summarized_profileSet (each : Summarizes env codec parts.header entries summaries)
    (full : ∀ entry ∈ entries, entry.stored = none)
    (received : unitManifestReceiptFromSegments env manifest.key (summaries.map fun summary =>
      (summary.digest, summary.item.unitCount.toNat)) = .ok receipt) :
    ∃ digest, profileSetDigestFrom env (summaries.filterMap SegmentSummary.profile) =
      .ok digest := by
  apply profileSetDigestFrom_total
  · intro pair inside
    obtain ⟨summary, among, here⟩ := mem_filterMap.mp inside
    obtain ⟨entry, listed, made⟩ := exists_right each.flip among
    obtain ⟨hashed, -, profile, -⟩ := (summarizeEntry_iff []).mp made
    obtain ⟨bytes, written, -⟩ := segmentDigest_full (full entry listed) hashed
    have written := parts_ok_iff.mp ⟨bytes, written⟩
    rw [profile, profileOf, Option.map_eq_some_iff] at here
    obtain ⟨value, some, rfl⟩ := here
    have option := written (optionBytes textBytes entry.profile) (by simp)
    rw [some, optionBytes, parts_ok_iff] at option
    exact ⟨option _ (by simp), written _ (by simp)⟩
  · simp only [unitManifestReceiptFromSegments, segmentListBytes, except_bind_iff] at received
    obtain ⟨_, ⟨number, counted, -⟩, -⟩ := received
    have few := count_ok_iff.mp ⟨number, counted⟩
    rw [length_map] at few
    exact (length_filterMap_le _ _).trans_lt few

theorem restoreSummary_iff {order : SummaryOrder} {summary : RestoredSummary} :
    restoreSummaryUncached env codec tables order [] manifest = .ok summary ↔
      ∃ parts list entries derived receipt summaries profiles,
        Restores env codec tables manifest parts list entries derived receipt ∧
        Summarizes env codec parts.header entries summaries ∧
        profileSetDigestFrom env (summaries.filterMap SegmentSummary.profile) = .ok profiles ∧
        summary = ⟨parts.projection, ⟨manifest.key, parts.header.sourceSnapshot, receipt,
          summaries.length, profiles, summaries.map SegmentSummary.units, list⟩,
            parts.coverage⟩ := by
  simp only [restoreSummaryUncached, except_iffs, mapError_iff, append_nil, length_map]
  constructor
  · rintro ⟨parts, read, bound, list, listed, fetched, gathered, found, looked, ordered, receipt,
      received, profiles, hashed, checked, rfl⟩
    obtain ⟨sound, there⟩ := fetched_sound gathered
    obtain ⟨summaries, held, kept⟩ := (mapM_looked sound there).mp looked
    obtain ⟨entries, each, summarized⟩ := holds_summaries_iff.mp held
    have same : found = summaries := by
      rw [mapM_iff_forall₂] at kept
      simp only [except_iffs] at kept
      rw [← forall₂_eq_eq_eq]
      exact kept.flip.imp fun _ _ h => h.2.symm
    subst same
    exact ⟨parts, list, entries, _, receipt, found, profiles,
      ⟨read, bound, listed, each, (summarized_valid bound summarized).mpr ⟨ordered, rfl, received⟩,
        checked⟩, summarized, hashed, rfl⟩
  · rintro ⟨parts, list, entries, derived, receipt, summaries, profiles, restores, summarized,
      hashed, rfl⟩
    obtain ⟨ordered, rfl, received⟩ :=
      (summarized_valid restores.bound summarized).mp restores.valid
    have held := holds_summaries_iff.mpr ⟨entries, restores.each, summarized⟩
    have present : ∀ digest ∈ list, ∃ summary,
        Holds tables.segments (summarizeSegment env codec parts.header) digest summary := by
      intro digest inside
      obtain ⟨summary, -, holds⟩ := exists_right held inside
      exact ⟨summary, holds⟩
    obtain ⟨fetched, gathered⟩ : ∃ fetched, (order.finished.apply (batches summaryFetchBatch
        (missingFrom ([] : List (String × SegmentSummary)) list))).mapM (gather tables.segments
          (summarizeSegment env codec parts.header) .shape order.rows) = .ok fetched :=
      fetched_total present
    obtain ⟨sound, there⟩ := fetched_sound gathered
    refine ⟨parts, restores.read, restores.bound, list, restores.listed, fetched, gathered,
      summaries, (mapM_looked sound there).mpr ⟨summaries, held, ?_⟩, ordered, receipt, received,
      profiles, hashed, restores.checked, rfl⟩
    rw [mapM_iff_forall₂]
    simp only [except_iffs]
    apply forall₂_same.mpr
    intro summary inside
    obtain ⟨entry, -, made⟩ := exists_right summarized.flip inside
    obtain ⟨source, version, -⟩ := restoredItem_fields (summarized_fields [] restores.bound made).1
    exact ⟨version ▸ source, rfl⟩

/-! ## The summary of what was restored -/

/-- What is computed from a restored unit manifest. -/
def summaryOf (env : Platform) (codec : PayloadCodec) (restored : RestoredPayload) :
    Option RestoredSummary := do
  let manifest := restored.unitManifest
  let coverage ← (validateRestoredManifest env manifest).toOption
  let receipt ← (unitManifestReceipt env manifest).toOption
  let profileSetDigest ← (profileSetDigest env manifest).toOption
  let units ← (manifest.entries.mapM (entrySeal env codec)).toOption
  let segments ← (manifest.entries.mapM (storedSegmentDigest env)).toOption
  return {
    projection := restored.projection
    units := {
      key := manifest.key
      sourceSnapshot := manifest.sourceSnapshot
      receipt
      items := manifest.entries.length
      profileSetDigest
      units
      segments }
    coverage }

section

variable (h : Restores env codec tables manifest parts list entries derived receipt)
include h

theorem Restores.full :
    ∀ entry ∈ entries, entry.stored = none := by
  intro entry inside
  obtain ⟨digest, -, row, -, read⟩ := exists_right h.each.flip inside
  exact (readSegment_fields read).1

theorem Restores.covered :
    validateRestoredManifest env (boundManifest manifest parts entries) = .ok parts.coverage := by
  have valid := h.valid
  have checked := h.checked
  simp only [validatePlainly, except_iffs, mapError_iff, Prod.mk.injEq] at valid
  simp only [checkRestored, except_iffs] at checked
  obtain ⟨_, covered, _, -, rfl, -⟩ := valid
  obtain ⟨-, -, -, same, -⟩ := checked
  exact same ▸ covered

theorem Restores.received :
    unitManifestReceipt env (boundManifest manifest parts entries) = .ok receipt := by
  have valid := h.valid
  simp only [validatePlainly, except_iffs, mapError_iff, Prod.mk.injEq] at valid
  obtain ⟨_, -, _, received, -, rfl⟩ := valid
  exact received

theorem Restores.segments :
    (boundManifest manifest parts entries).entries.mapM (storedSegmentDigest env) = .ok list := by
  rw [mapM_iff_forall₂, boundManifest, forall₂_map_left_iff]
  apply h.each.flip.imp
  rintro entry digest ⟨row, -, read⟩
  obtain ⟨-, ⟨segment, hashed, same⟩, -⟩ := readSegment_fields read
  rw [storedSegmentDigest, segmentDigest_restamp, segmentDigest_restamp, hashed, ← same]
  rfl

theorem Restores.seals (each : Summarizes env codec parts.header entries summaries) :
    (boundManifest manifest parts entries).entries.mapM (entrySeal env codec) =
      .ok (summaries.map SegmentSummary.units) := by
  have one : ∀ entry ∈ entries, entrySeal env codec
      (restampSourceSnapshot entry parts.header.sourceSnapshot) =
        .ok (entry.units.map (sealEntry env codec)) := by
    intro entry inside
    obtain ⟨digest, -, row, -, read⟩ := exists_right h.each.flip inside
    obtain ⟨full, -, texts⟩ := readSegment_fields read
    have stored : (restampSourceSnapshot entry parts.header.sourceSnapshot).stored = none := full
    rw [entrySeal, stored, mapM_iff_forall₂]
    show Forall₂ _ (entry.units.map _) _
    rw [forall₂_map_left_iff, forall₂_map_right_iff, forall₂_same]
    intro unit within
    simp only [except_iffs]
    exact ⟨texts unit within, rfl⟩
  have units : summaries.map SegmentSummary.units =
      entries.map fun entry => entry.units.map (sealEntry env codec) := by
    refine (map_eq_of_forall₂ each fun entry _ summary made => ?_).symm
    obtain ⟨-, -, -, units⟩ := (summarizeEntry_iff []).mp made
    exact units.symm
  rw [units, mapM_iff_forall₂, boundManifest, forall₂_map_left_iff, forall₂_map_right_iff,
    forall₂_same]
  exact one

end

/-- From empty caches, and in whatever order rows and batches come, a generation is restored
without its units just when it is restored with them, and to the summary of those. -/
theorem restore_without_units_agrees (env : Platform) (codec : PayloadCodec)
    (tables : PayloadTables) (arrange : Arrangement (String × SegmentRow)) (order : SummaryOrder)
    (manifest : ProjectionGenerationManifest) :
    ((restoreWithoutUnits env codec tables order ⟨[], []⟩ manifest).isOk =
        (restore env codec tables arrange ⟨[], []⟩ manifest).isOk) ∧
      (restoreWithoutUnits env codec tables order ⟨[], []⟩ manifest).toOption =
        (restore env codec tables arrange ⟨[], []⟩ manifest).toOption.bind
          (summaryOf env codec) := by
  show (restoreSummaryUncached env codec tables order [] manifest).isOk = _ ∧
    (restoreSummaryUncached env codec tables order [] manifest).toOption = _
  cases full : restore env codec tables arrange ⟨[], []⟩ manifest with
  | error e =>
    cases summary : restoreSummaryUncached env codec tables order [] manifest with
    | error => exact ⟨rfl, rfl⟩
    | ok summary =>
      obtain ⟨parts, list, entries, derived, receipt, -, -, restores, -⟩ :=
        restoreSummary_iff.mp summary
      have restored : restore env codec tables arrange ⟨[], []⟩ manifest = .ok ⟨parts.projection,
          boundManifest manifest parts entries, parts.coverage⟩ :=
        restore_iff.mpr ⟨parts, list, entries, derived, receipt, restores, rfl⟩
      exact absurd (full.symm.trans restored) (by simp)
  | ok =>
    obtain ⟨parts, list, entries, derived, receipt, restores, rfl⟩ := restore_iff.mp full
    obtain ⟨summaries, each⟩ : ∃ summaries, Summarizes env codec parts.header entries summaries :=
      summaries_of_valid restores.bound restores.valid
    obtain ⟨-, -, received⟩ := (summarized_valid restores.bound each).mp restores.valid
    obtain ⟨profiles, hashed⟩ := summarized_profileSet each restores.full received
    have summary : restoreSummaryUncached env codec tables order [] manifest = .ok
        ⟨parts.projection, ⟨manifest.key, parts.header.sourceSnapshot, receipt, summaries.length,
          profiles, summaries.map SegmentSummary.units, list⟩, parts.coverage⟩ :=
      restoreSummary_iff.mpr ⟨parts, list, entries, derived, receipt, summaries, profiles, restores,
        each, hashed, rfl⟩
    rw [summary]
    refine ⟨rfl, ?_⟩
    have sameProfiles : profileSetDigest env (boundManifest manifest parts entries) =
        .ok profiles := by
      rw [profileSetDigest, summarized_profiles each]
      exact hashed
    have sizes : (boundManifest manifest parts entries).entries.length = summaries.length := by
      rw [boundManifest, length_map, each.length_eq]
    simp only [Except.toOption, Option.bind_some, summaryOf, restores.covered, restores.received,
      sameProfiles, restores.seals each, restores.segments, sizes]
    rfl

end KnowledgePlatform.Body
