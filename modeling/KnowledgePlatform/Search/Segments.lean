import KnowledgePlatform.Search.Manifest
import Mathlib.Data.List.SplitBy

/-! A whole input is checked as its segments are: `checkInput` cuts it into its maximal runs and
gives each run the entries of its units. -/

namespace KnowledgePlatform.Search

open List

/-! ## Runs -/

theorem rangesFrom_eq_loop (run : List VectorManifestUnit) (last : VectorManifestUnit)
    (rest : List VectorManifestUnit) (done : List (List VectorManifestUnit)) :
    done.reverse ++ rangesFrom run last rest =
      List.splitBy.loop sameSegment rest last run.reverse done := by
  induction rest generalizing run last done with
  | nil => simp [rangesFrom, splitBy.loop]
  | cons next rest ih =>
    rw [rangesFrom, splitBy.loop]
    cases sameSegment last next with
    | true =>
      have longer := ih (run ++ [last]) next done
      rw [reverse_append] at longer
      exact longer
    | false =>
      have next := ih [] next ((run ++ [last]) :: done)
      simpa using next

/-- The ranges are the maximal runs of one version and part. -/
theorem ranges_eq_splitBy (units : List VectorManifestUnit) :
    ranges units = units.splitBy sameSegment := by
  cases units with
  | nil => rfl
  | cons first rest => exact rangesFrom_eq_loop [] first rest []

theorem ranges_flatten (units : List VectorManifestUnit) : (ranges units).flatten = units := by
  rw [ranges_eq_splitBy, flatten_splitBy]

/-! ## Owners -/

/-- The units of the runs with the number of their run. -/
def owned (runs : List (List VectorManifestUnit)) : Owner :=
  runs.zipIdx.flatMap fun segment => segment.1.map fun item => (unitKey item, segment.2)

theorem owned_keys (runs : List (List VectorManifestUnit)) :
    (owned runs).map Prod.fst = runs.flatten.map unitKey := by
  have general (n : Nat) : ((runs.zipIdx n).flatMap fun segment =>
      segment.1.map fun item => (unitKey item, segment.2)).map Prod.fst =
        runs.flatten.map unitKey := by
    induction runs generalizing n with
    | nil => rfl
    | cons run runs ih =>
      rw [zipIdx_cons, flatMap_cons, map_append, ih, flatten_cons,
        map_append, map_map]
      rfl
  exact general 0

variable {runs : List (List VectorManifestUnit)} {key : Bytes} {i : Nat}

theorem ownUnits_all (runs : List (List VectorManifestUnit × Nat)) (owner : Owner) :
    runs.foldlM ownUnits owner =
      (runs.flatMap fun segment => segment.1.map fun item => (unitKey item, segment.2)).foldlM
        (Keyed.insertUnique Prod.fst (.invalid "duplicate Unit or locator")) owner := by
  induction runs generalizing owner with
  | nil => rfl
  | cons run runs ih =>
    rw [foldlM_cons, flatMap_cons, foldlM_append, foldlM_map]
    exact except_bind_congr fun next _ => ih next

variable {owner : Owner}

/-- Every unit has one owner, or is refused. -/
theorem ownUnits_iff :
    runs.zipIdx.foldlM ownUnits [] = .ok owner ↔
      (runs.flatten.map unitKey).Nodup ∧ owner = Keyed.ofList Prod.fst (owned runs) := by
  rw [ownUnits_all, Keyed.foldlM_unique_nil_iff, ← owned_keys]
  rfl

theorem find_owner {p : Bytes × Nat} (distinct : (runs.flatten.map unitKey).Nodup) :
    Keyed.find Prod.fst key (Keyed.ofList Prod.fst (owned runs)) = some p ↔
      p.1 = key ∧ ∃ run, runs[p.2]? = some run ∧ key ∈ run.map unitKey := by
  rw [← owned_keys] at distinct
  rw [(Keyed.Ordered.ofList _).find_iff, (Keyed.ofList_perm distinct).mem_iff, and_comm]
  refine and_congr_right ?_
  rintro rfl
  simp [owned, mk_mem_zipIdx_iff_getElem?, Prod.ext_iff]

/-! ## Groups -/

/-- The entries of a run's units. -/
def entriesOf (run : List VectorManifestUnit) (entries : List VectorEntryRef) :
    List VectorEntryRef :=
  entries.filter fun entry => run.any fun item => item.unit.unitId = entry.hit.unitId

def Covers (units : List VectorManifestUnit) (entries : List VectorEntryRef) : Prop :=
  ∀ entry ∈ entries, ∃ item ∈ units, item.unit.unitId = entry.hit.unitId

variable {entry : VectorEntryRef}

theorem unitKey_eq_entryKey {item : VectorManifestUnit} :
    unitKey item = entryKey entry ↔ item.unit.unitId = entry.hit.unitId := by
  constructor
  · intro same
    have digest : item.unit.unitId.digest = entry.hit.unitId.digest := Digest.ext_bytes same
    cases first : item.unit.unitId
    cases second : entry.hit.unitId
    rw [first, second] at digest
    exact congrArg UnitId.mk digest
  · intro same
    rw [unitKey, same]
    rfl

variable {start : List (List VectorEntryRef)}

theorem mapIdx_modify {more : Nat → List VectorEntryRef} :
    ((start.modify i (· ++ [entry])).mapIdx fun j group => group ++ more j) =
      start.mapIdx fun j group => group ++ if i = j then entry :: more j else more j := by
  apply ext_getElem?
  intro j
  rw [getElem?_mapIdx, getElem?_mapIdx, getElem?_modify]
  by_cases here : i = j
  · cases start[j]? <;> simp [here]
  · cases start[j]? <;> simp [here]

variable {entries : List VectorEntryRef} {grouped : List (List VectorEntryRef)}

/-- A fold of `groupEntry` puts every entry behind those of its owner. -/
theorem groupEntry_all :
    entries.foldlM (groupEntry owner) start = .ok grouped ↔
      (∀ entry ∈ entries, ∃ p, Keyed.find Prod.fst (entryKey entry) owner = some p) ∧
        grouped = start.mapIdx fun i group => group ++ entries.filter fun entry =>
          (Keyed.find Prod.fst (entryKey entry) owner).any fun p => p.2 = i := by
  induction entries generalizing start with
  | nil =>
    have same : (start.mapIdx fun _ group => group) = start := by
      apply ext_getElem?
      simp
    simp [pure, Except.pure, same, eq_comm]
  | cons entry entries ih =>
    rw [foldlM_cons, except_bind_iff, forall_mem_cons]
    simp only [groupEntry, except_iffs, ih]
    constructor
    · rintro ⟨_, ⟨p, found, rfl⟩, others, rfl⟩
      refine ⟨⟨⟨p, found⟩, others⟩, ?_⟩
      rw [mapIdx_modify]
      simp only [filter_cons, found, Option.any_some, decide_eq_true_eq]
    · rintro ⟨⟨⟨p, found⟩, others⟩, rfl⟩
      refine ⟨_, ⟨p, found, rfl⟩, others, ?_⟩
      rw [mapIdx_modify]
      simp only [filter_cons, found, Option.any_some, decide_eq_true_eq]

section

variable (distinct : (runs.flatten.map unitKey).Nodup)
include distinct

theorem find_owner_any {run : List VectorManifestUnit} (here : runs[i]? = some run)
    (entry : VectorEntryRef) :
    ((Keyed.find Prod.fst (entryKey entry) (Keyed.ofList Prod.fst (owned runs))).any
      fun p => p.2 = i) = run.any fun item => item.unit.unitId = entry.hit.unitId := by
  rw [Bool.eq_iff_iff, Option.any_eq_true, any_eq_true]
  simp [find_owner distinct, here, unitKey_eq_entryKey]

/-- The groups are the entries of the runs, each entry in the group of its unit. -/
theorem groupEntry_runs :
    entries.foldlM (groupEntry (Keyed.ofList Prod.fst (owned runs)))
        (List.replicate runs.length []) = .ok grouped ↔
      Covers runs.flatten entries ∧ grouped = runs.map (entriesOf · entries) := by
  rw [groupEntry_all]
  apply and_congr
  · refine forall₂_congr fun entry _ => ?_
    simp only [← unitKey_eq_entryKey]
    constructor
    · rintro ⟨p, found⟩
      obtain ⟨-, run, here, mem⟩ := (find_owner distinct).mp found
      obtain ⟨item, hitem, same⟩ := mem_map.mp mem
      exact ⟨item, mem_flatten.mpr ⟨run, mem_of_getElem? here, hitem⟩, same⟩
    · rintro ⟨item, hitem, same⟩
      obtain ⟨run, hrun, hitem⟩ := mem_flatten.mp hitem
      obtain ⟨i, here⟩ := getElem?_of_mem hrun
      exact ⟨(_, i), (find_owner distinct).mpr ⟨rfl, run, here, mem_map.mpr ⟨item, hitem, same⟩⟩⟩
  · apply Eq.congr_right
    apply ext_getElem?
    intro i
    rw [getElem?_mapIdx, getElem?_map, getElem?_replicate]
    cases here : runs[i]? with
    | none => simp [List.getElem?_eq_none_iff.mp here]
    | some =>
      have inside : i < runs.length := (List.getElem?_eq_some_iff.mp here).1
      simp only [inside, if_pos, Option.map_some, nil_append, entriesOf,
        find_owner_any distinct here]

end

/-! ## Agreement -/

/-- The checks of the maximal runs, each with the entries of its units. -/
structure SegmentChecks (env : Platform) (modelId : EmbeddingModelId) (input : VectorManifestInput)
    (storage : VectorStorageKind) (entries : List VectorEntryRef)
    (segments : List VectorSegmentCheck) : Prop where
  covers : Covers input.units entries
  checks : Forall₂ (fun run segment =>
    checkSegment env modelId input.header storage run (entriesOf run entries) = .ok segment)
    (input.units.splitBy sameSegment) segments

variable {modelId : EmbeddingModelId} {storage : VectorStorageKind}
  {segments : List VectorSegmentCheck}

theorem checkInput_iff {env : Platform} {input : VectorManifestInput} :
    checkInput env modelId input storage entries = .ok segments ↔
      (input.units.map unitKey).Nodup ∧
        SegmentChecks env modelId input storage entries segments := by
  have zipped : (ranges input.units).zip ((ranges input.units).map (entriesOf · entries)) =
      (ranges input.units).map fun run => (run, entriesOf run entries) := by
    have both := zip_map' (f := id) (g := (entriesOf · entries)) (l := ranges input.units)
    rw [map_id] at both
    exact both
  simp only [checkInput, except_bind_iff, ownUnits_iff, and_assoc, exists_and_left, exists_eq_left]
  rw [ranges_flatten]
  refine and_congr_right fun distinct => ?_
  rw [← ranges_flatten input.units] at distinct
  simp only [groupEntry_runs distinct, and_assoc, exists_and_left, exists_eq_left]
  rw [zipped, mapM_iff_forall₂, forall₂_map_left_iff, ranges_flatten, ranges_eq_splitBy]
  exact ⟨fun h => ⟨h.1, h.2⟩, fun h => ⟨h.1, h.2⟩⟩

variable {env : Platform} {input : VectorManifestInput} {entries : List VectorEntryRef}

open VectorProjectionManifest
open Graph (ProjectionGenerationKey)

/-- Whole and segmented staging and validation agree. -/
theorem whole_agrees_with_segments (spec : EmbeddingModelSpec) (index : VectorIndexDescriptor)
    (storage : VectorStorageKind) (createdAt : Instant) (modelId : EmbeddingModelId)
    (model : ∀ other, spec.validateAndId env = .ok other → other = modelId)
    (accepted : ∃ checked, checkInput env modelId input storage entries = .ok checked) :
    (∃ segments, SegmentChecks env modelId input storage entries segments) ∧
    (∀ segments, SegmentChecks env modelId input storage entries segments →
      stage env spec input index entries storage createdAt =
        stageSegments env spec input.header index segments storage createdAt) ∧
    ∀ (m : VectorProjectionManifest) (others : List VectorEntryRef) (receipt : VectorStageReceipt),
      m.validateAgainst env input others = .ok receipt ↔
        ∃ segments, SegmentChecks env m.modelId input m.storage others segments ∧
          m.validateSegments env input.header segments = .ok receipt := by
  obtain ⟨checked, accepted⟩ := accepted
  obtain ⟨distinct, checks⟩ := checkInput_iff.mp accepted
  refine ⟨⟨checked, checks⟩, ?_, ?_⟩
  · intro segments checks
    unfold stage
    cases identified : spec.validateAndId env with
    | error =>
      rw [stageSegments, identified]
      rfl
    | ok other =>
      obtain rfl := model other identified
      rw [except_ok_bind, checkInput_iff.mpr ⟨distinct, checks⟩]
      rfl
  · intro m others receipt
    simp only [VectorProjectionManifest.validateAgainst, except_bind_iff, checkInput_iff, distinct,
      true_and]

/-! ## A sample -/

/-- Keeps the last bytes. -/
def samplePlatform : Platform where
  sha256 bytes := ⟨(List.replicate 32 0 ++ bytes).drop bytes.length, by
    rw [List.length_drop, List.length_append, List.length_replicate, Nat.add_sub_cancel]⟩
  nfc := id

def sampleKey (n : UInt8) : Uuid := .filled n

def sampleGeneration : ProjectionGenerationKey := ⟨sampleKey 1, sampleKey 2⟩

def sampleVersion : ResourceVersionRef := ⟨sampleKey 1, sampleKey 3, "1"⟩

def samplePart (path : String) : ContentPartRef := ⟨"part", path, 0⟩

def sampleRaw : RawBinding := ⟨samplePlatform.sha256 [], 1, "text/plain"⟩

/-- One line of text. -/
def sampleUnit (path : String) (ordinal : UInt32) : VectorManifestUnit where
  unit := {
    unitId := ((UnitId.derive samplePlatform sampleVersion (samplePart path) "profile" (.text 0 1)
      ordinal).toOption.getD ⟨samplePlatform.sha256 []⟩)
    version := sampleVersion
    part := samplePart path
    parentUnitId := none
    ordinal
    kind := .plainText
    text := "line"
    locator := .text 0 1
    textSha256 := textSha256 samplePlatform "line"
    provenance := ⟨"snapshot", "representation", sampleRaw, .text, none, "profile", "build"⟩ }
  authority := {
    generation := sampleGeneration
    version := sampleVersion
    part := samplePart path
    authoritativeRepresentationRef := "representation"
    raw := sampleRaw
    profile := "profile"
    authorityScopeKey := "scope"
    retentionLeaseId := "lease"
    lifetimeScopeId := ""
    retentionMode := .persistentResource
    leaseExpiresAt := none }
  coverage := .complete

def sampleModel : EmbeddingModelSpec where
  modelName := "model"
  modelRevision := "1"
  weightsSha256 := samplePlatform.sha256 []
  tokenizerRevision := "1"
  tokenizerFilesSha256 := samplePlatform.sha256 []
  tokenizerConfigSha256 := samplePlatform.sha256 []
  unicodePreprocessing := "none"
  inputPreprocessing := "none"
  queryTemplate := "\x7btext\x7d"
  passageTemplate := "\x7btext\x7d"
  pooling := "mean"
  attentionMasking := "none"
  maxTokens := 1
  chunking := "none"
  truncation := "none"
  dimension := 1
  precision := .f32
  normalization := .none
  metric := .dot
  runtimeFamily := "family"
  runtimeBuild := "1"
  nativeBinarySha256 := none
  deterministicConfigSha256 := samplePlatform.sha256 []

def sampleModelId : EmbeddingModelId :=
  (sampleModel.validateAndId samplePlatform).toOption.getD ""

def sampleEntry (item : VectorManifestUnit) : VectorEntryRef where
  hit := hitFor item.unit item.authority
  modelId := sampleModelId
  vectorDigest := samplePlatform.sha256 []
  cacheKey := ⟨sampleModelId, item.unit.unitId, item.unit.textSha256, "profile", sampleKey 1,
    "scope", "lease", ""⟩

/-- Two parts of one unit each. -/
def sampleInput : VectorManifestInput where
  header := {
    bundleKey := sampleGeneration
    bodyReceiptDigest := digestString (samplePlatform.sha256 [])
    sourceSnapshot := "snapshot"
    authorityScopeKey := "scope"
    retentionLeaseId := "lease"
    leaseExpiresAt := none
    sourceDeclaresPersistentEmbeddingPermission := true
    nonindexedRetentionUnitIds := []
    lexicalAnalyzerRevision := "1"
    graphSchemaRevision := "1" }
  units := [sampleUnit "a" 0, sampleUnit "b" 1]

def sampleEntries : List VectorEntryRef := sampleInput.units.map sampleEntry

theorem sample_accepted :
    ∃ checked, checkInput samplePlatform sampleModelId sampleInput .persistent sampleEntries =
      .ok checked := by
  apply isOk_exists
  decide +kernel

def sampleTime : Instant := ⟨0, by decide⟩

def sampleIndex : VectorIndexDescriptor :=
  ⟨"engine", "1", digestString (samplePlatform.sha256 []), digestString (samplePlatform.sha256 []),
    digestString (samplePlatform.sha256 [])⟩

theorem whole_agrees_with_segments_sample :
    (∃ checked, checkInput samplePlatform sampleModelId sampleInput .persistent sampleEntries =
      .ok checked) ∧
    ∃ segments,
      SegmentChecks samplePlatform sampleModelId sampleInput .persistent sampleEntries segments ∧
      stage samplePlatform sampleModel sampleInput sampleIndex sampleEntries .persistent
          sampleTime =
        stageSegments samplePlatform sampleModel sampleInput.header sampleIndex segments
          .persistent sampleTime := by
  have model (other : EmbeddingModelId) (h : sampleModel.validateAndId samplePlatform = .ok other) :
      other = sampleModelId := by
    rw [sampleModelId, h]
    rfl
  obtain ⟨⟨segments, checks⟩, agree, -⟩ := whole_agrees_with_segments sampleModel sampleIndex
    .persistent sampleTime sampleModelId model sample_accepted
  exact ⟨sample_accepted, segments, checks, agree segments checks⟩

end KnowledgePlatform.Search
