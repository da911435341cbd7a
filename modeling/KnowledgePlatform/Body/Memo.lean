import KnowledgePlatform.Body.Items
import KnowledgePlatform.Lib.Run
import KnowledgePlatform.Search.Binding

/-! A process validates the items of restored manifests once for every segment digest. -/

namespace KnowledgePlatform.Body

open Framing List
open Search (Platform ResourceVersionRef ContentPartRef RawBinding FormatId KnowledgeUnit
  ArchiveProfilePlan u32Bytes unitKindTag textSha256)
open Graph (ProjectionGenerationKey)

/-! ## Memoised validation -/

inductive BundleError where
  | shape
  | binding
  | digest

def segmentCacheItems : Nat := 200000

section

variable (env : Platform)

def segmentDigests (manifest : BodyUnitManifest) : Except BundleError (List (Digest × Nat)) :=
  (manifest.entries.mapM (segmentOf env)).mapError fun _ => .digest

def textsMatch (entry : BodyItemEntry) : Bool :=
  entry.units.all fun unit => decide (textSha256 env unit.text = unit.textSha256)

def checkUnitManifest (memo : List Digest) (manifest : BodyUnitManifest)
    (segments : List (Digest × Nat)) :
    Except BundleError (BodyCoverageArtifact × ArtifactReceipt) := do
  let known := segments.map fun segment => decide (segment.1 ∈ memo)
  ensure ((manifest.entries.zip known).all (fun item => !item.2 || textsMatch env item.1) = true)
    .digest
  let coverage ← (validateRestoredManifestSkipping env manifest known).mapError fun _ => .digest
  let receipt ← (unitManifestReceiptFromSegments env manifest.key segments).mapError fun _ =>
    .digest
  return (coverage, receipt)

/-- The memo is emptied before it would grow too large. -/
def remember (memo : List Digest) (segments : List (Digest × Nat)) : List Digest :=
  segments.foldl (fun memo segment => memo.insert segment.1)
    (if memo.length + segments.length > segmentCacheItems then [] else memo)

def validateUnits (memo : List Digest) (manifest : BodyUnitManifest)
    (segments : List (Digest × Nat)) :
    Except BundleError (BodyCoverageArtifact × ArtifactReceipt) × List Digest :=
  match checkUnitManifest env memo manifest segments with
  | .ok result => (.ok result, remember memo segments)
  | .error e => (.error e, memo)

/-- The whole manifest, every item checked. -/
def validatePlainly (manifest : BodyUnitManifest) :
    Except BundleError (BodyCoverageArtifact × ArtifactReceipt) := do
  let coverage ← (validateRestoredManifest env manifest).mapError fun _ => .digest
  let receipt ← (unitManifestReceipt env manifest).mapError fun _ => .digest
  return (coverage, receipt)

end

/-- A manifest is validated with the segments computed from it. -/
def validateRestored (env : Platform) (memo : List Digest) (manifest : BodyUnitManifest) :
    Except BundleError (BodyCoverageArtifact × ArtifactReceipt) × List Digest :=
  match segmentDigests env manifest with
  | .ok segments => validateUnits env memo manifest segments
  | .error e => (.error e, memo)

structure MemoEvent where
  manifest : BodyUnitManifest
  reply : Except BundleError (BodyCoverageArtifact × ArtifactReceipt)

def memoStep (env : Platform) (memo : List Digest) (event : MemoEvent) (next : List Digest) :
    Prop :=
  validateRestored env memo event.manifest = (event.reply, next)

theorem memoStep_call {env : Platform} {memo : List Digest} {manifest : BodyUnitManifest} :
    memoStep env memo ⟨manifest, (validateRestored env memo manifest).1⟩
      (validateRestored env memo manifest).2 := rfl

/-! ## What a segment's bytes say -/

section

variable {env : Platform}

theorem splits_text {a b : String} : Splits (textBytes a) (textBytes b) (a = b) :=
  splits_utf8

variable {a : UInt8}

theorem splits_tag {b : UInt8} : Splits (.ok [a] : Except BodyBuildError Bytes) (.ok [b]) (a = b) :=
  (splits_fixed (x := [a]) (y := [b]) rfl).mono fun same => (cons.inj same).1

attribute [ext] ResourceVersionRef ContentPartRef RawBinding

theorem splits_version {a b : ResourceVersionRef} :
    Splits (versionBytes a) (versionBytes b) (a = b) := by
  apply (splits_uuid.cons (splits_uuid.cons (splits_text.cons splits_nil))).mono
  rintro ⟨source, resource, native, -⟩
  exact ResourceVersionRef.ext source resource native

theorem splits_part {a b : ContentPartRef} : Splits (partBytes a) (partBytes b) (a = b) := by
  apply (splits_text.cons (splits_text.cons ((splits_fixed
    ((Search.length_u32Bytes a.ordinal).trans (Search.length_u32Bytes b.ordinal).symm)).cons
      splits_nil))).mono
  rintro ⟨native, path, ordinal, -⟩
  exact ContentPartRef.ext native path (Search.u32Bytes_inj ordinal)

theorem splits_raw {a b : RawBinding} : Splits (rawBytes a) (rawBytes b) (a = b) := by
  apply ((splits_fixed (a.sha256.size.trans b.sha256.size.symm)).cons
    ((splits_fixed ((length_bigEndian _ _).trans (length_bigEndian _ _).symm)).cons
      (splits_text.cons splits_nil))).mono
  rintro ⟨hash, size, media, -⟩
  exact RawBinding.ext (Digest.ext_bytes hash) (Search.u64Frame_inj.mp (congrArg Except.ok size))
    media

theorem splits_optionBytes {α : Type} {f : α → Except BodyBuildError Bytes} {x y : Option α}
    (each : ∀ a b, Splits (f a) (f b) (a = b)) :
    Splits (optionBytes f x) (optionBytes f y) (x = y) :=
  splits_option rfl (fun _ _ => parts_head) fun a b => splits_after (each a b)

theorem splits_operation {x y : ItemOperationState} :
    Splits (operationBytes x) (operationBytes y) (x = y) := by
  cases x with
  | completed =>
    cases y with
    | completed => exact splits_tag.mono fun _ => rfl
    | failedPermanent => exact splits_heads (by decide) (fun _ => ok_head) fun _ => ok_head
    | retryable => exact fun _ _ _ _ _ hy => by cases hy
  | failedPermanent c =>
    cases y with
    | completed => exact splits_heads (by decide) (fun _ => ok_head) fun _ => ok_head
    | failedPermanent d =>
      apply (splits_fixed (x := [2, permanentTag c]) (y := [2, permanentTag d]) rfl).mono
      cases c <;> cases d <;> decide
    | retryable => exact fun _ _ _ _ _ hy => by cases hy
  | retryable => exact fun _ _ _ _ hx => by cases hx

theorem reasonTag_injective : Function.Injective reasonTag := by
  intro a b
  cases a <;> cases b <;> decide

theorem splits_reasons {xs ys : List CoverageReason} :
    Splits (coverageBytes (some (.partially xs))) (coverageBytes (some (.partially ys)))
      (xs = ys) := by
  have counted : ∀ zs : List CoverageReason, parts [count collectionCount zs.length,
      .ok (zs.map reasonTag)] = frame collectionCount (zs.map reasonTag) := by
    intro zs
    rw [frame, length_map]
  have rest : Splits (parts [count collectionCount xs.length, .ok (xs.map reasonTag)])
      (parts [count collectionCount ys.length, .ok (ys.map reasonTag)]) (xs = ys) := by
    rw [counted, counted]
    exact splits_frame.mono fun same => (map_injective_iff.mpr reasonTag_injective) same
  exact (splits_tag.cons rest).mono fun both => both.2

/-- The tag that an item's coverage begins with. -/
def coverageTag : Option BodyCoverage → UInt8
  | none => 0
  | some .supported => 1
  | some (.partially _) => 2
  | some (.unsupported _) => 3

theorem coverage_head {x : Option BodyCoverage} {z : Bytes} (h : coverageBytes x = .ok z) :
    z.head? = some (coverageTag x) := by
  match x with
  | none => exact ok_head h
  | some .supported => exact ok_head h
  | some (.partially _) => exact parts_head h
  | some (.unsupported _) => exact ok_head h

theorem splits_coverage {x y : Option BodyCoverage} :
    Splits (coverageBytes x) (coverageBytes y) (x = y) := by
  by_cases tags : coverageTag x = coverageTag y
  · match x, y with
    | none, none => exact splits_tag.mono fun _ => rfl
    | some .supported, some .supported => exact splits_tag.mono fun _ => rfl
    | some (.partially xs), some (.partially ys) =>
      exact splits_reasons.mono fun same => congrArg (some ∘ BodyCoverage.partially) same
    | some (.unsupported a), some (.unsupported b) =>
      apply (splits_fixed (x := [3, reasonTag a]) (y := [3, reasonTag b]) rfl).mono
      intro same
      rw [reasonTag_injective (cons.inj (cons.inj same).2).1]
  · exact splits_heads tags (fun _ => coverage_head) fun _ => coverage_head

/-- What a unit's bytes say of it. -/
structure SameUnit (x y : KnowledgeUnit) : Prop where
  unitId : x.unitId = y.unitId
  parent : x.parentUnitId = y.parentUnitId
  ordinal : x.ordinal = y.ordinal
  kind : x.kind = y.kind
  locator : x.locator = y.locator
  textSha256 : x.textSha256 = y.textSha256

theorem splits_unit {x y : KnowledgeUnit} :
    Splits (unitBytes env x) (unitBytes env y) (SameUnit x y) := by
  apply (splits_text.cons ((splits_optionBytes fun a b => splits_text.mono
    Search.unitId_text_inj.mp).cons ((splits_fixed ((Search.length_u32Bytes x.ordinal).trans
      (Search.length_u32Bytes y.ordinal).symm)).cons (splits_tag.cons (splits_framed.cons
        (splits_frame.cons splits_nil)))))).mono
  rintro ⟨id, parent, ordinal, kind, ⟨bytes, first, second⟩, text, -⟩
  exact ⟨Search.unitId_text_inj.mp id, parent, Search.u32Bytes_inj ordinal,
    Search.unitKindTag_inj.mp kind,
    Search.encode_inj (mapError_iff.mp first) (mapError_iff.mp second), Digest.ext_bytes text⟩

/-- What a segment's bytes say of the item. -/
structure SameItem (x y : BodyItemEntry) : Prop where
  parserBuildId : x.parserBuildId = y.parserBuildId
  version : x.version = y.version
  part : x.part = y.part
  representation : x.authoritativeRepresentationRef = y.authoritativeRepresentationRef
  raw : x.raw = y.raw
  profile : x.profile = y.profile
  detectedFormat : x.detectedFormat = y.detectedFormat
  operation : x.operation = y.operation
  coverage : x.coverage = y.coverage
  units : Forall₂ SameUnit x.units y.units

end

/-! ## Items that one digest stands for -/

/-- Every unit carries its item's binding and the snapshot. -/
def Owned (entry : BodyItemEntry) (sourceSnapshot : String) : Prop :=
  ∀ unit ∈ entry.units, unit.version = entry.version ∧ unit.part = entry.part ∧
    unit.provenance.sourceSnapshot = sourceSnapshot ∧
    unit.provenance.authoritativeRepresentationRef = entry.authoritativeRepresentationRef ∧
    unit.provenance.raw = entry.raw ∧ some unit.provenance.detectedFormat = entry.detectedFormat ∧
    some unit.provenance.profile = entry.profile ∧
    unit.provenance.parserBuildId = entry.parserBuildId

def innerFormats (entry : BodyItemEntry) : List (Option FormatId) :=
  entry.units.map fun unit => unit.provenance.archiveInnerFormat

/-- What is hashed of items: their segments and the texts of their units. -/
inductive Hashed (env : Platform) (items : BodyItemEntry → String → Prop) : Bytes → Prop where
  | segment {entry : BodyItemEntry} {snapshot : String} {bytes : Bytes}
    (among : items entry snapshot)
      (written : segmentBytes env entry = .ok bytes) :
      Hashed env items (utf8 ("body-unit-segment:v1".toList ++ ['\x00']) ++ bytes)
  | text {entry : BodyItemEntry} {snapshot : String} {unit : KnowledgeUnit}
      (among : items entry snapshot) (inside : unit ∈ entry.units) :
      Hashed env items (utf8 unit.text.toList)

/-- Items with their units, each bound to its item and a snapshot: a digest says what the archive
plan and the inner formats are, and no two of the strings hashed collide. -/
structure Genuine (env : Platform) (items : BodyItemEntry → String → Prop) : Prop where
  full : ∀ entry snapshot, items entry snapshot →
    entry.stored = none ∧ snapshot ≠ "" ∧ Owned entry snapshot
  archives : ∀ x σ y τ d, items x σ → items y τ → segmentDigest env x = .ok d →
    segmentDigest env y = .ok d → x.archivePlan = y.archivePlan ∧ innerFormats x = innerFormats y
  apart : ∀ x y, Hashed env items x → Hashed env items y → env.sha256 x = env.sha256 y → x = y

/-- An item that stands for its units by the stored segment of an item that passes. -/
structure Stands (env : Platform) (items : BodyItemEntry → String → Prop) (entry : BodyItemEntry)
    (stored : StoredUnits) (original : BodyItemEntry) (snapshot : String) : Prop where
  held : entry.stored = some stored
  bare : entry.units = []
  among : items original snapshot
  passes : validateEntry env original snapshot = .ok ()
  digest : segmentDigest env original = .ok stored.digest
  count : stored.count.toNat = original.units.length
  operation : entry.operation = original.operation
  coverage : entry.coverage = original.coverage
  detectedFormat : entry.detectedFormat = original.detectedFormat
  profile : entry.profile = original.profile

/-- A manifest of such items. -/
def Drawn (env : Platform) (items : BodyItemEntry → String → Prop) (manifest : BodyUnitManifest) :
    Prop :=
  ∀ entry ∈ manifest.entries, items entry manifest.sourceSnapshot ∨
    ∃ stored original snapshot, Stands env items entry stored original snapshot

/-- Every remembered digest is that of an item that passes. -/
def Remembered (env : Platform) (items : BodyItemEntry → String → Prop) (memo : List Digest) :
    Prop :=
  ∀ d ∈ memo, ∃ entry snapshot, items entry snapshot ∧ validateEntry env entry snapshot = .ok () ∧
    segmentDigest env entry = .ok d

section

variable {env : Platform} {items : BodyItemEntry → String → Prop} {memo : List Digest}
  {manifest : BodyUnitManifest} {entry x y : BodyItemEntry} {σ τ : String} {d : Digest}

theorem validateEntry_texts (full : entry.stored = none)
    (h : validateEntry env entry σ = .ok ()) : textsMatch env entry = true := by
  rw [textsMatch, all_eq_true]
  intro unit inside
  simp only [validateEntry, except_bind_iff, full, Option.isSome_none, Bool.false_eq_true,
    or_false] at h
  obtain ⟨-, -, -, -, rest⟩ := h
  have counted : entry.unitCount ≠ 0 := by
    rw [BodyItemEntry.unitCount, full]
    exact (length_pos_of_mem inside).ne'
  rw [if_neg counted, checkAuthority] at rest
  split at rest
  · rw [mapError_iff] at rest
    simp only [validatePartUnits, except_bind_iff] at rest
    obtain ⟨-, -, last, scanned, -⟩ := rest
    obtain ⟨before, after, visited⟩ := foldlM_visits scanned inside
    simp only [checkUnit, except_iffs] at visited
    obtain ⟨-, -, -, same, -⟩ := visited
    exact decide_eq_true same
  · cases rest

theorem units_restamped {xs ys : List KnowledgeUnit} (same : Forall₂ SameUnit xs ys)
    (inner : xs.map (fun unit => unit.provenance.archiveInnerFormat) =
      ys.map fun unit => unit.provenance.archiveInnerFormat)
    (each : ∀ x ∈ xs, ∀ y ∈ ys, SameUnit x y →
      x.provenance.archiveInnerFormat = y.provenance.archiveInnerFormat → y = restamp τ x) :
    ys = xs.map (restamp τ) := by
  induction same with
  | nil => rfl
  | cons first _ ih =>
    rw [map_cons, map_cons, cons.injEq] at inner
    rw [map_cons, each _ mem_cons_self _ mem_cons_self first inner.1,
      ih inner.2 fun x hx y hy => each x (.tail _ hx) y (.tail _ hy)]

theorem segmentDigest_full (full : entry.stored = none) (h : segmentDigest env entry = .ok d) :
    ∃ bytes, segmentBytes env entry = .ok bytes ∧
      d = env.sha256 (utf8 ("body-unit-segment:v1".toList ++ ['\x00']) ++ bytes) := by
  rw [segmentDigest, full] at h
  obtain ⟨bytes, written, same⟩ := except_bind_ok h
  exact ⟨bytes, written, (Except.ok.inj same).symm⟩

/-- Items with one digest are the same up to their snapshot. -/
theorem Genuine.restamped (genuine : Genuine env items) (hx : items x σ) (hy : items y τ)
    (dx : segmentDigest env x = .ok d) (dy : segmentDigest env y = .ok d)
    (tx : textsMatch env x = true) (ty : textsMatch env y = true) :
    y = restampSourceSnapshot x τ := by
  obtain ⟨fullX, -, ownedX⟩ := genuine.full x σ hx
  obtain ⟨fullY, -, ownedY⟩ := genuine.full y τ hy
  obtain ⟨bytes, writtenX, hashX⟩ := segmentDigest_full fullX dx
  obtain ⟨bytesToo, writtenY, hashY⟩ := segmentDigest_full fullY dy
  have sameBytes := append_cancel_left (genuine.apart _ _ (.segment hx writtenX)
    (.segment hy writtenY) (hashX.symm.trans hashY))
  have same : SameItem x y := by
    have format : ∀ a b : FormatId, Splits (.ok [a.tag] : Except BodyBuildError Bytes) (.ok [b.tag])
        (a = b) := fun a b => splits_tag.mono Search.formatTag_inj.mp
    obtain ⟨build, version, part, representation, raw, profile, detected, operation, coverage,
      units, -⟩ := (splits_text.cons (splits_version.cons (splits_part.cons (splits_text.cons
        (splits_raw.cons ((splits_optionBytes fun _ _ => splits_text).cons
          ((splits_optionBytes format).cons
          (splits_operation.cons (splits_coverage.cons ((splits_each fun _ _ => splits_unit).cons
            splits_nil)))))))))).eq_ok writtenX (sameBytes ▸ writtenY)
    exact ⟨build, version, part, representation, raw, profile, detected, operation, coverage, units⟩
  obtain ⟨plans, inner⟩ := genuine.archives x σ y τ d hx hy dx dy
  have units : y.units = x.units.map (restamp τ) := by
    apply units_restamped same.units inner
    intro a ha b hb covered format
    have text : a.text = b.text := by
      have matchA := of_decide_eq_true (all_eq_true.mp tx a ha)
      have matchB := of_decide_eq_true (all_eq_true.mp ty b hb)
      have hashes : textSha256 env a.text = textSha256 env b.text := by
        rw [matchA, matchB, covered.textSha256]
      exact String.toList_inj.mp (utf8_inj (genuine.apart _ _ (.text hx ha) (.text hy hb) hashes))
    obtain ⟨versionA, partA, -, representationA, rawA, formatA, profileA, buildA⟩ := ownedX a ha
    obtain ⟨versionB, partB, snapshotB, representationB, rawB, formatB, profileB, buildB⟩ :=
      ownedY b hb
    have provenance : b.provenance = { a.provenance with sourceSnapshot := τ } := by
      rw [Search.UnitProvenance.mk.injEq]
      exact ⟨snapshotB, representationB.trans (same.representation.symm.trans representationA.symm),
        rawB.trans (same.raw.symm.trans rawA.symm),
        Option.some.inj (formatB.trans (same.detectedFormat.symm.trans formatA.symm)), format.symm,
        Option.some.inj (profileB.trans (same.profile.symm.trans profileA.symm)),
        buildB.trans (same.parserBuildId.symm.trans buildA.symm)⟩
    rw [restamp, KnowledgeUnit.mk.injEq]
    exact ⟨covered.unitId.symm, versionB.trans (same.version.symm.trans versionA.symm),
      partB.trans (same.part.symm.trans partA.symm), covered.parent.symm, covered.ordinal.symm,
      covered.kind.symm, text.symm, covered.locator.symm, covered.textSha256.symm, provenance⟩
  rw [restampSourceSnapshot, BodyItemEntry.mk.injEq]
  exact ⟨same.version.symm, same.part.symm, same.representation.symm, same.raw.symm,
    same.detectedFormat.symm, same.profile.symm, same.parserBuildId.symm, plans.symm,
    same.operation.symm, same.coverage.symm, units, fullY.trans fullX.symm⟩

theorem Stands.valid {stored : StoredUnits} (h : Stands env items entry stored x σ)
    (full : x.stored = none) : validateEntry env entry τ = .ok () := by
  have counts : entry.unitCount = x.unitCount := by
    rw [BodyItemEntry.unitCount, h.held, BodyItemEntry.unitCount, full]
    exact h.count
  have outcome : entry.checkOutcome = x.checkOutcome := by
    rw [BodyItemEntry.checkOutcome, BodyItemEntry.checkOutcome, h.operation, h.coverage, counts]
  have passes := h.passes
  simp only [validateEntry, except_bind_iff] at passes ⊢
  obtain ⟨_, passed, _, format, -⟩ := passes
  refine ⟨(), outcome.trans passed, (), ?_, if_pos (.inr (by rw [h.held]; rfl))⟩
  rw [h.detectedFormat, h.profile, h.coverage]
  exact format

theorem Drawn.valid (genuine : Genuine env items) (remembered : Remembered env items memo)
    (drawn : Drawn env items manifest) (inside : entry ∈ manifest.entries)
    (digest : segmentDigest env entry = .ok d) (known : d ∈ memo)
    (texts : textsMatch env entry = true) :
    validateEntry env entry manifest.sourceSnapshot = .ok () := by
  rcases drawn entry inside with among | ⟨stored, x, σ, stands⟩
  · obtain ⟨x, σ, hx, passes, dx⟩ := remembered d known
    obtain ⟨fullX, -, ownedX⟩ := genuine.full x σ hx
    obtain ⟨-, present, -⟩ := genuine.full entry _ among
    rw [genuine.restamped hx among dx digest (validateEntry_texts fullX passes) texts]
    exact validateEntry_restamp (fun unit inside => (ownedX unit inside).2.2.1) present passes
  · exact stands.valid (genuine.full x σ stands.among).1

/-- Only an item with its units can fail the comparison of texts, and it then fails its check. -/
theorem Drawn.invalid (genuine : Genuine env items) (drawn : Drawn env items manifest)
    (inside : entry ∈ manifest.entries) (texts : textsMatch env entry ≠ true) :
    validateEntry env entry manifest.sourceSnapshot ≠ .ok () := by
  intro passes
  rcases drawn entry inside with among | ⟨stored, x, σ, stands⟩
  · exact texts (validateEntry_texts (genuine.full _ _ among).1 passes)
  · exact texts (by rw [textsMatch, stands.bare, all_nil])

theorem segmentOf_digest {segment : Digest × Nat} (h : segmentOf env entry = .ok segment) :
    segmentDigest env entry = .ok segment.1 := by
  obtain ⟨digest, written, same⟩ := except_bind_ok h
  cases same
  exact written

theorem restoredItem_valid {item : BodyCoverageItem}
    (h : restoredItem env manifest entry false = .ok item) :
    validateEntry env entry manifest.sourceSnapshot = .ok () := by
  simp only [restoredItem, except_bind_iff, Bool.false_eq_true, if_false] at h
  obtain ⟨-, -, _, passes, -⟩ := h
  exact passes

variable {segments : List (Digest × Nat)}

/-- The items are checked alike where the skipped ones pass. -/
theorem restoredItems_skipped {entries : List BodyItemEntry}
    (listed : entries.mapM (segmentOf env) = .ok segments)
    (skipped : ∀ entry ∈ entries, ∀ segment, segmentOf env entry = .ok segment → segment.1 ∈ memo →
      validateEntry env entry manifest.sourceSnapshot = .ok ()) :
    ((entries.zip (segments.map fun segment => decide (segment.1 ∈ memo))).mapM fun item =>
        restoredItem env manifest item.1 item.2) =
      (entries.zip (entries.map fun _ => false)).mapM fun item =>
        restoredItem env manifest item.1 item.2 := by
  induction entries generalizing segments with
  | nil => rfl
  | cons entry _ ih =>
    rw [mapM_cons] at listed
    obtain ⟨segment, first, listed⟩ := except_bind_ok listed
    obtain ⟨others, rest, listed⟩ := except_bind_ok listed
    cases listed
    have tail := ih rest fun other inside => skipped other (.tail _ inside)
    have head : restoredItem env manifest entry (decide (segment.1 ∈ memo)) =
        restoredItem env manifest entry false := by
      by_cases known : segment.1 ∈ memo
      · simp [restoredItem, known, skipped entry mem_cons_self segment first known]
      · simp [known]
    simp only [map_cons, zip_cons_cons, mapM_cons, head, tail]

/-- Every entry is paired with whether its digest is remembered. -/
theorem mem_known {entries : List BodyItemEntry}
    (listed : entries.mapM (segmentOf env) = .ok segments) {known : Bool} :
    (entry, known) ∈ entries.zip (segments.map fun segment => decide (segment.1 ∈ memo)) ↔
      entry ∈ entries ∧ ∃ segment, segmentOf env entry = .ok segment ∧
        decide (segment.1 ∈ memo) = known := by
  induction entries generalizing segments with
  | nil => simp
  | cons _ _ ih =>
    simp only [mapM_cons, except_iffs] at listed
    obtain ⟨segment, one, others, rest, rfl⟩ := listed
    rw [map_cons, zip_cons_cons, mem_cons, ih rest, mem_cons, or_and_right]
    refine or_congr_left ?_
    rw [Prod.mk.injEq]
    refine and_congr_right ?_
    rintro rfl
    simp [one, eq_comm]

/-- Once the texts of the items the memo knows are right, passing over an item that would be
accepted changes nothing. -/
theorem checkUnitManifest_skipped (listed : manifest.entries.mapM (segmentOf env) = .ok segments)
    (texts : (manifest.entries.zip (segments.map fun segment =>
      decide (segment.1 ∈ memo))).all (fun item => !item.2 || textsMatch env item.1) = true)
    (skipped : ∀ entry ∈ manifest.entries, ∀ segment, segmentOf env entry = .ok segment →
      segment.1 ∈ memo → validateEntry env entry manifest.sourceSnapshot = .ok ()) :
    checkUnitManifest env memo manifest segments = validatePlainly env manifest := by
  simp only [checkUnitManifest, validatePlainly, ensure, if_pos texts, validateRestoredManifest,
    validateRestoredManifestSkipping, unitManifestReceipt, listed,
    restoredItems_skipped listed skipped]
  rfl

/-- The memo changes no reply, where manifests are made of genuine items. -/
theorem checkUnitManifest_plain (genuine : Genuine env items)
    (remembered : Remembered env items memo) (drawn : Drawn env items manifest)
    (listed : manifest.entries.mapM (segmentOf env) = .ok segments) :
    checkUnitManifest env memo manifest segments = validatePlainly env manifest := by
  by_cases texts : (manifest.entries.zip (segments.map fun segment =>
      decide (segment.1 ∈ memo))).all (fun item => !item.2 || textsMatch env item.1) = true
  · apply checkUnitManifest_skipped listed texts
    intro entry inside segment one known
    have paired := all_eq_true.mp texts (entry, true)
      ((mem_known listed).mpr ⟨inside, segment, one, decide_eq_true known⟩)
    exact drawn.valid genuine remembered inside (segmentOf_digest one) known paired
  · have refused : ∀ coverage, validateRestoredManifest env manifest ≠ .ok coverage := by
      intro coverage accepted
      apply texts
      rw [all_eq_true]
      rintro ⟨entry, known⟩ paired
      have inside := ((mem_known listed).mp paired).1
      simp only [validateRestoredManifest, validateRestoredManifestSkipping, except_bind_iff]
        at accepted
      obtain ⟨-, -, checked, each, -⟩ := accepted
      have plain : (entry, false) ∈ manifest.entries.zip (manifest.entries.map fun _ => false) := by
        rw [← map_prod_left_eq_zip]
        exact mem_map.mpr ⟨entry, inside, rfl⟩
      obtain ⟨item, -, passed⟩ := mapM_each each plain
      by_contra differ
      simp only [Bool.or_eq_true, not_or] at differ
      exact drawn.invalid genuine inside differ.2 (restoredItem_valid passed)
    simp only [checkUnitManifest, validatePlainly, ensure, if_neg texts]
    cases plain : validateRestoredManifest env manifest with
    | error => rfl
    | ok coverage => exact absurd plain (refused coverage)

theorem mem_inserted (h : d ∈ segments.foldl (fun memo segment => memo.insert segment.1) memo) :
    d ∈ memo ∨ ∃ segment ∈ segments, segment.1 = d := by
  induction segments generalizing memo with
  | nil => exact .inl h
  | cons => grind

theorem mem_remember (h : d ∈ remember memo segments) :
    d ∈ memo ∨ ∃ segment ∈ segments, segment.1 = d := by
  rcases mem_inserted h with before | new
  · split at before
    · cases before
    · exact .inl before
  · exact .inr new

theorem Remembered.remember (remembered : Remembered env items memo)
    (drawn : Drawn env items manifest)
    (listed : manifest.entries.mapM (segmentOf env) = .ok segments)
    (valid : ∀ entry ∈ manifest.entries, validateEntry env entry manifest.sourceSnapshot = .ok ()) :
    Remembered env items (remember memo segments) := by
  intro d there
  rcases mem_remember there with before | ⟨segment, inside, rfl⟩
  · exact remembered d before
  · obtain ⟨entry, listedIn, one⟩ := (mem_mapM listed).mp inside
    have digest := segmentOf_digest one
    rcases drawn entry listedIn with among | ⟨stored, x, σ, stands⟩
    · exact ⟨entry, _, among, valid entry listedIn, digest⟩
    · rw [segmentDigest, stands.held] at digest
      exact ⟨x, σ, stands.among, stands.passes, (Except.ok.inj digest) ▸ stands.digest⟩

/-- One call answers as the plain check does and remembers items that pass. -/
theorem validateRestored_plain (genuine : Genuine env items)
    (remembered : Remembered env items memo) (drawn : Drawn env items manifest) :
    (validateRestored env memo manifest).1 = validatePlainly env manifest ∧
      Remembered env items (validateRestored env memo manifest).2 := by
  rw [validateRestored, segmentDigests]
  cases listed : manifest.entries.mapM (segmentOf env) with
  | error =>
    refine ⟨?_, remembered⟩
    rw [validatePlainly, unitManifestReceipt, listed]
    cases validateRestoredManifest env manifest <;> rfl
  | ok =>
    have plain := checkUnitManifest_plain genuine remembered drawn listed
    simp only [Except.mapError, validateUnits, plain]
    cases answer : validatePlainly env manifest with
    | error => exact ⟨rfl, remembered⟩
    | ok =>
      refine ⟨rfl, remembered.remember drawn listed ?_⟩
      intro entry inside
      simp only [validatePlainly, except_bind_iff, mapError_iff, validateRestoredManifest,
        validateRestoredManifestSkipping] at answer
      obtain ⟨_, ⟨-, -, items, each, -⟩, -⟩ := answer
      rw [← map_prod_left_eq_zip, mapM_map] at each
      obtain ⟨item, -, passed⟩ := mapM_each each inside
      exact restoredItem_valid passed

end

/-- Calls that share the memo answer as the plain check does, for manifests of genuine items. -/
theorem memoised_validation_plain {env : Platform} {items : BodyItemEntry → String → Prop}
    (genuine : Genuine env items) {trace : List MemoEvent} {memo : List Digest}
    (run : Run (memoStep env) [] trace memo)
    (drawn : ∀ event ∈ trace, Drawn env items event.manifest) :
    ∀ event ∈ trace, event.reply = validatePlainly env event.manifest := by
  suffices kept : (∀ event ∈ trace, event.reply = validatePlainly env event.manifest) ∧
      Remembered env items memo from kept.1
  induction run with
  | start => exact ⟨fun _ inside => absurd inside not_mem_nil,
      fun _ inside => absurd inside not_mem_nil⟩
  | next _ step ih =>
    obtain ⟨replies, remembered⟩ := ih fun event inside => drawn event (.tail _ inside)
    obtain ⟨plain, kept⟩ :=
      validateRestored_plain genuine remembered (drawn _ mem_cons_self)
    rw [memoStep] at step
    rw [step] at plain kept
    exact ⟨forall_mem_cons.mpr ⟨plain, replies⟩, kept⟩

/-! ## A unit that is not its item's -/

/-- Hashes tell strings of different lengths apart. -/
def lengthPlatform : Platform :=
  ⟨fun bytes => ⟨bigEndian 32 bytes.length, length_bigEndian _ _⟩, id⟩

def lineKey : ProjectionGenerationKey := ⟨.filled 1, .filled 2⟩

def lineVersion : ResourceVersionRef :=
  ⟨lineKey.sourceId, .filled 3, "v"⟩

def linePart : ContentPartRef := ⟨"p", "a.txt", 0⟩

def lineRaw : RawBinding := ⟨lengthPlatform.sha256 [], 0, "text/plain"⟩

/-- The one line of a text file, read by a build of the parser. -/
def lineUnit (parserBuildId : String) : KnowledgeUnit where
  unitId := match Search.UnitId.derive lengthPlatform lineVersion linePart "x" (.text 0 1) 0 with
    | .ok id => id
    | .error _ => ⟨lineRaw.sha256⟩
  version := lineVersion
  part := linePart
  parentUnitId := none
  ordinal := 0
  kind := .plainText
  text := "a"
  locator := .text 0 1
  textSha256 := textSha256 lengthPlatform "a"
  provenance := ⟨"s", "r", lineRaw, .text, none, "x", parserBuildId⟩

def lineEntry (unitBuild : String) : BodyItemEntry :=
  ⟨lineVersion, linePart, "r", lineRaw, some .text, some "x", "b", none, .completed,
    some .supported, [lineUnit unitBuild], none⟩

def lineManifest (unitBuild : String) : BodyUnitManifest :=
  ⟨lineKey, "s", [lineEntry unitBuild]⟩

def lineItems (entry : BodyItemEntry) (snapshot : String) : Prop :=
  (∃ build, entry = lineEntry build) ∧ snapshot = "s"

/-- All that is hashed of them: also the identity of the unit, and the list of segments. -/
inductive LineHashed : Bytes → Prop where
  | item {x : Bytes} (h : Hashed lengthPlatform lineItems x) : LineHashed x
  | identity {x : Bytes} (written : Search.UnitId.input lengthPlatform lineVersion linePart "x"
      (.text 0 1) 0 = .ok x) : LineHashed x
  | receipt {build : String} {segments : List (Digest × Nat)} {x : Bytes}
      (digests : segmentDigests lengthPlatform (lineManifest build) = .ok segments)
      (written : segmentListBytes segments = .ok x) :
      LineHashed (utf8 ("body-unit-manifest:v2".toList ++ ['\x00']) ++ x)

def lineStrings : List Bytes :=
  ((segmentBytes lengthPlatform (lineEntry "b")).toOption.map
      (utf8 ("body-unit-segment:v1".toList ++ ['\x00']) ++ ·)).toList ++
    [utf8 "a".toList] ++
    (Search.UnitId.input lengthPlatform lineVersion linePart "x" (.text 0 1) 0).toOption.toList ++
    ((((segmentDigests lengthPlatform (lineManifest "b")).toOption.bind fun segments =>
      (segmentListBytes segments).toOption)).map
        (utf8 ("body-unit-manifest:v2".toList ++ ['\x00']) ++ ·)).toList

theorem line_hashed {x : Bytes} (h : LineHashed x) : x ∈ lineStrings := by
  cases h with
  | item h =>
    cases h with
    | segment among written =>
      obtain ⟨⟨build, rfl⟩, -⟩ := among
      have same : segmentBytes lengthPlatform (lineEntry "b") = _ := written
      simp [lineStrings, same, Except.toOption]
    | text among inside =>
      obtain ⟨⟨build, rfl⟩, -⟩ := among
      cases mem_singleton.mp inside
      simp [lineStrings, lineUnit]
  | identity written => simp [lineStrings, written, Except.toOption]
  | receipt digests written =>
    have same : segmentDigests lengthPlatform (lineManifest "b") = _ := digests
    simp [lineStrings, same, written, Except.toOption]

theorem line_apart {x y : Bytes} (hx : LineHashed x) (hy : LineHashed y)
    (same : lengthPlatform.sha256 x = lengthPlatform.sha256 y) : x = y := by
  have apart : (lineStrings.map lengthPlatform.sha256).Nodup := by decide +kernel
  exact inj_on_of_nodup_map apart (line_hashed hx) (line_hashed hy) same

/-- Any build of the unit is validated after the build of its item. -/
theorem line_run (build : String) : ∃ memo, Run (memoStep lengthPlatform) []
    [⟨lineManifest build, (validateRestored lengthPlatform
        (validateRestored lengthPlatform [] (lineManifest "b")).2 (lineManifest build)).1⟩,
      ⟨lineManifest "b", (validateRestored lengthPlatform [] (lineManifest "b")).1⟩] memo :=
  ⟨_, (Run.start.next memoStep_call).next memoStep_call⟩

/-- A unit that names another build of the parser passes once its segment is remembered. -/
theorem memoised_validation_accepts_foreign :
    ∃ trace memo event, Run (memoStep lengthPlatform) [] trace memo ∧ event ∈ trace ∧
      event.manifest = lineManifest "c" ∧ event.reply.isOk = true ∧
      (validatePlainly lengthPlatform event.manifest).isOk = false ∧
      ∀ x y, LineHashed x → LineHashed y →
        lengthPlatform.sha256 x = lengthPlatform.sha256 y → x = y := by
  obtain ⟨memo, run⟩ := line_run "c"
  refine ⟨_, _, _, run, .head _, rfl, ?_, ?_, fun x y => line_apart⟩
  · decide +kernel
  · decide +kernel

theorem line_genuine : Genuine lengthPlatform fun entry snapshot =>
    entry = lineEntry "b" ∧ snapshot = "s" where
  full := by
    rintro entry snapshot ⟨rfl, rfl⟩
    refine ⟨rfl, by decide, ?_⟩
    intro unit inside
    cases mem_singleton.mp inside
    exact ⟨rfl, rfl, rfl, rfl, rfl, rfl, rfl, rfl⟩
  archives := by
    rintro _ _ _ _ _ ⟨rfl, -⟩ ⟨rfl, -⟩ _ _
    exact ⟨rfl, rfl⟩
  apart := by
    have wider : ∀ x, Hashed lengthPlatform (fun entry snapshot =>
        entry = lineEntry "b" ∧ snapshot = "s") x → Hashed lengthPlatform lineItems x := by
      rintro _ (⟨⟨rfl, rfl⟩, written⟩ | ⟨⟨rfl, rfl⟩, inside⟩)
      · exact .segment ⟨⟨_, rfl⟩, rfl⟩ written
      · exact .text ⟨⟨_, rfl⟩, rfl⟩ inside
    exact fun x y hx hy => line_apart (.item (wider x hx)) (.item (wider y hy))

/-- A manifest that is restored twice, the second time from the memo. -/
theorem memoised_validation_plain_twice :
    ∃ trace memo, Run (memoStep lengthPlatform) [] trace memo ∧ trace.length = 2 ∧
      ∀ event ∈ trace, event.reply = validatePlainly lengthPlatform event.manifest ∧
        event.reply.isOk = true := by
  obtain ⟨memo, run⟩ := line_run "b"
  have plain := memoised_validation_plain line_genuine run (by
    intro event inside
    have manifest : event.manifest = lineManifest "b" := by
      rcases mem_cons.mp inside with rfl | inside
      · rfl
      · cases mem_singleton.mp inside
        rfl
    rw [manifest]
    intro entry listed
    cases mem_singleton.mp listed
    exact .inl ⟨rfl, rfl⟩)
  refine ⟨_, _, run, rfl, fun event inside => ⟨plain event inside, ?_⟩⟩
  rcases mem_cons.mp inside with rfl | inside
  · decide +kernel
  · cases mem_singleton.mp inside
    decide +kernel

end KnowledgePlatform.Body
