import KnowledgePlatform.Lib.OrderedMap
import KnowledgePlatform.Search.Units

/-! Extraction profiles: what read a part, and the plan that read an archive. -/

namespace KnowledgePlatform.Search

open Framing

inductive BudgetKey where
  | inputBytes
  | zipEntries
  | zipEntryBytes
  | zipTotalBytes
  | zipDepth
  | units
  | unitUtf8Bytes
  | workerOutputBytes
  | xmlDepth
  | xmlNodes
  | pdfPages
  | pdfOperations
  | htmlNodes
  | csvRecords
  | csvFieldBytes
deriving DecidableEq

namespace BudgetKey

def all : List BudgetKey :=
  [inputBytes, zipEntries, zipEntryBytes, zipTotalBytes, zipDepth, units, unitUtf8Bytes,
    workerOutputBytes, xmlDepth, xmlNodes, pdfPages, pdfOperations, htmlNodes, csvRecords,
    csvFieldBytes]

def tag : BudgetKey → UInt8
  | inputBytes => 1
  | zipEntries => 2
  | zipEntryBytes => 3
  | zipTotalBytes => 4
  | zipDepth => 5
  | units => 6
  | unitUtf8Bytes => 7
  | workerOutputBytes => 8
  | xmlDepth => 9
  | xmlNodes => 10
  | pdfPages => 11
  | pdfOperations => 12
  | htmlNodes => 13
  | csvRecords => 14
  | csvFieldBytes => 15

theorem tag_injective : Function.Injective tag := by
  intro x y
  cases x <;> cases y <;> decide

instance : LinearOrder BudgetKey := LinearOrder.lift' tag tag_injective

end BudgetKey

inductive FormatSettings where
  | none
  | text (charset : String)
  | csv (charset : String) (delimiter quote : UInt8)
  | archive (memberDecoder : String)

structure ExtractionProfileDefinitionV1 where
  format : FormatId
  (parserName parserVersion : String)
  parserBuildSha256 : Digest
  nativeBinarySha256 : Option Digest
  (scopeRevision segmentationRevision normalizationRevision locatorRevision : UInt32)
  formatSettings : FormatSettings
  limits : OrderedMap BudgetKey UInt64

def validAsciiId (value : String) : Bool :=
  decide (value ≠ "") && decide ((utf8 value.toList).length < 2 ^ 32) &&
    value.toList.all isAsciiGraphic

def canonicalSetting (isNfc : NfcTest) (value : String) : Bool :=
  decide (value ≠ "") && decide ((utf8 value.toList).length < 2 ^ 32) && isNfc value &&
    !value.toList.any isControl

def settingsValid (isNfc : NfcTest) : FormatId → FormatSettings → Bool
  | .text, .text charset => canonicalSetting isNfc charset
  | .csv, .csv charset _ _ => canonicalSetting isNfc charset
  | .zip, .archive memberDecoder => canonicalSetting isNfc memberDecoder
  | .docx, .none | .xlsx, .none | .xlsm, .none | .pptx, .none | .pdf, .none | .html, .none => true
  | _, _ => false

namespace ExtractionProfileDefinitionV1

def validate (isNfc : NfcTest) (d : ExtractionProfileDefinitionV1) :
    Except UnitCodecError Unit := do
  ensure (validAsciiId d.parserName = true ∧ validAsciiId d.parserVersion = true)
    (.invalid "parser identifier")
  ensure (¬ (d.format = .pdf ∧ d.nativeBinarySha256 = none)) (.invalid "PDF native pin")
  ensure (d.normalizationRevision = 1 ∧ d.locatorRevision = 1) (.invalid "profile revision")
  ensure (settingsValid isNfc d.format d.formatSettings = true) (.invalid "format settings")
  ensure (d.limits.size = BudgetKey.all.length ∧ BudgetKey.all.all (d.limits.contains ·) = true)
    (.invalid "budget keys")

/-- `extraction-profile:v1` and a zero byte. -/
def profilePrefix : Bytes := utf8 "extraction-profile:v1\x00".toList

def settingsBytes : FormatSettings → Except UnitCodecError Bytes
  | .none => .ok [0]
  | .text charset => parts [.ok [1], frame tooLong (utf8 charset.toList)]
  | .csv charset delimiter quote =>
    parts [.ok [2], frame tooLong (utf8 charset.toList), .ok [delimiter, quote]]
  | .archive memberDecoder => parts [.ok [3], frame tooLong (utf8 memberDecoder.toList)]

/-- The limits by tag; validation has found every one of them. -/
def budgetBytes (limits : OrderedMap BudgetKey UInt64) : Except UnitCodecError Bytes :=
  parts [count tooLong BudgetKey.all.length,
    .ok (BudgetKey.all.flatMap fun key =>
      key.tag :: bigEndian 8 (((limits.get key).map UInt64.toNat).getD 0))]

def encode (isNfc : NfcTest) (d : ExtractionProfileDefinitionV1) : Except UnitCodecError Bytes := do
  d.validate isNfc
  parts [.ok profilePrefix,
    frame tooLong [d.format.tag],
    frame tooLong (utf8 d.parserName.toList),
    frame tooLong (utf8 d.parserVersion.toList),
    frame tooLong d.parserBuildSha256.bytes,
    frame tooLong (d.nativeBinarySha256.elim [0] fun hash => 1 :: hash.bytes),
    frame tooLong (u32Bytes d.scopeRevision),
    frame tooLong (u32Bytes d.segmentationRevision),
    frame tooLong (u32Bytes d.normalizationRevision),
    frame tooLong (u32Bytes d.locatorRevision),
    settingsBytes d.formatSettings >>= frame tooLong,
    budgetBytes d.limits >>= frame tooLong]

end ExtractionProfileDefinitionV1

/-! ## Archives -/

structure ArchiveReaderNode where
  members : List String
  parserBuildId : String
  definition : ExtractionProfileDefinitionV1

structure ArchiveProfilePlan where
  nodes : List ArchiveReaderNode
  usedLeafChains : List (List String)

instance decidableMemChain (chain : List String) (chains : List (List String)) :
    Decidable (chain ∈ chains) := inferInstance

namespace ArchiveProfilePlan

/-- The nodes read so far: the last chain and every chain's format. -/
structure NodeScan where
  previous : Option (List String)
  formats : OrderedMap (List String) FormatId

def scanNode (isNfc : NfcTest) (scan : NodeScan) (node : ArchiveReaderNode) :
    Except UnitCodecError NodeScan := do
  ensure (validAsciiId node.parserBuildId = true) (.invalid "archive build ID")
  node.definition.validate isNfc
  node.members.forM (validateArchiveMember isNfc)
  ensure ((scan.previous.all fun chain => decide (chain < node.members)) = true)
    (.invalid "archive node order")
  ensure ((scan.formats.get node.members).isNone = true) (.invalid "duplicate archive node")
  return ⟨some node.members, scan.formats.insert node.members node.definition.format⟩

/-- Every shorter chain of a node leads through a ZIP. -/
def zipAbove (formats : OrderedMap (List String) FormatId) (members : List String) : Bool :=
  decide (members ≠ []) && (List.range members.length).all fun length =>
    decide (formats.get (members.take length) = some .zip)

def addLeaf (formats : OrderedMap (List String) FormatId) (leaves : List (List String))
    (chain : List String) : Except UnitCodecError (List (List String)) := do
  ensure (chain ≠ [] ∧ chain ∉ leaves ∧
      ((formats.get chain).any fun format => decide (format ≠ .zip)) = true)
    (.invalid "archive leaf")
  return chain :: leaves

def checkUsed (leaves : List (List String)) (node : ArchiveReaderNode) :
    Except UnitCodecError Unit :=
  if node.definition.format = .zip then
    ensure ((leaves.any fun leaf => node.members.isPrefixOf leaf &&
      decide (node.members.length < leaf.length)) = true) (.invalid "unused ZIP node")
  else ensure (node.members ∈ leaves) (.invalid "unused leaf node")

def validate (isNfc : NfcTest) (plan : ArchiveProfilePlan) : Except UnitCodecError Unit := do
  ensure (plan.nodes ≠ [] ∧ plan.usedLeafChains ≠ []) (.invalid "empty archive plan")
  let scan ← plan.nodes.foldlM (scanNode isNfc) ⟨none, .empty⟩
  ensure ((plan.nodes.head?.any fun root =>
      decide (root.members = [] ∧ root.definition.format = .zip)) = true) (.invalid "archive root")
  ensure ((plan.nodes.drop 1).all (fun node => zipAbove scan.formats node.members) = true)
    (.invalid "missing ZIP prefix")
  let leaves ← plan.usedLeafChains.foldlM (addLeaf scan.formats) []
  (plan.nodes.drop 1).forM (checkUsed leaves)

/-- `extraction-profile:archive:v2` and a zero byte. -/
def archivePrefix : Bytes := utf8 "extraction-profile:archive:v2\x00".toList

def nodeBytes (isNfc : NfcTest) (node : ArchiveReaderNode) : Except UnitCodecError Bytes :=
  parts [
    list tooLong (node.members.map fun member => utf8 member.toList) >>= frame tooLong,
    frame tooLong (utf8 node.parserBuildId.toList),
    node.definition.encode isNfc >>= frame tooLong]

def encode (isNfc : NfcTest) (plan : ArchiveProfilePlan) : Except UnitCodecError Bytes := do
  plan.validate isNfc
  parts (.ok archivePrefix :: count tooLong plan.nodes.length ::
    plan.nodes.map fun node => nodeBytes isNfc node >>= frame tooLong)

end ArchiveProfilePlan

def ExtractionProfileId.forArchive (env : Platform) (plan : ArchiveProfilePlan) :
    Except UnitCodecError ExtractionProfileId := do
  let bytes ← plan.encode env.isNfc
  return digestString (env.sha256 bytes)

end KnowledgePlatform.Search
