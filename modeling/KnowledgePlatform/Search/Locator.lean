import KnowledgePlatform.Lib.Framing
import KnowledgePlatform.Lib.Reader
import KnowledgePlatform.Lib.Text

/-! Where a unit stands in its native document, and the bytes that say so. -/

namespace KnowledgePlatform.Search

open Framing ByteReader List

inductive UnitCodecError where
  | invalid (reason : String)

inductive DocxStep where
  | bodyBlock (index : UInt32)
  | row (index : UInt32)
  | cell (index : UInt32)
  | cellBlock (index : UInt32)
deriving DecidableEq

inductive PptxTextSlot where
  | shapeParagraph (paragraph : UInt32)
  | tableCellParagraph (row col paragraph : UInt32)
deriving DecidableEq

inductive NativeLocator where
  | docx (steps : List DocxStep)
  | spreadsheet (sheetOrdinal row col : UInt32)
  | pptx (slideOrdinal : UInt32) (shapePath : List UInt32) (textSlot : PptxTextSlot)
  | pdf (pageIndex charStart charEnd : UInt32)
  | text (lineStart lineEnd : UInt32)
  | csv (record field : UInt32)
  | html (textNodePath : List UInt32)
  | archive (members : List String) (inner : NativeLocator)
deriving DecidableEq

/-- A text is in normal form, as the Unicode library decides. -/
abbrev NfcTest := String → Bool

/-! ## Validation -/

def IsLogicalPath (isNfc : NfcTest) (value : String) : Prop :=
  isNfc value = true ∧ KnowledgePlatform.IsLogicalPath value

instance (isNfc : NfcTest) (value : String) : Decidable (IsLogicalPath isNfc value) :=
  inferInstanceAs (Decidable (_ ∧ _))

def validateLogicalPath (isNfc : NfcTest) (value : String) : Except UnitCodecError Unit :=
  ensure (IsLogicalPath isNfc value) (.invalid "logical path")

def validateArchiveMember (isNfc : NfcTest) (value : String) : Except UnitCodecError Unit :=
  validateLogicalPath isNfc value

/-- Rows, cells and blocks in turn. -/
def areTriplets : List DocxStep → Bool
  | [] => true
  | .row _ :: .cell _ :: .cellBlock _ :: rest => areTriplets rest
  | _ => false

def AreDocxSteps : List DocxStep → Bool
  | .bodyBlock _ :: rest => areTriplets rest
  | _ => false

def NativeLocator.isArchive : NativeLocator → Bool
  | .archive _ _ => true
  | _ => false

/-! ## Encoding -/

/-- `native-locator:v1` and a zero byte. -/
def locatorPrefix : Bytes := utf8 "native-locator:v1\x00".toList

def tooLong : UnitCodecError := .invalid "length"

def u32Bytes (n : UInt32) : Bytes := bigEndian 4 n.toNat

def DocxStep.bytes : DocxStep → Bytes
  | .bodyBlock index => 1 :: u32Bytes index
  | .row index => 2 :: u32Bytes index
  | .cell index => 3 :: u32Bytes index
  | .cellBlock index => 4 :: u32Bytes index

def PptxTextSlot.bytes : PptxTextSlot → Bytes
  | .shapeParagraph paragraph => 1 :: u32Bytes paragraph
  | .tableCellParagraph row col paragraph => 2 :: [row, col, paragraph].flatMap u32Bytes

def NativeLocator.tag : NativeLocator → UInt8
  | .docx _ => 1
  | .spreadsheet _ _ _ => 2
  | .pptx _ _ _ => 3
  | .pdf _ _ _ => 4
  | .text _ _ => 5
  | .csv _ _ => 6
  | .html _ => 7
  | .archive _ _ => 8

/-- What follows the tag. -/
def NativeLocator.fields (isNfc : NfcTest) : NativeLocator → Except UnitCodecError Bytes
  | .docx steps => do
    ensure (AreDocxSteps steps = true) (.invalid "Docx step grammar")
    parts [count tooLong steps.length, .ok (steps.flatMap DocxStep.bytes)]
  | .spreadsheet sheetOrdinal row col => .ok ([sheetOrdinal, row, col].flatMap u32Bytes)
  | .pptx slideOrdinal shapePath textSlot => do
    ensure (shapePath ≠ []) (.invalid "empty shape path")
    parts [.ok (u32Bytes slideOrdinal), count tooLong shapePath.length,
      .ok (shapePath.flatMap u32Bytes), .ok textSlot.bytes]
  | .pdf pageIndex charStart charEnd => do
    ensure (charStart < charEnd) (.invalid "PDF range")
    return [pageIndex, charStart, charEnd].flatMap u32Bytes
  | .text lineStart lineEnd => do
    ensure (lineStart < lineEnd) (.invalid "text range")
    return [lineStart, lineEnd].flatMap u32Bytes
  | .csv record field => .ok ([record, field].flatMap u32Bytes)
  | .html textNodePath => do
    ensure (textNodePath ≠ []) (.invalid "empty HTML path")
    parts [count tooLong textNodePath.length, .ok (textNodePath.flatMap u32Bytes)]
  | .archive members inner => do
    ensure (members ≠ [] ∧ inner.isArchive = false) (.invalid "archive nesting")
    parts [count tooLong members.length,
      parts (members.map fun member => do
        validateArchiveMember isNfc member
        frame tooLong (utf8 member.toList)),
      do
        let bytes ← inner.fields isNfc
        frame tooLong (locatorPrefix ++ inner.tag :: bytes)]

attribute [simp] NativeLocator.tag NativeLocator.fields

def NativeLocator.encode (isNfc : NfcTest) (x : NativeLocator) : Except UnitCodecError Bytes := do
  let bytes ← x.fields isNfc
  return locatorPrefix ++ x.tag :: bytes

/-! ## Decoding -/

def truncated : UnitCodecError := .invalid "truncated bytes"

def docxStep (tag : UInt8) (index : UInt32) : Except UnitCodecError DocxStep :=
  match tag with
  | 1 => .ok (.bodyBlock index)
  | 2 => .ok (.row index)
  | 3 => .ok (.cell index)
  | 4 => .ok (.cellBlock index)
  | _ => .error (.invalid "Docx step tag")

def readDocxStep : ByteReader UnitCodecError DocxStep := do
  let tag ← byte truncated
  let index ← u32 truncated
  lift (docxStep tag index)

def readDocx : ByteReader UnitCodecError NativeLocator := do
  let steps ← counted truncated (.invalid "Docx step count") 0 5 readDocxStep
  check (AreDocxSteps steps = true) (.invalid "Docx step grammar")
  return .docx steps

def readSpreadsheet : ByteReader UnitCodecError NativeLocator := do
  let sheetOrdinal ← u32 truncated
  let row ← u32 truncated
  let col ← u32 truncated
  return .spreadsheet sheetOrdinal row col

def readPath (e : UnitCodecError) : ByteReader UnitCodecError (List UInt32) :=
  counted truncated e 1 4 (u32 truncated)

def readTextSlotFields (tag : UInt8) : ByteReader UnitCodecError PptxTextSlot :=
  match tag with
  | 1 => do
    let paragraph ← u32 truncated
    return .shapeParagraph paragraph
  | 2 => do
    let row ← u32 truncated
    let col ← u32 truncated
    let paragraph ← u32 truncated
    return .tableCellParagraph row col paragraph
  | _ => fail (.invalid "Pptx text slot tag")

def readTextSlot : ByteReader UnitCodecError PptxTextSlot := do
  let tag ← byte truncated
  readTextSlotFields tag

def readPptx : ByteReader UnitCodecError NativeLocator := do
  let slideOrdinal ← u32 truncated
  let shapePath ← readPath (.invalid "shape path count")
  let textSlot ← readTextSlot
  return .pptx slideOrdinal shapePath textSlot

def readPdf : ByteReader UnitCodecError NativeLocator := do
  let pageIndex ← u32 truncated
  let charStart ← u32 truncated
  let charEnd ← u32 truncated
  check (charStart < charEnd) (.invalid "PDF range")
  return .pdf pageIndex charStart charEnd

def readText : ByteReader UnitCodecError NativeLocator := do
  let lineStart ← u32 truncated
  let lineEnd ← u32 truncated
  check (lineStart < lineEnd) (.invalid "text range")
  return .text lineStart lineEnd

def readCsv : ByteReader UnitCodecError NativeLocator := do
  let record ← u32 truncated
  let field ← u32 truncated
  return .csv record field

def readHtml : ByteReader UnitCodecError NativeLocator := do
  let textNodePath ← readPath (.invalid "HTML path count")
  return .html textNodePath

def readMember (isNfc : NfcTest) : ByteReader UnitCodecError String := do
  let bytes ← ByteReader.frame truncated
  let member ← lift (okOr (fromUtf8 bytes) (.invalid "member UTF-8"))
  lift (validateArchiveMember isNfc member)
  return member

def readArchive (isNfc : NfcTest) (decode : Bytes → Except UnitCodecError NativeLocator) :
    ByteReader UnitCodecError NativeLocator := do
  let members ← counted truncated (.invalid "archive member count") 1 4 (readMember isNfc)
  let innerBytes ← ByteReader.frame truncated
  check (innerBytes[locatorPrefix.length]? ≠ some 8) (.invalid "recursive archive locator")
  let inner ← lift (decode innerBytes)
  check (inner.isArchive = false) (.invalid "recursive archive locator")
  return .archive members inner

/-- Reads what follows a tag; `decode` is for the locator inside an archive. -/
def readVariant (isNfc : NfcTest) (decode : Bytes → Except UnitCodecError NativeLocator)
    (tag : UInt8) :
    ByteReader UnitCodecError NativeLocator :=
  match tag with
  | 1 => readDocx
  | 2 => readSpreadsheet
  | 3 => readPptx
  | 4 => readPdf
  | 5 => readText
  | 6 => readCsv
  | 7 => readHtml
  | 8 => readArchive isNfc decode
  | _ => fail (.invalid "locator tag")

def readLocator (isNfc : NfcTest) (decode : Bytes → Except UnitCodecError NativeLocator) :
    ByteReader UnitCodecError NativeLocator := do
  let bytes ← take truncated locatorPrefix.length
  check (bytes = locatorPrefix) (.invalid "locator prefix")
  let tag ← byte truncated
  readVariant isNfc decode tag

/-- The body of `decode`, with `decode` for the locator inside an archive. -/
def decodeStep (isNfc : NfcTest) (decode : Bytes → Except UnitCodecError NativeLocator) :
    Bytes → Except UnitCodecError NativeLocator :=
  whole (.invalid "trailing bytes") (readLocator isNfc decode)

/-- An archive's locator is never inside another archive's, so this goes one level deep. -/
def NativeLocator.decode (isNfc : NfcTest) : Bytes → Except UnitCodecError NativeLocator :=
  decodeStep isNfc (decodeStep isNfc fun _ => .error (.invalid "recursive archive locator"))

/-! ## Reading what was written -/

variable {isNfc : NfcTest} {b : Bytes}

theorem u32Bytes_inj {m n : UInt32} (h : u32Bytes m = u32Bytes n) : m = n := by
  have same := bigEndian_inj h
  have := m.toNat_lt
  have := n.toNat_lt
  apply UInt32.toNat_inj.mp
  omega

theorem length_u32Bytes (n : UInt32) : (u32Bytes n).length = 4 := length_bigEndian _ _

theorem exact_docxStep {tag : UInt8} {index : UInt32} {s : DocxStep} :
    docxStep tag index = .ok s ↔ s.bytes = tag :: u32Bytes index := by
  unfold docxStep
  split
  case h_5 =>
    constructor
    · intro h
      cases h
    · intro same
      cases s <;> simp_all [DocxStep.bytes]
  all_goals
    constructor
    · intro h
      cases h
      rfl
    · intro same
      cases s <;> simp [DocxStep.bytes] at same
      rw [u32Bytes_inj same]

theorem exact_readDocxStep : Exact readDocxStep fun s b => b = s.bytes := by
  refine (exact_byte.bind fun tag => exact_u32.bind fun index => exact_lift).congr ?_
  intro s b
  constructor
  · rintro ⟨tag, _, _, rfl, ⟨index, _, _, rfl, ⟨made, rfl⟩, rfl⟩, rfl⟩
    rw [exact_docxStep.mp made, append_nil]
    rfl
  · rintro rfl
    obtain ⟨tag, index, form⟩ : ∃ tag index, s.bytes = tag :: u32Bytes index := by
      cases s <;> exact ⟨_, _, rfl⟩
    exact ⟨tag, [tag], u32Bytes index, rfl,
      ⟨index, _, [], rfl, ⟨exact_docxStep.mpr form, rfl⟩, by simp [u32Bytes]⟩, form⟩

theorem exact_readPath {e : UnitCodecError} : Exact (readPath e) fun path b =>
    path ≠ [] ∧ path.length < 2 ^ 32 ∧ b = bigEndian 4 path.length ++ path.flatMap u32Bytes := by
  have four (n : UInt32) (b : Bytes) (same : b = bigEndian 4 n.toNat) : 4 ≤ b.length := by
    rw [same, length_bigEndian]
  refine (exact_u32.counted (by decide) four).congr fun path b => ?_
  rw [← length_pos_iff]
  constructor
  · rintro ⟨small, some, y, items, rfl⟩
    rw [items_map.mp items]
    exact ⟨some, small, rfl⟩
  · rintro ⟨some, small, rfl⟩
    exact ⟨small, some, _, items_map.mpr rfl, rfl⟩

theorem exact_readTextSlot : Exact readTextSlot fun slot b => b = slot.bytes := by
  have fields (tag : UInt8) : Exact (readTextSlotFields tag) fun slot b =>
      tag :: b = slot.bytes := by
    unfold readTextSlotFields
    split
    · refine (exact_u32.bind fun paragraph => exact_pure _).congr fun slot b => ?_
      cases slot <;> simp [PptxTextSlot.bytes, u32Bytes]
    · refine (exact_u32.bind fun row => exact_u32.bind fun col => exact_u32.bind fun paragraph =>
        exact_pure _).congr fun slot b => ?_
      cases slot <;> simp [PptxTextSlot.bytes, u32Bytes]
    · refine exact_fail.congr fun slot b => ?_
      cases slot <;> simp_all [PptxTextSlot.bytes]
  refine (exact_byte.bind fields).congr fun slot b => ?_
  cases slot <;> simp [PptxTextSlot.bytes]

/-- The bytes of a member's name. -/
def MemberWritten (isNfc : NfcTest) (member : String) (b : Bytes) : Prop :=
  IsLogicalPath isNfc member ∧ (utf8 member.toList).length < 2 ^ 32 ∧
    b = bigEndian 4 (utf8 member.toList).length ++ utf8 member.toList

theorem exact_readMember : Exact (readMember isNfc) (MemberWritten isNfc) := by
  refine (exact_frame.bind fun bytes => exact_lift.bind fun member => exact_lift.bind fun _ =>
    exact_pure member).congr fun member b => ?_
  simp [MemberWritten, okOr_iff, fromUtf8_iff, validateArchiveMember, validateLogicalPath,
    ensure_iff, and_left_comm]

/-! ## Locators -/

/-- The locators of a tag, with the bytes of their fields. -/
def Written (isNfc : NfcTest) (tag : UInt8) (x : NativeLocator) (b : Bytes) : Prop :=
  x.tag = tag ∧ x.fields isNfc = .ok b

/-- What is inside the archive, if the locator is of one. -/
def NativeLocator.Around (Inner : NativeLocator → Prop) (x : NativeLocator) : Prop :=
  ∀ members inner, x = .archive members inner → Inner inner

theorem exact_readDocx : Exact readDocx (Written isNfc 1) := by
  have five (s : DocxStep) (b : Bytes) (same : b = s.bytes) : 5 ≤ b.length := by
    rw [same]
    cases s <;> simp [DocxStep.bytes, length_u32Bytes]
  refine ((exact_readDocxStep.counted (by decide) five).bind fun steps => exact_check.bind fun _ =>
    exact_pure _).congr fun x b => ?_
  cases x <;> simp [Written, items_map, ensure_bind_iff,
    parts_count_cons_iff, parts_ok_cons_iff, parts_nil_iff, and_assoc, and_left_comm]

theorem exact_readSpreadsheet : Exact readSpreadsheet (Written isNfc 2) := by
  refine (exact_u32.bind fun sheetOrdinal => exact_u32.bind fun row => exact_u32.bind fun col =>
    exact_pure _).congr fun x b => ?_
  cases x <;> simp [Written, u32Bytes, eq_comm (b := b)]

theorem exact_readPptx : Exact readPptx (Written isNfc 3) := by
  refine (exact_u32.bind fun slideOrdinal => exact_readPath.bind fun shapePath =>
    exact_readTextSlot.bind fun textSlot => exact_pure _).congr fun x b => ?_
  cases x <;> simp [Written, u32Bytes, ensure_bind_iff,
    parts_ok_cons_iff, parts_count_cons_iff, parts_nil_iff, and_assoc]

theorem exact_readPdf : Exact readPdf (Written isNfc 4) := by
  refine (exact_u32.bind fun pageIndex => exact_u32.bind fun charStart => exact_u32.bind
    fun charEnd => exact_check.bind fun _ => exact_pure _).congr fun x b => ?_
  cases x <;> simp [Written, u32Bytes, except_map_iff, ensure_iff,
    eq_comm (b := b)]

theorem exact_readText : Exact readText (Written isNfc 5) := by
  refine (exact_u32.bind fun lineStart => exact_u32.bind fun lineEnd => exact_check.bind fun _ =>
    exact_pure _).congr fun x b => ?_
  cases x <;> simp [Written, u32Bytes, except_map_iff, ensure_iff,
    eq_comm (b := b)]

theorem exact_readCsv : Exact readCsv (Written isNfc 6) := by
  refine (exact_u32.bind fun record => exact_u32.bind fun field => exact_pure _).congr fun x b => ?_
  cases x <;> simp [Written, u32Bytes, eq_comm (b := b)]

theorem exact_readHtml : Exact readHtml (Written isNfc 7) := by
  refine (exact_readPath.bind fun textNodePath => exact_pure _).congr fun x b => ?_
  cases x <;> simp [Written, u32Bytes, ensure_bind_iff,
    parts_count_cons_iff, parts_ok_cons_iff, parts_nil_iff, and_assoc]

variable {x : NativeLocator}

theorem encode_iff :
    x.encode isNfc = .ok b ↔ ∃ y, x.fields isNfc = .ok y ∧ b = locatorPrefix ++ x.tag :: y := by
  simp only [NativeLocator.encode, except_iffs, eq_comm (b := b)]

theorem tag_archive : x.tag = 8 ↔ x.isArchive = true := by
  cases x <;> simp [NativeLocator.isArchive]

theorem fields_archive {members : List String} {inner : NativeLocator} :
    (NativeLocator.archive members inner).fields isNfc = .ok b ↔
      members ≠ [] ∧ inner.isArchive = false ∧ members.length < 2 ^ 32 ∧
      ∃ y bytes, Items (MemberWritten isNfc) members y ∧ inner.encode isNfc = .ok bytes ∧
        bytes.length < 2 ^ 32 ∧ b = bigEndian 4 members.length ++
          (y ++ (bigEndian 4 bytes.length ++ bytes)) := by
  have encoded {z : Bytes} : (do
        let bytes ← inner.fields isNfc
        Framing.frame tooLong (locatorPrefix ++ inner.tag :: bytes)) = .ok z ↔
      ∃ bytes, inner.encode isNfc = .ok bytes ∧ bytes.length < 2 ^ 32 ∧
        z = bigEndian 4 bytes.length ++ bytes := by
    simp [except_bind_iff, frame_iff, encode_iff, ← exists_and_right, and_assoc]
  simp only [NativeLocator.fields, ensure_bind_iff, parts_count_cons_iff, and_assoc,
    validateArchiveMember, validateLogicalPath]
  refine and_congr_right fun _ => and_congr_right fun _ => and_congr_right fun _ => ?_
  simp only [parts_cons_iff, parts_nil_iff, parts_map_iff, ensure_bind_iff, frame_iff, encoded]
  simp [Items, and_assoc, ← exists_and_right, -exists_and_left]
  exact exists_comm

section

variable {decode : Bytes → Except UnitCodecError NativeLocator} {Inner : NativeLocator → Prop}

section

variable (inside : ∀ bytes x, decode bytes = .ok x ↔ x.encode isNfc = .ok bytes ∧ Inner x)
include inside

/-- Which locators inside an archive are read depends on how they are decoded. -/
theorem exact_readArchive :
    Exact (readArchive isNfc decode) fun x b => Written isNfc 8 x b ∧ x.Around Inner := by
  have four (member : String) (b : Bytes) (same : MemberWritten isNfc member b) : 4 ≤ b.length := by
    rw [same.2.2, length_append, length_bigEndian]
    omega
  refine ((exact_readMember.counted (by decide) four).bind fun members => exact_frame.bind
    fun innerBytes => exact_check.bind fun _ => exact_lift.bind fun inner => exact_check.bind
    fun _ => exact_pure _).congr fun x b => ?_
  constructor
  · rintro ⟨members, _, _, ⟨few, nonempty, y, items, rfl⟩, ⟨bytes, _, _, ⟨small, rfl⟩,
      ⟨_, _, _, ⟨-, rfl⟩, ⟨inner, _, _, ⟨decoded, rfl⟩,
        ⟨_, _, _, ⟨leaf, rfl⟩, ⟨rfl, rfl⟩, rfl⟩, rfl⟩, rfl⟩, rfl⟩, rfl⟩
    obtain ⟨encoded, known⟩ := (inside _ _).mp decoded
    refine ⟨⟨rfl, fields_archive.mpr ⟨length_pos_iff.mp nonempty, leaf, few, y, bytes, items,
      encoded, small, by simp⟩⟩, ?_⟩
    rintro _ _ same
    cases same
    exact known
  · rintro ⟨⟨tag, fields⟩, known⟩
    cases x with
    | archive members inner =>
      obtain ⟨nonempty, leaf, few, y, bytes, items, encoded, small, rfl⟩ := fields_archive.mp fields
      have notArchive : bytes[locatorPrefix.length]? ≠ some 8 := by
        obtain ⟨z, -, rfl⟩ := encode_iff.mp encoded
        rw [getElem?_append_right (Nat.le_refl _), Nat.sub_self, getElem?_cons_zero]
        intro same
        rw [tag_archive.mp (Option.some.inj same)] at leaf
        cases leaf
      exact ⟨members, _, _, ⟨few, length_pos_iff.mpr nonempty, y, items, rfl⟩,
        ⟨bytes, _, _, ⟨small, rfl⟩, ⟨(), _, _, ⟨notArchive, rfl⟩,
        ⟨inner, _, _, ⟨(inside _ _).mpr ⟨encoded, known _ _ rfl⟩, rfl⟩,
        ⟨(), _, _, ⟨leaf, rfl⟩, ⟨rfl, rfl⟩, rfl⟩, rfl⟩, rfl⟩, rfl⟩, by simp⟩
    | _ => cases tag

theorem exact_readVariant (tag : UInt8) :
    Exact (readVariant isNfc decode tag) fun x b => Written isNfc tag x b ∧ x.Around Inner := by
  have leaf {tag : UInt8} {r : ByteReader UnitCodecError NativeLocator}
      (h : Exact r (Written isNfc tag)) (notArchive : tag ≠ 8) :
      Exact r fun x b => Written isNfc tag x b ∧ x.Around Inner := by
    refine h.congr fun x b => (and_iff_left_of_imp ?_).symm
    rintro ⟨same, -⟩ members inner rfl
    exact absurd same.symm notArchive
  unfold readVariant
  split
  · exact leaf exact_readDocx (by decide)
  · exact leaf exact_readSpreadsheet (by decide)
  · exact leaf exact_readPptx (by decide)
  · exact leaf exact_readPdf (by decide)
  · exact leaf exact_readText (by decide)
  · exact leaf exact_readCsv (by decide)
  · exact leaf exact_readHtml (by decide)
  · exact exact_readArchive inside
  · refine exact_fail.congr fun x b => ?_
    simp only [false_iff, not_and]
    rintro ⟨same, -⟩
    cases x <;> simp_all

end

theorem decodeStep_iff
    (inside : ∀ bytes x, decode bytes = .ok x ↔ x.encode isNfc = .ok bytes ∧ Inner x) :
    decodeStep isNfc decode b = .ok x ↔ x.encode isNfc = .ok b ∧ x.Around Inner := by
  unfold decodeStep readLocator
  rw [(exact_take.bind fun bytes => exact_check.bind fun _ => exact_byte.bind fun tag =>
    exact_readVariant inside tag).whole, encode_iff]
  constructor
  · rintro ⟨_, _, _, ⟨rfl, -⟩, ⟨_, _, _, ⟨rfl, rfl⟩,
      ⟨_, _, y, rfl, ⟨⟨rfl, fields⟩, known⟩, rfl⟩, rfl⟩, rfl⟩
    exact ⟨⟨y, fields, rfl⟩, known⟩
  · rintro ⟨⟨y, fields, rfl⟩, known⟩
    exact ⟨_, _, _, ⟨rfl, rfl⟩, ⟨(), _, _, ⟨rfl, rfl⟩,
      ⟨x.tag, _, y, rfl, ⟨⟨rfl, fields⟩, known⟩, rfl⟩, rfl⟩, rfl⟩

end

theorem decode_iff :
    NativeLocator.decode isNfc b = .ok x ↔ x.encode isNfc = .ok b := by
  -- Inside an archive no archive is decoded.
  have innermost (bytes : Bytes) (x : NativeLocator) :
      decodeStep isNfc (fun _ => .error (.invalid "recursive archive locator")) bytes = .ok x ↔
        x.encode isNfc = .ok bytes ∧ x.isArchive = false := by
    have never (bytes : Bytes) (x : NativeLocator) :
        (.error (.invalid "recursive archive locator") : Except UnitCodecError NativeLocator) =
          .ok x ↔
          x.encode isNfc = .ok bytes ∧ False := by simp
    rw [decodeStep_iff never]
    refine and_congr_right fun _ => ?_
    cases x <;> simp [NativeLocator.Around, NativeLocator.isArchive]
  unfold NativeLocator.decode
  rw [decodeStep_iff innermost]
  refine and_iff_left_of_imp ?_
  rintro encoded members inner rfl
  obtain ⟨y, fields, -⟩ := encode_iff.mp encoded
  exact (fields_archive.mp fields).2.1

/-- A locator is decoded from its own encoding and from no other bytes, so that no two locators
share one. -/
theorem codec_bijective (isNfc : NfcTest) :
    (∀ x b, NativeLocator.encode isNfc x = .ok b ↔ NativeLocator.decode isNfc b = .ok x) ∧
    ∀ x y b, NativeLocator.encode isNfc x = .ok b → NativeLocator.encode isNfc y = .ok b →
      x = y := by
  refine ⟨fun x b => decode_iff.symm, ?_⟩
  intro x y b hx hy
  have one := (decode_iff.mpr hx).symm.trans (decode_iff.mpr hy)
  exact Except.ok.inj one

/-- A line in a member of an archive. -/
def sampleLocator : NativeLocator := .archive ["a/b"] (.text 1 2)

theorem codec_bijective_sample : ∃ b, NativeLocator.encode (fun _ => true) sampleLocator = .ok b ∧
    NativeLocator.decode (fun _ => true) b = .ok sampleLocator ∧
    (NativeLocator.encode (fun _ => true) (.text 1 2) = .ok b → sampleLocator = .text 1 2) := by
  have accepted : (NativeLocator.encode (fun _ => true) sampleLocator).isOk = true := by
    decide +kernel
  cases encoded : NativeLocator.encode (fun _ => true) sampleLocator with
  | error =>
    rw [encoded] at accepted
    cases accepted
  | ok b =>
    obtain ⟨round, one⟩ := codec_bijective fun _ => true
    exact ⟨b, rfl, (round _ _).mp encoded, one _ _ _ encoded⟩

end KnowledgePlatform.Search
