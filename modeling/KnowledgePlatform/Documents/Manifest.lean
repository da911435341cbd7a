import KnowledgePlatform.Documents.Versioning
import KnowledgePlatform.Lib.Framing
import Mathlib.Data.Prod.Lex
import Mathlib.Data.String.Basic

/-! What the identity of a version says: which manifests share a digest. -/

namespace KnowledgePlatform.Documents

open List

/-! ## Making items and manifests -/

inductive DomainError where
  | blankTitle
  | invalidLogicalPath
  | invalidContentManifest
  | duplicateContentItemKey
  | invalidSemanticFormat
  | invalidInspectionProfile
deriving DecidableEq

def newTitle (value : String) : Except DomainError String := do
  ensure (trim value ≠ "") .blankTitle
  return trim value

def newLogicalPath (nfc : String → String) (value : String) : Except DomainError String := do
  ensure (IsLogicalPath (nfc value)) .invalidLogicalPath
  return nfc value

def isIdentifierByte (byte : UInt8) : Bool :=
  (48 ≤ byte && byte ≤ 57) || (65 ≤ byte && byte ≤ 90) || (97 ≤ byte && byte ≤ 122) ||
    byte = 46 || byte = 45 || byte = 95 || byte = 43

def validIdentifier (value : String) : Bool :=
  decide (value ≠ "" ∧ byteLen value < 2 ^ 32) && (utf8 value.toList).all isIdentifierByte

def SemanticContentItem.new (logicalPath : String) (ordinal : UInt32)
    (formatId inspectionProfileId : String) (semanticFingerprint : Digest) :
    Except DomainError SemanticContentItem := do
  ensure (validIdentifier formatId = true) .invalidSemanticFormat
  ensure (validIdentifier inspectionProfileId = true) .invalidInspectionProfile
  return ⟨logicalPath, ordinal.toNat, formatId, inspectionProfileId, semanticFingerprint⟩

/-- Items are ordered by their ordinals, then by the bytes of their paths. -/
def SemanticContentItem.key (item : SemanticContentItem) : Lex (Nat × String) :=
  toLex (item.ordinal, item.logicalPath)

/-- `\r\n` and `\r` become `\n`. -/
def unixNewlines : List Char → List Char
  | '\r' :: '\n' :: rest | '\r' :: rest => '\n' :: unixNewlines rest
  | c :: rest => c :: unixNewlines rest
  | [] => []

/-- Whether two items next to each other have the same key. -/
def repeatsKey : List SemanticContentItem → Bool
  | a :: b :: rest => decide (a.key = b.key) || repeatsKey (b :: rest)
  | _ => false

def VersionManifest.new (nfc : String → String) (title : String)
    (items : List SemanticContentItem) :
    Except DomainError VersionManifest := do
  ensure (items ≠ [] ∧ items.length < 2 ^ 32) .invalidContentManifest
  let title ← newTitle (trim (nfc (String.ofList (unixNewlines title.toList))))
  ensure (byteLen title < 2 ^ 32) .invalidContentManifest
  let items := sortOn SemanticContentItem.key items
  ensure (repeatsKey items = false) .duplicateContentItemKey
  return ⟨title, items⟩

/-- An item that was made from a path and identifiers that passed. -/
def SemanticContentItem.Made (nfc : String → String) (item : SemanticContentItem) : Prop :=
  ∃ path logicalPath ordinal formatId profileId fingerprint,
    newLogicalPath nfc path = .ok logicalPath ∧
      new logicalPath ordinal formatId profileId fingerprint = .ok item

section

variable {nfc : String → String} {title : String} {xs ys : List SemanticContentItem}
  {m : VersionManifest} {x y : SemanticContentItem} {s t : Bytes}

/-! ## Accepted lists -/

/-- Sorted items of which no two neighbours share their key have keys of their own. -/
theorem strictly_sorted (sorted : xs.Pairwise fun a b => a.key ≤ b.key)
    (apart : repeatsKey xs = false) : xs.Pairwise fun a b => a.key < b.key := by
  induction xs with
  | nil => exact .nil
  | cons a rest ih =>
    obtain ⟨above, sorted⟩ := pairwise_cons.mp sorted
    cases rest with
    | nil => exact pairwise_singleton _ a
    | cons b rest =>
      rw [repeatsKey, Bool.or_eq_false_iff, decide_eq_false_iff_not] at apart
      have rising := ih sorted apart.2
      have first : a.key < b.key := lt_of_le_of_ne (above b mem_cons_self) apart.1
      refine pairwise_cons.mpr ⟨forall_mem_cons.mpr ⟨first, ?_⟩, rising⟩
      exact fun c later => first.trans ((pairwise_cons.mp rising).1 c later)

/-- What a manifest holds of the title and the list it is made from. -/
structure HoldsOf (nfc : String → String) (title : String) (xs : List SemanticContentItem)
    (m : VersionManifest) : Prop where
  counted : m.items.length < 2 ^ 32
  titled : newTitle (trim (nfc (String.ofList (unixNewlines title.toList)))) = .ok m.title
  short : byteLen m.title < 2 ^ 32
  perm : m.items.Perm xs
  rising : m.items.Pairwise fun a b => a.key < b.key

theorem VersionManifest.new_holds (h : VersionManifest.new nfc title xs = .ok m) :
    HoldsOf nfc title xs m := by
  simp only [VersionManifest.new, except_iffs] at h
  obtain ⟨⟨-, counted⟩, _, titled, short, apart, rfl⟩ := h
  have perm := sortOn_perm SemanticContentItem.key xs
  exact ⟨perm.length_eq ▸ counted, titled, short, perm, strictly_sorted (sortOn_sorted _ xs) apart⟩

/-! ## What is hashed -/

theorem field_append {a b : String} (ha : byteLen a < 2 ^ 32) (hb : byteLen b < 2 ^ 32)
    (same : digestField (utf8 a.toList) ++ s = digestField (utf8 b.toList) ++ t) :
    a = b ∧ s = t := by
  obtain ⟨text, rest⟩ := Framing.splits_frame _ _ s t (Framing.frame_iff (e := ()).mpr ⟨ha, rfl⟩)
    (Framing.frame_iff.mpr ⟨hb, rfl⟩) same
  exact ⟨String.toList_inj.mp (utf8_inj text), rest⟩

theorem validIdentifier_short {value : String} (h : validIdentifier value = true) :
    byteLen value < 2 ^ 32 := by
  rw [validIdentifier, Bool.and_eq_true, decide_eq_true_eq] at h
  exact h.1.2

/-- The lengths and the ordinal of an item fit their four bytes. -/
theorem SemanticContentItem.Made.fits (h : x.Made nfc) :
    byteLen x.logicalPath < 2 ^ 32 ∧ x.ordinal < 2 ^ 32 ∧
      byteLen x.formatId < 2 ^ 32 ∧ byteLen x.inspectionProfileId < 2 ^ 32 := by
  obtain ⟨_, _, ordinal, _, _, _, path, made⟩ := h
  simp only [newLogicalPath, SemanticContentItem.new, except_iffs] at path made
  obtain ⟨valid, rfl⟩ := path
  obtain ⟨format, profile, rfl⟩ := made
  simp only [IsLogicalPath, not_or, not_le] at valid
  exact ⟨valid.2.2.2.2.1, ordinal.toNat_lt, validIdentifier_short format,
    validIdentifier_short profile⟩

theorem item_append (hx : x.Made nfc) (hy : y.Made nfc) (same : x.bytes ++ s = y.bytes ++ t) :
    x = y ∧ s = t := by
  obtain ⟨pathX, ordinalX, formatX, profileX⟩ := hx.fits
  obtain ⟨pathY, ordinalY, formatY, profileY⟩ := hy.fits
  simp only [SemanticContentItem.bytes, append_assoc] at same
  obtain ⟨path, same⟩ := field_append pathX pathY same
  obtain ⟨ordinal, same⟩ := append_inj same (by simp)
  obtain ⟨format, same⟩ := field_append formatX formatY same
  obtain ⟨profile, same⟩ := field_append profileX profileY same
  obtain ⟨fingerprint, rest⟩ := append_inj same
    (x.semanticFingerprint.size.trans y.semanticFingerprint.size.symm)
  have ordinal : x.ordinal = y.ordinal := by
    have number := bigEndian_inj ordinal
    omega
  refine ⟨?_, rest⟩
  rw [SemanticContentItem.mk.injEq]
  exact ⟨path, ordinal, format, profile, Digest.ext_bytes fingerprint⟩

theorem items_inj (hx : ∀ x ∈ xs, x.Made nfc) (hy : ∀ y ∈ ys, y.Made nfc)
    (size : xs.length = ys.length)
    (same : xs.flatMap SemanticContentItem.bytes = ys.flatMap SemanticContentItem.bytes) :
    xs = ys := by
  induction xs generalizing ys with
  | nil => exact (eq_nil_of_length_eq_zero size.symm).symm
  | cons x xs ih =>
    cases ys with
    | nil => cases size
    | cons =>
      rw [forall_mem_cons] at hx hy
      obtain ⟨rfl, rest⟩ := item_append hx.1 hy.1 same
      rw [ih hx.2 hy.2 (Nat.succ.inj size) rest]

/-- The string under a manifest's digest. -/
def VersionManifest.hashed (m : VersionManifest) : Bytes :=
  utf8 "document-version-identity-v0\x00".toList ++ digestField (utf8 m.title.toList) ++
    bigEndian 4 m.items.length ++ m.items.flatMap SemanticContentItem.bytes

end

/-- For one title the digest does not depend on the order of the items; and equal digests are of the
same items, unless the two hashed strings collide. -/
theorem manifest_identity {nfc : String → String} {sha256 : Bytes → Digest} {s t : String}
    {xs ys : List SemanticContentItem} {m n : VersionManifest}
    (hx : ∀ x ∈ xs, x.Made nfc) (hy : ∀ y ∈ ys, y.Made nfc)
    (hm : VersionManifest.new nfc s xs = .ok m) (hn : VersionManifest.new nfc t ys = .ok n) :
    (s = t → xs.Perm ys → m.identityDigest sha256 = n.identityDigest sha256) ∧
      (m.identityDigest sha256 = n.identityDigest sha256 → (m.title = n.title ∧ xs.Perm ys) ∨
        m.hashed ≠ n.hashed ∧ sha256 m.hashed = sha256 n.hashed) := by
  have first := VersionManifest.new_holds hm
  have second := VersionManifest.new_holds hn
  constructor
  · rintro rfl perm
    have title : m.title = n.title := Except.ok.inj (first.titled.symm.trans second.titled)
    have items : m.items = n.items := by
      refine (first.perm.trans (perm.trans second.perm.symm)).eq_of_pairwise ?_ first.rising
        second.rising
      intro a b _ _ below above
      exact absurd (below.trans above) (lt_irrefl _)
    rw [VersionManifest.identityDigest, VersionManifest.identityDigest, title, items]
  · intro same
    by_cases equal : m.hashed = n.hashed
    · left
      simp only [VersionManifest.hashed, append_assoc] at equal
      obtain ⟨title, equal⟩ := field_append first.short second.short (append_cancel_left equal)
      obtain ⟨number, equal⟩ := append_inj equal (by simp)
      have size : m.items.length = n.items.length := by
        have number := bigEndian_inj number
        have := first.counted
        have := second.counted
        omega
      have items := items_inj (fun x inside => hx x (first.perm.mem_iff.mp inside))
        (fun y inside => hy y (second.perm.mem_iff.mp inside)) size equal
      obtain rfl : m = n := VersionManifest.mk.injEq .. ▸ ⟨title, items⟩
      exact ⟨rfl, first.perm.symm.trans second.perm⟩
    · exact .inr ⟨equal, same⟩

def sampleItem (path : String) (ordinal : UInt32) : SemanticContentItem :=
  ⟨path, ordinal.toNat, "docx", "v1", .filled 0⟩

theorem manifest_identity_swapped : ∃ m n,
    VersionManifest.new id "t" [sampleItem "b" 1, sampleItem "a" 0] = .ok m ∧
    VersionManifest.new id "t" [sampleItem "a" 0, sampleItem "b" 1] = .ok n ∧
    ∀ sha256, m.identityDigest sha256 = n.identityDigest sha256 := by
  have accepted : (VersionManifest.new id "t" [sampleItem "b" 1, sampleItem "a" 0]).isOk = true ∧
      (VersionManifest.new id "t" [sampleItem "a" 0, sampleItem "b" 1]).isOk = true := by
    decide +kernel
  obtain ⟨m, hm⟩ := isOk_exists accepted.1
  obtain ⟨n, hn⟩ := isOk_exists accepted.2
  have a : (sampleItem "a" 0).Made id := ⟨"a", "a", 0, "docx", "v1", _, by decide +kernel, rfl⟩
  have b : (sampleItem "b" 1).Made id := ⟨"b", "b", 1, "docx", "v1", _, by decide +kernel, rfl⟩
  refine ⟨m, n, hm, hn, fun sha256 => (manifest_identity ?_ ?_ hm hn).1 rfl (.swap _ _ _)⟩
  · simp [a, b]
  · simp [a, b]

end KnowledgePlatform.Documents
