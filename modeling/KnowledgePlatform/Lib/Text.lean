import KnowledgePlatform.Lib.Bytes
import Mathlib.Data.List.DropRight

/-! Texts: their size in bytes, classes of characters, trimming and relative paths. -/

namespace KnowledgePlatform

/-- `str::len`: the UTF-8 bytes of a text. -/
def byteLen (text : String) : Nat := (utf8 text.toList).length

/-- `char::is_control`: the category Cc. -/
def isControl (c : Char) : Bool := c.toNat ≤ 0x1F || (0x7F ≤ c.toNat && c.toNat ≤ 0x9F)

/-- `char::is_whitespace`: the property White_Space. -/
def isWhitespace (c : Char) : Bool :=
  (9 ≤ c.toNat && c.toNat ≤ 13) || c.toNat == 0x20 || c.toNat == 0x85 || c.toNat == 0xA0 ||
    c.toNat == 0x1680 || (0x2000 ≤ c.toNat && c.toNat ≤ 0x200A) || c.toNat == 0x2028 ||
    c.toNat == 0x2029 || c.toNat == 0x202F || c.toNat == 0x205F || c.toNat == 0x3000

/-- Nothing is left of it after trimming. -/
def isBlank (text : String) : Bool := text.toList.all isWhitespace

/-- `str::trim`. -/
def trimChars (text : List Char) : List Char :=
  (text.dropWhile isWhitespace).rdropWhile isWhitespace

def trim (text : String) : String := String.ofList (trimChars text.toList)

theorem trimChars_idem (text : List Char) : trimChars (trimChars text) = trimChars text := by
  -- Dropping at the back keeps the first character, which is no white space.
  have front : ∀ kept, kept <+: text.dropWhile isWhitespace →
      kept.dropWhile isWhitespace = kept := by
    rintro kept ⟨rest, whole⟩
    have first := List.head?_dropWhile_not isWhitespace text
    rw [← whole] at first
    cases kept with
    | nil => rfl
    | cons => exact List.dropWhile_cons_of_neg (by simpa using first)
  unfold trimChars
  rw [front _ (List.rdropWhile_prefix _ _), List.rdropWhile_idempotent]

theorem trim_idem (text : String) : trim (trim text) = trim text := by
  simp [trim, trimChars_idem]

/-- A path of named parts, relative to some root, whose length fits four bytes. -/
def IsLogicalPath (value : String) : Prop :=
  ¬ (value = "" ∨ value.toList.head? = some '/' ∨ '\\' ∈ value.toList ∨
    value.toList.any isControl = true ∨ byteLen value ≥ 2 ^ 32 ∨
    ∃ segment ∈ value.toList.splitOn '/', segment = [] ∨ segment = ['.'] ∨ segment = ['.', '.'])

instance (value : String) : Decidable (IsLogicalPath value) := inferInstanceAs (Decidable (¬ _))

end KnowledgePlatform
