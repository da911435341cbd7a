import Mathlib.Data.List.Basic
import Mathlib.Data.Nat.Basic
import Mathlib.Tactic.IntervalCases
import Mathlib.Tactic.Ring

/-! Byte strings: fixed-width big-endian integers, lowercase hexadecimal, UTF-8, UUIDs and
32-byte digests. -/

namespace KnowledgePlatform

open List

/-- Byte strings. -/
abbrev Bytes := List UInt8

instance decidableMemBytes (bytes : Bytes) (all : List Bytes) : Decidable (bytes ∈ all) :=
  inferInstance

/-- The `width` low bytes of `n`, most significant first. -/
def bigEndian : Nat → Nat → Bytes
  | 0, _ => []
  | width + 1, n => bigEndian width (n / 256) ++ [UInt8.ofNat (n % 256)]

@[simp] theorem length_bigEndian (width n : Nat) : (bigEndian width n).length = width := by
  induction width generalizing n with
  | zero => rfl
  | succ _ ih => simp [bigEndian, ih]

theorem bigEndian_inj {width m n : Nat} (h : bigEndian width m = bigEndian width n) :
    m % 256 ^ width = n % 256 ^ width := by
  induction width generalizing m n with
  | zero => simp [Nat.mod_one]
  | succ _ ih =>
    obtain ⟨high, low⟩ := append_inj' h rfl
    have low : m % 256 = n % 256 := by
      have := congrArg UInt8.toNat (cons.inj low).1
      simp only [UInt8.toNat_ofNat'] at this
      omega
    rw [Nat.pow_succ', Nat.mod_mul, Nat.mod_mul, low, ih high]

/-- The bytes after their number, which takes eight. -/
def framed (bytes : Bytes) : Bytes := bigEndian 8 bytes.length ++ bytes

/-- Rust's `i64` and PostgreSQL's `int8`. -/
def InInt64 (n : Int) : Prop := -2 ^ 63 ≤ n ∧ n < 2 ^ 63

instance (n : Int) : Decidable (InInt64 n) := inferInstanceAs (Decidable (_ ∧ _))

/-- `i64::checked_add`. -/
def checkedAdd (a b : Int) : Option Int :=
  if InInt64 (a + b) then some (a + b) else none

theorem checkedAdd_some {x y z : Int} (h : checkedAdd x y = some z) : z = x + y ∧ InInt64 z := by
  unfold checkedAdd at h
  split at h
  next inRange =>
    obtain rfl := Option.some.inj h
    exact ⟨rfl, inRange⟩
  · cases h

/-- `i64::checked_sub`. -/
def checkedSub (a b : Int) : Option Int :=
  if InInt64 (a - b) then some (a - b) else none

/-- Two's complement on eight bytes, most significant first. -/
def int8be (n : Int) : Bytes := bigEndian 8 (n % 2 ^ 64).toNat

@[simp] theorem length_int8be (n : Int) : (int8be n).length = 8 := length_bigEndian _ _

theorem int8be_inj {m n : Int} (hm : InInt64 m) (hn : InInt64 n) (h : int8be m = int8be n) :
    m = n := by
  have h := bigEndian_inj h
  obtain ⟨_, _⟩ := hm
  obtain ⟨_, _⟩ := hn
  simp only [show (256 : Nat) ^ 8 = 2 ^ 64 by norm_num] at h
  omega

/-! ## Hexadecimal -/

def hexDigit (n : Nat) : Char :=
  if n < 10 then Char.ofNat (48 + n) else Char.ofNat (87 + n)

def isLowerHex (c : Char) : Bool :=
  (48 ≤ c.toNat && c.toNat ≤ 57) || (97 ≤ c.toNat && c.toNat ≤ 102)

def hexValue (c : Char) : Nat :=
  if c.toNat ≤ 57 then c.toNat - 48 else c.toNat - 87

theorem hexDigit_hex {n : Nat} (h : n < 16) : isLowerHex (hexDigit n) = true := by
  interval_cases n <;> rfl

@[simp] theorem hexValue_hexDigit {n : Nat} (h : n < 16) : hexValue (hexDigit n) = n := by
  interval_cases n <;> rfl

/-- Two digits to a byte, the high one first. -/
def toHex (bytes : Bytes) : List Char :=
  bytes.flatMap fun b => [hexDigit (b.toNat / 16), hexDigit (b.toNat % 16)]

/-- The bytes a run of hexadecimal digits spells, two digits to a byte. -/
def ofHex : List Char → Bytes
  | high :: low :: rest => UInt8.ofNat (16 * hexValue high + hexValue low) :: ofHex rest
  | _ => []

@[simp] theorem toHex_nil : toHex [] = [] := rfl

@[simp] theorem toHex_cons (b : UInt8) (bytes : Bytes) :
    toHex (b :: bytes) = hexDigit (b.toNat / 16) :: hexDigit (b.toNat % 16) :: toHex bytes := rfl

@[simp] theorem length_toHex (bytes : Bytes) : (toHex bytes).length = 2 * bytes.length := by
  induction bytes with
  | nil => rfl
  | cons _ _ ih => simp [ih]; omega

theorem toHex_hex (bytes : Bytes) : ∀ c ∈ toHex bytes, isLowerHex c = true := by
  intro c hc
  obtain ⟨b, -, hc⟩ := mem_flatMap.mp hc
  have := b.toNat_lt
  simp only [mem_cons, not_mem_nil, or_false] at hc
  obtain rfl | rfl := hc <;> exact hexDigit_hex (by omega)

@[simp] theorem ofHex_toHex (bytes : Bytes) : ofHex (toHex bytes) = bytes := by
  induction bytes with
  | nil => rfl
  | cons b _ ih =>
    have := b.toNat_lt
    rw [toHex_cons, ofHex, ih, hexValue_hexDigit (by omega), hexValue_hexDigit (by omega),
      show 16 * (b.toNat / 16) + b.toNat % 16 = b.toNat by omega, UInt8.ofNat_toNat]

theorem length_ofHex (width : Nat) {text : List Char} (even : text.length = 2 * width) :
    (ofHex text).length = width := by
  induction width generalizing text with
  | zero => rw [eq_nil_of_length_eq_zero even]; rfl
  | succ width ih =>
    match text, even with
    | _ :: _ :: rest, even =>
      have : rest.length = 2 * width := by simp at even; omega
      rw [ofHex, length_cons, ih this]

/-! ## Digests -/

/-- The output of a 256-bit hash. -/
structure Digest where
  bytes : Bytes
  size : bytes.length = 32
deriving DecidableEq

namespace Digest

theorem ext_bytes {a b : Digest} (h : a.bytes = b.bytes) : a = b := by
  cases a; cases b; simp_all

def hex (d : Digest) : String := String.ofList (toHex d.bytes)

/-- Sixty-four lowercase hexadecimal digits. -/
def IsHex (text : String) : Prop :=
  text.toList.length = 64 ∧ ∀ c ∈ text.toList, isLowerHex c = true

instance (text : String) : Decidable (IsHex text) :=
  -- not the instance that goes through every character
  @instDecidableAnd _ _ _ (List.decidableBAll _ _)

/-- Exactly 64 lowercase hexadecimal digits. -/
def ofHex (text : String) : Option Digest :=
  if h : IsHex text then
    some ⟨KnowledgePlatform.ofHex text.toList, length_ofHex 32 h.1⟩
  else none

theorem hex_isHex (d : Digest) : IsHex d.hex := by
  refine ⟨?_, ?_⟩
  · simp [hex, d.size]
  · simpa [hex] using toHex_hex d.bytes

@[simp] theorem ofHex_hex (d : Digest) : ofHex d.hex = some d := by
  rw [ofHex, dif_pos d.hex_isHex]
  exact congrArg some (ext_bytes (by simp [hex]))

theorem hex_inj {a b : Digest} (h : a.hex = b.hex) : a = b := by
  have := congrArg ofHex h
  simpa using this

def filled (byte : UInt8) : Digest := ⟨replicate 32 byte, length_replicate⟩

def padded (bytes : Bytes) : Digest := ⟨(bytes ++ replicate 32 0).take 32, by simp⟩

end Digest

/-! ## UUIDs -/

structure Uuid where
  bytes : Bytes
  size : bytes.length = 16
deriving DecidableEq

namespace Uuid

def filled (byte : UInt8) : Uuid := ⟨replicate 16 byte, length_replicate⟩

theorem ext_bytes {a b : Uuid} (h : a.bytes = b.bytes) : a = b := by
  cases a; cases b; simp_all

/-- Unsigned comparison of the sixteen bytes. -/
def le (a b : Uuid) : Bool := decide (a.bytes ≤ b.bytes)

/-- The four hyphens between the digits of a UUID. -/
def hyphenate (hex : List Char) : List Char :=
  hex.take 8 ++ '-' :: ((hex.drop 8).take 4 ++ '-' :: ((hex.drop 12).take 4 ++
    '-' :: ((hex.drop 16).take 4 ++ '-' :: hex.drop 20)))

/-- The canonical lowercase hyphenated text. -/
def text (u : Uuid) : String := String.ofList (hyphenate (toHex u.bytes))

/-- What may stand at a place of a canonical text. -/
def canonicalAt (c : Char) (i : Nat) : Bool :=
  match i with
  | 8 | 13 | 18 | 23 => c == '-'
  | _ => isLowerHex c

def IsCanonical (text : String) : Prop :=
  text.toList.length = 36 ∧ text.toList.zipIdx.all (fun p => canonicalAt p.1 p.2) = true

instance (text : String) : Decidable (IsCanonical text) := inferInstanceAs (Decidable (_ ∧ _))

/-- The text without its hyphens. -/
def digits (text : String) : List Char := text.toList.filter (· ≠ '-')

theorem hex_ne_hyphen {c : Char} (h : isLowerHex c = true) : c ≠ '-' := by
  rintro rfl
  exact absurd h (by decide)

/-- A canonical text is its 32 digits with the four hyphens put back. -/
theorem canonical_digits {text : String} (h : IsCanonical text) :
    (digits text).length = 32 ∧ (∀ c ∈ digits text, isLowerHex c = true) ∧
      hyphenate (digits text) = text.toList := by
  obtain ⟨size, all⟩ := h
  unfold digits
  match text.toList, size, all with
  | a0 :: a1 :: a2 :: a3 :: a4 :: a5 :: a6 :: a7 :: h0 :: b0 :: b1 :: b2 :: b3 :: h1 :: c0 :: c1 ::
      c2 :: c3 :: h2 :: d0 :: d1 :: d2 :: d3 :: h3 :: e0 :: e1 :: e2 :: e3 :: e4 :: e5 :: e6 ::
      e7 :: e8 :: e9 :: e10 :: e11 :: [], _, all =>
    simp only [zipIdx_cons, zipIdx_nil, all_cons, all_nil, canonicalAt,
      Nat.reduceAdd, Bool.and_eq_true, Bool.and_true, beq_iff_eq] at all
    simp only [filter_cons, hex_ne_hyphen, all, ne_eq, not_false_eq_true, decide_true,
      not_true_eq_false, decide_false, if_true, Bool.false_eq_true, if_false, filter_nil]
    simp [hyphenate, all]

/-- Reads the canonical text only; every caller checks `IsCanonical` first. -/
def parse (text : String) : Option Uuid :=
  if h : IsCanonical text then
    some ⟨ofHex (digits text), length_ofHex 16 (canonical_digits h).1⟩
  else none

theorem text_canonical (u : Uuid) : IsCanonical u.text := by
  obtain ⟨bytes, size⟩ := u
  match bytes, size with
  | b0 :: b1 :: b2 :: b3 :: b4 :: b5 :: b6 :: b7 :: b8 :: b9 :: b10 :: b11 :: b12 :: b13 :: b14 ::
      b15 :: [], _ =>
    have high (b : UInt8) : isLowerHex (hexDigit (b.toNat / 16)) = true :=
      hexDigit_hex (by have := b.toNat_lt; omega)
    have low (b : UInt8) : isLowerHex (hexDigit (b.toNat % 16)) = true :=
      hexDigit_hex (by omega)
    simp [IsCanonical, text, hyphenate, canonicalAt, high, low]

theorem digits_text (u : Uuid) : digits u.text = toHex u.bytes := by
  have keep {l : List Char} (h : ∀ c ∈ l, c ∈ toHex u.bytes) : l.filter (· ≠ '-') = l :=
    filter_eq_self.mpr fun c hc => by simpa using hex_ne_hyphen (toHex_hex _ c (h c hc))
  simp only [digits, text, hyphenate, String.toList_ofList, filter_append, filter_cons]
  rw [keep (fun c hc => mem_of_mem_take hc),
    keep (fun c hc => mem_of_mem_drop (mem_of_mem_take hc)),
    keep (fun c hc => mem_of_mem_drop (mem_of_mem_take hc)),
    keep (fun c hc => mem_of_mem_drop (mem_of_mem_take hc)),
    keep (fun c hc => mem_of_mem_drop hc)]
  have join (i n : Nat) : ((toHex u.bytes).drop i).take n ++ (toHex u.bytes).drop (i + n) =
      (toHex u.bytes).drop i := by
    rw [← drop_drop, take_append_drop]
  simp only [ne_eq, not_true_eq_false, decide_false, Bool.false_eq_true, if_false]
  rw [join 16 4, join 12 4, join 8 4, take_append_drop]

@[simp] theorem parse_text (u : Uuid) : parse u.text = some u := by
  rw [parse, dif_pos u.text_canonical]
  exact congrArg some (ext_bytes (by simp [digits_text]))

theorem text_inj {a b : Uuid} (h : a.text = b.text) : a = b := by
  have := congrArg parse h
  simpa using this

theorem canonicalAt_lower {c : Char} {i : Nat} (h : canonicalAt c i = true) : c.toLower = c := by
  have notUpper : c = '-' ∨ isLowerHex c = true := by
    unfold canonicalAt at h
    split at h
    all_goals simp_all
  have small : ¬ (c.val ≥ 65 ∧ c.val ≤ 90) := by
    rintro ⟨ge, le⟩
    obtain rfl | hex := notUpper
    · exact absurd ge (by decide)
    · have ge : 65 ≤ c.toNat := ge
      have le : c.toNat ≤ 90 := le
      simp only [isLowerHex, Bool.or_eq_true, Bool.and_eq_true, decide_eq_true_eq] at hex
      omega
  unfold Char.toLower
  exact dif_neg small

/-- Reads any of the written forms: digits of either case, bare or hyphenated, the latter also in
braces or as a URN. -/
def parseStr (text : String) : Option Uuid :=
  let chars := text.toList.map Char.toLower
  match chars.length with
  | 32 => parse (String.ofList (hyphenate chars))
  | 36 => parse (String.ofList chars)
  | 38 =>
    if text.toList.head? = some '\x7b' ∧ text.toList.getLast? = some '\x7d' then
      parse (String.ofList ((chars.drop 1).take 36))
    else none
  | 45 =>
    if text.toList.take 9 = "urn:uuid:".toList then parse (String.ofList (chars.drop 9)) else none
  | _ => none

@[simp] theorem parseStr_text (u : Uuid) : parseStr u.text = some u := by
  obtain ⟨size, all⟩ := u.text_canonical
  have lower : u.text.toList.map Char.toLower = u.text.toList := by
    rw [map_congr_left (g := id), map_id]
    intro c hc
    obtain ⟨i, hi, rfl⟩ := getElem_of_mem hc
    have here := mk_mem_zipIdx_iff_getElem?.mpr (getElem?_eq_getElem hi)
    exact canonicalAt_lower (all_eq_true.mp all _ here)
  simp only [parseStr, lower, size, String.ofList_toList, parse_text]

end Uuid

/-! ## UTF-8 -/

/-- The UTF-8 encoding of a text. -/
def utf8 (text : List Char) : Bytes := text.flatMap String.utf8EncodeChar

theorem utf8_inj {a b : List Char} (h : utf8 a = utf8 b) : a = b := by
  have h : (String.ofList a).toByteArray = (String.ofList b).toByteArray := by
    simp only [utf8] at h
    simp [utf8Encode, h]
  have := String.toByteArray_inj.mp h
  simpa using congrArg String.toList this

end KnowledgePlatform
