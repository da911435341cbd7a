import Mathlib.Data.Nat.Digits.Defs
import KnowledgePlatform.Lib.Decimal
import KnowledgePlatform.Lib.Delimited
import KnowledgePlatform.Graph.Relation

/-! The debug texts of typed values, as the derived formatting writes them. -/

namespace KnowledgePlatform.Search

open Decimal (int isDigit nat nat_digits readInt readInt_int readNat readNat_nat)
open List
open Graph (Date Duration OffsetDateTime DecimalValue MoneyValue QuantityValue TypedValue)
open Delimited

/-- Between the fields of a key. -/
def unitSeparator : Char := '\x1f'

/-- What a payload in brackets may hold. -/
def Bracketed (text : List Char) : Prop := ')' ∉ text ∧ unitSeparator ∉ text

/-- The texts other libraries write: which characters a quoted text writes by their number, which
is decided by tables of the Unicode standard, and dates, instants and durations. -/
structure DebugFormat where
  unprintable : Char → Bool
  date : Date → List Char
  dateTime : OffsetDateTime → List Char
  duration : Duration → List Char
  unprintable_separator : unprintable unitSeparator = true
  date_injective : Function.Injective date
  dateTime_injective : Function.Injective dateTime
  duration_injective : Function.Injective duration
  date_bracketed : ∀ d, Bracketed (date d)
  dateTime_bracketed : ∀ t, Bracketed (dateTime t)
  duration_bracketed : ∀ d, Bracketed (duration d)

/-- Hexadecimal digits, without leading zeros. -/
def hexNumber (n : Nat) : List Char := (Nat.digits 16 n).reverse.map hexDigit

/-- Characters with an escape of their own. -/
def shortEscapes : List (Char × Char) :=
  [('\x00', '0'), ('\t', 't'), ('\r', 'r'), ('\n', 'n'), ('\\', '\\'), ('"', '"')]

namespace DebugFormat

variable (d : DebugFormat)

def escapeChar (c : Char) : List Char :=
  match shortEscapes.find? fun e => e.1 = c with
  | some e => ['\\', e.2]
  | none =>
    if d.unprintable c then ['\\', 'u', '\x7b'] ++ hexNumber c.toNat ++ ['\x7d'] else [c]

def quoted (text : String) : List Char := '"' :: (text.toList.flatMap d.escapeChar ++ ['"'])

def decimalValue (v : DecimalValue) : List Char :=
  "DecimalValue \x7b coefficient: ".toList ++ (int v.coefficient.val ++ [',']) ++
    (" scale: ".toList ++ (nat v.scale.toNat ++ [' ']) ++ ['\x7d'])

def moneyValue (v : MoneyValue) : List Char :=
  "MoneyValue \x7b amount_minor: ".toList ++ (int v.amountMinor.val ++ [',']) ++
    (" currency: ".toList ++ d.quoted v.currency ++ " \x7d".toList)

def quantityValue (v : QuantityValue) : List Char :=
  "QuantityValue \x7b amount: ".toList ++ decimalValue v.amount ++
    (", unit: ".toList ++ d.quoted v.unit ++ " \x7d".toList)

def tuple (name payload : List Char) : List Char := name ++ '(' :: (payload ++ [')'])

mutual

def typedValue : TypedValue → List Char
  | .bool b => tuple "Bool".toList (if b then "true".toList else "false".toList)
  | .string text => tuple "String".toList (d.quoted text)
  | .integer n => tuple "Integer".toList (int n.val)
  | .decimal v => tuple "Decimal".toList (decimalValue v)
  | .date v => tuple "Date".toList (d.date v)
  | .dateTime v => tuple "DateTime".toList (d.dateTime v)
  | .duration v => tuple "Duration".toList (d.duration v)
  | .conceptRef text => tuple "ConceptRef".toList (d.quoted text)
  | .resourceRef id => tuple "ResourceRef".toList (tuple "ResourceId".toList id.text.toList)
  | .list items => tuple "List".toList ('[' :: (typedValues items ++ [']']))
  | .set items => tuple "Set".toList ('[' :: (typedValues items ++ [']']))
  | .money v => tuple "Money".toList (d.moneyValue v)
  | .quantity v => tuple "Quantity".toList (d.quantityValue v)

def typedValues : List TypedValue → List Char
  | [] => []
  | [v] => typedValue v
  | v :: w :: rest => typedValue v ++ [',', ' '] ++ typedValues (w :: rest)

end

/-! ## Quoted texts -/

theorem hexNumber_injective : Function.Injective hexNumber := by
  intro m n same
  have small : ∀ k, ∀ x ∈ (Nat.digits 16 k).reverse, x < 16 := by
    intro k x hx
    exact Nat.digits_lt_base (by decide) (mem_reverse.mp hx)
  have digits : (Nat.digits 16 m).reverse = (Nat.digits 16 n).reverse := by
    have read := congrArg (map hexValue) same
    simp only [hexNumber, map_map] at read
    have back : ∀ k, (Nat.digits 16 k).reverse.map (hexValue ∘ hexDigit) =
        (Nat.digits 16 k).reverse := by
      intro k
      calc (Nat.digits 16 k).reverse.map (hexValue ∘ hexDigit)
          = (Nat.digits 16 k).reverse.map id :=
            map_congr_left fun x hx => hexValue_hexDigit (small k x hx)
        _ = (Nat.digits 16 k).reverse := map_id _
    rwa [back, back] at read
  exact Nat.digits_inj_iff.mp (reverse_injective digits)

variable {n : Nat} {c : Char}

theorem hexNumber_hex (hc : c ∈ hexNumber n) : isLowerHex c = true := by
  obtain ⟨x, hx, rfl⟩ := mem_map.mp hc
  exact hexDigit_hex (Nat.digits_lt_base (by decide) (mem_reverse.mp hx))

theorem hexNumber_avoids (other : isLowerHex c = false) : c ∉ hexNumber n := by
  intro hc
  rw [hexNumber_hex hc] at other
  cases other

/-- The three forms of an escaped character. -/
inductive Escape (c : Char) : List Char → Prop where
  | short (e : Char) (listed : (c, e) ∈ shortEscapes) : Escape c ['\\', e]
  | number : Escape c (['\\', 'u', '\x7b'] ++ hexNumber c.toNat ++ ['\x7d'])
  | plain (unlisted : c ≠ '\\' ∧ c ≠ '"') (printable : d.unprintable c = false) : Escape c [c]

theorem escapeChar_escape (c : Char) : d.Escape c (d.escapeChar c) := by
  unfold escapeChar
  split
  next e found =>
    have matched := find?_some found
    rw [decide_eq_true_eq] at matched
    subst matched
    exact .short e.2 (mem_of_find?_eq_some found)
  next unlisted =>
    rw [find?_eq_none] at unlisted
    split
    · exact .number
    next printable =>
      refine .plain ⟨?_, ?_⟩ (Bool.eq_false_iff.mpr printable)
      · rintro rfl
        exact unlisted ('\\', '\\') (by decide) (by decide)
      · rintro rfl
        exact unlisted ('"', '"') (by decide) (by decide)

variable {x : Char}

theorem shortEscapes_inj {y e : Char} (hx : (x, e) ∈ shortEscapes) (hy : (y, e) ∈ shortEscapes) :
    x = y := by
  have all : ∀ p ∈ shortEscapes, ∀ q ∈ shortEscapes, p.2 = q.2 → p.1 = q.1 := by decide
  exact all _ hx _ hy rfl

theorem shortEscapes_ne {e : Char} (hx : (x, e) ∈ shortEscapes) : e ≠ 'u' := by
  have all : ∀ p ∈ shortEscapes, p.2 ≠ 'u' := by decide
  exact all _ hx

variable {a s t : List Char}

theorem Escape.unique {y : Char} {b : List Char} (hx : d.Escape x a) (hy : d.Escape y b)
    (same : a ++ s = b ++ t) : x = y ∧ s = t := by
  cases hx <;> cases hy <;>
    simp only [cons_append, nil_append, append_assoc, cons.injEq, true_and] at same
  case short.short e listed e' listed' =>
    obtain ⟨rfl, rest⟩ := same
    exact ⟨shortEscapes_inj listed listed', rest⟩
  case short.number e listed => exact absurd same.1 (shortEscapes_ne listed)
  case number.short e listed => exact absurd same.1.symm (shortEscapes_ne listed)
  case number.number =>
    obtain ⟨numbers, rest⟩ := split_first (hexNumber_avoids rfl) (hexNumber_avoids rfl) same
    exact ⟨Char.toNat_inj.mp (hexNumber_injective numbers), rest⟩
  case short.plain unlisted _ | number.plain unlisted _ => exact absurd same.1.symm unlisted.1
  case plain.short unlisted _ _ _ | plain.number unlisted _ => exact absurd same.1 unlisted.1
  case plain.plain => exact same

theorem Escape.head (h : d.Escape c a) :
    (a ++ s).head? ≠ some '"' := by
  cases h with
  | short | number => simp
  | plain unlisted => simpa using unlisted.2

theorem Escape.avoids (h : d.Escape c a) : unitSeparator ∉ a := by
  cases h with
  | short e listed =>
    have all : ∀ p ∈ shortEscapes, unitSeparator ≠ p.2 := by decide
    simp only [mem_cons, not_mem_nil, or_false, not_or]
    exact ⟨by decide, all _ listed⟩
  | number =>
    have digits : unitSeparator ∉ hexNumber c.toNat := hexNumber_avoids rfl
    simp only [mem_append, mem_cons, not_mem_nil, or_false, not_or]
    exact ⟨⟨⟨by decide, by decide, by decide⟩, digits⟩, by decide⟩
  | plain _ printable =>
    simp only [mem_cons, not_mem_nil, or_false]
    rintro rfl
    rw [d.unprintable_separator] at printable
    cases printable

theorem quoted_delimits : Delimits d.quoted := by
  have chars : Delimits d.escapeChar := fun x y _ _ same =>
    (d.escapeChar_escape x).unique d (d.escapeChar_escape y) same
  have blocks := delimits_blocks chars fun x _ => (d.escapeChar_escape x).head d
  exact (blocks.comp (e := String.toList) fun _ _ same => String.toList_inj.mp same).after ['"']

theorem quoted_avoids (text : String) : unitSeparator ∉ d.quoted text := by
  intro h
  simp only [quoted, mem_cons, mem_append, mem_flatMap, not_mem_nil,
    or_false] at h
  obtain mark | ⟨c, -, hc⟩ | mark := h
  · exact absurd mark (by decide)
  · exact (d.escapeChar_escape c).avoids d hc
  · exact absurd mark (by decide)

/-! ## Numbers and records -/

theorem digit_of_mem_int {n : Int} (hc : c ∈ int n) :
    c = '-' ∨ isDigit c = true := by
  unfold int at hc
  split at hc
  · obtain rfl | hc := mem_cons.mp hc
    · exact .inl rfl
    · exact .inr (nat_digits _ c hc)
  · exact .inr (nat_digits _ c hc)

theorem int_avoids {n : Int} (sign : c ≠ '-') (other : isDigit c = false) :
    c ∉ int n := by
  intro hc
  obtain rfl | digit := digit_of_mem_int hc
  · exact sign rfl
  · rw [digit] at other
    cases other

theorem nat_avoids (other : isDigit c = false) :
    c ∉ nat n := by
  intro hc
  rw [nat_digits n c hc] at other
  cases other

theorem int_injective : Function.Injective int := by
  intro m n same
  have read := congrArg readInt same
  rw [readInt_int, readInt_int] at read
  exact Option.some.inj read

theorem nat_injective : Function.Injective nat := by
  intro m n same
  have read := congrArg readNat same
  rw [readNat_nat, readNat_nat] at read
  exact Option.some.inj read

theorem int_until (sign : c ≠ '-') (other : isDigit c = false) :
    Delimits fun n : Int => int n ++ [c] :=
  delimits_until int_injective fun _ => int_avoids sign other

theorem nat_until (other : isDigit c = false) :
    Delimits fun n : Nat => nat n ++ [c] :=
  delimits_until nat_injective fun _ => nat_avoids other

theorem decimalValue_delimits : Delimits decimalValue := by
  have fields := ((int_until (c := ',') (by decide) rfl).after
    "DecimalValue \x7b coefficient: ".toList).pair
    (((nat_until (c := ' ') rfl).after " scale: ".toList).before ['\x7d'])
  refine fields.comp (e := fun v : DecimalValue => (v.coefficient.val, v.scale.toNat)) ?_
  rintro ⟨m, a⟩ ⟨n, b⟩ same
  obtain ⟨coefficients, scales⟩ := Prod.mk.inj same
  rw [DecimalValue.mk.injEq]
  exact ⟨Subtype.ext coefficients, UInt8.toNat_inj.mp scales⟩

theorem moneyValue_delimits : Delimits d.moneyValue := by
  have fields := ((int_until (c := ',') (by decide) rfl).after
    "MoneyValue \x7b amount_minor: ".toList).pair
    ((d.quoted_delimits.after " currency: ".toList).before " \x7d".toList)
  refine fields.comp (e := fun v : MoneyValue => (v.amountMinor.val, v.currency)) ?_
  rintro ⟨m, a⟩ ⟨n, b⟩ same
  obtain ⟨amounts, currencies⟩ := Prod.mk.inj same
  rw [MoneyValue.mk.injEq]
  exact ⟨Subtype.ext amounts, currencies⟩

theorem quantityValue_delimits : Delimits d.quantityValue := by
  have fields := (decimalValue_delimits.after "QuantityValue \x7b amount: ".toList).pair
    ((d.quoted_delimits.after ", unit: ".toList).before " \x7d".toList)
  refine fields.comp (e := fun v : QuantityValue => (v.amount, v.unit)) ?_
  rintro ⟨m, a⟩ ⟨n, b⟩ same
  obtain ⟨amounts, units⟩ := Prod.mk.inj same
  rw [QuantityValue.mk.injEq]
  exact ⟨amounts, units⟩

/-! ## Values -/

def variant : TypedValue → String
  | .bool _ => "Bool"
  | .string _ => "String"
  | .integer _ => "Integer"
  | .decimal _ => "Decimal"
  | .date _ => "Date"
  | .dateTime _ => "DateTime"
  | .duration _ => "Duration"
  | .conceptRef _ => "ConceptRef"
  | .resourceRef _ => "ResourceRef"
  | .list _ => "List"
  | .set _ => "Set"
  | .money _ => "Money"
  | .quantity _ => "Quantity"

theorem typedValue_variant (v : TypedValue) :
    ∃ payload, d.typedValue v = tuple (variant v).toList payload := by
  cases v <;> exact ⟨_, by rw [typedValue, variant]⟩

theorem variant_avoids (v : TypedValue) : '(' ∉ (variant v).toList := by
  cases v <;> rw [variant] <;> decide

theorem tuple_inj {n p q : List Char} (same : tuple n p ++ s = tuple n q ++ t) :
    p ++ ')' :: s = q ++ ')' :: t := by
  simp only [tuple, append_assoc, cons_append, nil_append] at same
  exact (cons.inj (append_cancel_left same)).2

/-- A bracketed payload that delimits itself. -/
theorem tuple_delimits {α : Type} {f : α → List Char} (name : List Char) (h : Delimits f) :
    Delimits fun x => tuple name (f x) := by
  intro x y s t same
  obtain ⟨values, rest⟩ := h x y _ _ (tuple_inj same)
  exact ⟨values, (cons.inj rest).2⟩

/-- A bracketed payload that ends at the bracket. -/
theorem tuple_until {α : Type} {f : α → List Char} (name : List Char)
    (inj : Function.Injective f) (avoids : ∀ x, ')' ∉ f x) :
    Delimits fun x => tuple name (f x) := by
  intro x y s t same
  obtain ⟨texts, rest⟩ := split_first (avoids x) (avoids y) (tuple_inj same)
  exact ⟨inj texts, rest⟩

theorem uuid_char {id : Uuid} (hc : c ∈ id.text.toList) :
    c = '-' ∨ isLowerHex c = true := by
  by_cases hyphen : c = '-'
  · exact .inl hyphen
  · have digit : c ∈ Uuid.digits id.text := mem_filter.mpr ⟨hc, by simpa using hyphen⟩
    rw [Uuid.digits_text] at digit
    exact .inr (toHex_hex _ c digit)

theorem uuid_avoids {id : Uuid} (hyphen : c ≠ '-') (other : isLowerHex c = false) :
    c ∉ id.text.toList := by
  intro hc
  obtain rfl | digit := uuid_char hc
  · exact hyphen rfl
  · rw [digit] at other
    cases other

theorem uuid_text_injective : Function.Injective fun id : Uuid => id.text.toList :=
  fun _ _ same => Uuid.text_inj (String.toList_inj.mp same)

theorem bool_until : Delimits fun b : Bool =>
    tuple "Bool".toList (if b then "true".toList else "false".toList) := by
  apply tuple_until
  · intro a b same
    revert a b
    decide
  · decide

/-- No list and no set. -/
def scalar : TypedValue → Bool
  | .list _ => false
  | .set _ => false
  | _ => true

theorem typedValue_unique {x y : TypedValue} (hx : scalar x = true) (hy : scalar y = true)
    (same : d.typedValue x ++ s = d.typedValue y ++ t) : x = y ∧ s = t := by
  have variants : variant x = variant y := by
    obtain ⟨p, hp⟩ := d.typedValue_variant x
    obtain ⟨q, hq⟩ := d.typedValue_variant y
    simp only [hp, hq, tuple, append_assoc, cons_append, nil_append] at same
    exact String.toList_inj.mp (split_first (variant_avoids x) (variant_avoids y) same).1
  -- Values of two variants have two names; the payload decides within one.
  cases x <;> cases y <;> try first
    | exact absurd variants (by simp only [variant]; decide)
    | cases hx
  all_goals
    simp only [typedValue] at same
    refine And.imp_left (congrArg _) ?_
  case bool.bool a b => exact bool_until a b s t same
  case string.string a b | conceptRef.conceptRef a b =>
    exact tuple_delimits _ d.quoted_delimits a b s t same
  case integer.integer a b =>
    have payload := tuple_until "Integer".toList int_injective
      (fun n => int_avoids (by decide) rfl)
    exact (payload a.val b.val s t same).imp_left Subtype.ext
  case decimal.decimal a b => exact tuple_delimits _ decimalValue_delimits a b s t same
  case date.date a b =>
    exact tuple_until _ d.date_injective (fun v => (d.date_bracketed v).1) a b s t same
  case dateTime.dateTime a b =>
    exact tuple_until _ d.dateTime_injective (fun v => (d.dateTime_bracketed v).1) a b s t same
  case duration.duration a b =>
    exact tuple_until _ d.duration_injective (fun v => (d.duration_bracketed v).1) a b s t same
  case resourceRef.resourceRef a b =>
    have id := tuple_until "ResourceId".toList uuid_text_injective
      (fun x => uuid_avoids (by decide) rfl)
    exact tuple_delimits _ id a b s t same
  case money.money a b => exact tuple_delimits _ d.moneyValue_delimits a b s t same
  case quantity.quantity a b => exact tuple_delimits _ d.quantityValue_delimits a b s t same

/-! ## The separator -/

theorem tuple_avoids {name payload : List Char} (hn : unitSeparator ∉ name)
    (hp : unitSeparator ∉ payload) : unitSeparator ∉ tuple name payload := by
  simp only [tuple, mem_append, mem_cons, not_mem_nil, or_false, not_or]
  exact ⟨hn, by decide, hp, by decide⟩

theorem avoids_append {x y : List Char} (hx : c ∉ x) (hy : c ∉ y) : c ∉ x ++ y := by
  rw [mem_append, not_or]
  exact ⟨hx, hy⟩

theorem decimalValue_avoids (v : DecimalValue) : unitSeparator ∉ decimalValue v := by
  have coefficient : unitSeparator ∉ int v.coefficient.val := int_avoids (by decide) rfl
  have scale : unitSeparator ∉ nat v.scale.toNat := nat_avoids rfl
  apply avoids_append
  · exact avoids_append (by decide) (avoids_append coefficient (by decide))
  · exact avoids_append (avoids_append (by decide) (avoids_append scale (by decide)))
      (by decide)

theorem moneyValue_avoids (v : MoneyValue) : unitSeparator ∉ d.moneyValue v := by
  have amount : unitSeparator ∉ int v.amountMinor.val := int_avoids (by decide) rfl
  apply avoids_append
  · exact avoids_append (by decide) (avoids_append amount (by decide))
  · exact avoids_append (avoids_append (by decide) (d.quoted_avoids v.currency))
      (by decide)

theorem quantityValue_avoids (v : QuantityValue) : unitSeparator ∉ d.quantityValue v := by
  apply avoids_append
  · exact avoids_append (by decide) (decimalValue_avoids v.amount)
  · exact avoids_append (avoids_append (by decide) (d.quoted_avoids v.unit))
      (by decide)

/-- Within a quoted text the separator is written by its number, and nothing else holds it. -/
theorem typedValue_avoids {v : TypedValue} (h : scalar v = true) :
    unitSeparator ∉ d.typedValue v := by
  cases v <;> try cases h
  all_goals rw [typedValue]
  case bool b => cases b <;> decide
  all_goals apply tuple_avoids (by decide)
  case string text | conceptRef text => exact d.quoted_avoids text
  case integer => exact int_avoids (by decide) rfl
  case decimal v => exact decimalValue_avoids v
  case date v => exact (d.date_bracketed v).2
  case dateTime v => exact (d.dateTime_bracketed v).2
  case duration v => exact (d.duration_bracketed v).2
  case resourceRef => exact tuple_avoids (by decide) (uuid_avoids (by decide) rfl)
  case money v => exact d.moneyValue_avoids v
  case quantity v => exact d.quantityValue_avoids v

end DebugFormat

end KnowledgePlatform.Search
