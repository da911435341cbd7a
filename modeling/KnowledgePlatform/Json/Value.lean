import KnowledgePlatform.Lib.Bytes
import KnowledgePlatform.Lib.Decimal

/-! JSON values. An object is the list of its members; a reader sees it through `get`, which
answers with the first member of a name, so values with distinct names are finite maps. -/

namespace KnowledgePlatform

/-- A number is an integer or, when it is written with a fraction or an exponent or does not fit
the reader's integers, the canonical text the reader gives it. -/
inductive Json where
  | null
  | bool (b : Bool)
  | int (n : Int)
  | frac (text : String)
  | str (s : String)
  | arr (items : List Json)
  | obj (members : List (String × Json))

namespace Json

mutual

def beq : Json → Json → Bool
  | .null, .null => true
  | .bool a, .bool b => a == b
  | .int a, .int b => a == b
  | .frac a, .frac b => a == b
  | .str a, .str b => a == b
  | .arr a, .arr b => beqItems a b
  | .obj a, .obj b => beqMembers a b
  | _, _ => false

def beqItems : List Json → List Json → Bool
  | [], [] => true
  | a :: as, b :: bs => beq a b && beqItems as bs
  | _, _ => false

def beqMembers : List (String × Json) → List (String × Json) → Bool
  | [], [] => true
  | (k, a) :: as, (l, b) :: bs => k == l && beq a b && beqMembers as bs
  | _, _ => false

end

mutual

theorem eq_of_beq : ∀ {a b : Json}, beq a b = true → a = b
  | .null, .null, _ => rfl
  | .bool _, .bool _, h => by simpa [beq] using h
  | .int _, .int _, h => by simpa [beq] using h
  | .frac _, .frac _, h => by simpa [beq] using h
  | .str _, .str _, h => by simpa [beq] using h
  | .arr _, .arr _, h => congrArg arr (eq_of_beqItems h)
  | .obj _, .obj _, h => congrArg obj (eq_of_beqMembers h)

theorem eq_of_beqItems : ∀ {a b : List Json}, beqItems a b = true → a = b
  | [], [], _ => rfl
  | _ :: _, _ :: _, h => by
    simp only [beqItems, Bool.and_eq_true] at h
    rw [eq_of_beq h.1, eq_of_beqItems h.2]

theorem eq_of_beqMembers : ∀ {a b : List (String × Json)}, beqMembers a b = true → a = b
  | [], [], _ => rfl
  | (_, _) :: _, (_, _) :: _, h => by
    simp only [beqMembers, Bool.and_eq_true, beq_iff_eq] at h
    rw [h.1.1, eq_of_beq h.1.2, eq_of_beqMembers h.2]

end

mutual

theorem beq_rfl : ∀ a : Json, beq a a = true
  | .null => rfl
  | .bool _ | .int _ | .frac _ | .str _ => by simp [beq]
  | .arr items => beqItems_rfl items
  | .obj members => beqMembers_rfl members

theorem beqItems_rfl : ∀ a : List Json, beqItems a a = true
  | [] => rfl
  | a :: as => by simp [beqItems, beq_rfl a, beqItems_rfl as]

theorem beqMembers_rfl : ∀ a : List (String × Json), beqMembers a a = true
  | [] => rfl
  | (_, a) :: as => by simp [beqMembers, beq_rfl a, beqMembers_rfl as]

end

instance : DecidableEq Json := fun a b =>
  decidable_of_iff (beq a b = true) ⟨eq_of_beq, by rintro rfl; exact beq_rfl a⟩

/-! ## Reading a value -/

/-- A member of an object. -/
def get (v : Json) (key : String) : Option Json :=
  match v with
  | .obj members => members.lookup key
  | _ => none

def isNull : Json → Bool
  | .null => true
  | _ => false

def asBool : Json → Option Bool
  | .bool b => some b
  | _ => none

def asStr : Json → Option String
  | .str s => some s
  | _ => none

def asArr : Json → Option (List Json)
  | .arr items => some items
  | _ => none

def asObj : Json → Option (List (String × Json))
  | .obj members => some members
  | _ => none

/-- An integer literal that fits `i64`; a literal with a fraction or an exponent never does. -/
def asInt64 : Json → Option Int
  | .int n => if InInt64 n then some n else none
  | _ => none

end Json

end KnowledgePlatform

/-! ## Grammar -/

namespace KnowledgePlatform.Json

open Decimal (isDigit)

abbrev Text := List Char

/-- The four characters that may stand between tokens. -/
def isWs (c : Char) : Bool := c = ' ' || c = '\n' || c = '\t' || c = '\r'

/-! ## Numbers -/

/-- A number ends at the first character that none can contain. -/
def isNumberChar (c : Char) : Bool :=
  isDigit c || c = '-' || c = '+' || c = '.' || c = 'e' || c = 'E'

/-- At least one digit, and nothing else. -/
def isDigits (ds : Text) : Bool := ds ≠ [] && ds.all isDigit

/-- Nothing, or an exponent with its digits. -/
def isExponent : Text → Bool
  | [] => true
  | c :: rest =>
    (c = 'e' || c = 'E') && isDigits (match rest with
      | '+' :: ds => ds
      | '-' :: ds => ds
      | ds => ds)

/-- What follows the integer part of a number. -/
def isFraction : Text → Bool
  | '.' :: rest => isDigits (rest.takeWhile isDigit) && isExponent (rest.dropWhile isDigit)
  | rest => isExponent rest

section

-- `float` reads a literal that is not kept as an integer: `none` when it is out of range.
variable (float : Text → Option String)

/-- Integers are kept exactly in the ranges of `u64` and, below zero, `i64`; a negative zero and
everything else goes through `float`. -/
def numberValue (lit : Text) : Option Json :=
  let negative : Bool := lit.head? = some '-'
  let body := if negative then lit.tail else lit
  let ds := body.takeWhile isDigit
  let rest := body.dropWhile isDigit
  if ds = [] ∨ (ds.head? = some '0' ∧ ds ≠ ['0']) then none
  else if rest = [] then
    let n := Decimal.value ds
    if negative = false ∧ n < 2 ^ 64 then some (.int n)
    else if negative = true ∧ 1 ≤ n ∧ n ≤ 2 ^ 63 then some (.int (-n))
    else (float lit).map .frac
  else if isFraction rest then (float lit).map .frac
  else none

/-! ## Strings -/

/-- What a backslash and one character stand for. -/
def shortEscape (c : Char) : Option Char :=
  if c = '"' then some '"'
  else if c = '\\' then some '\\'
  else if c = '/' then some '/'
  else if c = 'b' then some '\x08'
  else if c = 'f' then some '\x0c'
  else if c = 'n' then some '\n'
  else if c = 'r' then some '\r'
  else if c = 't' then some '\t'
  else none

/-- A hexadecimal digit of either case. -/
def hexDigitValue (c : Char) : Option Nat :=
  if 48 ≤ c.toNat ∧ c.toNat ≤ 57 then some (c.toNat - 48)
  else if 97 ≤ c.toNat ∧ c.toNat ≤ 102 then some (c.toNat - 87)
  else if 65 ≤ c.toNat ∧ c.toNat ≤ 70 then some (c.toNat - 55)
  else none

/-- The number four hexadecimal digits spell. -/
def hex4 (a b c d : Char) : Option Nat := do
  let a ← hexDigitValue a
  let b ← hexDigitValue b
  let c ← hexDigitValue c
  let d ← hexDigitValue d
  return ((a * 16 + b) * 16 + c) * 16 + d

def isLeadSurrogate (n : Nat) : Bool := 0xD800 ≤ n && n ≤ 0xDBFF

def isTrailSurrogate (n : Nat) : Bool := 0xDC00 ≤ n && n ≤ 0xDFFF

/-- A character that stands for itself in a string. -/
def isPlain (c : Char) : Bool := 0x20 ≤ c.toNat && c ≠ '"' && c ≠ '\\'

/-- One character of a string, as itself or escaped. -/
inductive SpellsChar : Char → Text → Prop where
  | plain {c} : isPlain c = true → SpellsChar c [c]
  | short {e c} : shortEscape e = some c → SpellsChar c ['\\', e]
  | unicode {a b c d n} : hex4 a b c d = some n → isLeadSurrogate n = false →
      isTrailSurrogate n = false → SpellsChar (Char.ofNat n) ['\\', 'u', a, b, c, d]
  | pair {a b c d e f g h m n} : hex4 a b c d = some m → isLeadSurrogate m = true →
      hex4 e f g h = some n → isTrailSurrogate n = true →
      SpellsChar (Char.ofNat (0x10000 + (m - 0xD800) * 0x400 + (n - 0xDC00)))
        ['\\', 'u', a, b, c, d, '\\', 'u', e, f, g, h]

/-- The characters of a string, one after the other. -/
inductive SpellsString : List Char → Text → Prop where
  | nil : SpellsString [] []
  | cons {c s t ts} : SpellsChar c t → SpellsString s ts → SpellsString (c :: s) (t ++ ts)

/-! ## Values -/

def IsWs (w : Text) : Prop := ∀ c ∈ w, isWs c = true

/-- A member of an object: its name, its value and the text of the value. -/
structure Member where
  name : String
  value : Json
  raw : Text

def Member.pair (m : Member) : String × Json := (m.name, m.value)

mutual

/-- `Spells depth v t`: the text `t` is the value `v`, with at most `depth` nested containers. -/
inductive Spells : Nat → Json → Text → Prop where
  | null {depth} : Spells depth .null ['n', 'u', 'l', 'l']
  | true {depth} : Spells depth (.bool Bool.true) ['t', 'r', 'u', 'e']
  | false {depth} : Spells depth (.bool Bool.false) ['f', 'a', 'l', 's', 'e']
  | number {depth lit v} : (∀ c ∈ lit, isNumberChar c = Bool.true) →
      numberValue float lit = some v → Spells depth v lit
  | string {depth s t} : SpellsString s t →
      Spells depth (.str (String.ofList s)) ('"' :: (t ++ ['"']))
  | emptyArr {depth w} : IsWs w → Spells (depth + 1) (.arr []) ('[' :: (w ++ [']']))
  | arr {depth vs t} : SpellsItems depth vs t →
      Spells (depth + 1) (.arr vs) ('[' :: (t ++ [']']))
  | emptyObj {depth w} : IsWs w → Spells (depth + 1) (.obj []) ('{' :: (w ++ ['}']))
  | obj {depth ms t} : SpellsMembers depth ms t → (ms.map Member.name).Nodup →
      Spells (depth + 1) (.obj (ms.map Member.pair)) ('{' :: (t ++ ['}']))

/-- The items of an array, with commas between them. -/
inductive SpellsItems : Nat → List Json → Text → Prop where
  | last {depth v w t w'} : IsWs w → Spells depth v t → IsWs w' →
      SpellsItems depth [v] (w ++ t ++ w')
  | cons {depth v vs w t w' ts} : IsWs w → Spells depth v t → IsWs w' →
      SpellsItems depth vs ts → SpellsItems depth (v :: vs) (w ++ t ++ w' ++ ',' :: ts)

/-- The members of an object, with commas between them. -/
inductive SpellsMembers : Nat → List Member → Text → Prop where
  | last {depth k key v t w w₁ w₂ w₃} : IsWs w → SpellsString k key → IsWs w₁ → IsWs w₂ →
      Spells depth v t → IsWs w₃ →
      SpellsMembers depth [⟨String.ofList k, v, t⟩]
        (w ++ '"' :: (key ++ '"' :: (w₁ ++ ':' :: (w₂ ++ t ++ w₃))))
  | cons {depth k key v t w w₁ w₂ w₃ ms ts} : IsWs w → SpellsString k key → IsWs w₁ → IsWs w₂ →
      Spells depth v t → IsWs w₃ → SpellsMembers depth ms ts →
      SpellsMembers depth (⟨String.ofList k, v, t⟩ :: ms)
        (w ++ '"' :: (key ++ '"' :: (w₁ ++ ':' :: (w₂ ++ t ++ w₃ ++ ',' :: ts))))

end

end

end KnowledgePlatform.Json
