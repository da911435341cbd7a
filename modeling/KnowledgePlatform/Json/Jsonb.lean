import KnowledgePlatform.Json.Parse
import KnowledgePlatform.Lib.Decimal
import Mathlib.Data.List.Sort

/-! The text of PostgreSQL's `jsonb` separates members and items by a comma and a space. -/

namespace KnowledgePlatform.Jsonb

open Json (Text)

/-- A character as it stands in a quoted string. -/
def escapeChar (c : Char) : Text :=
  if c = '"' then ['\\', '"']
  else if c = '\\' then ['\\', '\\']
  else if c = '\x08' then ['\\', 'b']
  else if c = '\x0c' then ['\\', 'f']
  else if c = '\n' then ['\\', 'n']
  else if c = '\r' then ['\\', 'r']
  else if c = '\t' then ['\\', 't']
  else if c.toNat < 0x20 then
    ['\\', 'u', '0', '0', hexDigit (c.toNat / 16), hexDigit (c.toNat % 16)]
  else [c]

def quote (s : String) : Text := '"' :: (s.toList.flatMap escapeChar ++ ['"'])

mutual

/-- The text of a value. -/
def text : Json → Text
  | .null => ['n', 'u', 'l', 'l']
  | .bool true => ['t', 'r', 'u', 'e']
  | .bool false => ['f', 'a', 'l', 's', 'e']
  | .int n => Decimal.int n
  | .frac literal => literal.toList
  | .str s => quote s
  | .arr items => '[' :: (textItems items ++ [']'])
  | .obj members => '{' :: (textMembers members ++ ['}'])

def textItems : List Json → Text
  | [] => []
  | [v] => text v
  | v :: w :: rest => text v ++ ',' :: ' ' :: textItems (w :: rest)

def textMembers : List (String × Json) → Text
  | [] => []
  | [(k, v)] => quote k ++ ':' :: ' ' :: text v
  | (k, v) :: m :: rest =>
    quote k ++ ':' :: ' ' :: (text v ++ ',' :: ' ' :: textMembers (m :: rest))

end

/-! ## Its length -/

def usizeMax : Nat := 2 ^ 64 - 1

/-- `usize::saturating_add`. -/
def saturatingAdd (a b : Nat) : Nat := min (a + b) usizeMax

/-- The bytes of an escaped character. -/
def escapedLen (c : Char) : Nat :=
  if c ∈ ['"', '\\', '\x08', '\x0c', '\n', '\r', '\t'] then 2
  else if c.toNat < 0x20 then 6
  else c.utf8Size

/-- The bytes of a quoted string. -/
def quotedLen (s : String) : Nat := 2 + (s.toList.map escapedLen).sum

/-- One round of the loop: the length of the value without its children, and the children
it pushes. -/
def visit : Json → Nat × List Json
  | .null | .bool true => (4, [])
  | .bool false => (5, [])
  | .int n => ((utf8 (Decimal.int n)).length, [])
  | .frac literal => ((utf8 literal.toList).length, [])
  | .str s => (quotedLen s, [])
  | .arr items => (2 + 2 * (items.length - 1), items)
  | .obj members =>
    (members.foldl (fun len m => saturatingAdd len (quotedLen m.1 + 2))
      (2 + 2 * (members.length - 1)), members.map Prod.snd)

theorem pushed_smaller (v : Json) : ((visit v).2.map sizeOf).sum < sizeOf v := by
  cases v with
  | arr items =>
    have (items : List Json) : (items.map sizeOf).sum ≤ sizeOf items := by
      induction items <;> simp; omega
    have := this items
    simp [visit]
    omega
  | obj members =>
    have (members : List (String × Json)) :
        ((members.map Prod.snd).map sizeOf).sum ≤ sizeOf members := by
      induction members with
      | nil => simp
      | cons m _ ih =>
        obtain ⟨_, _⟩ := m
        simp at ih ⊢
        omega
    have := this members
    simp only [visit, Json.obj.sizeOf_spec]
    omega
  | bool b => cases b <;> simp [visit]
  | _ => simp [visit]

/-- The top of the stack comes first. -/
def textLenFrom (total : Nat) : List Json → Nat
  | [] => total
  | v :: stack => textLenFrom (saturatingAdd total (visit v).1) ((visit v).2.reverse ++ stack)
termination_by stack => (stack.map sizeOf).sum
decreasing_by
  have := pushed_smaller v
  simp
  omega

/-- The length of the text, by a stack of values and not by recursion. -/
def jsonbTextLen (v : Json) : Nat := textLenFrom 0 [v]

mutual

/-- The members of every object by name. -/
def canonicalize : Json → Json
  | .arr items => .arr (canonicalizeItems items)
  | .obj members =>
    .obj ((canonicalizeMembers members).insertionSort fun a b => utf8 a.1.toList ≤ utf8 b.1.toList)
  | v => v

def canonicalizeItems : List Json → List Json
  | [] => []
  | v :: rest => canonicalize v :: canonicalizeItems rest

def canonicalizeMembers : List (String × Json) → List (String × Json)
  | [] => []
  | (k, v) :: rest => (k, canonicalize v) :: canonicalizeMembers rest

end

theorem length_utf8 (t : Text) : (utf8 t).length = (t.map Char.utf8Size).sum := by
  simp [utf8, List.length_flatMap]

@[simp] theorem utf8Size_ascii {c : Char} (h : c.toNat ≤ 127) : c.utf8Size = 1 :=
  Char.utf8Size_eq_one_iff.mpr h

theorem length_escapeChar (c : Char) : (utf8 (escapeChar c)).length = escapedLen c := by
  have digit : ∀ n < 16, (hexDigit n).utf8Size = 1 := by decide
  have low := digit (c.toNat % 16) (by omega)
  have high (h : c.toNat < 0x20) := digit (c.toNat / 16) (by omega)
  simp only [escapeChar, escapedLen, List.mem_cons, List.not_mem_nil, or_false, length_utf8]
  split_ifs <;> simp_all

theorem length_quote (s : String) : (utf8 (quote s)).length = quotedLen s := by
  have body : (utf8 (s.toList.flatMap escapeChar)).length = (s.toList.map escapedLen).sum := by
    rw [utf8, List.flatMap_assoc, List.length_flatMap]
    exact congrArg List.sum (List.map_congr_left fun c _ => length_escapeChar c)
  rw [length_utf8] at body
  simp [length_utf8, quote, quotedLen, body]
  omega

/-- The text of a value, measured. -/
def size (v : Json) : Nat := (utf8 (text v)).length

theorem length_textItems (items : List Json) :
    (utf8 (textItems items)).length = 2 * (items.length - 1) + (items.map size).sum := by
  induction items with
  | nil => rfl
  | cons v rest ih => cases rest <;> simp_all [textItems, size, length_utf8]; omega

theorem length_textMembers (members : List (String × Json)) :
    (utf8 (textMembers members)).length = 2 * (members.length - 1) +
      (members.map fun m => quotedLen m.1 + 2).sum + (members.map fun m => size m.2).sum := by
  induction members with
  | nil => rfl
  | cons m rest ih =>
    have := length_quote m.1
    cases rest <;> simp_all [textMembers, size, length_utf8] <;> omega

theorem size_arr (items : List Json) :
    size (.arr items) = 2 + 2 * (items.length - 1) + (items.map size).sum := by
  have whole : size (.arr items) = (utf8 (textItems items)).length + 2 := by
    simp [size, text, length_utf8, Nat.add_comm 1]
  rw [whole, length_textItems]
  omega

theorem size_obj (members : List (String × Json)) :
    size (.obj members) = 2 + 2 * (members.length - 1) +
      (members.map fun m => quotedLen m.1 + 2).sum + (members.map fun m => size m.2).sum := by
  have whole : size (.obj members) = (utf8 (textMembers members)).length + 2 := by
    simp [size, text, length_utf8, Nat.add_comm 1]
  rw [whole, length_textMembers]
  omega

/-! Below, lengths matter only up to `usizeMax`. -/

theorem fold_saturates {α : Type} (f : α → Nat) (l : List α) (len : Nat) :
    min (l.foldl (fun len a => saturatingAdd len (f a)) len) usizeMax =
      min (len + (l.map f).sum) usizeMax := by
  induction l generalizing len with
  | nil => simp
  | cons a l ih =>
    rw [List.foldl_cons, ih, saturatingAdd, List.map_cons, List.sum_cons]
    omega

theorem visit_size (v : Json) :
    min ((visit v).1 + ((visit v).2.map size).sum) usizeMax = min (size v) usizeMax := by
  cases v with
  | arr items => rw [size_arr, visit]
  | obj members =>
    have names := fold_saturates (fun m : String × Json => quotedLen m.1 + 2) members
      (2 + 2 * (members.length - 1))
    rw [size_obj, visit, List.map_map, Function.comp_def]
    omega
  | str s => simp [visit, size, text, length_quote]
  | bool b => cases b <;> simp [visit, size, text, length_utf8]
  | _ => simp [visit, size, text, length_utf8]

/-- The stack still owes the sizes of its values. -/
theorem textLenFrom_eq (total : Nat) (stack : List Json) :
    total ≤ usizeMax → textLenFrom total stack = min (total + (stack.map size).sum) usizeMax := by
  fun_induction textLenFrom total stack with
  | case1 total => simp
  | case2 total v stack ih =>
    intro fits
    have := visit_size v
    rw [ih (by simp [saturatingAdd])]
    simp [saturatingAdd]
    omega

theorem size_obj_congr {a b : List (String × Json)}
    (h : (a.map (Prod.map id size)).Perm (b.map (Prod.map id size))) :
    size (.obj a) = size (.obj b) := by
  have names := (h.map fun m => quotedLen m.1 + 2).sum_nat
  have values := (h.map Prod.snd).sum_nat
  have count := h.length_eq
  simp only [List.map_map, List.length_map, Function.comp_def, Prod.map] at names values count
  rw [size_obj, size_obj, count, values]
  exact congrArg (_ + · + _) names

mutual

theorem size_canonicalize : ∀ v : Json, size (canonicalize v) = size v
  | .arr items => by
    have count := congrArg List.length (sizes_items items)
    simp only [List.length_map] at count
    rw [canonicalize, size_arr, size_arr, count, sizes_items items]
  | .obj members => by
    rw [canonicalize]
    apply size_obj_congr
    rw [← sizes_members members]
    exact (List.perm_insertionSort _ _).map _
  | .null | .bool _ | .int _ | .frac _ | .str _ => by rw [canonicalize] <;> simp

theorem sizes_items : ∀ items : List Json, (canonicalizeItems items).map size = items.map size
  | [] => rfl
  | v :: rest => by simp [canonicalizeItems, size_canonicalize v, sizes_items rest]

theorem sizes_members : ∀ members : List (String × Json),
    (canonicalizeMembers members).map (Prod.map id size) = members.map (Prod.map id size)
  | [] => rfl
  | (k, v) :: rest => by simp [canonicalizeMembers, size_canonicalize v, sizes_members rest]

end

/-- The stack loop measures the text of every value, and canonical order does not change it. -/
theorem jsonbTextLen_measures (v : Json) :
    jsonbTextLen v = min (utf8 (text v)).length usizeMax ∧
      jsonbTextLen (canonicalize v) = jsonbTextLen v := by
  have measured (v : Json) : jsonbTextLen v = min (size v) usizeMax := by
    simp [jsonbTextLen, textLenFrom_eq]
  exact ⟨measured v, by rw [measured, measured, size_canonicalize]⟩

end KnowledgePlatform.Jsonb
