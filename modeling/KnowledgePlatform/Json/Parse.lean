import KnowledgePlatform.Json.Value
import KnowledgePlatform.Lib.Except
import Mathlib.Data.List.TakeWhile
import Mathlib.Tactic.SplitIfs

/-! A recursive-descent JSON reader that refuses duplicate member names and deep nesting. The
first argument of each function bounds its recursion; the length of the text is enough. -/

namespace KnowledgePlatform.Json

open List

/-- A repeated member name is told apart from other errors. -/
inductive ParseError where
  | invalid
  | duplicate
  deriving DecidableEq

def skipWs (cs : Text) : Text := cs.dropWhile isWs

/-- The first character after whitespace. -/
def next (cs : Text) : Except ParseError (Char × Text) :=
  match skipWs cs with
  | c :: rest => .ok (c, rest)
  | [] => .error .invalid

/-- The character after `\u`: four digits, or a pair of surrogates. -/
def unicodeChar : Text → Option (Char × Text)
  | a :: b :: c :: d :: rest => do
    let m ← hex4 a b c d
    if isLeadSurrogate m then
      match rest with
      | '\\' :: 'u' :: e :: f :: g :: h :: rest => do
        let n ← hex4 e f g h
        if isTrailSurrogate n then
          return (Char.ofNat (0x10000 + (m - 0xD800) * 0x400 + (n - 0xDC00)), rest)
        else none
      | _ => none
    else if isTrailSurrogate m then none
    else return (Char.ofNat m, rest)
  | _ => none

/-- One character of a string, and the rest. -/
def stringChar : Text → Option (Char × Text)
  | '\\' :: 'u' :: rest => unicodeChar rest
  | '\\' :: e :: rest => (shortEscape e).map (·, rest)
  | c :: rest => if isPlain c then some (c, rest) else none
  | [] => none

/-- The characters up to the closing quote, and the text after it. -/
def stringTail : Nat → Text → Except ParseError (List Char × Text)
  | 0, _ => .error .invalid
  | n + 1, cs =>
    if cs.head? = some '"' then .ok ([], cs.tail)
    else
      match stringChar cs with
      | none => .error .invalid
      | some (c, cs) => do
        let (s, cs) ← stringTail n cs
        return (c :: s, cs)

/-- The rest of a literal whose first letter was read. -/
def keyword (word : Text) (v : Json) (cs : Text) : Except ParseError (Json × Text) :=
  if cs.take word.length = word then .ok (v, cs.drop word.length) else .error .invalid

section

variable (float : Text → Option String)

/-- The longest run of characters a number can have. -/
def number (cs : Text) : Except ParseError (Json × Text) :=
  match numberValue float (cs.takeWhile isNumberChar) with
  | some v => .ok (v, cs.dropWhile isNumberChar)
  | none => .error .invalid

mutual

/-- A value; the second argument is the nesting that is left. -/
def value : Nat → Nat → Text → Except ParseError (Json × Text)
  | 0, _, _ => .error .invalid
  | n + 1, depth, cs => do
    let (c, rest) ← next cs
    if c = '"' then
      let (s, rest) ← stringTail n rest
      return (.str (String.ofList s), rest)
    else if c = '[' then
      match depth with
      | 0 => .error .invalid
      | depth + 1 => do
        let (c', rest') ← next rest
        if c' = ']' then return (.arr [], rest')
        else
          let (vs, rest) ← items n depth rest
          return (.arr vs, rest)
    else if c = '{' then
      match depth with
      | 0 => .error .invalid
      | depth + 1 => do
        let (c', rest') ← next rest
        if c' = '}' then return (.obj [], rest')
        else
          let (ms, rest) ← members n depth [] rest
          return (.obj (ms.map Member.pair), rest)
    else if c = 'n' then keyword ['u', 'l', 'l'] .null rest
    else if c = 't' then keyword ['r', 'u', 'e'] (.bool true) rest
    else if c = 'f' then keyword ['a', 'l', 's', 'e'] (.bool false) rest
    else number float (c :: rest)

/-- The items up to the closing bracket. -/
def items : Nat → Nat → Text → Except ParseError (List Json × Text)
  | 0, _, _ => .error .invalid
  | n + 1, depth, cs => do
    let (v, cs) ← value n depth cs
    let (c, cs) ← next cs
    if c = ',' then
      let (vs, cs) ← items n depth cs
      return (v :: vs, cs)
    else if c = ']' then return ([v], cs)
    else .error .invalid

/-- The members up to the closing brace, none named as one in `seen`. -/
def members : Nat → Nat → List String → Text → Except ParseError (List Member × Text)
  | 0, _, _, _ => .error .invalid
  | n + 1, depth, seen, cs => do
    let (c, cs) ← next cs
    if c ≠ '"' then .error .invalid
    else
      let (k, cs) ← stringTail n cs
      let key := String.ofList k
      if key ∈ seen then .error .duplicate
      else
        let (c, cs) ← next cs
        if c ≠ ':' then .error .invalid
        else
          let (v, rest) ← value n depth cs
          let start := skipWs cs
          let m : Member := ⟨key, v, start.take (start.length - rest.length)⟩
          let (c, cs) ← next rest
          if c = ',' then
            let (ms, cs) ← members n depth (key :: seen) cs
            return (m :: ms, cs)
          else if c = '}' then return ([m], cs)
          else .error .invalid

end

/-- One value with nothing but whitespace around it. -/
def document (depth : Nat) (cs : Text) : Except ParseError Json := do
  let (v, rest) ← value float cs.length depth cs
  if skipWs rest = [] then return v else .error .invalid

/-- The members of a document that is an object, each with the text of its value. -/
def documentMembers (depth : Nat) (cs : Text) : Except ParseError (List Member) := do
  let (c, rest) ← next cs
  if c ≠ '{' then .error .invalid
  else
    match depth with
    | 0 => .error .invalid
    | depth + 1 => do
      let (c', _) ← next rest
      if c' = '}' then return []
      else
        let (ms, _) ← members float cs.length depth [] rest
        return ms

end

example : document (fun _ => none) 2
    " \x7b\"a\" : [1, -2], \"b\":\"\\u0041\"\x7d ".toList =
    .ok (.obj [("a", .arr [.int 1, .int (-2)]), ("b", .str "A")]) := by decide +kernel

/-! ## Whitespace and strings -/

theorem skipWs_append {w : Text} (hw : IsWs w) (cs : Text) : skipWs (w ++ cs) = skipWs cs := by
  induction w with
  | nil => rfl
  | cons c w ih =>
    have hc : isWs c = true := hw c mem_cons_self
    rw [cons_append, skipWs, dropWhile_cons_of_pos hc]
    exact ih fun c hc => hw c (.tail _ hc)

variable {c : Char}

theorem skipWs_self (hc : isWs c = false) (cs : Text) :
    skipWs (c :: cs) = c :: cs := by
  rw [skipWs, dropWhile_cons_of_neg (by simp [hc])]

theorem skipWs_split (cs : Text) : ∃ w, IsWs w ∧ cs = w ++ skipWs cs :=
  ⟨cs.takeWhile isWs, fun _ hc => mem_takeWhile_imp hc,
    takeWhile_append_dropWhile.symm⟩

variable {cs rest : Text}

theorem next_sound (h : next cs = .ok (c, rest)) :
    ∃ w, IsWs w ∧ cs = w ++ c :: rest ∧ isWs c = false := by
  unfold next at h
  split at h
  next c' rest' skip =>
    cases h
    obtain ⟨w, hw, split⟩ := skipWs_split cs
    refine ⟨w, hw, by rw [← skip]; exact split, ?_⟩
    have first := head?_dropWhile_not isWs cs
    rw [← skipWs, skip] at first
    exact first
  · cases h

theorem next_complete {w : Text} (hw : IsWs w) (hc : isWs c = false) (rest : Text) :
    next (w ++ c :: rest) = .ok (c, rest) := by
  rw [next, skipWs_append hw, skipWs_self hc]

theorem unicodeChar_sound (h : unicodeChar cs = some (c, rest)) :
    ∃ t, SpellsChar c ('\\' :: 'u' :: t) ∧ cs = t ++ rest := by
  unfold unicodeChar at h
  split at h
  · obtain ⟨m, hm, h⟩ := option_bind_some h
    split_ifs at h with lead trail
    · split at h
      · obtain ⟨n, hn, h⟩ := option_bind_some h
        split_ifs at h with trail
        obtain ⟨rfl, rfl⟩ := Prod.mk.inj (Option.some.inj h)
        exact ⟨_, .pair hm lead hn trail, rfl⟩
      · cases h
    · obtain ⟨rfl, rfl⟩ := Prod.mk.inj (Option.some.inj h)
      exact ⟨_, .unicode hm (by simpa using lead) (by simpa using trail), rfl⟩
  · cases h

theorem stringChar_sound (h : stringChar cs = some (c, rest)) :
    ∃ t, SpellsChar c t ∧ cs = t ++ rest := by
  unfold stringChar at h
  split at h
  · obtain ⟨t, spells, rfl⟩ := unicodeChar_sound h
    exact ⟨_, spells, rfl⟩
  · obtain ⟨_, short, pair⟩ := Option.map_eq_some_iff.mp h
    cases pair
    exact ⟨_, .short short, rfl⟩
  · split_ifs at h with plain
    cases h
    exact ⟨_, .plain plain, rfl⟩
  · cases h

variable {t : Text}

theorem stringChar_complete (h : SpellsChar c t) (rest : Text) :
    stringChar (t ++ rest) = some (c, rest) := by
  cases h with
  | plain plain =>
    have ne : c ≠ '\\' := by simp_all [isPlain]
    simp [stringChar, ne, plain]
  | @short e c short =>
    have ne : e ≠ 'u' := by
      rintro rfl
      cases short
    simp [stringChar, short]
  | unicode hex lead trail => simp [stringChar, unicodeChar, hex, lead, trail]
  | pair hex lead hex' trail => simp [stringChar, unicodeChar, hex, lead, hex', trail]

theorem SpellsChar.head_ne_quote (h : SpellsChar c t) (rest : Text) :
    (t ++ rest).head? ≠ some '"' := by
  cases h with
  | plain => simp_all [isPlain]
  | short | unicode | pair => simp

theorem SpellsChar.length_pos (h : SpellsChar c t) : 0 < t.length := by
  cases h <;> simp

theorem stringTail_sound {n : Nat} {s : List Char} (h : stringTail n cs = .ok (s, rest)) :
    ∃ t, SpellsString s t ∧ cs = t ++ '"' :: rest := by
  induction n generalizing cs s with
  | zero => cases h
  | succ n ih =>
    rw [stringTail] at h
    split at h
    next quote =>
      cases h
      exact ⟨[], .nil, eq_cons_of_mem_head? quote⟩
    · split at h
      · cases h
      next char =>
        obtain ⟨_, tail, h⟩ := except_bind_ok h
        cases h
        obtain ⟨t, spells, rfl⟩ := stringChar_sound char
        obtain ⟨ts, spells', rfl⟩ := ih tail
        exact ⟨t ++ ts, .cons spells spells', by simp⟩

theorem stringTail_complete {s : List Char} (h : SpellsString s t) {n : Nat} (enough : t.length < n)
    (rest : Text) :
    stringTail n (t ++ '"' :: rest) = .ok (s, rest) := by
  induction h generalizing n with
  | nil =>
    obtain ⟨n, rfl⟩ := Nat.exists_eq_succ_of_ne_zero (Nat.ne_of_gt enough)
    rfl
  | @cons _ _ _ _ char _ ih =>
    obtain ⟨n, rfl⟩ := Nat.exists_eq_succ_of_ne_zero (Nat.ne_zero_of_lt enough)
    have := char.length_pos
    rw [length_append] at enough
    rw [stringTail, append_assoc, if_neg (char.head_ne_quote _), stringChar_complete char]
    dsimp only
    rw [ih (by omega)]
    rfl

/-! ## The reader and the grammar agree -/

variable {float : Text → Option String} {v : Json} {n depth : Nat} {w : Text}

theorem keyword_sound {word : Text} {u : Json} (h : keyword word u cs = .ok (v, rest)) :
    u = v ∧ cs = word ++ rest := by
  obtain ⟨start, same⟩ := ite_ok_iff.mp h
  cases same
  refine ⟨rfl, ?_⟩
  nth_rewrite 1 [← take_append_drop word.length cs]
  rw [start]

theorem not_number_of_ws (h : isWs c = true) : isNumberChar c = false := by
  simp only [isWs, Bool.or_eq_true, decide_eq_true_eq] at h
  obtain ((rfl | rfl) | rfl) | rfl := h <;> rfl

theorem not_number {d : Char} (h : isNumberChar c = true) (hd : isNumberChar d = false) :
    c ≠ d := by
  rintro rfl
  rw [h] at hd
  cases hd

/-- The first character of a value is no whitespace and closes no array. -/
theorem head_of_spelled (h : Spells float depth v t) :
    ∃ c rest, t = c :: rest ∧ isWs c = false ∧ c ≠ ']' := by
  cases h with
  | number chars read =>
    cases t with
    | nil => simp [numberValue] at read
    | cons c rest =>
      have hc := chars c mem_cons_self
      refine ⟨c, rest, rfl, ?_, not_number hc rfl⟩
      cases ws : isWs c with
      | false => rfl
      | true => simp [not_number_of_ws ws] at hc
  | null | true | false | string | emptyArr | arr | emptyObj | obj =>
    exact ⟨_, _, rfl, rfl, by decide⟩

theorem skipWs_spelled (hw : IsWs w) (h : Spells float depth v t) (rest : Text) :
    skipWs (w ++ t ++ rest) = t ++ rest := by
  obtain ⟨c, tail, rfl, hc, -⟩ := head_of_spelled h
  rw [append_assoc, skipWs_append hw, cons_append, skipWs_self hc]

/-! ## Soundness -/

def ValueSound (float : Text → Option String) (n : Nat) : Prop :=
  ∀ depth cs v rest, value float n depth cs = .ok (v, rest) →
    ∃ w t, IsWs w ∧ Spells float depth v t ∧ cs = w ++ t ++ rest

def ItemsSound (float : Text → Option String) (n : Nat) : Prop :=
  ∀ depth cs vs rest, items float n depth cs = .ok (vs, rest) →
    ∃ t, SpellsItems float depth vs t ∧ cs = t ++ ']' :: rest

def MembersSound (float : Text → Option String) (n : Nat) : Prop :=
  ∀ depth seen cs ms rest, members float n depth seen cs = .ok (ms, rest) →
    ∃ t, SpellsMembers float depth ms t ∧ cs = t ++ '}' :: rest ∧
      (ms.map Member.name).Nodup ∧ ∀ k ∈ ms.map Member.name, k ∉ seen

theorem items_sound_step (hv : ValueSound float n) (hi : ItemsSound float n) :
    ItemsSound float (n + 1) := by
  intro depth cs vs rest h
  simp only [items, except_iffs, Prod.exists] at h
  obtain ⟨v, _, read, c, _, hc, h⟩ := h
  obtain ⟨w, t, hw, spells, rfl⟩ := hv _ _ _ _ read
  obtain ⟨w', hw', rfl, -⟩ := next_sound hc
  by_cases comma : c = ','
  · subst comma
    simp only [if_true, except_iffs, Prod.exists, Prod.mk.injEq] at h
    obtain ⟨_, _, others, rfl, rfl⟩ := h
    obtain ⟨ts, spells', rfl⟩ := hi _ _ _ _ others
    exact ⟨_, .cons hw spells hw' spells', by simp⟩
  · simp only [if_neg comma, else_error_iff, except_iffs, Prod.mk.injEq] at h
    obtain ⟨rfl, rfl, rfl⟩ := h
    exact ⟨_, .last hw spells hw', by simp⟩

theorem members_sound_step (hv : ValueSound float n) (hm : MembersSound float n) :
    MembersSound float (n + 1) := by
  intro depth seen cs ms rest h
  simp only [members, except_iffs, ite_error_iff, not_not, Prod.exists] at h
  obtain ⟨_, _, hc, rfl, k, _, hk, new, _, _, hc', rfl, v, _, read, c, _, hc'', h⟩ := h
  obtain ⟨w, hw, rfl, -⟩ := next_sound hc
  obtain ⟨key, spellsKey, rfl⟩ := stringTail_sound hk
  obtain ⟨w₁, hw₁, rfl, -⟩ := next_sound hc'
  obtain ⟨w₂, t, hw₂, spells, rfl⟩ := hv _ _ _ _ read
  obtain ⟨w₃, hw₃, rfl, -⟩ := next_sound hc''
  rw [skipWs_spelled hw₂ spells, length_append, Nat.add_sub_cancel, take_left] at h
  by_cases comma : c = ','
  · subst comma
    simp only [if_true, except_iffs, Prod.exists, Prod.mk.injEq] at h
    obtain ⟨_, _, others, rfl, rfl⟩ := h
    obtain ⟨ts, spells', rfl, nodup, fresh⟩ := hm _ _ _ _ _ others
    refine ⟨_, .cons hw spellsKey hw₁ hw₂ spells hw₃ spells', by simp, ?_, ?_⟩
    · exact nodup_cons.mpr ⟨fun mem => fresh _ mem mem_cons_self, nodup⟩
    · exact forall_mem_cons.mpr
        ⟨new, fun k hk old => fresh k hk (.tail _ old)⟩
  · simp only [if_neg comma, else_error_iff, except_iffs, Prod.mk.injEq] at h
    obtain ⟨rfl, rfl, rfl⟩ := h
    exact ⟨_, .last hw spellsKey hw₁ hw₂ spells hw₃, by simp, by simp, by simpa using new⟩

theorem value_sound_step (hi : ItemsSound float n) (hm : MembersSound float n) :
    ValueSound float (n + 1) := by
  intro depth cs v rest h
  simp only [value, except_iffs, Prod.exists] at h
  obtain ⟨c, tail, hc, h⟩ := h
  obtain ⟨w, hw, rfl, -⟩ := next_sound hc
  -- every way to read a value after the whitespace leaves a spelling of it
  suffices ∃ t, Spells float depth v t ∧ c :: tail = t ++ rest by
    obtain ⟨t, spells, split⟩ := this
    exact ⟨w, t, hw, spells, by rw [split, append_assoc]⟩
  split_ifs at h with quote bracket brace letter letter letter
  · simp only [except_iffs, Prod.exists] at h
    obtain ⟨s, _, hs, h⟩ := h
    cases h
    obtain ⟨t, spells, rfl⟩ := stringTail_sound hs
    exact ⟨_, .string spells, by simp [quote]⟩
  · cases depth with
    | zero => cases h
    | succ =>
      simp only [except_iffs, Prod.exists] at h
      obtain ⟨c', _, hc', h⟩ := h
      split_ifs at h with close
      · obtain ⟨w', hw', rfl, -⟩ := next_sound hc'
        cases h
        exact ⟨_, .emptyArr hw', by simp [bracket, close]⟩
      · simp only [except_iffs, Prod.exists] at h
        obtain ⟨vs, _, hvs, h⟩ := h
        cases h
        obtain ⟨t, spells, rfl⟩ := hi _ _ _ _ hvs
        exact ⟨_, .arr spells, by simp [bracket]⟩
  · cases depth with
    | zero => cases h
    | succ =>
      simp only [except_iffs, Prod.exists] at h
      obtain ⟨c', _, hc', h⟩ := h
      split_ifs at h with close
      · obtain ⟨w', hw', rfl, -⟩ := next_sound hc'
        cases h
        exact ⟨_, .emptyObj hw', by simp [brace, close]⟩
      · simp only [except_iffs, Prod.exists] at h
        obtain ⟨ms, _, hms, h⟩ := h
        cases h
        obtain ⟨t, spells, rfl, nodup, -⟩ := hm _ _ _ _ _ hms
        exact ⟨_, .obj spells nodup, by simp [brace]⟩
  · obtain ⟨rfl, rfl⟩ := keyword_sound h
    exact ⟨_, .null, by rw [letter]; rfl⟩
  · obtain ⟨rfl, rfl⟩ := keyword_sound h
    exact ⟨_, .true, by rw [letter]; rfl⟩
  · obtain ⟨rfl, rfl⟩ := keyword_sound h
    exact ⟨_, .false, by rw [letter]; rfl⟩
  · unfold number at h
    split at h
    next read =>
      cases h
      exact ⟨_, .number (fun c hc => mem_takeWhile_imp hc) read,
        takeWhile_append_dropWhile.symm⟩
    · cases h

theorem all_sound (float : Text → Option String) (n : Nat) :
    ValueSound float n ∧ ItemsSound float n ∧ MembersSound float n := by
  induction n with
  | zero => simp [ValueSound, ItemsSound, MembersSound, value, items, members]
  | succ n ih =>
    exact ⟨value_sound_step ih.2.1 ih.2.2, items_sound_step ih.1 ih.2.1,
      members_sound_step ih.1 ih.2.2⟩

/-! ## Completeness

A number is read to its last possible character, so what follows a value must not be able to
continue one. -/

/-- What comes next does not continue a number. -/
def Stops (rest : Text) : Prop := ∀ c ∈ rest.head?, isNumberChar c = false

theorem stops_ws (hw : IsWs w) (h : Stops rest) : Stops (w ++ rest) := by
  cases w with
  | nil => exact h
  | cons c =>
    intro c' hc'
    obtain rfl : c = c' := by simpa using hc'
    exact not_number_of_ws (hw c mem_cons_self)

theorem stops_cons (h : isNumberChar c = false) (rest : Text) : Stops (c :: rest) := by
  intro c' hc'
  obtain rfl : c = c' := by simpa using hc'
  exact h

/-- A text that begins, after whitespace, with a value. -/
theorem next_spelled (hw : IsWs w) (h : Spells float depth v t) (rest : Text) :
    ∃ c tail, next (w ++ t ++ rest) = .ok (c, tail) ∧ c ≠ ']' := by
  obtain ⟨c, tail, rfl, hc, ne⟩ := head_of_spelled h
  exact ⟨c, tail ++ rest, by rw [append_assoc]; exact next_complete hw hc _, ne⟩

theorem next_items {vs : List Json} (h : SpellsItems float depth vs t) (rest : Text) :
    ∃ c tail, next (t ++ rest) = .ok (c, tail) ∧ c ≠ ']' := by
  cases h with
  | last hw spells =>
    rw [append_assoc]
    exact next_spelled hw spells _
  | cons hw spells =>
    rw [append_assoc, append_assoc]
    exact next_spelled hw spells _

theorem next_members {ms : List Member} (h : SpellsMembers float depth ms t) (rest : Text) :
    ∃ tail, next (t ++ rest) = .ok ('"', tail) := by
  cases h with
  | last hw | cons hw =>
    rw [append_assoc]
    exact ⟨_, next_complete hw rfl _⟩

/-- One member up to the end of its value. -/
theorem members_step {seen : List String} {k : List Char} {key w₁ w₂ follow : Text} (hw : IsWs w)
    (spellsKey : SpellsString k key) (enough : key.length < n) (new : String.ofList k ∉ seen)
    (hw₁ : IsWs w₁) (hw₂ : IsWs w₂) (spells : Spells float depth v t)
    (read : value float n depth (w₂ ++ t ++ follow) = .ok (v, follow)) :
    members float (n + 1) depth seen
        (w ++ '"' :: (key ++ '"' :: (w₁ ++ ':' :: (w₂ ++ t ++ follow)))) = (do
      let (c, cs) ← next follow
      if c = ',' then
        let (ms, cs) ← members float n depth (String.ofList k :: seen) cs
        return (⟨String.ofList k, v, t⟩ :: ms, cs)
      else if c = '}' then return ([⟨String.ofList k, v, t⟩], cs)
      else .error .invalid) := by
  have raw : (skipWs (w₂ ++ t ++ follow)).take
      ((skipWs (w₂ ++ t ++ follow)).length - follow.length) = t := by
    rw [skipWs_spelled hw₂ spells, length_append, Nat.add_sub_cancel, take_left]
  rw [members, next_complete hw rfl, except_ok_bind]
  dsimp only
  rw [if_neg (not_not.mpr rfl), stringTail_complete spellsKey enough, except_ok_bind]
  dsimp only
  rw [if_neg new, next_complete hw₁ rfl, except_ok_bind]
  dsimp only
  rw [if_neg (not_not.mpr rfl), read, except_ok_bind]
  dsimp only
  rw [raw]

mutual

theorem value_complete {depth : Nat} {v : Json} {t : Text} (h : Spells float depth v t) {n : Nat}
    (enough : t.length ≤ n) {w : Text} (hw : IsWs w) {rest : Text} (stops : Stops rest) :
    value float n depth (w ++ t ++ rest) = .ok (v, rest) := by
  obtain ⟨c, tail, first, notWs, -⟩ := head_of_spelled h
  obtain ⟨n, rfl⟩ : ∃ m, n = m + 1 :=
    ⟨n - 1, by rw [first, length_cons] at enough; omega⟩
  rw [value, append_assoc, except_bind_iff]
  refine ⟨(c, tail ++ rest), by rw [first]; exact next_complete hw notWs _, ?_⟩
  dsimp only
  cases h with
  | null | true | false =>
    cases first
    simp [keyword]
  | number chars read =>
    subst first
    have other {d : Char} (hd : isNumberChar d = Bool.false) : c ≠ d :=
      not_number (chars c mem_cons_self) hd
    rw [if_neg (other rfl), if_neg (other rfl), if_neg (other rfl), if_neg (other rfl),
      if_neg (other rfl), if_neg (other rfl)]
    have tail : rest.takeWhile isNumberChar = [] ∧ rest.dropWhile isNumberChar = rest := by
      cases rest with
      | nil => exact ⟨rfl, rfl⟩
      | cons c =>
        have := stops c rfl
        simp [this]
    rw [number, ← cons_append, takeWhile_append_of_pos chars, dropWhile_append_of_pos chars, tail.1,
      tail.2, append_nil, read]
  | @string _ s t spells =>
    cases first
    simp only [length_cons, length_append, length_nil] at enough
    simp only [reduceIte, append_assoc, cons_append, nil_append]
    rw [stringTail_complete spells (by omega)]
    rfl
  | emptyArr hw' | emptyObj hw' =>
    cases first
    simp only [Char.reduceEq, reduceIte, append_assoc, cons_append, nil_append]
    rw [next_complete hw' rfl]
    rfl
  | @arr _ _ _ spells =>
    cases first
    simp only [length_cons, length_append, length_nil] at enough
    simp only [Char.reduceEq, reduceIte, append_assoc, cons_append, nil_append]
    obtain ⟨c, tail, start, ne⟩ := next_items spells (']' :: rest)
    rw [except_bind_iff]
    refine ⟨_, start, ?_⟩
    dsimp only
    rw [if_neg ne, items_complete spells (by omega)]
    rfl
  | @obj _ _ _ spells nodup =>
    cases first
    simp only [length_cons, length_append, length_nil] at enough
    simp only [Char.reduceEq, reduceIte, append_assoc, cons_append, nil_append]
    obtain ⟨tail, start⟩ := next_members spells ('}' :: rest)
    rw [except_bind_iff]
    refine ⟨_, start, ?_⟩
    simp only [Char.reduceEq, reduceIte]
    rw [members_complete spells nodup (fun _ _ => not_mem_nil) (by omega)]
    rfl

theorem items_complete {depth : Nat} {vs : List Json} {t : Text}
    (h : SpellsItems float depth vs t) {n : Nat} (enough : t.length < n) {rest : Text} :
    items float n depth (t ++ ']' :: rest) = .ok (vs, rest) := by
  obtain ⟨n, rfl⟩ := Nat.exists_eq_succ_of_ne_zero (Nat.ne_zero_of_lt enough)
  rw [items]
  cases h with
  | last hw spells hw' =>
    simp only [length_append] at enough
    rw [append_assoc, value_complete spells (by omega) hw (stops_ws hw' (stops_cons rfl _))]
    simp only [except_bind_iff]
    exact ⟨_, rfl, _, next_complete hw' rfl _, rfl⟩
  | cons hw spells hw' spells' =>
    simp only [length_append, length_cons] at enough
    rw [append_assoc, append_assoc, cons_append,
      value_complete spells (by omega) hw (stops_ws hw' (stops_cons rfl _))]
    simp only [except_bind_iff]
    refine ⟨_, rfl, _, next_complete hw' rfl _, ?_⟩
    simp only [reduceIte]
    rw [items_complete spells' (by omega)]
    rfl

theorem members_complete {depth : Nat} {ms : List Member} {t : Text}
    (h : SpellsMembers float depth ms t) (nodup : (ms.map Member.name).Nodup)
    {seen : List String} (fresh : ∀ k ∈ ms.map Member.name, k ∉ seen) {n : Nat}
    (enough : t.length < n) {rest : Text} :
    members float n depth seen (t ++ '}' :: rest) = .ok (ms, rest) := by
  obtain ⟨n, rfl⟩ := Nat.exists_eq_succ_of_ne_zero (Nat.ne_zero_of_lt enough)
  cases h with
  | @last _ _ key _ _ _ _ _ w₃ hw spellsKey hw₁ hw₂ spells hw₃ =>
    simp only [length_append, length_cons] at enough
    have follow : Stops (w₃ ++ '}' :: rest) := stops_ws hw₃ (stops_cons rfl _)
    have short : key.length < n := by omega
    have step := members_step hw spellsKey short (fresh _ mem_cons_self) hw₁ hw₂ spells
      (value_complete spells (by omega) hw₂ follow)
    rw [next_complete hw₃ rfl, except_ok_bind] at step
    simpa [pure, Except.pure] using step
  | @cons _ k key _ _ _ _ _ w₃ ms ts hw spellsKey hw₁ hw₂ spells hw₃ spells' =>
    simp only [length_append, length_cons] at enough
    have follow : Stops (w₃ ++ ',' :: (ts ++ '}' :: rest)) := stops_ws hw₃ (stops_cons rfl _)
    obtain ⟨notLater, nodup'⟩ := nodup_cons.mp nodup
    have fresh' : ∀ k' ∈ ms.map Member.name, k' ∉ String.ofList k :: seen := by
      intro k' later old
      obtain rfl | old := mem_cons.mp old
      · exact notLater later
      · exact fresh k' (.tail _ later) old
    have others : members float n depth (String.ofList k :: seen) (ts ++ '}' :: rest) =
        .ok (ms, rest) := members_complete spells' nodup' fresh' (by omega)
    have short : key.length < n := by omega
    have step := members_step hw spellsKey short (fresh _ mem_cons_self) hw₁ hw₂ spells
      (value_complete spells (by omega) hw₂ follow)
    rw [next_complete hw₃ rfl, except_ok_bind] at step
    simp only [reduceIte, others, except_ok_bind] at step
    simpa [pure, Except.pure] using step

end

/-! ## Documents -/

theorem document_sound (h : document float depth cs = .ok v) :
    ∃ w t w', IsWs w ∧ Spells float depth v t ∧ IsWs w' ∧ cs = w ++ t ++ w' := by
  simp only [document, except_iffs, else_error_iff, Prod.exists] at h
  obtain ⟨_, rest, read, done, rfl⟩ := h
  obtain ⟨w, t, hw, spells, rfl⟩ := (all_sound float _).1 _ _ _ _ read
  obtain ⟨w', hw', split⟩ := skipWs_split rest
  rw [done, append_nil] at split
  exact ⟨w, t, rest, hw, spells, split ▸ hw', rfl⟩

theorem document_complete {w' : Text} (hw : IsWs w) (h : Spells float depth v t) (hw' : IsWs w') :
    document float depth (w ++ t ++ w') = .ok v := by
  have stops : Stops w' := by
    have none : Stops [] := by simp [Stops]
    simpa using stops_ws hw' none
  have done : skipWs w' = [] := by
    have := skipWs_append hw' []
    rwa [append_nil] at this
  rw [document, value_complete h (by simp; omega) hw stops, except_ok_bind]
  simp only [done, reduceIte]
  rfl

/-- A text spells at most one value. -/
theorem Spells.unique {u : Json} (hu : Spells float depth u t) (hv : Spells float depth v t) :
    u = v := by
  have none : IsWs [] := fun _ h => absurd h not_mem_nil
  have first := document_complete none hu none
  have second := document_complete none hv none
  exact Except.ok.inj (first.symm.trans second)

theorem SpellsMembers.spelled {ms : List Member} (h : SpellsMembers float depth ms t) :
    ∀ m ∈ ms, Spells float depth m.value m.raw := by
  induction ms generalizing t with
  | nil => cases h
  | cons _ _ ih =>
    intro m hm
    cases h with
    | last _ _ _ _ spells =>
      rw [mem_singleton.mp hm]
      exact spells
    | cons _ _ _ _ spells _ others =>
      obtain rfl | hm := mem_cons.mp hm
      · exact spells
      · exact ih others m hm

theorem numberValue_ne_obj {lit : Text} {pairs : List (String × Json)} :
    numberValue float lit ≠ some (.obj pairs) := by
  intro h
  unfold numberValue at h
  dsimp only at h
  split_ifs at h <;> simp at h

/-- The members of an object, read with their texts: the same names and values, and each value is
spelled by its text. -/
theorem documentMembers_of_document {pairs : List (String × Json)}
    (h : document float (depth + 1) cs = .ok (.obj pairs)) :
    ∃ ms, documentMembers float (depth + 1) cs = .ok ms ∧ ms.map Member.pair = pairs ∧
      ∀ m ∈ ms, Spells float depth m.value m.raw := by
  obtain ⟨w, t, w', hw, spells, -, rfl⟩ := document_sound h
  cases spells with
  | number _ read => exact absurd read numberValue_ne_obj
  | emptyObj empty =>
    refine ⟨[], ?_, rfl, fun _ h => absurd h not_mem_nil⟩
    simp only [documentMembers, append_assoc, cons_append, nil_append]
    rw [next_complete hw rfl, except_ok_bind]
    simp only [ne_eq, not_true_eq_false, if_false]
    rw [next_complete empty rfl, except_ok_bind]
    rfl
  | @obj _ ms t members nodup =>
    refine ⟨ms, ?_, rfl, members.spelled⟩
    obtain ⟨tail, start⟩ := next_members members ('}' :: w')
    have all : Json.members float (w ++ '{' :: (t ++ '}' :: w')).length depth []
        (t ++ '}' :: w') = .ok (ms, w') :=
      members_complete members nodup (fun _ _ => not_mem_nil) (by simp; omega)
    simp only [documentMembers, append_assoc, cons_append, nil_append]
    rw [next_complete hw rfl, except_ok_bind]
    simp only [ne_eq, not_true_eq_false, if_false]
    rw [start, except_ok_bind]
    simp only [Char.reduceEq, reduceIte]
    rw [all]
    rfl

theorem lookup_pair (ms : List Member) (key : String) :
    (ms.map Member.pair).lookup key = (ms.find? fun m => m.name = key).map Member.value := by
  induction ms with
  | nil => rfl
  | cons m _ ih =>
    rw [map_cons, Member.pair, lookup_cons, find?_cons, ih]
    by_cases same : m.name = key
    · simp [same]
    · simp [same, beq_false_of_ne (Ne.symm same)]

end KnowledgePlatform.Json
