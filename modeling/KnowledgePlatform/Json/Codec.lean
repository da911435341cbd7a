import KnowledgePlatform.Json.Value
import KnowledgePlatform.Lib.Keyed
import Mathlib.Data.String.Basic

/-! Derived JSON forms. A codec writes a value when its numbers fit, and reads back what it has
written; records, options and lists of codecs are codecs. -/

namespace KnowledgePlatform

open List

/-- A type's JSON form. -/
structure Codec (α : Type) where
  encode : α → Option Json
  decode : Json → Option α
  decode_encode : ∀ {a : α} {v : Json}, encode a = some v → decode v = some a

namespace Codec

variable {α β : Type}

def str : Codec String where
  encode s := some (.str s)
  decode := Json.asStr
  decode_encode h := by
    cases h
    rfl

/-- The integers a number of the reader holds. -/
def InNumber (n : Int) : Prop := -2 ^ 63 ≤ n ∧ n < 2 ^ 64

instance (n : Int) : Decidable (InNumber n) := inferInstanceAs (Decidable (_ ∧ _))

/-- The integers of a subrange, where they are numbers. -/
def int (P : Int → Prop) [DecidablePred P] : Codec { n : Int // P n } where
  encode n := if InNumber n then some (.int n) else none
  decode v := match v with
    | .int n => if h : InNumber n ∧ P n then some ⟨n, h.2⟩ else none
    | _ => none
  decode_encode {n v} h := by
    split at h
    next fits =>
      cases h
      exact dif_pos ⟨fits, n.2⟩
    · cases h

/-- The same form for a type in bijection. -/
def iso (c : Codec α) (forth : β → α) (back : α → β) (inverse : ∀ b, back (forth b) = b) :
    Codec β where
  encode b := c.encode (forth b)
  decode v := (c.decode v).map back
  decode_encode {b v} h := by rw [c.decode_encode h, Option.map_some, inverse]

def optional (c : Codec α) (notNull : ∀ a, c.encode a ≠ some .null) : Codec (Option α) where
  encode
    | none => some .null
    | some a => c.encode a
  decode v := if v.isNull then some none else (c.decode v).map some
  decode_encode {a v} h := by
    cases a with
    | none =>
      cases h
      rfl
    | some a =>
      have there : v.isNull = false := by
        cases v with
        | null => exact absurd h (notNull a)
        | _ => rfl
      simp only [there, Bool.false_eq_true, if_false]
      rw [c.decode_encode h, Option.map_some]

theorem mapM_decode {encode : α → Option Json} {decode : Json → Option α} {l : List α}
    {vs : List Json} (law : ∀ a ∈ l, ∀ v, encode a = some v → decode v = some a)
    (h : l.mapM encode = some vs) : vs.mapM decode = some l := by
  induction l generalizing vs with
  | nil =>
    cases h
    rfl
  | cons a l ih =>
    rw [mapM_cons] at h
    obtain ⟨v, first, h⟩ := option_bind_some h
    obtain ⟨rest, others, h⟩ := option_bind_some h
    cases h
    obtain ⟨head, tail⟩ := forall_mem_cons.mp law
    rw [mapM_cons, head v first, ih tail others]
    rfl

def list (c : Codec α) : Codec (List α) where
  encode l := (l.mapM c.encode).map .arr
  decode v := v.asArr >>= List.mapM c.decode
  decode_encode {l v} h := by
    obtain ⟨vs, each, rfl⟩ := Option.map_eq_some_iff.mp h
    exact mapM_decode (fun _ _ _ => c.decode_encode) each

/-! ## Records -/

/-- The fields of a record, in the order they are declared. -/
structure Fields (α : Type) where
  names : List String
  write : α → Option (List Json)
  read : List (Option Json) → Option α
  read_write : ∀ {a : α} {vs : List Json}, write a = some vs →
    vs.length = names.length ∧ read (vs.map some) = some a

namespace Fields

def nil : Fields Unit where
  names := []
  write _ := some []
  read _ := some ()
  read_write h := by
    cases h
    exact ⟨rfl, rfl⟩

/-- One more field; it must be there, or `missing` stands for it. -/
def cons (name : String) (c : Codec α) (rest : Fields β) (missing : Option Json) :
    Fields (α × β) where
  names := name :: rest.names
  write a := do
    let v ← c.encode a.1
    let vs ← rest.write a.2
    return v :: vs
  read
    | [] => none
    | x :: xs => do
      let a ← x.or missing >>= c.decode
      let b ← rest.read xs
      return (a, b)
  read_write {a vs} h := by
    obtain ⟨v, first, h⟩ := option_bind_some h
    obtain ⟨rest', others, h⟩ := option_bind_some h
    cases h
    obtain ⟨size, back⟩ := rest.read_write others
    refine ⟨by simp [size], ?_⟩
    rw [List.map_cons]
    simp only [Option.some_or, Option.bind_eq_bind, Option.bind_some, c.decode_encode first, back]
    rfl

end Fields

/-- The values of the named fields: those of an object by name, those of an array by place. -/
def fieldValues (names : List String) : Json → Option (List (Option Json))
  | .obj members => some (names.map fun name => members.lookup name)
  | .arr items => if items.length = names.length then some (items.map some) else none
  | _ => none

theorem lookup_zip {names : List String} {vs : List Json} (distinct : names.Nodup)
    (size : vs.length = names.length) :
    (names.map fun name => (names.zip vs).lookup name) = vs.map some := by
  induction names generalizing vs with
  | nil => rw [eq_nil_of_length_eq_zero size]; rfl
  | cons name names ih =>
    cases vs with
    | nil => cases size
    | cons =>
      obtain ⟨fresh, distinct⟩ := nodup_cons.mp distinct
      rw [zip_cons_cons, map_cons, map_cons, lookup_cons_self,
        ← ih distinct (Nat.succ.inj size)]
      congr 1
      apply map_congr_left
      intro other mem
      have differ : other ≠ name := fun same => fresh (same ▸ mem)
      rw [lookup_cons, beq_false_of_ne differ]

/-- A record as an object. -/
def record (f : Fields α) (distinct : f.names.Nodup) : Codec α where
  encode a := (f.write a).map fun vs => .obj (f.names.zip vs)
  decode v := fieldValues f.names v >>= f.read
  decode_encode {a v} h := by
    obtain ⟨vs, written, rfl⟩ := Option.map_eq_some_iff.mp h
    obtain ⟨size, back⟩ := f.read_write written
    simp only [fieldValues, Option.bind_eq_bind, Option.bind_some, lookup_zip distinct size, back]

/-! ## Maps and variants -/

/-- The members of an object by key. -/
def members (c : Codec α) : Codec { l : List (String × α) // Keyed.Ordered Prod.fst l } where
  encode l := (l.1.mapM fun e => (c.encode e.2).map (e.1, ·)).map .obj
  decode v := do
    let found ← v.asObj
    let entries ← found.mapM fun e => (c.decode e.2).map (e.1, ·)
    return ⟨Keyed.ofList Prod.fst entries, Keyed.Ordered.ofList entries⟩
  decode_encode {l v} h := by
    obtain ⟨vs, each, rfl⟩ := Option.map_eq_some_iff.mp h
    have back : vs.mapM (fun e => (c.decode e.2).map (e.1, ·)) = some l.1 := by
      clear h
      generalize l.1 = entries at each
      induction entries generalizing vs with
      | nil =>
        cases each
        rfl
      | cons e entries ih =>
        rw [List.mapM_cons] at each
        obtain ⟨v, first, each⟩ := option_bind_some each
        obtain ⟨rest, others, each⟩ := option_bind_some each
        cases each
        obtain ⟨w, written, rfl⟩ := Option.map_eq_some_iff.mp first
        rw [List.mapM_cons, c.decode_encode written, ih rest others]
        rfl
    have same : Keyed.ofList Prod.fst l.1 = l.1 := l.2.ofList_eq
    simp only [Json.asObj, Option.bind_eq_bind, Option.bind_some, back, same]
    rfl

/-- A variant with its content. -/
def variant (tag : String) (content : Option Json) : Option Json :=
  content.map fun v => .obj [(tag, v)]

end Codec

end KnowledgePlatform
