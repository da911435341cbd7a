import KnowledgePlatform.Graph.Relation
import KnowledgePlatform.Lib.Decimal
import KnowledgePlatform.Lib.Table

/-! Typed applicability predicates, evaluated over a set of facts to one of four values. -/

namespace KnowledgePlatform.Search

open Graph (TypedValue DecimalValue)

/-! ## Facts -/

inductive FactOrigin where
  | explicit
  | authoritative
  | observed
  | derived
  | inferred
deriving DecidableEq

structure Fact where
  value : TypedValue
  origin : FactOrigin

structure FactSet where
  facts : Table (Prod.fst : String × Fact → String)

namespace FactSet

def get (s : FactSet) (key : String) : Option Fact := (s.facts.find key).map Prod.snd

def contains (s : FactSet) (key : String) : Bool := (s.get key).isSome

end FactSet

/-! ## Truth values -/

inductive TruthValue where
  | true
  | false
  | unknown
  | error
deriving DecidableEq

namespace TruthValue

def fromBool (value : Bool) : TruthValue := if value then .true else .false

def not : TruthValue → TruthValue
  | .true => .false
  | .false => .true
  | other => other

def and : TruthValue → TruthValue → TruthValue
  | .error, _ | _, .error => .error
  | .false, _ | _, .false => .false
  | .unknown, _ | _, .unknown => .unknown
  | .true, .true => .true

def or : TruthValue → TruthValue → TruthValue
  | .error, _ | _, .error => .error
  | .true, _ | _, .true => .true
  | .unknown, _ | _, .unknown => .unknown
  | .false, .false => .false

end TruthValue

def combineAnd (values : List TruthValue) : TruthValue := values.foldl .and .true

def combineOr (values : List TruthValue) : TruthValue := values.foldl .or .false

/-! ## Comparing values -/

/-- The digits before and after the point, at least one before it. -/
def decimalParts (value : DecimalValue) : List Char × List Char :=
  let digits := Decimal.nat value.coefficient.val.natAbs
  let scale := value.scale.toNat
  let padded := List.replicate (scale + 1 - digits.length) '0' ++ digits
  let split := padded.length - scale
  (padded.take split, padded.drop split)

def compareDecimal (left right : DecimalValue) : Ordering :=
  if left.coefficient.val = 0 ∧ right.coefficient.val = 0 then .eq
  else
    let leftNegative := decide (left.coefficient.val < 0)
    let rightNegative := decide (right.coefficient.val < 0)
    if leftNegative ≠ rightNegative then if leftNegative then .lt else .gt
    else
      let l := decimalParts left
      let r := decimalParts right
      let width := max l.2.length r.2.length
      let order := (compare l.1.length r.1.length).then <| (compare l.1 r.1).then <|
        compare (l.2.rightpad width '0') (r.2.rightpad width '0')
      if leftNegative then order.swap else order

/-- Strings compare by their bytes. -/
def compareText (a b : String) : Ordering := compare (utf8 a.toList) (utf8 b.toList)

/-- The order of two values of one scalar type, and of one currency or unit. -/
def compareValues : TypedValue → TypedValue → Option Ordering
  | .bool a, .bool b => some (compare a b)
  | .string a, .string b => some (compareText a b)
  | .integer a, .integer b => some (compare a.val b.val)
  | .decimal a, .decimal b => some (compareDecimal a b)
  | .date a, .date b => some (compare a.julianDay b.julianDay)
  | .dateTime a, .dateTime b => some (compare a.unixTimestampNanos b.unixTimestampNanos)
  | .duration a, .duration b => some (compare a.wholeNanoseconds.val b.wholeNanoseconds.val)
  | .conceptRef a, .conceptRef b => some (compareText a b)
  | .resourceRef a, .resourceRef b => some (compare a.bytes b.bytes)
  | .money a, .money b =>
    if a.currency = b.currency then some (compare a.amountMinor.val b.amountMinor.val) else none
  | .quantity a, .quantity b =>
    if a.unit = b.unit then some (compareDecimal a.amount b.amount) else none
  | _, _ => none

def maxPredicateDepth : Nat := 64

mutual

/-- Equality with `levels` more levels of collections to go; below the last one it is an error. -/
def valuesEqualAt : (levels : Nat) → TypedValue → TypedValue → TruthValue
  | 0, _, _ => .error
  | levels + 1, .list a, .list b =>
    if a.length ≠ b.length then .false
    else combineAnd (List.zipWith (valuesEqualAt levels) a b)
  | levels + 1, .set a, .set b =>
    combineAnd (a.map (membershipAt levels · b) ++ b.map (membershipAt levels · a))
  | _ + 1, left, right =>
    match compareValues left right with
    | some order => .fromBool order.isEq
    | none => .error

/-- Whether some item equals the needle; an item that cannot be compared is an error. -/
def membershipAt : (levels : Nat) → TypedValue → List TypedValue → TruthValue
  | 0, _, _ => .error
  | levels + 1, needle, haystack =>
    let values := haystack.map (valuesEqualAt levels needle)
    if .error ∈ values then .error else .fromBool (decide (.true ∈ values))

end

def valuesEqual : TypedValue → TypedValue → TruthValue := valuesEqualAt (maxPredicateDepth + 1)

def collection : TypedValue → Option (List TypedValue)
  | .list values | .set values => some values
  | _ => none

def membershipInSlice : TypedValue → List TypedValue → TruthValue :=
  membershipAt (maxPredicateDepth + 1)

def membership (needle haystack : TypedValue) : TruthValue :=
  match collection haystack with
  | some values => membershipInSlice needle values
  | none => .error

def collectionRelation (left right : TypedValue) (intersects : Bool) : TruthValue :=
  match collection left, collection right with
  | some a, some b =>
    let values := a.map (membershipInSlice · b)
    if intersects then combineOr values else combineAnd values
  | _, _ => .error

/-! ## Predicates -/

inductive Operand where
  | fact (key : String)
  | value (value : TypedValue)

inductive PredicateExpr where
  | and (children : List PredicateExpr)
  | or (children : List PredicateExpr)
  | not (child : PredicateExpr)
  | eq (left right : Operand)
  | ne (left right : Operand)
  | lt (left right : Operand)
  | lte (left right : Operand)
  | gt (left right : Operand)
  | gte (left right : Operand)
  | in (needle haystack : Operand)
  | contains (haystack needle : Operand)
  | intersects (left right : Operand)
  | subset (left right : Operand)
  | exists (key : String)
  | missing (key : String)
  | sameConcept (left right : Operand)
  | isA (left right : Operand)
  | descendantOf (left right : Operand)

/-- The pinned view of concepts the caller supplies. -/
structure ConceptResolver where
  (sameConcept isA descendantOf : String → String → TruthValue)

def resolve (facts : FactSet) : Operand → Option TypedValue
  | .fact key => (facts.get key).map Fact.value
  | .value value => some value

def binary (left right : Operand) (facts : FactSet)
    (compare : TypedValue → TypedValue → TruthValue) : TruthValue :=
  match resolve facts left, resolve facts right with
  | some a, some b => compare a b
  | _, _ => .unknown

def ordered (left right : Operand) (facts : FactSet) (accepts : Ordering → Bool) : TruthValue :=
  binary left right facts fun a b =>
    match compareValues a b with
    | some order => .fromBool (accepts order)
    | none => .error

def conceptBinary (left right : Operand) (facts : FactSet)
    (evaluate : String → String → TruthValue) : TruthValue :=
  binary left right facts fun a b =>
    match a, b with
    | .conceptRef a, .conceptRef b => evaluate a b
    | _, _ => .error

/-- Evaluation with `levels` more levels of the expression to go. -/
def atDepth (facts : FactSet) (concepts : ConceptResolver) : (levels : Nat) → PredicateExpr →
    TruthValue
  | 0, _ => .error
  | levels + 1, .and children =>
    if children.isEmpty then .error else combineAnd (children.map (atDepth facts concepts levels))
  | levels + 1, .or children =>
    if children.isEmpty then .error else combineOr (children.map (atDepth facts concepts levels))
  | levels + 1, .not child => (atDepth facts concepts levels child).not
  | _ + 1, .exists key => .fromBool (facts.contains key)
  | _ + 1, .missing key => .fromBool (!facts.contains key)
  | _ + 1, .eq left right => binary left right facts valuesEqual
  | _ + 1, .ne left right => binary left right facts fun a b => (valuesEqual a b).not
  | _ + 1, .lt left right => ordered left right facts Ordering.isLT
  | _ + 1, .lte left right => ordered left right facts Ordering.isLE
  | _ + 1, .gt left right => ordered left right facts Ordering.isGT
  | _ + 1, .gte left right => ordered left right facts Ordering.isGE
  | _ + 1, .in needle haystack => binary needle haystack facts membership
  | _ + 1, .contains haystack needle => binary haystack needle facts fun a b => membership b a
  | _ + 1, .intersects left right => binary left right facts (collectionRelation · · true)
  | _ + 1, .subset left right => binary left right facts (collectionRelation · · false)
  | _ + 1, .sameConcept left right => conceptBinary left right facts concepts.sameConcept
  | _ + 1, .isA left right => conceptBinary left right facts concepts.isA
  | _ + 1, .descendantOf left right => conceptBinary left right facts concepts.descendantOf

def evaluate (expression : PredicateExpr) (facts : FactSet) (concepts : ConceptResolver) :
    TruthValue :=
  atDepth facts concepts (maxPredicateDepth + 1) expression

/-! ## More knowledge -/

/-- An expression and all that is inside it. -/
inductive Subexpr (e : PredicateExpr) : PredicateExpr → Prop where
  | refl : Subexpr e e
  | and {c : PredicateExpr} {children : List PredicateExpr} :
      c ∈ children → Subexpr e c → Subexpr e (.and children)
  | or {c : PredicateExpr} {children : List PredicateExpr} :
      c ∈ children → Subexpr e c → Subexpr e (.or children)
  | not {c : PredicateExpr} : Subexpr e c → Subexpr e (.not c)

/-- Tests no key for its presence. -/
def PredicateExpr.TestsNoPresence (e : PredicateExpr) : Prop :=
  ∀ key, ¬ Subexpr (.exists key) e ∧ ¬ Subexpr (.missing key) e

/-- The second set has all the facts of the first. -/
def FactSet.Extends (more facts : FactSet) : Prop :=
  ∀ key fact, facts.get key = some fact → more.get key = some fact

/-- What a value may become with more knowledge. -/
def TruthValue.MayBecome (a b : TruthValue) : Prop := a = .unknown ∨ b = a ∨ b = .error

instance : DecidableRel TruthValue.MayBecome := fun _ _ => inferInstanceAs (Decidable (_ ∨ _))

namespace TruthValue.MayBecome

variable {a b c d : TruthValue}

protected theorem refl : MayBecome a a := .inr (.inl rfl)

protected theorem not (h : MayBecome a b) : MayBecome a.not b.not := by
  revert h
  cases a <;> cases b <;> decide

protected theorem and (h : MayBecome a b) (k : MayBecome c d) :
    MayBecome (a.and c) (b.and d) := by
  revert h k
  cases a <;> cases b <;> cases c <;> cases d <;> decide

protected theorem or (h : MayBecome a b) (k : MayBecome c d) : MayBecome (a.or c) (b.or d) := by
  revert h k
  cases a <;> cases b <;> cases c <;> cases d <;> decide

protected theorem foldl {op : TruthValue → TruthValue → TruthValue}
    (step : ∀ {a b c d}, MayBecome a b → MayBecome c d → MayBecome (op a c) (op b d))
    {f g : PredicateExpr → TruthValue} {children : List PredicateExpr}
    (each : ∀ e ∈ children, MayBecome (f e) (g e)) (first : MayBecome a b) :
    MayBecome ((children.map f).foldl op a) ((children.map g).foldl op b) := by
  induction children generalizing a b with
  | nil => exact first
  | cons e rest ih =>
    obtain ⟨here, later⟩ := List.forall_mem_cons.mp each
    exact ih later (step first here)

end TruthValue.MayBecome

variable {facts more : FactSet} {concepts : ConceptResolver} {e : PredicateExpr}

theorem resolve_extends (ext : more.Extends facts) {operand : Operand} {v : TypedValue}
    (h : resolve facts operand = some v) : resolve more operand = some v := by
  cases operand with
  | value => exact h
  | fact key =>
    obtain ⟨fact, found, rfl⟩ := Option.map_eq_some_iff.mp h
    exact Option.map_eq_some_iff.mpr ⟨fact, ext key fact found, rfl⟩

theorem PredicateExpr.TestsNoPresence.child {c : PredicateExpr}
    (up : ∀ {leaf}, Subexpr leaf c → Subexpr leaf e) (h : e.TestsNoPresence) : c.TestsNoPresence :=
  fun key => ⟨fun inner => (h key).1 (up inner), fun inner => (h key).2 (up inner)⟩

theorem atDepth_mayBecome (ext : more.Extends facts) {levels : Nat} (h : e.TestsNoPresence) :
    (atDepth facts concepts levels e).MayBecome (atDepth more concepts levels e) := by
  induction levels generalizing e with
  | zero => exact .refl
  | succ levels ih =>
    cases e with
    | and =>
      simp only [atDepth]
      split
      · exact .refl
      · exact .foldl .and (fun c hc => ih (h.child (.and hc))) .refl
    | or =>
      simp only [atDepth]
      split
      · exact .refl
      · exact .foldl .or (fun c hc => ih (h.child (.or hc))) .refl
    | not child => exact (ih (h.child .not)).not
    | «exists» key => exact absurd .refl (h key).1
    | missing key => exact absurd .refl (h key).2
    | _ =>
      show (binary _ _ facts _).MayBecome (binary _ _ more _)
      unfold binary
      split
      next a b ha hb =>
        rw [resolve_extends ext ha, resolve_extends ext hb]
        exact .refl
      · exact .inl rfl

/-- Without tests for presence, a verdict reached on some facts stays the same on more of them,
unless these make the evaluation fail. -/
theorem verdict_stable (concepts : ConceptResolver) (e : PredicateExpr) (h : e.TestsNoPresence)
    (facts more : FactSet) (ext : more.Extends facts) (v : TruthValue)
    (settled : v = .true ∨ v = .false) (verdict : evaluate e facts concepts = v) :
    evaluate e more concepts = v ∨ evaluate e more concepts = .error := by
  have becomes : (evaluate e facts concepts).MayBecome (evaluate e more concepts) :=
    atDepth_mayBecome ext h
  rw [verdict] at becomes
  obtain unknown | same | error := becomes
  · rw [unknown] at settled
    obtain settled | settled := settled <;> cases settled
  · exact .inl same
  · exact .inr error

def sampleFacts : FactSet := ⟨[("a", ⟨.bool true, .explicit⟩)], by decide⟩

/-- With one more fact, of another type. -/
def sampleMore : FactSet :=
  ⟨[("a", ⟨.bool true, .explicit⟩), ("b", ⟨.string "x", .inferred⟩)], by decide⟩

def sampleConcepts : ConceptResolver :=
  ⟨fun _ _ => .unknown, fun _ _ => .unknown, fun _ _ => .unknown⟩

/-- `a or b`. -/
def samplePredicate : PredicateExpr :=
  .or [.eq (.fact "a") (.value (.bool true)), .eq (.fact "b") (.value (.bool true))]

theorem verdict_stable_sample : evaluate samplePredicate sampleFacts sampleConcepts = .true ∧
    (evaluate samplePredicate sampleMore sampleConcepts = .true ∨
      evaluate samplePredicate sampleMore sampleConcepts = .error) := by
  have tests : samplePredicate.TestsNoPresence := by
    intro key
    constructor
    all_goals
      intro inner
      cases inner with
      | or hc inner =>
        obtain rfl | rfl : _ ∨ _ := by simpa using hc
        all_goals cases inner
  have ext : sampleMore.Extends sampleFacts := by
    intro key fact found
    by_cases a : key = "a"
    · rw [a] at found ⊢
      exact found
    · simp [FactSet.get, sampleFacts, Table.find, Ne.symm a] at found
  have holds : evaluate samplePredicate sampleFacts sampleConcepts = .true := by decide
  exact ⟨holds, verdict_stable sampleConcepts samplePredicate tests sampleFacts sampleMore ext .true
    (.inl rfl) holds⟩

end KnowledgePlatform.Search
