import KnowledgePlatform.Search.Predicate

/-! Whether a candidate is applicable: every rule's predicate, unless it rests on facts of too low
an evidence class. -/

namespace KnowledgePlatform.Search

open List

inductive ApplicabilityState where
  | applicable
  | excluded
  | unresolved
  | invalid

inductive DiscriminatorImportance where
  | hard
  | soft

inductive MinimumFactEvidence where
  | any
  | notInferred
  | authoritativeOrExplicit
deriving DecidableEq

def MinimumFactEvidence.accepts : MinimumFactEvidence → FactOrigin → Bool
  | .any, _ => true
  | .notInferred, origin => origin ≠ .inferred
  | .authoritativeOrExplicit, origin => origin = .authoritative ∨ origin = .explicit

structure Discriminator where
  facet : String
  importance : DiscriminatorImportance
  predicate : PredicateExpr
  minimumFactEvidence : MinimumFactEvidence

inductive GapReason where
  | missingFact
  | insufficientEvidenceClass
  | authority
  | freshness
  | availability
  | unsupportedCoverage

structure InformationGap where
  requiredFact : String
  reason : GapReason
  blocking : Bool

structure ApplicabilityEvaluation where
  state : ApplicabilityState
  (matchedConditions resolvedDiscriminators remainingNonblockingUnknowns : List String)
  gaps : List InformationGap
  reasons : List String

/-! ## Facts of too low a class -/

def Operand.keys : Operand → List String
  | .fact key => [key]
  | .value _ => []

/-- The keys an expression reads itself, not through its parts. -/
def PredicateExpr.ownKeys : PredicateExpr → List String
  | .and _ | .or _ | .not _ => []
  | .exists key | .missing key => [key]
  | .eq left right | .ne left right | .lt left right | .lte left right | .gt left right
  | .gte left right | .in left right | .contains left right | .intersects left right
  | .subset left right | .sameConcept left right | .isA left right | .descendantOf left right =>
    left.keys ++ right.keys

def insufficient (facts : FactSet) (minimum : MinimumFactEvidence) (key : String) : Bool :=
  (facts.get key).any fun fact => !minimum.accepts fact.origin

theorem sum_sizeOf_le (children : List PredicateExpr) :
    (children.map sizeOf).sum ≤ sizeOf children := by
  induction children with
  | nil => simp
  | cons =>
    simp only [map_cons, sum_cons, cons.sizeOf_spec]
    omega

/-- Visits the expressions on the stack, the first of the list on its top. -/
def firstInsufficient (facts : FactSet) (minimum : MinimumFactEvidence) :
    List PredicateExpr → Option String
  | [] => none
  | .and children :: pending => firstInsufficient facts minimum (children ++ pending)
  | .or children :: pending => firstInsufficient facts minimum (children ++ pending)
  | .not child :: pending => firstInsufficient facts minimum (child :: pending)
  | leaf :: pending =>
    match leaf.ownKeys.find? (insufficient facts minimum) with
    | some key => some key
    | none => firstInsufficient facts minimum pending
termination_by pending => (pending.map sizeOf).sum
decreasing_by
  · have := sum_sizeOf_le children
    simp
    omega
  · have := sum_sizeOf_le children
    simp
    omega
  · simp
  · cases leaf <;> simp

def insufficientPredicateFact (expression : PredicateExpr) (facts : FactSet)
    (minimum : MinimumFactEvidence) : Option String :=
  if minimum = .any then none else firstInsufficient facts minimum [expression]

/-! ## Evaluation -/

def insufficientFact (facts : FactSet) (rule : Discriminator) : Option String :=
  if insufficient facts rule.minimumFactEvidence rule.facet then some rule.facet
  else insufficientPredicateFact rule.predicate facts rule.minimumFactEvidence

/-- What the evaluation takes a rule's predicate to be. -/
def verdict (facts : FactSet) (concepts : ConceptResolver) (rule : Discriminator) : TruthValue :=
  let evaluated := evaluate rule.predicate facts concepts
  if (insufficientFact facts rule).isSome ∧ evaluated ≠ .error then .unknown else evaluated

/-- The evaluation so far, and what it has come across. -/
structure Progress where
  result : ApplicabilityEvaluation
  (hardFalse hardUnknown invalid : Bool)

/-- One rule with its verdict. -/
def Progress.rule (facts : FactSet) (concepts : ConceptResolver) (p : Progress)
    (rule : Discriminator) : Progress :=
  let r := p.result
  match rule.importance, verdict facts concepts rule with
  | _, .error =>
    { p with invalid := true, result := { r with
      reasons := r.reasons ++ [rule.facet ++ ": predicate error"] } }
  | .hard, .false =>
    { p with hardFalse := true, result := { r with
      reasons := r.reasons ++ [rule.facet ++ ": hard mismatch"] } }
  | .hard, .unknown =>
    let low := insufficientFact facts rule
    { p with hardUnknown := true, result := { r with
      gaps := r.gaps ++ [⟨low.getD rule.facet,
        if low.isSome then .insufficientEvidenceClass else .missingFact, true⟩]
      reasons := r.reasons ++ [rule.facet ++ ": hard unresolved"] } }
  | .soft, .unknown =>
    { p with result := { r with
      remainingNonblockingUnknowns := r.remainingNonblockingUnknowns ++ [rule.facet]
      reasons := r.reasons ++ [rule.facet ++ ": soft unresolved"] } }
  | _, .true =>
    { p with result := { r with
      matchedConditions := r.matchedConditions ++ [rule.facet]
      resolvedDiscriminators := r.resolvedDiscriminators ++ [rule.facet] } }
  | .soft, .false =>
    { p with result := { r with
      resolvedDiscriminators := r.resolvedDiscriminators ++ [rule.facet]
      reasons := r.reasons ++ [rule.facet ++ ": soft mismatch"] } }

def Progress.state (p : Progress) : ApplicabilityState :=
  if p.invalid then .invalid
  else if p.hardFalse then .excluded
  else if p.hardUnknown then .unresolved
  else .applicable

def evaluateApplicability (facts : FactSet) (discriminators : List Discriminator)
    (concepts : ConceptResolver) : ApplicabilityEvaluation :=
  let last := discriminators.foldl (Progress.rule facts concepts)
    ⟨⟨.applicable, [], [], [], [], []⟩, false, false, false⟩
  { last.result with state := last.state }

/-! ## Facts that matter -/

variable {f g facts : FactSet} {concepts : ConceptResolver} {minimum : MinimumFactEvidence}
  {rule : Discriminator}

theorem resolve_congr {operand : Operand} (same : ∀ key ∈ operand.keys, f.get key = g.get key) :
    resolve f operand = resolve g operand := by
  cases operand with
  | value => rfl
  | fact key => simp only [resolve, same key (mem_singleton_self key)]

/-- An expression's value depends only on the keys read in it. -/
theorem atDepth_congr {levels : Nat} {e : PredicateExpr}
    (same : ∀ leaf, Subexpr leaf e → ∀ key ∈ leaf.ownKeys, f.get key = g.get key) :
    atDepth f concepts levels e = atDepth g concepts levels e := by
  induction levels generalizing e with
  | zero => rfl
  | succ _ ih =>
    have own := same e .refl
    cases e with
    | and =>
      simp only [atDepth]
      rw [map_congr_left fun c hc => ih fun leaf inner => same leaf (.and hc inner)]
    | or =>
      simp only [atDepth]
      rw [map_congr_left fun c hc => ih fun leaf inner => same leaf (.or hc inner)]
    | not =>
      simp only [atDepth]
      rw [ih fun leaf inner => same leaf (.not inner)]
    | «exists» key | missing key =>
      simp only [atDepth, FactSet.contains]
      rw [own key (mem_singleton_self key)]
    | _ =>
      simp only [atDepth, ordered, conceptBinary, binary]
      rw [resolve_congr fun key hk => own key (mem_append_left _ hk),
        resolve_congr fun key hk => own key (mem_append_right _ hk)]

/-- When the walk finds nothing, no key read anywhere has a fact of too low a class. -/
theorem firstInsufficient_none {pending : List PredicateExpr}
    (h : firstInsufficient facts minimum pending = none) :
    ∀ e ∈ pending, ∀ leaf, Subexpr leaf e → ∀ key ∈ leaf.ownKeys,
      insufficient facts minimum key = false := by
  fun_induction firstInsufficient facts minimum pending with
  | case1 => simp
  | case2 _ _ ih | case3 _ _ ih =>
    obtain ⟨parts, rest⟩ := forall_mem_append.mp (ih h)
    refine forall_mem_cons.mpr ⟨fun leaf inner => ?_, rest⟩
    cases inner
    · simp [PredicateExpr.ownKeys]
    next inner inside =>
      exact parts _ inside leaf inner
  | case4 _ _ ih =>
    obtain ⟨part, rest⟩ := forall_mem_cons.mp (ih h)
    refine forall_mem_cons.mpr ⟨fun leaf inner => ?_, rest⟩
    cases inner with
    | refl => simp [PredicateExpr.ownKeys]
    | not inner => exact part leaf inner
  | case5 => cases h
  | case6 _ _ notAnd notOr notNot clear ih =>
    refine forall_mem_cons.mpr ⟨fun leaf inner => ?_, ih h⟩
    cases inner with
    | refl => simpa using find?_eq_none.mp clear
    | and => exact absurd rfl (notAnd _)
    | or => exact absurd rfl (notOr _)
    | not => exact absurd rfl (notNot _)

/-! ## Two sets of facts -/

/-- The sets have the same facts of the accepted origins. -/
def FactSet.Agree (minimum : MinimumFactEvidence) (f g : FactSet) : Prop :=
  ∀ key fact, minimum.accepts fact.origin = true → (f.get key = some fact ↔ g.get key = some fact)

/-- A verdict of true or false rests on accepted facts only. -/
theorem settled_sufficient (settled : verdict facts concepts rule = .true ∨
      verdict facts concepts rule = .false) :
    verdict facts concepts rule = evaluate rule.predicate facts concepts ∧
      ∀ leaf, Subexpr leaf rule.predicate → ∀ key ∈ leaf.ownKeys,
        insufficient facts rule.minimumFactEvidence key = false := by
  have sufficient : insufficientFact facts rule = none := by
    by_contra low
    have low : (insufficientFact facts rule).isSome = true := by
      simpa [Option.isSome_iff_ne_none] using low
    simp only [verdict, low, true_and] at settled
    split at settled
    · obtain wrong | wrong := settled <;> cases wrong
    next error =>
      rw [not_not.mp error] at settled
      obtain wrong | wrong := settled <;> cases wrong
  refine ⟨by simp [verdict, sufficient], ?_⟩
  unfold insufficientFact at sufficient
  split at sufficient
  · cases sufficient
  · unfold insufficientPredicateFact at sufficient
    split at sufficient
    next any =>
      intro leaf _ key _
      unfold insufficient
      cases facts.get key with
      | none => rfl
      | some => simp [any, MinimumFactEvidence.accepts]
    · exact firstInsufficient_none sufficient _ (mem_singleton_self _)

theorem verdicts_agree (agree : f.Agree rule.minimumFactEvidence g)
    (left : verdict f concepts rule = .true ∨ verdict f concepts rule = .false)
    (right : verdict g concepts rule = .true ∨ verdict g concepts rule = .false) :
    verdict f concepts rule = verdict g concepts rule := by
  obtain ⟨evaluatedLeft, sufficientLeft⟩ := settled_sufficient left
  obtain ⟨evaluatedRight, sufficientRight⟩ := settled_sufficient right
  rw [evaluatedLeft, evaluatedRight]
  refine atDepth_congr fun leaf inner key hk => ?_
  have left := sufficientLeft leaf inner key hk
  have right := sufficientRight leaf inner key hk
  cases hf : f.get key with
  | some fact =>
    have accepted : rule.minimumFactEvidence.accepts fact.origin = true := by
      simpa [insufficient, hf] using left
    exact ((agree key fact accepted).mp hf).symm
  | none =>
    cases hg : g.get key with
    | none => rfl
    | some fact =>
      have accepted : rule.minimumFactEvidence.accepts fact.origin = true := by
        simpa [insufficient, hg] using right
      rw [(agree key fact accepted).mpr hg] at hf
      cases hf

/-! ## Whole evaluations -/

/-- What the flags say of the rules passed. -/
structure Progress.Tells (facts : FactSet) (concepts : ConceptResolver) (rules : List Discriminator)
    (p : Progress) : Prop where
  hardFalse : p.hardFalse = true ↔
    ∃ r ∈ rules, r.importance = .hard ∧ verdict facts concepts r = .false
  hardUnknown : p.hardUnknown = true ↔
    ∃ r ∈ rules, r.importance = .hard ∧ verdict facts concepts r = .unknown
  invalid : p.invalid = true ↔ ∃ r ∈ rules, verdict facts concepts r = .error

variable {rules : List Discriminator} {p : Progress}

theorem Progress.Tells.next (h : p.Tells facts concepts rules) (rule : Discriminator) :
    (p.rule facts concepts rule).Tells facts concepts (rules ++ [rule]) := by
  have append (P : Discriminator → Prop) :
      (∃ r ∈ rules ++ [rule], P r) ↔ (∃ r ∈ rules, P r) ∨ P rule := by
    simp [or_and_right, exists_or]
  constructor
  all_goals
    simp only [append, ← h.hardFalse, ← h.hardUnknown, ← h.invalid]
    unfold Progress.rule
    split <;> simp_all

theorem foldl_tells {passed : List Discriminator} (h : p.Tells facts concepts passed) :
    (rules.foldl (Progress.rule facts concepts) p).Tells facts concepts (passed ++ rules) := by
  induction rules generalizing passed p with
  | nil => rwa [append_nil]
  | cons rule _ ih =>
    have := ih (h.next rule)
    rwa [append_assoc] at this

/-- An evaluation ends in the state its last flags give. -/
theorem evaluateApplicability_tells (facts : FactSet) (concepts : ConceptResolver)
    (rules : List Discriminator) :
    ∃ p : Progress, p.Tells facts concepts rules ∧
      (evaluateApplicability facts rules concepts).state = p.state := by
  refine ⟨_, ?_, rfl⟩
  have start : Progress.Tells facts concepts []
      ⟨⟨.applicable, [], [], [], [], []⟩, false, false, false⟩ := by
    constructor <;> simp
  exact foldl_tells start

theorem Progress.applicable (h : p.state = .applicable) :
    p.invalid = false ∧ p.hardFalse = false ∧ p.hardUnknown = false := by
  unfold Progress.state at h
  cases hi : p.invalid <;> cases hf : p.hardFalse <;> cases hu : p.hardUnknown <;>
    simp [hi, hf, hu] at h ⊢

theorem Progress.excluded (h : p.state = .excluded) : p.hardFalse = true := by
  unfold Progress.state at h
  cases hi : p.invalid <;> cases hf : p.hardFalse <;> cases hu : p.hardUnknown <;>
    simp [hi, hf, hu] at h ⊢

/-- Facts below the class a rule asks for never turn its verdict around, and so never make a
candidate that the others find applicable an excluded one. -/
theorem low_evidence_never_flips (concepts : ConceptResolver) (rules : List Discriminator)
    (f g : FactSet) :
    (∀ rule ∈ rules, f.Agree rule.minimumFactEvidence g →
      verdict f concepts rule = verdict g concepts rule ∨
      (verdict f concepts rule = .unknown ∨ verdict f concepts rule = .error) ∨
      (verdict g concepts rule = .unknown ∨ verdict g concepts rule = .error)) ∧
    ((∀ rule ∈ rules, f.Agree rule.minimumFactEvidence g) →
      (evaluateApplicability f rules concepts).state = .applicable →
      (evaluateApplicability g rules concepts).state ≠ .excluded) := by
  constructor
  · intro rule _ agree
    have settled (v : TruthValue) : (v = .unknown ∨ v = .error) ∨ (v = .true ∨ v = .false) := by
      cases v <;> simp
    obtain low | left := settled (verdict f concepts rule)
    · exact .inr (.inl low)
    obtain low | right := settled (verdict g concepts rule)
    · exact .inr (.inr low)
    exact .inl (verdicts_agree agree left right)
  · intro agree applicable excluded
    obtain ⟨p, tells, state⟩ := evaluateApplicability_tells g concepts rules
    obtain ⟨r, hr, hard, right⟩ :=
      tells.hardFalse.mp (Progress.excluded (state.symm.trans excluded))
    obtain ⟨p, tells, state⟩ := evaluateApplicability_tells f concepts rules
    have clear := Progress.applicable (state.symm.trans applicable)
    have left : verdict f concepts r = .true := by
      cases value : verdict f concepts r with
      | true => rfl
      | false => simp [tells.hardFalse.mpr ⟨r, hr, hard, value⟩] at clear
      | unknown => simp [tells.hardUnknown.mpr ⟨r, hr, hard, value⟩] at clear
      | error => simp [tells.invalid.mpr ⟨r, hr, value⟩] at clear
    have same := verdicts_agree (agree r hr) (.inl left) (.inr right)
    rw [left, right] at same
    cases same

/-- `a or b`, on facts that are not inferred. -/
def sampleRule : Discriminator := ⟨"a", .hard, samplePredicate, .notInferred⟩

theorem low_evidence_never_flips_sample :
    verdict sampleFacts sampleConcepts sampleRule = .true ∧
    sampleFacts.Agree sampleRule.minimumFactEvidence sampleMore ∧
    (verdict sampleFacts sampleConcepts sampleRule = verdict sampleMore sampleConcepts sampleRule ∨
      (verdict sampleFacts sampleConcepts sampleRule = .unknown ∨
        verdict sampleFacts sampleConcepts sampleRule = .error) ∨
      (verdict sampleMore sampleConcepts sampleRule = .unknown ∨
        verdict sampleMore sampleConcepts sampleRule = .error)) := by
  have agree : sampleFacts.Agree sampleRule.minimumFactEvidence sampleMore := by
    intro key fact accepted
    by_cases b : key = "b"
    · -- The added fact is an inferred one.
      have only (found : sampleMore.get "b" = some fact) : fact.origin = .inferred := by
        obtain rfl := Option.some.inj found
        rfl
      subst b
      constructor
      · intro found
        cases found
      · intro found
        rw [only found] at accepted
        cases accepted
    · simp [FactSet.get, sampleFacts, sampleMore, Table.find, Ne.symm b]
  refine ⟨?_, agree, (low_evidence_never_flips sampleConcepts [sampleRule] sampleFacts sampleMore).1
    sampleRule (mem_singleton_self _) agree⟩
  have sufficient : insufficientFact sampleFacts sampleRule = none := by
    simp [insufficientFact, insufficientPredicateFact, firstInsufficient, sampleRule,
      samplePredicate, PredicateExpr.ownKeys, Operand.keys]
    decide
  have holds : evaluate sampleRule.predicate sampleFacts sampleConcepts = .true := by decide
  simp [verdict, sufficient, holds]

end KnowledgePlatform.Search
