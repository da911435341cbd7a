import KnowledgePlatform.Lib.Avoids
import KnowledgePlatform.Projection.Authority

/-! Whether the evidence that is there suffices for the claims that are required. -/

namespace KnowledgePlatform.Projection

open List
open Graph (TypedValue)
open Search (valuesEqualAt_symm valuesEqualAt_congr)

inductive EvidenceRole where
  | primary
  | corroborating
  | contradicting
  | contextual
  | derived
deriving DecidableEq

structure EvidenceReference where
  upstreamOrigin : String
  role : EvidenceRole
  isSummary : Bool

/-- Only direct evidence with an origin can verify support or conflict. -/
def EvidenceReference.isVerifiedDirect (e : EvidenceReference) : Bool :=
  !e.isSummary && trim e.upstreamOrigin ≠ "" &&
    e.role ∈ [EvidenceRole.primary, .corroborating, .contradicting]

inductive ClaimState where
  | supported
  | absent
  | unknown
  | conflicted
  | invalid
deriving DecidableEq

structure Claim where
  claimId : Uuid
  value : Option TypedValue
  evidenceRefs : List EvidenceReference
  state : ClaimState

structure EvidenceRequirement where
  requiredClaims : List Uuid
  (authorityRequirements freshnessRequirements : List String)
  minimumIndependentSources : Nat

inductive EvidenceSufficiency where
  | sufficient
  | insufficient
  | unresolved
  | conflicted
  | invalid
deriving DecidableEq

/-- Each value is compared with the one observed before it. -/
def agree : Option TypedValue → List TypedValue → Bool
  | _, [] => true
  | observed, value :: values =>
    observed.all (semanticallyEqual · value) && agree (some value) values

structure Flags where
  (insufficient unresolved : Bool)

/-- What the claims for one required claim come to: an outcome for all, or flags. -/
def judge (minimum : Nat) (claims : List Claim) : Except EvidenceSufficiency Flags := do
  let any (state : ClaimState) : Bool := claims.any fun claim => claim.state = state
  if claims.isEmpty then return ⟨false, true⟩
  ensure (any .invalid = false) .invalid
  ensure (any .conflicted = false) .conflicted
  ensure ((any .supported && any .absent) = false) .conflicted
  let supported := claims.filter fun claim => claim.state = .supported
  ensure (agree none (supported.filterMap Claim.value) = true) .conflicted
  let evidence := claims.flatMap Claim.evidenceRefs
  let verified (roles : List EvidenceRole) := evidence.filter fun e =>
    e.role ∈ roles ∧ e.isVerifiedDirect
  ensure ((verified [.contradicting]).isEmpty = true) .conflicted
  let contradicted := evidence.any fun e => e.role = .contradicting
  let origins := ((verified [.primary, .corroborating]).map fun e => trim e.upstreamOrigin).dedup
  return if any .absent then ⟨true, contradicted⟩
    else if !any .supported || any .unknown then ⟨false, true⟩
    else ⟨(verified [.primary]).isEmpty || origins.length < minimum, contradicted⟩

def evaluateEvidenceSufficiency (requirement : EvidenceRequirement) (claims : List Claim) :
    EvidenceSufficiency :=
  match requirement.requiredClaims.mapM fun id =>
    judge requirement.minimumIndependentSources (claims.filter fun c => c.claimId = id) with
  | .error outcome => outcome
  | .ok flags =>
    if flags.any Flags.insufficient then .insufficient
    else if flags.any Flags.unresolved || requirement.authorityRequirements ≠ [] ||
      requirement.freshnessRequirements ≠ [] then .unresolved
    else .sufficient

theorem agree_iff {values : List TypedValue} :
    agree none values = true ↔ values.Pairwise fun v w => semanticallyEqual v w = true := by
  have : IsTrans TypedValue fun v w => semanticallyEqual v w = true := by
    refine ⟨fun u v w first second => ?_⟩
    simp only [semanticallyEqual, decide_eq_true_eq] at first second ⊢
    exact (valuesEqualAt_congr second).symm.trans first
  have chain (v : TypedValue) (values : List TypedValue) : agree (some v) values = true ↔
      IsChain (fun v w => semanticallyEqual v w = true) (v :: values) := by
    induction values generalizing v with
    | nil => simp [agree]
    | cons w values ih => simp [agree, ih]
  rw [← isChain_iff_pairwise]
  cases values with
  | nil => simp [agree]
  | cons v values => exact chain v values

theorem agree_perm {values others : List TypedValue} (perm : values.Perm others) :
    agree none values = agree none others := by
  rw [Bool.eq_iff_iff, agree_iff, agree_iff]
  refine perm.pairwise_iff ?_
  intro v w same
  simp only [semanticallyEqual, decide_eq_true_eq] at same ⊢
  exact valuesEqualAt_symm.trans same

theorem judge_perm {minimum : Nat} {claims others : List Claim} (perm : claims.Perm others) :
    judge minimum claims = judge minimum others := by
  have evidence := perm.flatMap_right Claim.evidenceRefs
  have origins (p : EvidenceReference → Bool) := ((evidence.filter p).map fun e =>
    trim e.upstreamOrigin).dedup.length_eq
  simp only [judge, perm.any_eq, perm.isEmpty_eq, agree_perm ((perm.filter _).filterMap _),
    evidence.any_eq, (evidence.filter _).isEmpty_eq, origins]

/-- The outcomes that end the evaluation at once. -/
def stops : List EvidenceSufficiency := [.conflicted, .invalid]

/-- The same outcome, or two that end the evaluation. -/
def EvidenceSufficiency.Alike (a b : EvidenceSufficiency) : Prop := a = b ∨ a ∈ stops ∧ b ∈ stops

/-- The order of the claims does not matter, nor that of the required ones, unless several of them
are conflicted or invalid: then the first decides which of the two it is. -/
theorem sufficiency_unordered (r : EvidenceRequirement) (claims : List Claim) :
    (∀ others, others.Perm claims → evaluateEvidenceSufficiency r others =
      evaluateEvidenceSufficiency r claims) ∧
    ∀ required, required.Perm r.requiredClaims →
      (evaluateEvidenceSufficiency { r with requiredClaims := required } claims).Alike
        (evaluateEvidenceSufficiency r claims) := by
  constructor
  · intro others perm
    simp only [evaluateEvidenceSufficiency, judge_perm (perm.filter _)]
  · intro required perm
    unfold evaluateEvidenceSufficiency
    generalize judged : (fun id => judge _ (claims.filter fun c => c.claimId = id)) = f
    have stopped {l : List Uuid} {outcome : EvidenceSufficiency} (h : l.mapM f = .error outcome) :
        outcome ∈ stops := by
      by_contra other
      refine avoids_mapM (fun _ _ => judged ▸ ?_) h
      simp only [stops, mem_cons, not_mem_nil, or_false, not_or, eq_comm (a := outcome)] at other
      dsimp only [judge]
      split
      · simp
      · simp [other]
    cases done : r.requiredClaims.mapM f with
    | error outcome =>
      cases again : required.mapM f with
      | error => exact .inr ⟨stopped again, stopped done⟩
      | ok flags =>
        obtain ⟨_, ok, -⟩ := mapM_perm perm again
        cases done.symm.trans ok
    | ok flags =>
      obtain ⟨others, ok, same⟩ := mapM_perm perm.symm done
      rw [ok]
      have any (p : Flags → Bool) : others.any p = flags.any p := by
        rw [Bool.eq_iff_iff]
        simp only [any_eq_true, same]
      exact .inl (by simp only [any])

def sampleClaim (byte : UInt8) (state : ClaimState) : Claim :=
  ⟨.filled byte, none, [], state⟩

def sampleClaims : List Claim := [sampleClaim 0 .conflicted, sampleClaim 1 .invalid]

theorem required_order_decides :
    evaluateEvidenceSufficiency ⟨sampleClaims.map (·.claimId), [], [], 1⟩ sampleClaims =
      .conflicted ∧
    evaluateEvidenceSufficiency ⟨sampleClaims.reverse.map (·.claimId), [], [], 1⟩ sampleClaims =
      .invalid := by
  decide

end KnowledgePlatform.Projection
