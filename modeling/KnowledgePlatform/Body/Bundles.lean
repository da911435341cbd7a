import KnowledgePlatform.Body.Items
import KnowledgePlatform.Lib.Run

/-! Bundles of a generation's artifacts: staged, sealed by validation, published. -/

namespace KnowledgePlatform.Body

open Graph (ProjectionGenerationKey ResourceId SearchError)
open Search (Platform ResourceVersionRef ContentPartRef RawBinding ExtractionProfileId
  KnowledgeUnit UnitId UnitKind NativeLocator digestString)

instance : LinearOrder ProjectionGenerationKey :=
  LinearOrder.lift' (fun key => toLex (key.sourceId, key.generationId)) <| by
    rintro ⟨a, b⟩ ⟨c, d⟩ same
    cases toLex_inj.mp same
    rfl

/-! ## Sealing -/

def failed (reason : String) : SearchError := .operationFailed ("body bundle: " ++ reason)

structure IndexedUnitDoc where
  generation : ProjectionGenerationKey
  parentResource : ResourceId
  version : ResourceVersionRef
  part : ContentPartRef
  authoritativeRepresentationRef : String
  raw : RawBinding
  unitId : UnitId
  ordinal : UInt32
  kind : UnitKind
  locator : NativeLocator
  profile : ExtractionProfileId
  textSha256 : Digest
  text : String

def IndexedUnitDoc.matches (env : Platform) (document : IndexedUnitDoc) (unit : KnowledgeUnit) :
    Bool :=
  document.parentResource = unit.version.resourceId && document.version = unit.version &&
    document.part = unit.part &&
    document.authoritativeRepresentationRef = unit.provenance.authoritativeRepresentationRef &&
    document.raw = unit.provenance.raw && document.ordinal = unit.ordinal &&
    document.kind = unit.kind && document.locator = unit.locator &&
    document.profile = unit.provenance.profile && document.text = unit.text &&
    document.textSha256 = unit.textSha256 && Search.textSha256 env document.text = unit.textSha256

def addUnit (units : List KnowledgeUnit) (unit : KnowledgeUnit) :
    Except SearchError (List KnowledgeUnit) := do
  ensure (unit.unitId ∉ units.map KnowledgeUnit.unitId) (failed "duplicate Unit in manifest")
  return unit :: units

def sealDocument (env : Platform) (key : ProjectionGenerationKey) (units : List KnowledgeUnit)
    (seen : List UnitId) (document : IndexedUnitDoc) : Except SearchError (List UnitId) := do
  ensure (document.generation = key) (failed "lexical seal: document generation")
  let unit ← okOr (units.find? fun unit => unit.unitId = document.unitId)
    (failed "lexical seal: unknown document")
  ensure (document.unitId ∉ seen) (failed "lexical seal: duplicate document")
  ensure (document.matches env unit = true) (failed "lexical seal: document differs from Unit")
  return document.unitId :: seen

def sealLexical (env : Platform) (manifest : BodyUnitManifest) (documents : List IndexedUnitDoc) :
    Except SearchError Unit := do
  ensure (manifest.entries.all (·.stored.isNone) = true) (failed "lexical seal needs every Unit")
  let units ← (manifest.entries.flatMap BodyItemEntry.units).foldlM addUnit []
  ensure (documents.length = units.length)
    (failed "lexical seal: document count differs from Units")
  let _ ← documents.foldlM (sealDocument env manifest.key units) []

def coverageItem (entry : BodyItemEntry) : Except SearchError BodyCoverageItem := do
  ensure (entry.unitCount < 2 ^ 32) (failed "unit count")
  return ⟨entry.version, entry.part, entry.operation, entry.coverage, entry.raw,
    .ofNat entry.unitCount⟩

def deriveCoverage (manifest : BodyUnitManifest) : Except SearchError BodyCoverageArtifact := do
  let items ← manifest.entries.mapM coverageItem
  return ⟨manifest.key, items⟩

/-! ## The registry -/

inductive BundleState where
  | staging
  | validated (receipt : GenerationBundleReceipt)
  | published (receipt : GenerationBundleReceipt)
deriving DecidableEq

structure StagedBundle where
  unitManifest : Option BodyUnitManifest
  coverage : Option BodyCoverageArtifact
  state : BundleState

def StagedBundle.default : StagedBundle := ⟨none, none, .staging⟩

structure PublishedBody where
  receipt : GenerationBundleReceipt
  manifest : BodyUnitManifest
  coverage : BodyCoverageArtifact

/-- The bundles and the receipts, by generation. -/
structure BundleRegistry where
  staged : OrderedMap ProjectionGenerationKey StagedBundle
  (lexical graph : OrderedMap ProjectionGenerationKey ArtifactReceipt)

def BundleRegistry.empty : BundleRegistry := ⟨.empty, .empty, .empty⟩

def recompute (env : Platform) (key : ProjectionGenerationKey) (bundle : StagedBundle)
    (lexical graph : Option ArtifactReceipt) (projectionDigest : String) :
    Except SearchError GenerationBundleReceipt := do
  let manifest ← okOr bundle.unitManifest (failed "Unit manifest missing")
  let coverage ← okOr bundle.coverage (failed "coverage artifact missing")
  let derived ← deriveCoverage manifest
  ensure (coverage = derived) (failed "coverage is not derived from the Unit manifest")
  let lexical ← okOr lexical (failed "lexical artifact missing")
  let graph ← okOr graph (failed "graph artifact missing")
  (computeBundleReceipt env key manifest.sourceSnapshot projectionDigest manifest coverage lexical
    graph).mapError fun error => failed error.text

def immutable : SearchError := failed "artifacts are immutable after validation"

inductive Reply where
  | done
  | receipt (receipt : GenerationBundleReceipt)
  | publishable (receipt : Option GenerationBundleReceipt)
  | body (body : Option PublishedBody)
  | removed (removed : Bool)

abbrev Outcome : Type := Except SearchError Reply × BundleRegistry

namespace BundleRegistry

variable (s : BundleRegistry) (env : Platform) (key : ProjectionGenerationKey)

/-- The bundle of a key; a missing one is staging and empty. -/
def bundleOf : StagedBundle := (s.staged.get key).getD .default

def isSealed : Bool := decide ((s.bundleOf key).state ≠ .staging)

def put (bundle : StagedBundle) : BundleRegistry :=
  { s with staged := s.staged.insert key bundle }

/-- What stages a second time replaces the first, and fails. -/
def once (taken : Bool) (reason : String) : Except SearchError Reply :=
  if taken then .error (failed reason) else .ok .done

def recordLexical (receipt : ArtifactReceipt) : Outcome :=
  if s.isSealed receipt.key then (.error immutable, s)
  else (once (s.lexical.contains receipt.key) "lexical artifact staged twice",
    { s with lexical := s.lexical.insert receipt.key receipt })

def recordGraph (receipt : ArtifactReceipt) : Outcome :=
  if s.isSealed receipt.key then (.error immutable, s)
  else (once (s.graph.contains receipt.key) "graph artifact staged twice",
    { s with graph := s.graph.insert receipt.key receipt })

def forgetLexical : Outcome :=
  (.ok .done, if s.isSealed key then s else { s with lexical := s.lexical.erase key })

def forgetGraph : Outcome :=
  (.ok .done, if s.isSealed key then s else { s with graph := s.graph.erase key })

def stageManifest (manifest : BodyUnitManifest) : Outcome :=
  if s.isSealed manifest.key then (.error immutable, s)
  else (once (s.bundleOf manifest.key).unitManifest.isSome "Unit manifest staged twice",
    s.put manifest.key { s.bundleOf manifest.key with unitManifest := some manifest })

def stageCoverage (artifact : BodyCoverageArtifact) : Outcome :=
  if s.isSealed artifact.key then (.error immutable, s)
  else (once (s.bundleOf artifact.key).coverage.isSome "coverage artifact staged twice",
    s.put artifact.key { s.bundleOf artifact.key with coverage := some artifact })

/-- What validation checks and computes. -/
def checked (projectionDigest : String) (documents : List IndexedUnitDoc) : Except SearchError
    GenerationBundleReceipt := do
  let receipt ← recompute env key (s.bundleOf key) (s.lexical.get key) (s.graph.get key)
    projectionDigest
  let manifest ← okOr (s.bundleOf key).unitManifest (failed "Unit manifest missing")
  sealLexical env manifest documents
  return receipt

def validate (projectionDigest : String) (documents : List IndexedUnitDoc) : Outcome :=
  if s.isSealed key then (.error immutable, s)
  else
    match s.checked env key projectionDigest documents with
    | .error e => (.error e, s.put key (s.bundleOf key))
    | .ok receipt =>
      (.ok (.receipt receipt), s.put key { s.bundleOf key with state := .validated receipt })

def publishable : Except SearchError (Option GenerationBundleReceipt) :=
  match s.staged.get key with
  | none => .ok none
  | some bundle =>
    match bundle.state with
    | .validated validated => do
      let again ← recompute env key bundle (s.lexical.get key) (s.graph.get key)
        (digestString validated.projectionDigest)
      ensure (again = validated) (failed "validated bundle changed before publication")
      return some validated
    | _ => .error (failed "bundle is not validated")

def markPublished : Outcome :=
  match s.staged.get key with
  | none => (.ok .done, s)
  | some bundle =>
    match bundle.state with
    | .validated receipt => (.ok .done, s.put key { bundle with state := .published receipt })
    | _ => (.ok .done, s)

def publishedBody : Option PublishedBody :=
  match s.staged.get key with
  | none => none
  | some bundle =>
    match bundle.state with
    | .published receipt => do
      let manifest ← bundle.unitManifest
      let coverage ← bundle.coverage
      return ⟨receipt, manifest, coverage⟩
    | _ => none

def discard : Outcome :=
  match s.staged.get key with
  | none => (.ok (.removed false), s)
  | some bundle =>
    match bundle.state with
    | .published _ => (.error (failed "published bundle cannot be discarded"), s)
    | _ => (.ok (.removed true),
        ⟨s.staged.erase key, s.lexical.erase key, s.graph.erase key⟩)

end BundleRegistry

inductive BundleCall where
  | recordLexical (receipt : ArtifactReceipt)
  | recordGraph (receipt : ArtifactReceipt)
  | forgetLexical (key : ProjectionGenerationKey)
  | forgetGraph (key : ProjectionGenerationKey)
  | stageManifest (manifest : BodyUnitManifest)
  | stageCoverage (artifact : BodyCoverageArtifact)
  | validate (key : ProjectionGenerationKey) (projectionDigest : String)
      (documents : List IndexedUnitDoc)
  | publishable (key : ProjectionGenerationKey)
  | markPublished (key : ProjectionGenerationKey)
  | publishedBody (key : ProjectionGenerationKey)
  | discard (key : ProjectionGenerationKey)

def BundleCall.run (env : Platform) (s : BundleRegistry) : BundleCall → Outcome
  | recordLexical receipt => s.recordLexical receipt
  | recordGraph receipt => s.recordGraph receipt
  | forgetLexical key => s.forgetLexical key
  | forgetGraph key => s.forgetGraph key
  | stageManifest manifest => s.stageManifest manifest
  | stageCoverage artifact => s.stageCoverage artifact
  | validate key projectionDigest documents => s.validate env key projectionDigest documents
  | publishable key => ((s.publishable env key).map .publishable, s)
  | markPublished key => s.markPublished key
  | publishedBody key => (.ok (.body (s.publishedBody key)), s)
  | discard key => s.discard key

structure BundleEvent where
  call : BundleCall
  reply : Except SearchError Reply

def bundleStep (env : Platform) (s : BundleRegistry) (event : BundleEvent) (t : BundleRegistry) :
    Prop :=
  event.call.run env s = (event.reply, t)

/-! ## What a call does to the artifacts of one key -/

/-- What the registry has of a key. -/
structure Artifacts where
  bundle : Option StagedBundle
  (lexical graph : Option ArtifactReceipt)

def BundleRegistry.artifacts (s : BundleRegistry) (key : ProjectionGenerationKey) : Artifacts :=
  ⟨s.staged.get key, s.lexical.get key, s.graph.get key⟩

/-- Nothing of the key is sealed yet. -/
def Artifacts.Open (a : Artifacts) : Prop :=
  ∀ bundle, a.bundle = some bundle → bundle.state = .staging

/-- How one call may change what the registry has of a key. -/
inductive Moves (env : Platform) (key : ProjectionGenerationKey) (event : BundleEvent) :
    Artifacts → Artifacts → Prop where
  | same (a : Artifacts) : Moves env key event a a
  | staged (a b : Artifacts) (before : a.Open) (after : b.Open) : Moves env key event a b
  | validated (a : Artifacts) (bundle : StagedBundle) (receipt : GenerationBundleReceipt)
      (projectionDigest : String) (documents : List IndexedUnitDoc) (before : a.Open)
      (call : event.call = .validate key projectionDigest documents)
      (reply : event.reply = .ok (.receipt receipt))
      (computed : recompute env key bundle a.lexical a.graph projectionDigest = .ok receipt) :
      Moves env key event a { a with bundle := some { bundle with state := .validated receipt } }
  | published (a : Artifacts) (bundle : StagedBundle) (receipt : GenerationBundleReceipt)
      (there : a.bundle = some bundle) (ready : bundle.state = .validated receipt) :
      Moves env key event a { a with bundle := some { bundle with state := .published receipt } }
  | discarded (a : Artifacts) (bundle : StagedBundle) (there : a.bundle = some bundle)
      (unpublished : ∀ receipt, bundle.state ≠ .published receipt)
      (call : event.call = .discard key) : Moves env key event a ⟨none, none, none⟩

variable {env : Platform} {s t : BundleRegistry} {key k : ProjectionGenerationKey}
  {event : BundleEvent}

theorem open_of_unsealed (h : s.isSealed key = false) : (s.artifacts key).Open := by
  intro bundle there
  have there : s.staged.get key = some bundle := there
  simpa [BundleRegistry.isSealed, BundleRegistry.bundleOf, there] using h

theorem staging_of_unsealed (h : s.isSealed key = false) : (s.bundleOf key).state = .staging := by
  simpa [BundleRegistry.isSealed] using h

@[simp] theorem artifacts_put {bundle : StagedBundle} :
    (s.put key bundle).artifacts k =
      if k = key then ⟨some bundle, s.lexical.get k, s.graph.get k⟩ else s.artifacts k := by
  unfold BundleRegistry.artifacts BundleRegistry.put
  by_cases same : k = key <;> simp [same]

/-- A call that changes one key's artifacts. -/
theorem moves_at (own : Moves env key event (s.artifacts key) (t.artifacts key))
    (others : ∀ j, j ≠ key → t.artifacts j = s.artifacts j) :
    Moves env k event (s.artifacts k) (t.artifacts k) := by
  by_cases same : k = key
  · exact same ▸ own
  · rw [others k same]
    exact .same _

theorem put_moves {bundle : StagedBundle}
    (own : Moves env key event (s.artifacts key) { s.artifacts key with bundle := some bundle }) :
    Moves env k event (s.artifacts k) ((s.put key bundle).artifacts k) := by
  refine moves_at (artifacts_put ▸ ?_) fun j other => artifacts_put.trans (if_neg other)
  rw [if_pos rfl]
  exact own

theorem staged_moves (unsealed : s.isSealed key = false) {bundle : StagedBundle}
    (staging : bundle.state = .staging) :
    Moves env k event (s.artifacts k) ((s.put key bundle).artifacts k) := by
  refine put_moves (.staged _ _ (open_of_unsealed unsealed) ?_)
  rintro _ ⟨⟩
  exact staging

theorem step_moves (h : bundleStep env s event t) (k : ProjectionGenerationKey) :
    Moves env k event (s.artifacts k) (t.artifacts k) := by
  obtain ⟨call, reply⟩ := event
  have left : t = (call.run env s).2 := (congrArg Prod.snd h).symm
  have answered : reply = (call.run env s).1 := (congrArg Prod.fst h).symm
  -- A receipt that is recorded or forgotten leaves the bundle.
  have receipts : ∀ key, s.isSealed key = false → t.staged = s.staged →
      (∀ j, j ≠ key → t.lexical.get j = s.lexical.get j ∧ t.graph.get j = s.graph.get j) →
      Moves env k ⟨call, reply⟩ (s.artifacts k) (t.artifacts k) := by
    intro key unsealed staged others
    apply moves_at (.staged _ _ (open_of_unsealed unsealed) ?_)
    · intro j other
      obtain ⟨lexical, graph⟩ := others j other
      simp only [BundleRegistry.artifacts, staged, lexical, graph]
    · intro b there
      have there : s.staged.get key = some b := staged ▸ there
      exact open_of_unsealed unsealed b there
  cases call with
  | recordLexical | recordGraph | forgetLexical | forgetGraph =>
    simp only [BundleCall.run, BundleRegistry.recordLexical, BundleRegistry.recordGraph,
      BundleRegistry.forgetLexical, BundleRegistry.forgetGraph] at left
    split at left
    · exact left ▸ .same _
    next unsealed =>
      exact receipts _ (Bool.eq_false_of_not_eq_true unsealed) (left ▸ rfl) fun j other => by
        simp [left, other]
  | stageManifest | stageCoverage =>
    simp only [BundleCall.run, BundleRegistry.stageManifest, BundleRegistry.stageCoverage] at left
    split at left
    · exact left ▸ .same _
    next unsealed =>
      have unsealed := Bool.eq_false_of_not_eq_true unsealed
      exact left ▸ staged_moves unsealed (staging_of_unsealed unsealed)
  | validate key projectionDigest documents =>
    simp only [BundleCall.run, BundleRegistry.validate] at left answered
    split at left
    · exact left ▸ .same _
    next unsealed =>
      rw [if_neg unsealed] at answered
      have unsealed := Bool.eq_false_of_not_eq_true unsealed
      split at left
      · exact left ▸ staged_moves unsealed (staging_of_unsealed unsealed)
      next receipt checked =>
        rw [checked] at answered
        simp only [BundleRegistry.checked, except_iffs] at checked
        obtain ⟨receipt, done, -, -, -, rfl⟩ := checked
        exact left ▸ put_moves (.validated _ _ receipt projectionDigest documents
          (open_of_unsealed unsealed) rfl answered done)
  | publishable | publishedBody => exact left ▸ .same _
  | markPublished key =>
    simp only [BundleCall.run, BundleRegistry.markPublished] at left
    split at left
    · exact left ▸ .same _
    next bundle there =>
      split at left
      next receipt ready =>
        exact left ▸ put_moves (.published _ bundle receipt there ready)
      · exact left ▸ .same _
  | discard key =>
    simp only [BundleCall.run, BundleRegistry.discard] at left
    split at left
    · exact left ▸ .same _
    next bundle there =>
      split at left
      · exact left ▸ .same _
      next unpublished =>
        have gone : t.artifacts key = ⟨none, none, none⟩ := by
          simp [left, BundleRegistry.artifacts]
        have own : Moves env key ⟨.discard key, reply⟩ (s.artifacts key) (t.artifacts key) :=
          gone ▸ .discarded _ bundle there unpublished rfl
        exact moves_at own fun j other => by simp [left, BundleRegistry.artifacts, other]

/-! ## Receipts -/

/-- The receipt of a sealed bundle. -/
def BundleState.receipt : BundleState → Option GenerationBundleReceipt
  | staging => none
  | validated receipt => some receipt
  | published receipt => some receipt

/-- A receipt names the projection digest it was computed with. -/
theorem recompute_again {bundle : StagedBundle} {lexical graph : Option ArtifactReceipt}
    {digest : String} {receipt : GenerationBundleReceipt}
    (h : recompute env key bundle lexical graph digest = .ok receipt) :
    recompute env key bundle lexical graph (digestString receipt.projectionDigest) =
      .ok receipt := by
  simp only [recompute, except_iffs, mapError_iff, computeBundleReceipt,
    computeBundleReceiptFrom] at h ⊢
  obtain ⟨manifest, staged, coverage, covered, derived, deriving', equal, l, recorded, g,
    recordedToo, keys, units, unitsDone, set, setDone, keysToo, body, bodyDone, items, projection,
    parsed, rfl⟩ := h
  exact ⟨manifest, staged, coverage, covered, derived, deriving', equal, l, recorded, g,
    recordedToo, keys, units, unitsDone, set, setDone, keysToo, body, bodyDone, items,
    projection, projectionDigest_digestString projection, rfl⟩

/-! ## Runs -/

variable {trace : List BundleEvent} {a b : Artifacts} {bundle : StagedBundle}
  {receipt : GenerationBundleReceipt}

/-- What is sealed stays, except that it may be published, or discarded before that. -/
theorem Moves.sealed (h : Moves env key event a b) (there : a.bundle = some bundle)
    (state : bundle.state.receipt = some receipt) :
    b = a ∨
      (bundle.state = .validated receipt ∧
        b = { a with bundle := some { bundle with state := .published receipt } }) ∨
      (bundle.state = .validated receipt ∧ b = ⟨none, none, none⟩ ∧
        event.call = .discard key) := by
  have closed : ¬ a.Open := by
    intro before
    rw [before bundle there] at state
    cases state
  cases h with
  | same => exact .inl rfl
  | staged _ before | validated _ _ _ _ before => exact absurd before closed
  | published _ _ heldThere ready =>
    cases there.symm.trans heldThere
    rw [ready] at state
    cases state
    exact .inr (.inl ⟨ready, rfl⟩)
  | discarded _ heldThere unpublished call =>
    cases there.symm.trans heldThere
    refine .inr (.inr ⟨?_, rfl, call⟩)
    cases phase : bundle.state with
    | staging =>
      rw [phase] at state
      cases state
    | validated =>
      rw [phase] at state
      cases state
      rfl
    | published r => exact absurd phase (unpublished r)

/-- What a bundle has when it is sealed: it was sealed before, or this call validated it. -/
theorem Moves.sealing (h : Moves env key event a b) (there : b.bundle = some bundle)
    (state : bundle.state.receipt = some receipt) :
    (∃ old, a.bundle = some old ∧ old.state.receipt = some receipt ∧
        old.unitManifest = bundle.unitManifest ∧ old.coverage = bundle.coverage ∧
        a.lexical = b.lexical ∧ a.graph = b.graph) ∨
      ∃ projectionDigest documents, event.call = .validate key projectionDigest documents ∧
        event.reply = .ok (.receipt receipt) ∧ bundle.state = .validated receipt ∧
        recompute env key bundle b.lexical b.graph projectionDigest = .ok receipt := by
  cases h with
  | same => exact .inl ⟨bundle, there, state, rfl, rfl, rfl, rfl⟩
  | staged _ _ after =>
    rw [after bundle there] at state
    cases state
  | validated _ _ projectionDigest documents _ call reply computed =>
    cases there
    cases state
    exact .inr ⟨projectionDigest, documents, call, reply, rfl, computed⟩
  | published held _ heldThere ready =>
    cases there
    cases state
    exact .inl ⟨held, heldThere, by rw [ready]; rfl, rfl, rfl, rfl, rfl⟩
  | discarded => cases there

/-- A sealed key's artifacts, with the validation that sealed them. -/
structure SealedBy (env : Platform) (key : ProjectionGenerationKey) (trace : List BundleEvent)
    (s : BundleRegistry) (bundle : StagedBundle) (receipt : GenerationBundleReceipt) : Prop where
  validation : ∃ newer event older before after projectionDigest documents,
    trace = newer ++ event :: older ∧ Run (bundleStep env) .empty older before ∧
    bundleStep env before event after ∧ Run (bundleStep env) after newer s ∧
    event.call = .validate key projectionDigest documents ∧
    event.reply = .ok (.receipt receipt) ∧
    after.artifacts key = ⟨some { bundle with state := .validated receipt }, s.lexical.get key,
      s.graph.get key⟩
  computed : recompute env key bundle (s.lexical.get key) (s.graph.get key)
    (digestString receipt.projectionDigest) = .ok receipt

theorem sealedBy_run (run : Run (bundleStep env) .empty trace s)
    (there : s.staged.get key = some bundle) (state : bundle.state.receipt = some receipt) :
    SealedBy env key trace s bundle receipt := by
  induction run generalizing bundle with
  | start => cases there
  | @next trace s event t run h ih =>
    have move := step_moves h key
    obtain ⟨old, held, oldState, manifest, coverage, lexical, graph⟩ |
      ⟨projectionDigest, documents, call, reply, validated, computed⟩ := move.sealing there state
    · obtain ⟨⟨newer, earlier, older, before, after, projectionDigest, documents, rfl, first, taken,
        later, call, reply, view⟩, computed⟩ := ih held oldState
      have lexical : s.lexical.get key = t.lexical.get key := lexical
      have graph : s.graph.get key = t.graph.get key := graph
      obtain ⟨oldManifest, oldCoverage, oldPhase⟩ := old
      obtain ⟨newManifest, newCoverage, newPhase⟩ := bundle
      cases manifest
      cases coverage
      rw [lexical, graph] at view computed
      exact ⟨⟨event :: newer, earlier, older, before, after, projectionDigest, documents, rfl,
        first, taken, later.next h, call, reply, view⟩, computed⟩
    · refine ⟨⟨[], event, trace, s, t, projectionDigest, documents, rfl, run, h, .start, call,
        reply, ?_⟩, recompute_again computed⟩
      rw [← validated]
      exact congrArg (Artifacts.mk · (t.lexical.get key) (t.graph.get key)) there

theorem published_run (run : Run (bundleStep env) s trace t)
    (there : s.staged.get key = some bundle) (published : bundle.state = .published receipt) :
    t.artifacts key = s.artifacts key := by
  induction run with
  | start => rfl
  | next _ h ih =>
    have held : (BundleRegistry.artifacts _ key).bundle = some bundle :=
      (congrArg Artifacts.bundle ih).trans there
    obtain same | ⟨validated, -⟩ | ⟨validated, -⟩ :=
      (step_moves h key).sealed held (by rw [published]; rfl)
    · exact same.trans ih
    · cases validated.symm.trans published
    · cases validated.symm.trans published

/-- In every run of the registry a sealed key has the artifacts and the receipt that a validation
of the run gave it, the receipt is what they compute to, and the next call leaves them: it may
publish a validated key or discard it, and a published one stays as it is ever after. A validated
key is publishable with its receipt. -/
theorem sealed_bundles_never_drift (run : Run (bundleStep env) .empty trace s) :
    (∀ key bundle receipt, s.staged.get key = some bundle →
      bundle.state.receipt = some receipt →
      (∃ manifest coverage lexical graph, bundle.unitManifest = some manifest ∧
        bundle.coverage = some coverage ∧ s.lexical.get key = some lexical ∧
        s.graph.get key = some graph) ∧
      SealedBy env key trace s bundle receipt ∧
      ∀ event t, bundleStep env s event t →
        t.artifacts key = s.artifacts key ∨
        (bundle.state = .validated receipt ∧ t.artifacts key =
          ⟨some { bundle with state := .published receipt }, s.lexical.get key, s.graph.get key⟩) ∨
        (bundle.state = .validated receipt ∧ t.artifacts key = ⟨none, none, none⟩ ∧
          event.call = .discard key)) ∧
    (∀ key bundle receipt, s.staged.get key = some bundle → bundle.state = .published receipt →
      (∀ later t, Run (bundleStep env) s later t → t.artifacts key = s.artifacts key) ∧
      s.discard key = (.error (failed "published bundle cannot be discarded"), s)) ∧
    ∀ key bundle receipt, s.staged.get key = some bundle → bundle.state = .validated receipt →
      s.publishable env key = .ok (some receipt) := by
  refine ⟨?_, ?_, ?_⟩
  · intro key bundle receipt there state
    have sealedBy := sealedBy_run run there state
    refine ⟨?_, sealedBy, fun event t h => (step_moves h key).sealed there state⟩
    have computed := sealedBy.computed
    simp only [recompute, except_iffs] at computed
    obtain ⟨manifest, staged, coverage, covered, -, -, -, l, recorded, g, recordedToo, -⟩ :=
      computed
    exact ⟨manifest, coverage, l, g, staged, covered, recorded, recordedToo⟩
  · intro key bundle receipt there published
    refine ⟨fun later t rest => published_run rest there published, ?_⟩
    simp only [BundleRegistry.discard, there, published]
  · intro key bundle receipt there validated
    have state : bundle.state.receipt = some receipt := by
      rw [validated]
      rfl
    have computed := (sealedBy_run run there state).computed
    simp only [BundleRegistry.publishable, there, validated, computed, except_ok_bind]
    exact except_bind_iff.mpr ⟨(), ensure_iff.mpr trivial, rfl⟩

/-! ## Failed calls -/

/-- What a failed call has to find to leave the registry as it is: a second artifact takes the
place of the first before it is refused, and a validation stages an empty bundle. -/
def BundleCall.Unchanging (s : BundleRegistry) : BundleCall → Prop
  | recordLexical receipt =>
    s.isSealed receipt.key = true ∨ s.lexical.get receipt.key = some receipt
  | recordGraph receipt => s.isSealed receipt.key = true ∨ s.graph.get receipt.key = some receipt
  | stageManifest manifest =>
    s.isSealed manifest.key = true ∨ (s.bundleOf manifest.key).unitManifest = some manifest
  | stageCoverage artifact =>
    s.isSealed artifact.key = true ∨ (s.bundleOf artifact.key).coverage = some artifact
  | validate key _ _ => s.staged.contains key = true
  | _ => True

theorem put_eq_self : s.put key bundle = s ↔ s.staged.get key = some bundle := by
  rw [← OrderedMap.insert_eq_self]
  exact ⟨congrArg BundleRegistry.staged, fun same => by rw [BundleRegistry.put, same]⟩

/-- A sealed bundle is there. -/
theorem contains_of_sealed (h : s.isSealed key = true) : s.staged.contains key = true := by
  cases there : s.staged.get key with
  | none =>
    simp [BundleRegistry.isSealed, BundleRegistry.bundleOf, there, StagedBundle.default] at h
  | some => simp [OrderedMap.contains, there]

theorem guarded_unchanged {closed : Bool} {refusal reply : Except SearchError Reply} :
    (if closed then (refusal, s) else (reply, t)).2 = s ↔ closed = true ∨ t = s := by
  cases closed <;> simp

/-- A call that fails leaves the registry as it was, and with it the outcome of every later call,
exactly where it finds what it would write. -/
theorem failed_call_unchanged_iff {call : BundleCall} {error : SearchError}
    (refused : call.run env s = (.error error, t)) : t = s ↔ call.Unchanging s := by
  have answered : (call.run env s).1 = .error error := congrArg Prod.fst refused
  obtain rfl : (call.run env s).2 = t := congrArg Prod.snd refused
  cases call with
  | recordLexical | recordGraph =>
    rw [BundleCall.Unchanging, ← OrderedMap.insert_eq_self]
    refine guarded_unchanged.trans (or_congr_right ⟨?_, fun same => by rw [same]⟩)
    first | exact congrArg BundleRegistry.lexical | exact congrArg BundleRegistry.graph
  | stageManifest artifact | stageCoverage artifact =>
    refine guarded_unchanged.trans (or_congr_right (put_eq_self.trans ?_))
    rcases there : s.staged.get artifact.key with _ | ⟨unitManifest, coverage, state⟩ <;>
      simp [BundleRegistry.bundleOf, there, StagedBundle.default]
  | validate key projectionDigest documents =>
    simp only [BundleCall.run, BundleRegistry.validate, BundleCall.Unchanging] at answered ⊢
    split
    next closed =>
      exact iff_of_true rfl (contains_of_sealed closed)
    next unsealed =>
      rw [if_neg unsealed] at answered
      split at answered
      · rw [put_eq_self]
        cases there : s.staged.get key <;>
          simp [BundleRegistry.bundleOf, OrderedMap.contains, there]
      · cases answered
  | publishable => exact iff_of_true rfl trivial
  | forgetLexical | forgetGraph | publishedBody => cases answered
  | markPublished =>
    simp only [BundleCall.run, BundleRegistry.markPublished] at answered
    split at answered
    · cases answered
    · split at answered <;> cases answered
  | discard =>
    refine iff_of_true ?_ trivial
    simp only [BundleCall.run, BundleRegistry.discard] at answered ⊢
    split at answered
    · cases answered
    · split at answered
      · rfl
      · cases answered

def samplePlatform : Platform := ⟨fun _ => .filled 0, id⟩

def sampleKey : ProjectionGenerationKey := ⟨.filled 1, .filled 2⟩

def sampleReceipt : ArtifactReceipt := ⟨sampleKey, samplePlatform.sha256 [], 0⟩

/-- A bundle without items, staged, validated and published. -/
def sampleCalls : List BundleCall :=
  [.stageManifest ⟨sampleKey, "s", []⟩, .stageCoverage ⟨sampleKey, []⟩,
    .recordLexical sampleReceipt, .recordGraph sampleReceipt,
    .validate sampleKey (digestString (samplePlatform.sha256 [])) [], .markPublished sampleKey]

def sampleRegistry : BundleRegistry :=
  sampleCalls.foldl (fun s call => (call.run samplePlatform s).2) .empty

/-- A published bundle is there in every later state. -/
theorem sealed_bundles_never_drift_published :
    ∃ trace bundle receipt, Run (bundleStep samplePlatform) .empty trace sampleRegistry ∧
      sampleRegistry.staged.get sampleKey = some bundle ∧ bundle.state = .published receipt ∧
      ∀ later t, Run (bundleStep samplePlatform) sampleRegistry later t →
        t.artifacts sampleKey = sampleRegistry.artifacts sampleKey := by
  obtain ⟨trace, run, -⟩ : ∃ trace,
      Run (bundleStep samplePlatform) .empty trace sampleRegistry ∧ _ :=
    Run.of_calls (fun s call => BundleCall.run samplePlatform s call) BundleEvent.mk
      (fun _ _ => rfl) _ sampleCalls
  have published : (sampleRegistry.staged.get sampleKey).any (fun bundle =>
      match bundle.state with | .published _ => true | _ => false) = true := by decide +kernel
  obtain ⟨bundle, there, shown⟩ := any_exists published
  split at shown
  next receipt state =>
    have kept := ((sealed_bundles_never_drift run).2.1 _ bundle receipt there state).1
    exact ⟨trace, bundle, receipt, run, there, state, kept⟩
  · cases shown

/-- The same receipt again is refused and changes nothing. -/
theorem failed_call_unchanged_repeated :
    ∃ s t error, (BundleCall.recordLexical sampleReceipt).run samplePlatform s = (.error error, t) ∧
      t = s := by
  have refused : (BundleCall.recordLexical sampleReceipt).run samplePlatform
      (BundleRegistry.empty.recordLexical sampleReceipt).2 =
        (.error (failed "lexical artifact staged twice"), _) := rfl
  exact ⟨_, _, _, refused, (failed_call_unchanged_iff refused).mpr (.inr (by decide))⟩

/-- A validation that fails for want of a manifest stages a bundle: its generation was publishable
without one before, and is not after. -/
theorem failed_validation_stages_bundle :
    ∃ error t, (BundleCall.validate sampleKey "" []).run samplePlatform .empty = (.error error, t) ∧
      t ≠ .empty ∧ BundleRegistry.empty.publishable samplePlatform sampleKey = .ok none ∧
      t.publishable samplePlatform sampleKey = .error (failed "bundle is not validated") := by
  refine ⟨_, _, rfl, ?_, rfl, by decide⟩
  intro same
  cases congrArg (fun s => s.staged.entries.length) same

end KnowledgePlatform.Body
