import KnowledgePlatform.Registration.Ledger

/-! The catalog of registrations in front of the ledger, and when it gives entries as current. -/

namespace KnowledgePlatform.Registration

open Graph (SourceId)

variable {δ : Type}

abbrev Projection (δ : Type) := OrderedMap SourceId (SourceRegistration δ × Nat)

/-- `call` is the update under way, between its call of the ledger and its end. -/
structure Catalog (δ : Type) where
  registrations : Projection δ
  (updating uncertain : Bool)
  call : Option (RegistrationSet δ)

/-- What the ledger answers to one call: to `reconcile`, and to each `is_current` after it. -/
structure LedgerAnswers (δ : Type) where
  reconciled : Answer (OrderedMap SourceId Nat)
  isCurrent : SourceRegistration δ → Nat → Answer Bool

def receiptProjection (desired : RegistrationSet δ) (activations : OrderedMap SourceId Nat) :
    Answer (Projection δ) := do
  ensure (desired.registrations.keys = activations.keys) .invalidRegistration
  return desired.registrations.map fun id registration =>
    (registration, (activations.get id).getD 0)

def insertNew (projection : Projection δ) (e : SourceId × SourceRegistration δ × Nat) :
    Answer (Projection δ) := do
  ensure (projection.contains e.1 = false) .invalidRegistration
  return projection.insert e.1 e.2

def checkCurrent (isCurrent : SourceRegistration δ → Nat → Answer Bool)
    (e : SourceId × SourceRegistration δ × Nat) : Answer Unit := do
  let current ← isCurrent e.2.1 e.2.2
  ensure (current = true) .unavailable

namespace Catalog

def tryNew (document remote : RegistrationSet δ) (first second : LedgerAnswers δ) :
    Answer (Catalog δ) := do
  ensure (document.space = .document ∧ remote.space = .remote) .invalidRegistration
  let documentReceipts ← first.reconciled
  let remoteReceipts ← second.reconciled
  let documents ← receiptProjection document documentReceipts
  let remotes ← receiptProjection remote remoteReceipts
  let registrations ← remotes.entries.foldlM insertNew documents
  registrations.entries.forM (checkCurrent second.isCurrent)
  return ⟨registrations, false, false, none⟩

/-- The projection after an update that the ledger answers so. -/
def replacement (s : Catalog δ) (desired : RegistrationSet δ) (answers : LedgerAnswers δ) :
    Answer (Projection δ) := do
  let activations ← answers.reconciled
  let replacement ← receiptProjection desired activations
  replacement.entries.forM (checkCurrent answers.isCurrent)
  replacement.entries.foldlM insertNew
    (s.registrations.filter fun _ e => e.1.kind ≠ desired.space.kind)

/-- The first part of `replace_checked`, up to the call of the ledger. -/
def beginReplace (encode : SetDigest δ) (s : Catalog δ) (desired : RegistrationSet δ) :
    Answer (Catalog δ) := do
  let digest ← canonicalDigest encode desired.space desired.registrations
  ensure (digest = desired.setDigest) .invalidRegistration
  ensure (s.updating = false) .unavailable
  return { s with updating := true, uncertain := true, call := some desired }

/-- The rest of it. -/
def endReplace (s : Catalog δ) (desired : RegistrationSet δ) (answers : LedgerAnswers δ) :
    Answer Unit × Catalog δ :=
  match s.replacement desired answers with
  | .error e => (.error e, { s with updating := false, call := none })
  | .ok registrations => (.ok (), ⟨registrations, false, false, none⟩)

def values (s : Catalog δ) : Answer (List (SourceRegistration δ)) := do
  ensure (s.updating = false ∧ s.uncertain = false) .unavailable
  return s.registrations.values.map Prod.fst

/-- `current_activation`; its flags and the projection are read in the states `flags` and `read`,
and after the answer of the ledger in `flags'` and `read'`. -/
def currentActivation [DecidableEq δ] (flags read flags' read' : Catalog δ)
    (isCurrent : SourceRegistration δ → Nat → Answer Bool) (tenant : String) (source : SourceId)
    (registrationRevision visibilityRevision : Nat) : Answer (Option Nat) :=
  if flags.updating ∨ flags.uncertain then .ok none
  else
    match read.registrations.get source with
    | none => .ok none
    | some (registration, activation) => do
      if registration.tenant ≠ tenant ∨ registration.registrationRevision ≠ registrationRevision ∨
          registration.visibilityRevision ≠ visibilityRevision then return none
      let current ← isCurrent registration activation
      if current = false ∨ flags'.updating ∨ flags'.uncertain then return none
      return ((read'.registrations.get source).filter (· = (registration, activation))).map Prod.snd

end Catalog

/-! ## Runs -/

inductive CatalogEvent where
  | refused
  | called (space : RegistrationNamespace)
  | succeeded (space : RegistrationNamespace)
  | failed (space : RegistrationNamespace)

/-- One step of any caller of `replace_checked`. A caller that is dropped while it waits for the
ledger fails too. -/
inductive CatalogStep (encode : SetDigest δ) (s : Catalog δ) : CatalogEvent → Catalog δ → Prop where
  | refused (desired : RegistrationSet δ) (e : RegistrationError)
      (h : s.beginReplace encode desired = .error e) : CatalogStep encode s .refused s
  | called (desired : RegistrationSet δ) (t : Catalog δ)
      (h : s.beginReplace encode desired = .ok t) : CatalogStep encode s (.called desired.space) t
  | succeeded (desired : RegistrationSet δ) (answers : LedgerAnswers δ)
      (under : s.call = some desired) (h : (s.endReplace desired answers).1 = .ok ()) :
    CatalogStep encode s (.succeeded desired.space) (s.endReplace desired answers).2
  | failed (desired : RegistrationSet δ) (answers : LedgerAnswers δ) (e : RegistrationError)
      (under : s.call = some desired) (h : (s.endReplace desired answers).1 = .error e) :
    CatalogStep encode s (.failed desired.space) (s.endReplace desired answers).2
  | dropped (desired : RegistrationSet δ) (under : s.call = some desired) :
    CatalogStep encode s (.failed desired.space) { s with updating := false, call := none }

variable {encode : SetDigest δ} {s t start : Catalog δ} {event : CatalogEvent}
  {newer older : List CatalogEvent} {space : RegistrationNamespace}

/-- While an update waits for the ledger, the catalog is uncertain. -/
def Guarded (s : Catalog δ) : Prop := s.call.isSome = true → s.uncertain = true

theorem beginReplace_ok {desired : RegistrationSet δ} (h : s.beginReplace encode desired = .ok t) :
    t = { s with updating := true, uncertain := true, call := some desired } := by
  simp only [Catalog.beginReplace, except_iffs] at h
  obtain ⟨_, -, -, -, rfl⟩ := h
  rfl

theorem endReplace_cases (s : Catalog δ) (desired : RegistrationSet δ) (answers : LedgerAnswers δ) :
    ((s.endReplace desired answers).1 = .ok () ∧ (s.endReplace desired answers).2.call = none) ∨
      ∃ e, s.endReplace desired answers =
        (.error e, { s with updating := false, call := none }) := by
  unfold Catalog.endReplace
  cases s.replacement desired answers with
  | error e => exact .inr ⟨e, rfl⟩
  | ok => exact .inl ⟨rfl, rfl⟩

theorem CatalogStep.guarded (before : Guarded s) (h : CatalogStep encode s event t) :
    Guarded t := by
  cases h with
  | refused => exact before
  | called desired t h =>
    rw [beginReplace_ok h]
    exact fun _ => rfl
  | succeeded desired answers under done =>
    obtain ⟨-, none⟩ | ⟨e, shape⟩ := endReplace_cases s desired answers
    · rw [Guarded, none]
      exact nofun
    · rw [shape] at done
      cases done
  | failed desired answers e under done =>
    obtain ⟨ok, -⟩ | ⟨e, shape⟩ := endReplace_cases s desired answers
    · rw [ok] at done
      cases done
    · rw [shape]
      exact nofun
  | dropped => exact nofun

/-- Only a success ends uncertainty, and a failure begins with it. -/
theorem CatalogStep.uncertain (before : Guarded s) (h : CatalogStep encode s event t)
    (since : s.uncertain = true ∨ event = .failed space) (not : ∀ other, event ≠ .succeeded other) :
    t.uncertain = true := by
  have under (desired : RegistrationSet δ) (h : s.call = some desired) : s.uncertain = true :=
    before (by rw [h]; rfl)
  cases h with
  | refused => exact since.resolve_right nofun
  | called desired t h => rw [beginReplace_ok h]
  | succeeded desired => exact absurd rfl (not desired.space)
  | failed desired answers e called done =>
    obtain ⟨ok, -⟩ | ⟨e, shape⟩ := endReplace_cases s desired answers
    · rw [ok] at done
      cases done
    · rw [shape]
      exact under desired called
  | dropped desired called => exact under desired called

theorem guarded_run (begun : Guarded start) {trace : List CatalogEvent}
    (run : Run (CatalogStep encode) start trace s) : Guarded s :=
  run.invariant (P := fun _ s => Guarded s) begun fun _ _ _ _ before step => step.guarded before

theorem uncertain_run (begun : Guarded start) (uncertain : start.uncertain = true)
    {trace : List CatalogEvent} (run : Run (CatalogStep encode) start trace s)
    (not : ∀ other, .succeeded other ∉ trace) : s.uncertain = true := by
  induction run with
  | start => exact uncertain
  | next run step ih =>
    have before := ih fun other inside => not other (.tail _ inside)
    refine step.uncertain (guarded_run begun run)
      (Or.inl (b := _ = CatalogEvent.failed .document) before) ?_
    rintro other rfl
    exact not other List.mem_cons_self

/-- A call of `current_activation` that waited for the ledger meanwhile gives nothing as current. -/
theorem currentActivation_rechecks [DecidableEq δ] {flags read read' : Catalog δ}
    {isCurrent : SourceRegistration δ → Nat → Answer Bool} {tenant : String} {source : SourceId}
    {revision visibility activation : Nat} (uncertain : s.uncertain = true) :
    flags.currentActivation read s read' isCurrent tenant source revision visibility ≠
      .ok (some activation) := by
  unfold Catalog.currentActivation
  split
  · simp
  · split
    · simp
    · intro current
      simp only [uncertain, or_true, if_true] at current
      split at current
      · cases current
      · obtain ⟨_, -, none⟩ := except_bind_ok current
        cases none

/-- After an update has failed at the ledger, and until one of the same namespace succeeds, nothing
is given as current, as long as no update of the other namespace succeeds: not by a call that begins
then, and not by one that began before and checks the flags again then. -/
theorem catalog_fails_closed [DecidableEq δ] {document remote : RegistrationSet δ}
    {first second : LedgerAnswers δ}
    (begun : Catalog.tryNew document remote first second = .ok start)
    (run : Run (CatalogStep encode) start (newer ++ .failed space :: older) s)
    (still : .succeeded space ∉ newer) (others : ∀ other ≠ space, .succeeded other ∉ newer) :
    s.values = .error .unavailable ∧
    (∀ read flags' read' isCurrent tenant source revision visibility,
      s.currentActivation read flags' read' isCurrent tenant source revision visibility =
        .ok none) ∧
    ∀ (flags read read' : Catalog δ) isCurrent tenant source revision visibility activation,
      flags.currentActivation read s read' isCurrent tenant source revision visibility ≠
        .ok (some activation) := by
  have idle : Guarded start := by
    simp only [Catalog.tryNew, except_iffs] at begun
    obtain ⟨-, _, -, _, -, _, -, _, -, _, -, -, rfl⟩ := begun
    rintro ⟨⟩
  obtain ⟨a, b, before, failure, rest⟩ := run.split
  have guarded := guarded_run idle before
  have uncertain : s.uncertain = true := by
    have began := failure.uncertain guarded (.inr rfl) (by rintro _ ⟨⟩)
    refine uncertain_run (failure.guarded guarded) began rest ?_
    intro other
    by_cases same : other = space
    · rw [same]
      exact still
    · exact others other same
  refine ⟨?_, ?_, ?_⟩
  · simp only [Catalog.values, uncertain, Bool.true_eq_false, and_false]
    rfl
  · intros
    simp only [Catalog.currentActivation, uncertain, or_true, if_true]
  · intros
    exact currentActivation_rechecks uncertain

/-! An update of the documents fails at the ledger, and one of the remote sources then succeeds. -/

def sampleAnswers (set : RegistrationSet Unit) : LedgerAnswers Unit :=
  ⟨.ok (set.registrations.map fun _ _ => 1), fun _ _ => .ok true⟩

def sampleRemote : RegistrationSet Unit := ⟨.remote, 1, sampleDigest, .empty⟩

def sampleStart : Catalog Unit :=
  ⟨(sampleSet 1 (some 1)).registrations.map fun _ r => (r, 1), false, false, none⟩

theorem sampleStart_new : Catalog.tryNew (sampleSet 1 (some 1)) sampleRemote
    (sampleAnswers (sampleSet 1 (some 1))) (sampleAnswers sampleRemote) = .ok sampleStart := by
  rfl

def sampleFailed : LedgerAnswers Unit := ⟨.error .unavailable, fun _ _ => .ok true⟩

/-- The catalog after a failed update of the documents. -/
def sampleUncertain : Catalog Unit := { sampleStart with uncertain := true }

theorem sampleUncertain_run : Run (CatalogStep sampleEncode) sampleStart
    [.failed .document, .called .document] sampleUncertain :=
  (Run.start.next (.called (sampleSet 2 none) _ rfl)).next
    (.failed (sampleSet 2 none) sampleFailed .unavailable rfl rfl)

/-- The documents are given as current again, though no update of theirs has succeeded. -/
theorem remote_success_reopens_documents :
    Run (CatalogStep sampleEncode) sampleStart
      ([.succeeded .remote, .called .remote] ++ .failed .document :: [.called .document])
        sampleStart ∧
    sampleStart.values = .ok [sampleSource 1] ∧ (sampleSource 1).kind = .document ∧
    sampleStart.currentActivation sampleStart sampleStart sampleStart (fun _ _ => .ok true) "tenant"
      (sampleSource 1).sourceId 1 1 = .ok (some 1) := by
  refine ⟨?_, by decide +kernel, rfl, by decide +kernel⟩
  exact (sampleUncertain_run.next (.called sampleRemote _ rfl)).next
    (.succeeded sampleRemote (sampleAnswers sampleRemote) rfl rfl)

/-- A call that began in the first state and waits for the ledger is refused with the others. -/
theorem catalog_fails_closed_documents : sampleUncertain.values = .error .unavailable ∧
    sampleStart.currentActivation sampleStart sampleUncertain sampleStart (fun _ _ => .ok true)
      "tenant" (sampleSource 1).sourceId 1 1 ≠ .ok (some 1) := by
  have run : Run (CatalogStep sampleEncode) sampleStart
    ([] ++ .failed .document :: [.called .document]) sampleUncertain := sampleUncertain_run
  have closed := catalog_fails_closed sampleStart_new run List.not_mem_nil
    fun _ _ => List.not_mem_nil
  exact ⟨closed.1, closed.2.2 _ _ _ _ _ _ _ _ _⟩

end KnowledgePlatform.Registration
