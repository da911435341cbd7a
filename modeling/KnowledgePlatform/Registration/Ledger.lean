import KnowledgePlatform.Graph.Relation
import KnowledgePlatform.Lib.OrderedMap
import KnowledgePlatform.Lib.Run

/-! The ledger of source registrations: which registration of a source is current, and under which
activation. -/

namespace KnowledgePlatform.Registration

open Graph (SourceId)

inductive RegistrationError where
  | invalidRegistration
  | unavailable
  | completionUnknown
deriving DecidableEq

abbrev Answer := Except RegistrationError

inductive SourceKind where
  | document
  | remote
deriving DecidableEq

inductive RegistrationNamespace where
  | document
  | remote
deriving DecidableEq

def RegistrationNamespace.kind : RegistrationNamespace → SourceKind
  | document => .document
  | remote => .remote

/-- A registration; the fields of each kind that nothing here reads one by one are its
`definition`. -/
structure SourceRegistration (δ : Type) where
  tenant : String
  sourceId : SourceId
  kind : SourceKind
  definition : δ
  (registrationRevision visibilityRevision : Nat)
deriving DecidableEq

abbrev Registrations (δ : Type) := OrderedMap SourceId (SourceRegistration δ)

/-- Frames and hashes the registrations of a namespace. -/
abbrev SetDigest (δ : Type) := RegistrationNamespace → List (SourceRegistration δ) → Answer Digest

/-- A complete set of one namespace: what is desired, or what the host has. -/
structure RegistrationSet (δ : Type) where
  space : RegistrationNamespace
  deploymentRevision : Nat
  setDigest : Digest
  registrations : Registrations δ

/-- An activation is a `u64`. -/
def nextActivation (activation : Nat) : Answer Nat := do
  ensure (activation + 1 < 2 ^ 64) .invalidRegistration
  return activation + 1

structure LedgerEntry (δ : Type) where
  last : SourceRegistration δ
  activation : Nat
  active : Bool

structure NamespaceReceipt (δ : Type) where
  deploymentRevision : Nat
  setDigest : Digest
  registrations : Registrations δ

structure Ledger (δ : Type) where
  entries : OrderedMap SourceId (LedgerEntry δ)
  namespaces : RegistrationNamespace → Option (NamespaceReceipt δ)
  failAfterCommit : Bool

def Ledger.new {δ : Type} : Ledger δ := ⟨.empty, fun _ => none, false⟩

variable {δ : Type} [DecidableEq δ]

def SourceRegistration.sameDefinitionIgnoringVisibility (a b : SourceRegistration δ) : Bool :=
  { a with visibilityRevision := b.visibilityRevision } = b

def canonicalDigest (encode : SetDigest δ) (space : RegistrationNamespace)
    (registrations : Registrations δ) : Answer Digest := do
  registrations.entries.forM fun e =>
    ensure (e.1 = e.2.sourceId ∧ e.2.kind = space.kind) .invalidRegistration
  encode space registrations.values

section

variable (encode : SetDigest δ)

def candidateMatchesHost (desired host : RegistrationSet δ) : Answer Bool := do
  let desiredDigest ← canonicalDigest encode desired.space desired.registrations
  let hostDigest ← canonicalDigest encode host.space host.registrations
  return desired.space = host.space ∧
    desired.deploymentRevision = host.deploymentRevision ∧ desired.setDigest = desiredDigest ∧
    host.setDigest = hostDigest ∧ desired.setDigest = host.setDigest ∧
    desired.registrations.entries = host.registrations.entries

/-- A registration may follow the last one of its source. -/
def mayFollow (registration : SourceRegistration δ) (previous : LedgerEntry δ) : Bool :=
  registration.tenant = previous.last.tenant ∧ registration.kind = previous.last.kind ∧
  previous.last.registrationRevision ≤ registration.registrationRevision ∧
  previous.last.visibilityRevision ≤ registration.visibilityRevision ∧
  (registration.registrationRevision = previous.last.registrationRevision →
    registration.sameDefinitionIgnoringVisibility previous.last = true) ∧
  ¬ (previous.active = false ∧
    registration.registrationRevision = previous.last.registrationRevision ∧
    registration.visibilityRevision = previous.last.visibilityRevision)

/-- An entry of the namespace that is no longer desired ends. -/
def retire (desired : RegistrationSet δ) (id : SourceId) (entry : LedgerEntry δ) :
    Answer (LedgerEntry δ) := do
  if entry.last.kind = desired.space.kind ∧ desired.registrations.contains id = false ∧
      entry.active = true then
    let activation ← nextActivation entry.activation
    return { entry with activation, active := false }
  else return entry

def activate (registration : SourceRegistration δ) :
    Option (LedgerEntry δ) → Answer (LedgerEntry δ)
  | none => return ⟨registration, 1, true⟩
  | some entry => do
    if entry.active = false ∨ entry.last ≠ registration then
      let activation ← nextActivation entry.activation
      return ⟨registration, activation, true⟩
    else return ⟨registration, entry.activation, true⟩

/-- The answer to a set that is in the ledger already. -/
def repeated (s : Ledger δ) (desired : RegistrationSet δ) :
    Answer (OrderedMap SourceId Nat) :=
  desired.registrations.entries.foldlM (fun activations e => do
    let entry ← okOr (s.entries.get e.1) .unavailable
    ensure (entry.active = true ∧ entry.last = e.2) .unavailable
    return activations.insert e.1 entry.activation) .empty

/-- The entries after a new set, and the activations of its registrations. -/
def advance (entries : OrderedMap SourceId (LedgerEntry δ)) (desired : RegistrationSet δ) :
    Answer (OrderedMap SourceId Nat × OrderedMap SourceId (LedgerEntry δ)) := do
  desired.registrations.entries.forM fun e => ensure (e.1 = e.2.sourceId ∧
    e.2.kind = desired.space.kind ∧ (entries.get e.1).all (mayFollow e.2) = true)
    .invalidRegistration
  let retired ← entries.entries.foldlM (fun next e => do
    let entry ← retire desired e.1 e.2
    return next.insert e.1 entry) entries
  desired.registrations.entries.foldlM (fun next e => do
    let entry ← activate e.2 (next.2.get e.1)
    return (next.1.insert e.1 entry.activation, next.2.insert e.1 entry)) (.empty, retired)

/-- What a call commits: nothing new, or the next state. The host is read twice. -/
def reconcileWith (first second : Answer (RegistrationSet δ)) (s : Ledger δ)
    (desired : RegistrationSet δ) :
    Answer (OrderedMap SourceId Nat × Option (Ledger δ)) := do
  let first ← first
  let matched ← candidateMatchesHost encode desired first
  ensure (matched = true) .invalidRegistration
  let second ← second
  let matched ← candidateMatchesHost encode desired second
  ensure (matched = true) .invalidRegistration
  let prior := s.namespaces desired.space
  ensure (prior.all fun prior => prior.deploymentRevision < desired.deploymentRevision ∨
    prior.deploymentRevision = desired.deploymentRevision ∧ desired.setDigest = prior.setDigest ∧
      desired.registrations.entries = prior.registrations.entries) .invalidRegistration
  if prior.any fun prior => desired.deploymentRevision = prior.deploymentRevision then
    let activations ← repeated s desired
    return (activations, none)
  else
    let (activations, entries) ← advance s.entries desired
    let receipt := ⟨desired.deploymentRevision, desired.setDigest, desired.registrations⟩
    return (activations, some { s with
      entries
      namespaces := Function.update s.namespaces desired.space (some receipt) })

def reconcile (first second : Answer (RegistrationSet δ)) (s : Ledger δ)
    (desired : RegistrationSet δ) : Answer (OrderedMap SourceId Nat) × Ledger δ :=
  match reconcileWith encode first second s desired with
  | .error e => (.error e, s)
  | .ok (activations, none) => (.ok activations, s)
  | .ok (activations, some next) =>
    if s.failAfterCommit then (.error .completionUnknown, { next with failAfterCommit := false })
    else (.ok activations, next)

def isCurrent (s : Ledger δ) (registration : SourceRegistration δ) (activation : Nat) : Bool :=
  (s.entries.get registration.sourceId).any fun entry =>
    entry.active ∧ entry.activation = activation ∧ entry.last = registration

end

/-! ## What a call does to an entry -/

/-- The registration of a source, and the activation, that are current. -/
def Ledger.current (s : Ledger δ) (id : SourceId) : Option (Nat × Nat) :=
  ((s.entries.get id).filter (·.active)).map fun e => (e.last.registrationRevision, e.activation)

structure Follows (old new : LedgerEntry δ) : Prop where
  tenant : new.last.tenant = old.last.tenant
  kind : new.last.kind = old.last.kind
  revision : old.last.registrationRevision ≤ new.last.registrationRevision

/-- An entry stays as it is, is added, or goes on under a later activation. -/
inductive Moves : Option (LedgerEntry δ) → Option (LedgerEntry δ) → Prop where
  | same (entry : Option (LedgerEntry δ)) : Moves entry entry
  | added (entry : LedgerEntry δ) : Moves none (some entry)
  | renewed {old new : LedgerEntry δ} (later : old.activation < new.activation)
      (follows : Follows old new) : Moves (some old) (some new)

variable {a b c : Option (LedgerEntry δ)} {old new : LedgerEntry δ} {desired : RegistrationSet δ}
  {entries : OrderedMap SourceId (LedgerEntry δ)} {id : SourceId} {s t u : Ledger δ}
  {encode : SetDigest δ}

omit [DecidableEq δ] in
theorem Moves.trans (first : Moves a b) (second : Moves b c) : Moves a c := by
  cases first with
  | same => exact second
  | added entry =>
    cases second with
    | same => exact .added entry
    | renewed => exact .added _
  | renewed later follows =>
    cases second with
    | same => exact .renewed later follows
    | renewed later' follows' =>
      exact .renewed (later.trans later') ⟨follows'.tenant.trans follows.tenant,
        follows'.kind.trans follows.kind, follows.revision.trans follows'.revision⟩

theorem nextActivation_lt {n m : Nat} (h : nextActivation n = .ok m) : n < m := by
  simp only [nextActivation, except_iffs] at h
  obtain ⟨-, rfl⟩ := h
  exact n.lt_succ_self

omit [DecidableEq δ] in
theorem retire_ok (h : retire desired id old = .ok new) :
    Moves (some old) (some new) ∧ new.last = old.last := by
  unfold retire at h
  split at h
  · simp only [except_iffs] at h
    obtain ⟨activation, next, rfl⟩ := h
    exact ⟨.renewed (nextActivation_lt next) ⟨rfl, rfl, le_rfl⟩, rfl⟩
  · cases h
    exact ⟨.same _, rfl⟩

theorem activate_ok {registration : SourceRegistration δ}
    (follows : ∀ old ∈ a, Follows old ⟨registration, 0, true⟩)
    (h : activate registration a = .ok new) :
    Moves a (some new) ∧ new.last = registration := by
  cases a with
  | none =>
    cases h
    exact ⟨.added _, rfl⟩
  | some old =>
    have follows := follows old rfl
    simp only [activate] at h
    split at h
    · simp only [except_iffs] at h
      obtain ⟨activation, next, rfl⟩ := h
      exact ⟨.renewed (nextActivation_lt next) ⟨follows.tenant, follows.kind, follows.revision⟩,
        rfl⟩
    next kept =>
      cases h
      simp only [not_or, ne_eq, not_not, Bool.not_eq_false] at kept
      obtain ⟨active, rfl⟩ := kept
      have same : (⟨old.last, old.activation, true⟩ : LedgerEntry δ) = old := by rw [← active]
      rw [same]
      exact ⟨.same _, rfl⟩

theorem advance_moves {activations : OrderedMap SourceId Nat}
    {next : OrderedMap SourceId (LedgerEntry δ)}
    (h : advance entries desired = .ok (activations, next)) (id : SourceId) :
    Moves (entries.get id) (next.get id) := by
  simp only [advance, except_bind_iff] at h
  obtain ⟨_, checked, retired, first, second⟩ := h
  -- Ending what is not desired keeps the last registration of every source.
  have ended : ∀ id, Moves (entries.get id) (retired.get id) ∧
      (retired.get id).map (·.last) = (entries.get id).map (·.last) := by
    refine foldlM_invariant_mem (P := fun next => ∀ id, Moves (entries.get id) (next.get id) ∧
      (next.get id).map (·.last) = (entries.get id).map (·.last)) ?_
        (fun id => ⟨.same _, rfl⟩) first
    rintro before ⟨k, old⟩ there after holds step id
    simp only [except_iffs] at step
    obtain ⟨new, done, rfl⟩ := step
    rw [OrderedMap.get_insert]
    split
    next same =>
      subst same
      rw [OrderedMap.mem_entries.mp there]
      exact ⟨(retire_ok done).1, congrArg some (retire_ok done).2⟩
    · exact holds id
  have follows : ∀ e ∈ desired.registrations.entries, ∀ old ∈ retired.get e.1,
      Follows old ⟨e.2, 0, true⟩ := by
    intro e inside old there
    have lasts := (ended e.1).2
    rw [Option.mem_def.mp there, Option.map_some] at lasts
    obtain ⟨found, held, same⟩ := Option.map_eq_some_iff.mp lasts.symm
    have allowed := (ensure_iff.mp (forM_iff.mp checked e inside)).2.2
    rw [held, Option.all_some, mayFollow, decide_eq_true_eq, same] at allowed
    exact ⟨allowed.1, allowed.2.1, allowed.2.2.1⟩
  refine (foldlM_invariant_mem (P := fun next => (∀ id, Moves (entries.get id) (next.2.get id)) ∧
    ∀ e ∈ desired.registrations.entries, ∀ old ∈ next.2.get e.1, Follows old ⟨e.2, 0, true⟩) ?_
    ⟨fun id => (ended id).1, follows⟩ second).1 id
  rintro ⟨acts, before⟩ ⟨k, registration⟩ inside ⟨acts', after⟩ ⟨moves, follows⟩ step
  simp only [except_iffs, Prod.mk.injEq] at step
  obtain ⟨new, done, -, rfl⟩ := step
  obtain ⟨moved, last⟩ := activate_ok (follows _ inside) done
  constructor
  · intro id
    rw [OrderedMap.get_insert]
    split
    next same =>
      subst same
      exact (moves _).trans moved
    · exact moves id
  · rintro ⟨j, other⟩ listed old there
    rw [OrderedMap.get_insert] at there
    split at there
    next same =>
      subst same
      cases there
      have same := (OrderedMap.mem_entries.mp inside).symm.trans (OrderedMap.mem_entries.mp listed)
      cases same
      exact ⟨by rw [last], by rw [last], by rw [last]⟩
    · exact follows (j, other) listed old there

/-! ## Runs -/

inductive LedgerEvent (δ : Type) where
  | reconciled (desired : RegistrationSet δ) (reply : Answer (OrderedMap SourceId Nat))
  | asked (registration : SourceRegistration δ) (activation : Nat) (reply : Bool)
  | armed

/-- One operation, with anything read from the host. -/
inductive LedgerStep (encode : SetDigest δ) (s : Ledger δ) : LedgerEvent δ → Ledger δ → Prop where
  | reconcile (first second : Answer (RegistrationSet δ)) (desired : RegistrationSet δ) :
    LedgerStep encode s (.reconciled desired (reconcile encode first second s desired).1)
      (reconcile encode first second s desired).2
  | isCurrent (registration : SourceRegistration δ) (activation : Nat) :
    LedgerStep encode s (.asked registration activation (isCurrent s registration activation)) s
  | failAfterCommitOnce : LedgerStep encode s .armed { s with failAfterCommit := true }

/-- A call leaves the ledger, or commits an advance. -/
theorem reconcile_cases (encode : SetDigest δ) (first second : Answer (RegistrationSet δ))
    (s : Ledger δ) (desired : RegistrationSet δ) :
    (reconcile encode first second s desired).2 = s ∨
      (∃ activations, advance s.entries desired =
        .ok (activations, (reconcile encode first second s desired).2.entries)) ∧
      ∀ e, (reconcile encode first second s desired).1 = .error e → e = .completionUnknown := by
  unfold reconcile
  split
  · exact .inl rfl
  · exact .inl rfl
  next activations next done =>
    have moved : ∃ activations, advance s.entries desired = .ok (activations, next.entries) := by
      simp only [reconcileWith, except_bind_iff] at done
      obtain ⟨_, -, _, -, _, -, _, -, _, -, _, -, _, -, done⟩ := done
      split at done
      · simp only [except_iffs, Prod.mk.injEq] at done
        obtain ⟨_, -, -, none⟩ := done
        cases none
      · simp only [except_iffs, Prod.mk.injEq, Option.some.injEq] at done
        obtain ⟨⟨activations, entries⟩, done, -, rfl⟩ := done
        exact ⟨activations, done⟩
    split
    · exact .inr ⟨moved, fun e failed => (Except.error.inj failed).symm⟩
    · exact .inr ⟨moved, by rintro _ ⟨⟩⟩

theorem LedgerStep.moves {event : LedgerEvent δ} (h : LedgerStep encode s event t) (id : SourceId) :
    Moves (s.entries.get id) (t.entries.get id) := by
  cases h with
  | reconcile first second desired =>
    obtain same | ⟨⟨activations, advanced⟩, -⟩ := reconcile_cases encode first second s desired
    · rw [same]
      exact .same _
    · exact advance_moves advanced id
  | isCurrent | failAfterCommitOnce => exact .same _

theorem run_moves {trace : List (LedgerEvent δ)} (run : Run (LedgerStep encode) s trace t)
    (id : SourceId) : Moves (s.entries.get id) (t.entries.get id) :=
  run.invariant (P := fun _ t => Moves (s.entries.get id) (t.entries.get id)) (.same _)
    fun _ _ _ _ before step => before.trans (step.moves id)

omit [DecidableEq δ] in
theorem Ledger.current_iff {pair : Nat × Nat} : s.current id = some pair ↔
    ∃ e, s.entries.get id = some e ∧ e.active = true ∧
      (e.last.registrationRevision, e.activation) = pair := by
  simp [Ledger.current, Option.map_eq_some_iff, Option.filter_eq_some_iff, and_assoc]

omit [DecidableEq δ] in
/-- Once a pair has stopped being current, the activation is a later one. -/
theorem Moves.stopped {pair : Nat × Nat} (h : Moves (s.entries.get id) (t.entries.get id))
    (was : s.current id = some pair) (stopped : t.current id ≠ some pair) :
    ∃ e, t.entries.get id = some e ∧ pair.2 < e.activation := by
  obtain ⟨old, there, active, rfl⟩ := Ledger.current_iff.mp was
  rw [there] at h
  generalize held : t.entries.get id = after at h
  cases h with
  | same => exact absurd (Ledger.current_iff.mpr ⟨old, held, active, rfl⟩) stopped
  | renewed later => exact ⟨_, rfl, later⟩

/-- From any ledger, so also from a new one: no pair becomes current again, revisions and
activations only increase, tenant and kind stay, and an operation refused with another error than
that of an unknown outcome changes nothing. -/
theorem activations_never_reused {between later : List (LedgerEvent δ)}
    (toT : Run (LedgerStep encode) s between t) (toU : Run (LedgerStep encode) t later u) :
    (∀ id pair, s.current id = some pair → t.current id ≠ some pair → u.current id ≠ some pair) ∧
    (∀ id old, s.entries.get id = some old → ∃ new, t.entries.get id = some new ∧
      old.last.registrationRevision ≤ new.last.registrationRevision ∧
      old.activation ≤ new.activation ∧
      new.last.tenant = old.last.tenant ∧ new.last.kind = old.last.kind) ∧
    ∀ desired e v, LedgerStep encode s (.reconciled desired (.error e)) v →
      e ≠ .completionUnknown → v = s := by
  refine ⟨?_, ?_, ?_⟩
  · intro id pair was stopped again
    obtain ⟨e, there, later⟩ := (run_moves toT id).stopped was stopped
    obtain ⟨last, last_there, -, rfl⟩ := Ledger.current_iff.mp again
    have moved := run_moves toU id
    rw [there, last_there] at moved
    cases moved with
    | same => exact absurd later (lt_irrefl _)
    | renewed more => exact absurd (later.trans more) (lt_irrefl _)
  · intro id old there
    have moved := run_moves toT id
    rw [there] at moved
    generalize t.entries.get id = after at moved
    cases moved with
    | same => exact ⟨old, rfl, le_rfl, le_rfl, rfl, rfl⟩
    | renewed later follows =>
      exact ⟨_, rfl, follows.revision, later.le, follows.tenant, follows.kind⟩
  · intro desired e v taken known
    generalize event : LedgerEvent.reconciled desired (.error e) = label at taken
    cases taken with
    | reconcile first second =>
      rw [LedgerEvent.reconciled.injEq] at event
      obtain ⟨rfl, failed⟩ := event
      obtain same | ⟨-, unknown⟩ := reconcile_cases encode first second s desired
      · exact same
      · exact absurd (unknown e failed.symm) known
    | isCurrent | failAfterCommitOnce => cases event

/-! A source registered, left out and registered again. -/

def sampleSource (revision : Nat) : SourceRegistration Unit :=
  ⟨"tenant", ⟨bigEndian 16 1, length_bigEndian 16 1⟩, .document, (), revision, 1⟩

def sampleDigest : Digest := .filled 0

/-- The set of a deployment, with the source at a revision if it is in the set. -/
def sampleSet (deployment : Nat) (revision : Option Nat) : RegistrationSet Unit :=
  ⟨.document, deployment, sampleDigest,
    revision.elim .empty fun n => OrderedMap.empty.insert (sampleSource n).sourceId
      (sampleSource n)⟩

def sampleEncode : SetDigest Unit := fun _ _ => .ok sampleDigest

def sampleCall (s : Ledger Unit) (set : RegistrationSet Unit) :=
  reconcile sampleEncode (.ok set) (.ok set) s set

theorem activations_never_reused_sample : ∃ s t u : Ledger Unit, ∃ between later,
    Run (LedgerStep sampleEncode) s between t ∧ Run (LedgerStep sampleEncode) t later u ∧
    s.current (sampleSource 1).sourceId = some (1, 1) ∧ t.current (sampleSource 1).sourceId = none ∧
    u.current (sampleSource 1).sourceId = some (2, 3) ∧
    u.current (sampleSource 1).sourceId ≠ some (1, 1) := by
  have made (s : Ledger Unit) (set : RegistrationSet Unit) : LedgerStep sampleEncode s
      (.reconciled set (sampleCall s set).1) (sampleCall s set).2 :=
        .reconcile (.ok set) (.ok set) set
  have runs := Run.of_calls sampleCall LedgerEvent.reconciled made
  let s := (sampleCall .new (sampleSet 1 (some 1))).2
  obtain ⟨between, toT, -⟩ := runs s [sampleSet 2 none]
  obtain ⟨later, toU, -⟩ := runs (sampleCall s (sampleSet 2 none)).2 [sampleSet 3 (some 2)]
  have was : s.current (sampleSource 1).sourceId = some (1, 1) := by decide +kernel
  have stopped : (sampleCall s (sampleSet 2 none)).2.current (sampleSource 1).sourceId = none := by
    decide +kernel
  refine ⟨s, _, _, between, later, toT, toU, was, stopped, by decide +kernel, ?_⟩
  refine (activations_never_reused toT toU).1 _ _ was ?_
  show (sampleCall s (sampleSet 2 none)).2.current (sampleSource 1).sourceId ≠ _
  rw [stopped]
  exact nofun

end KnowledgePlatform.Registration
