import KnowledgePlatform.Documents.Publishing
import KnowledgePlatform.Lib.Run

/-! Runs of the document repository, and what a committed transaction can change. -/

namespace KnowledgePlatform.Documents

/-- A call of the repository; those without a verified actor are made by trusted code. -/
inductive Command where
  | createInitialDocument (ctx : Option VerifiedActorContext) (c : InitialDocument)
  | mutateVersion (ctx : Option VerifiedActorContext) (m : VersionMutation)
  | publishInitialVersion (ctx : Option VerifiedActorContext) (r : PublishInitial)
  | publishNextVersion (ctx : Option VerifiedActorContext) (r : PublishNext)
  | reserve (ctx : Option VerifiedActorContext) (r : SchedulePublish)
  | cancel (ctx : Option VerifiedActorContext) (r : CancelSchedule)
  | recordRetry (publishOperationId : Uuid)
  | terminalize (publishOperationId : Uuid)
  | withdraw (ctx : Option VerifiedActorContext) (r : WithdrawVersion)
  | endPublication (ctx : Option VerifiedActorContext) (r : EndPublication)
  | management (ctx : VerifiedActorContext) (c : ManagementCommand)
  | initializeRootPolicy (bootstrapActor : Option PrincipalRef) (ctx : VerifiedActorContext)
      (grants : List PolicyGrant)

/-- A call with all that its transaction reads from outside the tables. -/
structure Call where
  env : Env
  evidence : Evidence
  command : Command

/-- The tables after a transaction, unless it fails. -/
def commit (db : Database) (call : Call) : Except RepositoryError Database :=
  match call.command with
  | .createInitialDocument ctx c => createInitialDocument call.env call.evidence db ctx c
  | .mutateVersion ctx m => Prod.snd <$> mutateScoped call.env call.evidence db ctx m
  | .publishInitialVersion ctx r =>
    Prod.snd <$> publishInitialVersion call.env call.evidence db ctx r
  | .publishNextVersion ctx r => Prod.snd <$> publishNextVersion call.env call.evidence db ctx r
  | .reserve ctx r => Prod.snd <$> reserve call.env call.evidence db ctx r
  | .cancel ctx r => Prod.snd <$> cancel call.env db ctx r
  | .recordRetry id => Prod.snd <$> recordRetry call.env db id
  | .terminalize id => Prod.snd <$> terminalize call.env db id
  | .withdraw ctx r => Prod.snd <$> withdraw call.env call.evidence db ctx r
  | .endPublication ctx r => Prod.snd <$> endPublication call.env db ctx r
  | .management ctx c => Prod.snd <$> execute call.env db ctx c
  | .initializeRootPolicy actor ctx grants =>
    Prod.snd <$> initializeRootPolicy call.env db actor ctx grants

def Step (db : Database) (call : Call) (after : Database) : Prop := commit db call = .ok after

/-- Reached from a freshly migrated database by the calls of the trace. -/
def Reached (trace : List Call) (db : Database) : Prop := Run Step .migrated trace db

/-! ## A small repository -/

def sampleUuid (n : UInt8) : Uuid := ⟨List.replicate 15 7 ++ [n], by simp⟩

/-- Draws identifiers from `first` on. -/
def sampleEnv (first : UInt8) : Env where
  clock := 1
  laterClock := 1
  now := 1
  newId n := sampleUuid (first + UInt8.ofNat n)
  sha256 := .padded
  nfc := id

def sampleEvidence : Evidence where
  loadManifest id := .ok ⟨"title", [⟨"a", 0, "text", "plain", (sampleEnv 0).sha256 id.bytes⟩]⟩
  validatePrepared := .ok ⟨"title", [⟨"a", 0, "text", "plain", (sampleEnv 0).sha256 []⟩]⟩
  checkExistingInitialFormats := .ok ()
  insertContentItems := .ok ()
  completeManifest _ := true
  baseQualitySafe _ := true

def sampleCall (first : UInt8) (command : Command) : Call :=
  ⟨sampleEnv first, sampleEvidence, command⟩

def sampleSubject : PolicySubject := ⟨.principal, "idp", "ada", by decide, by decide⟩

def sampleActor : VerifiedActorContext where
  principal := ⟨"idp", "ada"⟩
  subjects := [sampleSubject]
  validUntil := 2
  invocationKind := .humanInteractive
  serviceExecutor := none
  own := ⟨sampleSubject, List.mem_singleton_self _, rfl, rfl, rfl⟩
  executed h := absurd rfl h

/-- Grants every action on the root. -/
def sampleInitialize : Call :=
  sampleCall 1 (.initializeRootPolicy (some sampleActor.principal) sampleActor
    [⟨sampleSubject, Action.all.toFinset, by decide⟩])

/-! ## Effects -/

variable {db after mid : Database}

/-- Folders and policies are as before, and every document is in a folder that held one before. -/
structure InPlace (db after : Database) : Prop where
  folders : after.folders = db.folders
  bindings : after.bindings = db.bindings
  grants : after.grants = db.grants
  homes : ∀ d ∈ after.documents, ∃ old ∈ db.documents, old.folderId = d.folderId

namespace InPlace

theorem same (folders : after.folders = db.folders) (bindings : after.bindings = db.bindings)
    (grants : after.grants = db.grants) (documents : after.documents = db.documents) :
    InPlace db after :=
  ⟨folders, bindings, grants, fun d hd => ⟨d, documents ▸ hd, rfl⟩⟩

theorem refl (db : Database) : InPlace db db := same rfl rfl rfl rfl

/-- A document that is changed stays in its folder. -/
theorem changed {id : Uuid} {f : Table.Change Document.documentId}
    (folders : after.folders = db.folders) (bindings : after.bindings = db.bindings)
    (grants : after.grants = db.grants) (documents : after.documents = db.documents.modify id f)
    (stays : ∀ d, (f.row d).folderId = d.folderId) : InPlace db after := by
  refine ⟨folders, bindings, grants, ?_⟩
  intro d hd
  rw [documents] at hd
  obtain ⟨old, stored, rfl⟩ := Table.mem_modify.mp hd
  refine ⟨old, stored, ?_⟩
  split
  · exact (stays old).symm
  · rfl

theorem trans (h : InPlace db mid) (h' : InPlace mid after) : InPlace db after := by
  refine ⟨h'.folders.trans h.folders, h'.bindings.trans h.bindings, h'.grants.trans h.grants, ?_⟩
  intro d hd
  obtain ⟨old, stored, kept⟩ := h'.homes d hd
  obtain ⟨first, there, stays⟩ := h.homes old stored
  exact ⟨first, there, stays.trans kept⟩

end InPlace

/-- What a transaction did, with the checks that later arguments rest on. -/
inductive Effect (db : Database) : Database → Prop where
  | none : Effect db db
  | documentCreated (c : InitialDocument) (documents : Table Document.documentId)
      (versions : Table DocumentVersion.versionId)
      (home : (db.folders.find c.folderId).isSome = true)
      (inserted : db.documents.insert c.document = some documents) :
    Effect db { db with documents, versions }
  | documentMoved (documentId folderId : Uuid) (revision : Int)
      (home : (db.folders.find folderId).isSome = true) :
    Effect db (db.placeDocument documentId folderId revision)
  | folderCreated (f : Folder) (folders : Table Folder.folderId) (parent : Uuid)
      (child : f.parentFolderId = some parent) (home : (db.folders.find parent).isSome = true)
      (inserted : db.folders.insert f = some folders) : Effect db { db with folders }
  | folderRenamed (folderId : Uuid) (name : String) (revision : Int) :
    Effect db (db.setName folderId name revision)
  | folderMoved (folderId target : Uuid) (revision : Int) (notRoot : folderId ≠ systemRootFolderId)
      (outside : target ∉ db.subtreeIds folderId) (home : (db.folders.find target).isSome = true) :
    Effect db (db.setParent folderId target revision)
  | policyAdded (policyId : Uuid) (target : PolicyTarget) (revision : Int) (mode : PolicyMode)
      {mid : Database} (added : db.addBinding policyId target revision mode = .ok mid) :
        Effect db mid
  | policyReplaced (policyId : Uuid) (revision : Int) (mode : PolicyMode) {mid : Database}
      (replaced : db.replaceBinding policyId revision mode = .ok mid) : Effect db mid

/-- Some effect and, besides, changes in place. -/
def HasEffect (db after : Database) : Prop := ∃ mid, Effect db mid ∧ InPlace mid after

theorem InPlace.hasEffect (h : InPlace db after) : HasEffect db after := ⟨db, .none, h⟩

theorem Effect.hasEffect (h : Effect db after) : HasEffect db after := ⟨after, h, .refl after⟩

theorem HasEffect.none : HasEffect db db := (InPlace.refl db).hasEffect

/-- A transaction that only answers. -/
theorem HasEffect.answered {α β : Type} {x : Except RepositoryError α} {f : α → β}
    {done : Committed β} (h : (do let a ← x; return (f a, db)) = .ok done) :
    HasEffect db done.2 := by
  simp only [except_iffs] at h
  obtain ⟨_, -, rfl⟩ := h
  exact .none

/-! ## Working versions -/

section

variable {env : Env} {evidence : Evidence} {ctx : Option VerifiedActorContext}

theorem mutateOnce_effect {σ α : Type} {documentId : Uuid} {actions : List Action}
    {actor : PrincipalRef} {stored : Option σ} {replay : σ → Except RepositoryError α}
    {new : Document → Except RepositoryError (Committed α)} {done : Committed α}
    (fresh : ∀ d, new d = .ok done → HasEffect db done.2)
    (h : mutateOnce env db ctx documentId actions actor stored replay new = .ok done) :
    HasEffect db done.2 := by
  simp only [mutateOnce, except_bind_iff] at h
  obtain ⟨_, -, d, -, h⟩ := h
  cases stored with
  | none => exact fresh d h
  | some => exact .answered h

theorem setRevision_inPlace (documentId : Uuid) (revision : Int) :
    InPlace db (db.setRevision documentId revision) :=
  .changed rfl rfl rfl rfl fun _ => rfl

theorem setCurrent_inPlace (documentId : Uuid) (current : Option Uuid) (revision : Int) :
    InPlace db (db.setCurrent documentId current revision) :=
  .changed rfl rfl rfl rfl fun _ => rfl

theorem insertVersionOperation_inPlace {e : RepositoryError} {o : VersionOperation}
    (h : db.insertVersionOperation e o = .ok after) : InPlace db after := by
  simp only [Database.insertVersionOperation, except_iffs] at h
  obtain ⟨_, -, rfl⟩ := h
  exact .same rfl rfl rfl rfl

theorem writeVersion_inPlace {identity : VersionCommandIdentity} {versionNo : Int}
    {current : Option Uuid} (h : writeVersion evidence db identity versionNo current = .ok after) :
    InPlace db after := by
  unfold writeVersion at h
  split at h
  · simp only [except_iffs] at h
    obtain ⟨_, -, -, rfl⟩ := h
    exact .same rfl rfl rfl rfl
  · obtain rfl := Except.ok.inj h
    cases current with
    | none => exact .refl db
    | some => exact .same rfl rfl rfl rfl
  · simp only [except_iffs] at h
    obtain ⟨-, rfl⟩ := h
    exact .refl db

/-! ## Publication -/

variable {documentId versionId operationId : Uuid} {metadata : Json}

theorem insertRevision_inPlace {majorNo minorNo : Int} {source : RevisionSource}
    (h : db.insertRevision documentId versionId majorNo minorNo metadata source operationId =
      .ok after) : InPlace db after := by
  simp only [Database.insertRevision, except_iffs] at h
  obtain ⟨-, _, -, -, _, -, rfl⟩ := h
  exact .same rfl rfl rfl rfl

theorem completeIf_inPlace {identity : PublishCommandIdentity} {due : Bool}
    (h : completeIf db identity due = .ok after) : InPlace db after := by
  unfold completeIf at h
  split at h
  · simp only [completeDueSchedule, clearDue, except_iffs] at h
    obtain ⟨-, -, rfl⟩ := h
    exact .same rfl rfl rfl rfl
  · obtain rfl := Except.ok.inj h
    exact .refl db

variable {done : Committed PublishDocumentResult}

theorem publish_effect {o : PublishOperation} {isInitialPath due : Bool}
    (h : publish db ctx o metadata isInitialPath due = .ok done) : HasEffect db done.2 := by
  simp only [publish, Database.issuePublicationRevision, except_iffs] at h
  obtain ⟨publishOperations, -, _, ⟨_, -, issued⟩, _, finished, -, rfl⟩ := h
  have published : InPlace db ({ db with publishOperations }.publishVersion
      o.identity.targetVersionId o.publishedAt) := .same rfl rfl rfl rfl
  exact (published.trans ((setCurrent_inPlace _ _ _).trans ((insertRevision_inPlace issued).trans
    (completeIf_inPlace finished)))).hasEffect

theorem publishOrReplay_effect {identity : PublishCommandIdentity}
    {proposed : PublishDocumentResult} {new : Document → Published}
    (fresh : ∀ d, new d = .ok done → HasEffect db done.2)
    (h : publishOrReplay env db ctx identity proposed new = .ok done) : HasEffect db done.2 := by
  unfold publishOrReplay at h
  obtain ⟨_, -, h⟩ := except_bind_ok h
  dsimp only at h
  split at h
  · exact .answered h
  · exact mutateOnce_effect fresh h

/-! ## Withdrawal -/

theorem issueFallback_inPlace {r : WithdrawVersion} {isCurrent : Bool} {resulting : Option Uuid}
    (h : issueFallback db r isCurrent resulting metadata = .ok after) : InPlace db after := by
  unfold issueFallback at h
  split at h
  · split at h
    · simp only [Database.issueWithdrawFallbackRevision, except_iffs] at h
      obtain ⟨_, -, issued⟩ := h
      exact insertRevision_inPlace issued
    · obtain rfl := Except.ok.inj h
      exact .refl db
  · obtain rfl := Except.ok.inj h
    exact .refl db

theorem invalidate_inPlace (p : PublishSchedule → Bool) : InPlace db (db.invalidate p) :=
  .same rfl rfl rfl rfl

end

/-! ## Management -/

section

variable {env : Env} {ctx : VerifiedActorContext} {op : Uuid} {expected : Int}
  {done : Committed ManagementMutationResult}

theorem bumpAccessRevision_inPlace {bumped : Committed Int}
    (h : db.bumpAccessRevision = .ok bumped) :
    InPlace db bumped.2 := by
  simp only [Database.bumpAccessRevision, except_iffs] at h
  obtain ⟨_, -, rfl⟩ := h
  exact .same rfl rfl rfl rfl

variable {folderId origin target : Uuid}

theorem find_lockFolders {ids : List Uuid} {rows : List Folder} {id : Uuid}
    (lock : db.lockFolders ids = .ok rows) (listed : id ∈ ids) :
    (db.folders.find id).isSome = true := by
  obtain ⟨f, -, found⟩ := mapM_each lock listed
  rw [okOr_iff.mp found]
  rfl

theorem executeFolderMove_effect
    (h : executeFolderMove env db ctx op folderId origin target expected = .ok done) :
    HasEffect db done.2 := by
  simp only [executeFolderMove, except_iffs] at h
  obtain ⟨notRoot, -, outside, locked, lock, moved, found, -, -, -, h⟩ := h
  obtain ⟨-, rfl⟩ := Table.find_iff.mp found
  have home := find_lockFolders lock (by simp : target ∈ _)
  split at h
  · simp only [reparent, except_iffs] at h
    obtain ⟨revision, -, _, ⟨-, _, -, -, _, -, _, -, -, rfl⟩, _, bump, rfl⟩ := h
    exact ⟨_, .folderMoved moved.folderId target revision notRoot outside home,
      bumpAccessRevision_inPlace bump⟩
  · obtain rfl := except_pure_iff.mp h
    exact .none

variable {documentId : Uuid}

theorem executeMetadataUpdate_effect {set : List (String × Json)} {unset : List String}
    (h : executeMetadataUpdate env db ctx op documentId expected set unset = .ok done) :
    HasEffect db done.2 := by
  simp only [executeMetadataUpdate, except_iffs] at h
  obtain ⟨d, -, -, -, members, -, h⟩ := h
  split at h
  · simp only [except_iffs] at h
    obtain ⟨revision, -, -, last, issued, rfl⟩ := h
    have written : InPlace db (db.writeMetadata documentId (.obj (patchMetadata members set unset))
        revision) := .changed rfl rfl rfl rfl fun _ => rfl
    refine (written.trans ?_).hasEffect
    unfold Database.issueMetadataRevision at issued
    split at issued
    · obtain rfl := Except.ok.inj issued
      exact .refl _
    · simp only [except_iffs] at issued
      obtain ⟨_, -, issued⟩ := issued
      exact insertRevision_inPlace issued
  · obtain rfl := except_pure_iff.mp h
    exact .none

theorem executeDocumentMove_effect
    (h : executeDocumentMove env db ctx op documentId origin target expected = .ok done) :
    HasEffect db done.2 := by
  simp only [executeDocumentMove, except_iffs] at h
  obtain ⟨folders, lock, -, d, -, -, -, h⟩ := h
  have home := find_lockFolders lock (by simp : target ∈ _)
  split at h
  · simp only [except_iffs] at h
    obtain ⟨revision, -, -, _, bump, rfl⟩ := h
    exact ⟨_, .documentMoved documentId target revision home, bumpAccessRevision_inPlace bump⟩
  · obtain rfl := except_pure_iff.mp h
    exact .none

variable {command : ManagementCommand}

theorem executeNew_effect (h : executeNew env db ctx command = .ok done) : HasEffect db done.2 := by
  cases command with
  | updateDocumentMetadata => exact executeMetadataUpdate_effect h
  | moveDocument => exact executeDocumentMove_effect h
  | createFolder =>
    simp only [executeNew, executeCreateFolder, except_iffs] at h
    obtain ⟨-, parent, home, -, -, -, _, -, -, folders, inserted, rfl⟩ := h
    exact (Effect.folderCreated _ folders _ rfl (by rw [home]; rfl) inserted).hasEffect
  | renameFolder =>
    simp only [executeNew, executeRenameFolder, except_iffs] at h
    obtain ⟨row, -, -, -, -, -, normalized, -, h⟩ := h
    split at h
    · simp only [except_iffs] at h
      obtain ⟨revision, -, -, rfl⟩ := h
      exact (Effect.folderRenamed _ normalized revision).hasEffect
    · obtain rfl := except_pure_iff.mp h
      exact .none
  | moveFolder => exact executeFolderMove_effect h
  | setAccessPolicy =>
    simp only [executeNew, executePolicy, except_iffs] at h
    obtain ⟨-, -, _, -, -, h⟩ := h
    split at h
    · simp only [except_iffs] at h
      obtain ⟨_, -, bound, persisted, _, bump, rfl⟩ := h
      refine ⟨bound.2, ?_, bumpAccessRevision_inPlace bump⟩
      unfold Database.persistBinding at persisted
      split at persisted
      · simp only [except_iffs] at persisted
        obtain ⟨_, replaced, rfl⟩ := persisted
        exact .policyReplaced _ _ _ replaced
      · split at persisted
        · obtain rfl := Except.ok.inj persisted
          exact .none
        · simp only [except_iffs] at persisted
          obtain ⟨_, added, rfl⟩ := persisted
          exact .policyAdded _ _ _ _ added
    · obtain rfl := except_pure_iff.mp h
      exact .none

end

theorem HasEffect.committed {α : Type} {x : Except RepositoryError (Committed α)}
    (each : ∀ done, x = .ok done → HasEffect db done.2) (h : Prod.snd <$> x = .ok after) :
    HasEffect db after := by
  obtain ⟨done, committed, rfl⟩ := except_map_iff.mp h
  exact each done committed

/-- Every step has one of the effects. -/
theorem Step.effect {call : Call} (h : Step db call after) : HasEffect db after := by
  obtain ⟨env, evidence, command⟩ := call
  unfold Step commit at h
  cases command
  case createInitialDocument c =>
    simp only [createInitialDocument, except_iffs] at h
    obtain ⟨-, f, home, documents, inserted, versions, -, -, rfl⟩ := h
    exact (Effect.documentCreated c documents versions (by rw [home]; rfl) inserted).hasEffect
  all_goals refine .committed (fun done h => ?_) h
  case mutateVersion =>
    refine mutateOnce_effect (fun d h => ?_) h
    simp only [mutateNew, except_iffs] at h
    obtain ⟨-, -, _, -, -, _, -, -, _, -, _, wrote, _, recorded, rfl⟩ := h
    exact ((writeVersion_inPlace wrote).trans ((setRevision_inPlace _ _).trans
      (insertVersionOperation_inPlace recorded))).hasEffect
  case publishInitialVersion =>
    refine publishOrReplay_effect ?_ h
    intro d h
    simp only [publishInitialNew, except_bind_iff] at h
    obtain ⟨_, -, _, -, _, -, _, -, _, -, _, -, _, -, _, -, _, -, _, -, _, -, h⟩ := h
    exact publish_effect h
  case publishNextVersion =>
    refine publishOrReplay_effect ?_ h
    intro d h
    simp only [publishNextNew, except_bind_iff] at h
    obtain ⟨_, -, _, -, _, -, _, -, _, -, _, -, _, -, _, -, _, -, _, -, _, -, _, -, _, -, _, -, _,
      -, _, -, _, -, h⟩ := h
    exact publish_effect h
  case reserve =>
    refine mutateOnce_effect (fun d h => ?_) h
    simp only [reserveNew, accept, except_iffs] at h
    obtain ⟨-, -, -, -, _, -, -, -, -, -, _, -, -, -, _, -, _, -, rfl⟩ := h
    exact InPlace.hasEffect (.changed rfl rfl rfl rfl fun _ => rfl)
  case cancel =>
    refine mutateOnce_effect (fun d h => ?_) h
    simp only [cancelNew, except_iffs] at h
    obtain ⟨-, s, -, -, -, next, -, _, recorded, rfl⟩ := h
    have ended : InPlace db (db.endSchedule s .cancelled next) :=
      .changed rfl rfl rfl rfl fun _ => rfl
    exact (ended.trans (insertVersionOperation_inPlace recorded)).hasEffect
  case recordRetry =>
    unfold recordRetry at h
    obtain ⟨due, -, h⟩ := except_bind_ok h
    split at h
    · obtain rfl := except_pure_iff.mp h
      exact .none
    · obtain rfl := except_pure_iff.mp h
      exact InPlace.hasEffect (.same rfl rfl rfl rfl)
  case terminalize =>
    simp only [terminalize, except_iffs] at h
    obtain ⟨due, -, next, -, rfl⟩ := h
    exact InPlace.hasEffect (.changed rfl rfl rfl rfl fun _ => rfl)
  case withdraw r _ =>
    refine mutateOnce_effect (fun d h => ?_) h
    simp only [withdrawNew, except_iffs] at h
    obtain ⟨-, target, -, -, -, next, -, _, issued, _, recorded, rfl⟩ := h
    have withdrawn : InPlace db (db.withdrawVersion target.versionId r.withdrawnAt) :=
      .same rfl rfl rfl rfl
    exact (withdrawn.trans ((setCurrent_inPlace _ _ _).trans ((issueFallback_inPlace issued).trans
      ((invalidate_inPlace _).trans (insertVersionOperation_inPlace recorded))))).hasEffect
  case endPublication =>
    refine mutateOnce_effect (fun d h => ?_) h
    simp only [endPublicationNew, except_iffs] at h
    obtain ⟨-, -, _, -, -, _, -, -, -, next, -, _, -, rfl⟩ := h
    exact InPlace.hasEffect (.changed rfl rfl rfl rfl fun _ => rfl)
  case management =>
    unfold execute at h
    obtain ⟨digest, -, h⟩ := except_bind_ok h
    split at h
    · exact .answered h
    · simp only [recordOperation, except_iffs] at h
      obtain ⟨done, new, _, -, rfl⟩ := h
      obtain ⟨mid, effect, rest⟩ := executeNew_effect new
      exact ⟨mid, effect, rest.trans (.same rfl rfl rfl rfl)⟩
  case initializeRootPolicy =>
    simp only [initializeRootPolicy, except_iffs] at h
    obtain ⟨-, -, -, -, mid, added, _, bump, rfl⟩ := h
    exact ⟨mid, .policyAdded _ _ _ _ added, bumpAccessRevision_inPlace bump⟩

/-- What holds of the freshly migrated tables and is kept by every effect and in place holds in
every run. -/
theorem Reached.invariant {P : Database → Prop} (start : P .migrated)
    (keep : ∀ db after, P db → Effect db after → P after)
    (inPlace : ∀ db after, P db → InPlace db after → P after) {trace : List Call}
    (run : Reached trace db) : P db := by
  refine Run.invariant (P := fun _ db => P db) start ?_ run
  intro _ db call after holds step
  obtain ⟨mid, effect, rest⟩ := step.effect
  exact inPlace mid after (keep db mid holds effect) rest

end KnowledgePlatform.Documents
