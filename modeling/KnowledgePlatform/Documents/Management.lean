import KnowledgePlatform.Documents.Command

/-! Management transactions: access policies, folders, and the place and metadata of documents.
A command whose operation was already committed is answered from what was stored. -/

namespace KnowledgePlatform.Documents

open Ancestry

/-- What a transaction answers, and the tables as it leaves them. -/
abbrev Committed (α : Type) := α × Database

inductive ManagementResult where
  | policyMutation (r : ManagementMutationResult)
  | metadataUpdate (r : ManagementMutationResult)
  | documentMove (r : ManagementMutationResult)
  | folderMutation (r : ManagementMutationResult)

def ManagementOperation.decodeResult (o : ManagementOperation) : ManagementResult :=
  match o.kind with
  | .setAccessPolicy => .policyMutation o.result
  | .updateDocumentMetadata => .metadataUpdate o.result
  | .moveDocument => .documentMove o.result
  | .createFolder | .renameFolder | .moveFolder => .folderMutation o.result

variable (env : Env) (db : Database) (ctx : VerifiedActorContext)

/-! ## Replays -/

def Database.documentEnded (documentId : Uuid) : Bool :=
  (db.publicationEnds.find documentId).isSome

def Database.hasPending (documentId : Uuid) : Bool :=
  db.schedules.any fun s => decide (s.documentId = documentId ∧ s.status = .pending)

def metadataActions (documentId : Uuid) : List Action :=
  [.read, .write] ++ if db.documentEnded documentId then [.readHistory, .administer] else []

def authorizeMetadata (documentId : Uuid) : Except RepositoryError Unit :=
  authorizeInTx env db ctx [(.document documentId, metadataActions db documentId)]

/-- What moving a document or folder takes: the actions on it, and Administer on both ends. -/
def authorizeMovement (resource : ResourceRef) (actions : List Action) (origin target : Uuid)
    : Except RepositoryError Unit :=
  authorizeInTx env db ctx
    [(resource, actions), (.folder origin, [.administer]), (.folder target, [.administer])]

def documentMoveActions (documentId : Uuid) : List Action :=
  [.read, .write, .administer] ++ if db.documentEnded documentId then [.readHistory] else []

def authorizeManagementOperation (o : ManagementOperation) : Except RepositoryError Unit :=
  match o.kind, o.result.resource with
  | .updateDocumentMetadata, .document id => do
    let _ ← okOr (db.documents.find id) .documentNotFound
    authorizeMetadata env db ctx id
  | .moveDocument, .document id => do
    let _ ← okOr (db.documents.find id) .documentNotFound
    let m ← okOr o.result.movement .integrityViolation
    authorizeMovement env db ctx (.document id) (documentMoveActions db id) m.fromFolderId
      m.toFolderId
  | .setAccessPolicy, resource => authorizeInTx env db ctx [(resource, [.administer])]
  | .moveFolder, .folder id => do
    let m ← okOr o.result.movement .integrityViolation
    authorizeMovement env db ctx (.folder id) [.administer] m.fromFolderId m.toFolderId
  | .createFolder, .folder id | .renameFolder, .folder id =>
    authorizeInTx env db ctx [(.folder id, [.administer])]
  | _, _ => .error .integrityViolation

def replayManagement (saved : ManagementOperation) (digest : Digest) : Except RepositoryError
    ManagementResult := do
  authorizeManagementOperation env db ctx saved
  ensure (saved.commandDigest = digest) (.management .operationConflict)
  return saved.decodeResult

/-! ## Access policies -/

def normalizedMode : PolicyMode → PolicyMode
  | .inherit => .inherit
  | .explicit grants => .explicit (sortGrants grants)

def PolicyMode.code : PolicyMode → BindingMode
  | .inherit => .inherit
  | .explicit _ => .explicit

structure LoadedBinding where
  policyId : Uuid
  revision : Int
  mode : PolicyMode

def Database.boundMode (b : AccessPolicyBinding) : Except RepositoryError PolicyMode :=
  match b.mode with
  | .inherit => .ok .inherit
  | .explicit => do
    let grants ← db.readGrants b.policyId
    return .explicit grants

def Database.bindingOf (target : PolicyTarget) : Option AccessPolicyBinding :=
  db.bindings.rows.find? fun b => decide (b.target = target)

def Database.loadBinding (target : PolicyTarget) : Except RepositoryError (Option LoadedBinding) :=
  match db.bindingOf target with
  | none => .ok none
  | some b => do
    let mode ← db.boundMode b
    return some ⟨b.policyId, b.revision, mode⟩

def grantRow (policyId : Uuid) (subject : PolicySubject) (action : Action) : AccessPolicyGrant :=
  ⟨policyId, subject.kind.text, subject.identityProvider, subject.subjectId, action.text⟩

def PolicyGrant.rows (policyId : Uuid) (g : PolicyGrant) : List AccessPolicyGrant :=
  (Action.all.filter fun a => decide (a ∈ g.actions)).map (grantRow policyId g.subject)

def PolicyMode.rows (policyId : Uuid) : PolicyMode → List AccessPolicyGrant
  | .inherit => []
  | .explicit grants => grants.flatMap (PolicyGrant.rows policyId)

def Database.insertGrants (policyId : Uuid) (mode : PolicyMode) :
    Except RepositoryError Database := do
  let grants ← okOr (db.grants.insertAll (mode.rows policyId)) statementError
  return { db with grants }

/-- Another mode for a binding; its grants are written anew. -/
def Database.replaceBinding (policyId : Uuid) (revision : Int) (mode : PolicyMode) :
    Except RepositoryError Database :=
  { db with
    bindings := db.bindings.modify policyId ⟨fun b => { b with mode := mode.code, revision },
      fun _ => rfl⟩
    grants := db.grants.remove fun g => decide (g.policyId = policyId) }.insertGrants policyId mode

/-- A target has one binding. -/
def Database.addBinding (policyId : Uuid) (target : PolicyTarget) (revision : Int)
    (mode : PolicyMode) : Except RepositoryError Database := do
  ensure (db.bindingOf target = none) statementError
  let bindings ← okOr (db.bindings.insert ⟨policyId, target, mode.code, revision⟩) statementError
  { db with bindings }.insertGrants policyId mode

def Database.persistBinding (newId : Uuid) (target : PolicyTarget) (existing : Option Uuid)
    (revision : Int) (mode : PolicyMode) : Except RepositoryError (Committed (Option Uuid)) :=
  match existing with
  | some policyId => do
    let db ← db.replaceBinding policyId revision mode
    return (some policyId, db)
  | none =>
    if mode = .inherit then .ok (none, db)
    else do
      let db ← db.addBinding newId target revision mode
      return (some newId, db)

def Database.bumpAccessRevision : Except RepositoryError (Committed Int) := do
  let accessRevision ← okOr (checkedAdd db.accessRevision 1) statementError
  return (accessRevision, { db with accessRevision })

abbrev Managed : Type := Except RepositoryError (Committed ManagementMutationResult)

def isPolicyChange (existing : Option LoadedBinding) (mode : PolicyMode) : Bool :=
  (existing.all fun b => decide (normalizedMode b.mode ≠ mode)) &&
    !(existing.isNone && decide (mode = .inherit))

def executePolicy (operationId : Uuid) (target : PolicyTarget) (expected : Int)
    (requested : PolicyMode) : Managed := do
  authorizeInTx env db ctx [(target.resource, [.administer])]
  ensure (target ≠ .folder systemRootFolderId) (.management .rootProtected)
  let existing ← db.loadBinding target
  let revision := existing.elim 0 LoadedBinding.revision
  ensure (revision = expected) (.management .revisionConflict)
  let mode := normalizedMode requested
  let result : ManagementMutationResult := ⟨operationId, target.resource, revision,
    some db.accessRevision, existing.map LoadedBinding.policyId, false, env.clock, none, none⟩
  if isPolicyChange existing mode then do
    let revision ← okOr (checkedAdd revision 1) statementError
    let bound ← db.persistBinding (env.newId 0) target
      (existing.map LoadedBinding.policyId) revision
      mode
    let bumped ← bound.2.bumpAccessRevision
    return ({ result with resultingRevision := revision, accessRevision := some bumped.1,
                          policyId := bound.1, changed := true }, bumped.2)
  else return (result, db)

/-! ## Folders -/

def normalizeFolderName (nfc : String → String) (value : String) : Option String :=
  let name := nfc (trim value)
  if value.toList.any isControl = true ∨ name = "" ∨ name = "." ∨ name = ".." ∨
      name.length > 255 ∨ name.toList.any (fun c => c = '/' ∨ c = '\\') = true then none
  else some name

/-- The index over the names of one parent's folders. -/
def Database.nameTaken (self parent : Uuid) (name : String) : Bool :=
  db.folders.any fun f => decide (f.folderId ≠ self ∧ f.parentFolderId = some parent ∧
    env.nfc f.name = env.nfc name)

def executeCreateFolder (operationId folderId parentId : Uuid) (expected : Int) (name : String) :
    Managed := do
  ensure (folderId ≠ systemRootFolderId) (.management .rootProtected)
  let parent ← okOr (db.folders.find parentId) .folderNotFound
  authorizeInTx env db ctx [(.folder parentId, [.administer])]
  ensure (parent.status = "ACTIVE") .businessRule
  ensure (parent.revision = expected) (.management .revisionConflict)
  let normalized ← okOr (normalizeFolderName env.nfc name) .businessRule
  ensure (db.nameTaken env folderId parentId normalized = false) .conflict
  let folders ← okOr (db.folders.insert ⟨folderId, some parentId, normalized, "ACTIVE", 0⟩)
    .conflict
  return (⟨operationId, .folder folderId, 0, none, none, true, env.clock, none, none⟩,
    { db with folders })

def Database.setName (folderId : Uuid) (name : String) (revision : Int) : Database :=
  { db with
    folders := db.folders.modify folderId ⟨fun f => { f with name, revision }, fun _ => rfl⟩ }

def executeRenameFolder (operationId folderId : Uuid) (expected : Int) (name : String) :
    Managed := do
  let row ← okOr (db.folders.find folderId) .folderNotFound
  authorizeInTx env db ctx [(.folder folderId, [.administer])]
  ensure (folderId ≠ systemRootFolderId) (.management .rootProtected)
  ensure (row.status = "ACTIVE") .businessRule
  ensure (row.revision = expected) (.management .revisionConflict)
  let normalized ← okOr (normalizeFolderName env.nfc name) .businessRule
  let result : ManagementMutationResult :=
    ⟨operationId, .folder folderId, row.revision, none, none, false, env.clock, none, none⟩
  if row.name ≠ normalized then do
    let revision ← okOr (checkedAdd row.revision 1) .businessRule
    ensure (row.parentFolderId.all (db.nameTaken env folderId · normalized = false) = true)
      .conflict
    return ({ result with resultingRevision := revision, changed := true },
      db.setName folderId normalized revision)
  else return (result, db)

/-- A folder and those below it. The query adds children until there are no more, at most one round
for each folder. -/
def Database.subtreeIds (folderId : Uuid) : List Uuid :=
  if (db.up folderId).isSome then
    (descend db.up db.folderIds db.folders.rows.length [folderId]).insertionSort fun a b =>
      a.le b = true
  else []

def Database.documentsIn (folderIds : List Uuid) : List Uuid :=
  ((db.documents.select fun d => decide (d.folderId ∈ folderIds)).map
    Document.documentId).insertionSort fun a b => a.le b = true

def Database.policySnapshot (resources : List ResourceRef) : Except RepositoryError (List Uuid) :=
  resources.mapM fun r => okOr (db.nearestPolicyId r) .integrityViolation

/-- Whether a resource comes under another policy, which takes Administer under the prior one. -/
def Database.mayChange (prior next : Uuid) : Except RepositoryError Bool :=
  if prior = next then .ok false
  else do
    let grants ← db.readGrants prior
    ensure (evaluatePolicy ctx.subjects (.explicit grants) [.administer] = true) .forbidden
    return true

def Database.setParent (folderId target : Uuid) (revision : Int) : Database :=
  { db with
    folders := db.folders.modify folderId
      ⟨fun f => { f with parentFolderId := some target, revision }, fun _ => rfl⟩ }

def subtreeResources (folders documents : List Uuid) : List ResourceRef :=
  folders.map ResourceRef.folder ++ documents.map ResourceRef.document

/-- Gives the folder its new parent; the answer is the number of resources that came under another
policy. -/
def reparent (moved : Folder) (target : Uuid) (revision : Int) (subtree documents : List Uuid)
    : Except RepositoryError (Committed Nat) := do
  ensure (documents.any db.hasPending = false) (.management .reservedDocument)
  let resources := subtreeResources subtree documents
  let before ← db.policySnapshot resources
  ensure (db.nameTaken env moved.folderId target moved.name = false) .conflict
  let next := db.setParent moved.folderId target revision
  let after ← next.policySnapshot resources
  let affected ← (before.zip after).mapM fun p => next.mayChange ctx p.1 p.2
  ensure (ctx.IsCurrent env.laterClock) .forbidden
  return (affected.count true, next)

/-- The folders' rows, read for update. -/
def Database.lockFolders (db : Database) (ids : List Uuid) :
    Except RepositoryError (List Folder) :=
  ids.mapM fun id => okOr (db.folders.find id) .folderNotFound

def executeFolderMove (operationId folderId origin target : Uuid) (expected : Int) : Managed := do
  ensure (folderId ≠ systemRootFolderId) (.management .rootProtected)
  let subtree := db.subtreeIds folderId
  ensure (subtree ≠ []) .folderNotFound
  ensure (target ∉ subtree) (.management .folderCycle)
  let locked ← db.lockFolders (subtree ++ [origin, target])
  let moved ← okOr (db.folders.find folderId) .folderNotFound
  ensure (∀ f ∈ locked, f.status = "ACTIVE") .businessRule
  ensure (moved.parentFolderId = some origin ∧ moved.revision = expected)
    (.management .revisionConflict)
  let documents := db.documentsIn subtree
  authorizeMovement env db ctx (.folder folderId) [.administer] origin target
  let result : ManagementMutationResult := ⟨operationId, .folder folderId, moved.revision,
    some db.accessRevision, none, false, env.clock, none, some ⟨origin, target, some 0⟩⟩
  if origin ≠ target then do
    let revision ← okOr (checkedAdd moved.revision 1) .businessRule
    let placed ← reparent env db ctx moved target revision subtree documents
    let bumped ← placed.2.bumpAccessRevision
    return ({ result with resultingRevision := revision, accessRevision := some bumped.1,
                          changed := true, movement := some ⟨origin, target, some placed.1⟩ },
      bumped.2)
  else return (result, db)

/-! ## Documents -/

/-- The unset members removed, then the set ones put in their place. -/
def patchMetadata (members set : List (String × Json)) (unset : List String) :
    List (String × Json) :=
  set.foldl (fun kept m => kept.filter (fun n => n.1 ≠ m.1) ++ [m])
    (members.filter fun m => m.1 ∉ unset)

def Database.writeMetadata (documentId : Uuid) (metadata : Json) (revision : Int) : Database :=
  { db with
    documents := db.documents.modify documentId
      ⟨fun d => { d with metadata, revision }, fun _ => rfl⟩ }

/-- Maps are equal when they have the same members, in whatever order. -/
def executeMetadataUpdate (operationId documentId : Uuid) (expected : Int)
    (set : List (String × Json)) (unset : List String) : Managed := do
  let d ← okOr (db.documents.find documentId) .documentNotFound
  authorizeMetadata env db ctx documentId
  ensure (d.revision = expected) (.management .revisionConflict)
  let members ← okOr d.metadata.asObj .integrityViolation
  let updated := Json.obj (patchMetadata members set unset)
  let result : ManagementMutationResult :=
    ⟨operationId, .document documentId, d.revision, none, none, false, env.clock,
      some updated, none⟩
  if Jsonb.canonicalize updated ≠ Jsonb.canonicalize d.metadata then do
    let revision ← okOr (checkedAdd d.revision 1) .businessRule
    ensure (db.hasPending documentId = false) (.management .reservedDocument)
    let db ← (db.writeMetadata documentId updated revision).issueMetadataRevision documentId
      d.currentVersionId updated operationId
    return ({ result with resultingRevision := revision, changed := true }, db)
  else return (result, db)

def Database.placeDocument (documentId folderId : Uuid) (revision : Int) : Database :=
  { db with
    documents := db.documents.modify documentId
      ⟨fun d => { d with folderId, revision }, fun _ => rfl⟩ }

def executeDocumentMove (operationId documentId origin target : Uuid) (expected : Int) :
    Managed := do
  let folders ← db.lockFolders [origin, target]
  ensure (∀ f ∈ folders, f.status = "ACTIVE") .businessRule
  let d ← okOr (db.documents.find documentId) .documentNotFound
  authorizeMovement env db ctx (.document documentId) (documentMoveActions db documentId) origin
    target
  ensure (d.folderId = origin ∧ d.revision = expected) (.management .revisionConflict)
  let result : ManagementMutationResult := ⟨operationId, .document documentId, d.revision,
    some db.accessRevision, none, false, env.clock, none, some ⟨origin, target, none⟩⟩
  if origin ≠ target then do
    let revision ← okOr (checkedAdd d.revision 1) .businessRule
    ensure (db.hasPending documentId = false) (.management .reservedDocument)
    let bumped ← (db.placeDocument documentId target revision).bumpAccessRevision
    return ({ result with resultingRevision := revision, accessRevision := some bumped.1,
                          changed := true }, bumped.2)
  else return (result, db)

/-! ## Commands -/

/-- A command seen for the first time. -/
def executeNew : ManagementCommand → Managed
  | .updateDocumentMetadata op id expected set unset _ =>
    executeMetadataUpdate env db ctx op id expected set unset
  | .moveDocument op id origin target expected _ =>
    executeDocumentMove env db ctx op id origin target expected
  | .createFolder op id parent expected name _ =>
    executeCreateFolder env db ctx op id parent expected name
  | .renameFolder op id expected name _ => executeRenameFolder env db ctx op id expected name
  | .moveFolder op id origin target expected _ =>
    executeFolderMove env db ctx op id origin target expected
  | .setAccessPolicy op target expected mode _ => executePolicy env db ctx op target expected mode

/-- The command's result becomes the stored result of its operation. -/
def recordOperation (command : ManagementCommand) (digest : Digest)
    (done : Committed ManagementMutationResult) :
    Except RepositoryError (Committed ManagementResult) := do
  let o : ManagementOperation := ⟨command.operationKind, digest, done.1⟩
  let managementOperations ← okOr (done.2.managementOperations.insert o) statementError
  return (o.decodeResult, { done.2 with managementOperations })

/-- `ManagementRepository::execute`. -/
def execute (command : ManagementCommand) :
    Except RepositoryError (Committed ManagementResult) := do
  let digest ← managementCommandDigest env ctx command
  match db.managementOperations.find command.operationId with
  | some saved => do
    let result ← replayManagement env db ctx saved digest
    return (result, db)
  | none => do
    let done ← executeNew env db ctx command
    recordOperation command digest done

/-! ## The root's policy -/

/-- The root's policy is set once, by the actor named when the repository is built. -/
def initializeRootPolicy (bootstrapActor : Option PrincipalRef) (ctx : VerifiedActorContext)
    (grants : List PolicyGrant) : Except RepositoryError (Committed ManagementResult) := do
  ensure (bootstrapActor = some ctx.principal) .forbidden
  ensure (ctx.IsCurrent env.clock) .forbidden
  ensure ((PolicyMode.explicit grants).validate = true) .businessRule
  ensure (db.bindingOf (.folder systemRootFolderId) = none) .businessRule
  let db ← db.addBinding (env.newId 0) (.folder systemRootFolderId) 1 (.explicit grants)
  let bumped ← db.bumpAccessRevision
  return (.policyMutation ⟨env.newId 1, .folder systemRootFolderId, 1, some bumped.1,
    some (env.newId 0), true, env.clock, none, none⟩, bumped.2)

end KnowledgePlatform.Documents
