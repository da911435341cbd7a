import KnowledgePlatform.Documents.AccessControl

/-! Management commands: what is checked before a transaction begins, and the digest that names a
command. -/

namespace KnowledgePlatform.Documents

/-- The commands that change metadata, folders and policies. -/
inductive ManagementCommand where
  | updateDocumentMetadata (operationId documentId : Uuid) (expectedDocumentRevision : Int)
      (set : List (String × Json)) (unset : List String) (reason : String)
  | moveDocument (operationId documentId fromFolderId toFolderId : Uuid)
      (expectedDocumentRevision : Int) (reason : String)
  | createFolder (operationId folderId parentFolderId : Uuid) (expectedParentRevision : Int)
      (name reason : String)
  | renameFolder (operationId folderId : Uuid) (expectedFolderRevision : Int) (name reason : String)
  | moveFolder (operationId folderId fromParentId toParentId : Uuid) (expectedFolderRevision : Int)
      (reason : String)
  | setAccessPolicy (operationId : Uuid) (target : PolicyTarget) (expectedPolicyRevision : Int)
      (mode : PolicyMode) (reason : String)

namespace ManagementCommand

def operationId : ManagementCommand → Uuid
  | updateDocumentMetadata op _ _ _ _ _ => op
  | moveDocument op _ _ _ _ _ => op
  | createFolder op _ _ _ _ _ => op
  | renameFolder op _ _ _ _ => op
  | moveFolder op _ _ _ _ _ => op
  | setAccessPolicy op _ _ _ _ => op

def operationKind : ManagementCommand → OperationKind
  | updateDocumentMetadata .. => .updateDocumentMetadata
  | moveDocument .. => .moveDocument
  | createFolder .. => .createFolder
  | renameFolder .. => .renameFolder
  | moveFolder .. => .moveFolder
  | setAccessPolicy .. => .setAccessPolicy

def resource : ManagementCommand → ResourceRef
  | updateDocumentMetadata _ id _ _ _ _ => .document id
  | moveDocument _ id _ _ _ _ => .document id
  | createFolder _ id _ _ _ _ => .folder id
  | renameFolder _ id _ _ _ => .folder id
  | moveFolder _ id _ _ _ _ => .folder id
  | setAccessPolicy _ target _ _ _ => target.resource

def expectedRevision : ManagementCommand → Int
  | updateDocumentMetadata _ _ n _ _ _ => n
  | moveDocument _ _ _ _ n _ => n
  | createFolder _ _ _ n _ _ => n
  | renameFolder _ _ n _ _ => n
  | moveFolder _ _ _ _ n _ => n
  | setAccessPolicy _ _ n _ _ => n

def reason : ManagementCommand → String
  | updateDocumentMetadata _ _ _ _ _ reason => reason
  | moveDocument _ _ _ _ _ reason => reason
  | createFolder _ _ _ _ _ reason => reason
  | renameFolder _ _ _ _ reason => reason
  | moveFolder _ _ _ _ _ reason => reason
  | setAccessPolicy _ _ _ _ reason => reason

end ManagementCommand

def OperationKind.text : OperationKind → String
  | updateDocumentMetadata => "update_document_metadata"
  | moveDocument => "move_document"
  | createFolder => "create_folder"
  | renameFolder => "rename_folder"
  | moveFolder => "move_folder"
  | setAccessPolicy => "set_access_policy"

/-! ## Canonical JSON -/

mutual

/-- Without blanks. -/
def compact : Json → List Char
  | .arr items => '[' :: (compactItems items ++ [']'])
  | .obj members => '{' :: (compactMembers members ++ ['}'])
  | v => Jsonb.text v

def compactItems : List Json → List Char
  | [] => []
  | [v] => compact v
  | v :: w :: rest => compact v ++ ',' :: compactItems (w :: rest)

def compactMembers : List (String × Json) → List Char
  | [] => []
  | [(k, v)] => Jsonb.quote k ++ ':' :: compact v
  | (k, v) :: m :: rest => Jsonb.quote k ++ ':' :: (compact v ++ ',' :: compactMembers (m :: rest))

end

def canonicalJsonBytes (v : Json) : Bytes := utf8 (compact (Jsonb.canonicalize v))

/-! ## What a command must satisfy -/

def maxReasonBytes : Nat := 1024

def maxMetadataPatchBytes : Nat := 64 * 1024

def maxExtensionsDepth : Nat := 16

/-- The reason without surrounding blanks, if it may be recorded. -/
def validateReason (reason : String) : Option String :=
  let trimmed := trim reason
  if trimmed = "" ∨ byteLen trimmed > maxReasonBytes ∨
      trimmed.toList.any isControl = true then none
  else some trimmed

mutual

def checkDepth : Json → Nat → Bool
  | .obj members, depth => decide (depth ≤ maxExtensionsDepth) && checkMembers members (depth + 1)
  | .arr items, depth => decide (depth ≤ maxExtensionsDepth) && checkItems items (depth + 1)
  | _, depth => decide (depth ≤ maxExtensionsDepth)

def checkItems : List Json → Nat → Bool
  | [], _ => true
  | v :: rest, depth => checkDepth v depth && checkItems rest depth

def checkMembers : List (String × Json) → Nat → Bool
  | [], _ => true
  | (_, v) :: rest, depth => checkDepth v depth && checkMembers rest depth

end

def metadataKeys : List String := ["document_type", "owning_department", "category", "extensions"]

def isObject : Json → Bool
  | .obj _ => true
  | _ => false

def isString : Json → Bool
  | .str _ => true
  | _ => false

/-- A patch as it is digested. -/
def patchJson (set : List (String × Json)) (unset : List String) : Json :=
  .obj [("set", .obj set), ("unset", .arr (unset.map Json.str))]

/-- `set` is a map and `unset` a set: names do not repeat. -/
def validateMetadataPatch (set : List (String × Json)) (unset : List String) : Bool :=
  decide (set.map Prod.fst).Nodup && decide unset.Nodup &&
  (set.all fun (key, value) => decide (key ∈ metadataKeys) && decide (key ∉ unset) &&
    if key = "extensions" then isObject value && checkDepth value 0 else isString value) &&
  (unset.all fun key => decide (key ∈ metadataKeys)) &&
  decide ((canonicalJsonBytes (patchJson set unset)).length ≤ maxMetadataPatchBytes)

/-! ## The digest -/

def resourceJson : ResourceRef → Json
  | .document id => .obj [("type", .str "document"), ("id", .str id.text)]
  | .folder id => .obj [("type", .str "folder"), ("id", .str id.text)]
  | .accessPolicy id => .obj [("type", .str "access_policy"), ("id", .str id.text)]

def PolicyGrant.json (g : PolicyGrant) : Json :=
  .obj [("subject", .obj [("kind", .str g.subject.kind.text),
      ("identity_provider", .str g.subject.identityProvider),
      ("subject_id", .str g.subject.subjectId)]),
    ("actions", .arr ((Action.all.filter fun a => decide (a ∈ g.actions)).map
      fun a => .str a.text))]

/-- By subject. -/
def sortGrants (grants : List PolicyGrant) : List PolicyGrant :=
  grants.insertionSort fun a b => a.subject.le b.subject

def PolicyMode.json : PolicyMode → Json
  | .inherit => .obj [("kind", .str "inherit")]
  | .explicit grants =>
    .obj [("kind", .str "explicit"), ("grants", .arr ((sortGrants grants).map PolicyGrant.json))]

/-- What is particular to a command, if it is valid. -/
def commandPayload : ManagementCommand → Option Json
  | .updateDocumentMetadata _ _ _ set unset _ =>
    if validateMetadataPatch set unset then some (patchJson set unset) else none
  | .moveDocument _ _ origin target _ _ =>
    some (.obj [("from_folder_id", .str origin.text), ("to_folder_id", .str target.text)])
  | .createFolder _ _ parent _ name _ =>
    some (.obj [("parent_folder_id", .str parent.text), ("name", .str name)])
  | .renameFolder _ _ _ name _ => some (.obj [("name", .str name)])
  | .moveFolder _ _ origin target _ _ =>
    some (.obj [("from_parent_id", .str origin.text), ("to_parent_id", .str target.text)])
  | .setAccessPolicy _ target _ mode _ =>
    if mode.validate then
      some (.obj [("target", resourceJson target.resource), ("mode", mode.json)])
    else none

def digestDomain : Bytes := utf8 "document-management-basics-v0\x00".toList

/-- What a command's digest is of: who asks for what, and why. -/
def canonicalCommandBytes (env : Env) (ctx : VerifiedActorContext) (command : ManagementCommand) :
    Option Bytes := do
  guard (ctx.IsCurrent env.clock)
  guard (0 ≤ command.expectedRevision)
  let reason ← validateReason command.reason
  let payload ← commandPayload command
  return canonicalJsonBytes (.obj [("schema_version", .int 1),
    ("operation_id", .str command.operationId.text),
    ("operation_kind", .str command.operationKind.text),
    ("resource", resourceJson command.resource),
    ("expected_revision", .int command.expectedRevision),
    ("payload", payload),
    ("actor", .obj [("identity_provider", .str ctx.principal.identityProvider),
      ("principal_id", .str ctx.principal.principalId)]),
    ("invocation_kind", .str ctx.invocationKind.text),
    ("reason", .str reason)])

def managementCommandDigest (env : Env) (ctx : VerifiedActorContext) (command : ManagementCommand) :
    Except RepositoryError Digest := do
  let bytes ← okOr (canonicalCommandBytes env ctx command) .businessRule
  return env.sha256 (digestDomain ++ bytes)

/-! ## Revisions -/

/-- Later in the order of major, then minor numbers. -/
def DocumentRevision.Newer (a b : DocumentRevision) : Prop :=
  b.majorNo < a.majorNo ∨ b.majorNo = a.majorNo ∧ b.minorNo < a.minorNo

instance : DecidableRel DocumentRevision.Newer := fun _ _ => inferInstanceAs (Decidable (_ ∨ _))

def newest : List DocumentRevision → Option DocumentRevision
  | [] => none
  | r :: rest =>
    match newest rest with
    | none => some r
    | some best => if best.Newer r then some best else some r

def Database.revisionsOf (db : Database) (documentId : Uuid) : List DocumentRevision :=
  db.revisions.select fun r => decide (r.documentId = documentId)

def Database.newestRevision (db : Database) (documentId : Uuid) : Option DocumentRevision :=
  newest (db.revisionsOf documentId)

def Database.maxMajor (db : Database) (documentId : Uuid) : Int :=
  ((db.revisionsOf documentId).map DocumentRevision.majorNo).foldr max 0

def isOptional (shape : Json → Bool) (value : Option Json) : Bool := value.all shape

/-- `DocumentMetadataSnapshot::from_metadata`, as JSON. -/
def metadataSnapshot (metadata : Json) : Option Json :=
  if isObject metadata && isOptional isString (metadata.get "document_type") &&
      isOptional isString (metadata.get "owning_department") &&
      isOptional isString (metadata.get "category") &&
      isOptional isObject (metadata.get "extensions") then
    some (.obj (metadataKeys.map fun key => (key, (metadata.get key).getD .null)))
  else none

def Database.insertRevision (db : Database) (documentId versionId : Uuid) (majorNo minorNo : Int)
    (metadata : Json) (source : RevisionSource) (operationId : Uuid) :
    Except RepositoryError Database := do
  ensure (1 ≤ majorNo ∧ 0 ≤ minorNo) .integrityViolation
  let snapshot ← okOr (metadataSnapshot metadata) .integrityViolation
  ensure (∀ r ∈ db.revisions.rows, ¬ (r.documentId = documentId ∧ r.source = source ∧
    r.operationId = operationId)) statementError
  let revisions ← okOr (db.revisions.insert
    ⟨documentId, versionId, majorNo, minorNo, snapshot, source, operationId⟩) statementError
  return { db with revisions }

def Database.issuePublicationRevision (db : Database) (documentId versionId : Uuid)
    (metadata : Json) (operationId : Uuid) (isInitialPath : Bool) :
    Except RepositoryError Database := do
  let major ← okOr (checkedAdd (db.maxMajor documentId) 1) .integrityViolation
  let source := if isInitialPath && decide (db.maxMajor documentId = 0) then
    RevisionSource.initialPublication else .contentPublication
  db.insertRevision documentId versionId major 0 metadata source operationId

/-- A document that was never published has no revisions, and gets none for its metadata. -/
def Database.issueMetadataRevision (db : Database) (documentId : Uuid)
    (currentVersionId : Option Uuid) (metadata : Json) (operationId : Uuid) :
    Except RepositoryError Database :=
  match db.newestRevision documentId with
  | none => .ok db
  | some latest => do
    let minor ← okOr (checkedAdd latest.minorNo 1) .integrityViolation
    db.insertRevision documentId (currentVersionId.getD latest.versionId) latest.majorNo minor
      metadata .metadataRevision operationId

def Database.issueWithdrawFallbackRevision (db : Database) (documentId versionId : Uuid)
    (metadata : Json) (operationId : Uuid) : Except RepositoryError Database := do
  let major ← okOr (checkedAdd (db.maxMajor documentId) 1) .integrityViolation
  db.insertRevision documentId versionId major 0 metadata .withdrawFallback operationId

end KnowledgePlatform.Documents
