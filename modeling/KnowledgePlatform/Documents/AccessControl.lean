import KnowledgePlatform.Documents.Database
import KnowledgePlatform.Json.Jsonb
import KnowledgePlatform.Lib.Ancestry
import KnowledgePlatform.Lib.Keyed

/-! Who may act on a resource: the evaluation inside a transaction, and the two SQL functions that
readers use. -/

namespace KnowledgePlatform.Documents

open Ancestry

variable (env : Env) (db : Database) (ctx : VerifiedActorContext)

/-! ## The tree of folders -/

/-- The parent column of a folder, when there is such a folder. -/
def Database.up (id : Uuid) : Option (Option Uuid) :=
  (db.folders.find id).map Folder.parentFolderId

def Database.folderIds : List Uuid := db.folders.rows.map Folder.folderId

/-- The EXPLICIT binding of a folder or document. -/
def Database.explicitBinding (target : PolicyTarget) : Option Uuid :=
  (db.bindings.rows.find? fun b => decide (b.target = target ∧ b.mode = .explicit)).map
    AccessPolicyBinding.policyId

/-- The first EXPLICIT binding of a chain of folders. -/
def Database.firstBinding (chain : List Uuid) : Option Uuid :=
  chain.findSome? fun id => db.explicitBinding (.folder id)

/-- Whether the system root is above a folder. The query joins parents until nothing new is found,
which takes at most one round for each folder. -/
def Database.rooted (folderId : Uuid) : Bool :=
  decide (systemRootFolderId ∈ ascend db.up db.folders.rows.length folderId) &&
    decide (db.up systemRootFolderId = some none)

/-- `own` is the document's own binding, where the resource is a document. -/
def Database.nearestFrom (own : Option Uuid) (folderId : Uuid) : Option Uuid :=
  if db.rooted folderId then own <|> db.firstBinding (ascend db.up 1024 folderId) else none

def Database.nearestOfDocument (documentId : Uuid) : Option Uuid := do
  let d ← db.documents.find documentId
  db.nearestFrom (db.explicitBinding (.document documentId)) d.folderId

def Database.nearestPolicyId : ResourceRef → Option Uuid
  | .document id => db.nearestOfDocument id
  | .folder id => db.nearestFrom none id
  | .accessPolicy id => do
    let b ← db.bindings.find id
    match b.target with
    | .folder id => db.nearestFrom none id
    | .document id => db.nearestOfDocument id

/-! ## Grants -/

def PolicySubjectKind.rank : PolicySubjectKind → Nat
  | principal => 0
  | group => 1
  | role => 2

/-- The order of subjects: by kind, then provider, then name. -/
def PolicySubject.le (a b : PolicySubject) : Prop :=
  a.kind.rank < b.kind.rank ∨ a.kind = b.kind ∧
    (utf8 a.identityProvider.toList < utf8 b.identityProvider.toList ∨
      a.identityProvider = b.identityProvider ∧ utf8 a.subjectId.toList ≤ utf8 b.subjectId.toList)

instance : DecidableRel PolicySubject.le := fun _ _ => inferInstanceAs (Decidable (_ ∨ _))

def AccessPolicyGrant.parse (g : AccessPolicyGrant) : Option (PolicySubject × Action) := do
  let kind ← PolicySubjectKind.parse g.subjectKind
  let action ← Action.parse g.action
  let subject ← PolicySubject.new kind g.identityProvider g.subjectId
  return (subject, action)

/-- The grants with the same subject together, by subject. -/
def grouped (rows : List (PolicySubject × Action)) : List (PolicySubject × List Action) :=
  ((rows.map Prod.fst).dedup.insertionSort PolicySubject.le).map fun subject =>
    (subject, (rows.filter fun row => decide (row.1 = subject)).map Prod.snd)

def Database.readGrants (policyId : Uuid) : Except RepositoryError (List PolicyGrant) := do
  let rows ← (db.grants.select fun g => decide (g.policyId = policyId)).mapM fun g =>
    okOr g.parse .integrityViolation
  (grouped rows).mapM fun g => okOr (PolicyGrant.new g.1 g.2) .integrityViolation

/-! ## Authorization -/

def authorizeOne (resource : ResourceRef) (actions : List Action) :
    Except RepositoryError Unit := do
  let policyId ← okOr (db.nearestPolicyId resource) .forbidden
  let grants ← db.readGrants policyId
  ensure (evaluatePolicy ctx.subjects (.explicit grants) actions = true) .forbidden

def authorizeInTx (requirements : List (ResourceRef × List Action)) :
    Except RepositoryError Unit := do
  ensure (ctx.IsCurrent env.clock) .forbidden
  ensure (requirements ≠ []) .forbidden
  ensure ((db.explicitBinding (.folder systemRootFolderId)).isSome = true) .forbidden
  requirements.forM fun r => authorizeOne db ctx r.1 r.2

/-- Work that has no verified actor is not checked. -/
def guardDocumentMutation (ctx : Option VerifiedActorContext) (documentId : Uuid)
    (required : List Action) (recordedActor : PrincipalRef) : Except RepositoryError Unit :=
  match ctx with
  | none => .ok ()
  | some ctx => do
    ensure (ctx.principal = recordedActor) .forbidden
    authorizeInTx env db ctx [(.document documentId, required)]

/-! ## The SQL functions -/

def verifiedSubjectsJson : Json :=
  .arr (ctx.subjects.map fun s => .obj [("kind", .str s.kind.text),
    ("identity_provider", .str s.identityProvider), ("subject_id", .str s.subjectId)])

/-- A column of `jsonb_to_recordset` of type TEXT. -/
def textColumn (record : Json) (name : String) : Option String :=
  match record.get name with
  | none | some .null => none
  | some (.str s) => some s
  | some v => some (String.ofList (Jsonb.text v))

/-- The elements of an array; the functions are called with arrays only. -/
def recordset : Json → List Json
  | .arr records => records
  | _ => []

/-- A grant of the policy for the action matches a subject. -/
def Database.grantsTo (policyId : Uuid) (verifiedSubjects : Json) (action : String) : Bool :=
  db.grants.any fun g => decide (g.policyId = policyId) && decide (g.action = action) &&
    (recordset verifiedSubjects).any fun subject =>
      decide (textColumn subject "kind" = some g.subjectKind) &&
      decide (textColumn subject "identity_provider" = some g.identityProvider) &&
      decide (textColumn subject "subject_id" = some g.subjectId)

/-- The condition both functions end with, for their chain of folders and nearest policy. -/
def Database.dmbAllows (chain : List Uuid) (nearest : Option Uuid) (verifiedSubjects : Json)
    (requiredActions : List String) : Bool :=
  decide (0 < requiredActions.length) &&
  (db.explicitBinding (.folder systemRootFolderId)).isSome &&
  (decide (systemRootFolderId ∈ chain) && decide (db.up systemRootFolderId = some none)) &&
  nearest.isSome &&
  requiredActions.all fun action => nearest.any fun p => db.grantsTo p verifiedSubjects action

/-- The chain of a document has at most 1024 folders. -/
def Database.dmbAllowsDocument (targetDocumentId : Uuid) (verifiedSubjects : Json)
    (requiredActions : List String) : Bool :=
  let chain := (db.documents.find targetDocumentId).elim [] fun d => named db.up 1023 d.folderId
  db.dmbAllows chain (db.explicitBinding (.document targetDocumentId) <|> db.firstBinding chain)
    verifiedSubjects requiredActions

/-- The chain of a folder has at most 1025. -/
def Database.dmbAllowsFolder (targetFolderId : Uuid) (verifiedSubjects : Json)
    (requiredActions : List String) : Bool :=
  let chain := ascend db.up 1024 targetFolderId
  db.dmbAllows chain (db.firstBinding chain) verifiedSubjects requiredActions

end KnowledgePlatform.Documents
