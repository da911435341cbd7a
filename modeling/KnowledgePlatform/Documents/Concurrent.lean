import KnowledgePlatform.Documents.Tree

/-! Folder transactions side by side. Each statement sees what is committed; locks are held to the
end, and what a transaction writes is seen by others when it commits. A transaction may end at any
point without effect: refused, answered from its stored operation, or rolled back. -/

namespace KnowledgePlatform.Documents.Concurrent

open Ancestry

inductive FolderCommand where
  | create (folderId parentId : Uuid) (expected : Int) (name : String)
  | rename (folderId : Uuid) (expected : Int) (name : String)
  | move (folderId origin target : Uuid) (expected : Int)

inductive AccessLockMode where
  | shared
  | exclusive

/-- The lock on the access state that the command takes first. -/
def FolderCommand.mode : FolderCommand → AccessLockMode
  | .move .. => .exclusive
  | _ => .shared

inductive Write where
  | insert (f : Folder)
  | setName (folderId : Uuid) (name : String) (revision : Int)
  | setParent (folderId target : Uuid) (revision : Int)

/-- An insert fails when there is such a folder: of two with one identifier, the later waits for the
end of the earlier. -/
def Write.apply (db : Database) : Write → Option Database
  | .insert f => (db.folders.insert f).map fun folders => { db with folders }
  | .setName folderId name revision => some (db.setName folderId name revision)
  | .setParent folderId target revision => some (db.setParent folderId target revision)

/-- What the command writes, if anything, after its checks of the rows that it locked. -/
def FolderCommand.write (nfc : String → String) (rows : List Folder) :
    FolderCommand → Except RepositoryError (Option Write)
  | .create folderId parentId expected name => do
    ensure (folderId ≠ systemRootFolderId) (.management .rootProtected)
    let parent ← okOr (rows.find? fun f => decide (f.folderId = parentId)) .folderNotFound
    ensure (parent.status = "ACTIVE") .businessRule
    ensure (parent.revision = expected) (.management .revisionConflict)
    let normalized ← okOr (normalizeFolderName nfc name) .businessRule
    return some (.insert ⟨folderId, some parentId, normalized, "ACTIVE", 0⟩)
  | .rename folderId expected name => do
    let row ← okOr (rows.find? fun f => decide (f.folderId = folderId)) .folderNotFound
    ensure (folderId ≠ systemRootFolderId) (.management .rootProtected)
    ensure (row.status = "ACTIVE") .businessRule
    ensure (row.revision = expected) (.management .revisionConflict)
    let normalized ← okOr (normalizeFolderName nfc name) .businessRule
    if row.name ≠ normalized then do
      let revision ← okOr (checkedAdd row.revision 1) .businessRule
      return some (.setName folderId normalized revision)
    else return none
  | .move folderId origin target expected => do
    let moved ← okOr (rows.find? fun f => decide (f.folderId = folderId)) .folderNotFound
    ensure (∀ f ∈ rows, f.status = "ACTIVE") .businessRule
    ensure (moved.parentFolderId = some origin ∧ moved.revision = expected)
      (.management .revisionConflict)
    if origin ≠ target then do
      let revision ← okOr (checkedAdd moved.revision 1) .businessRule
      return some (.setParent folderId target revision)
    else return none

/-- How far a transaction has got, with what it has read. -/
inductive Progress where
  | begun (c : FolderCommand)
  | admitted (c : FolderCommand)
  | subtreeRead (c : FolderCommand) (subtree : List Uuid)
  | rowsRead (c : FolderCommand) (rows : List Folder)

def Progress.access : Progress → Option AccessLockMode
  | .begun _ => none
  | .admitted c | .subtreeRead c _ | .rowsRead c _ => some c.mode

/-- The rows that it has locked. -/
def Progress.rows : Progress → List Uuid
  | .rowsRead _ rows => rows.map Folder.folderId
  | _ => []

/-- The rows that its next statement reads for update. -/
def Progress.wants : Progress → Option (FolderCommand × List Uuid)
  | .admitted (.create folderId parentId expected name) =>
    some (.create folderId parentId expected name, [parentId])
  | .admitted (.rename folderId expected name) => some (.rename folderId expected name, [folderId])
  | .subtreeRead (.move folderId origin target expected) subtree =>
    some (.move folderId origin target expected, subtree ++ [origin, target])
  | _ => none

/-- The committed tables, and the transactions that are under way. -/
structure System (ι : Type) where
  db : Database
  txs : ι → Option Progress

variable {ι : Type} [DecidableEq ι]

def System.set (s : System ι) (i : ι) (p : Option Progress) : System ι :=
  { s with txs := fun j => if j = i then p else s.txs j }

inductive Event (ι : Type) where
  | internal
  | committed (i : ι) (w : Option Write)

inductive Step (nfc : String → String) (s : System ι) : Event ι → System ι → Prop where
  | begun (i : ι) (c : FolderCommand) (idle : s.txs i = none) :
    Step nfc s .internal (s.set i (some (.begun c)))
  | admitted (i : ι) (c : FolderCommand) (here : s.txs i = some (.begun c))
      (free : ∀ j p, j ≠ i → s.txs j = some p →
        p.access = none ∨ p.access = some .shared ∧ c.mode = .shared) :
    Step nfc s .internal (s.set i (some (.admitted c)))
  | subtreeRead (i : ι) (folderId origin target : Uuid) (expected : Int)
      (here : s.txs i = some (.admitted (.move folderId origin target expected)))
      (notRoot : folderId ≠ systemRootFolderId) (found : s.db.subtreeIds folderId ≠ [])
      (outside : target ∉ s.db.subtreeIds folderId) :
    Step nfc s .internal (s.set i (some (.subtreeRead (.move folderId origin target expected)
      (s.db.subtreeIds folderId))))
  | rowsRead (i : ι) (p : Progress) (c : FolderCommand) (ids : List Uuid) (rows : List Folder)
      (here : s.txs i = some p) (wants : p.wants = some (c, ids))
      (free : ∀ j q, j ≠ i → s.txs j = some q → ∀ id ∈ ids, id ∉ q.rows)
      (read : s.db.lockFolders ids = .ok rows) :
    Step nfc s .internal (s.set i (some (.rowsRead c rows)))
  | committed (i : ι) (c : FolderCommand) (rows : List Folder) (w : Option Write) (after : Database)
      (here : s.txs i = some (.rowsRead c rows)) (wrote : c.write nfc rows = .ok w)
      (applied : w.elim (some s.db) (Write.apply s.db) = some after) :
    Step nfc s (.committed i w) { s.set i none with db := after }
  | ended (i : ι) : Step nfc s .internal (s.set i none)
  | elsewhere (after : Database) (same : after.folders = s.db.folders) :
    Step nfc s .internal { s with db := after }

/-! ## What holds between the statements -/

variable {nfc : String → String} {db after : Database} {c : FolderCommand} {rows : List Folder}
  {w : Write} {p : Progress}

/-- A write that leaves a tree. -/
def Allowed (db : Database) : Write → Prop
  | .insert f => ∃ parent, f.parentFolderId = some parent ∧ (db.up parent).isSome = true
  | .setName .. => True
  | .setParent folderId target _ => folderId ≠ systemRootFolderId ∧
    target ∉ db.subtreeIds folderId ∧ (db.up target).isSome = true ∧ (db.up folderId).isSome = true

/-- What a transaction has read is still so. -/
def Fits (nfc : String → String) (db : Database) : Progress → Prop
  | .begun _ | .admitted _ => True
  | .subtreeRead c subtree => ∀ folderId origin target expected,
    c = .move folderId origin target expected → folderId ≠ systemRootFolderId ∧
      subtree = db.subtreeIds folderId ∧ target ∉ subtree ∧ (db.up folderId).isSome = true
  | .rowsRead c rows => ∀ w, c.write nfc rows = .ok (some w) → Allowed db w

structure Consistent (nfc : String → String) (s : System ι) : Prop where
  rooted : Rooted s.db
  fits : ∀ i p, s.txs i = some p → Fits nfc s.db p
  alone : ∀ i j p q, i ≠ j → s.txs i = some p → s.txs j = some q → p.access = some .exclusive →
    q.access = none

theorem write_rename {folderId : Uuid} {expected : Int} {name : String}
    (h : FolderCommand.write nfc rows (.rename folderId expected name) = .ok (some w)) :
    ∃ name revision, w = .setName folderId name revision := by
  simp only [FolderCommand.write, except_iffs] at h
  obtain ⟨_, -, -, -, -, _, -, h⟩ := h
  split at h
  · simp only [except_iffs, Option.some.injEq] at h
    obtain ⟨revision, -, rfl⟩ := h
    exact ⟨_, revision, rfl⟩
  · cases h

/-- Only a command with the exclusive lock gives a folder another parent. -/
theorem write_shared {folderId target : Uuid} {revision : Int} (shared : c.mode ≠ .exclusive) :
    c.write nfc rows ≠ .ok (some (.setParent folderId target revision)) := by
  intro h
  cases c with
  | create =>
    simp only [FolderCommand.write, except_iffs] at h
    obtain ⟨-, _, -, -, -, _, -, wrong⟩ := h
    cases wrong
  | rename =>
    obtain ⟨_, _, wrong⟩ := write_rename h
    cases wrong
  | move => exact shared rfl

/-- What a transaction without the exclusive lock has read stays so while there are more folders. -/
theorem Fits.grown (h : Fits nfc db p) (shared : p.access ≠ some .exclusive)
    (nodes : ∀ id, (db.up id).isSome = true → (after.up id).isSome = true) : Fits nfc after p := by
  cases p with
  | begun | admitted => trivial
  | subtreeRead =>
    rintro folderId origin target expected rfl
    exact absurd rfl shared
  | rowsRead =>
    intro w wrote
    cases w with
    | insert =>
      obtain ⟨parent, child, home⟩ := h _ wrote
      exact ⟨parent, child, nodes parent home⟩
    | setName => trivial
    | setParent =>
      exact absurd wrote (write_shared fun exclusive => shared (by rw [← exclusive]; rfl))

theorem Fits.elsewhere (h : Fits nfc db p) (same : after.folders = db.folders) :
    Fits nfc after p := by
  have up : after.up = db.up := by
    funext id
    rw [Database.up, same, Database.up]
  have subtree : after.subtreeIds = db.subtreeIds := by
    funext id
    simp only [Database.subtreeIds, Database.folderIds, up, same]
  cases p with
  | begun | admitted => trivial
  | subtreeRead => simpa only [Fits, up, subtree] using h
  | rowsRead =>
    intro w wrote
    cases w with
    | insert => simpa only [Allowed, up] using h _ wrote
    | setName => trivial
    | setParent => simpa only [Allowed, up, subtree] using h _ wrote

theorem apply_nodes {id : Uuid} (applied : w.apply db = some after)
    (node : (db.up id).isSome = true) : (after.up id).isSome = true := by
  cases w with
  | insert =>
    obtain ⟨folders, inserted, rfl⟩ := Option.map_eq_some_iff.mp applied
    rwa [up_insert_old inserted node]
  | setName =>
    cases applied
    rwa [up_setName]
  | setParent =>
    cases applied
    rwa [setParent_nodes]

theorem Allowed.rooted (h : Allowed db w) (applied : w.apply db = some after)
    (rooted : Rooted db) : Rooted after := by
  cases w with
  | insert =>
    obtain ⟨folders, inserted, rfl⟩ := Option.map_eq_some_iff.mp applied
    obtain ⟨parent, child, home⟩ := h
    exact rooted.folderCreated child home inserted
  | setName =>
    cases applied
    exact rooted.of_up up_setName
  | setParent =>
    cases applied
    obtain ⟨notRoot, outside, home, -⟩ := h
    exact rooted.folderMoved notRoot outside home

/-- The rows just read are those that the checks speak of. -/
theorem fits_rowsRead {ids : List Uuid} (h : Fits nfc db p) (wants : p.wants = some (c, ids))
    (read : db.lockFolders ids = .ok rows) : Fits nfc db (.rowsRead c rows) := by
  have there (id : Uuid) (listed : id ∈ ids) : (db.up id).isSome = true :=
    up_isSome.trans (find_lockFolders read listed)
  intro w wrote
  unfold Progress.wants at wants
  split at wants
  · cases wants
    simp only [FolderCommand.write, except_iffs, Option.some.injEq] at wrote
    obtain ⟨-, _, -, -, -, _, -, rfl⟩ := wrote
    exact ⟨_, rfl, there _ (List.mem_singleton_self _)⟩
  · cases wants
    obtain ⟨_, _, rfl⟩ := write_rename wrote
    trivial
  · cases wants
    obtain ⟨notRoot, rfl, outside, node⟩ := h _ _ _ _ rfl
    simp only [FolderCommand.write, except_bind_iff] at wrote
    obtain ⟨_, -, _, -, _, -, wrote⟩ := wrote
    split at wrote
    · simp only [except_iffs, Option.some.injEq] at wrote
      obtain ⟨_, -, rfl⟩ := wrote
      exact ⟨notRoot, outside, there _ (by simp), node⟩
    · cases wrote
  · cases wants

/-! ## Runs -/

variable {s t : System ι} {i : ι} {e : Event ι} {trace : List (Event ι)}

theorem Consistent.set {new : Option Progress} (h : Consistent nfc s)
    (fits : ∀ q, new = some q → Fits nfc s.db q)
    (alone : ∀ q, new = some q → ∀ j r, j ≠ i → s.txs j = some r →
      (q.access = some .exclusive → r.access = none) ∧
        (r.access = some .exclusive → q.access = none)) : Consistent nfc (s.set i new) := by
  refine ⟨h.rooted, ?_, ?_⟩
  · intro j q here
    simp only [System.set] at here
    split at here
    · exact fits q here
    · exact h.fits j q here
  · intro j k q r apart here there exclusive
    simp only [System.set] at here there
    split at here
    next same =>
      subst same
      rw [if_neg apart.symm] at there
      exact (alone q here k r apart.symm there).1 exclusive
    next other =>
      split at there
      · exact (alone r there j q other here).2 exclusive
      · exact h.alone j k q r apart here there exclusive

/-- The next statement of a transaction, under the lock that it has. -/
theorem Consistent.advance {old new : Progress} (h : Consistent nfc s) (here : s.txs i = some old)
    (fits : Fits nfc s.db new) (same : new.access = old.access) :
    Consistent nfc (s.set i (some new)) := by
  refine h.set (fun q made => Option.some.inj made ▸ fits) ?_
  rintro q made j r apart there
  obtain rfl := Option.some.inj made
  rw [same]
  exact ⟨h.alone i j old r apart.symm here there, h.alone j i r old apart there here⟩

theorem Step.consistent (step : Step nfc s e t) (h : Consistent nfc s) : Consistent nfc t := by
  cases step with
  | begun =>
    refine h.set (fun q made => Option.some.inj made ▸ trivial) ?_
    rintro q made j r - -
    obtain rfl := Option.some.inj made
    exact ⟨nofun, fun _ => rfl⟩
  | admitted _ _ _ free =>
    refine h.set (fun q made => Option.some.inj made ▸ trivial) ?_
    rintro q made j r apart there
    obtain rfl := Option.some.inj made
    obtain none | ⟨shared, also⟩ := free j r apart there
    · exact ⟨fun _ => none, fun exclusive => absurd (none.symm.trans exclusive) nofun⟩
    · refine ⟨fun exclusive => ?_, fun exclusive => ?_⟩
      · rw [Progress.access, also] at exclusive
        cases exclusive
      · rw [shared] at exclusive
        cases exclusive
  | subtreeRead _ _ _ _ _ here notRoot found outside =>
    refine h.advance here ?_ rfl
    rintro _ _ _ _ ⟨⟩
    refine ⟨notRoot, rfl, outside, ?_⟩
    unfold Database.subtreeIds at found
    split at found
    · assumption
    · exact absurd rfl found
  | rowsRead i p _ _ _ here wants _ read =>
    refine h.advance here (fits_rowsRead (h.fits i p here) wants read) ?_
    unfold Progress.wants at wants
    split at wants <;> cases wants <;> rfl
  | committed i _ _ w _ here wrote applied =>
    have ended : Consistent nfc (s.set i none) := h.set nofun nofun
    cases w with
    | none =>
      cases applied
      exact ended
    | some w =>
      refine ⟨(h.fits i _ here w wrote).rooted applied h.rooted, ?_, ended.alone⟩
      intro j p there
      refine (ended.fits j p there).grown ?_ fun id => apply_nodes applied
      intro exclusive
      simp only [System.set] at there
      split at there
      · cases there
      next apart =>
        cases h.alone j i p _ apart there here exclusive
  | ended => exact h.set nofun nofun
  | elsewhere _ same =>
    refine ⟨h.rooted.of_up ?_, fun j p there => (h.fits j p there).elsewhere same, h.alone⟩
    funext id
    rw [Database.up, same, Database.up]

/-- In every committed state each folder leads to the one root, none is above itself, and a move
gives another parent to the moved folder alone. -/
theorem folders_stay_a_tree
    (run : Run (Step nfc) (⟨.migrated, fun _ => none⟩ : System ι) trace s) :
    (s.db.up systemRootFolderId = some none ∧
      ∀ id, s.db.up id = some none → id = systemRootFolderId) ∧
    (∀ id, (s.db.up id).isSome = true →
      ∃ path, Path s.db.up id path ∧ path.getLast? = some systemRootFolderId) ∧
    (∀ id, ¬ Relation.TransGen (fun child parent => s.db.up child = some (some parent)) id id) ∧
    ∀ i folderId target revision t,
      Step nfc s (.committed i (some (.setParent folderId target revision))) t →
      ∀ id, t.db.up id = if id = folderId then some (some target) else s.db.up id := by
  have holds : Consistent nfc s := by
    refine run.invariant (P := fun _ s => Consistent nfc s) ?_ fun _ _ _ _ h step =>
      step.consistent h
    exact ⟨WellFormed.migrated.toRooted, nofun, nofun⟩
  refine ⟨⟨holds.rooted.root, holds.rooted.single⟩, ?_, ?_, ?_⟩
  · intro id node
    obtain ⟨path, p⟩ := holds.rooted.paths id node
    obtain ⟨l, last, top⟩ := p.last
    exact ⟨path, p, holds.rooted.single l top ▸ last⟩
  · intro id above
    obtain ⟨path, p⟩ : ∃ path, Path s.db.up id path := by
      refine holds.rooted.paths id ?_
      obtain ⟨parent, step, -⟩ := Relation.TransGen.head'_iff.mp above
      rw [step]
      rfl
    exact p.acyclic above
  · intro i folderId target revision t step id
    generalize label : Event.committed i (some (.setParent folderId target revision)) = e at step
    cases step with
    | committed i _ _ _ _ here wrote applied =>
      cases label
      cases applied
      obtain ⟨-, -, -, node⟩ := holds.fits i _ here _ wrote
      rw [up_setParent]
      split
      next same =>
        obtain ⟨parent, row⟩ := Option.isSome_iff_exists.mp node
        rw [same, row]
        rfl
      · rfl
    | _ => cases label

/-! ## A transaction alone -/

/-- No transaction is under way. -/
def System.idle (db : Database) : System ι := ⟨db, fun _ => none⟩

variable {new : Option Progress}

@[simp] theorem set_txs : (s.set i new).txs i = new := if_pos rfl

@[simp] theorem set_set {newer : Option Progress} : (s.set i new).set i newer = s.set i newer := by
  simp only [System.set, System.mk.injEq, true_and]
  funext j
  split <;> rfl

theorem idle_other {j : ι} {r : Progress} (apart : j ≠ i)
    (here : ((System.idle db).set i new).txs j = some r) : False := by
  simp [System.idle, System.set, apart] at here

/-- The folder command of a management command. -/
def FolderCommand.of : ManagementCommand → Option FolderCommand
  | .createFolder _ folderId parentId expected name _ =>
    some (.create folderId parentId expected name)
  | .renameFolder _ folderId expected name _ => some (.rename folderId expected name)
  | .moveFolder _ folderId origin target expected _ =>
    some (.move folderId origin target expected)
  | _ => none

/-- A row that was read is found among those read by its identifier. -/
theorem find?_rows {ids : List Uuid} {row : Folder} (read : db.lockFolders ids = .ok rows)
    (listed : row.folderId ∈ ids) (found : db.folders.find row.folderId = some row) :
    (rows.find? fun f => decide (f.folderId = row.folderId)) = some row := by
  have stored (r : Folder) (hr : r ∈ rows) : db.folders.find r.folderId = some r := by
    obtain ⟨id, -, first⟩ := exists_right (forall₂_of_mapM read).flip hr
    obtain ⟨-, rfl⟩ := Table.find_iff.mp (okOr_iff.mp first)
    exact okOr_iff.mp first
  obtain ⟨r, hr, first⟩ := mapM_each read listed
  obtain rfl := Option.some.inj ((okOr_iff.mp first).symm.trans found)
  refine (find?_one_iff ?_).mpr ⟨hr, by simp⟩
  simp only [decide_eq_true_eq]
  rintro x hx y hy sameX sameY
  exact Option.some.inj ((stored x hx).symm.trans (sameX.trans sameY.symm ▸ stored y hy))

theorem admitted_alone (i : ι) (c : FolderCommand) :
    Run (Step nfc) (.idle db) [.internal, .internal]
    ((System.idle db).set i (some (.admitted c))) := by
  have begun : Run (Step nfc) (.idle db) [.internal] ((System.idle db).set i (some (.begun c))) :=
    Run.start.next (.begun i c rfl)
  have admitted := begun.next (.admitted i c set_txs fun j q apart here =>
    (idle_other apart here).elim)
  rwa [set_set] at admitted

/-- From the rows it wants, a transaction that is alone gets to its end. -/
theorem run_to_end {ids : List Uuid} {w : Option Write} {mid : Database}
    (begun : Run (Step nfc) (.idle db) trace ((System.idle db).set i (some p)))
    (wants : p.wants = some (c, ids)) (read : db.lockFolders ids = .ok rows)
    (wrote : c.write nfc rows = .ok w) (applied : w.elim (some db) (Write.apply db) = some mid)
    (same : after.folders = mid.folders) :
    ∃ trace, Run (Step nfc) (.idle db) trace (.idle after : System ι) := by
  have locked := begun.next (.rowsRead i p c ids rows set_txs wants
    (fun j q apart here => (idle_other apart here).elim) read)
  rw [set_set] at locked
  have committed := locked.next (.committed i c rows w mid set_txs wrote applied)
  rw [set_set] at committed
  have done := committed.next (.elsewhere after same)
  exact ⟨_, by simpa [System.idle, System.set] using done⟩

theorem create_runs (i : ι) (f : Folder) (parentId : Uuid) (expected : Int) (name : String)
    {parent : Folder} {folders : Table Folder.folderId}
    (found : db.folders.find parentId = some parent)
    (wrote : FolderCommand.write nfc [parent] (.create f.folderId parentId expected name) =
      .ok (some (.insert f))) (inserted : db.folders.insert f = some folders) :
    ∃ trace, Run (Step nfc) (.idle db) trace (.idle { db with folders } : System ι) := by
  refine run_to_end (admitted_alone i (.create f.folderId parentId expected name)) rfl ?_ wrote ?_
    rfl
  · simp [Database.lockFolders, found, okOr]
  · simp [Write.apply, inserted]

/-- A management command on a folder, alone, is a run of these statements. -/
theorem executeNew_runs (i : ι) {env : Env} {ctx : VerifiedActorContext}
    {command : ManagementCommand} {done : Committed ManagementMutationResult}
    (folder : FolderCommand.of command = some c) (h : executeNew env db ctx command = .ok done) :
    ∃ trace, Run (Step env.nfc) (.idle db) trace (.idle done.2 : System ι) := by
  cases command with
  | updateDocumentMetadata | moveDocument | setAccessPolicy => cases folder
  | createFolder _ _ _ expected name =>
    cases folder
    simp only [executeNew, executeCreateFolder, except_iffs] at h
    obtain ⟨notRoot, parent, found, -, active, revision, _, valid, -, folders, inserted, rfl⟩ := h
    refine create_runs i _ _ expected name found ?_ inserted
    obtain ⟨-, rfl⟩ := Table.find_iff.mp found
    simp only [FolderCommand.write, except_iffs]
    exact ⟨notRoot, parent, by simp, active, revision, _, valid, rfl⟩
  | renameFolder _ _ expected name =>
    cases folder
    simp only [executeNew, executeRenameFolder, except_iffs] at h
    obtain ⟨row, found, -, notRoot, active, revision, _, valid, h⟩ := h
    obtain ⟨-, rfl⟩ := Table.find_iff.mp found
    have read : db.lockFolders [row.folderId] = .ok [row] := by
      simp [Database.lockFolders, found, okOr]
    have first := find?_rows read (by simp) found
    have admitted := @admitted_alone ι _ env.nfc db i (.rename row.folderId expected name)
    split at h
    next differs =>
      simp only [except_iffs] at h
      obtain ⟨next, bumped, -, rfl⟩ := h
      refine run_to_end admitted rfl read (w := some (.setName row.folderId _ next)) ?_ rfl rfl
      simp only [FolderCommand.write, except_iffs]
      refine ⟨row, first, notRoot, active, revision, _, valid, ?_⟩
      rw [if_pos differs, bumped]
      rfl
    next same =>
      obtain rfl := except_pure_iff.mp h
      refine run_to_end admitted rfl read (w := none) ?_ rfl rfl
      simp only [FolderCommand.write, except_iffs]
      exact ⟨row, first, notRoot, active, revision, _, valid, if_neg same⟩
  | moveFolder _ _ origin target expected =>
    cases folder
    simp only [executeNew, executeFolderMove, except_iffs] at h
    obtain ⟨notRoot, there, outside, rows, read, moved, found, active, current, -, h⟩ := h
    obtain ⟨-, rfl⟩ := Table.find_iff.mp found
    have admitted := @admitted_alone ι _ env.nfc db i (.move moved.folderId origin target expected)
    have searched := admitted.next (.subtreeRead i _ _ _ _ set_txs notRoot there outside)
    rw [set_set] at searched
    have own : moved.folderId ∈ db.subtreeIds moved.folderId := by
      unfold Database.subtreeIds at there ⊢
      split at there
      · rw [if_pos ‹_›]
        exact (List.perm_insertionSort _ _).mem_iff.mpr (descend_mono (List.mem_singleton_self _))
      · exact absurd rfl there
    have first := find?_rows read (List.mem_append_left _ own) found
    split at h
    next differs =>
      simp only [reparent, except_iffs] at h
      obtain ⟨next, bumped, _, ⟨-, _, -, -, _, -, _, -, -, rfl⟩, _, bump, rfl⟩ := h
      refine run_to_end searched rfl read (w := some (.setParent moved.folderId _ next)) ?_ rfl
        (bumpAccessRevision_inPlace bump).folders
      simp only [FolderCommand.write, except_iffs]
      refine ⟨moved, first, active, current, ?_⟩
      rw [if_pos differs, bumped]
      rfl
    next same =>
      obtain rfl := except_pure_iff.mp h
      refine run_to_end searched rfl read (w := none) ?_ rfl rfl
      simp only [FolderCommand.write, except_iffs]
      exact ⟨moved, first, active, current, if_neg same⟩

def sampleFolder (n : UInt8) (name : String) : Folder :=
  ⟨sampleUuid n, some systemRootFolderId, name, "ACTIVE", 0⟩

def sampleRows (folders : List Folder) (distinct : (folders.map Folder.folderId).Nodup) :
    Database :=
  { Database.migrated with folders := ⟨folders, distinct⟩ }

/-- Of two folders created one is moved into the other, while a transaction on that other waits. -/
theorem folders_stay_a_tree_moved : ∃ trace, ∃ s : System Bool,
    Run (Step id) ⟨.migrated, fun _ => none⟩ trace s ∧
    s.txs true = some (.begun (.rename (sampleUuid 1) 0 "c")) ∧
    s.db.up (sampleUuid 2) = some (some (sampleUuid 1)) ∧
    ∃ path, Path s.db.up (sampleUuid 2) path ∧ path.getLast? = some systemRootFolderId := by
  let c : FolderCommand := .move (sampleUuid 2) systemRootFolderId (sampleUuid 1) 0
  obtain ⟨older, one⟩ : ∃ trace, Run (Step id) (.idle .migrated) trace
      (.idle (sampleRows [systemRoot, sampleFolder 1 "a"] (by decide)) : System Bool) :=
    create_runs false (sampleFolder 1 "a") systemRootFolderId 0 "a" rfl rfl rfl
  obtain ⟨newer, two⟩ : ∃ trace, Run (Step id)
      (.idle (sampleRows [systemRoot, sampleFolder 1 "a"] (by decide))) trace
      (.idle (sampleRows [systemRoot, sampleFolder 1 "a", sampleFolder 2 "b"] (by decide)) :
        System Bool) :=
    create_runs false (sampleFolder 2 "b") systemRootFolderId 0 "b" rfl rfl rfl
  have waiting := (one.append two).next (.begun true (.rename (sampleUuid 1) 0 "c") rfl)
  have begun := waiting.next (.begun false c rfl)
  have admitted := begun.next (.admitted false c rfl fun j q apart here => by
    obtain rfl := Bool.eq_true_of_not_eq_false apart
    cases here
    exact .inl rfl)
  have searched := admitted.next
    (.subtreeRead false _ _ _ _ rfl (by decide) (by decide) (by decide))
  have locked := searched.next (.rowsRead false _ c [sampleUuid 2, systemRootFolderId, sampleUuid 1]
    [sampleFolder 2 "b", systemRoot, sampleFolder 1 "a"] rfl rfl
    (fun j q apart here => by
      obtain rfl := Bool.eq_true_of_not_eq_false apart
      cases here
      exact fun _ _ => List.not_mem_nil) rfl)
  have moved := locked.next (.committed false c _ (some (.setParent _ _ 1)) _ rfl rfl rfl)
  exact ⟨_, _, moved, rfl, rfl, (folders_stay_a_tree moved).2.1 (sampleUuid 2) rfl⟩

end KnowledgePlatform.Documents.Concurrent
