import KnowledgePlatform.Documents.Effects

/-! What holds of folders, bindings and grants in every run: every folder is below the one root,
every document is in a folder, a target has one binding, and a grant is the row of a subject. -/

namespace KnowledgePlatform.Documents

open Ancestry List

variable {db after : Database}

/-- Every folder is below the one root. -/
structure Rooted (db : Database) : Prop where
  root : db.up systemRootFolderId = some none
  single : ∀ id, db.up id = some none → id = systemRootFolderId
  paths : ∀ id, (db.up id).isSome = true → ∃ path, Path db.up id path

structure WellFormed (db : Database) : Prop extends Rooted db where
  homes : ∀ d ∈ db.documents, (db.up d.folderId).isSome = true
  bound : ∀ b ∈ db.bindings, ∀ c ∈ db.bindings, b.target = c.target → b = c
  granted : ∀ g ∈ db.grants, ∃ subject action, g = grantRow g.policyId subject action

variable {id : Uuid}

theorem up_isSome : (db.up id).isSome = (db.folders.find id).isSome := by
  rw [Database.up, Option.isSome_map]

theorem mem_folderIds : id ∈ db.folderIds ↔ (db.up id).isSome = true := by
  rw [up_isSome, Option.isSome_iff_exists, Database.folderIds, mem_map]
  exact exists_congr fun f => Table.find_iff.symm

theorem WellFormed.migrated : WellFormed .migrated where
  root := by decide
  single id h := by
    obtain ⟨f, found, -⟩ := Option.map_eq_some_iff.mp h
    obtain ⟨stored, rfl⟩ := Table.find_iff.mp found
    rw [mem_singleton.mp stored]
    rfl
  paths id h := by
    obtain ⟨f, found⟩ := Option.isSome_iff_exists.mp (up_isSome.symm.trans h)
    obtain ⟨stored, rfl⟩ := Table.find_iff.mp found
    rw [mem_singleton.mp stored]
    exact ⟨_, .root (by decide)⟩
  homes _ h := absurd h Table.not_mem_empty
  bound _ h := absurd h Table.not_mem_empty
  granted _ h := absurd h Table.not_mem_empty

theorem Rooted.of_up (up : after.up = db.up) (h : Rooted db) : Rooted after :=
  ⟨up ▸ h.root, up ▸ h.single, up ▸ h.paths⟩

theorem WellFormed.inPlace (same : InPlace db after) (h : WellFormed db) : WellFormed after := by
  have up : after.up = db.up := by
    funext id
    rw [Database.up, same.folders, Database.up]
  refine ⟨h.of_up up, ?_, ?_, ?_⟩
  · intro d hd
    obtain ⟨old, stored, stays⟩ := same.homes d hd
    rw [up, ← stays]
    exact h.homes old stored
  · rw [same.bindings]
    exact h.bound
  · rw [same.grants]
    exact h.granted

/-! ## Folders -/

variable {f : Folder} {folders : Table Folder.folderId}

theorem up_insert (id : Uuid) (inserted : db.folders.insert f = some folders) :
    { db with folders }.up id = if f.folderId = id then some f.parentFolderId else db.up id := by
  unfold Database.up
  rw [Table.find_insert inserted]
  split <;> rfl

/-- A folder that was there is where it was. -/
theorem up_insert_old (inserted : db.folders.insert f = some folders)
    (node : (db.up id).isSome = true) : { db with folders }.up id = db.up id := by
  rw [up_insert id inserted, if_neg]
  rintro rfl
  rw [up_isSome, (Table.insert_iff.mp inserted).1] at node
  cases node

theorem Rooted.folderCreated {parent : Uuid} (child : f.parentFolderId = some parent)
    (home : (db.up parent).isSome = true) (inserted : db.folders.insert f = some folders)
    (h : Rooted db) :
    Rooted { db with folders } := by
  have new : { db with folders }.up f.folderId = some (some parent) := by
    rw [up_insert _ inserted, if_pos rfl, child]
  have kept {id : Uuid} {path : List Uuid} (p : Path db.up id path) :
      Path { db with folders }.up id path :=
    p.congr fun l hl => up_insert_old inserted (p.exists_up hl)
  refine ⟨?_, ?_, ?_⟩
  · rw [up_insert_old inserted (by rw [h.root]; rfl)]
    exact h.root
  · intro id top
    rw [up_insert id inserted, child] at top
    split at top
    · cases top
    · exact h.single id top
  · intro id node
    rw [up_insert id inserted] at node
    split at node
    next same =>
      subst same
      obtain ⟨path, p⟩ := h.paths parent home
      exact ⟨_, .node new (kept p)⟩
    · obtain ⟨path, p⟩ := h.paths id node
      exact ⟨path, kept p⟩

variable {folderId : Uuid} {revision : Int}

theorem up_setName {name : String} :
    (db.setName folderId name revision).up = db.up := by
  funext id
  unfold Database.up Database.setName
  rw [Table.find_modify]
  split
  · rw [Option.map_map]
    rfl
  · rfl

variable {target : Uuid}

theorem up_setParent :
    (db.setParent folderId target revision).up id =
      if id = folderId then (db.up id).map fun _ => some target else db.up id := by
  unfold Database.up Database.setParent
  rw [Table.find_modify]
  split
  · rw [Option.map_map, Option.map_map]
    rfl
  · rfl

theorem setParent_nodes (id : Uuid) :
    ((db.setParent folderId target revision).up id).isSome = (db.up id).isSome := by
  rw [up_setParent]
  split <;> simp

theorem Rooted.folderMoved (notRoot : folderId ≠ systemRootFolderId)
    (outside : target ∉ db.subtreeIds folderId) (home : (db.up target).isSome = true)
    (h : Rooted db) :
    Rooted (db.setParent folderId target revision) := by
  refine ⟨?_, ?_, ?_⟩
  · rw [up_setParent, if_neg notRoot.symm]
    exact h.root
  · intro id top
    rw [up_setParent] at top
    split at top
    · obtain ⟨_, -, wrong⟩ := Option.map_eq_some_iff.mp top
      cases wrong
    · exact h.single id top
  · intro id node
    rw [setParent_nodes] at node
    obtain ⟨path, p⟩ := h.paths id node
    obtain ⟨above, top⟩ := h.paths target home
    cases row : db.up folderId with
    | none =>
      -- Nothing has moved.
      refine ⟨path, p.congr fun l _ => ?_⟩
      rw [up_setParent]
      split
      next same =>
        rw [same, row]
        rfl
      · rfl
    | some =>
      refine Path.move (k := folderId) ?_ ?_ top ?_ p
      · rw [up_setParent, if_pos rfl, row]
        rfl
      · intro l apart
        rw [up_setParent, if_neg apart]
      · intro on
        have all (l : Uuid) (node : (db.up l).isSome = true) : l ∈ db.folderIds :=
          mem_folderIds.mpr node
        have size : db.folderIds.length = db.folders.rows.length := length_map _
        have fits := top.length_le all
        unfold Database.subtreeIds at outside
        rw [if_pos (top.exists_up on), mem_insertionSort] at outside
        exact outside (top.descend all on (by omega))

/-! ## Policies -/

theorem bindingOf_iff {target : PolicyTarget} {b : AccessPolicyBinding} (h : WellFormed db) :
    db.bindingOf target = some b ↔ b ∈ db.bindings ∧ b.target = target := by
  rw [Database.bindingOf, find?_one_iff, decide_eq_true_iff]
  · rfl
  · simp only [decide_eq_true_iff]
    rintro b hb c hc rfl same
    exact h.bound b hb c hc same.symm

variable {policyId : Uuid} {mode : PolicyMode}

theorem mem_rows {g : AccessPolicyGrant} (hg : g ∈ mode.rows policyId) :
    ∃ subject action, g = grantRow policyId subject action := by
  cases mode with
  | inherit => cases hg
  | explicit =>
    obtain ⟨grant, -, hg⟩ := mem_flatMap.mp hg
    obtain ⟨action, -, rfl⟩ := mem_map.mp hg
    exact ⟨grant.subject, action, rfl⟩

theorem insertGrants_ok (h : db.insertGrants policyId mode = .ok after) :
    ∃ grants, db.grants.insertAll (mode.rows policyId) = some grants ∧
      after = { db with grants } := by
  simp only [Database.insertGrants, except_iffs] at h
  obtain ⟨grants, inserted, rfl⟩ := h
  exact ⟨grants, inserted, rfl⟩

theorem granted_insertAll {old grants : Table fun g : AccessPolicyGrant => g}
    (inserted : old.insertAll (mode.rows policyId) = some grants)
    (before : ∀ g ∈ old, ∃ subject action, g = grantRow g.policyId subject action) :
    ∀ g ∈ grants, ∃ subject action, g = grantRow g.policyId subject action := by
  intro g hg
  obtain hg | hg := (Table.mem_insertAll inserted).mp hg
  · exact before g hg
  · obtain ⟨subject, action, rfl⟩ := mem_rows hg
    exact ⟨subject, action, rfl⟩

theorem WellFormed.policyAdded {target : PolicyTarget}
    (added : db.addBinding policyId target revision mode = .ok after) (h : WellFormed db) :
    WellFormed after := by
  simp only [Database.addBinding, except_iffs] at added
  obtain ⟨free, bindings, inserted, last⟩ := added
  obtain ⟨grants, wrote, rfl⟩ := insertGrants_ok last
  have unbound (b : AccessPolicyBinding) (hb : b ∈ db.bindings) : b.target ≠ target := by
    intro same
    rw [(bindingOf_iff h).mpr ⟨hb, same⟩] at free
    cases free
  refine { h with bound := ?_, granted := granted_insertAll wrote h.granted }
  intro b hb c hc same
  obtain hb | rfl := (Table.mem_insert inserted).mp hb
  · obtain hc | rfl := (Table.mem_insert inserted).mp hc
    · exact h.bound b hb c hc same
    · exact absurd same (unbound b hb)
  · obtain hc | rfl := (Table.mem_insert inserted).mp hc
    · exact absurd same.symm (unbound c hc)
    · rfl

theorem WellFormed.policyReplaced (replaced : db.replaceBinding policyId revision mode = .ok after)
    (h : WellFormed db) : WellFormed after := by
  obtain ⟨grants, wrote, rfl⟩ := insertGrants_ok replaced
  refine { h with bound := ?_, granted := granted_insertAll wrote ?_ }
  · intro b hb c hc same
    obtain ⟨old, stored, rfl⟩ := Table.mem_modify.mp hb
    obtain ⟨other, kept, rfl⟩ := Table.mem_modify.mp hc
    have one : old.target = other.target := by
      split at same <;> split at same <;> exact same
    rw [h.bound old stored other kept one]
  · intro g hg
    exact h.granted g (Table.mem_remove.mp hg).1

/-! ## Runs -/

theorem WellFormed.effect (h : WellFormed db) (e : Effect db after) : WellFormed after := by
  cases e with
  | none => exact h
  | documentCreated _ _ _ home inserted =>
    refine { h with homes := ?_ }
    intro d hd
    obtain hd | rfl := (Table.mem_insert inserted).mp hd
    · exact h.homes d hd
    · exact up_isSome.trans home
  | documentMoved _ _ _ home =>
    refine { h with homes := ?_ }
    intro moved hm
    obtain ⟨old, stored, rfl⟩ := Table.mem_modify.mp hm
    split
    · exact up_isSome.trans home
    · exact h.homes old stored
  | folderCreated _ _ _ child home inserted =>
    refine ⟨h.toRooted.folderCreated child (up_isSome.trans home) inserted, ?_, h.bound, h.granted⟩
    intro d hd
    have node := h.homes d hd
    rw [up_insert_old inserted node]
    exact node
  | folderRenamed folderId name revision =>
    have up : (db.setName folderId name revision).up = db.up := up_setName
    exact ⟨h.of_up up, up ▸ h.homes, h.bound, h.granted⟩
  | folderMoved _ _ _ notRoot outside home =>
    refine ⟨h.toRooted.folderMoved notRoot outside (up_isSome.trans home), ?_, h.bound, h.granted⟩
    intro d hd
    rw [setParent_nodes]
    exact h.homes d hd
  | policyAdded _ _ _ _ added => exact h.policyAdded added
  | policyReplaced _ _ _ replaced => exact h.policyReplaced replaced

theorem Reached.wellFormed {trace : List Call} (run : Reached trace db) : WellFormed db :=
  run.invariant .migrated (fun _ _ h e => h.effect e) fun _ _ h same => h.inPlace same

end KnowledgePlatform.Documents
