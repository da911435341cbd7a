import KnowledgePlatform.Documents.Tree

/-! The evaluation in a transaction and the SQL functions decide alike: what the nearest explicit
policy on the path of a resource allows. -/

namespace KnowledgePlatform.Documents

open Ancestry List

variable {db : Database} {policyId : Uuid} {target : PolicyTarget}

/-! ## Grants -/

/-- A row of the policy for each action, with one of the subjects. -/
def Database.Allows (db : Database) (policyId : Uuid) (subjects : List PolicySubject)
    (required : List Action) : Prop :=
  required ≠ [] ∧ ∀ action ∈ required, ∃ s ∈ subjects, grantRow policyId s action ∈ db.grants

theorem grantRow_inj {s t : PolicySubject} {a b : Action}
    (same : grantRow policyId s a = grantRow policyId t b) : s = t ∧ a = b := by
  obtain ⟨-, kind, provider, subject, action⟩ := AccessPolicyGrant.mk.inj same
  constructor
  · cases s
    cases t
    cases PolicySubjectKind.text_inj kind
    cases provider
    cases subject
    rfl
  · have parsed := congrArg Action.parse action
    rw [Action.parse_text, Action.parse_text] at parsed
    exact Option.some.inj parsed

theorem parse_grantRow {s : PolicySubject} {a : Action} :
    (grantRow policyId s a).parse = some (s, a) := by
  simp [AccessPolicyGrant.parse, grantRow, PolicySubjectKind.parse_text, Action.parse_text,
    PolicySubject.new_self]

theorem evaluatePolicy_iff {subjects : List PolicySubject} {grants : List PolicyGrant}
    {required : List Action} :
    evaluatePolicy subjects (.explicit grants) required = true ↔
      required ≠ [] ∧ ∀ action ∈ required, ∃ g ∈ grants, g.subject ∈ subjects ∧
        action ∈ g.actions := by
  dsimp only [evaluatePolicy]
  by_cases none : required = []
  · simp [none]
  · by_cases empty : grants = []
    · obtain ⟨action, ha⟩ := exists_mem_of_ne_nil _ none
      rw [if_pos (.inl empty)]
      refine ⟨nofun, fun ⟨_, all⟩ => ?_⟩
      obtain ⟨g, hg, -⟩ := all action ha
      rw [empty] at hg
      cases hg
    · simp [none, empty]

/-- The rows of a policy as subjects and actions. -/
theorem exists_pairs (h : WellFormed db) (policyId : Uuid) :
    ∃ pairs : List (PolicySubject × Action), pairs.Nodup ∧
      (db.grants.select fun g => decide (g.policyId = policyId)) =
        pairs.map fun q => grantRow policyId q.1 q.2 := by
  have each : (db.grants.select fun g => decide (g.policyId = policyId)) ∈
      Set.range (map fun q : PolicySubject × Action => grantRow policyId q.1 q.2) := by
    rw [Set.range_list_map]
    intro g hg
    obtain ⟨stored, policy⟩ := Table.mem_select.mp hg
    obtain ⟨subject, action, row⟩ := h.granted g stored
    rw [of_decide_eq_true policy] at row
    exact ⟨(subject, action), row.symm⟩
  obtain ⟨pairs, same⟩ := each
  refine ⟨pairs, Nodup.of_map (fun q => grantRow policyId q.1 q.2) ?_, same.symm⟩
  rw [same]
  have unique : db.grants.rows.Nodup := by simpa using db.grants.unique
  exact unique.filter _

/-- One grant for each subject, with the actions of its rows. -/
theorem grouped_grants {pairs : List (PolicySubject × Action)} (unique : pairs.Nodup) :
    ∃ grants, ((grouped pairs).mapM fun g =>
        okOr (PolicyGrant.new g.1 g.2) RepositoryError.integrityViolation) = .ok grants ∧
      ∀ s a, (∃ g ∈ grants, g.subject = s ∧ a ∈ g.actions) ↔ (s, a) ∈ pairs := by
  let actions (s : PolicySubject) : List Action :=
    (pairs.filter fun q => decide (q.1 = s)).map Prod.snd
  have mem_actions (s : PolicySubject) (a : Action) : a ∈ actions s ↔ (s, a) ∈ pairs := by
    simp [actions]
  have valid (s : PolicySubject) (hs : s ∈ pairs.map Prod.fst) :
      (actions s).Nodup ∧ actions s ≠ [] := by
    constructor
    · refine (unique.filter _).map_on ?_
      rintro ⟨x, a⟩ hx ⟨y, b⟩ hy same
      obtain rfl : x = s := by simpa using (mem_filter.mp hx).2
      obtain rfl : y = x := by simpa using (mem_filter.mp hy).2
      exact Prod.ext rfl same
    · obtain ⟨⟨s, a⟩, hq, rfl⟩ := mem_map.mp hs
      exact ne_nil_of_mem ((mem_actions s a).mpr hq)
  have mem_grouped (g : PolicySubject × List Action) :
      g ∈ grouped pairs ↔ g.1 ∈ pairs.map Prod.fst ∧ g.2 = actions g.1 := by
    simp only [grouped, mem_map, mem_insertionSort, mem_dedup]
    constructor
    · rintro ⟨s, hs, rfl⟩
      exact ⟨hs, rfl⟩
    · rintro ⟨hs, same⟩
      exact ⟨g.1, hs, Prod.ext rfl same.symm⟩
  have made : ∀ g ∈ grouped pairs, ∃ grant : PolicyGrant,
      okOr (PolicyGrant.new g.1 g.2) RepositoryError.integrityViolation = .ok grant ∧
        (.ok () : Except RepositoryError Unit) = .ok () := by
    intro g hg
    obtain ⟨known, same⟩ := (mem_grouped g).mp hg
    refine ⟨_, okOr_iff.mpr (dif_pos (same ▸ valid g.1 known)), rfl⟩
  obtain ⟨grants, read, -⟩ := mapM_through (h := fun _ => .ok ()) made
  refine ⟨grants, read, fun s a => ?_⟩
  constructor
  · rintro ⟨grant, hgrant, rfl, ha⟩
    obtain ⟨g, hg, made⟩ := (mem_mapM read).mp hgrant
    obtain ⟨-, same⟩ := (mem_grouped g).mp hg
    rw [okOr_iff, PolicyGrant.new, Option.dite_none_right_eq_some] at made
    obtain ⟨_, made⟩ := made
    cases made
    rw [mem_toFinset, same] at ha
    exact (mem_actions _ a).mp ha
  · intro hq
    have known : s ∈ pairs.map Prod.fst := mem_map.mpr ⟨_, hq, rfl⟩
    refine ⟨_, (mem_mapM read).mpr ⟨(s, actions s), (mem_grouped _).mpr ⟨known, rfl⟩,
      okOr_iff.mpr (dif_pos (valid s known))⟩, rfl, ?_⟩
    exact mem_toFinset.mpr ((mem_actions s a).mpr hq)

theorem readGrants_allows (h : WellFormed db) (policyId : Uuid) :
    ∃ grants, db.readGrants policyId = .ok grants ∧
      ∀ subjects required, evaluatePolicy subjects (.explicit grants) required = true ↔
        db.Allows policyId subjects required := by
  obtain ⟨pairs, unique, rows⟩ := exists_pairs h policyId
  obtain ⟨grants, read, held⟩ := grouped_grants unique
  have parsed : ((db.grants.select fun g => decide (g.policyId = policyId)).mapM fun g =>
      okOr g.parse RepositoryError.integrityViolation) = .ok pairs := by
    rw [rows, mapM_iff_map, map_map]
    refine map_congr_left fun q _ => ?_
    rw [Function.comp_apply, parse_grantRow]
    rfl
  have stored (s : PolicySubject) (a : Action) :
      (s, a) ∈ pairs ↔ grantRow policyId s a ∈ db.grants := by
    have select : grantRow policyId s a ∈ db.grants ↔
        grantRow policyId s a ∈ db.grants.select fun g => decide (g.policyId = policyId) := by
      simp [Table.mem_select, grantRow]
    rw [select, rows, mem_map]
    constructor
    · intro hq
      exact ⟨_, hq, rfl⟩
    · rintro ⟨q, hq, same⟩
      obtain ⟨rfl, rfl⟩ := grantRow_inj same
      exact hq
  refine ⟨grants, except_bind_iff.mpr ⟨pairs, parsed, read⟩, fun subjects required => ?_⟩
  rw [evaluatePolicy_iff]
  refine and_congr_right fun _ => forall₂_congr fun action _ => ?_
  constructor
  · rintro ⟨g, hg, known, ha⟩
    exact ⟨g.subject, known, (stored _ _).mp ((held _ _).mp ⟨g, hg, rfl, ha⟩)⟩
  · rintro ⟨s, known, row⟩
    obtain ⟨g, hg, rfl, ha⟩ := (held _ _).mpr ((stored _ _).mpr row)
    exact ⟨g, hg, known, ha⟩

variable {ctx : VerifiedActorContext}

theorem grantsTo_iff {action : Action} :
    db.grantsTo policyId (verifiedSubjectsJson ctx) action.text = true ↔
      ∃ s ∈ ctx.subjects, grantRow policyId s action ∈ db.grants := by
  unfold Database.grantsTo
  rw [Table.any_iff]
  simp only [recordset, verifiedSubjectsJson, Bool.and_eq_true, decide_eq_true_eq, any_map,
    any_eq_true, Function.comp_apply]
  constructor
  · rintro ⟨g, stored, ⟨policy, act⟩, s, known, ⟨kind, provider⟩, subject⟩
    refine ⟨s, known, ?_⟩
    have row : grantRow policyId s action = g := by
      cases g
      cases policy
      cases act
      cases kind
      cases provider
      cases subject
      rfl
    exact row ▸ stored
  · rintro ⟨s, known, stored⟩
    exact ⟨_, stored, ⟨rfl, rfl⟩, s, known, ⟨rfl, rfl⟩, rfl⟩

/-! ## Nearest policies -/

/-- The folders from a target up to a root. -/
def Database.Chain (db : Database) : PolicyTarget → List Uuid → Prop
  | .folder id, path => Path db.up id path
  | .document id, path => ∃ d, db.documents.find id = some d ∧ Path db.up d.folderId path

/-- There is such a folder or document. -/
def Database.Has (db : Database) : PolicyTarget → Prop
  | .folder id => (db.folders.find id).isSome = true
  | .document id => (db.documents.find id).isSome = true

/-- Where the policy of a target may be set, from the nearest on. -/
def PolicyTarget.scope (path : List Uuid) : PolicyTarget → List PolicyTarget
  | .folder _ => path.map .folder
  | .document id => .document id :: path.map .folder

/-- The policy set on one target. -/
def Database.modeOf (db : Database) (target : PolicyTarget) : Except RepositoryError PolicyMode :=
  match db.bindingOf target with
  | none => .ok .inherit
  | some b => db.boundMode b

/-- The EXPLICIT binding that applies. -/
def Database.nearest (db : Database) (scope : List PolicyTarget) : Option Uuid :=
  scope.findSome? db.explicitBinding

def Database.sqlAllows (db : Database) : PolicyTarget → Json → List String → Bool
  | .folder id => db.dmbAllowsFolder id
  | .document id => db.dmbAllowsDocument id

section

variable (h : WellFormed db)
include h

theorem WellFormed.exists_chain (here : db.Has target) :
    ∃ path, db.Chain target path := by
  cases target with
  | folder id => exact h.paths id (up_isSome.trans here)
  | document =>
    obtain ⟨d, found⟩ := Option.isSome_iff_exists.mp here
    obtain ⟨path, p⟩ := h.paths d.folderId (h.homes d (Table.find_iff.mp found).1)
    exact ⟨path, d, found, p⟩

theorem explicitBinding_iff :
    db.explicitBinding target = some policyId ↔
      ∃ b, db.bindingOf target = some b ∧ b.mode = .explicit ∧ b.policyId = policyId := by
  have one : ∀ b ∈ db.bindings, ∀ c ∈ db.bindings,
      decide (b.target = target ∧ b.mode = .explicit) = true →
      decide (c.target = target ∧ c.mode = .explicit) = true → b = c := by
    simp only [decide_eq_true_iff]
    rintro b hb c hc ⟨rfl, -⟩ ⟨same, -⟩
    exact h.bound b hb c hc same.symm
  simp only [Database.explicitBinding, Option.map_eq_some_iff, find?_one_iff one, bindingOf_iff h,
    decide_eq_true_iff, and_assoc]
  rfl

/-- The policy of a target is explicit when it has an EXPLICIT binding. -/
theorem modeOf_ok (target : PolicyTarget) :
    (db.explicitBinding target = none ∧ db.modeOf target = .ok .inherit) ∨
      ∃ policyId grants, db.explicitBinding target = some policyId ∧
        db.readGrants policyId = .ok grants ∧ db.modeOf target = .ok (.explicit grants) := by
  unfold Database.modeOf
  cases found : db.bindingOf target with
  | none =>
    refine .inl ⟨Option.eq_none_iff_forall_ne_some.mpr ?_, rfl⟩
    simp [explicitBinding_iff h, found]
  | some b =>
    cases mode : b.mode with
    | inherit =>
      refine .inl ⟨Option.eq_none_iff_forall_ne_some.mpr ?_, by simp [Database.boundMode, mode]⟩
      simp [explicitBinding_iff h, found, mode]
    | explicit =>
      obtain ⟨grants, read, -⟩ := readGrants_allows h b.policyId
      refine .inr ⟨b.policyId, grants, (explicitBinding_iff h).mpr ⟨b, found, mode, rfl⟩, read, ?_⟩
      simp only [Database.boundMode, mode, read]
      rfl

/-- The nearest explicit policy is the one the applying binding holds. -/
theorem nearestExplicitPolicy_ok (scope : List PolicyTarget) :
    ∃ modes, scope.mapM db.modeOf = .ok modes ∧ ∀ subjects required,
      (∃ effective, nearestExplicitPolicy modes = some effective ∧
          evaluatePolicy subjects effective required = true) ↔
        ∃ policyId, db.nearest scope = some policyId ∧ db.Allows policyId subjects required := by
  induction scope with
  | nil => exact ⟨[], rfl, fun _ _ => by simp [nearestExplicitPolicy, Database.nearest]⟩
  | cons target scope ih =>
    obtain ⟨modes, read, rest⟩ := ih
    obtain ⟨unset, mode⟩ | ⟨policyId, grants, set, granted, mode⟩ := modeOf_ok h target
    · refine ⟨.inherit :: modes, ?_, ?_⟩
      · rw [mapM_cons, mode, read]
        rfl
      · intro subjects required
        have skipped : db.nearest (target :: scope) = db.nearest scope := by
          rw [Database.nearest, findSome?_cons, unset]
          rfl
        rw [skipped]
        exact rest subjects required
    · refine ⟨.explicit grants :: modes, ?_, ?_⟩
      · rw [mapM_cons, mode, read]
        rfl
      · intro subjects required
        have first : db.nearest (target :: scope) = some policyId := by
          rw [Database.nearest, findSome?_cons, set]
        obtain ⟨_, again, meaning⟩ := readGrants_allows h policyId
        cases granted.symm.trans again
        rw [first]
        simp only [nearestExplicitPolicy, find?_cons, PolicyMode.isExplicit, Option.some.injEq,
          exists_eq_left', meaning]

end

/-! ## The evaluators -/

variable {path : List Uuid}

theorem root_mem {folderId : Uuid} (h : WellFormed db) (p : Path db.up folderId path) :
    systemRootFolderId ∈ path := by
  induction p with
  | root top =>
    rw [h.single _ top]
    exact mem_singleton_self _
  | node _ _ ih => exact .tail _ ih

theorem rooted_of_path {folderId : Uuid} (h : WellFormed db) (p : Path db.up folderId path) :
    db.rooted folderId = true := by
  have fits := p.length_le fun l node => mem_folderIds.mpr node
  have size : db.folderIds.length = db.folders.rows.length := length_map _
  rw [Database.rooted, p.ascend_all (by omega)]
  simp [root_mem h p, h.root]

theorem firstBinding_eq :
    db.firstBinding path = db.nearest (path.map .folder) := by
  rw [Database.nearest, findSome?_map]
  rfl

theorem nearest_document {id : Uuid} {scope : List PolicyTarget} :
    db.nearest (.document id :: scope) =
      (db.explicitBinding (.document id) <|> db.nearest scope) := by
  unfold Database.nearest
  rw [findSome?_cons]
  cases db.explicitBinding (.document id) <;> rfl

theorem nearestPolicyId_eq (h : WellFormed db) (chain : db.Chain target path)
    (short : path.length ≤ 1025) :
    db.nearestPolicyId target.resource = db.nearest (target.scope path) := by
  have reach {own : Option Uuid} {folderId : Uuid} (p : Path db.up folderId path) :
      db.nearestFrom own folderId = (own <|> db.nearest (path.map .folder)) := by
    rw [Database.nearestFrom, if_pos (rooted_of_path h p), p.ascend_all short, firstBinding_eq]
  cases target with
  | folder => exact reach chain
  | document id =>
    obtain ⟨d, found, p⟩ := chain
    calc db.nearestOfDocument id
      _ = db.nearestFrom (db.explicitBinding (.document id)) d.folderId := by
        rw [Database.nearestOfDocument, found]
        rfl
      _ = (db.explicitBinding (.document id) <|> db.nearest (path.map .folder)) := reach p
      _ = db.nearest (.document id :: path.map .folder) := nearest_document.symm

variable {actions : List Action}

section

variable (h : WellFormed db)
include h

theorem authorizeOne_iff {resource : ResourceRef} :
    authorizeOne db ctx resource actions = .ok () ↔
      ∃ policyId, db.nearestPolicyId resource = some policyId ∧
        db.Allows policyId ctx.subjects actions := by
  simp only [authorizeOne, except_iffs]
  refine exists_congr fun policyId => and_congr_right fun _ => ?_
  obtain ⟨grants, read, meaning⟩ := readGrants_allows h policyId
  rw [← meaning]
  constructor
  · rintro ⟨_, again, allowed⟩
    cases read.symm.trans again
    exact allowed
  · intro allowed
    exact ⟨grants, read, allowed⟩

theorem dmbAllows_iff {chain : List Uuid} {nearest : Option Uuid}
    (top : systemRootFolderId ∈ chain) :
    db.dmbAllows chain nearest (verifiedSubjectsJson ctx) (actions.map Action.text) = true ↔
      (db.explicitBinding (.folder systemRootFolderId)).isSome = true ∧
      ∃ policyId, nearest = some policyId ∧ db.Allows policyId ctx.subjects actions := by
  unfold Database.dmbAllows Database.Allows
  cases nearest with
  | none => simp
  | some policyId =>
    simp only [top, h.root, length_map, length_pos_iff, Bool.and_eq_true,
      decide_eq_true_eq, all_map, all_eq_true, Option.any_some, Option.isSome_some,
      Function.comp_apply, grantsTo_iff, Option.some.injEq, exists_eq_left', and_true, decide_true]
    tauto

theorem sqlAllows_iff (chain : db.Chain target path) (short : path.length ≤ 1024) :
    db.sqlAllows target (verifiedSubjectsJson ctx) (actions.map Action.text) = true ↔
      (db.explicitBinding (.folder systemRootFolderId)).isSome = true ∧
      ∃ policyId, db.nearest (target.scope path) = some policyId ∧
        db.Allows policyId ctx.subjects actions := by
  cases target with
  | folder id =>
    have p : Path db.up id path := chain
    dsimp only [Database.sqlAllows, Database.dmbAllowsFolder, PolicyTarget.scope]
    rw [p.ascend_all (by omega), dmbAllows_iff h (root_mem h p), firstBinding_eq]
  | document =>
    obtain ⟨d, found, p⟩ := chain
    have whole : named db.up 1023 d.folderId = path := by
      rw [p.named, take_of_length_le short]
    dsimp only [Database.sqlAllows, Database.dmbAllowsDocument, PolicyTarget.scope]
    rw [found]
    dsimp only [Option.elim]
    rw [whole, dmbAllows_iff h (root_mem h p), nearest_document, firstBinding_eq]

end

/-- In every run, for a resource at most 1024 folders deep, the transaction authorizes what the SQL
function allows, and that is what the nearest explicit policy on the path to the root allows, once
the root has one. -/
theorem evaluators_agree {trace : List Call} (run : Reached trace db) (target : PolicyTarget)
    (here : db.Has target) (env : Env) (ctx : VerifiedActorContext)
    (current : ctx.IsCurrent env.clock) (actions : List Action) :
    ∃ path modes, db.Chain target path ∧ systemRootFolderId ∈ path ∧
      (target.scope path).mapM db.modeOf = .ok modes ∧
      (path.length ≤ 1024 →
        (authorizeInTx env db ctx [(target.resource, actions)] = .ok () ↔
          db.sqlAllows target (verifiedSubjectsJson ctx) (actions.map Action.text) = true) ∧
        (authorizeInTx env db ctx [(target.resource, actions)] = .ok () ↔
          (db.explicitBinding (.folder systemRootFolderId)).isSome = true ∧
          ∃ effective, nearestExplicitPolicy modes = some effective ∧
            evaluatePolicy ctx.subjects effective actions = true)) := by
  have h := run.wellFormed
  obtain ⟨path, chain⟩ := h.exists_chain here
  obtain ⟨modes, read, meaning⟩ := nearestExplicitPolicy_ok h (target.scope path)
  have top : systemRootFolderId ∈ path := by
    cases target with
    | folder => exact root_mem h chain
    | document =>
      obtain ⟨d, -, p⟩ := chain
      exact root_mem h p
  refine ⟨path, modes, chain, top, read, fun short => ?_⟩
  rw [sqlAllows_iff h chain short, meaning, ← nearestPolicyId_eq h chain (by omega)]
  simp [authorizeInTx, ensure_bind_iff, authorizeOne_iff h, current]

/-! A folder with a policy of its own, and a folder in it that inherits the policy. -/

def sampleManage (first : UInt8) (command : ManagementCommand) : Call :=
  sampleCall first (.management sampleActor command)

def sampleOuter : Uuid := sampleUuid 101

def sampleInner : Uuid := sampleUuid 102

/-- The policy of the outer folder allows to read and to administer, but not to write. -/
def sampleTrace : List Call :=
  [sampleManage 40 (.createFolder (sampleUuid 41) sampleInner sampleOuter 0 "inner" "added"),
    sampleManage 30 (.setAccessPolicy (sampleUuid 31) (.folder sampleOuter) 0
      (.explicit [⟨sampleSubject, {.read, .administer}, by decide⟩]) "restricted"),
    sampleManage 20 (.createFolder (sampleUuid 21) sampleOuter systemRootFolderId 0 "outer"
      "added"),
    sampleInitialize]

def sampleAllows (db : Database) (action : Action) : Bool :=
  (authorizeInTx (sampleEnv 0) db sampleActor [(.folder sampleInner, [action])]).isOk

theorem sampleTrace_reached : ∃ db, Reached sampleTrace db ∧ db.Has (.folder sampleInner) ∧
    sampleAllows db .read = true ∧ sampleAllows db .write = false ∧
    db.bindings.rows.map (·.target) = [.folder systemRootFolderId, .folder sampleOuter] := by
  have done : (Run.replay (fun _ => commit) .migrated sampleTrace).toOption.any (fun db =>
      decide ((db.folders.find sampleInner).isSome = true ∧ sampleAllows db .read = true ∧
        sampleAllows db .write = false ∧
        db.bindings.rows.map (·.target) = [.folder systemRootFolderId, .folder sampleOuter])) =
      true := by
    decide +kernel
  obtain ⟨db, committed, facts⟩ := any_exists done
  have facts := of_decide_eq_true facts
  exact ⟨db, Run.of_replay (fun _ _ _ _ taken => taken) (toOption_some committed), facts⟩

theorem evaluators_agree_on_inner : ∃ db, Reached sampleTrace db ∧
    sampleAllows db .read = true ∧ sampleAllows db .write = false ∧
    ∃ path modes, db.Chain (.folder sampleInner) path ∧ systemRootFolderId ∈ path ∧
      ((PolicyTarget.folder sampleInner).scope path).mapM db.modeOf = .ok modes ∧
      (path.length ≤ 1024 →
        (authorizeInTx (sampleEnv 0) db sampleActor [(.folder sampleInner, [.read])] = .ok () ↔
          db.sqlAllows (.folder sampleInner) (verifiedSubjectsJson sampleActor) ["read"] = true) ∧
        (authorizeInTx (sampleEnv 0) db sampleActor [(.folder sampleInner, [.read])] = .ok () ↔
          (db.explicitBinding (.folder systemRootFolderId)).isSome = true ∧
          ∃ effective, nearestExplicitPolicy modes = some effective ∧
            evaluatePolicy sampleActor.subjects effective [.read] = true)) := by
  obtain ⟨db, run, here, read, write, -⟩ := sampleTrace_reached
  exact ⟨db, run, read, write, evaluators_agree run (.folder sampleInner) here (sampleEnv 0)
    sampleActor (by decide) [.read]⟩

/-- In every database reached, a document is in a folder, a target has one policy, and the grants of
every policy can be read and allow what its rows say. -/
theorem policies_stay_readable {trace : List Call} (run : Reached trace db) :
    (∀ d ∈ db.documents, (db.folders.find d.folderId).isSome = true) ∧
    (∀ b ∈ db.bindings, ∀ c ∈ db.bindings, b.target = c.target → b = c) ∧
    ∀ policyId, ∃ grants, db.readGrants policyId = .ok grants ∧
      ∀ subjects required, evaluatePolicy subjects (.explicit grants) required = true ↔
        db.Allows policyId subjects required := by
  have h := Reached.wellFormed run
  refine ⟨fun d hd => ?_, h.bound, readGrants_allows h⟩
  rw [← up_isSome]
  exact h.homes d hd

theorem policies_stay_readable_inner : ∃ db, Reached sampleTrace db ∧
    db.bindings.rows.map (·.target) = [.folder systemRootFolderId, .folder sampleOuter] ∧
    ∀ policyId, ∃ grants, db.readGrants policyId = .ok grants := by
  obtain ⟨db, run, -, -, -, targets⟩ := sampleTrace_reached
  refine ⟨db, run, targets, fun policyId => ?_⟩
  obtain ⟨grants, read, -⟩ := (policies_stay_readable run).2.2 policyId
  exact ⟨grants, read⟩

end KnowledgePlatform.Documents
