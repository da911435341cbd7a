import KnowledgePlatform.Lib.Matching
import KnowledgePlatform.Lib.Run
import KnowledgePlatform.Work.Organization

/-! Delegation never amplifies authority, over every run of the policy and at every instant. -/

namespace KnowledgePlatform.Work.OrganizationPolicy

open List

variable {time : TimeText} {p q : OrganizationPolicy} {actor : VerifiedActor} {now : Instant}

/-! ## Windows -/

/-- The window of a start and an end holds an instant. -/
def Holds (time : TimeText) (starts : String) (ends : Option String) (now : Instant) : Prop :=
  (∃ s, time.parse starts = some s ∧ s ≤ now) ∧ ∀ text, ends = some text →
    ∃ e, time.parse text = some e ∧ now < e

variable {value : RoleAssignment}

theorem assignmentEffective_iff :
    assignmentEffective time p value now = true ↔ value.revokedAt = none ∧
      Holds time value.validFrom value.validUntil now ∧ (p.role value.roleId).isSome = true ∧
      (p.unit value.unitId).isSome = true := by
  have ends : endsAfter time value.validUntil now = true ↔ ∀ text, value.validUntil = some text →
      ∃ e, time.parse text = some e ∧ now < e := by
    cases value.validUntil with
    | none => simp [endsAfter]
    | some => simp [endsAfter, Option.any_eq_true]
  unfold assignmentEffective Holds
  rw [← ends]
  cases time.parse value.validFrom with
  | none => simp
  | some =>
    simp only [decide_eq_true_eq, Option.some.injEq, exists_eq_left']
    tauto

theorem delegationEffective_iff {value : Delegation} :
    delegationEffective time p value now = true ↔ value.revokedAt = none ∧
      Holds time value.validFrom (some value.validUntil) now ∧
      ∃ source, p.assignment value.sourceAssignmentId = some source ∧
        source.principal = value.delegator ∧ assignmentEffective time p source now = true := by
  unfold delegationEffective Holds
  cases time.parse value.validFrom with
  | none => simp
  | some =>
    cases ends : time.parse value.validUntil with
    | none => simp [ends]
    | some =>
      simp only [decide_eq_true_eq, Option.some.injEq, exists_eq_left', forall_eq', ends,
        Option.any_eq_true, Bool.and_eq_true]
      tauto

variable {starts : String} {ends : Option String} {s : Instant} {e : Option Instant}

/-- Two windows that hold one instant overlap. -/
theorem overlap_of_holds (first : Holds time starts ends now) (below : s ≤ now)
    (above : ∀ x, e = some x → now < x) :
    intervalsOverlap (time.parse starts) (storedEnd time ends) s e = true := by
  obtain ⟨⟨f, parsed, lower⟩, upper⟩ := first
  have second : (e.all fun x => decide (f < x)) = true := by
    cases e with
    | none => rfl
    | some x => simpa using lt_of_le_of_lt lower (above x rfl)
  rw [parsed]
  cases ends with
  | none => simpa [intervalsOverlap, storedEnd] using second
  | some text =>
    obtain ⟨x, read, later⟩ := upper text rfl
    simp only [intervalsOverlap, storedEnd, read, Option.map_some, second, Bool.and_true,
      Option.all_some, decide_eq_true_eq]
    exact lt_of_le_of_lt below later

/-! ## What a command changes -/

/-- The change an accepted command makes, with the checks later proofs need. -/
inductive Change (time : TimeText) (actor : VerifiedActor) (p q : OrganizationPolicy) : Prop
  | assigned (new : RoleAssignment) (starts : Instant) (ends : Option Instant)
    (grows : q.roleAssignments = p.roleAssignments ++ [new]) (same : q.delegations = p.delegations)
    (other : new.principal ≠ actor) (startText : time.parse new.validFrom = some starts)
    (endText : new.validUntil.mapM time.parse = some ends)
    (alone : ∀ value ∈ p.roleAssignments, value.principal = new.principal →
      value.roleId = new.roleId → value.unitId = new.unitId → value.revokedAt = none →
      intervalsOverlap (time.parse value.validFrom) (storedEnd time value.validUntil) starts ends =
        false)
  | unassigned (id : Uuid) (revoke : RoleAssignment → RoleAssignment)
    (changes : q.roleAssignments = updateFirst (fun r => r.id = id) revoke p.roleAssignments)
    (same : q.delegations = p.delegations)
    (revokes : ∀ r, ∃ instant author why, revoke r =
      { r with revokedAt := some instant, revokedBy := some author, revokeReason := some why })
  | delegated (new : Delegation) (source : RoleAssignment) (instant starts ends : Instant)
    (grows : q.delegations = p.delegations ++ [new]) (same : q.roleAssignments = p.roleAssignments)
    (other : new.recipient ≠ actor)
    (held : p.assignment new.sourceAssignmentId = some source)
    (effective : assignmentEffective time p source instant = true) (later : instant ≤ starts)
    (startText : time.parse new.validFrom = some starts)
    (endText : time.parse new.validUntil = some ends)
    (bounded : ∀ e, source.validUntil.bind time.parse = some e → ends ≤ e)
    (alone : ∀ value ∈ p.delegations, value.sourceAssignmentId = new.sourceAssignmentId →
      value.recipient = new.recipient → value.revokedAt = none →
      intervalsOverlap (time.parse value.validFrom) ((time.parse value.validUntil).map some) starts
        (some ends) = false)
  | undelegated (id : Uuid) (revoke : Delegation → Delegation)
    (changes : q.delegations = updateFirst (fun r => r.id = id) revoke p.delegations)
    (same : q.roleAssignments = p.roleAssignments)
    (revokes : ∀ r, ∃ instant author why, revoke r =
      { r with revokedAt := some instant, revokedBy := some author, revokeReason := some why })

structure Accepted (time : TimeText) (actor : VerifiedActor) (p q : OrganizationPolicy) : Prop where
  before : validateIntegrity time p = .ok ()
  after : validateIntegrity time q = .ok ()
  units : q.units = p.units
  roles : q.roles = p.roles
  change : Change time actor p q

variable {id : Uuid}

theorem holds_own (h : holds time p actor id now = true) :
    ∃ source, p.assignment id = some source ∧ source.principal = actor := by
  obtain ⟨r, found, kind⟩ := any_exists h
  unfold responsibility at found
  cases here : p.assignment id with
  | some source =>
    rw [here] at found
    dsimp only at found
    split at found
    next own =>
      exact ⟨source, rfl, own.1⟩
    · cases found
  | none =>
    rw [here] at found
    dsimp only at found
    -- What is held through a delegation is of the other kind.
    cases there : p.delegation id with
    | none =>
      rw [there] at found
      cases found
    | some =>
      rw [there] at found
      dsimp only at found
      split at found
      · simp only [delegationResponsibility, bind, Option.bind_eq_some_iff, pure,
          Option.some.injEq] at found
        obtain ⟨_, -, _, -, rfl⟩ := found
        simp at kind
      · cases found

theorem requestedStart_le {value : Option String} {starts : Instant}
    (h : requestedStart time value now = .ok starts) : now ≤ starts := by
  cases value with
  | none =>
    cases h
    exact le_refl now
  | some =>
    simp only [requestedStart, except_iffs] at h
    obtain ⟨_, -, -, rfl⟩ := h
    exact le_max_right _ _

theorem formatInstant_parse {value : Instant} {text : String}
    (h : formatInstant time value = .ok text) : time.parse text = some value :=
  time.parse_format (okOr_iff.mp h)

theorem apply_accepted {newId : Uuid} {command : PolicyCommand} {now : String}
    {result : MutationResult} (h : apply time p newId actor command now = .ok (q, result)) :
    Accepted time actor p q := by
  simp only [apply, except_iffs] at h
  obtain ⟨before, -, instant, -, authorized, -, revision, -, ⟨done, result'⟩, applied,
    after, same⟩ := h
  cases same
  suffices change : q.units = p.units ∧ q.roles = p.roles ∧ Change time actor p q from
    ⟨before, after, change.1, change.2.1, change.2.2⟩
  cases command with
  | createRoleAssignment =>
    simp only [authorizeCommand, except_iffs] at authorized
    obtain ⟨_, -, other⟩ := authorized
    simp only [applyValidated, createRoleAssignment, except_iffs, Prod.mk.injEq] at applied
    obtain ⟨-, unit, -, -, starts, -, ends, -, -, alone, startText, written, endText,
      writtenEnd, rfl, -⟩ := applied
    refine ⟨rfl, rfl, .assigned _ starts ends rfl rfl other (formatInstant_parse written)
      ?_ ?_⟩
    · cases ends with
      | none =>
        cases writtenEnd
        rfl
      | some e =>
        obtain ⟨text, written, ended⟩ :=
          except_bind_ok (x := formatInstant time e) (f := fun t => .ok (some t)) writtenEnd
        cases ended
        simp [formatInstant_parse written]
    intro value hvalue samePrincipal sameRole sameUnit unrevoked
    by_contra overlap
    exact alone ⟨value, hvalue, samePrincipal, sameRole, sameUnit, unrevoked,
      Bool.eq_true_of_not_eq_false overlap⟩
  | revokeRoleAssignment =>
    simp only [applyValidated, revokeRoleAssignment, except_iffs, Prod.mk.injEq] at applied
    obtain ⟨-, -, value, -, -, rfl, -⟩ := applied
    exact ⟨rfl, rfl, .unassigned _ _ rfl rfl fun r => ⟨now, actor, _, rfl⟩⟩
  | createDelegation =>
    simp only [authorizeCommand, ensure_iff] at authorized
    obtain ⟨acting, acts⟩ := authorized
    obtain ⟨source', held', mine⟩ := acting ▸ holds_own acts
    simp only [applyValidated, createDelegation, except_iffs, Prod.mk.injEq] at applied
    obtain ⟨-, source, held, ⟨effective, others⟩, role, -, -, starts, started, ends, -,
      ⟨-, -, bounded, -⟩, alone, startText, written, endText, writtenEnd, rfl, -⟩ := applied
    obtain rfl : source = source' := Option.some.inj (held.symm.trans held')
    refine ⟨rfl, rfl, .delegated _ source instant starts ends rfl rfl (mine ▸ others.symm) held
      effective (requestedStart_le started) (formatInstant_parse written)
      (formatInstant_parse writtenEnd) ?_ ?_⟩
    · intro e he
      simpa [he] using bounded
    · intro value hvalue sameSource sameRecipient unrevoked
      by_contra overlap
      exact alone ⟨value, hvalue, sameSource, sameRecipient, unrevoked,
        Bool.eq_true_of_not_eq_false overlap⟩
  | revokeDelegation =>
    simp only [applyValidated, revokeDelegation, except_iffs, Prod.mk.injEq] at applied
    obtain ⟨-, value, -, -, rfl, -⟩ := applied
    exact ⟨rfl, rfl, .undelegated _ _ rfl rfl fun r => ⟨now, actor, _, rfl⟩⟩

/-! ## The invariant -/

theorem validateIntegrity_ok (h : validateIntegrity time p = .ok ()) :
    (p.roleAssignments.map (·.id)).Nodup ∧ (p.delegations.map (·.id)).Nodup ∧
      ∀ d ∈ p.delegations, checkDelegation time p d = .ok () := by
  simp only [validateIntegrity, except_iffs] at h
  obtain ⟨-, distinct, -, -, delegations⟩ := h
  obtain ⟨front, back, -⟩ := nodup_append.mp distinct
  obtain ⟨-, middle, -⟩ := nodup_append.mp front
  exact ⟨middle, back, forM_iff.mp delegations⟩

variable {d : Delegation}

/-- What a checked delegation says. -/
theorem checkDelegation_ok (h : checkDelegation time p d = .ok ()) :
    ∃ source role, p.assignment d.sourceAssignmentId = some source ∧
      p.role source.roleId = some role ∧ source.principal = d.delegator ∧
      ∀ action ∈ d.actions, action.delegable = true ∧ action ∈ role.actions := by
  simp only [checkDelegation, except_iffs] at h
  obtain ⟨_, -, _, -, source, held, role, found, -, principal, -, -, actions, -⟩ := h
  refine ⟨source, role, held, found, principal, ?_⟩
  intro action haction
  simpa using all_eq_true.mp actions action haction

/-- The window of a delegation lies in the window of its source. -/
def Inside (time : TimeText) (source : RoleAssignment) (d : Delegation) : Prop :=
  ∃ starts ends s, time.parse d.validFrom = some starts ∧ time.parse d.validUntil = some ends ∧
    time.parse source.validFrom = some s ∧ s ≤ starts ∧
    ∀ text, source.validUntil = some text → ∃ e, time.parse text = some e ∧ ends ≤ e

theorem holds_bounds (startText : time.parse starts = some s)
    (endText : ends.mapM time.parse = some e) (h : Holds time starts ends now) :
    s ≤ now ∧ ∀ x, e = some x → now < x := by
  obtain ⟨⟨s', parsed, lower⟩, upper⟩ := h
  obtain rfl : s = s' := Option.some.inj (startText.symm.trans parsed)
  refine ⟨lower, ?_⟩
  rintro x rfl
  cases ends with
  | none => cases endText
  | some text =>
    obtain ⟨y, read, later⟩ := upper text rfl
    simp [read] at endText
    exact endText ▸ later

/-- An element with a revocation is no element without one. -/
theorem mem_of_unrevoked {α : Type} {l : List α} {p : α → Bool} {f : α → α}
    (revoked : α → Option String) (revokes : ∀ r, revoked (f r) ≠ none) {a : α}
    (h : a ∈ updateFirst p f l) (unrevoked : revoked a = none) : a ∈ l := by
  obtain h | ⟨r, -, rfl⟩ := mem_updateFirst h
  · exact h
  · exact absurd unrevoked (revokes r)

section

variable {α κ : Type} {key : α → κ} {starts : α → String} {ends revoked : α → Option String}
  {ident : α → Uuid} {l : List α}

/-- Of the records with one key, those not revoked that hold at one instant are one. -/
def Single (time : TimeText) (key : α → κ) (starts : α → String) (ends revoked : α → Option String)
    (ident : α → Uuid) (l : List α) : Prop :=
  ∀ a ∈ l, ∀ b ∈ l, key a = key b → revoked a = none → revoked b = none → ∀ now,
    Holds time (starts a) (ends a) now → Holds time (starts b) (ends b) now → ident a = ident b

/-- A new record is refused if it overlaps one that is not revoked. -/
theorem Single.append (h : Single time key starts ends revoked ident l) {new : α}
    (startText : time.parse (starts new) = some s) (endText : (ends new).mapM time.parse = some e)
    (alone : ∀ value ∈ l, key value = key new → revoked value = none →
      intervalsOverlap (time.parse (starts value)) (storedEnd time (ends value)) s e = false) :
    Single time key starts ends revoked ident (l ++ [new]) := by
  have apart {value : α} (hvalue : value ∈ l) (same : key value = key new)
      (live : revoked value = none) {now : Instant}
      (first : Holds time (starts value) (ends value) now)
      (second : Holds time (starts new) (ends new) now) : False := by
    obtain ⟨below, above⟩ := holds_bounds startText endText second
    have overlap := overlap_of_holds first below above
    rw [alone value hvalue same live] at overlap
    cases overlap
  intro a ha b hb same liveA liveB now holdsA holdsB
  rw [mem_append, mem_singleton] at ha hb
  obtain ha | rfl := ha
  · obtain hb | rfl := hb
    · exact h a ha b hb same liveA liveB now holdsA holdsB
    · exact (apart ha same liveA holdsA holdsB).elim
  · obtain hb | rfl := hb
    · exact (apart hb same.symm liveB holdsB holdsA).elim
    · rfl

/-- Of records with distinct identifiers, one at most has the key and holds. -/
theorem Single.filter_length_le_one (h : Single time key starts ends revoked ident l)
    (distinct : (l.map ident).Nodup) (k : κ) (now : Instant) {test : α → Bool}
    (effective : ∀ a, test a = true → key a = k ∧ revoked a = none ∧
      Holds time (starts a) (ends a) now) : (l.filter test).length ≤ 1 := by
  refine length_filter_le_one (.of_map _ distinct) fun a ha b hb first second => ?_
  obtain ⟨keyA, liveA, holdsA⟩ := effective a first
  obtain ⟨keyB, liveB, holdsB⟩ := effective b second
  exact inj_on_of_nodup_map distinct ha hb
    (h a ha b hb (keyA.trans keyB.symm) liveA liveB now holdsA holdsB)

theorem Single.revoke (h : Single time key starts ends revoked ident l) {p : α → Bool} {f : α → α}
    (revokes : ∀ r, revoked (f r) ≠ none) :
    Single time key starts ends revoked ident (updateFirst p f l) := by
  intro a ha b hb same liveA liveB
  exact h a (mem_of_unrevoked _ revokes ha liveA) b (mem_of_unrevoked _ revokes hb liveB) same liveA
    liveB

end

abbrev OneSeat (time : TimeText) : List RoleAssignment → Prop :=
  Single time (fun a => (a.principal, a.roleId, a.unitId)) (·.validFrom) (·.validUntil)
    (·.revokedAt) (·.id)

abbrev OneGrant (time : TimeText) : List Delegation → Prop :=
  Single time (fun d => (d.sourceAssignmentId, d.recipient)) (·.validFrom)
    (fun d => some d.validUntil) (·.revokedAt) (·.id)

structure Sound (time : TimeText) (p : OrganizationPolicy) : Prop where
  distinctAssignments : (p.roleAssignments.map (·.id)).Nodup
  distinctDelegations : (p.delegations.map (·.id)).Nodup
  checked : ∀ d ∈ p.delegations, checkDelegation time p d = .ok ()
  seats : OneSeat time p.roleAssignments
  grants : OneGrant time p.delegations
  inside : ∀ d ∈ p.delegations, ∀ source ∈ p.roleAssignments, source.id = d.sourceAssignmentId →
    Inside time source d

theorem sound_synthetic : Sound time synthetic where
  distinctAssignments := by decide +kernel
  distinctDelegations := nodup_nil
  checked := by simp [synthetic]
  seats := by
    have different : ∀ a ∈ synthetic.roleAssignments, ∀ b ∈ synthetic.roleAssignments,
        (a.principal, a.roleId, a.unitId) = (b.principal, b.roleId, b.unitId) → a.id = b.id := by
      decide +kernel
    intro a ha b hb same _ _ _ _ _
    exact different a ha b hb same
  grants := by simp [synthetic, Single]
  inside := by simp [synthetic]

theorem OneSeat.step (h : OneSeat time p.roleAssignments) (step : Accepted time actor p q) :
    OneSeat time q.roleAssignments := by
  cases step.change with
  | assigned new _ _ grows _ _ startText endText alone =>
    rw [grows]
    refine h.append startText endText ?_
    intro value hvalue same
    simp only [Prod.mk.injEq] at same
    exact alone value hvalue same.1 same.2.1 same.2.2
  | unassigned _ _ changes _ revokes =>
    rw [changes]
    refine h.revoke fun r => ?_
    obtain ⟨_, _, _, shape⟩ := revokes r
    simp [shape]
  | delegated _ _ _ _ _ _ same | undelegated _ _ _ same => exact same ▸ h

theorem OneGrant.step (h : OneGrant time p.delegations) (step : Accepted time actor p q) :
    OneGrant time q.delegations := by
  cases step.change with
  | assigned _ _ _ _ same | unassigned _ _ _ same => exact same ▸ h
  | delegated new _ _ _ ends grows _ _ _ _ _ startText endText _ alone =>
    have ends : (some new.validUntil).mapM time.parse = some (some ends) := by
      simp [endText]
    rw [grows]
    refine h.append startText ends ?_
    intro value hvalue same
    simp only [Prod.mk.injEq] at same
    exact alone value hvalue same.1 same.2
  | undelegated _ _ changes _ revokes =>
    rw [changes]
    refine h.revoke fun r => ?_
    obtain ⟨_, _, _, shape⟩ := revokes r
    simp [shape]

theorem Sound.inside_step (h : Sound time p) (step : Accepted time actor p q) :
    ∀ d ∈ q.delegations, ∀ source ∈ q.roleAssignments, source.id = d.sourceAssignmentId →
      Inside time source d := by
  intro d hd source hsource same
  cases step.change with
  | assigned new _ _ grows kept =>
    rw [kept] at hd
    rw [grows, mem_append, mem_singleton] at hsource
    obtain hsource | rfl := hsource
    · exact h.inside d hd source hsource same
    · -- The source was there before, so the new assignment would share its identifier.
      obtain ⟨old, _, held, -⟩ := checkDelegation_ok (h.checked d hd)
      obtain ⟨hold, oldId⟩ := (find?_key_iff h.distinctAssignments).mp held
      obtain ⟨distinct, -⟩ := validateIntegrity_ok step.after
      rw [grows, map_append, nodup_append] at distinct
      refine absurd (oldId.trans same.symm) ?_
      exact distinct.2.2 _ (mem_map_of_mem hold) _ mem_cons_self
  | unassigned _ _ changes kept revokes =>
    rw [kept] at hd
    rw [changes] at hsource
    obtain hsource | ⟨r, found, rfl⟩ := mem_updateFirst hsource
    · exact h.inside d hd source hsource same
    · obtain ⟨_, _, _, shape⟩ := revokes r
      rw [shape] at same ⊢
      exact h.inside d hd r (mem_of_find?_eq_some found) same
  | delegated new holder instant starts ends grows kept other held effective later startText endText
      bounded alone =>
    rw [kept] at hsource
    rw [grows, mem_append, mem_singleton] at hd
    obtain hd | rfl := hd
    · exact h.inside d hd source hsource same
    · have found := (find?_key_iff h.distinctAssignments).mpr ⟨hsource, same⟩
      obtain rfl : holder = source := Option.some.inj (held.symm.trans found)
      obtain ⟨-, ⟨⟨s, parsed, lower⟩, upper⟩, -⟩ := assignmentEffective_iff.mp effective
      refine ⟨starts, ends, s, startText, endText, parsed, le_trans lower later, ?_⟩
      intro text htext
      obtain ⟨e, read, -⟩ := upper text htext
      exact ⟨e, read, bounded e (by rw [htext]; exact read)⟩
  | undelegated _ _ changes kept revokes =>
    rw [kept] at hsource
    rw [changes] at hd
    obtain hd | ⟨r, found, rfl⟩ := mem_updateFirst hd
    · exact h.inside d hd source hsource same
    · obtain ⟨_, _, _, shape⟩ := revokes r
      rw [shape] at same ⊢
      exact h.inside r (mem_of_find?_eq_some found) source hsource same

theorem Sound.step (h : Sound time p) (step : Accepted time actor p q) : Sound time q := by
  obtain ⟨distinctAssignments, distinctDelegations, checked⟩ := validateIntegrity_ok step.after
  exact ⟨distinctAssignments, distinctDelegations, checked, h.seats.step step, h.grants.step step,
    h.inside_step step⟩

/-! ## Runs -/

/-- A command of `actor` was accepted. -/
def Step (time : TimeText) (p : OrganizationPolicy) (actor : VerifiedActor)
    (q : OrganizationPolicy) :
    Prop :=
  ∃ newId command now result, apply time p newId actor command now = .ok (q, result)

/-- The policies that accepted commands lead to. -/
def Reached (time : TimeText) (p : OrganizationPolicy) : Prop :=
  ∃ actors, Run (Step time) synthetic actors p

theorem Step.accepted (h : Step time p actor q) : Accepted time actor p q := by
  obtain ⟨_, _, _, _, h⟩ := h
  exact apply_accepted h

theorem Reached.sound (h : Reached time p) : Sound time p := by
  obtain ⟨actors, run⟩ := h
  exact run.invariant (P := fun _ p => Sound time p) sound_synthetic
    fun _ _ _ _ sound taken => sound.step taken.accepted

/-! ## What a step does to what its actor holds -/

/-- What a change does to one list: nothing, a new record, or the revocation of one. -/
inductive Edited {α : Type} (Revokes : α → α → Prop) (New : α → Prop) (l : List α) : List α → Prop
  | kept : Edited Revokes New l l
  | added (a : α) (new : New a) : Edited Revokes New l (l ++ [a])
  | revoked {p : α → Bool} {f : α → α} (revokes : ∀ a, Revokes a (f a)) :
    Edited Revokes New l (updateFirst p f l)

section

variable {α : Type} {Revokes : α → α → Prop} {New : α → Prop} {l m : List α} {a : α}

theorem Edited.stays (h : Edited Revokes New l m) (there : a ∈ l) :
    ∃ b ∈ m, b = a ∨ Revokes a b := by
  cases h with
  | kept => exact ⟨a, there, .inl rfl⟩
  | added => exact ⟨a, mem_append_left _ there, .inl rfl⟩
  | revoked revokes =>
    obtain ⟨b, among, shape⟩ := exists_right updateFirst_related there
    refine ⟨b, among, shape.imp_right ?_⟩
    rintro ⟨-, rfl⟩
    exact revokes a

theorem Edited.mem (h : Edited Revokes New l m) (here : a ∈ m) (live : ∀ b, ¬ Revokes b a)
    (old : ¬ New a) : a ∈ l := by
  cases h with
  | kept => exact here
  | added b new =>
    obtain here | here := mem_append.mp here
    · exact here
    · exact absurd (mem_singleton.mp here ▸ new) old
  | revoked revokes =>
    obtain here | ⟨b, -, rfl⟩ := mem_updateFirst here
    · exact here
    · exact absurd (revokes b) (live b)

end

theorem Change.assignments (h : Change time actor p q) :
    Edited (fun r s : RoleAssignment => ∃ instant author why, s =
        { r with revokedAt := some instant, revokedBy := some author, revokeReason := some why })
      (fun new => new.principal ≠ actor) p.roleAssignments q.roleAssignments := by
  cases h with
  | assigned new _ _ grows _ other => exact grows ▸ .added new other
  | unassigned _ _ changes _ revokes => exact changes ▸ .revoked revokes
  | delegated _ _ _ _ _ _ same | undelegated _ _ _ same => exact same ▸ .kept

theorem Change.grants (h : Change time actor p q) :
    Edited (fun r s : Delegation => ∃ instant author why, s =
        { r with revokedAt := some instant, revokedBy := some author, revokeReason := some why })
      (fun new => new.recipient ≠ actor) p.delegations q.delegations := by
  cases h with
  | delegated new _ _ _ _ grows _ other => exact grows ▸ .added new other
  | undelegated _ _ changes _ revokes => exact changes ▸ .revoked revokes
  | assigned _ _ _ _ same | unassigned _ _ _ same => exact same ▸ .kept

section

variable (step : Accepted time actor p q)
include step

theorem Accepted.role_eq (id : Uuid) : q.role id = p.role id := by
  rw [role, role, step.roles]

theorem Accepted.unit_eq (id : Uuid) : q.unit id = p.unit id := by
  rw [unit, unit, step.units]

theorem Accepted.assignmentEffective_eq (value : RoleAssignment) :
    assignmentEffective time q value now = assignmentEffective time p value now := by
  simp only [assignmentEffective, step.role_eq, step.unit_eq]

theorem Accepted.assignmentResponsibility_eq (value : RoleAssignment) :
    q.assignmentResponsibility value = p.assignmentResponsibility value := by
  simp only [assignmentResponsibility, step.role_eq, step.unit_eq]

/-- The source of an earlier delegation, if it is still in effect, is the same record. -/
theorem Accepted.source_kept {source : RoleAssignment} (hd : d ∈ p.delegations)
    (found : q.assignment d.sourceAssignmentId = some source) (live : source.revokedAt = none) :
    p.assignment d.sourceAssignmentId = some source := by
  obtain ⟨distinct, -, checked⟩ := validateIntegrity_ok step.before
  cases step.change with
  | assigned _ _ _ grows =>
    obtain ⟨old, _, held, -⟩ := checkDelegation_ok (checked d hd)
    unfold assignment at found held
    rw [grows, find?_append, held, Option.some_or] at found
    exact held.trans found
  | unassigned _ _ changes _ revokes =>
    have hsource := mem_of_find?_eq_some found
    have sameId : source.id = d.sourceAssignmentId := by simpa using find?_some found
    rw [changes] at hsource
    refine (find?_key_iff distinct).mpr ⟨?_, sameId⟩
    refine mem_of_unrevoked RoleAssignment.revokedAt ?_ hsource live
    intro r
    obtain ⟨_, _, _, shape⟩ := revokes r
    simp [shape]
  | delegated _ _ _ _ _ _ same | undelegated _ _ _ same =>
    unfold assignment at found ⊢
    exact same ▸ found

end

variable {r : Responsibility}

theorem Accepted.responsibilities_shrink (step : Accepted time actor p q)
    (h : r ∈ responsibilities time q actor now) : r ∈ responsibilities time p actor now := by
  simp only [responsibilities, mem_append, mem_filterMap, mem_filter, Bool.and_eq_true,
    decide_eq_true_eq, and_assoc] at h ⊢
  obtain ⟨value, hvalue, own, effective, described⟩ | ⟨value, hvalue, own, effective, described⟩ :=
    h
  · left
    obtain ⟨live, -⟩ := assignmentEffective_iff.mp effective
    have before := step.change.assignments.mem hvalue
      (by rintro _ ⟨_, _, _, rfl⟩; cases live) (not_not.mpr own)
    exact ⟨value, before, own, step.assignmentEffective_eq value ▸ effective,
      step.assignmentResponsibility_eq value ▸ described⟩
  · right
    obtain ⟨live, window, source, found, delegator, held⟩ := delegationEffective_iff.mp effective
    have before := step.change.grants.mem hvalue
      (by rintro _ ⟨_, _, _, rfl⟩; cases live) (not_not.mpr own)
    obtain ⟨sourceLive, -⟩ := assignmentEffective_iff.mp held
    have same := step.source_kept before found sourceLive
    rw [step.assignmentEffective_eq] at held
    refine ⟨value, before, own, delegationEffective_iff.mpr ⟨live, window, source, same, delegator,
      held⟩, ?_⟩
    simpa only [delegationResponsibility, found, same,
      step.assignmentResponsibility_eq] using described

/-! ## Delegation never amplifies -/

/-- What an effective delegation may give. -/
structure Narrows (time : TimeText) (p : OrganizationPolicy) (d : Delegation) (now : Instant) :
    Prop where
  source : ∃ source role granted, p.assignment d.sourceAssignmentId = some source ∧
    p.role source.roleId = some role ∧ p.delegationResponsibility d = some granted ∧
    source.principal = d.delegator ∧ assignmentEffective time p source now = true ∧
    Inside time source d ∧ d.actions ⊆ role.actions ∧ granted.actions ⊆ role.actions ∧
    granted.actions ⊆ d.actions
  noManagement : .organizationManage ∉ d.actions
  noAssigning : .workAssign ∉ d.actions

/-- The bounds on what is in effect at one instant. -/
structure Restrained (time : TimeText) (p : OrganizationPolicy) (now : Instant) : Prop where
  narrows : ∀ d ∈ p.delegations, delegationEffective time p d now = true → Narrows time p d now
  oneSeat : ∀ principal roleId unitId, (p.roleAssignments.filter fun a =>
    a.principal = principal ∧ a.roleId = roleId ∧ a.unitId = unitId ∧
      assignmentEffective time p a now = true).length ≤ 1
  oneGrant : ∀ sourceId recipient, (p.delegations.filter fun d =>
    d.sourceAssignmentId = sourceId ∧ d.recipient = recipient ∧
      delegationEffective time p d now = true).length ≤ 1

theorem Sound.narrows (h : Sound time p) (hd : d ∈ p.delegations)
    (effective : delegationEffective time p d now = true) : Narrows time p d now := by
  obtain ⟨source, role, held, found, principal, actions⟩ := checkDelegation_ok (h.checked d hd)
  obtain ⟨-, -, source', held', -, active⟩ := delegationEffective_iff.mp effective
  obtain rfl : source = source' := Option.some.inj (held.symm.trans held')
  obtain ⟨hsource, sameId⟩ := (find?_key_iff h.distinctAssignments).mp held
  obtain ⟨-, -, -, unitKnown⟩ := assignmentEffective_iff.mp active
  obtain ⟨unit, unitFound⟩ := Option.isSome_iff_exists.mp unitKnown
  have granted : ∃ granted, p.delegationResponsibility d = some granted ∧
      granted.actions = role.actions.filter d.actions.contains := by
    simp [delegationResponsibility, assignmentResponsibility, held, found, unitFound]
  obtain ⟨granted, described, only⟩ := granted
  refine ⟨⟨source, role, granted, held, found, described, principal, active,
    h.inside d hd source hsource sameId, ?_, ?_, ?_⟩, ?_, ?_⟩
  · exact fun action haction => (actions action haction).2
  · intro action haction
    rw [only] at haction
    exact (mem_filter.mp haction).1
  · intro action haction
    rw [only] at haction
    simpa using (mem_filter.mp haction).2
  · intro managing
    obtain ⟨delegable, -⟩ := actions _ managing
    cases delegable
  · intro assigning
    obtain ⟨delegable, -⟩ := actions _ assigning
    cases delegable

theorem Sound.restrained (h : Sound time p) (now : Instant) : Restrained time p now where
  narrows := fun _ hd effective => h.narrows hd effective
  oneSeat := by
    intro principal roleId unitId
    refine h.seats.filter_length_le_one h.distinctAssignments (principal, roleId, unitId) now ?_
    intro a accepted
    obtain ⟨rfl, rfl, rfl, effective⟩ := of_decide_eq_true accepted
    obtain ⟨live, holds, -⟩ := assignmentEffective_iff.mp effective
    exact ⟨rfl, live, holds⟩
  oneGrant := by
    intro sourceId recipient
    refine h.grants.filter_length_le_one h.distinctDelegations (sourceId, recipient) now ?_
    intro d accepted
    obtain ⟨rfl, rfl, effective⟩ := of_decide_eq_true accepted
    obtain ⟨live, holds, -⟩ := delegationEffective_iff.mp effective
    exact ⟨rfl, live, holds⟩

/-- In every policy reached and at every instant the delegations in effect stay within their
sources; and no principal gains a responsibility by commands of its own. -/
theorem delegation_never_amplifies (reached : Reached time p) (now : Instant) :
    Restrained time p now ∧
      ∀ actor actors q, Run (Step time) p actors q → (∀ a ∈ actors, a = actor) →
        ∀ r ∈ responsibilities time q actor now, r ∈ responsibilities time p actor now := by
  refine ⟨reached.sound.restrained now, ?_⟩
  intro actor actors q run
  refine run.invariant (P := fun actors q => (∀ a ∈ actors, a = actor) →
    ∀ r ∈ responsibilities time q actor now, r ∈ responsibilities time p actor now) ?_ ?_
  · exact fun _ r hr => hr
  · intro earlier s a t ih taken alone r hr
    obtain rfl : a = actor := alone a mem_cons_self
    exact ih (fun b hb => alone b (.tail _ hb)) r (taken.accepted.responsibilities_shrink hr)

/-! A calendar of three instants, and a delegation of one of them. -/

def sampleNow : String := "2026-10-02T00:00:00Z"

def sampleEnd : String := "2026-10-03T00:00:00Z"

def sampleTime : TimeText where
  parse text :=
    if text = fixtureValidFrom then some 0
    else if text = sampleNow then some (minutes 1440)
    else if text = sampleEnd then some (minutes 2880) else none
  format value :=
    if value = minutes 1440 then some sampleNow
    else if value = minutes 2880 then some sampleEnd else none
  parse_format := by
    intro value text h
    split at h
    next same =>
      cases h
      rw [same]
      decide
    · split at h
      next same =>
        cases h
        rw [same]
        decide
      · cases h

def sampleDelegate : PolicyCommand :=
  .createDelegation ⟨fromU128 0x0190000000007000800000000000d001, 0, salesAssignmentId⟩
    salesAssignmentId .office01 [.contextRead] none sampleEnd "休暇"

theorem delegation_never_amplifies_sample : ∃ p, Reached sampleTime p ∧
    (responsibilities sampleTime p .office01 (minutes 1440)).length = 2 ∧
    Restrained sampleTime p (minutes 1440) ∧
    ∀ r ∈ responsibilities sampleTime p .sales01 (minutes 1440),
      r ∈ responsibilities sampleTime synthetic .sales01 (minutes 1440) := by
  have accepted : (apply sampleTime synthetic (fromU128 0x0190000000007000800000000000d002) .sales01
      sampleDelegate sampleNow).toOption.any (fun done =>
        (responsibilities sampleTime done.1 .office01 (minutes 1440)).length = 2) = true := by
    decide +kernel
  obtain ⟨⟨p, result⟩, applied, two⟩ := any_exists accepted
  have run : Run (Step sampleTime) synthetic [.sales01] p :=
    Run.start.next ⟨_, _, _, result, toOption_some applied⟩
  exact ⟨p, ⟨_, run⟩, by simpa using two, (delegation_never_amplifies ⟨_, run⟩ (minutes 1440)).1,
    (delegation_never_amplifies ⟨[], .start⟩ (minutes 1440)).2 .sales01 _ p run (by simp)⟩

end KnowledgePlatform.Work.OrganizationPolicy
