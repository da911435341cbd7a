import KnowledgePlatform.Graph.Canonical

/-! The canonical bytes identify content: they are the same for contents that differ only in the
order of unordered collections, and determine a content up to those orders. -/

namespace KnowledgePlatform.Graph

open Framing List

/-! ## Parts -/

theorem int128be_inj {m n : Int} (hm : InInt128 m) (hn : InInt128 n)
    (same : int128be m = int128be n) : m = n := by
  have same := bigEndian_inj same
  obtain ⟨_, _⟩ := hm
  obtain ⟨_, _⟩ := hn
  rw [show (256 : Nat) ^ 16 = 2 ^ 128 by norm_num] at same
  omega

theorem int32be_inj {m n : Int} (hm : -2 ^ 31 ≤ m ∧ m < 2 ^ 31) (hn : -2 ^ 31 ≤ n ∧ n < 2 ^ 31)
    (same : int32be m = int32be n) : m = n := by
  have same := bigEndian_inj same
  rw [show (256 : Nat) ^ 4 = 2 ^ 32 by norm_num] at same
  omega

@[simp] theorem length_int128be (n : Int) : (int128be n).length = 16 := length_bigEndian _ _

@[simp] theorem length_int32be (n : Int) : (int32be n).length = 4 := length_bigEndian _ _

theorem splits_text {a b : String} : Splits (text a) (text b) (a = b) := splits_utf8

theorem splits_optionalText {a b : Option String} :
    Splits (optionalText a) (optionalText b) (a = b) :=
  splits_option rfl (fun _ _ => parts_head) fun _ _ => splits_after splits_text

theorem OffsetDateTime.nanos_in (t : OffsetDateTime) : InInt128 t.unixTimestampNanos := by
  have := t.offset_le
  have := t.local_le
  unfold maxOffset minNanos maxNanos at *
  constructor <;> omega

theorem OffsetDateTime.offset_in (t : OffsetDateTime) :
    -2 ^ 31 ≤ t.offsetSeconds ∧ t.offsetSeconds < 2 ^ 31 := by
  have := t.offset_le
  unfold maxOffset at this
  omega

theorem OffsetDateTime.ext_bytes {a b : OffsetDateTime}
    (same : int128be a.unixTimestampNanos ++ int32be a.offsetSeconds =
      int128be b.unixTimestampNanos ++ int32be b.offsetSeconds) : a = b := by
  obtain ⟨nanos, offset⟩ := append_inj same (by simp)
  have nanos := int128be_inj a.nanos_in b.nanos_in nanos
  have offset := int32be_inj a.offset_in b.offset_in offset
  cases a
  cases b
  simp_all

theorem splits_instant {a b : Option OffsetDateTime} :
    Splits (.ok (instantBytes a) : Except GraphError Bytes) (.ok (instantBytes b)) (a = b) :=
  splits_option (f := fun a => .ok (instantBytes a)) rfl (fun _ _ => ok_head) fun _ _ =>
    splits_tagged (by simp) OffsetDateTime.ext_bytes

theorem splits_optionalUuid {a b : Option Uuid} :
    Splits (.ok (optionalUuid a) : Except GraphError Bytes) (.ok (optionalUuid b)) (a = b) :=
  splits_option (f := fun a => .ok (optionalUuid a)) rfl (fun _ _ => ok_head) fun x y =>
    splits_tagged (x.size.trans y.size.symm) Uuid.ext_bytes

/-! ## Typed values -/

/-- Values that differ only in the order of members inside sets. -/
inductive TypedValue.Reordered : TypedValue → TypedValue → Prop where
  | refl (v) : Reordered v v
  | trans {u v w} : Reordered u v → Reordered v w → Reordered u w
  | item {v w} (before after) : Reordered v w →
    Reordered (.list (before ++ v :: after)) (.list (before ++ w :: after))
  | member {v w} (before after) : Reordered v w →
    Reordered (.set (before ++ v :: after)) (.set (before ++ w :: after))
  | order {xs ys : List TypedValue} : xs.Perm ys → Reordered (.set xs) (.set ys)

namespace TypedValue

theorem Reordered.each {wrap : List TypedValue → TypedValue} {xs ys : List TypedValue}
    (one : ∀ {v w} before after, Reordered v w →
      Reordered (wrap (before ++ v :: after)) (wrap (before ++ w :: after)))
    (h : Forall₂ Reordered xs ys) : Reordered (wrap xs) (wrap ys) := by
  have general (before : List TypedValue) :
      Reordered (wrap (before ++ xs)) (wrap (before ++ ys)) := by
    induction h generalizing before with
    | nil => exact .refl _
    | @cons v w xs ys first _ ih =>
      apply (one before xs first).trans
      have rest := ih (before ++ [w])
      rwa [append_assoc, append_assoc] at rest
  exact general []

theorem Reordered.items {xs ys : List TypedValue} (h : Forall₂ Reordered xs ys) :
    Reordered (.list xs) (.list ys) :=
  .each .item h

theorem Reordered.members {xs ys : List TypedValue} (h : Matched Reordered xs ys) :
    Reordered (.set xs) (.set ys) := by
  obtain ⟨zs, related, perm⟩ := h
  exact (Reordered.each .member related).trans (.order perm)

end TypedValue

theorem typedValues_eq (vs : List TypedValue) : typedValues vs = vs.map typedValue := by
  induction vs with
  | nil => rfl
  | cons v vs ih => rw [typedValues, ih, map_cons]

variable {items : List TypedValue} {v w : TypedValue}

theorem typedValue_list_iff :
    typedValue (.list items) = .ok b ↔
      ∃ ms : List Bytes, items.map typedValue = ms.map .ok ∧
        parts [.ok [10], list tooLarge ms] = .ok b := by
  rw [typedValue, typedValues_eq, ← length_map (f := typedValue), parts_cons_iff]
  simp only [framed_iff]
  simp [parts_cons_iff, parts_nil_iff, ← exists_and_left, ← exists_and_right, and_assoc]
  exact exists_comm

theorem typedValue_set_iff :
    typedValue (.set items) = .ok b ↔
      ∃ ms : List Bytes, items.map typedValue = ms.map .ok ∧
        parts [.ok [11], set tooLarge (.invalid "duplicate set member") ms] = .ok b := by
  rw [typedValue, typedValues_eq, except_bind_iff]
  simp only [mapM_iff_map, map_id]

/-- Replacing one member by a value of the same bytes keeps the members' bytes. -/
theorem encoded_replace {before after : List TypedValue} {ms : List Bytes}
    (keep : ∀ b, typedValue v = .ok b → typedValue w = .ok b)
    (encoded : (before ++ v :: after).map typedValue = ms.map .ok) :
    (before ++ w :: after).map typedValue = ms.map .ok := by
  obtain ⟨b, -, hb⟩ := mapM_each (mapM_iff_map.mpr encoded) (mem_append_right _ mem_cons_self)
  rw [map_append, map_cons] at encoded ⊢
  rw [keep b hb, ← hb]
  exact encoded

theorem TypedValue.Reordered.bytes (h : Reordered v w) (hb : typedValue v = .ok b) :
    typedValue w = .ok b := by
  induction h generalizing b with
  | refl => exact hb
  | trans _ _ first second => exact second (first hb)
  | item before after _ ih =>
    obtain ⟨ms, encoded, whole⟩ := typedValue_list_iff.mp hb
    exact typedValue_list_iff.mpr ⟨ms, encoded_replace (fun b => ih) encoded, whole⟩
  | member before after _ ih =>
    obtain ⟨ms, encoded, whole⟩ := typedValue_set_iff.mp hb
    exact typedValue_set_iff.mpr ⟨ms, encoded_replace (fun b => ih) encoded, whole⟩
  | order perm =>
    obtain ⟨ms, encoded, whole⟩ := typedValue_set_iff.mp hb
    obtain ⟨ns, reordered, order⟩ := exists_map_perm encoded perm
    rw [← set_perm order] at whole
    exact typedValue_set_iff.mpr ⟨ns, reordered, whole⟩

/-- The first byte of a value's encoding. -/
def TypedValue.tag : TypedValue → UInt8
  | bool _ => 1
  | string _ => 2
  | integer _ => 3
  | decimal _ => 4
  | date _ => 5
  | dateTime _ => 6
  | duration _ => 7
  | conceptRef _ => 8
  | resourceRef _ => 9
  | list _ => 10
  | set _ => 11
  | money _ => 12
  | quantity _ => 13

theorem typedValue_head (h : typedValue v = .ok b) :
    b.head? = some v.tag := by
  cases v with
  | list items =>
    obtain ⟨_, _, h⟩ := typedValue_list_iff.mp h
    exact parts_head h
  | set items =>
    obtain ⟨_, _, h⟩ := typedValue_set_iff.mp h
    exact parts_head h
  | string | conceptRef | money | quantity => exact parts_head h
  | bool | integer | decimal | date | dateTime | duration | resourceRef =>
    cases h
    rfl

theorem splits_int128 {m n : Int128} :
    Splits (.ok (c :: int128be m) : Except GraphError Bytes) (.ok (c :: int128be n)) (m = n) :=
  splits_tagged (by simp) fun same => Subtype.ext (int128be_inj m.2 n.2 same)

theorem splits_decimal {m n : DecimalValue} :
    Splits (.ok (c :: (int128be m.coefficient ++ [m.scale])) : Except GraphError Bytes)
      (.ok (c :: (int128be n.coefficient ++ [n.scale]))) (m = n) := by
  apply splits_tagged (by simp)
  intro same
  obtain ⟨coefficient, scale⟩ := append_inj same (by simp)
  have coefficient := Subtype.ext (int128be_inj m.coefficient.2 n.coefficient.2 coefficient)
  cases m
  cases n
  simp_all

theorem typedValue_scalar (tags : v.tag = w.tag) (list : v.tag ≠ 10) (set : v.tag ≠ 11)
    (hv : typedValue v = .ok b) (hw : typedValue w = .ok b) : v = w := by
  cases v <;> cases w <;> try (simp [TypedValue.tag] at tags; done)
  case bool.bool m n =>
    cases hv
    cases m <;> cases n <;> simp_all [typedValue]
  case string.string | conceptRef.conceptRef =>
    exact congrArg _ ((splits_after splits_text).eq_ok hv hw)
  case integer.integer => exact congrArg _ (splits_int128.eq_ok hv hw)
  case decimal.decimal => exact congrArg _ (splits_decimal.eq_ok hv hw)
  case date.date m n =>
    cases m with | mk m hm
    cases n with | mk n hn
    cases (splits_tagged (by simp) (int32be_inj hm hn)).eq_ok hv hw
    rfl
  case dateTime.dateTime m n =>
    have size : (instantBytes (some m)).length = (instantBytes (some n)).length := by
      simp [instantBytes]
    have inj (same : instantBytes (some m) = instantBytes (some n)) : some m = some n :=
      splits_instant.eq_ok rfl (congrArg _ same.symm)
    cases (splits_tagged size inj).eq_ok hv hw
    rfl
  case duration.duration m n =>
    cases m with | mk m
    cases n with | mk n
    cases splits_int128.eq_ok hv hw
    rfl
  case resourceRef.resourceRef m n =>
    exact congrArg _ ((splits_tagged (m.size.trans n.size.symm) Uuid.ext_bytes).eq_ok hv hw)
  case list.list => exact absurd rfl list
  case set.set => exact absurd rfl set
  case money.money m n =>
    have same := (splits_int128.cons (splits_text.cons splits_nil)).eq_ok hv hw
    cases m
    cases n
    simp_all
  case quantity.quantity m n =>
    have same := (splits_decimal.cons (splits_text.cons splits_nil)).eq_ok hv hw
    cases m
    cases n
    simp_all

/-- Equal bytes are of values that differ only in the order of set members. -/
theorem typedValue_inj (hv : typedValue v = .ok b) (hw : typedValue w = .ok b) :
    v.Reordered w := by
  induction v using TypedValue.induction generalizing w b with
  | step v ih =>
  have tags : v.tag = w.tag := Option.some.inj
    ((typedValue_head hv).symm.trans (typedValue_head hw))
  -- members with the same bytes are reordered, by induction
  have members {xs ys : List TypedValue} {ms : List Bytes} (sub : ∀ x ∈ xs, x ∈ v.items)
      (hx : xs.map typedValue = ms.map .ok) : ∀ x ∈ xs, ∀ y ∈ ys,
        typedValue x = typedValue y → x.Reordered y := by
    intro x hx' y _ same
    obtain ⟨m, -, hm⟩ := mapM_each (mapM_iff_map.mpr hx) hx'
    exact ih x (sub x hx') hm (same.symm.trans hm)
  cases v <;> cases w <;> try (simp [TypedValue.tag] at tags; done)
  case list.list xs ys =>
    obtain ⟨ms, hx, first⟩ := typedValue_list_iff.mp hv
    obtain ⟨ns, hy, second⟩ := typedValue_list_iff.mp hw
    obtain rfl := (splits_after splits_list).eq_ok first second
    exact .items (forall₂_of_map_eq (members (fun _ => id) hx) (hx.trans hy.symm))
  case set.set xs ys =>
    obtain ⟨ms, hx, first⟩ := typedValue_set_iff.mp hv
    obtain ⟨ns, hy, second⟩ := typedValue_set_iff.mp hw
    have perm := (splits_after splits_set).eq_ok first second
    have images : (xs.map typedValue).Perm (ys.map typedValue) := by
      rw [hx, hy]
      exact perm.map _
    exact .members (matched_of_map_perm (members (fun _ => id) hx) images)
  all_goals
    rw [typedValue_scalar tags (by simp [TypedValue.tag]) (by simp [TypedValue.tag]) hv hw]
    exact .refl _

/-! ## Relations -/

/-- Relations that differ only in the order of participants, of evidence and of set members. -/
structure TypedRelationInstance.Reordered (a b : TypedRelationInstance) : Prop where
  relationId : a.relationId = b.relationId
  namespaceOf : a.namespaceOf = b.namespaceOf
  relationType : a.relationType = b.relationType
  participants : a.participants.Perm b.participants
  qualifiers : Forall₂ (fun p q => p.1 = q.1 ∧ p.2.Reordered q.2)
    a.qualifiers.entries b.qualifiers.entries
  temporalScope : a.temporalScope = b.temporalScope
  authority : a.authority = b.authority
  provenance : a.provenance = b.provenance
  evidenceRefs : a.evidenceRefs.Perm b.evidenceRefs

theorem canonicalRelation_iff {r : TypedRelationInstance} :
    canonicalRelation r = .ok b ↔
      halfOpen r.temporalScope.validFrom r.temporalScope.validTo = .ok () ∧
      ¬ (isBlank r.relationType = true ∨ r.participants = []) ∧
      ∃ ms : List Bytes, r.participants.map participantBytes = ms.map .ok ∧
        parts (relationParts r (text r.relationType) ms) = .ok b := by
  simp only [canonicalRelation, except_iffs, mapM_iff_map]
  constructor
  · rintro ⟨ordered, required, type, htype, ms, members, h⟩
    rw [← htype] at h
    exact ⟨ordered, required, ms, members, h⟩
  · rintro ⟨ordered, required, ms, members, h⟩
    obtain ⟨x, y, hx, h', rfl⟩ := parts_cons_iff.mp h
    obtain ⟨x', y', hx', h'', rfl⟩ := parts_cons_iff.mp h'
    obtain ⟨type, -, htype, -, -⟩ := parts_cons_iff.mp h''
    refine ⟨ordered, required, type, htype, ms, members, ?_⟩
    rw [← htype]
    exact h

theorem splits_qualifier (p q : String × TypedValue) :
    Splits (qualifierBytes p) (qualifierBytes q) (p.1 = q.1 ∧ p.2.Reordered q.2) := by
  apply (splits_text.cons (splits_framed.cons splits_nil)).mono
  rintro ⟨key, ⟨b, hp, hq⟩, -⟩
  exact ⟨key, typedValue_inj hp hq⟩

theorem namespaceTag_inj {m n : RelationNamespace} (same : [namespaceTag m] = [namespaceTag n]) :
    m = n := by
  cases m <;> cases n <;> simp_all [namespaceTag]

theorem string_inj {a b : String} (same : utf8 a.toList = utf8 b.toList) : a = b :=
  String.toList_injective (utf8_inj same)

/-- Equal bytes are of relations that differ only in order. -/
theorem canonicalRelation_inj {r s : TypedRelationInstance} (hr : canonicalRelation r = .ok b)
    (hs : canonicalRelation s = .ok b) : r.Reordered s := by
  obtain ⟨-, -, ms, hms, hr⟩ := canonicalRelation_iff.mp hr
  obtain ⟨-, -, ns, hns, hs⟩ := canonicalRelation_iff.mp hs
  have tagged : Splits (.ok [namespaceTag r.namespaceOf] : Except GraphError Bytes)
      (.ok [namespaceTag s.namespaceOf]) _ := splits_ok rfl namespaceTag_inj
  have agree := (splits_uuid.cons <| tagged.cons <| splits_text.cons <|
    splits_set.cons <| (splits_each splits_qualifier).cons <| splits_instant.cons <|
    splits_instant.cons <| splits_optionalText.cons <| splits_optionalText.cons <|
    splits_set.cons splits_nil).eq_ok hr hs
  obtain ⟨relationId, namespaceOf, relationType, participants, qualifiers, validFrom, validTo,
    authority, provenance, evidenceRefs, -⟩ := agree
  refine ⟨relationId, namespaceOf, relationType, ?_, qualifiers, ?_, authority, provenance, ?_⟩
  · have images : (r.participants.map participantBytes).Perm
        (s.participants.map participantBytes) := by
      rw [hms, hns]
      exact participants.map _
    apply matched_eq_iff.mp (matched_of_map_perm _ images)
    intro p hp q _ same
    obtain ⟨m, -, hm⟩ := mapM_each (mapM_iff_map.mpr hms) hp
    obtain ⟨-, hp⟩ := ensure_bind_iff.mp hm
    obtain ⟨-, hq⟩ := ensure_bind_iff.mp (same.symm.trans hm)
    obtain ⟨role, resource, -⟩ := (splits_text.cons (splits_uuid.cons splits_nil)).eq_ok hp hq
    cases p
    cases q
    simp_all
  · cases hr : r.temporalScope
    cases hs : s.temporalScope
    simp_all
  · exact matched_eq_iff.mp (matched_of_map_perm (fun _ _ _ _ => string_inj) evidenceRefs)

/-- Reordering keeps the bytes. -/
theorem TypedRelationInstance.Reordered.bytes {r s : TypedRelationInstance} (h : r.Reordered s)
    (hr : canonicalRelation r = .ok b) : canonicalRelation s = .ok b := by
  obtain ⟨ordered, required, ms, hms, hr⟩ := canonicalRelation_iff.mp hr
  obtain ⟨ns, hns, order⟩ := exists_map_perm hms h.participants
  refine canonicalRelation_iff.mpr ⟨?_, ?_, ns, hns, parts_mono ?_ hr⟩
  · rw [← h.temporalScope]
    exact ordered
  · rw [← h.relationType, ← length_eq_zero_iff, ← h.participants.length_eq,
      length_eq_zero_iff]
    exact required
  have evidence : (r.evidenceRefs.map fun t => utf8 t.toList).Perm
      (s.evidenceRefs.map fun t => utf8 t.toList) := h.evidenceRefs.map _
  unfold relationParts
  rw [h.relationId, h.namespaceOf, h.relationType, h.temporalScope, h.authority, h.provenance,
    set_perm evidence, set_perm order]
  have qualifiers : ∀ b, parts (count tooLarge r.qualifiers.entries.length ::
        r.qualifiers.entries.map qualifierBytes) = .ok b →
      parts (count tooLarge s.qualifiers.entries.length ::
        s.qualifiers.entries.map qualifierBytes) = .ok b := by
    intro b
    rw [h.qualifiers.length_eq]
    refine parts_mono (.cons (fun _ => id) ?_)
    rw [forall₂_map_left_iff, forall₂_map_right_iff]
    apply h.qualifiers.imp
    rintro p q ⟨key, value⟩ b
    unfold qualifierBytes
    rw [key]
    refine parts_mono (.cons (fun _ => id) (.cons ?_ .nil))
    intro b hb
    obtain ⟨x, hx, framed⟩ := except_bind_ok hb
    exact except_bind_iff.mpr ⟨x, value.bytes hx, framed⟩
  exact .cons (fun _ => id) <| .cons (fun _ => id) <| .cons (fun _ => id) <|
    .cons (fun _ => id) <| .cons qualifiers <| forall₂_same.mpr fun _ _ _ => id

end KnowledgePlatform.Graph
