import KnowledgePlatform.Graph.Canonical
import KnowledgePlatform.Json.Codec
import KnowledgePlatform.Lib.Decimal

/-! The JSON forms of typed relations and of the resources of a segment. -/

namespace KnowledgePlatform.Graph

open Codec List

/-- The JSON forms of dates, instants and durations are the calendar library's. -/
structure TimeCodecs where
  date : Codec Date
  dateTime : Codec OffsetDateTime
  duration : Codec Duration
  date_written : ∀ d, (date.encode d).isSome = true
  dateTime_written : ∀ t, (dateTime.encode t).isSome = true
  duration_written : ∀ d, (duration.encode d).isSome = true
  dateTime_ne_null : ∀ t, dateTime.encode t ≠ some .null

def uuidCodec : Codec Uuid where
  encode u := some (.str u.text)
  decode v := v.asStr >>= Uuid.parseStr
  decode_encode {u v} h := by
    cases h
    exact u.parseStr_text

def int128Codec : Codec Int128 := Codec.int InInt128

def byteCodec : Codec UInt8 :=
  (Codec.int fun n => 0 ≤ n ∧ n < 256).iso
    (fun b => ⟨b.toNat, Int.natCast_nonneg _, Int.ofNat_lt.mpr b.toNat_lt⟩)
    (fun n => UInt8.ofNat n.1.toNat)
    (fun b => by simp)

/-! ## Typed values -/

def decimalCodec : Codec DecimalValue :=
  (record (.cons "coefficient" int128Codec (.cons "scale" byteCodec .nil none) none)
    (by decide)).iso
    (fun d => (d.coefficient, d.scale, ())) (fun x => ⟨x.1, x.2.1⟩) fun _ => rfl

def moneyCodec : Codec MoneyValue :=
  (record (.cons "amount_minor" int128Codec (.cons "currency" str .nil none) none) (by decide)).iso
    (fun m => (m.amountMinor, m.currency, ())) (fun x => ⟨x.1, x.2.1⟩) fun _ => rfl

def quantityCodec : Codec QuantityValue :=
  (record (.cons "amount" decimalCodec (.cons "unit" str .nil none) none) (by decide)).iso
    (fun q => (q.amount, q.unit, ())) (fun x => ⟨x.1, x.2.1⟩) fun _ => rfl

section

variable (time : TimeCodecs)

mutual

def valueJson : TypedValue → Option Json
  | .bool value => variant "Bool" (some (.bool value))
  | .string value => variant "String" (str.encode value)
  | .integer value => variant "Integer" (int128Codec.encode value)
  | .decimal value => variant "Decimal" (decimalCodec.encode value)
  | .date value => variant "Date" (time.date.encode value)
  | .dateTime value => variant "DateTime" (time.dateTime.encode value)
  | .duration value => variant "Duration" (time.duration.encode value)
  | .conceptRef value => variant "ConceptRef" (str.encode value)
  | .resourceRef value => variant "ResourceRef" (uuidCodec.encode value)
  | .list items => variant "List" ((valuesJson items).map .arr)
  | .set items => variant "Set" ((valuesJson items).map .arr)
  | .money value => variant "Money" (moneyCodec.encode value)
  | .quantity value => variant "Quantity" (quantityCodec.encode value)

def valuesJson : List TypedValue → Option (List Json)
  | [] => some []
  | v :: vs => do
    let first ← valueJson v
    let rest ← valuesJson vs
    return first :: rest

end

mutual

def valueFromJson : Json → Option TypedValue
  | .obj [(tag, content)] =>
    match tag with
    | "Bool" => content.asBool.map .bool
    | "String" => (str.decode content).map .string
    | "Integer" => (int128Codec.decode content).map .integer
    | "Decimal" => (decimalCodec.decode content).map .decimal
    | "Date" => (time.date.decode content).map .date
    | "DateTime" => (time.dateTime.decode content).map .dateTime
    | "Duration" => (time.duration.decode content).map .duration
    | "ConceptRef" => (str.decode content).map .conceptRef
    | "ResourceRef" => (uuidCodec.decode content).map .resourceRef
    | "List" => (itemsFromJson content).map .list
    | "Set" => (itemsFromJson content).map .set
    | "Money" => (moneyCodec.decode content).map .money
    | "Quantity" => (quantityCodec.decode content).map .quantity
    | _ => none
  | _ => none

def itemsFromJson : Json → Option (List TypedValue)
  | .arr items => valuesFromJson items
  | _ => none

def valuesFromJson : List Json → Option (List TypedValue)
  | [] => some []
  | v :: vs => do
    let first ← valueFromJson v
    let rest ← valuesFromJson vs
    return first :: rest

end

variable {time}

theorem valuesFromJson_valuesJson {xs : List TypedValue} {vs : List Json}
    (each : ∀ x ∈ xs, ∀ v, valueJson time x = some v → valueFromJson time v = some x)
    (h : valuesJson time xs = some vs) : valuesFromJson time vs = some xs := by
  induction xs generalizing vs with
  | nil =>
    cases h
    rfl
  | cons x xs ih =>
    obtain ⟨v, first, h⟩ := option_bind_some h
    obtain ⟨rest, others, h⟩ := option_bind_some h
    cases h
    obtain ⟨head, tail⟩ := forall_mem_cons.mp each
    rw [valuesFromJson, head v first, ih tail others]
    rfl

/-- A value is read back as it was written. -/
theorem valueFromJson_valueJson {x : TypedValue} {v : Json} (h : valueJson time x = some v) :
    valueFromJson time v = some x := by
  induction x using TypedValue.induction generalizing v with
  | step x ih =>
  cases x <;> rw [valueJson] at h <;> obtain ⟨w, written, rfl⟩ := Option.map_eq_some_iff.mp h <;>
    rw [valueFromJson]
  case bool =>
    cases written
    rfl
  case string | conceptRef => rw [str.decode_encode written, Option.map_some]
  case integer => rw [int128Codec.decode_encode written, Option.map_some]
  case decimal => rw [decimalCodec.decode_encode written, Option.map_some]
  case date => rw [time.date.decode_encode written, Option.map_some]
  case dateTime => rw [time.dateTime.decode_encode written, Option.map_some]
  case duration => rw [time.duration.decode_encode written, Option.map_some]
  case resourceRef => rw [uuidCodec.decode_encode written, Option.map_some]
  case list items | set items =>
    obtain ⟨vs, each, rfl⟩ := Option.map_eq_some_iff.mp written
    rw [itemsFromJson, valuesFromJson_valuesJson (fun y hy _ => ih y hy) each, Option.map_some]
    rfl
  case money => rw [moneyCodec.decode_encode written, Option.map_some]
  case quantity => rw [quantityCodec.decode_encode written, Option.map_some]

end

mutual

/-- The integers of a value. -/
def TypedValue.numbers : TypedValue → List Int
  | .integer value => [value]
  | .decimal value => [value.coefficient]
  | .list items => numbersOf items
  | .set items => numbersOf items
  | .money value => [value.amountMinor]
  | .quantity value => [value.amount.coefficient]
  | _ => []

def TypedValue.numbersOf : List TypedValue → List Int
  | [] => []
  | v :: vs => v.numbers ++ numbersOf vs

end

section

variable {time : TimeCodecs}

theorem int128Codec_written {n : Int128} (fits : InNumber n) :
    int128Codec.encode n = some (.int n) :=
  if_pos fits

theorem byteCodec_written (b : UInt8) : byteCodec.encode b = some (.int b.toNat) := by
  have := b.toNat_lt
  have fits : InNumber b.toNat := by
    unfold InNumber
    omega
  simp only [byteCodec, Codec.iso, Codec.int, fits, if_true]

theorem decimalCodec_written {d : DecimalValue} (fits : InNumber d.coefficient) :
    (decimalCodec.encode d).isSome = true := by
  simp [decimalCodec, Codec.iso, record, Fields.cons, Fields.nil, int128Codec_written fits,
    byteCodec_written]

theorem valuesJson_written {xs : List TypedValue}
    (each : ∀ x ∈ xs, (∀ n ∈ x.numbers, InNumber n) → (valueJson time x).isSome = true)
    (fits : ∀ n ∈ TypedValue.numbersOf xs, InNumber n) : (valuesJson time xs).isSome = true := by
  induction xs with
  | nil => rfl
  | cons x xs ih =>
    obtain ⟨head, tail⟩ := forall_mem_cons.mp each
    rw [TypedValue.numbersOf] at fits
    obtain ⟨v, hv⟩ := Option.isSome_iff_exists.mp
      (head fun n hn => fits n (mem_append_left _ hn))
    obtain ⟨vs, hvs⟩ := Option.isSome_iff_exists.mp
      (ih tail fun n hn => fits n (mem_append_right _ hn))
    rw [valuesJson, hv, hvs]
    rfl

/-- A value is written when its integers are numbers of the reader. -/
theorem valueJson_written {x : TypedValue} (fits : ∀ n ∈ x.numbers, InNumber n) :
    (valueJson time x).isSome = true := by
  induction x using TypedValue.induction with
  | step x ih =>
  cases x <;> rw [valueJson, variant, Option.isSome_map]
  case bool | string | conceptRef | resourceRef => rfl
  case integer n => rw [int128Codec_written (fits n (by simp [TypedValue.numbers]))]; rfl
  case decimal d => exact decimalCodec_written (fits _ (by simp [TypedValue.numbers]))
  case date => exact time.date_written _
  case dateTime => exact time.dateTime_written _
  case duration => exact time.duration_written _
  case list | set =>
    rw [Option.isSome_map]
    exact valuesJson_written ih (by simpa [TypedValue.numbers] using fits)
  case money m =>
    have fits : InNumber m.amountMinor := fits _ (by simp [TypedValue.numbers])
    simp [moneyCodec, Codec.iso, record, Fields.cons, Fields.nil, int128Codec_written fits, str]
  case quantity q =>
    have fits : InNumber q.amount.coefficient := fits _ (by simp [TypedValue.numbers])
    obtain ⟨v, hv⟩ := Option.isSome_iff_exists.mp (decimalCodec_written fits)
    simp [quantityCodec, Codec.iso, record, Fields.cons, Fields.nil, hv, str]

end

/-! ## Relations -/

def namespaceName : RelationNamespace → String
  | .discovery => "Discovery"
  | .semantic => "Semantic"
  | .evidence => "Evidence"

def namespaceOfName : String → Option RelationNamespace
  | "Discovery" => some .discovery
  | "Semantic" => some .semantic
  | "Evidence" => some .evidence
  | _ => none

def namespaceCodec : Codec RelationNamespace where
  encode n := some (.str (namespaceName n))
  decode
    | .str name => namespaceOfName name
    | .obj [(name, .null)] => namespaceOfName name
    | _ => none
  decode_encode {n v} h := by
    cases h
    cases n <;> rfl

def participantCodec : Codec RelationParticipant :=
  (record (.cons "role" str (.cons "resource_ref" uuidCodec .nil none) none) (by decide)).iso
    (fun p => (p.role, p.resourceRef, ())) (fun x => ⟨x.1, x.2.1⟩) fun _ => rfl

section

variable (time : TimeCodecs)

def valueCodec : Codec TypedValue where
  encode := valueJson time
  decode := valueFromJson time
  decode_encode := valueFromJson_valueJson

def instantCodec : Codec (Option OffsetDateTime) := optional time.dateTime time.dateTime_ne_null

def temporalScopeCodec : Codec RelationTemporalScope :=
  (record (.cons "valid_from" (instantCodec time)
    (.cons "valid_to" (instantCodec time) .nil (some .null)) (some .null))
    (show ["valid_from", "valid_to"].Nodup by decide)).iso
    (fun s => (s.validFrom, s.validTo, ())) (fun x => ⟨x.1, x.2.1⟩) fun _ => rfl

def optionalStr : Codec (Option String) := optional str fun _ => by simp [str]

/-- Every field but the optional ones must be there. -/
def relationFields : Fields (Uuid × RelationNamespace × String × List RelationParticipant ×
    { l : List (String × TypedValue) // Keyed.Ordered Prod.fst l } × RelationTemporalScope ×
    Option String × Option String × List String × Unit) :=
  .cons "relation_id" uuidCodec (.cons "namespace" namespaceCodec (.cons "relation_type" str
    (.cons "participants" participantCodec.list (.cons "qualifiers" (valueCodec time).members
      (.cons "temporal_scope" (temporalScopeCodec time) (.cons "authority" optionalStr
        (.cons "provenance" optionalStr (.cons "evidence_refs" str.list .nil none) (some .null))
          (some .null)) none) none) none) none) none) none

def relationNames : List String :=
  ["relation_id", "namespace", "relation_type", "participants", "qualifiers", "temporal_scope",
    "authority", "provenance", "evidence_refs"]

def relationCodec : Codec TypedRelationInstance :=
  (record (relationFields time) (show relationNames.Nodup by decide)).iso
    (fun r => (r.relationId, r.namespaceOf, r.relationType, r.participants,
      ⟨r.qualifiers.entries, r.qualifiers.ordered⟩, r.temporalScope, r.authority, r.provenance,
      r.evidenceRefs, ()))
    (fun x => {
      relationId := x.1
      namespaceOf := x.2.1
      relationType := x.2.2.1
      participants := x.2.2.2.1
      qualifiers := ⟨x.2.2.2.2.1.1, x.2.2.2.2.1.2⟩
      temporalScope := x.2.2.2.2.2.1
      authority := x.2.2.2.2.2.2.1
      provenance := x.2.2.2.2.2.2.2.1
      evidenceRefs := x.2.2.2.2.2.2.2.2.1 })
    fun _ => rfl

end

/-- The integers of a relation are numbers of the reader. -/
def TypedRelationInstance.NumbersFit (r : TypedRelationInstance) : Prop :=
  ∀ e ∈ r.qualifiers.entries, ∀ n ∈ e.2.numbers, InNumber n

instance (r : TypedRelationInstance) : Decidable r.NumbersFit :=
  inferInstanceAs (Decidable (∀ e ∈ r.qualifiers.entries, ∀ n ∈ e.2.numbers, InNumber n))

section

variable {time : TimeCodecs}

theorem Codec.mapM_written {α β : Type} {f : α → Option β} {l : List α}
    (each : ∀ a ∈ l, (f a).isSome = true) : (l.mapM f).isSome = true := by
  induction l with
  | nil => rfl
  | cons a l ih =>
    obtain ⟨head, tail⟩ := forall_mem_cons.mp each
    obtain ⟨v, hv⟩ := Option.isSome_iff_exists.mp head
    obtain ⟨vs, hvs⟩ := Option.isSome_iff_exists.mp (ih tail)
    rw [mapM_cons, hv, hvs]
    rfl

theorem instantCodec_written (time : TimeCodecs) (t : Option OffsetDateTime) :
    ((instantCodec time).encode t).isSome = true := by
  cases t with
  | none => rfl
  | some t => exact time.dateTime_written t

theorem temporalScopeCodec_written (time : TimeCodecs) (s : RelationTemporalScope) :
    ((temporalScopeCodec time).encode s).isSome = true := by
  obtain ⟨v, hv⟩ := Option.isSome_iff_exists.mp (instantCodec_written time s.validFrom)
  obtain ⟨w, hw⟩ := Option.isSome_iff_exists.mp (instantCodec_written time s.validTo)
  simp [temporalScopeCodec, Codec.iso, record, Fields.cons, Fields.nil, hv, hw]

theorem optionalStr_written (s : Option String) : (optionalStr.encode s).isSome = true := by
  cases s <;> rfl

/-- A relation is written when its integers are numbers of the reader. -/
theorem relationCodec_written {r : TypedRelationInstance} (fits : r.NumbersFit) :
    ((relationCodec time).encode r).isSome = true := by
  have participants : (participantCodec.list.encode r.participants).isSome = true := by
    unfold Codec.list
    rw [Option.isSome_map]
    exact Codec.mapM_written fun _ _ => rfl
  have qualifiers : ((valueCodec time).members.encode
      ⟨r.qualifiers.entries, r.qualifiers.ordered⟩).isSome = true := by
    unfold Codec.members
    rw [Option.isSome_map]
    apply Codec.mapM_written
    intro e he
    rw [Option.isSome_map]
    exact valueJson_written (fits e he)
  have evidence : (str.list.encode r.evidenceRefs).isSome = true := by
    unfold Codec.list
    rw [Option.isSome_map]
    exact Codec.mapM_written fun _ _ => rfl
  obtain ⟨v₁, h₁⟩ := Option.isSome_iff_exists.mp participants
  obtain ⟨v₂, h₂⟩ := Option.isSome_iff_exists.mp qualifiers
  obtain ⟨v₃, h₃⟩ := Option.isSome_iff_exists.mp evidence
  obtain ⟨v₄, h₄⟩ :=
    Option.isSome_iff_exists.mp (temporalScopeCodec_written time r.temporalScope)
  obtain ⟨v₅, h₅⟩ := Option.isSome_iff_exists.mp (optionalStr_written r.authority)
  obtain ⟨v₆, h₆⟩ := Option.isSome_iff_exists.mp (optionalStr_written r.provenance)
  have text : str.encode r.relationType = some (.str r.relationType) := rfl
  simp [relationCodec, relationFields, Codec.iso, record, Fields.cons, Fields.nil, h₁, h₂, h₃, h₄,
    h₅, h₆, uuidCodec, namespaceCodec, text]

end

/-! ## Resources -/

def kindText : ResourceKind → String
  | .knowledge => "KNOWLEDGE"
  | .document => "DOCUMENT"
  | .folderPlacement => "FOLDER_PLACEMENT"
  | .semantic => "SEMANTIC"
  | .capability => "CAPABILITY"
  | .agentSkill => "AGENT_SKILL"
  | .workflow => "WORKFLOW"
  | .policy => "POLICY"

def kindFrom : String → Except GraphError ResourceKind
  | "KNOWLEDGE" => .ok .knowledge
  | "DOCUMENT" => .ok .document
  | "FOLDER_PLACEMENT" => .ok .folderPlacement
  | "SEMANTIC" => .ok .semantic
  | "CAPABILITY" => .ok .capability
  | "AGENT_SKILL" => .ok .agentSkill
  | "WORKFLOW" => .ok .workflow
  | "POLICY" => .ok .policy
  | _ => .error (.integrity "resource kind")

/-- The nanoseconds do not fit a number, so they are a text. -/
def instantJson : Option Instant → Json
  | none => .null
  | some i => .arr [.str (String.ofList (Decimal.int i.epochNanos)), .int i.offsetSeconds]

def instantFrom : Json → Except GraphError (Option Instant)
  | .null => .ok none
  | .arr [nanos, offset] => do
    let epochNanos ← okOr
      ((nanos.asStr >>= fun text => Decimal.readInt text.toList).filter fun n => InInt128 n)
      (.integrity "segment instant")
    let offsetSeconds ← okOr (offset.asInt64.filter fun n => -2 ^ 31 ≤ n ∧ n < 2 ^ 31)
      (.integrity "segment instant")
    return some ⟨epochNanos, offsetSeconds⟩
  | _ => .error (.integrity "segment instant")

def uuidJson (u : Uuid) : Json := .str u.text

def mappingJson : GraphSourceMapping → Json
  | .document documentId =>
    .obj [("kind", .str "DOCUMENT"), ("document_id", uuidJson documentId)]
  | .folderPlacement documentId folderId =>
    .obj [("kind", .str "FOLDER_PLACEMENT"), ("document_id", uuidJson documentId),
      ("folder_id", uuidJson folderId)]
  | .version documentId versionId =>
    .obj [("kind", .str "VERSION"), ("document_id", uuidJson documentId),
      ("version_id", uuidJson versionId)]
  | .registered adapterId nativeId =>
    .obj [("kind", .str "REGISTERED"), ("adapter_id", .str adapterId),
      ("native_id", .str nativeId)]

def resourceJson (record : GraphResourceRecord) : Except GraphError Json := do
  let columns ← encodeTemporal record.temporal
  return .obj [
    ("id", uuidJson record.resourceRef),
    ("kind", .str (kindText record.kind)),
    ("version", (record.resourceVersionRef.map uuidJson).getD .null),
    ("mapping", mappingJson record.mapping),
    ("valid_from", instantJson columns.validFrom),
    ("valid_to", instantJson columns.validTo),
    ("freshness_anchor", instantJson columns.freshnessAnchorAt),
    ("freshness_basis", (columns.freshnessBasis.map .str).getD .null),
    ("effective_from", instantJson columns.effectiveFrom),
    ("effective_to", instantJson columns.effectiveTo)]

def uuidAt (value : Json) (field : String) : Except GraphError Uuid :=
  okOr (value.get field >>= Json.asStr >>= Uuid.parseStr) (.integrity "segment identifier")

def textAt (value : Json) (field : String) : Except GraphError String :=
  okOr (value.get field >>= Json.asStr) (.integrity "segment text")

/-- A missing member reads as `null`. -/
def index (value : Json) (field : String) : Json := (value.get field).getD .null

def mappingFromJson (value : Json) : Except GraphError GraphSourceMapping :=
  match value.get "kind" >>= Json.asStr with
  | some "DOCUMENT" => do
    return .document (← uuidAt value "document_id")
  | some "FOLDER_PLACEMENT" => do
    return .folderPlacement (← uuidAt value "document_id") (← uuidAt value "folder_id")
  | some "VERSION" => do
    return .version (← uuidAt value "document_id") (← uuidAt value "version_id")
  | some "REGISTERED" => do
    return .registered (← textAt value "adapter_id") (← textAt value "native_id")
  | _ => .error (.integrity "segment mapping kind")

def versionFromJson (value : Json) : Except GraphError (Option ResourceVersionId) :=
  match index value "version" with
  | .null => .ok none
  | _ => (uuidAt value "version").map some

def basisFromJson : Json → Except GraphError (Option String)
  | .null => .ok none
  | .str text => .ok (some text)
  | _ => .error (.integrity "segment freshness basis")

/-- A resource as stored carries no attachments. -/
def resourceFromJson (value : Json) : Except GraphError GraphResourceRecord := do
  let members ← okOr value.asObj (.integrity "segment Resource")
  ensure (members.length = 10) (.integrity "segment Resource fields")
  let resourceRef ← uuidAt value "id"
  let mapping ← mappingFromJson (index value "mapping")
  let version ← versionFromJson value
  let freshnessBasis ← basisFromJson (index value "freshness_basis")
  let columns : TemporalColumns := {
    resourceRef
    validFrom := ← instantFrom (index value "valid_from")
    validTo := ← instantFrom (index value "valid_to")
    freshnessAnchorAt := ← instantFrom (index value "freshness_anchor")
    freshnessBasis
    effectiveFrom := ← instantFrom (index value "effective_from")
    effectiveTo := ← instantFrom (index value "effective_to") }
  let kindName ← okOr (index value "kind").asStr (.integrity "segment Resource kind")
  let kind ← kindFrom kindName
  let temporal ← decodeTemporal columns
  return {
    resourceRef, kind, resourceVersionRef := version, temporal, mapping, attachedRelations := [] }

theorem mappingFromJson_mappingJson (m : GraphSourceMapping) :
    mappingFromJson (mappingJson m) = .ok m := by
  cases m <;> simp [mappingJson, mappingFromJson, uuidAt, textAt, uuidJson, Json.get, lookup_cons,
    Json.asStr, okOr, bind, Except.bind, pure, Except.pure]

theorem kindFrom_kindText (k : ResourceKind) : kindFrom (kindText k) = .ok k := by
  cases k <;> rfl

end KnowledgePlatform.Graph
