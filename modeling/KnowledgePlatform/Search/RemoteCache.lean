import KnowledgePlatform.Graph.Canonical
import KnowledgePlatform.Graph.Memory
import KnowledgePlatform.Lib.Run
import KnowledgePlatform.Lib.Table
import KnowledgePlatform.Search.DebugText

/-! The expiry cache of remote results, keyed by who asks and by a text of the operation. -/

namespace KnowledgePlatform.Search

open DebugFormat (int_avoids int_injective nat_avoids nat_injective scalar)
open List
open Graph (SourceId SearchError RetentionMode TypedValue)
open Delimited

/-! ## Operations -/

structure StructuredFacetFilter where
  facet : String
  expected : TypedValue

def boundedScalar : TypedValue → Bool
  | .string value | .conceptRef value => byteLen value ≤ 1024
  | .money value => byteLen value.currency ≤ 1024
  | .quantity value => byteLen value.unit ≤ 1024
  | .list _ | .set _ => false
  | _ => true

def maxRequestBytes : Nat := 16 * 1024

def maxHitsPerPage : Nat := 100

def maxNativeIdBytes : Nat := 512

structure FacetBounds (f : StructuredFacetFilter) : Prop where
  named : isBlank f.facet = false
  short : byteLen f.facet ≤ 128
  bounded : boundedScalar f.expected = true

/-- Bounded query data. -/
structure RemoteQueryInput where
  text : String
  facets : List StructuredFacetFilter
  window : Nat
  short : byteLen text ≤ 4096
  asks : ¬ (isBlank text = true ∧ facets = [])
  few : facets.length ≤ 16
  page : 0 < window ∧ window ≤ maxHitsPerPage
  each : ∀ f ∈ facets, FacetBounds f
  distinct : (facets.map StructuredFacetFilter.facet).Nodup

instance (f : StructuredFacetFilter) : Decidable (FacetBounds f) :=
  decidable_of_iff (isBlank f.facet = false ∧ byteLen f.facet ≤ 128 ∧
      boundedScalar f.expected = true)
    ⟨fun h => ⟨h.1, h.2.1, h.2.2⟩, fun h => ⟨h.named, h.short, h.bounded⟩⟩

instance (facets : List StructuredFacetFilter) : Decidable (facets = []) :=
  decidable_of_iff _ List.isEmpty_iff

def invalidRemoteInput : SearchError := .invalidRequest "invalid remote retrieval input"

/-- The size of the request as JSON is the JSON library's. -/
def RemoteQueryInput.new (encodedSize : String → List StructuredFacetFilter → Nat → Option Nat)
    (text : String) (facets : List StructuredFacetFilter) (window : Nat)
    (allowedFacets : List String) : Except SearchError RemoteQueryInput :=
  if h : (byteLen text ≤ 4096 ∧ ¬ (isBlank text = true ∧ facets = []) ∧ facets.length ≤ 16 ∧
      (0 < window ∧ window ≤ maxHitsPerPage)) ∧ (∀ f ∈ facets, FacetBounds f) ∧
      (facets.map StructuredFacetFilter.facet).Nodup then
    if (∀ f ∈ facets, f.facet ∈ allowedFacets) ∧
        ((encodedSize text facets window).any fun size => size ≤ maxRequestBytes) = true then
      .ok ⟨text, facets, window, h.1.1, h.1.2.1, h.1.2.2.1, h.1.2.2.2, h.2.1, h.2.2⟩
    else .error invalidRemoteInput
  else .error invalidRemoteInput

structure OpaqueCursor where
  value : String
  valid : value ≠ "" ∧ byteLen value ≤ 1024 ∧ value.toList.any isControl = false

/-- Text up to a colon that reads like the scheme of an address. -/
def hasScheme (value : String) : Bool :=
  let text := value.toList.dropWhile isWhitespace
  let scheme := text.takeWhile (· ≠ ':')
  decide (':' ∈ text) && scheme.head?.any Char.isAlpha &&
    scheme.all fun c => c.isAlphanum || c = '+' || c = '.' || c = '-'

/-- Source-native identity, never an address. -/
structure OpaqueNativeId where
  value : String
  present : isBlank value = false
  short : byteLen value ≤ maxNativeIdBytes
  plain : value.toList.any isControl = false
  relative : ¬ "://".toList <:+: value.toList
  local_ : ¬ "//".toList <+: value.toList.dropWhile isWhitespace
  noScheme : hasScheme value = false

/-- Exactly one bounded query or direct lookup. -/
structure LiveInput where
  query : Option RemoteQueryInput
  nativeId : Option OpaqueNativeId
  one : query.isSome = !nativeId.isSome

inductive RemoteOperation where
  | enumerate (cursor : Option OpaqueCursor)
  | query (input : RemoteQueryInput)
  | lookup (nativeId : OpaqueNativeId)
  | live (input : LiveInput)

/-! ## Keys -/

def facetText (d : DebugFormat) (f : StructuredFacetFilter) : List Char :=
  '(' :: (d.quoted f.facet ++ [',', ' '] ++ (d.typedValue f.expected ++ [')']))

def facetsText (d : DebugFormat) (facets : List StructuredFacetFilter) : List Char :=
  '[' :: (separated [',', ' '] (facetText d) facets ++ [']'])

def operationText (d : DebugFormat) : RemoteOperation → List Char
  | .enumerate cursor =>
    "enumerate".toList ++ unitSeparator :: ((cursor.map OpaqueCursor.value).getD "").toList
  | .query input =>
    "query".toList ++ unitSeparator :: (input.text.toList ++ unitSeparator ::
      (Decimal.nat input.window ++ unitSeparator :: facetsText d input.facets))
  | .lookup nativeId => "lookup".toList ++ unitSeparator :: nativeId.value.toList
  | .live input =>
    "live".toList ++ unitSeparator :: (((input.query.map RemoteQueryInput.text).getD "").toList ++
      unitSeparator :: ((input.nativeId.map OpaqueNativeId.value).getD "").toList)

def operationKey (d : DebugFormat) (operation : RemoteOperation) : String :=
  String.ofList (operationText d operation)

/-- A reading of the monotonic clock. -/
abbrev ClockInstant := Int

structure TrustedSearchScope where
  (tenant principal : String)
  accessRevision : Nat
  deadline : ClockInstant

structure AuthorizedSourceScope where
  sourceId : SourceId
  (registrationRevision visibilityRevision : Nat)

structure TrustedRemoteContext where
  actor : TrustedSearchScope
  sourceScope : AuthorizedSourceScope
  retentionMode : RetentionMode

structure RemoteOwner where
  actor : TrustedSearchScope
  source : AuthorizedSourceScope

structure CacheKey where
  tenant : String
  source : SourceId
  principal : String
  (accessRevision registrationRevision visibilityRevision : Nat)
  operation : String
deriving DecidableEq

def cacheKey (d : DebugFormat) (context : TrustedRemoteContext) (operation : RemoteOperation) :
    CacheKey where
  tenant := context.actor.tenant
  source := context.sourceScope.sourceId
  principal := context.actor.principal
  accessRevision := context.actor.accessRevision
  registrationRevision := context.sourceScope.registrationRevision
  visibilityRevision := context.sourceScope.visibilityRevision
  operation := operationKey d operation

/-! ## The cache -/

structure CacheEntry (ι : Type) where
  key : CacheKey
  input : ι
  deadline : ClockInstant

structure RemoteResultCache (ι : Type) where
  entries : Table fun e : CacheEntry ι => e.key
  (ceiling maxEntries : Nat)

namespace RemoteResultCache

variable {ι : Type} (d : DebugFormat)

def new (ceiling maxEntries : Nat) : RemoteResultCache ι := ⟨.empty, ceiling, maxEntries⟩

def leaseUnavailable : SearchError := .sourceUnavailable "remote lease unavailable"

variable (cache : RemoteResultCache ι) (context : TrustedRemoteContext)

/-- The process clock `wall` says whether the actor is live. -/
def admitted (wall : ClockInstant) : Bool :=
  context.retentionMode = .cacheWithExpiry && decide (wall < context.actor.deadline)

/-- The answer, and the cache after it: an expired entry goes. -/
def get (operation : RemoteOperation) (now wall : ClockInstant) : Except SearchError (Option ι) ×
    RemoteResultCache ι :=
  if admitted context wall then
    match cache.entries.find (cacheKey d context operation) with
    | some entry =>
      if now < entry.deadline then (.ok (some entry.input), cache)
      else
        (.ok none, { cache with
          entries := cache.entries.remove fun e => e.key = cacheKey d context operation })
    | none => (.ok none, cache)
  else (.error leaseUnavailable, cache)

/-- When an input put at `now` expires. -/
def expiry (ceiling : Nat) (context : TrustedRemoteContext) (providerExpiry now : ClockInstant) :
    ClockInstant :=
  min (min providerExpiry (now + ceiling)) context.actor.deadline

/-- Keeps the entries that have not expired. -/
def retain (now : ClockInstant) : RemoteResultCache ι :=
  { cache with entries := cache.entries.remove fun e => !decide (now < e.deadline) }

def store (entry : CacheEntry ι) : RemoteResultCache ι :=
  { cache with entries := cache.entries.put entry }

/-- Drops expired entries before refusing; what was dropped stays dropped. -/
def put (operation : RemoteOperation) (input : ι) (providerExpiry now wall : ClockInstant) :
    Except SearchError Unit × RemoteResultCache ι :=
  if admitted context wall then
    let deadline := expiry cache.ceiling context providerExpiry now
    if deadline ≤ now then (.ok (), cache)
    else
      let entry : CacheEntry ι := ⟨cacheKey d context operation, input, deadline⟩
      if (cache.entries.find entry.key).isNone = true ∧
          cache.maxEntries ≤ cache.entries.rows.length then
        let retained := cache.retain now
        if cache.maxEntries ≤ retained.entries.rows.length then
          (.error leaseUnavailable, retained)
        else (.ok (), retained.store entry)
      else (.ok (), cache.store entry)
  else (.error leaseUnavailable, cache)

/-- The owner of a key. -/
def owns (owner : RemoteOwner) (key : CacheKey) : Bool :=
  key.tenant = owner.actor.tenant && key.principal = owner.actor.principal &&
    key.source = owner.source.sourceId

def invalidateOwner (owner : RemoteOwner) : RemoteResultCache ι :=
  { cache with entries := cache.entries.remove fun e => owns owner e.key }

end RemoteResultCache

/-! ## Keys tell operations apart -/

section

variable (d : DebugFormat)

/-- Facets whose value is no list and no set. -/
abbrev ScalarFacet : Type := { f : StructuredFacetFilter // scalar f.expected = true }

theorem facetText_delimits : Delimits fun f : ScalarFacet => facetText d f.val := by
  rintro ⟨⟨name, value⟩, scalar⟩ ⟨⟨name', value'⟩, scalar'⟩ s t same
  simp only [facetText, cons_append, append_assoc, nil_append, cons.injEq,
    true_and] at same
  obtain ⟨rfl, rest⟩ := d.quoted_delimits name name' _ _ same
  simp only [cons.injEq, true_and] at rest
  obtain ⟨rfl, tails⟩ := d.typedValue_unique scalar scalar' rest
  exact ⟨rfl, (cons.inj tails).2⟩

theorem separated_map {α β : Type} {between : List Char} {f : β → List Char} {e : α → β}
    (xs : List α) : separated between f (xs.map e) = separated between (fun x => f (e x)) xs := by
  cases xs with
  | nil => rfl
  | cons => rw [map_cons, separated_cons, separated_cons, flatMap_map]

theorem facetsText_inj {a b : List StructuredFacetFilter}
    (ha : ∀ f ∈ a, scalar f.expected = true)
    (hb : ∀ f ∈ b, scalar f.expected = true) (same : facetsText d a = facetsText d b) :
    a = b := by
  have lists : Delimits fun xs : List ScalarFacet =>
      separated [',', ' '] (fun f => facetText d f.val) xs ++ [']'] :=
    delimits_separated (facetText_delimits d) (fun f s => by simp [facetText]) (by decide)
  obtain ⟨xs, rfl⟩ : ∃ xs : List ScalarFacet, a = xs.map Subtype.val :=
    ⟨a.attachWith _ ha, (attachWith_map_subtype_val _).symm⟩
  obtain ⟨ys, rfl⟩ : ∃ ys : List ScalarFacet, b = ys.map Subtype.val :=
    ⟨b.attachWith _ hb, (attachWith_map_subtype_val _).symm⟩
  rw [facetsText, facetsText, separated_map, separated_map] at same
  rw [lists.injective (cons.inj same).2]

theorem facetsText_avoids {facets : List StructuredFacetFilter}
    (each : ∀ f ∈ facets, scalar f.expected = true) :
    unitSeparator ∉ facetsText d facets := by
  simp only [facetsText, mem_cons, mem_append, not_mem_nil, or_false, not_or]
  refine ⟨by decide, ?_, by decide⟩
  intro inside
  obtain mark | ⟨f, hf, written⟩ := mem_separated inside
  · exact absurd mark (by decide)
  · have clean : unitSeparator ∉ facetText d f := by
      simp only [facetText, mem_cons, mem_append, not_mem_nil, or_false, not_or]
      exact ⟨by decide, ⟨d.quoted_avoids f.facet, by decide, by decide⟩,
        d.typedValue_avoids (each f hf), by decide⟩
    exact clean written

theorem RemoteQueryInput.scalars (input : RemoteQueryInput) :
    ∀ f ∈ input.facets, scalar f.expected = true := by
  intro f hf
  have bounded := (input.each f hf).bounded
  revert bounded
  cases f.expected <;> first | exact fun _ => rfl | exact nofun

attribute [ext] RemoteQueryInput OpaqueNativeId OpaqueCursor

theorem separator_not_mem {text : String} (plain : text.toList.any isControl = false) :
    unitSeparator ∉ text.toList := by
  intro h
  have control := any_eq_false.mp plain unitSeparator h
  exact control (by decide)

/-- A key that says everything of a query: the text may hold separators, the rest does not. -/
theorem query_inj {p q : RemoteQueryInput}
    (same : p.text.toList ++ unitSeparator :: (Decimal.nat p.window ++
        unitSeparator :: facetsText d p.facets) =
      q.text.toList ++ unitSeparator :: (Decimal.nat q.window ++
        unitSeparator :: facetsText d q.facets)) : p = q := by
  have grouped : ∀ r : RemoteQueryInput, r.text.toList ++ unitSeparator :: (Decimal.nat r.window ++
        unitSeparator :: facetsText d r.facets) =
      (r.text.toList ++ unitSeparator :: Decimal.nat r.window) ++
        unitSeparator :: facetsText d r.facets := by
    intro r
    rw [append_assoc, cons_append]
  rw [grouped, grouped] at same
  obtain ⟨front, facets⟩ :=
    split_last (facetsText_avoids d p.scalars) (facetsText_avoids d q.scalars) same
  obtain ⟨texts, windows⟩ :=
    split_last (nat_avoids rfl) (nat_avoids rfl) front
  exact RemoteQueryInput.ext (String.toList_inj.mp texts)
    (facetsText_inj d p.scalars q.scalars facets) (nat_injective windows)

/-- Two live queries of one text. -/
def SameLiveText (a b : RemoteOperation) : Prop :=
  ∃ x y p q, a = .live x ∧ b = .live y ∧ x.query = some p ∧ y.query = some q ∧ p.text = q.text

def LiveInput.nativeText (input : LiveInput) : String :=
  (input.nativeId.map OpaqueNativeId.value).getD ""

theorem OpaqueNativeId.value_ne_empty (id : OpaqueNativeId) : id.value ≠ "" := by
  intro empty
  have present := id.present
  rw [empty] at present
  exact absurd present (by decide)

theorem LiveInput.nativeText_avoids (input : LiveInput) :
    unitSeparator ∉ input.nativeText.toList := by
  unfold nativeText
  cases input.nativeId with
  | none => exact not_mem_nil
  | some id => exact separator_not_mem id.plain

theorem LiveInput.kinds (x : LiveInput) :
    (∃ query, x = ⟨some query, none, rfl⟩) ∨ ∃ nativeId, x = ⟨none, some nativeId, rfl⟩ := by
  obtain ⟨_ | query, _ | nativeId, one⟩ := x
  · cases one
  · exact .inr ⟨nativeId, rfl⟩
  · exact .inl ⟨query, rfl⟩
  · cases one

theorem cursor_inj {x y : Option OpaqueCursor}
    (same : (x.map OpaqueCursor.value).getD "" = (y.map OpaqueCursor.value).getD "") : x = y := by
  cases x with
  | none =>
    cases y with
    | none => rfl
    | some c => exact absurd same.symm c.valid.1
  | some c =>
    cases y with
    | none => exact absurd same c.valid.1
    | some => exact congrArg some (OpaqueCursor.ext same)

def RemoteOperation.name : RemoteOperation → String
  | .enumerate _ => "enumerate"
  | .query _ => "query"
  | .lookup _ => "lookup"
  | .live _ => "live"

theorem operationText_name (operation : RemoteOperation) :
    ∃ rest, operationText d operation = operation.name.toList ++ unitSeparator :: rest := by
  cases operation <;> exact ⟨_, rfl⟩

theorem name_avoids (operation : RemoteOperation) : unitSeparator ∉ operation.name.toList := by
  cases operation <;> rw [RemoteOperation.name] <;> decide

/-- Two operations with one key are the same, or are live queries of one text. -/
theorem operationKey_inj {a b : RemoteOperation} (same : operationKey d a = operationKey d b) :
    a = b ∨ SameLiveText a b := by
  have same : operationText d a = operationText d b := String.ofList_inj.mp same
  have names : a.name = b.name := by
    obtain ⟨s, hs⟩ := operationText_name d a
    obtain ⟨t, ht⟩ := operationText_name d b
    rw [hs, ht] at same
    exact String.toList_inj.mp (split_first (name_avoids a) (name_avoids b) same).1
  cases a <;> cases b <;> first
    | exact absurd names (by simp only [RemoteOperation.name]; decide)
    | skip
  all_goals
    have rest := (cons.inj (append_cancel_left same)).2
  case enumerate.enumerate x y =>
    rw [cursor_inj (String.toList_inj.mp rest)]
    exact .inl rfl
  case query.query p q =>
    rw [query_inj d rest]
    exact .inl rfl
  case lookup.lookup x y =>
    rw [OpaqueNativeId.ext (String.toList_inj.mp rest)]
    exact .inl rfl
  case live.live x y _ =>
    obtain ⟨texts, ids⟩ := split_last x.nativeText_avoids y.nativeText_avoids rest
    have texts := String.toList_inj.mp texts
    have ids := String.toList_inj.mp ids
    -- A lookup names something and a query does not, so the two kinds keep apart.
    obtain ⟨p, rfl⟩ | ⟨id, rfl⟩ := x.kinds <;> obtain ⟨q, rfl⟩ | ⟨id', rfl⟩ := y.kinds
    · exact .inr ⟨_, _, p, q, rfl, rfl, rfl, rfl, texts⟩
    · exact absurd ids.symm id'.value_ne_empty
    · exact absurd ids id.value_ne_empty
    · cases OpaqueNativeId.ext (x := id) (y := id') ids
      exact .inl rfl

/-- The key of a live query leaves out its facets and its window. -/
theorem operationKey_live {a b : RemoteOperation} (h : SameLiveText a b) :
    operationKey d a = operationKey d b := by
  obtain ⟨x, y, p, q, rfl, rfl, asked, asked', texts⟩ := h
  have keyed : ∀ r : RemoteQueryInput, operationKey d (.live ⟨some r, none, rfl⟩) =
      String.ofList ("live".toList ++ unitSeparator ::
        (r.text.toList ++ unitSeparator :: "".toList)) := fun _ => rfl
  obtain ⟨_, rfl⟩ | ⟨_, rfl⟩ := x.kinds <;> cases asked
  obtain ⟨_, rfl⟩ | ⟨_, rfl⟩ := y.kinds <;> cases asked'
  rw [keyed, keyed, texts]

end

/-! ## Runs -/

inductive CacheCall (ι : Type) where
  | put (context : TrustedRemoteContext) (operation : RemoteOperation) (input : ι)
      (providerExpiry now wall : ClockInstant)
  | get (context : TrustedRemoteContext) (operation : RemoteOperation) (now wall : ClockInstant)
  | invalidateOwner (owner : RemoteOwner)

namespace CacheCall

variable {ι : Type}

def operation : CacheCall ι → Option RemoteOperation
  | put _ operation .. => some operation
  | get _ operation .. => some operation
  | invalidateOwner _ => none

def run (d : DebugFormat) (cache : RemoteResultCache ι) : CacheCall ι → RemoteResultCache ι
  | put context operation input providerExpiry now wall =>
    (cache.put d context operation input providerExpiry now wall).2
  | get context operation now wall => (cache.get d context operation now wall).2
  | invalidateOwner owner => cache.invalidateOwner owner

/-- What a call puts into the cache, if it does. -/
def entry (d : DebugFormat) (ceiling : Nat) : CacheCall ι → Option (CacheEntry ι)
  | put context operation input providerExpiry now _ =>
    some ⟨cacheKey d context operation, input,
      RemoteResultCache.expiry ceiling context providerExpiry now⟩
  | _ => none

end CacheCall

section

variable {ι : Type} {d : DebugFormat} {cache : RemoteResultCache ι} {entry : CacheEntry ι}
  {trace : List (CacheCall ι)} {ceiling maxEntries : Nat}

open RemoteResultCache

def CacheStep (d : DebugFormat) (s : RemoteResultCache ι) (call : CacheCall ι)
    (t : RemoteResultCache ι) : Prop :=
  call.run d s = t

theorem mem_store {new : CacheEntry ι} (h : entry ∈ (cache.store new).entries) :
    entry ∈ cache.entries ∨ entry = new := by
  obtain ⟨kept, -⟩ | rfl := Table.mem_put.mp h
  · exact .inl kept
  · exact .inr rfl

variable {now : ClockInstant}

theorem mem_retain (h : entry ∈ (cache.retain now).entries) :
    entry ∈ cache.entries :=
  (Table.mem_remove.mp h).1

/-- What a call can leave in the cache: what was there, or what it puts. -/
theorem mem_run {call : CacheCall ι} (h : entry ∈ (call.run d cache).entries) :
    (entry ∈ cache.entries ∧
        ∀ owner, call = .invalidateOwner owner → owns owner entry.key = false) ∨
      call.entry d cache.ceiling = some entry := by
  cases call with
  | invalidateOwner =>
    obtain ⟨there, other⟩ := Table.mem_remove.mp h
    refine .inl ⟨there, ?_⟩
    rintro _ ⟨⟩
    exact other
  | get =>
    refine .inl ⟨?_, by rintro _ ⟨⟩⟩
    simp only [CacheCall.run, RemoteResultCache.get] at h
    split at h
    · split at h
      · split at h
        · exact h
        · exact (Table.mem_remove.mp h).1
      · exact h
    · exact h
  | put =>
    simp only [CacheCall.run, RemoteResultCache.put] at h
    split at h
    · split at h
      · exact .inl ⟨h, by rintro _ ⟨⟩⟩
      · split at h
        · split at h
          · exact .inl ⟨mem_retain h, by rintro _ ⟨⟩⟩
          · obtain kept | rfl := mem_store h
            · exact .inl ⟨mem_retain kept, by rintro _ ⟨⟩⟩
            · exact .inr rfl
        · obtain kept | rfl := mem_store h
          · exact .inl ⟨kept, by rintro _ ⟨⟩⟩
          · exact .inr rfl
    · exact .inl ⟨h, by rintro _ ⟨⟩⟩

theorem run_ceiling (call : CacheCall ι) : (call.run d cache).ceiling = cache.ceiling := by
  cases call with
  | invalidateOwner => rfl
  | get | put =>
    simp only [CacheCall.run, RemoteResultCache.get, RemoteResultCache.put]
    repeat' split
    all_goals rfl

/-- An entry that an earlier call put and that no later call invalidated. -/
def Backed (d : DebugFormat) (ceiling : Nat) (trace : List (CacheCall ι)) (entry : CacheEntry ι) :
    Prop :=
  ∃ newer call older, trace = newer ++ call :: older ∧ call.entry d ceiling = some entry ∧
    ∀ owner, .invalidateOwner owner ∈ newer → owns owner entry.key = false

theorem run_backed (run : Run (CacheStep d) (new ceiling maxEntries) trace cache) :
    cache.ceiling = ceiling ∧ ∀ entry ∈ cache.entries, Backed d ceiling trace entry := by
  induction run with
  | start => exact ⟨rfl, fun _ none => absurd none Table.not_mem_empty⟩
  | @next trace s call t _ step ih =>
    obtain ⟨same, backed⟩ := ih
    cases step
    refine ⟨(run_ceiling call).trans same, ?_⟩
    intro entry there
    obtain ⟨kept, other⟩ | put := mem_run there
    · obtain ⟨newer, call', older, rfl, put, clear⟩ := backed entry kept
      refine ⟨call :: newer, call', older, rfl, put, ?_⟩
      intro owner hit
      obtain here | earlier := mem_cons.mp hit
      · exact other owner here.symm
      · exact clear owner earlier
    · rw [same] at put
      exact ⟨[], call, trace, rfl, put, nofun⟩

variable {context : TrustedRemoteContext} {operation : RemoteOperation}

theorem get_hit {wall : ClockInstant} {input : ι}
    (h : (cache.get d context operation now wall).1 = .ok (some input)) :
    ∃ entry ∈ cache.entries, entry.key = cacheKey d context operation ∧ entry.input = input ∧
      now < entry.deadline := by
  simp only [RemoteResultCache.get] at h
  split at h
  · split at h
    next entry found =>
      obtain ⟨there, keyed⟩ := Table.find_iff.mp found
      split at h
      next unexpired =>
        cases h
        exact ⟨entry, there, keyed, rfl, unexpired⟩
      · cases h
    · cases h
  · cases h

/-- The two contexts are of one tenant, source and principal, at one access, registration and
visibility revision. -/
structure SameRequester (a b : TrustedRemoteContext) : Prop where
  tenant : a.actor.tenant = b.actor.tenant
  source : a.sourceScope.sourceId = b.sourceScope.sourceId
  principal : a.actor.principal = b.actor.principal
  access : a.actor.accessRevision = b.actor.accessRevision
  registration : a.sourceScope.registrationRevision = b.sourceScope.registrationRevision
  visibility : a.sourceScope.visibilityRevision = b.sourceScope.visibilityRevision

/-- The owner is of the context's tenant, source and principal. -/
def RemoteOwner.Covers (owner : RemoteOwner) (context : TrustedRemoteContext) : Prop :=
  owner.actor.tenant = context.actor.tenant ∧ owner.actor.principal = context.actor.principal ∧
    owner.source.sourceId = context.sourceScope.sourceId

/-- An earlier put of the input, by the same requester and for the same operation, that has not
expired at `now` and was not invalidated since. -/
def Supplied (ceiling : Nat) (trace : List (CacheCall ι)) (context : TrustedRemoteContext)
    (operation : RemoteOperation) (now : ClockInstant) (input : ι) : Prop :=
  ∃ newer older giver providerExpiry since wall,
    trace = newer ++ .put giver operation input providerExpiry since wall :: older ∧
      SameRequester giver context ∧
      (now < providerExpiry ∧ now < since + ceiling ∧ now < giver.actor.deadline) ∧
      ∀ owner, .invalidateOwner owner ∈ newer → ¬ owner.Covers context

/-- A hit is an earlier put under the same key. -/
theorem hit_supplied (run : Run (CacheStep d) (new ceiling maxEntries) trace cache)
    {wall : ClockInstant} {input : ι}
    (hit : (cache.get d context operation now wall).1 = .ok (some input)) :
    ∃ asked, operationKey d asked = operationKey d operation ∧
      (∃ call ∈ trace, call.operation = some asked) ∧
      Supplied ceiling trace context asked now input := by
  obtain ⟨entry, there, keyed, rfl, unexpired⟩ := get_hit hit
  obtain ⟨newer, call, older, rfl, put, clear⟩ := (run_backed run).2 entry there
  cases call with
  | get | invalidateOwner => cases put
  | put giver asked input providerExpiry since wall =>
    cases put
    obtain ⟨tenant, source, principal, access, registration, visibility, operations⟩ :=
      CacheKey.mk.inj keyed
    refine ⟨asked, operations, ⟨_, mem_append_cons_self, rfl⟩, newer, older, giver,
      providerExpiry, since, wall, rfl,
      ⟨tenant, source, principal, access, registration, visibility⟩, ?_, ?_⟩
    · rw [expiry, lt_min_iff, lt_min_iff] at unexpired
      exact ⟨unexpired.1.1, unexpired.1.2, unexpired.2⟩
    · intro owner invalidated covers
      have other := clear owner invalidated
      rw [keyed] at other
      simp [owns, cacheKey, covers.1, covers.2.1, covers.2.2] at other

end

/-! ## The law -/

def sampleContext : TrustedRemoteContext where
  actor := ⟨"tenant", "principal", 1, 2⟩
  sourceScope := ⟨.filled 1, 1, 1⟩
  retentionMode := .cacheWithExpiry

/-- A first put is found under every operation of the same key. -/
theorem first_put_found {ι : Type} {d : DebugFormat} {a b : RemoteOperation} {input : ι}
    (keys : operationKey d a = operationKey d b) :
    (((CacheCall.put sampleContext a input 2 0 0).run d (.new 2 1)).get d sampleContext b 0 0).1 =
      .ok (some input) := by
  have stored : (CacheCall.put sampleContext a input 2 0 0).run d (.new 2 1) =
      (RemoteResultCache.new 2 1).store ⟨cacheKey d sampleContext a, input, 2⟩ := rfl
  have found : (((RemoteResultCache.new 2 1).store
      ⟨cacheKey d sampleContext a, input, 2⟩).entries).find (cacheKey d sampleContext b) =
        some ⟨cacheKey d sampleContext a, input, 2⟩ := by
    apply Table.find_iff.mpr
    refine ⟨Table.mem_put.mpr (.inr rfl), ?_⟩
    rw [cacheKey, cacheKey, keys]
  rw [stored]
  simp only [RemoteResultCache.get, found]
  rfl

/-- Every hit of the cache is a result of the same request, in every run of operations among which
no two live queries of one text differ, and in no larger family of runs. -/
theorem remote_cache_same_request_iff {ι : Type} [Inhabited ι] (d : DebugFormat)
    (admits : RemoteOperation → Prop) :
    (∀ (ceiling maxEntries : Nat) (trace : List (CacheCall ι)) (cache : RemoteResultCache ι)
        (context : TrustedRemoteContext) (operation : RemoteOperation) (now wall : ClockInstant)
        (input : ι), Run (CacheStep d) (.new ceiling maxEntries) trace cache →
      (∀ call ∈ trace, ∀ asked, call.operation = some asked → admits asked) → admits operation →
      (cache.get d context operation now wall).1 = .ok (some input) →
      Supplied ceiling trace context operation now input) ↔
    ∀ a b, admits a → admits b → SameLiveText a b → a = b := by
  constructor
  · intro law a b ha hb texts
    have run : Run (CacheStep d) (.new 2 1) [CacheCall.put sampleContext a (default : ι) 2 0 0] _ :=
      Run.start.next rfl
    have asked : ∀ call ∈ [CacheCall.put sampleContext a (default : ι) 2 0 0], ∀ asked,
        call.operation = some asked → admits asked := by
      intro call here asked same
      cases mem_singleton.mp here
      cases same
      exact ha
    obtain ⟨newer, older, giver, providerExpiry, since, wall, trace, -⟩ :=
      law 2 1 _ _ sampleContext b 0 0 default run asked hb
        (first_put_found (operationKey_live d texts))
    obtain ⟨-, put⟩ | ⟨-, none⟩ := append_eq_singleton_iff.mp trace.symm
    · cases put
      rfl
    · cases none
  · intro apart ceiling maxEntries trace cache context operation now wall input run asked admitted
      hit
    obtain ⟨given, keys, ⟨call, called, named⟩, supplied⟩ := hit_supplied run hit
    obtain rfl | texts := operationKey_inj d keys
    · exact supplied
    · rw [apart given operation (asked call called given named) admitted texts] at supplied
      exact supplied

/-! ### One text, two windows -/

def sampleFormat : DebugFormat where
  unprintable := isControl
  date v := Decimal.int v.julianDay
  dateTime t := Decimal.int (t.unixTimestampNanos * 10 ^ 6 + t.offsetSeconds)
  duration v := Decimal.int v.wholeNanoseconds.val
  unprintable_separator := rfl
  date_injective a b same := by
    cases a
    cases b
    cases int_injective same
    rfl
  dateTime_injective a b same := by
    obtain ⟨nanos, offset, few⟩ := a
    obtain ⟨nanos', offset', few'⟩ := b
    have number := int_injective same
    -- An offset is less than half a million, so the number has both parts.
    simp only [Graph.maxOffset] at few few' number
    obtain ⟨rfl, rfl⟩ : nanos = nanos' ∧ offset = offset' := by omega
    rfl
  duration_injective a b same := by
    cases a
    cases b
    cases Subtype.ext (int_injective same)
    rfl
  date_bracketed _ :=
    ⟨int_avoids (by decide) rfl, int_avoids (by decide) rfl⟩
  dateTime_bracketed _ :=
    ⟨int_avoids (by decide) rfl, int_avoids (by decide) rfl⟩
  duration_bracketed _ :=
    ⟨int_avoids (by decide) rfl, int_avoids (by decide) rfl⟩

def sampleQuery (window : Nat) (page : 0 < window ∧ window ≤ maxHitsPerPage) :
    RemoteQueryInput where
  text := "text"
  facets := []
  window := window
  short := by decide
  asks := by decide
  few := by decide
  page := page
  each := by intro f none; cases none
  distinct := List.nodup_nil

def sampleLive (window : Nat) (page : 0 < window ∧ window ≤ maxHitsPerPage) : RemoteOperation :=
  .live ⟨some (sampleQuery window page), none, rfl⟩

/-- A live query for two hits is answered with what was put for a query of one hit. -/
theorem live_window_ignored :
    RemoteQueryInput.new (fun _ _ _ => some 13) "text" [] 1 [] =
        .ok (sampleQuery 1 (by decide)) ∧
      RemoteQueryInput.new (fun _ _ _ => some 13) "text" [] 2 [] =
        .ok (sampleQuery 2 (by decide)) ∧
      ∃ (trace : List (CacheCall Nat)) (cache : RemoteResultCache Nat),
        Run (CacheStep sampleFormat) (.new 2 1) trace cache ∧
          (cache.get sampleFormat sampleContext (sampleLive 2 (by decide)) 0 0).1 = .ok (some 7) ∧
          ¬ Supplied 2 trace sampleContext (sampleLive 2 (by decide)) 0 7 := by
  refine ⟨rfl, rfl, [.put sampleContext (sampleLive 1 (by decide)) 7 2 0 0], _, Run.start.next rfl,
    first_put_found ?_, ?_⟩
  · exact operationKey_live _ ⟨_, _, _, _, rfl, rfl, rfl, rfl, rfl⟩
  · rintro ⟨newer, older, giver, providerExpiry, since, wall, trace, -⟩
    obtain ⟨-, put⟩ | ⟨-, none⟩ := append_eq_singleton_iff.mp trace.symm
    · have windows := congrArg CacheCall.operation (cons.inj put).1
      have same : (sampleQuery 2 (by decide)) = sampleQuery 1 (by decide) := by
        simpa [CacheCall.operation, sampleLive] using windows
      exact absurd (congrArg RemoteQueryInput.window same) (by decide)
    · cases none

end KnowledgePlatform.Search
