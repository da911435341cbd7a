import KnowledgePlatform.Lib.OrderedMap
import KnowledgePlatform.Lib.Run

/-! Public cursors: random handles, each good for one use by the actor it was issued to. -/

namespace KnowledgePlatform.Search.Cursor

open List

inductive ApiError where
  | serviceUnavailable
  | cursorStale

/-- What a cursor is bound to of an actor. Texts are shorter than `2 ^ 64` bytes. -/
structure Actor where
  (tenant principal : String)
  session : Option Uuid
  accessRevision : UInt64
  sized : (utf8 tenant.toList).length < 2 ^ 64 ∧ (utf8 principal.toList).length < 2 ^ 64
deriving DecidableEq

/-- The default of sixteen bytes. -/
def noSession : Uuid := ⟨bigEndian 16 0, length_bigEndian 16 0⟩

def ownerBytes (actor : Actor) : Bytes :=
  framed (utf8 actor.tenant.toList) ++ (framed (utf8 actor.principal.toList) ++
    (framed (actor.session.getD noSession).bytes ++
      framed (bigEndian 8 actor.accessRevision.toNat)))

def ownerDigest (sha256 : Bytes → Digest) (actor : Actor) : Digest := sha256 (ownerBytes actor)

/-- What a binding is made from; the pinned generations are only compared. -/
structure Continuation (γ : Type) where
  actor : Actor
  (request stamp : Digest)
  generations : γ

structure CursorBinding (γ : Type) where
  (owner request stamp : Digest)
  generations : γ
deriving DecidableEq

variable {γ : Type}

def CursorBinding.new (sha256 : Bytes → Digest) (c : Continuation γ) : CursorBinding γ :=
  ⟨ownerDigest sha256 c.actor, c.request, c.stamp, c.generations⟩

/-- Instants and durations are in nanoseconds. -/
def cursorAbsolute : Int := 300 * 10 ^ 9
def cursorIdle : Int := 60 * 10 ^ 9
def maxCursors : Nat := 4096

structure Entry (γ : Type) where
  binding : CursorBinding γ
  position : Nat
  (issued lastUsed : Int)

def Entry.live (entry : Entry γ) (now : Int) : Bool :=
  now < entry.issued + cursorAbsolute && now < entry.lastUsed + cursorIdle

abbrev Entries (γ : Type) := OrderedMap Uuid (Entry γ)

/-- The entries left when there is no room: those that live. -/
def makeRoom (entries : Entries γ) (now : Int) : Entries γ :=
  if maxCursors ≤ entries.size then entries.filter fun _ entry => entry.live now else entries

/-- `handle` is the first drawn that is not in use. -/
def issue (entries : Entries γ) (now : Int) (handle : Uuid) (binding : CursorBinding γ)
    (position : Nat) : Except ApiError Uuid × Entries γ :=
  let room := makeRoom entries now
  if maxCursors ≤ room.size then (.error .serviceUnavailable, room)
  else (.ok handle, room.insert handle ⟨binding, position, now, now⟩)

def consume [DecidableEq γ] (entries : Entries γ) (now : Int) (handle : Uuid)
    (binding : CursorBinding γ) : Except ApiError Nat × Entries γ :=
  match entries.get handle with
  | none => (.error .cursorStale, entries)
  | some entry =>
    (if entry.live now = true ∧ entry.binding = binding then .ok entry.position
      else .error .cursorStale, entries.erase handle)

def invalidateOwner (sha256 : Bytes → Digest) (entries : Entries γ) (actor : Actor) : Entries γ :=
  entries.filter fun _ entry => entry.binding.owner ≠ ownerDigest sha256 actor

/-! ## Runs -/

inductive Event (γ : Type) where
  | issued (now : Int) (handle : Uuid) (made : Continuation γ) (position : Nat)
  | refused
  | consumed (now : Int) (handle : Uuid) (used : Continuation γ) (reply : Except ApiError Nat)
  | invalidated (actor : Actor)

def Event.handle : Event γ → Option Uuid
  | .issued _ handle _ _ => some handle
  | _ => none

def Event.actor : Event γ → Option Actor
  | .issued _ _ made _ => some made.actor
  | .consumed _ _ used _ => some used.actor
  | .invalidated actor => some actor
  | .refused => none

/-- The store and the last instant its clock gave. -/
structure State (γ : Type) where
  entries : Entries γ
  clock : Int

inductive Step [DecidableEq γ] (sha256 : Bytes → Digest) (s : State γ) :
    Event γ → State γ → Prop where
  | issued (now : Int) (handle : Uuid) (made : Continuation γ) (position : Nat) (t : Entries γ)
      (later : s.clock ≤ now) (unused : (makeRoom s.entries now).get handle = none)
      (h : issue s.entries now handle (.new sha256 made) position = (.ok handle, t)) :
    Step sha256 s (.issued now handle made position) ⟨t, now⟩
  | refused (now : Int) (handle : Uuid) (made : Continuation γ) (position : Nat) (e : ApiError)
      (t : Entries γ) (later : s.clock ≤ now)
      (h : issue s.entries now handle (.new sha256 made) position = (.error e, t)) :
    Step sha256 s .refused ⟨t, now⟩
  | consumed (now : Int) (handle : Uuid) (used : Continuation γ) (later : s.clock ≤ now) :
    Step sha256 s (.consumed now handle used (consume s.entries now handle (.new sha256 used)).1)
      ⟨(consume s.entries now handle (.new sha256 used)).2, now⟩
  | invalidated (actor : Actor) :
    Step sha256 s (.invalidated actor) ⟨invalidateOwner sha256 s.entries actor, s.clock⟩

/-! ## Owners -/

theorem bigEndian8_inj {m n : Nat} (hm : m < 2 ^ 64) (hn : n < 2 ^ 64)
    (h : bigEndian 8 m = bigEndian 8 n) : m = n := by
  have same := bigEndian_inj h
  omega

theorem framed_append_inj {x y s t : Bytes} (hx : x.length < 2 ^ 64) (hy : y.length < 2 ^ 64)
    (h : framed x ++ s = framed y ++ t) : x = y ∧ s = t := by
  rw [framed, framed, append_assoc, append_assoc] at h
  obtain ⟨sizes, rest⟩ := append_inj h (by rw [length_bigEndian, length_bigEndian])
  exact append_inj rest (bigEndian8_inj hx hy sizes)

theorem ownerBytes_inj {a b : Actor} (ha : a.session ≠ some noSession)
    (hb : b.session ≠ some noSession) (h : ownerBytes a = ownerBytes b) : a = b := by
  have fixed (u : Uuid) : u.bytes.length < 2 ^ 64 := by
    rw [u.size]
    decide
  obtain ⟨tenants, h⟩ := framed_append_inj a.sized.1 b.sized.1 h
  obtain ⟨principals, h⟩ := framed_append_inj a.sized.2 b.sized.2 h
  obtain ⟨sessions, h⟩ := framed_append_inj (fixed _) (fixed _) h
  obtain ⟨-, revisions⟩ := append_inj h (by rw [length_bigEndian, length_bigEndian])
  have sessions : a.session = b.session := by
    have same := Uuid.ext_bytes sessions
    cases hsa : a.session <;> cases hsb : b.session <;> simp_all
  have revisions : a.accessRevision = b.accessRevision :=
    UInt64.toNat_inj.mp
      (bigEndian8_inj a.accessRevision.toNat_lt b.accessRevision.toNat_lt revisions)
  have tenants := String.toList_injective (utf8_inj tenants)
  have principals := String.toList_injective (utf8_inj principals)
  cases a
  cases b
  simp_all

/-! ## What an entry stands for -/

variable {sha256 : Bytes → Digest} {trace newer older : List (Event γ)} {clock clock' : Int}
  {handle : Uuid} {entry : Entry γ} {e : Event γ}

/-- The entry was issued so, and since then neither used nor its owner invalidated. -/
def Issued (sha256 : Bytes → Digest) (trace : List (Event γ)) (clock : Int) (handle : Uuid)
    (entry : Entry γ) : Prop :=
  ∃ newer older made, trace = newer ++ .issued entry.issued handle made entry.position :: older ∧
    entry.binding = .new sha256 made ∧ entry.lastUsed = entry.issued ∧ entry.issued ≤ clock ∧
    (∀ now used reply, .consumed now handle used reply ∉ newer) ∧
    ∀ actor, .invalidated actor ∈ newer → entry.binding.owner ≠ ownerDigest sha256 actor

theorem Issued.later (h : Issued sha256 trace clock handle entry) (le : clock ≤ clock')
    (unused : ∀ now used reply, e ≠ .consumed now handle used reply)
    (kept : ∀ actor, e = .invalidated actor → entry.binding.owner ≠ ownerDigest sha256 actor) :
    Issued sha256 (e :: trace) clock' handle entry := by
  obtain ⟨newer, older, made, rfl, bound, idle, past, once, owned⟩ := h
  refine ⟨e :: newer, older, made, rfl, bound, idle, past.trans le, ?_, ?_⟩
  · intro now used reply inside
    obtain rfl | inside := mem_cons.mp inside
    · exact unused now used reply rfl
    · exact once now used reply inside
  · intro actor inside
    obtain rfl | inside := mem_cons.mp inside
    · exact kept actor rfl
    · exact owned actor inside

theorem makeRoom_get {entries : Entries γ} {now : Int}
    (h : (makeRoom entries now).get handle = some entry) : entries.get handle = some entry := by
  unfold makeRoom at h
  split at h
  · rw [OrderedMap.get_filter] at h
    exact (Option.filter_eq_some_iff.mp h).1
  · exact h

variable [DecidableEq γ] {s t : State γ}

theorem Step.issuedAll (h : Step sha256 s e t)
    (before : ∀ handle entry, s.entries.get handle = some entry →
      Issued sha256 trace s.clock handle entry)
    (handle : Uuid) (entry : Entry γ) (there : t.entries.get handle = some entry) :
    Issued sha256 (e :: trace) t.clock handle entry := by
  cases h with
  | issued _ _ made _ _ later _ h =>
    simp only [issue] at h
    split at h
    · cases h
    · cases h
      rw [OrderedMap.get_insert] at there
      split at there
      next same =>
        cases there
        subst same
        exact ⟨[], trace, made, rfl, rfl, rfl, le_rfl, nofun, nofun⟩
      · exact (before handle entry (makeRoom_get there)).later later nofun nofun
  | refused _ _ _ _ _ _ later h =>
    simp only [issue] at h
    split at h
    · cases h
      exact (before handle entry (makeRoom_get there)).later later nofun nofun
    · cases h
  | consumed _ k _ later =>
    have kept : handle ≠ k ∧ s.entries.get handle = some entry := by
      simp only [consume] at there
      split at there
      next absent =>
        refine ⟨?_, there⟩
        rintro rfl
        rw [absent] at there
        cases there
      · rw [OrderedMap.get_erase] at there
        split at there
        · cases there
        · exact ⟨by assumption, there⟩
    refine (before handle entry kept.2).later later ?_ nofun
    intro now' used' reply same
    cases same
    exact kept.1 rfl
  | invalidated =>
    simp only [invalidateOwner, OrderedMap.get_filter] at there
    obtain ⟨held, differs⟩ := Option.filter_eq_some_iff.mp there
    refine (before handle entry held).later le_rfl nofun ?_
    intro other same
    cases same
    simpa using differs

theorem issuedAll_run {start : Int} (run : Run (Step sha256) ⟨.empty, start⟩ trace s) :
    ∀ handle entry, s.entries.get handle = some entry →
      Issued sha256 trace s.clock handle entry := by
  refine run.invariant (P := fun trace s => ∀ handle entry, s.entries.get handle = some entry →
    Issued sha256 trace s.clock handle entry) ?_ ?_
  · intro handle entry there
    cases there
  · intro _ _ _ _ before step
    exact step.issuedAll before

/-- A successful use finds the entry, live and with the binding of the user. -/
theorem Step.used {now : Int} {used : Continuation γ} {position : Nat}
    (h : Step sha256 s (.consumed now handle used (.ok position)) t) :
    ∃ entry, s.entries.get handle = some entry ∧ s.clock ≤ now ∧ entry.live now = true ∧
      entry.binding = .new sha256 used ∧ entry.position = position := by
  generalize label : Event.consumed now handle used (.ok position) = event at h
  cases h with
  | consumed _ _ _ later =>
    rw [Event.consumed.injEq] at label
    obtain ⟨rfl, rfl, rfl, reply⟩ := label
    simp only [consume] at reply
    split at reply
    · cases reply
    next entry found =>
      simp only at reply
      split at reply
      next fits =>
        exact ⟨entry, found, later, fits.1, fits.2, (Except.ok.inj reply).symm⟩
      · cases reply
  | issued | refused | invalidated => cases label

/-- A use succeeds only for what the handle was issued for, within both lifetimes, if its owner has
not been invalidated since, and if no use succeeded before. No session is the nil UUID. -/
theorem cursors_single_use {start now : Int} {used : Continuation γ} {position : Nat}
    (run : Run (Step sha256) ⟨.empty, start⟩ trace s)
    (taken : trace = newer ++ .consumed now handle used (.ok position) :: older)
    (distinct : (trace.filterMap Event.handle).Nodup)
    (collisionFree : ∀ a ∈ trace.filterMap Event.actor, ∀ b ∈ trace.filterMap Event.actor,
      ownerDigest sha256 a = ownerDigest sha256 b → ownerBytes a = ownerBytes b)
    (sessions : ∀ a ∈ trace.filterMap Event.actor, a.session ≠ some noSession) :
    (∃ between before since, older = between ++ .issued since handle used position :: before ∧
      since ≤ now ∧ now < since + cursorAbsolute ∧ now < since + cursorIdle ∧
      .invalidated used.actor ∉ between) ∧
    ∀ now' used' position', .consumed now' handle used' (.ok position') ∉ older := by
  subst taken
  obtain ⟨a, b, earlier, step, -⟩ := run.split
  obtain ⟨entry, found, later, live, bound, rfl⟩ := step.used
  obtain ⟨between, before, made, rfl, issued, idle, past, once, owned⟩ :=
    issuedAll_run earlier handle entry found
  have same : made = used := by
    have parts := issued.symm.trans bound
    simp only [CursorBinding.new, CursorBinding.mk.injEq] at parts
    obtain ⟨owners, requests, stamps, generations⟩ := parts
    have actors := ownerBytes_inj (sessions made.actor (by simp [Event.actor]))
      (sessions used.actor (by simp [Event.actor]))
      (collisionFree _ (by simp [Event.actor]) _ (by simp [Event.actor]) owners)
    cases made
    cases used
    simp_all
  subst same
  simp only [Entry.live, Bool.and_eq_true, decide_eq_true_eq, idle] at live
  refine ⟨⟨between, before, entry.issued, rfl, past.trans later, live.1, live.2, ?_⟩, ?_⟩
  · intro ended
    exact owned made.actor ended (by rw [issued]; rfl)
  · intro now' used' position' inside
    obtain inside | inside := mem_append.mp inside
    · exact once now' used' _ inside
    obtain same | inside := mem_cons.mp inside
    · cases same
    -- An earlier success would need an earlier issue of the same handle.
    obtain ⟨more, first, rfl⟩ := append_of_mem inside
    obtain ⟨_, _, earlier, -, -⟩ := earlier.split
    obtain ⟨_, _, earlier, step, -⟩ := earlier.split
    obtain ⟨other, there, -⟩ := step.used
    obtain ⟨_, _, made', rfl, -⟩ := issuedAll_run earlier handle other there
    simp only [filterMap_append, filterMap_cons, Event.handle] at distinct
    have unique := (nodup_cons.mp distinct.of_append_right.of_append_right).1
    exact unique (by simp)

/-! A handle of an actor without a session, used by one whose session is the nil UUID. -/

def sampleActor (session : Option Uuid) : Actor :=
  ⟨"t", "p", session, 1, by decide⟩

def sampleUse (session : Option Uuid) : Continuation Unit :=
  ⟨sampleActor session, .filled 0, .filled 0, ()⟩

/-- A use of the first handle succeeds when the two owners have the same bytes. -/
theorem sample_run (sha256 : Bytes → Digest) (other : Option Uuid)
    (same : ownerBytes (sampleActor other) = ownerBytes (sampleActor none)) :
    ∃ s, Run (Step sha256) ⟨.empty, 0⟩ [.consumed 1 noSession (sampleUse other) (.ok 7),
      .issued 0 noSession (sampleUse none) 7] s := by
  have first : Run (Step sha256) ⟨.empty, 0⟩ [.issued 0 noSession (sampleUse none) 7] _ :=
    Run.start.next (.issued 0 noSession (sampleUse none) 7 _ le_rfl rfl rfl)
  have bindings : CursorBinding.new sha256 (sampleUse other) = .new sha256 (sampleUse none) := by
    simp only [CursorBinding.new, sampleUse, ownerDigest, same]
  have second := first.next (.consumed 1 noSession (sampleUse other) zero_le_one)
  have reply : (consume (OrderedMap.empty.insert noSession
      ⟨.new sha256 (sampleUse none), 7, 0, 0⟩) 1 noSession (.new sha256 (sampleUse other))).1 =
        .ok 7 := by
    simp [consume, bindings, OrderedMap.get_insert, Entry.live, cursorAbsolute, cursorIdle]
  exact ⟨_, reply ▸ second⟩

theorem cursors_single_use_sample :
    (∃ (between before : List (Event Unit)) (since : Int),
      [.issued 0 noSession (sampleUse none) 7] =
        between ++ .issued since noSession (sampleUse none) 7 :: before ∧
      since ≤ 1 ∧ 1 < since + cursorAbsolute ∧ 1 < since + cursorIdle ∧
      .invalidated (sampleActor none) ∉ between) ∧
    ∀ now' used' position', .consumed now' noSession used' (.ok position') ∉
      [Event.issued 0 noSession (sampleUse none) 7] := by
  obtain ⟨s, run⟩ := sample_run (fun _ => (sampleUse none).request) none rfl
  refine cursors_single_use run (nil_append _).symm (by decide) ?_ (by decide)
  intro a ha b hb _
  simp only [filterMap_cons, Event.actor, filterMap_nil, mem_cons,
    not_mem_nil, or_false, or_self] at ha hb
  rw [ha, hb]

/-- An absent session and the nil one have the same digest. -/
theorem nil_session_is_none :
    sampleActor (some noSession) ≠ sampleActor none ∧ ∀ sha256 : Bytes → Digest,
    ∃ s, Run (Step sha256) ⟨.empty, 0⟩ [.consumed 1 noSession (sampleUse (some noSession)) (.ok 7),
      .issued 0 noSession (sampleUse none) 7] s :=
  ⟨by decide, fun sha256 => sample_run sha256 _ rfl⟩

end KnowledgePlatform.Search.Cursor
