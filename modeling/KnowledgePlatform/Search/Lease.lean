import KnowledgePlatform.Lib.OrderedMap
import KnowledgePlatform.Lib.Run
import Mathlib.Data.String.Basic

/-! One owner's guarded store: calls check the lease, await the gate without the lock, and check the
lease again before they use the entries. -/

namespace KnowledgePlatform.Search.Lease

inductive LeaseState where
  | building
  | open_
  | closing
  | closed
  | revoked
  | expired
deriving DecidableEq

/-- The states that are never left. -/
def LeaseState.isFinal (state : LeaseState) : Bool :=
  state = .closed || state = .revoked || state = .expired

inductive LeaseError where
  | leaseUnavailable

structure RemoteLease where
  absoluteDeadline : Int
  idleTimeout : Option Nat
  providerExpiry : Option Int

def RemoteLease.expired (lease : RemoteLease) (lastUsed now : Int) : Bool :=
  decide (lease.absoluteDeadline ≤ now) ||
    lease.providerExpiry.any (fun limit => decide (limit ≤ now)) ||
    lease.idleTimeout.any fun idle => decide (idle ≤ (now - lastUsed).toNat)

structure Inner (τ : Type) where
  state : LeaseState
  lastUsed : Int
  entries : OrderedMap String τ

/-- What is fixed when the store is made. -/
structure Store (ω : Type) where
  owner : ω
  lease : RemoteLease
  maxEntries : Nat

variable {ω τ ι : Type}

/-- `open`, with the clock's instant. -/
def Inner.opened (inner : Inner τ) (now : Int) : Inner τ :=
  if inner.state = .building then { inner with state := .open_, lastUsed := now } else inner

/-- Owner, state and every deadline. Expiry clears and is final. -/
def Store.live [DecidableEq ω] (store : Store ω) (inner : Inner τ) (owner : ω) (now : Int) :
    Except LeaseError Unit × Inner τ :=
  if owner ≠ store.owner ∨ inner.state ≠ .open_ then (.error .leaseUnavailable, inner)
  else if store.lease.expired inner.lastUsed now then
    (.error .leaseUnavailable, { inner with state := .expired, entries := .empty })
  else (.ok (), inner)

def Inner.close (inner : Inner τ) : Inner τ :=
  if inner.state = .building ∨ inner.state = .open_ then
    { inner with state := .closed, entries := .empty }
  else inner

def Inner.revoke (inner : Inner τ) : Inner τ :=
  if inner.state = .closed ∨ inner.state = .expired then { inner with entries := .empty }
  else { inner with state := .revoked, entries := .empty }

inductive Request (τ : Type) where
  | read (key : String)
  | write (key : String) (value : τ)

/-- What a call does after the gate. A write answers with nothing. -/
def Store.finish [DecidableEq ω] (store : Store ω) (inner : Inner τ) (owner : ω)
    (request : Request τ) (now after : Int) : Except LeaseError (Option τ) × Inner τ :=
  match store.live inner owner now with
  | (.error e, inner) => (.error e, inner)
  | (.ok (), inner) =>
    match request with
    | .read key => (.ok (inner.entries.get key), { inner with lastUsed := after })
    | .write key value =>
      if inner.entries.contains key = false ∧ store.maxEntries ≤ inner.entries.size then
        (.error .leaseUnavailable, inner)
      else (.ok none, { inner with entries := inner.entries.insert key value, lastUsed := after })

/-! ## Runs -/

/-- A call that awaits the gate, or that the gate has granted. -/
structure Pending (ω τ : Type) where
  owner : ω
  request : Request τ
  granted : Bool

structure System (ω τ ι : Type) where
  inner : Inner τ
  clock : Int
  calls : ι → Option (Pending ω τ)

def System.new (start : Int) : System ω τ ι := ⟨⟨.building, start, .empty⟩, start, fun _ => none⟩

def System.set [DecidableEq ι] (s : System ω τ ι) (inner : Inner τ) (clock : Int) (i : ι)
    (call : Option (Pending ω τ)) : System ω τ ι :=
  ⟨inner, clock, fun j => if j = i then call else s.calls j⟩

inductive Event (ω τ ι : Type) where
  | internal
  | began (i : ι)
  | dropped (i : ι)
  | answered (i : ι) (now : Int) (current : Bool)
  | finished (i : ι) (owner : ω) (request : Request τ) (reply : Except LeaseError (Option τ))

def Event.call : Event ω τ ι → Option ι
  | .internal => none
  | .began i | .dropped i | .answered i _ _ | .finished i _ _ _ => some i

def Event.written : Event ω τ ι → Option (String × τ)
  | .finished _ _ (.write key value) (.ok _) => some (key, value)
  | _ => none

/-- One critical section, or an answer of the gate, which may say anything. A dropped call ends. -/
inductive Step [DecidableEq ω] [DecidableEq ι] (store : Store ω) (s : System ω τ ι) :
    Event ω τ ι → System ω τ ι → Prop where
  | opened (now : Int) (later : s.clock ≤ now) :
    Step store s .internal { s with inner := s.inner.opened now, clock := now }
  | closed : Step store s .internal { s with inner := s.inner.close }
  | revoked : Step store s .internal { s with inner := s.inner.revoke }
  | invalidated (owner : ω) : Step store s .internal
    { s with inner := if owner = store.owner then s.inner.revoke else s.inner }
  | refused (owner : ω) (now : Int) (later : s.clock ≤ now)
      (h : (store.live s.inner owner now).1 ≠ .ok ()) :
    Step store s .internal { s with inner := (store.live s.inner owner now).2, clock := now }
  | began (i : ι) (owner : ω) (request : Request τ) (now : Int) (idle : s.calls i = none)
      (later : s.clock ≤ now) (h : store.live s.inner owner now = (.ok (), s.inner)) :
    Step store s (.began i) (s.set s.inner now i (some ⟨owner, request, false⟩))
  | answered (i : ι) (p : Pending ω τ) (now : Int) (current : Bool) (here : s.calls i = some p)
      (waits : p.granted = false) (later : s.clock ≤ now) :
    Step store s (.answered i now current)
      (if current then s.set s.inner now i (some { p with granted := true })
        else s.set s.inner.revoke now i none)
  | finished (i : ι) (p : Pending ω τ) (now after : Int) (here : s.calls i = some p)
      (granted : p.granted = true) (later : s.clock ≤ now) (reads : now ≤ after) :
    Step store s (.finished i p.owner p.request
      (store.finish s.inner p.owner p.request now after).1)
      (s.set (store.finish s.inner p.owner p.request now after).2 after i none)
  | dropped (i : ι) : Step store s (.dropped i) (s.set s.inner s.clock i none)

/-! ## What a step does to the lease -/

/-- Every change of the lease, with the entry that it writes. -/
inductive Change (store : Store ω) (inner : Inner τ) (now : Int) :
    Option (String × τ) → Inner τ → Prop where
  | same : Change store inner now none inner
  | opened (was : inner.state = .building) (later : Int) :
    Change store inner now none { inner with state := .open_, lastUsed := later }
  | ended (new : Inner τ) (final : new.state.isFinal = true) (empty : new.entries = .empty)
      (stays : inner.state.isFinal = true → new.state = inner.state) :
    Change store inner now none new
  | used (is : inner.state = .open_) (live : store.lease.expired inner.lastUsed now = false)
      (after : Int) : Change store inner now none { inner with lastUsed := after }
  | wrote (is : inner.state = .open_) (live : store.lease.expired inner.lastUsed now = false)
      (after : Int) (key : String) (value : τ) : Change store inner now (some (key, value))
        { inner with entries := inner.entries.insert key value, lastUsed := after }

variable {store : Store ω} {inner new : Inner τ} {owner : ω} {now now' : Int}
  {written : Option (String × τ)} {s t : System ω τ ι} {e : Event ω τ ι} {i : ι}
  {trace : List (Event ω τ ι)}

theorem revoke_change : Change store inner now none inner.revoke := by
  refine .ended _ ?_ ?_ ?_ <;> unfold Inner.revoke <;> split
  next ended =>
    obtain ended | ended := ended <;> simp [LeaseState.isFinal, ended]
  · rfl
  · rfl
  · rfl
  · exact fun _ => rfl
  next ended =>
    intro final
    simp only [LeaseState.isFinal, Bool.or_eq_true, decide_eq_true_eq] at final
    simp only [not_or] at ended
    grind

theorem Change.final (c : Change store inner now written new)
    (final : inner.state.isFinal = true) : new.state = inner.state := by
  cases c with
  | same | used | wrote => rfl
  | opened was => rw [was] at final; cases final
  | ended _ _ _ stays => exact stays final

theorem expired_later {lease : RemoteLease} {lastUsed : Int} (le : now ≤ now')
    (h : lease.expired lastUsed now' = false) : lease.expired lastUsed now = false := by
  have earlier (limit : Int) (later : ¬ limit ≤ now') : ¬ limit ≤ now := by omega
  have idle (n : Nat) (later : ¬ n ≤ (now' - lastUsed).toNat) : ¬ n ≤ (now - lastUsed).toNat := by
    omega
  unfold RemoteLease.expired at h ⊢
  simp only [Bool.or_eq_false_iff, decide_eq_false_iff_not, Option.any_eq_false_iff_get] at h ⊢
  exact ⟨⟨earlier _ h.1.1, fun some => earlier _ (h.1.2 some)⟩, fun some => idle _ (h.2 some)⟩

/-- A lease that is open after a change was open before, and used only while it was live. -/
theorem Change.back (c : Change store inner now written new) (begun : inner.state ≠ .building)
    (is : new.state = .open_) : inner.state = .open_ ∧
      (new.lastUsed = inner.lastUsed ∨ store.lease.expired inner.lastUsed now = false) := by
  cases c with
  | same => exact ⟨is, .inl rfl⟩
  | opened was => exact absurd was begun
  | ended _ final => rw [is] at final; cases final
  | used is live => exact ⟨is, .inr live⟩
  | wrote is live => exact ⟨is, .inr live⟩

theorem Change.begun (c : Change store inner now written new) (begun : inner.state ≠ .building) :
    new.state ≠ .building := by
  cases c with
  | same | used | wrote => exact begun
  | opened => exact nofun
  | ended _ final =>
    intro is
    rw [is] at final
    cases final

/-- An open lease holds what was last written under each key, any other lease nothing. -/
structure Kept (writes : List (String × τ)) (inner : Inner τ) : Prop where
  current : inner.state = .open_ → ∀ key, inner.entries.get key = writes.lookup key
  fresh : inner.state = .building → writes = []
  empty : inner.state ≠ .open_ → inner.entries = .empty

theorem Change.kept {writes : List (String × τ)} (c : Change store inner now written new)
    (h : Kept writes inner) : Kept (written.toList ++ writes) new := by
  cases c with
  | same => exact h
  | opened was =>
    refine ⟨fun _ key => ?_, nofun, fun other => absurd rfl other⟩
    have none : inner.entries = .empty := h.empty (by rw [was]; exact nofun)
    rw [none, h.fresh was]
    rfl
  | ended _ final empty =>
    refine ⟨fun is => ?_, fun is => ?_, fun _ => empty⟩ <;> rw [is] at final <;> cases final
  | used => exact ⟨h.current, h.fresh, h.empty⟩
  | wrote is _ _ key =>
    refine ⟨fun _ other => ?_, fun was => ?_, fun other => absurd is other⟩
    · rw [OrderedMap.get_insert, h.current is]
      by_cases same : other = key
      · simp [same]
      · simp [List.lookup_cons, beq_false_of_ne same, same]
    · exact absurd (was.symm.trans is) nofun

variable [DecidableEq ω]

theorem live_ok (h : (store.live inner owner now).1 = .ok ()) :
    owner = store.owner ∧ inner.state = .open_ ∧
      store.lease.expired inner.lastUsed now = false ∧ (store.live inner owner now).2 = inner := by
  unfold Store.live at h ⊢
  split at h
  · cases h
  next fits =>
    split at h
    · cases h
    next unexpired =>
      rw [if_neg fits, if_neg unexpired]
      simp only [ne_eq, not_or, not_not] at fits
      exact ⟨fits.1, fits.2, Bool.eq_false_of_not_eq_true unexpired, rfl⟩

theorem live_change : Change store inner now none (store.live inner owner now).2 := by
  unfold Store.live
  split
  · exact .same
  next fits =>
    simp only [ne_eq, not_or, not_not] at fits
    split
    · refine .ended _ rfl rfl fun final => ?_
      rw [fits.2] at final
      cases final
    · exact .same

theorem finish_change {request : Request τ} {after : Int} :
    Change store inner now (Event.written (.finished i owner request
      (store.finish inner owner request now after).1 : Event ω τ ι))
      (store.finish inner owner request now after).2 := by
  have change : Change store inner now none (store.live inner owner now).2 := live_change
  unfold Store.finish
  split
  next e next answered =>
    rw [answered] at change
    cases request <;> exact change
  next next answered =>
    obtain ⟨-, is, live, same⟩ := live_ok (congrArg Prod.fst answered)
    rw [answered] at same
    subst same
    cases request with
    | read => exact .used is live after
    | write key value =>
      dsimp only
      split
      · exact .same
      · exact .wrote is live after key value

variable [DecidableEq ι]

theorem Step.change (h : Step store s e t) :
    ∃ now, s.clock ≤ now ∧ now ≤ t.clock ∧ Change store s.inner now e.written t.inner := by
  cases h with
  | opened now later =>
    refine ⟨now, later, le_rfl, ?_⟩
    show Change store s.inner now none (s.inner.opened now)
    unfold Inner.opened
    split
    · exact .opened (by assumption) now
    · exact .same
  | closed =>
    refine ⟨s.clock, le_rfl, le_rfl, ?_⟩
    show Change store s.inner _ none s.inner.close
    unfold Inner.close
    split
    next was =>
      refine .ended _ rfl rfl fun final => ?_
      obtain was | was := was <;> rw [was] at final <;> cases final
    · exact .same
  | revoked => exact ⟨s.clock, le_rfl, le_rfl, revoke_change⟩
  | invalidated owner =>
    refine ⟨s.clock, le_rfl, le_rfl, ?_⟩
    show Change store s.inner _ none (if owner = store.owner then s.inner.revoke else s.inner)
    split
    · exact revoke_change
    · exact .same
  | refused _ now later => exact ⟨now, later, le_rfl, live_change⟩
  | began _ _ _ now _ later => exact ⟨now, later, le_rfl, .same⟩
  | answered _ _ now current _ _ later =>
    cases current with
    | true => exact ⟨now, later, le_rfl, .same⟩
    | false => exact ⟨now, later, le_rfl, revoke_change⟩
  | finished _ _ now _ _ _ later reads => exact ⟨now, later, reads, finish_change⟩
  | dropped => exact ⟨s.clock, le_rfl, le_rfl, .same⟩

theorem kept_run {start : Int} (run : Run (Step store) (.new start) trace s) :
    Kept (trace.filterMap Event.written) s.inner := by
  refine run.invariant (P := fun trace s => Kept (trace.filterMap Event.written) s.inner)
    ⟨fun is => (by cases is), fun _ => rfl, fun _ => rfl⟩ ?_
  intro trace s e t h step
  obtain ⟨now, -, -, change⟩ := step.change
  have kept := change.kept h
  rw [List.filterMap_cons]
  cases found : e.written <;> rw [found] at kept <;> exact kept

/-! ## Granted calls -/

/-- The gate answered that the owner is current, at a point since when the call has done nothing; if
the lease is still open, it was open then, and used since only if it was live then. -/
def Granted (store : Store ω) (start : Int) (trace : List (Event ω τ ι)) (s : System ω τ ι) (i : ι)
    (p : Pending ω τ) : Prop :=
  ∃ between before now a, trace = between ++ .answered i now true :: before ∧
    (∀ e ∈ between, e.call ≠ some i) ∧ Run (Step store) (.new start) before a ∧
    a.calls i = some { p with granted := false } ∧ now ≤ s.clock ∧
    (s.inner.state = .open_ → a.inner.state = .open_ ∧
      (s.inner.lastUsed = a.inner.lastUsed ∨ store.lease.expired a.inner.lastUsed now = false))

theorem Granted.next {start : Int} {p : Pending ω τ} (h : Granted store start trace s i p)
    (begun : s.inner.state ≠ .building) (step : Step store s e t) (other : e.call ≠ some i) :
    Granted store start (e :: trace) t i p := by
  obtain ⟨between, before, now, a, rfl, clean, run, waits, past, guarded⟩ := h
  obtain ⟨now', later, reads, change⟩ := step.change
  refine ⟨e :: between, before, now, a, rfl, List.forall_mem_cons.mpr ⟨other, clean⟩, run, waits,
    past.trans (later.trans reads), ?_⟩
  intro is
  obtain ⟨was, same | live⟩ := change.back begun is
  · rw [same]
    exact guarded was
  · obtain ⟨before, kept | live'⟩ := guarded was
    · exact ⟨before, .inr (expired_later (past.trans later) (kept ▸ live))⟩
    · exact ⟨before, .inr live'⟩

/-- Where a call that is under way after a step comes from. -/
theorem Step.calls {j : ι} {q : Pending ω τ} (h : Step store s e t) (there : t.calls j = some q) :
    (s.calls j = some q ∧ e.call ≠ some j) ∨ (q.granted = false ∧ t.inner.state = .open_) ∨
      ∃ p now, e = .answered j now true ∧ s.calls j = some p ∧ p.granted = false ∧
        q = { p with granted := true } ∧ t.inner = s.inner ∧ t.clock = now := by
  have own {inner : Inner τ} {clock : Int} {i : ι} {call : Option (Pending ω τ)}
      (there : (s.set inner clock i call).calls j = some q) :
      (j = i ∧ call = some q) ∨ s.calls j = some q ∧ some i ≠ some j := by
    simp only [System.set] at there
    split at there
    · exact .inl ⟨by assumption, there⟩
    next apart =>
      exact .inr ⟨there, fun same => apart (Option.some.inj same).symm⟩
  cases h with
  | opened | closed | revoked | invalidated | refused => exact .inl ⟨there, nofun⟩
  | began _ _ _ _ _ _ live =>
    obtain ⟨rfl, made⟩ | kept := own there
    · cases made
      exact .inr (.inl ⟨rfl, (live_ok (congrArg Prod.fst live)).2.1⟩)
    · exact .inl kept
  | answered i p now current here waits =>
    cases current with
    | true =>
      obtain ⟨rfl, made⟩ | kept := own there
      · cases made
        exact .inr (.inr ⟨p, now, rfl, here, waits, rfl, rfl, rfl⟩)
      · exact .inl kept
    | false =>
      obtain ⟨rfl, made⟩ | kept := own there
      · cases made
      · exact .inl kept
  | finished | dropped =>
    obtain ⟨rfl, made⟩ | kept := own there
    · cases made
    · exact .inl kept

theorem granted_run {start : Int} (run : Run (Step store) (.new start) trace s) (p : Pending ω τ)
    (there : s.calls i = some p) :
    s.inner.state ≠ .building ∧ (p.granted = true → Granted store start trace s i p) := by
  induction run generalizing i p with
  | start => cases there
  | @next trace s e t run step ih =>
    obtain ⟨now, later, reads, change⟩ := step.change
    obtain ⟨here, other⟩ | ⟨waits, is⟩ | ⟨p, now, rfl, here, waits, rfl, same, rfl⟩ :=
      step.calls there
    · obtain ⟨begun, granted⟩ := ih p here
      exact ⟨change.begun begun, fun yes => (granted yes).next begun step other⟩
    · refine ⟨by rw [is]; exact nofun, fun yes => ?_⟩
      rw [waits] at yes
      cases yes
    · obtain ⟨begun, -⟩ := ih p here
      refine ⟨same ▸ begun, fun _ => ⟨[], trace, t.clock, s, rfl, nofun, run, ?_, le_rfl, ?_⟩⟩
      · rw [here, ← waits]
      · rw [same]
        exact fun is => ⟨is, .inl rfl⟩

/-- A closed, revoked or expired lease stays so and holds nothing. A value is read only if the gate
granted the call while it was pending and the lease open, unexpired and the caller's own; it is the
last one written under the key. -/
theorem reads_are_guarded {start : Int} (run : Run (Step store) (.new start) trace s) :
    (s.inner.state.isFinal = true → ∀ later t, Run (Step store) s later t →
      t.inner.state = s.inner.state ∧ t.inner.entries = .empty) ∧
    ∀ newer older i owner key value,
      trace = newer ++ .finished i owner (.read key) (.ok (some value)) :: older →
      owner = store.owner ∧ (older.filterMap Event.written).lookup key = some value ∧
      ∃ between before now a, older = between ++ .answered i now true :: before ∧
        (∀ e ∈ between, e.call ≠ some i) ∧ Run (Step store) (.new start) before a ∧
        a.calls i = some ⟨owner, .read key, false⟩ ∧ a.inner.state = .open_ ∧
        store.lease.expired a.inner.lastUsed now = false := by
  constructor
  · intro final later t after
    have stays : t.inner.state = s.inner.state := by
      refine after.invariant (P := fun _ t => t.inner.state = s.inner.state) rfl ?_
      intro _ _ _ _ same step
      obtain ⟨_, -, -, change⟩ := step.change
      exact (change.final (by rw [same]; exact final)).trans same
    refine ⟨stays, (kept_run (run.append after)).empty ?_⟩
    intro is
    rw [← stays, is] at final
    cases final
  · rintro newer older i owner key value rfl
    obtain ⟨a, b, earlier, step, -⟩ := run.split
    generalize label : Event.finished i owner (.read key) (.ok (some value)) = e at step
    cases step with
    | finished _ p now _ here granted later =>
      rw [Event.finished.injEq] at label
      obtain ⟨rfl, rfl, request, reply⟩ := label
      have ok : (store.live a.inner p.owner now).1 = .ok () := by
        unfold Store.finish at reply
        split at reply
        · cases reply
        next answered =>
          rw [answered]
      obtain ⟨owned, is, live, same⟩ := live_ok ok
      have answered : store.live a.inner p.owner now = (.ok (), a.inner) := Prod.ext ok same
      rw [Store.finish, answered, ← request] at reply
      have read := ((kept_run earlier).current is key).symm.trans (Except.ok.inj reply).symm
      obtain ⟨between, before, asked, point, rfl, clean, first, waits, past, guarded⟩ :=
        (granted_run earlier p here).2 granted
      obtain ⟨was, kept⟩ := guarded is
      refine ⟨owned, read, between, before, asked, point, rfl, clean, first, request ▸ waits,
        was, ?_⟩
      obtain kept | unexpired := kept
      · exact expired_later (past.trans later) (kept ▸ live)
      · exact unexpired
    | _ => cases label

def sampleStore : Store Unit := ⟨(), ⟨10, none, none⟩, 1⟩

theorem reads_are_guarded_sample :
    ∃ (older : List (Event Unit Nat Unit)) (s : System Unit Nat Unit),
      Run (Step sampleStore) (.new 0) (.finished () () (.read "k") (.ok (some 5)) :: older) s ∧
      (older.filterMap Event.written).lookup "k" = some 5 := by
  have opened : Run (Step sampleStore) (.new 0 : System Unit Nat Unit) [.internal] _ :=
    Run.start.next (.opened 0 le_rfl)
  have asked := (opened.next (.began () () (.write "k" 5) 0 rfl le_rfl rfl)).next
    (.answered () ⟨(), .write "k" 5, false⟩ 0 true rfl rfl le_rfl)
  have wrote := asked.next (.finished () ⟨(), .write "k" 5, true⟩ 0 0 rfl rfl le_rfl le_rfl)
  have again := (wrote.next (.began () () (.read "k") 0 rfl le_rfl rfl)).next
    (.answered () ⟨(), .read "k", false⟩ 0 true rfl rfl le_rfl)
  have read := again.next (.finished () ⟨(), .read "k", true⟩ 0 0 rfl rfl le_rfl le_rfl)
  exact ⟨_, _, read, ((reads_are_guarded read).2 [] _ () () "k" 5 rfl).2.1⟩

end KnowledgePlatform.Search.Lease
